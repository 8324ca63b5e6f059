import Libp2pNym.Connection.Basic
import Libp2pNym.Substream.Equiv.Basic

/-!
# What an endpoint can do

`Handles e s ty e' r` lists what handling a message of type `ty` for the substream id `s` can do,
and `Steps e o e' a` what an operation can do.  `handles_of_handleMessage` and `steps_of_step` say
that this is all, for an endpoint whose maps are well formed (`Wf`), and `wf_step` that every
operation keeps them so.  `pollLoop_induction` is the rule for the loop of `poll`.

The invariants of the other modules are proved case by case over these two relations.
-/

namespace Libp2pNym.Endpoint

variable {P R : Type}

/-! ### The states after the parts of an operation -/

/-- A message was sent with the next nonce. -/
def emitted (e : Endpoint P R) (s : SubstreamId) (ty : SubstreamMessageType) : Endpoint P R :=
  { e with outbox := e.outbox.emit e.conn.remoteRecipient e.conn.id ⟨s, ty⟩ }

/-- A nonce was drawn and no message sent. -/
def drawn (e : Endpoint P R) : Endpoint P R := { e with outbox := e.outbox.draw }

/-- A substream was created and registered under `s`. -/
def opened (e : Endpoint P R) (s : SubstreamId) : Endpoint P R :=
  { e with
    conn.substreamInboundTxs := e.conn.substreamInboundTxs.insert s e.next
    conn.substreamCloseTxs := e.conn.substreamCloseTxs.insert s e.next
    substreams := e.substreams.insert e.next
      (.new e.conn.remoteRecipient e.conn.id s Chan.new Oneshot.new)
    next := e.next + 1 }

/-- The remote's request for `s` was accepted: the substream is queued for `pollInbound` and the
response is sent. -/
def accepted (e : Endpoint P R) (s : SubstreamId) : Endpoint P R :=
  { (e.opened s).emitted s .openResponse with
    conn.inboundOpen := { e.conn.inboundOpen with queue := e.conn.inboundOpen.queue ++ [e.next] } }

/-- The remote's request for `s` was taken, but the response could not be sent, and the new
substream is dropped. -/
def unanswered (e : Endpoint P R) (s : SubstreamId) : Endpoint P R :=
  { (e.opened s).drawn with
    substreams := (e.opened s).substreams.modify e.next Substream.drop }

/-- A local open of `s`: the request is sent and the substream is pending. -/
def requested (e : Endpoint P R) (s : SubstreamId) : Endpoint P R :=
  { (e.emitted s .openRequest).opened s with
    conn.pendingSubstreams := insert s e.conn.pendingSubstreams }

/-- The remote's close of `s` was handled: the senders are gone and the signal is sent. -/
def closedBy (e : Endpoint P R) (s : SubstreamId) (h : ℕ) (sub : Substream R) :
    Endpoint P R :=
  { e with
    conn.substreamInboundTxs := e.conn.substreamInboundTxs.remove s
    conn.substreamCloseTxs := e.conn.substreamCloseTxs.remove s
    conn.closeIds := { e.conn.closeIds with queue := e.conn.closeIds.queue ++ [s] }
    substreams := e.substreams.insert h
      { sub with
        inboundRx := sub.inboundRx.dropTx
        closeRx := { sub.closeRx with slot := .sent () } } }

/-- The head of the inbound channel was taken. -/
def took (e : Endpoint P R) (msg : SubstreamMessage) (rest : List SubstreamMessage) :
    Endpoint P R :=
  { e with conn.inboundRx :=
      { e.conn.inboundRx with got := e.conn.inboundRx.got ++ [msg], queue := rest } }

/-! ### Well-formed endpoints -/

/-- The two maps of senders agree, a sender leads to a substream with the id it is filed under, the
substreams belong to this connection, handles are given out in order, and the channels whose both
ends the connection holds are open. -/
structure Wf (e : Endpoint P R) : Prop where
  closeTxs : e.conn.substreamCloseTxs = e.conn.substreamInboundTxs
  registered : ∀ s h, e.conn.substreamInboundTxs s = some h →
    ∃ sub, e.substreams h = some sub ∧ sub.substreamId = s
  fresh : ∀ h, e.next ≤ h → e.substreams h = none
  belongs : ∀ h sub, e.substreams h = some sub →
    sub.connectionId = e.conn.id ∧ sub.remoteRecipient = e.conn.remoteRecipient
  halves : ∀ h sub, e.substreams h = some sub → sub.closeRx.rxAlive = sub.inboundRx.rxAlive
  inboundOpenRx : e.conn.inboundOpen.rxAlive = true
  closeIdsRx : e.conn.closeIds.rxAlive = true

theorem wf_new (peerId : P) (remoteRecipient : R) (id : ConnectionId)
    (outboundTx : Chan (OutboundMessage P R)) : (new peerId remoteRecipient id outboundTx).Wf where
  closeTxs := rfl
  registered s h hs := by simp [new, Connection.new] at hs
  fresh h _ := rfl
  belongs h sub hs := by simp [new] at hs
  halves h sub hs := by simp [new] at hs
  inboundOpenRx := rfl
  closeIdsRx := rfl

/-- A handle that is registered has been given out. -/
theorem Wf.lt_next {e : Endpoint P R} (hw : e.Wf) {h : ℕ} {sub : Substream R}
    (hs : e.substreams h = some sub) : h < e.next := by
  by_contra hge
  rw [hw.fresh h (Nat.not_lt.mp hge)] at hs
  cases hs

/-- A handle is registered under one id only. -/
theorem Wf.id_unique {e : Endpoint P R} (hw : e.Wf) {s s' : SubstreamId} {h : ℕ}
    (hs : e.conn.substreamInboundTxs s = some h) (hs' : e.conn.substreamInboundTxs s' = some h) :
    s = s' := by
  obtain ⟨sub, h1, h2⟩ := hw.registered s h hs
  obtain ⟨sub', h1', h2'⟩ := hw.registered s' h hs'
  rw [h1] at h1'
  cases h1'
  exact h2.symm.trans h2'

/-- What is in the inbound channel does not matter. -/
theorem Wf.inboundRx {e : Endpoint P R} (hw : e.Wf) (rx : Chan SubstreamMessage) :
    { e with conn.inboundRx := rx }.Wf :=
  ⟨hw.closeTxs, hw.registered, hw.fresh, hw.belongs, hw.halves, hw.inboundOpenRx, hw.closeIdsRx⟩

theorem Wf.took {e : Endpoint P R} (hw : e.Wf) (msg : SubstreamMessage)
    (rest : List SubstreamMessage) : (e.took msg rest).Wf := hw.inboundRx _

/-! ### Handling a message -/

theorem newSubstream_of_some {e : Endpoint P R} {s : SubstreamId} {h : ℕ}
    (hs : e.conn.substreamInboundTxs s = some h) :
    e.newSubstream s = (e, .error (.substreamIdExists s)) := by
  simp only [newSubstream, hs, Option.isSome_some, ↓reduceIte]

theorem newSubstream_of_none {e : Endpoint P R} {s : SubstreamId}
    (hs : e.conn.substreamInboundTxs s = none) : e.newSubstream s = (e.opened s, .ok e.next) := by
  simp only [newSubstream, hs, Option.isSome_none, Bool.false_eq_true, ↓reduceIte, opened]

theorem sendMessage_of_alive {e : Endpoint P R} (ha : e.outbox.Alive) (s : SubstreamId)
    (ty : SubstreamMessageType) : e.sendMessage s ty = (e.emitted s ty, .ok ()) := by
  have := Outbox.send_fetchAdd_of_alive ha e.conn.remoteRecipient e.conn.id ⟨s, ty⟩
  simp only [sendMessage, this, emitted]

theorem sendMessage_of_not_alive {e : Endpoint P R} (ha : ¬ e.outbox.Alive) (s : SubstreamId)
    (ty : SubstreamMessageType) :
    e.sendMessage s ty = (e.drawn, .error (.outboundSendError sendErrorText)) := by
  simp only [sendMessage, Outbox.send_fetchAdd_of_not_alive ha]
  rfl

/-- What handling a message of type `ty` for the id `s` can do. -/
inductive Handles (e : Endpoint P R) (s : SubstreamId) :
    SubstreamMessageType → Endpoint P R → Except Error Unit → Prop
  | openExists (h : ℕ) (hs : e.conn.substreamInboundTxs s = some h) :
    Handles e s .openRequest e (.error (.substreamIdExists s))
  | openAccepted (hs : e.conn.substreamInboundTxs s = none) (ha : e.outbox.Alive) :
    Handles e s .openRequest (e.accepted s) (.ok ())
  | openUnanswered (hs : e.conn.substreamInboundTxs s = none) (ha : ¬ e.outbox.Alive) :
    Handles e s .openRequest (e.unanswered s) (.error (.outboundSendError sendErrorText))
  | openResponse :
    Handles e s .openResponse
      { e with conn.pendingSubstreams := e.conn.pendingSubstreams.erase s } (.ok ())
  | closeUnknown (hs : e.conn.substreamInboundTxs s = none) :
    Handles e s .close e (.error (.substreamIdDoesNotExist s))
  | closed (h : ℕ) (sub : Substream R) (hs : e.conn.substreamInboundTxs s = some h)
      (hsub : e.substreams h = some sub) (halive : sub.closeRx.rxAlive = true) :
    Handles e s .close (e.closedBy s h sub) (.ok ())
  | data (h : ℕ) (d : Bytes) (hs : e.conn.substreamInboundTxs s = some h) :
    Handles e s (.data d) (e.sendData h d) (.ok ())

/-- The messages that can be handled without a panic: data for a registered id, and the close of an
id that is not registered or whose substream is still there. -/
def Safe (e : Endpoint P R) (msg : SubstreamMessage) : Prop :=
  match msg.messageType with
  | .openRequest => True
  | .openResponse => True
  | .close => ∀ h sub, e.conn.substreamInboundTxs msg.substreamId = some h →
      e.substreams h = some sub → sub.closeRx.rxAlive = true
  | .data _ => e.conn.substreamInboundTxs msg.substreamId ≠ none

theorem notifyClosed_of_some {e : Endpoint P R} (hw : e.Wf) {s : SubstreamId} {h : ℕ}
    {sub : Substream R} (hs : e.conn.substreamInboundTxs s = some h)
    (hsub : e.substreams h = some sub) :
    (e.dropInboundTx s h).notifyClosed s = if sub.closeRx.rxAlive then
      .ok (e.closedBy s h sub, .ok ()) else .error .unwrapErr := by
  have hc : (e.dropInboundTx s h).conn.substreamCloseTxs s = some h := by
    rw [← hs]
    exact congrFun hw.closeTxs s
  unfold notifyClosed
  rw [hc]
  simp only [dropInboundTx, KeyMap.modify, hsub, Option.map_some, Function.update_self,
    Oneshot.send]
  by_cases hal : sub.closeRx.rxAlive = true
  · simp only [hal, ↓reduceIte, Chan.send, hw.closeIdsRx, closedBy, KeyMap.insert,
      Function.update_idem]
  · simp only [hal, Bool.false_eq_true, ↓reduceIte]

theorem handleClose_of_some {e : Endpoint P R} (hw : e.Wf) {s : SubstreamId} {h : ℕ}
    {sub : Substream R} (hs : e.conn.substreamInboundTxs s = some h)
    (hsub : e.substreams h = some sub) :
    e.handleClose s = if sub.closeRx.rxAlive then .ok (e.closedBy s h sub, .ok ())
      else .error .unwrapErr := by
  rw [handleClose, hs]
  exact notifyClosed_of_some hw hs hsub

/-- Handling a message does one of the things `Handles` lists, or panics if the message is not
`Safe`. -/
theorem handleMessage_cases {e : Endpoint P R} (hw : e.Wf) (msg : SubstreamMessage) :
    (e.Safe msg ∧ ∃ e' r, e.handleMessage msg = .ok (e', r) ∧
      Handles e msg.substreamId msg.messageType e' r) ∨
    (¬ e.Safe msg ∧ ∃ p, e.handleMessage msg = .error p) := by
  obtain ⟨s, ty⟩ := msg
  cases ty with
  | openRequest =>
    refine Or.inl ⟨trivial, ?_⟩
    cases hs : e.conn.substreamInboundTxs s with
    | some h =>
      refine ⟨e, _, ?_, .openExists h hs⟩
      simp only [handleMessage, newSubstream_of_some hs]
    | none =>
      by_cases ha : e.outbox.Alive
      · have ha' : (e.opened s).outbox.Alive := ha
        refine ⟨_, _, ?_, .openAccepted hs ha⟩
        have ho : ((e.opened s).emitted s .openResponse).conn.inboundOpen.send e.next
            = some { e.conn.inboundOpen with queue := e.conn.inboundOpen.queue ++ [e.next] } := by
          simp only [Chan.send, emitted, opened, hw.inboundOpenRx, ↓reduceIte]
        simp only [handleMessage, newSubstream_of_none hs, sendMessage_of_alive ha', ho, accepted]
      · have ha' : ¬ (e.opened s).outbox.Alive := ha
        refine ⟨_, _, ?_, .openUnanswered hs ha⟩
        simp only [handleMessage, newSubstream_of_none hs, sendMessage_of_not_alive ha',
          unanswered]
        rfl
  | openResponse => exact Or.inl ⟨trivial, _, _, rfl, .openResponse⟩
  | close =>
    cases hs : e.conn.substreamInboundTxs s with
    | none =>
      refine Or.inl ⟨fun h sub hh => ?_, e, _, ?_, .closeUnknown hs⟩
      · dsimp only at hh
        rw [hs] at hh
        cases hh
      · simp only [handleMessage, handleClose, hs]
    | some h =>
      obtain ⟨sub, hsub, -⟩ := hw.registered s h hs
      have hclose := handleClose_of_some hw hs hsub
      by_cases hal : sub.closeRx.rxAlive = true
      · left
        refine ⟨fun h' sub' hh hsub' => ?_, _, _, ?_, .closed h sub hs hsub hal⟩
        · dsimp only at hh
          rw [hs] at hh
          cases hh
          rw [hsub] at hsub'
          cases hsub'
          exact hal
        · simp only [handleMessage, hclose, hal, ↓reduceIte]
      · refine Or.inr ⟨fun hsafe => hal (hsafe h sub hs hsub), .unwrapErr, ?_⟩
        simp only [handleMessage, hclose, hal, Bool.false_eq_true, ↓reduceIte]
  | data d =>
    cases hs : e.conn.substreamInboundTxs s with
    | none =>
      refine Or.inr ⟨fun hsafe => hsafe hs, .noSubstreamChannel, ?_⟩
      simp only [handleMessage, hs]
    | some h =>
      refine Or.inl ⟨fun hn => ?_, _, _, ?_, .data h d hs⟩
      · dsimp only at hn
        rw [hs] at hn
        cases hn
      · simp only [handleMessage, hs]

theorem handles_of_handleMessage {e e' : Endpoint P R} (hw : e.Wf) {msg : SubstreamMessage}
    {r : Except Error Unit} (h : e.handleMessage msg = .ok (e', r)) :
    Handles e msg.substreamId msg.messageType e' r := by
  rcases handleMessage_cases hw msg with ⟨-, e₁, r₁, h₁, hh⟩ | ⟨-, p, hp⟩
  · rw [h] at h₁
    cases h₁
    exact hh
  · rw [h] at hp
    cases hp

/-! ### Handling a message keeps the endpoint well formed -/

theorem Wf.opened {e : Endpoint P R} (hw : e.Wf) (s : SubstreamId) : (e.opened s).Wf where
  closeTxs := by simp only [Endpoint.opened, hw.closeTxs]
  registered s' h hs := by
    simp only [Endpoint.opened, KeyMap.insert_apply] at hs ⊢
    split at hs
    · rename_i heq
      cases hs
      exact ⟨_, if_pos rfl, heq.symm⟩
    · obtain ⟨sub, hsub, hid⟩ := hw.registered s' h hs
      have := hw.lt_next hsub
      exact ⟨sub, by rw [if_neg (by omega), hsub], hid⟩
  fresh h hge := by
    have hge' : e.next + 1 ≤ h := hge
    simp only [Endpoint.opened, KeyMap.insert_apply]
    rw [if_neg (by omega), hw.fresh h (by omega)]
  belongs h sub hs := by
    rcases KeyMap.insert_eq_some_iff.mp hs with ⟨-, rfl⟩ | ⟨-, hs⟩
    · exact ⟨rfl, rfl⟩
    · exact hw.belongs h sub hs
  halves h sub hs := by
    rcases KeyMap.insert_eq_some_iff.mp hs with ⟨-, rfl⟩ | ⟨-, hs⟩
    · rfl
    · exact hw.halves h sub hs
  inboundOpenRx := hw.inboundOpenRx
  closeIdsRx := hw.closeIdsRx

/-- Replacing a substream by one with the same ids whose halves agree. -/
theorem Wf.put {e : Endpoint P R} (hw : e.Wf) {h : ℕ} {sub sub' : Substream R}
    (hsub : e.substreams h = some sub) (hr : sub'.remoteRecipient = sub.remoteRecipient)
    (hc : sub'.connectionId = sub.connectionId) (hi : sub'.substreamId = sub.substreamId)
    (hh : sub'.closeRx.rxAlive = sub'.inboundRx.rxAlive) : (e.put h sub').Wf where
  closeTxs := hw.closeTxs
  registered s' h' hs := by
    obtain ⟨sub₁, hsub₁, hid⟩ := hw.registered s' h' hs
    simp only [Endpoint.put, KeyMap.insert_apply]
    split
    · rename_i heq
      subst heq
      rw [hsub] at hsub₁
      cases hsub₁
      exact ⟨sub', rfl, hi.trans hid⟩
    · exact ⟨sub₁, hsub₁, hid⟩
  fresh h' hge := by
    have := hw.lt_next hsub
    have hge' : e.next ≤ h' := hge
    simp only [Endpoint.put, KeyMap.insert_apply]
    rw [if_neg (by omega), hw.fresh h' hge]
  belongs h' sub₁ hs := by
    rcases KeyMap.insert_eq_some_iff.mp hs with ⟨-, rfl⟩ | ⟨-, hs⟩
    · exact ⟨hc.trans (hw.belongs h sub hsub).1, hr.trans (hw.belongs h sub hsub).2⟩
    · exact hw.belongs h' sub₁ hs
  halves h' sub₁ hs := by
    rcases KeyMap.insert_eq_some_iff.mp hs with ⟨-, rfl⟩ | ⟨-, hs⟩
    · exact hh
    · exact hw.halves h' sub₁ hs
  inboundOpenRx := hw.inboundOpenRx
  closeIdsRx := hw.closeIdsRx

/-- Unregistering an id. -/
theorem Wf.unregister {e : Endpoint P R} (hw : e.Wf) (s : SubstreamId) :
    Wf { e with
      conn.substreamInboundTxs := e.conn.substreamInboundTxs.remove s
      conn.substreamCloseTxs := e.conn.substreamCloseTxs.remove s
      conn.closeIds := { e.conn.closeIds with queue := e.conn.closeIds.queue ++ [s] } } where
  closeTxs := by simp only [hw.closeTxs]
  registered s' h hs := by
    exact hw.registered s' h (KeyMap.remove_eq_some_iff.mp hs).2
  fresh := hw.fresh
  belongs := hw.belongs
  halves := hw.halves
  inboundOpenRx := hw.inboundOpenRx
  closeIdsRx := hw.closeIdsRx

/-- Data reaches the inbound channel of its substream if the substream is still there. -/
def receivedData (sub : Substream R) (d : Bytes) : Substream R :=
  { sub with inboundRx := (sub.inboundRx.send d).getD sub.inboundRx }

theorem sendData_eq_put {e : Endpoint P R} {h : ℕ} {sub : Substream R}
    (hsub : e.substreams h = some sub) (d : Bytes) :
    e.sendData h d = e.put h (receivedData sub d) := by
  simp only [sendData, Endpoint.put, KeyMap.modify_eq_insert _ _ hsub, receivedData]
  cases sub.inboundRx.send d <;> rfl

theorem rxAlive_receivedData (sub : Substream R) (d : Bytes) :
    (receivedData sub d).inboundRx.rxAlive = sub.inboundRx.rxAlive := by
  simp only [receivedData, Chan.send]
  split <;> rfl

theorem wf_handles {e e' : Endpoint P R} (hw : e.Wf) {s : SubstreamId}
    {ty : SubstreamMessageType} {r : Except Error Unit} (hh : Handles e s ty e' r) : e'.Wf := by
  cases hh with
  | openExists h hs => exact hw
  | openAccepted hs ha =>
    have ho := hw.opened s
    exact ⟨ho.closeTxs, ho.registered, ho.fresh, ho.belongs, ho.halves, ho.inboundOpenRx,
      ho.closeIdsRx⟩
  | openUnanswered hs ha =>
    have hnew : (e.opened s).substreams e.next
        = some (.new e.conn.remoteRecipient e.conn.id s Chan.new Oneshot.new) :=
      KeyMap.insert_self ..
    have ho := (hw.opened s).put hnew
      (show (Substream.drop (.new e.conn.remoteRecipient e.conn.id s Chan.new
        Oneshot.new)).remoteRecipient = _ from rfl) rfl rfl rfl
    have heq := KeyMap.modify_eq_insert _ Substream.drop hnew
    unfold unanswered
    rw [heq]
    exact ⟨ho.closeTxs, ho.registered, ho.fresh, ho.belongs, ho.halves, ho.inboundOpenRx,
      ho.closeIdsRx⟩
  | openResponse =>
    exact ⟨hw.closeTxs, hw.registered, hw.fresh, hw.belongs, hw.halves, hw.inboundOpenRx,
      hw.closeIdsRx⟩
  | closeUnknown hs => exact hw
  | closed h sub hs hsub halive =>
    refine (hw.unregister s).put (h := h) hsub rfl rfl rfl ?_
    exact hw.halves h sub hsub
  | data h d hs =>
    obtain ⟨sub, hsub, -⟩ := hw.registered s h hs
    rw [sendData_eq_put hsub]
    refine hw.put hsub rfl rfl rfl ?_
    rw [rxAlive_receivedData]
    exact hw.halves h sub hsub

/-! ### The loop of `poll` -/

theorem pollLoop_succ_of_nil {e : Endpoint P R} (hq : e.conn.inboundRx.queue = []) (fuel : ℕ) :
    pollLoop (fuel + 1) e = .ok (e, .pending) := by
  unfold pollLoop Chan.pollRecv
  rw [hq]
  cases e.conn.inboundRx.txAlive <;> rfl

theorem pollLoop_succ_of_cons {e : Endpoint P R} {msg : SubstreamMessage}
    {rest : List SubstreamMessage} (hq : e.conn.inboundRx.queue = msg :: rest) (fuel : ℕ) :
    pollLoop (fuel + 1) e =
      match (e.took msg rest).handleMessage msg with
      | .error p => .error p
      | .ok (e', .error err) => .ok (e', .ready (.error err))
      | .ok (e', .ok ()) => pollLoop fuel e' := by
  conv_lhs => unfold pollLoop Chan.pollRecv
  rw [hq]
  rfl

/-- **The rule for `poll`**: what every handling of a message without an error keeps holds until the
loop ends, with an empty channel or with an error. -/
theorem pollLoop_rule {I : Endpoint P R → Prop}
    {Q : Endpoint P R → Poll (Except Error StreamMuxerEvent) → Prop}
    (hdone : ∀ e, I e → Q e .pending)
    (hok : ∀ e msg rest e', I e → e.conn.inboundRx.queue = msg :: rest →
      (e.took msg rest).handleMessage msg = .ok (e', .ok ()) → I e')
    (herr : ∀ e msg rest e' err, I e → e.conn.inboundRx.queue = msg :: rest →
      (e.took msg rest).handleMessage msg = .ok (e', .error err) → Q e' (.ready (.error err)))
    {fuel : ℕ} {e e' : Endpoint P R} {r : Poll (Except Error StreamMuxerEvent)} (h0 : I e)
    (h : pollLoop fuel e = .ok (e', r)) : Q e' r := by
  induction fuel generalizing e with
  | zero =>
    cases h
    exact hdone _ h0
  | succ fuel ih =>
    cases hq : e.conn.inboundRx.queue with
    | nil =>
      rw [pollLoop_succ_of_nil hq] at h
      cases h
      exact hdone _ h0
    | cons msg rest =>
      rw [pollLoop_succ_of_cons hq] at h
      cases hm : (e.took msg rest).handleMessage msg with
      | error p =>
        rw [hm] at h
        cases h
      | ok v =>
        obtain ⟨e₁, r₁⟩ := v
        rw [hm] at h
        cases r₁ with
        | error err =>
          cases h
          exact herr e msg rest _ err h0 hq hm
        | ok u => exact ih (hok e msg rest e₁ h0 hq hm) h

/-- What every handling of a message keeps, `poll` keeps. -/
theorem pollLoop_induction {I : Endpoint P R → Prop}
    (hstep : ∀ e msg rest e' r, I e → e.conn.inboundRx.queue = msg :: rest →
      (e.took msg rest).handleMessage msg = .ok (e', r) → I e')
    {fuel : ℕ} {e e' : Endpoint P R} {r : Poll (Except Error StreamMuxerEvent)} (h0 : I e)
    (h : pollLoop fuel e = .ok (e', r)) : I e' :=
  pollLoop_rule (Q := fun e _ => I e) (fun _ hi => hi)
    (fun e msg rest e' => hstep e msg rest e' (.ok ()))
    (fun e msg rest e' err => hstep e msg rest e' (.error err)) h0 h

theorem wf_pollLoop {fuel : ℕ} {e e' : Endpoint P R} {r : Poll (Except Error StreamMuxerEvent)}
    (hw : e.Wf) (h : pollLoop fuel e = .ok (e', r)) : e'.Wf :=
  pollLoop_induction
    (fun _ msg rest _ _ hw _ hm =>
      wf_handles (hw.took msg rest) (handles_of_handleMessage (hw.took msg rest) hm)) hw h

/-! ### Operations -/

theorem held_eq_some_iff {e : Endpoint P R} {h : ℕ} {sub : Substream R} :
    e.held h = some sub ↔ e.substreams h = some sub ∧ sub.inboundRx.rxAlive = true ∧
      h ∉ e.conn.inboundOpen.queue := by
  unfold held
  cases hs : e.substreams h with
  | none => simp
  | some sub' =>
    dsimp only
    split_ifs with hc
    · constructor
      · rintro ⟨rfl⟩
        exact ⟨rfl, hc⟩
      · rintro ⟨⟨rfl⟩, -⟩
        rfl
    · constructor
      · intro hn
        cases hn
      · rintro ⟨⟨rfl⟩, hc'⟩
        exact absurd hc' hc

/-- What an operation can do. -/
inductive Steps (e : Endpoint P R) : Op → Endpoint P R → Answer → Prop
  | skip (o : Op) : Steps e o e .skip
  | receive (msg : SubstreamMessage) (ha : e.Alive) :
    Steps e (.receive msg) { e with conn.inboundRx :=
      { e.conn.inboundRx with queue := e.conn.inboundRx.queue ++ [msg] } } .done
  | poll (e' : Endpoint P R) (r : Poll (Except Error StreamMuxerEvent)) (ha : e.Alive)
      (h : e.poll = .ok (e', r)) : Steps e .poll e' (.poll r)
  | yielded (h : ℕ) (rest : List ℕ) (ha : e.Alive)
      (hq : e.conn.inboundOpen.queue = h :: rest) :
    Steps e .pollInbound { e with conn.inboundOpen :=
        { e.conn.inboundOpen with got := e.conn.inboundOpen.got ++ [h], queue := rest } }
      (.pollInbound (.ready (.ok h)))
  | notYielded (hq : e.conn.inboundOpen.queue = []) :
    Steps e .pollInbound e (.pollInbound .pending)
  | requested (s : SubstreamId) (ha : e.Alive) (hs : e.conn.substreamInboundTxs s = none)
      (ho : e.outbox.Alive) :
    Steps e (.pollOutbound s) (e.requested s) (.pollOutbound (.ready (.ok e.next)))
  | requestExists (s : SubstreamId) (h : ℕ) (ha : e.Alive)
      (hs : e.conn.substreamInboundTxs s = some h) (ho : e.outbox.Alive) :
    Steps e (.pollOutbound s) (e.emitted s .openRequest)
      (.pollOutbound (.ready (.error (.substreamIdExists s))))
  | requestUnsent (s : SubstreamId) (ha : e.Alive) (ho : ¬ e.outbox.Alive) :
    Steps e (.pollOutbound s) e.drawn
      (.pollOutbound (.ready (.error (.outboundSendError sendErrorText))))
  | closeReported (s : SubstreamId) (rest : List SubstreamId)
      (hq : e.conn.closeIds.queue = s :: rest) :
    Steps e .pollClose { e with conn.closeIds :=
        { e.conn.closeIds with got := e.conn.closeIds.got ++ [s], queue := rest } }
      (.pollClose (.ready (.ok ())))
  | closeNotReported (hq : e.conn.closeIds.queue = []) :
    Steps e .pollClose e (.pollClose .pending)
  | read (h : ℕ) (sub : Substream R) (buf : Bytes) (hh : e.held h = some sub) :
    Steps e (.read h buf) (e.put h (sub.pollRead buf).1)
      (.read (sub.pollRead buf).2.1 (sub.pollRead buf).2.2)
  | writeRefused (h : ℕ) (sub : Substream R) (buf : Bytes) (hh : e.held h = some sub) :
    Steps e (.write h buf) (e.put h sub.checkClosed.2) (.write (.ready (.error streamClosed)))
  | written (h : ℕ) (sub : Substream R) (buf : Bytes) (hh : e.held h = some sub)
      (hc : sub.closed = false) (hn : sub.closeRx.slot ≠ .sent ()) (ho : e.outbox.Alive) :
    Steps e (.write h buf) (e.emitted sub.substreamId (.data buf))
      (.write (.ready (.ok buf.length)))
  | writeUnsent (h : ℕ) (sub : Substream R) (buf : Bytes) (hh : e.held h = some sub)
      (ho : ¬ e.outbox.Alive) :
    Steps e (.write h buf) e.drawn
      (.write (.ready (.error ⟨.other, "poll_write outbound_tx error: " ++ sendErrorText⟩)))
  | flushed (h : ℕ) (sub : Substream R) (hh : e.held h = some sub) :
    Steps e (.flush h) (e.put h sub.pollFlush.1) (.flush sub.pollFlush.2)
  | closeRefused (h : ℕ) (sub : Substream R) (hh : e.held h = some sub)
      (hc : sub.closed = true) :
    Steps e (.close h) e.drawn (.close (.ready (.error streamClosed)))
  | closedLocally (h : ℕ) (sub : Substream R) (hh : e.held h = some sub)
      (hc : sub.closed = false) (ho : e.outbox.Alive) :
    Steps e (.close h) ((e.put h { sub with closed := true }).emitted sub.substreamId .close)
      (.close (.ready (.ok ())))
  | closeUnsent (h : ℕ) (sub : Substream R) (hh : e.held h = some sub)
      (hc : sub.closed = false) (ho : ¬ e.outbox.Alive) :
    Steps e (.close h) (e.put h { sub with closed := true }).drawn
      (.close (.ready (.error ⟨.other, "poll_close outbound_rx error: " ++ sendErrorText⟩)))
  | dropped (h : ℕ) (sub : Substream R) (hh : e.held h = some sub) :
    Steps e (.dropSubstream h) (e.put h sub.drop) .done
  | connectionDropped (ha : e.Alive) : Steps e .dropConnection e.dropConnection .done

theorem put_self {e : Endpoint P R} {h : ℕ} {sub : Substream R} (hs : e.substreams h = some sub) :
    e.put h sub = e := by
  rw [put, KeyMap.insert_eq_self _ hs]

theorem pollOutbound_cases (e : Endpoint P R) (ha : e.Alive) (s : SubstreamId) :
    Steps e (.pollOutbound s) (e.pollOutbound s).1 (.pollOutbound (e.pollOutbound s).2) := by
  unfold pollOutbound newOutboundSubstream
  by_cases ho : e.outbox.Alive
  · rw [sendMessage_of_alive ho]
    cases hs : e.conn.substreamInboundTxs s with
    | none =>
      have hs' : (e.emitted s .openRequest).conn.substreamInboundTxs s = none := hs
      dsimp only
      rw [newSubstream_of_none hs']
      exact .requested s ha hs ho
    | some h =>
      have hs' : (e.emitted s .openRequest).conn.substreamInboundTxs s = some h := hs
      dsimp only
      rw [newSubstream_of_some hs']
      exact .requestExists s h ha hs ho
  · rw [sendMessage_of_not_alive ho]
    exact .requestUnsent s ha ho

theorem write_cases {e : Endpoint P R} (hw : e.Wf) {h : ℕ} {sub : Substream R}
    (hh : e.held h = some sub) (buf : Bytes) :
    Steps e (.write h buf)
      { e.put h (sub.pollWrite e.outbox buf).1 with outbox := (sub.pollWrite e.outbox buf).2.1 }
      (.write (sub.pollWrite e.outbox buf).2.2) := by
  obtain ⟨hs, -, -⟩ := held_eq_some_iff.mp hh
  obtain ⟨hb1, hb2⟩ := hw.belongs h sub hs
  rcases sub.pollWrite_cases e.outbox buf with ⟨hp, -⟩ | ⟨hc, hn, ⟨ho, hp⟩ | ⟨ho, hp⟩⟩
  · rw [hp]
    exact .writeRefused h sub buf hh
  · rw [hp]
    dsimp only
    rw [put_self hs, hb1, hb2]
    exact .written h sub buf hh hc hn ho
  · rw [hp]
    dsimp only
    rw [put_self hs]
    exact .writeUnsent h sub buf hh ho

theorem close_cases {e : Endpoint P R} (hw : e.Wf) {h : ℕ} {sub : Substream R}
    (hh : e.held h = some sub) :
    Steps e (.close h)
      { e.put h (sub.pollClose e.outbox).1 with outbox := (sub.pollClose e.outbox).2.1 }
      (.close (sub.pollClose e.outbox).2.2) := by
  obtain ⟨hs, -, -⟩ := held_eq_some_iff.mp hh
  obtain ⟨hb1, hb2⟩ := hw.belongs h sub hs
  rcases sub.pollClose_cases e.outbox with ⟨hc, hp⟩ | ⟨hc, ho, hp⟩ | ⟨hc, ho, hp⟩
  · rw [hp]
    dsimp only
    rw [put_self hs]
    exact .closeRefused h sub hh hc
  · have hemit : e.outbox.emit sub.remoteRecipient sub.connectionId (.newClose sub.substreamId)
        = e.outbox.emit e.conn.remoteRecipient e.conn.id (.newClose sub.substreamId) := by
      rw [hb1, hb2]
    rw [hp]
    dsimp only
    rw [hemit]
    exact .closedLocally h sub hh hc ho
  · rw [hp]
    exact .closeUnsent h sub hh hc ho

/-- An operation that does not panic does one of the things `Steps` lists. -/
theorem steps_of_step {e e' : Endpoint P R} (hw : e.Wf) {o : Op} {a : Answer}
    (h : e.step o = .ok (e', a)) : Steps e o e' a := by
  cases o with
  | receive msg =>
    simp only [step, Chan.send] at h
    split at h
    · cases h
      exact .skip _
    · rename_i rx hrx
      split at hrx
      · rename_i ha
        cases hrx
        cases h
        exact .receive msg ha
      · cases hrx
  | poll =>
    simp only [step] at h
    split at h
    · rename_i ha
      split at h
      · cases h
      · rename_i e₁ r hp
        cases h
        exact .poll _ _ ha hp
    · cases h
      exact .skip _
  | pollInbound =>
    simp only [step] at h
    split at h
    · rename_i ha
      cases h
      unfold pollInbound Chan.pollRecv
      cases hq : e.conn.inboundOpen.queue with
      | nil => cases e.conn.inboundOpen.txAlive <;> exact .notYielded hq
      | cons h rest => exact .yielded h rest ha hq
    · cases h
      exact .skip _
  | pollOutbound s =>
    simp only [step] at h
    split at h
    · rename_i ha
      cases h
      exact pollOutbound_cases e ha s
    · cases h
      exact .skip _
  | pollClose =>
    simp only [step] at h
    split at h
    · cases h
      unfold pollClose Chan.pollRecv
      cases hq : e.conn.closeIds.queue with
      | nil => cases e.conn.closeIds.txAlive <;> exact .closeNotReported hq
      | cons s rest => exact .closeReported s rest hq
    · cases h
      exact .skip _
  | read k buf =>
    simp only [step] at h
    split at h
    · cases h
      exact .skip _
    · rename_i sub hh
      cases h
      exact .read k sub buf hh
  | write k buf =>
    simp only [step] at h
    split at h
    · cases h
      exact .skip _
    · rename_i sub hh
      cases h
      exact write_cases hw hh buf
  | flush k =>
    simp only [step] at h
    split at h
    · cases h
      exact .skip _
    · rename_i sub hh
      cases h
      exact .flushed k sub hh
  | close k =>
    simp only [step] at h
    split at h
    · cases h
      exact .skip _
    · rename_i sub hh
      cases h
      exact close_cases hw hh
  | dropSubstream k =>
    simp only [step] at h
    split at h
    · cases h
      exact .skip _
    · rename_i sub hh
      cases h
      exact .dropped k sub hh
  | dropConnection =>
    simp only [step] at h
    split at h
    · rename_i ha
      cases h
      exact .connectionDropped ha
    · cases h
      exact .skip _

/-- Only `poll` can panic. -/
theorem step_isOk_of_ne_poll {e : Endpoint P R} {o : Op} (ho : o ≠ .poll) :
    ∃ r, e.step o = .ok r := by
  cases o with
  | poll => exact absurd rfl ho
  | _ => simp only [step]; try split; all_goals exact ⟨_, rfl⟩

/-- What a read or a flush puts back keeps the endpoint well formed. -/
theorem Wf.put_stays {e : Endpoint P R} (hw : e.Wf) {h : ℕ} {sub sub' : Substream R}
    (hs : e.substreams h = some sub) (hst : sub.Stays sub') : (e.put h sub').Wf := by
  refine hw.put hs hst.remoteRecipient hst.connectionId hst.substreamId ?_
  rw [hst.signalRx, hst.rxAlive]
  exact hw.halves h sub hs

theorem afterDrop_spec (e : Endpoint P R) (h : ℕ) (s : Substream R) :
    (e.afterDrop h s).remoteRecipient = s.remoteRecipient ∧
    (e.afterDrop h s).connectionId = s.connectionId ∧
    (e.afterDrop h s).substreamId = s.substreamId ∧
    (e.afterDrop h s).inboundRx.log = s.inboundRx.log ∧
    (e.afterDrop h s).closed = s.closed ∧
    (s.closeRx.rxAlive = s.inboundRx.rxAlive →
      (e.afterDrop h s).closeRx.rxAlive = (e.afterDrop h s).inboundRx.rxAlive) := by
  have hlog : ∀ (p : Prop) [Decidable p],
      (if p then s.inboundRx.dropTx else s.inboundRx).log = s.inboundRx.log ∧
      (if p then s.inboundRx.dropTx else s.inboundRx).rxAlive = s.inboundRx.rxAlive ∧
      (if p then s.closeRx.dropTx else s.closeRx).rxAlive = s.closeRx.rxAlive := by
    intro p _
    split_ifs <;> simp
  unfold afterDrop
  by_cases hq : h ∈ e.conn.inboundOpen.queue
  · simp [hq, Substream.drop, hlog]
  · simp [hq, hlog]

theorem substreams_dropConnection (e : Endpoint P R) (h : ℕ) :
    e.dropConnection.substreams h = (e.substreams h).map (e.afterDrop h) := rfl

theorem wf_emitted {e : Endpoint P R} (hw : e.Wf) (s : SubstreamId) (ty : SubstreamMessageType) :
    (e.emitted s ty).Wf :=
  ⟨hw.closeTxs, hw.registered, hw.fresh, hw.belongs, hw.halves, hw.inboundOpenRx, hw.closeIdsRx⟩

theorem wf_dropConnection {e : Endpoint P R} (hw : e.Wf) : e.dropConnection.Wf := by
  have hsub : ∀ h sub', e.dropConnection.substreams h = some sub' →
      ∃ sub, e.substreams h = some sub ∧ sub' = e.afterDrop h sub := by
    intro h sub' hs
    rw [substreams_dropConnection, Option.map_eq_some_iff] at hs
    obtain ⟨sub, h1, h2⟩ := hs
    exact ⟨sub, h1, h2.symm⟩
  refine ⟨rfl, fun s h hs => ?_, fun h hge => ?_, fun h sub' hs => ?_, fun h sub' hs => ?_,
    hw.inboundOpenRx, hw.closeIdsRx⟩
  · cases hs
  · rw [substreams_dropConnection, hw.fresh h hge, Option.map_none]
  · obtain ⟨sub, h1, rfl⟩ := hsub h sub' hs
    obtain ⟨hr, hc, -⟩ := afterDrop_spec e h sub
    rw [hr, hc]
    exact hw.belongs h sub h1
  · obtain ⟨sub, h1, rfl⟩ := hsub h sub' hs
    exact (afterDrop_spec e h sub).2.2.2.2.2 (hw.halves h sub h1)

theorem wf_steps {e e' : Endpoint P R} (hw : e.Wf) {o : Op} {a : Answer} (hs : Steps e o e' a) :
    e'.Wf := by
  -- an operation that leaves the maps and the substreams alone
  have hframe : ∀ e' : Endpoint P R,
      e'.conn.substreamInboundTxs = e.conn.substreamInboundTxs →
      e'.conn.substreamCloseTxs = e.conn.substreamCloseTxs → e'.substreams = e.substreams →
      e'.next = e.next → e'.conn.id = e.conn.id →
      e'.conn.remoteRecipient = e.conn.remoteRecipient →
      e'.conn.inboundOpen.rxAlive = true → e'.conn.closeIds.rxAlive = true → e'.Wf := by
    intro e' h1 h2 h3 h4 h5 h6 h7 h8
    exact ⟨by rw [h1, h2, hw.closeTxs], by rw [h1, h3]; exact hw.registered,
      by rw [h3, h4]; exact hw.fresh, by rw [h3, h5, h6]; exact hw.belongs,
      by rw [h3]; exact hw.halves, h7, h8⟩
  cases hs with
  | skip o => exact hw
  | receive msg ha =>
    exact hframe _ rfl rfl rfl rfl rfl rfl hw.inboundOpenRx hw.closeIdsRx
  | poll e' r ha h => exact wf_pollLoop hw h
  | yielded h rest ha hq =>
    exact hframe _ rfl rfl rfl rfl rfl rfl hw.inboundOpenRx hw.closeIdsRx
  | notYielded hq => exact hw
  | requested s ha hs ho =>
    have h'' := (wf_emitted hw s .openRequest).opened s
    exact ⟨h''.closeTxs, h''.registered, h''.fresh, h''.belongs, h''.halves, h''.inboundOpenRx,
      h''.closeIdsRx⟩
  | requestExists s h ha hs ho =>
    exact hframe _ rfl rfl rfl rfl rfl rfl hw.inboundOpenRx hw.closeIdsRx
  | requestUnsent s ha ho =>
    exact hframe _ rfl rfl rfl rfl rfl rfl hw.inboundOpenRx hw.closeIdsRx
  | closeReported s rest hq =>
    exact hframe _ rfl rfl rfl rfl rfl rfl hw.inboundOpenRx hw.closeIdsRx
  | closeNotReported hq => exact hw
  | read h sub buf hh =>
    exact hw.put_stays (held_eq_some_iff.mp hh).1 (sub.stays_pollRead buf)
  | writeRefused h sub buf hh =>
    exact hw.put_stays (held_eq_some_iff.mp hh).1 sub.stays_checkClosed
  | written h sub buf hh hc hn ho =>
    exact hframe _ rfl rfl rfl rfl rfl rfl hw.inboundOpenRx hw.closeIdsRx
  | writeUnsent h sub buf hh ho =>
    exact hframe _ rfl rfl rfl rfl rfl rfl hw.inboundOpenRx hw.closeIdsRx
  | flushed h sub hh => exact hw.put_stays (held_eq_some_iff.mp hh).1 sub.stays_pollFlush
  | closeRefused h sub hh hc =>
    exact hframe _ rfl rfl rfl rfl rfl rfl hw.inboundOpenRx hw.closeIdsRx
  | closedLocally h sub hh hc ho =>
    have hs := (held_eq_some_iff.mp hh).1
    have h' : (e.put h { sub with closed := true }).Wf :=
      hw.put hs rfl rfl rfl (hw.halves h sub hs)
    exact ⟨h'.closeTxs, h'.registered, h'.fresh, h'.belongs, h'.halves, h'.inboundOpenRx,
      h'.closeIdsRx⟩
  | closeUnsent h sub hh hc ho =>
    have hs := (held_eq_some_iff.mp hh).1
    have h' : (e.put h { sub with closed := true }).Wf :=
      hw.put hs rfl rfl rfl (hw.halves h sub hs)
    exact ⟨h'.closeTxs, h'.registered, h'.fresh, h'.belongs, h'.halves, h'.inboundOpenRx,
      h'.closeIdsRx⟩
  | dropped h sub hh => exact hw.put (held_eq_some_iff.mp hh).1 rfl rfl rfl rfl
  | connectionDropped ha => exact wf_dropConnection hw

/-- **Every operation keeps the endpoint well formed.** -/
theorem wf_step {e e' : Endpoint P R} (hw : e.Wf) {o : Op} {a : Answer}
    (h : e.step o = .ok (e', a)) : e'.Wf :=
  wf_steps hw (steps_of_step hw h)

end Libp2pNym.Endpoint
