import Libp2pNym.Connection.Equiv.Joined
import Libp2pNym.Queue.Equiv.Reassembly

/-!
# What an endpoint puts on the outbound channel

`Stamped`: the transport messages of an endpoint carry increasing nonces from 1 on, as long as its
counter does not wrap; a refused close leaves a gap.  `Written`: the data it has sent for a
substream is what the `poll_write` of that substream has accepted.
-/

namespace Libp2pNym

open TransportMessage

variable {P R : Type}

/-! ### Stamps -/

namespace Outbox

/-- The transport messages that were put on the channel, in order. -/
def transported (o : Outbox P R) : List TransportMessage :=
  o.outboundTx.log.filterMap fun m => m.message.transport?

theorem sentMessages_eq (o : Outbox P R) : o.sentMessages = o.transported.map message := by
  rw [sentMessages, transported, List.map_filterMap]

theorem transported_emit (o : Outbox P R) (recipient : R) (id : ConnectionId)
    (msg : SubstreamMessage) : (o.emit recipient id msg).transported
      = o.transported ++ [{ nonce := o.messageNonce, message := msg, id := id }] := by
  simp [transported, log_emit, Message.transport?]

theorem transported_emitAll_subset (o : Outbox P R) (recipient : R) (id : ConnectionId)
    (msgs : List SubstreamMessage) :
    o.transported ⊆ (o.emitAll recipient id msgs).transported := by
  induction msgs generalizing o with
  | nil => exact List.Subset.refl _
  | cons msg msgs ih =>
    refine List.Subset.trans ?_ (ih (o.emit recipient id msg))
    rw [transported_emit]
    exact List.subset_append_left _ _

theorem sentMessages_emitAll (o : Outbox P R) (recipient : R) (id : ConnectionId)
    (msgs : List SubstreamMessage) :
    (o.emitAll recipient id msgs).sentMessages = o.sentMessages ++ msgs := by
  induction msgs generalizing o with
  | nil => exact (List.append_nil _).symm
  | cons msg msgs ih =>
    refine (ih (o.emit recipient id msg)).trans ?_
    rw [sentMessages_emit, List.append_assoc, List.singleton_append]

/-- The channel carries transport messages of the connection `id` for `recipient` only, their nonces
increase from 1 on, and the counter has moved once for each of them and for each of the `refused`
nonces. -/
structure Stamped (o : Outbox P R) (recipient : R) (id : ConnectionId) (refused : ℕ) : Prop where
  counter : o.messageNonce.toNat = o.sentMessages.length + refused + 1
  sorted : o.transported.Pairwise fun m m' => key m < key m'
  bounds : ∀ m ∈ o.transported, 1 ≤ key m ∧ key m < o.messageNonce.toNat
  shape : ∀ m ∈ o.outboundTx.log, ∃ msg,
    m = { message := .transportMessage msg, recipient := recipient } ∧ msg.id = id

variable {o : Outbox P R} {recipient : R} {id : ConnectionId} {refused : ℕ}

theorem Stamped.emit (h : o.Stamped recipient id refused) (msg : SubstreamMessage)
    (hlt : o.sentMessages.length + 1 + refused < 2 ^ 64 - 1) :
    (o.emit recipient id msg).Stamped recipient id refused := by
  have hnext : (o.emit recipient id msg).messageNonce.toNat
      = o.sentMessages.length + refused + 1 + 1 := by
    rw [← h.counter]
    exact MessageQueue.toNat_add_one (by rw [h.counter]; omega)
  constructor
  · rw [hnext, sentMessages_emit, List.length_append, List.length_singleton]
    omega
  · rw [transported_emit, List.pairwise_append]
    refine ⟨h.sorted, List.pairwise_singleton _ _, fun m hm m' hm' => ?_⟩
    rw [List.mem_singleton] at hm'
    rw [hm']
    exact (h.bounds m hm).2
  · intro m hm
    rw [hnext]
    rw [transported_emit, List.mem_append, List.mem_singleton] at hm
    rcases hm with hm | rfl
    · have := h.bounds m hm
      rw [h.counter] at this
      omega
    · show 1 ≤ o.messageNonce.toNat ∧ o.messageNonce.toNat < _
      rw [h.counter]
      omega
  · intro m hm
    rw [log_emit, List.mem_append, List.mem_singleton] at hm
    rcases hm with hm | rfl
    · exact h.shape m hm
    · exact ⟨_, rfl, rfl⟩

theorem Stamped.emitAll (h : o.Stamped recipient id refused) (msgs : List SubstreamMessage)
    (hlt : (o.emitAll recipient id msgs).sentMessages.length + refused < 2 ^ 64 - 1) :
    (o.emitAll recipient id msgs).Stamped recipient id refused := by
  rw [sentMessages_emitAll] at hlt
  induction msgs generalizing o with
  | nil => exact h
  | cons msg msgs ih =>
    rw [List.length_append, List.length_cons] at hlt
    refine ih (h.emit msg (by omega)) ?_
    rw [sentMessages_emit, List.length_append, List.length_append, List.length_singleton]
    omega

theorem Stamped.draw (h : o.Stamped recipient id refused)
    (hlt : o.sentMessages.length + (refused + 1) < 2 ^ 64 - 1) :
    o.draw.Stamped recipient id (refused + 1) := by
  have hnext : o.draw.messageNonce.toNat = o.sentMessages.length + refused + 1 + 1 := by
    rw [← h.counter]
    exact MessageQueue.toNat_add_one (by rw [h.counter]; omega)
  refine ⟨hnext.trans (by rw [Nat.add_assoc _ refused 1]; rfl), h.sorted, fun m hm => ?_, h.shape⟩
  have := h.bounds m hm
  rw [h.counter] at this
  rw [hnext]
  omega

end Outbox

namespace Endpoint

/-- `poll_close` on a substream whose closed flag is already set, as a test. -/
def refusesClose (e : Endpoint P R) : Op → Bool
  | .close h =>
    match e.held h with
    | some sub => sub.closed
    | none => false
  | _ => false

theorem refusesClose_iff {e : Endpoint P R} {o : Op} :
    e.refusesClose o = true ↔ e.RefusedClose o := by
  unfold refusesClose RefusedClose
  split
  · rename_i h
    cases hh : e.held h with
    | none =>
      refine ⟨nofun, ?_⟩
      rintro ⟨h', sub, heq, hh', -⟩
      cases heq
      rw [hh] at hh'
      cases hh'
    | some sub =>
      constructor
      · intro hc
        exact ⟨h, sub, rfl, hh, hc⟩
      · rintro ⟨h', sub', heq, hh', hc⟩
        cases heq
        rw [hh] at hh'
        cases hh'
        exact hc
  · rename_i hne
    refine ⟨nofun, ?_⟩
    rintro ⟨h, sub, heq, -⟩
    exact absurd heq (hne h)

/-- What was sent stays sent. -/
theorem transported_step {e e' : Endpoint P R} (hw : e.Wf) (ha : e.outbox.Alive) {o : Op}
    {a : Answer} (hs : e.step o = .ok (e', a)) : e.outbox.transported ⊆ e'.outbox.transported := by
  rcases step_outbox hw ha hs with ⟨-, -, -, msgs, hem⟩ | ⟨-, hd⟩
  · rw [hem]
    exact Outbox.transported_emitAll_subset ..
  · rw [hd]
    exact List.Subset.refl _

/-- **Every operation keeps the messages stamped** as long as the counter does not wrap. -/
theorem stamped_step {e e' : Endpoint P R} (hw : e.Wf) (ha : e.outbox.Alive) {o : Op} {a : Answer}
    (hs : e.step o = .ok (e', a)) {refused : ℕ}
    (h : e.outbox.Stamped e.conn.remoteRecipient e.conn.id refused)
    (hlt : e'.sent.length + (refused + if e.refusesClose o then 1 else 0) < 2 ^ 64 - 1) :
    e'.outbox.Stamped e.conn.remoteRecipient e.conn.id
      (refused + if e.refusesClose o then 1 else 0) := by
  rcases step_outbox hw ha hs with ⟨hn, -, -, msgs, hem⟩ | ⟨hr, hd⟩
  · rw [← refusesClose_iff] at hn
    rw [if_neg hn, Nat.add_zero] at hlt ⊢
    rw [sent, hem] at hlt
    rw [hem]
    exact h.emitAll msgs hlt
  · rw [if_pos (refusesClose_iff.mpr hr)] at hlt ⊢
    rw [sent, hd] at hlt
    rw [hd]
    exact h.draw hlt

/-! ### What every operation leaves alone -/

theorem conn_handles {e e' : Endpoint P R} {s : SubstreamId} {ty : SubstreamMessageType}
    {r : Except Error Unit} (hh : Handles e s ty e' r) :
    e'.conn.id = e.conn.id ∧ e'.conn.remoteRecipient = e.conn.remoteRecipient ∧
      e'.conn.peerId = e.conn.peerId := by
  cases hh <;> exact ⟨rfl, rfl, rfl⟩

/-- The operations other than `receive` add nothing to the inbound channel, do not revive the
connection and leave its id and its remote as they are. -/
theorem frame_steps {e e' : Endpoint P R} (hw : e.Wf) {o : Op} {a : Answer} (hs : Steps e o e' a)
    (hrec : ∀ m, o ≠ .receive m) :
    e'.conn.inboundRx.log = e.conn.inboundRx.log ∧ (e'.Alive → e.Alive) ∧
      e'.conn.id = e.conn.id ∧ e'.conn.remoteRecipient = e.conn.remoteRecipient ∧
      e'.conn.peerId = e.conn.peerId := by
  cases hs with
  | receive msg ha => exact absurd rfl (hrec msg)
  | poll e' r ha hp =>
    refine (pollLoop_induction (I := fun e₁ => e₁.Wf ∧
      e₁.conn.inboundRx.log = e.conn.inboundRx.log ∧ (e₁.Alive → e.Alive) ∧
      e₁.conn.id = e.conn.id ∧ e₁.conn.remoteRecipient = e.conn.remoteRecipient ∧
      e₁.conn.peerId = e.conn.peerId)
      ?_ ⟨hw, rfl, id, rfl, rfl, rfl⟩ hp).2
    rintro e₁ m rest e₂ r₁ ⟨hw₁, hlog, hal, hid, hrem, hpeer⟩ hq hm
    have hh := handles_of_handleMessage (hw₁.took m rest) hm
    have hrx := queue_handles hh
    refine ⟨wf_handles (hw₁.took m rest) hh, ?_, fun ha₂ => hal ?_, ?_, ?_, ?_⟩
    · rw [hrx, ← hlog, Chan.log, Chan.log, hq]
      simp [took]
    · show e₁.conn.inboundRx.rxAlive = true
      have ha₂' : e₂.conn.inboundRx.rxAlive = true := ha₂
      rwa [hrx] at ha₂'
    · exact (conn_handles hh).1.trans hid
    · exact (conn_handles hh).2.1.trans hrem
    · exact (conn_handles hh).2.2.trans hpeer
  | connectionDropped ha => exact ⟨rfl, fun _ => ha, rfl, rfl, rfl⟩
  | _ => exact ⟨rfl, id, rfl, rfl, rfl⟩

/-- The channel carries transport messages only. -/
def Plain (e : Endpoint P R) : Prop :=
  ∀ m ∈ e.outbox.outboundTx.log, ∃ msg, m.message = .transportMessage msg

theorem Plain.emitted {e : Endpoint P R} (hp : e.Plain) (s : SubstreamId)
    (ty : SubstreamMessageType) : (e.emitted s ty).Plain := by
  intro m hm
  have hlog := Outbox.log_emit e.outbox e.conn.remoteRecipient e.conn.id ⟨s, ty⟩
  have hm' : m ∈ (e.outbox.emit e.conn.remoteRecipient e.conn.id ⟨s, ty⟩).outboundTx.log := hm
  rw [hlog, List.mem_append, List.mem_singleton] at hm'
  rcases hm' with hm' | rfl
  · exact hp m hm'
  · exact ⟨_, rfl⟩

theorem plain_handles {e e' : Endpoint P R} (hp : e.Plain) {s : SubstreamId}
    {ty : SubstreamMessageType} {r : Except Error Unit} (hh : Handles e s ty e' r) : e'.Plain := by
  cases hh with
  | openAccepted hs ha =>
    have hp₁ : (e.opened s).Plain := hp
    exact hp₁.emitted s .openResponse
  | _ => exact hp

theorem plain_steps {e e' : Endpoint P R} (hw : e.Wf) (hp : e.Plain) {o : Op} {a : Answer}
    (hs : Steps e o e' a) : e'.Plain := by
  cases hs with
  | poll e' r ha h =>
    refine (pollLoop_induction (I := fun e => e.Wf ∧ e.Plain) ?_ ⟨hw, hp⟩ h).2
    rintro e msg rest e' r ⟨hw, hp⟩ - hm
    have hh := handles_of_handleMessage (hw.took msg rest) hm
    have hp₁ : (e.took msg rest).Plain := hp
    exact ⟨wf_handles (hw.took msg rest) hh, plain_handles hp₁ hh⟩
  | requested s ha hs ho => exact hp.emitted s .openRequest
  | requestExists s h ha hs ho => exact hp.emitted s .openRequest
  | written h sub buf hh hc hn ho => exact hp.emitted sub.substreamId (.data buf)
  | closedLocally h sub hh hc ho =>
    have hp₁ : (e.put h { sub with closed := true }).Plain := hp
    exact hp₁.emitted sub.substreamId .close
  | _ => exact hp

/-! ### Accepted buffers -/

/-- The buffer that the `poll_write` of the substream with the handle `k` has accepted. -/
def acceptedIn (k : ℕ) : Op → Answer → List Bytes
  | .write h buf, .write (.ready (.ok _)) => if h = k then [buf] else []
  | _, _ => []

/-- The data sent for each substream is what was accepted for it, `acc`, and there is no other. -/
structure Written (e : Endpoint P R) (acc : ℕ → List Bytes) : Prop where
  each : ∀ k s, e.idOf k = some s → dataOf s e.sent = acc k
  known : ∀ s, dataOf s e.sent ≠ [] → ∃ k, e.idOf k = some s
  fresh : ∀ k, e.idOf k = none → acc k = []

theorem written_new (peerId : P) (remoteRecipient : R) (id : ConnectionId) :
    (new peerId remoteRecipient id Chan.new).Written fun _ => [] where
  each k s hk := by cases hk
  known s hs := absurd rfl hs
  fresh k _ := rfl

/-- No data was sent, and a substream that was created has an id that none had before. -/
theorem Written.grow {e e' : Endpoint P R} {acc : ℕ → List Bytes} (hw : e.Written acc)
    (hsent : ∀ s, dataOf s e'.sent = dataOf s e.sent)
    (hids : ∀ k s, e.idOf k = some s → e'.idOf k = some s)
    (hnew : ∀ k s, e'.idOf k = some s → e.idOf k = some s ∨
      (e.idOf k = none ∧ ∀ k', e.idOf k' ≠ some s)) : e'.Written acc := by
  constructor
  · intro k s hk
    rw [hsent]
    rcases hnew k s hk with hk | ⟨hk, hs⟩
    · exact hw.each k s hk
    · rw [hw.fresh k hk]
      by_contra hne
      obtain ⟨k', hk'⟩ := hw.known s hne
      exact hs k' hk'
  · intro s hs
    rw [hsent] at hs
    obtain ⟨k, hk⟩ := hw.known s hs
    exact ⟨k, hids k s hk⟩
  · intro k hk
    refine hw.fresh k ?_
    cases hid : e.idOf k with
    | none => rfl
    | some s =>
      rw [hids k s hid] at hk
      cases hk

/-- Neither the ids nor the data have changed. -/
theorem Written.congr {e e' : Endpoint P R} {acc : ℕ → List Bytes} (hw : e.Written acc)
    (hsent : ∀ s, dataOf s e'.sent = dataOf s e.sent) (hids : e'.idOf = e.idOf) : e'.Written acc :=
  hw.grow hsent (fun _ _ hk => hids ▸ hk) fun _ _ hk => Or.inl (hids ▸ hk)

/-- A substream was created for an id that nothing was heard of. -/
theorem Written.opened {e e' : Endpoint P R} {acc : ℕ → List Bytes} (hwr : e.Written acc)
    (hw : e.Wf) (hl : e.Ledger) {s : SubstreamId} (hs : e.Silent s)
    (hsent : ∀ s', dataOf s' e'.sent = dataOf s' e.sent) (hids : e'.idOf = (e.opened s).idOf) :
    e'.Written acc := by
  have hnone : ∀ k, e.idOf k ≠ some s := by
    intro k hk
    obtain ⟨sub, hsub, hid⟩ := Option.map_eq_some_iff.mp hk
    exact hs.not_knows (hid ▸ hl.known k sub hsub)
  refine hwr.grow hsent (fun k s' hk => ?_) fun k s' hk => ?_
  · rw [hids]
    exact idOf_opened hw hk
  · rw [hids] at hk
    have hk' : (e.substreams.insert e.next _ k).map Substream.substreamId = some s' := hk
    rw [KeyMap.insert_apply] at hk'
    split_ifs at hk' with heq
    · cases hk'
      refine Or.inr ⟨?_, hnone⟩
      rw [heq, idOf, hw.fresh _ (le_refl _)]
      rfl
    · exact Or.inl hk'

theorem Written.handles {e e' : Endpoint P R} {acc : ℕ → List Bytes} (hwr : e.Written acc)
    {asked : Set SubstreamId} {l : List SubstreamMessage} (hi : e.Sound asked l)
    {m : SubstreamMessage} {rest : List SubstreamMessage}
    (hq : e.conn.inboundRx.queue = m :: rest) {r : Except Error Unit}
    (hm : (e.took m rest).handleMessage m = .ok (e', r)) : e'.Written acc := by
  have hacc := hi.hears.accepts hq
  have hh := handles_of_handleMessage (hi.wf.took m rest) hm
  obtain ⟨s, ty⟩ := m
  cases hh with
  | openExists h hs => exact hwr.congr (fun _ => rfl) rfl
  | openAccepted hs ha =>
    refine hwr.opened hi.wf hi.ledger hacc (fun s' => ?_) rfl
    have hsent : ((e.took ⟨s, .openRequest⟩ rest).accepted s).sent
        = e.sent ++ [⟨s, .openResponse⟩] := Outbox.sentMessages_emit ..
    rw [hsent, dataOf_append]
    exact List.append_nil _
  | openUnanswered hs ha => exact absurd hi.mixnet ha
  | openResponse => exact hwr.congr (fun _ => rfl) rfl
  | closeUnknown hs => exact hwr.congr (fun _ => rfl) rfl
  | closed h sub hs hsub halive =>
    exact hwr.congr (fun _ => rfl) (funext (idOf_insert hsub rfl))
  | data h d hs =>
    obtain ⟨sub, hsub, -⟩ := hi.wf.registered s h hs
    have hsub' : (e.took ⟨s, .data d⟩ rest).substreams h = some sub := hsub
    rw [sendData_eq_put hsub']
    exact hwr.congr (fun _ => rfl) (funext (idOf_insert hsub rfl))

/-- An id belongs to one substream. -/
theorem Ledger.idOf_inj {e : Endpoint P R} (hl : e.Ledger) {k k' : ℕ} {s : SubstreamId}
    (hk : e.idOf k = some s) (hk' : e.idOf k' = some s) : k = k' := by
  obtain ⟨sub, hsub, hid⟩ := Option.map_eq_some_iff.mp hk
  obtain ⟨sub', hsub', hid'⟩ := Option.map_eq_some_iff.mp hk'
  exact hl.unique k k' sub sub' hsub hsub' (hid.trans hid'.symm)

/-- **Every operation keeps the account of what was written**, at an endpoint that hears a
well-behaved remote and opens ids that nothing was heard of. -/
theorem written_steps {asked : Set SubstreamId} {l : List SubstreamMessage} {e e' : Endpoint P R}
    (hw : e.Wf) (hl : e.Ledger) (hmix : e.outbox.Alive) (hh : e.Hears asked l) {o : Op} {a : Answer}
    (hs : Steps e o e' a) (hfresh : ∀ s, o = .pollOutbound s → e.Silent s) {acc : ℕ → List Bytes}
    (hwr : e.Written acc) : e'.Written fun k => acc k ++ acceptedIn k o a := by
  -- an operation that accepts nothing
  have hnone : (∀ k, acceptedIn k o a = []) → e'.Written acc →
      e'.Written fun k => acc k ++ acceptedIn k o a := by
    intro ho hwr'
    have heq : (fun k => acc k ++ acceptedIn k o a) = acc := by
      funext k
      rw [ho, List.append_nil]
    rwa [heq]
  have hput : ∀ {h sub sub'}, e.held h = some sub → sub.Stays sub' → (e.put h sub').Written acc :=
    fun hh hst => hwr.congr (fun _ => rfl)
      (funext (idOf_insert (held_eq_some_iff.mp hh).1 hst.substreamId))
  cases hs with
  | skip o =>
    refine hnone (fun k => ?_) hwr
    cases o <;> rfl
  | receive msg ha => exact hnone (fun _ => rfl) (hwr.congr (fun _ => rfl) rfl)
  | poll e' r ha hp =>
    refine hnone (fun _ => rfl) (pollLoop_rule
      (I := fun e₁ => e₁.Sound asked l ∧ e₁.Written acc) (Q := fun e₁ _ => e₁.Written acc)
      (fun _ hi => hi.2) ?_ ?_ ⟨⟨hw, hl, ha, hmix, hh⟩, hwr⟩ hp)
    · rintro e₁ m rest e₂ ⟨hi, hwr⟩ hq hm
      exact ⟨(hi.handles hq hm).2, hwr.handles hi hq hm⟩
    · rintro e₁ m rest e₂ err ⟨hi, hwr⟩ hq hm
      exact hwr.handles hi hq hm
  | yielded h rest ha hq => exact hnone (fun _ => rfl) (hwr.congr (fun _ => rfl) rfl)
  | notYielded hq => exact hnone (fun _ => rfl) hwr
  | requested s ha hs ho =>
    refine hnone (fun _ => rfl) (hwr.opened hw hl (hfresh s rfl) (fun s' => ?_) rfl)
    have hsent : (e.requested s).sent = e.sent ++ [⟨s, .openRequest⟩] := Outbox.sentMessages_emit ..
    rw [hsent, dataOf_append]
    exact List.append_nil _
  | requestExists s h ha hs ho =>
    have hnone := (hfresh s rfl).not_registered hl ha
    rw [hs] at hnone
    cases hnone
  | requestUnsent s ha ho => exact absurd hmix ho
  | closeReported s rest hq => exact hnone (fun _ => rfl) (hwr.congr (fun _ => rfl) rfl)
  | closeNotReported hq => exact hnone (fun _ => rfl) hwr
  | read h sub buf hh => exact hnone (fun _ => rfl) (hput hh (sub.stays_pollRead buf))
  | writeRefused h sub buf hh => exact hnone (fun _ => rfl) (hput hh sub.stays_checkClosed)
  | written h sub buf hh hc hn ho =>
    have hid : e.idOf h = some sub.substreamId := by
      rw [idOf, (held_eq_some_iff.mp hh).1]
      rfl
    have hsent : (e.emitted sub.substreamId (.data buf)).sent
        = e.sent ++ [⟨sub.substreamId, .data buf⟩] := Outbox.sentMessages_emit ..
    have hdata : ∀ s, dataOf s (e.emitted sub.substreamId (.data buf)).sent
        = dataOf s e.sent ++ if sub.substreamId = s then [buf] else [] := by
      intro s
      rw [hsent, dataOf_append]
      by_cases hs : sub.substreamId = s <;> simp [dataOf, hs]
    constructor
    · intro k s hk
      rw [hdata, hwr.each k s hk]
      refine congrArg _ (if_congr ⟨fun hs => ?_, fun hk' => ?_⟩ rfl rfl)
      · exact hl.idOf_inj hid (hs ▸ hk)
      · subst hk'
        exact Option.some.inj (hid.symm.trans hk)
    · intro s hs
      rw [hdata] at hs
      by_cases heq : sub.substreamId = s
      · exact ⟨h, heq ▸ hid⟩
      · rw [if_neg heq, List.append_nil] at hs
        exact hwr.known s hs
    · intro k hk
      have hne : h ≠ k := by
        rintro rfl
        have hnone : e.idOf h = none := hk
        rw [hid] at hnone
        cases hnone
      have hacc : acc k = [] := hwr.fresh k hk
      rw [hacc]
      exact if_neg hne
  | writeUnsent h sub buf hh ho => exact absurd hmix ho
  | flushed h sub hh => exact hnone (fun _ => rfl) (hput hh sub.stays_pollFlush)
  | closeRefused h sub hh hc => exact hnone (fun _ => rfl) (hwr.congr (fun _ => rfl) rfl)
  | closedLocally h sub hh hc ho =>
    refine hnone (fun _ => rfl) (hwr.congr (fun s' => ?_)
      (funext (idOf_insert (held_eq_some_iff.mp hh).1 rfl)))
    have hsent : ((e.put h { sub with closed := true }).emitted sub.substreamId .close).sent
        = e.sent ++ [⟨sub.substreamId, .close⟩] := Outbox.sentMessages_emit ..
    rw [hsent, dataOf_append]
    exact List.append_nil _
  | closeUnsent h sub hh hc ho => exact absurd hmix ho
  | dropped h sub hh =>
    refine hnone (fun _ => rfl) (hwr.congr (fun _ => rfl) ?_)
    exact funext (idOf_insert (held_eq_some_iff.mp hh).1 rfl)
  | connectionDropped ha =>
    refine hnone (fun _ => rfl) (hwr.congr (fun _ => rfl) ?_)
    exact idOf_dropConnection e

end Endpoint

end Libp2pNym
