import Libp2pNym.Connection.Equiv.Nonce
import Mathlib.Data.Set.Insert

/-!
# When a connection can be crashed by its inbound messages

`Covered` walks through the messages waiting for a `poll`, with the substream ids that are
registered when each of them is taken: data must be for a registered id, and the close of a
registered id must find its substream.  `isOk_poll_iff` says that `poll` returns exactly when its
queue is covered, and `run_isOk_iff_covered` that a run of operations does not panic exactly when
every `poll` of it meets a covered queue.
-/

namespace Libp2pNym.Endpoint

open StepRun

variable {P R : Type}

/-! ### Registered ids -/

/-- The ids with a channel in `substream_inbound_txs`. -/
def registered (e : Endpoint P R) : Set SubstreamId :=
  {s | e.conn.substreamInboundTxs s ≠ none}

/-- The registered ids whose substream meets `p`. -/
def registeredWith (e : Endpoint P R) (p : Substream R → Prop) : Set SubstreamId :=
  {s | ∃ h sub, e.conn.substreamInboundTxs s = some h ∧ e.substreams h = some sub ∧ p sub}

/-- The registered ids whose substream was dropped. -/
def gone (e : Endpoint P R) : Set SubstreamId :=
  e.registeredWith fun sub => sub.inboundRx.rxAlive = false

theorem mem_registered_of_some {e : Endpoint P R} {s : SubstreamId} {h : ℕ}
    (hs : e.conn.substreamInboundTxs s = some h) : s ∈ e.registered := by
  show _ ≠ none
  rw [hs]
  exact Option.some_ne_none h

theorem not_mem_registered_of_none {e : Endpoint P R} {s : SubstreamId}
    (hs : e.conn.substreamInboundTxs s = none) : s ∉ e.registered :=
  fun hn => hn hs

section RegisteredWith

variable {p : Substream R → Prop}

theorem mem_registeredWith_iff {e : Endpoint P R} {s : SubstreamId} {h : ℕ} {sub : Substream R}
    (hs : e.conn.substreamInboundTxs s = some h) (hsub : e.substreams h = some sub) :
    s ∈ e.registeredWith p ↔ p sub := by
  constructor
  · rintro ⟨h', sub', hs', hsub', hp⟩
    rw [hs] at hs'
    cases hs'
    rw [hsub] at hsub'
    cases hsub'
    exact hp
  · exact fun hp => ⟨h, sub, hs, hsub, hp⟩

theorem registered_of_mem_registeredWith {e : Endpoint P R} {s : SubstreamId}
    (hm : s ∈ e.registeredWith p) : s ∈ e.registered := by
  obtain ⟨h, -, hs, -⟩ := hm
  exact mem_registered_of_some hs

/-- When the id and the substream it leads to are the same, so is the membership. -/
theorem mem_registeredWith_congr {e e' : Endpoint P R} {s : SubstreamId}
    (hs : e'.conn.substreamInboundTxs s = e.conn.substreamInboundTxs s)
    (hsub : ∀ h, e.conn.substreamInboundTxs s = some h → e'.substreams h = e.substreams h) :
    s ∈ e'.registeredWith p ↔ s ∈ e.registeredWith p := by
  constructor
  · rintro ⟨h, sub, h1, h2, hp⟩
    rw [hs] at h1
    rw [hsub h h1] at h2
    exact ⟨h, sub, h1, h2, hp⟩
  · rintro ⟨h, sub, h1, h2, hp⟩
    exact ⟨h, sub, hs.trans h1, (hsub h h1).trans h2, hp⟩

/-- A new substream does not meet a property that no new substream has. -/
theorem registeredWith_opened {e : Endpoint P R} (hw : e.Wf) {s : SubstreamId}
    (hs : e.conn.substreamInboundTxs s = none)
    (hp : ∀ r c, ¬ p (.new r c s Chan.new Oneshot.new)) :
    (e.opened s).registeredWith p = e.registeredWith p := by
  ext s'
  by_cases heq : s' = s
  · subst heq
    have hnew : (e.opened s').substreams e.next
        = some (.new e.conn.remoteRecipient e.conn.id s' Chan.new Oneshot.new) :=
      KeyMap.insert_self ..
    rw [mem_registeredWith_iff (KeyMap.insert_self ..) hnew]
    refine ⟨fun h => absurd h (hp _ _), fun h => ?_⟩
    exact absurd (registered_of_mem_registeredWith h) (not_mem_registered_of_none hs)
  · refine mem_registeredWith_congr (KeyMap.insert_of_ne _ _ heq) fun h hs' => ?_
    obtain ⟨sub, hsub, -⟩ := hw.registered s' h hs'
    have hlt := hw.lt_next hsub
    exact KeyMap.insert_of_ne _ _ (by omega)

theorem registeredWith_closedBy {e : Endpoint P R} (hw : e.Wf) {s : SubstreamId} {h : ℕ}
    (sub : Substream R) (hs : e.conn.substreamInboundTxs s = some h) :
    (e.closedBy s h sub).registeredWith p = e.registeredWith p \ {s} := by
  ext s'
  rw [Set.mem_sdiff, Set.mem_singleton_iff]
  by_cases heq : s' = s
  · subst heq
    refine ⟨fun hm => ?_, fun hm => absurd rfl hm.2⟩
    have hnone : (e.closedBy s' h sub).conn.substreamInboundTxs s' = none := KeyMap.remove_self ..
    exact absurd (registered_of_mem_registeredWith hm) (not_mem_registered_of_none hnone)
  · have hcongr : s' ∈ (e.closedBy s h sub).registeredWith p ↔ s' ∈ e.registeredWith p := by
      refine mem_registeredWith_congr (KeyMap.remove_of_ne _ heq) fun h' hs' => ?_
      refine KeyMap.insert_of_ne _ _ fun hh => heq ?_
      subst hh
      exact hw.id_unique hs' hs
    rw [hcongr]
    exact ⟨fun hm => ⟨hm, heq⟩, fun hm => hm.1⟩

/-- Putting back a substream that meets `p` only if it did before. -/
theorem registeredWith_put_subset {e : Endpoint P R} {h : ℕ} {sub sub' : Substream R}
    (hsub : e.substreams h = some sub) (hp : p sub' → p sub) :
    (e.put h sub').registeredWith p ⊆ e.registeredWith p := by
  rintro s ⟨k, sub₁, hs, hk, hp₁⟩
  have hs' : e.conn.substreamInboundTxs s = some k := hs
  by_cases hkh : k = h
  · subst hkh
    have hput : (e.put k sub').substreams k = some sub' := KeyMap.insert_self ..
    rw [hput] at hk
    cases hk
    exact ⟨k, sub, hs', hsub, hp hp₁⟩
  · have hput : (e.put h sub').substreams k = e.substreams k := KeyMap.insert_of_ne _ _ hkh
    exact ⟨k, sub₁, hs', hput.symm.trans hk, hp₁⟩

theorem registeredWith_put {e : Endpoint P R} {h : ℕ} {sub sub' : Substream R}
    (hsub : e.substreams h = some sub) (hp : p sub' ↔ p sub) :
    (e.put h sub').registeredWith p = e.registeredWith p := by
  refine Set.Subset.antisymm (registeredWith_put_subset hsub hp.mp) ?_
  have hback : (e.put h sub').put h sub = e := by
    have : (e.put h sub').put h sub = e.put h sub := by
      simp only [put, KeyMap.insert, Function.update_idem]
    rw [this, put_self hsub]
  have hput : (e.put h sub').substreams h = some sub' := KeyMap.insert_self ..
  have := registeredWith_put_subset (e := e.put h sub') hput hp.mpr
  rwa [hback] at this

end RegisteredWith

theorem registered_opened (e : Endpoint P R) (s : SubstreamId) :
    (e.opened s).registered = insert s e.registered := by
  ext s'
  simp only [registered, opened, KeyMap.insert_apply, Set.mem_ofPred_eq, Set.mem_insert_iff]
  split
  · rename_i heq
    simp [heq]
  · rename_i hne
    simp [hne]

theorem registered_closedBy (e : Endpoint P R) (s : SubstreamId) (h : ℕ) (sub : Substream R) :
    (e.closedBy s h sub).registered = e.registered \ {s} := by
  ext s'
  simp only [registered, closedBy, KeyMap.remove_apply, Set.mem_ofPred_eq, Set.mem_sdiff,
    Set.mem_singleton_iff]
  split
  · rename_i heq
    simp [heq]
  · rename_i hne
    simp [hne]

/-! ### Covered queues -/

/-- The messages can be taken one after another without a panic, where `reg` are the registered ids,
`lost` those of them whose substream was dropped, and `mixnet` says that responses can be sent.  An
error ends the `poll`, and what comes after it is not looked at. -/
def Covered (mixnet : Prop) (lost : Set SubstreamId) :
    Set SubstreamId → List SubstreamMessage → Prop
  | _, [] => True
  | reg, msg :: rest =>
    match msg.messageType with
    | .openRequest =>
      msg.substreamId ∈ reg ∨ ¬ mixnet ∨ Covered mixnet lost (insert msg.substreamId reg) rest
    | .openResponse => Covered mixnet lost reg rest
    | .close =>
      msg.substreamId ∉ reg ∨
        (msg.substreamId ∉ lost ∧ Covered mixnet lost (reg \ {msg.substreamId}) rest)
    | .data _ => msg.substreamId ∈ reg ∧ Covered mixnet lost reg rest

/-- The messages can be taken at the endpoint without a panic. -/
def Covers (e : Endpoint P R) (msgs : List SubstreamMessage) : Prop :=
  Covered e.outbox.Alive e.gone e.registered msgs

/-- A message whose handling ends the `poll` is covered, whatever follows it. -/
theorem covers_of_handles_error {e e' : Endpoint P R} {s : SubstreamId} {ty : SubstreamMessageType}
    {err : Error} (hh : Handles e s ty e' (.error err)) (rest : List SubstreamMessage) :
    e.Covers (⟨s, ty⟩ :: rest) := by
  cases hh with
  | openExists h hs => exact Or.inl (mem_registered_of_some hs)
  | openUnanswered hs ha => exact Or.inr (Or.inl ha)
  | closeUnknown hs => exact Or.inl (not_mem_registered_of_none hs)

/-- Handling a message without an error drops no substream. -/
theorem gone_handles {e e' : Endpoint P R} (hw : e.Wf) {s : SubstreamId}
    {ty : SubstreamMessageType} (hh : Handles e s ty e' (.ok ())) : e'.gone = e.gone := by
  cases hh with
  | openAccepted hs ha => exact registeredWith_opened hw hs fun _ _ hd => Bool.noConfusion hd
  | openResponse => rfl
  | closed h sub hs hsub halive =>
    refine (registeredWith_closedBy hw sub hs).trans (Set.sdiff_singleton_eq_self ?_)
    rw [mem_registeredWith_iff hs hsub, ← hw.halves h sub hsub, halive]
    exact Bool.noConfusion
  | data h d hs =>
    obtain ⟨sub, hsub, -⟩ := hw.registered s h hs
    rw [sendData_eq_put hsub]
    refine registeredWith_put hsub ?_
    rw [rxAlive_receivedData]

/-- After a message that was handled without an error, what is left is covered iff the whole was. -/
theorem covers_of_handles_ok {e e' : Endpoint P R} (hw : e.Wf) {s : SubstreamId}
    {ty : SubstreamMessageType} (hh : Handles e s ty e' (.ok ())) (rest : List SubstreamMessage) :
    e'.Covers rest ↔ e.Covers (⟨s, ty⟩ :: rest) := by
  have hg := gone_handles hw hh
  unfold Covers
  rw [hg]
  cases hh with
  | openAccepted hs ha =>
    have hr : (e.accepted s).registered = insert s e.registered := registered_opened e s
    rw [hr]
    constructor
    · exact fun hc => Or.inr (Or.inr hc)
    · rintro (hreg | hdead | hc)
      · exact absurd hreg (not_mem_registered_of_none hs)
      · exact absurd ha hdead
      · exact hc
  | openResponse => exact Iff.rfl
  | closed h sub hs hsub halive =>
    have hlost : s ∉ e.gone := by
      unfold gone
      rw [mem_registeredWith_iff hs hsub, ← hw.halves h sub hsub, halive]
      exact Bool.noConfusion
    rw [registered_closedBy]
    constructor
    · exact fun hc => Or.inr ⟨hlost, hc⟩
    · rintro (hn | ⟨-, hc⟩)
      · exact absurd (mem_registered_of_some hs) hn
      · exact hc
  | data h d hs => exact ⟨fun hc => ⟨mem_registered_of_some hs, hc⟩, fun hc => hc.2⟩

theorem safe_of_covers {e : Endpoint P R} (hw : e.Wf) {msg : SubstreamMessage}
    {rest : List SubstreamMessage} (hc : e.Covers (msg :: rest)) : e.Safe msg := by
  obtain ⟨s, ty⟩ := msg
  cases ty with
  | openRequest => trivial
  | openResponse => trivial
  | close =>
    intro h sub hs hsub
    rw [hw.halves h sub hsub]
    rcases hc with hn | ⟨hlost, -⟩
    · exact absurd (mem_registered_of_some hs) hn
    · unfold gone at hlost
      rw [mem_registeredWith_iff hs hsub, Bool.not_eq_false] at hlost
      exact hlost
  | data d => exact hc.1

theorem queue_handles {e e' : Endpoint P R} {s : SubstreamId} {ty : SubstreamMessageType}
    {r : Except Error Unit} (hh : Handles e s ty e' r) : e'.conn.inboundRx = e.conn.inboundRx := by
  cases hh <;> rfl

theorem isOk_pollLoop_iff {fuel : ℕ} {e : Endpoint P R} (hw : e.Wf)
    (hf : e.conn.inboundRx.queue.length < fuel) :
    (∃ r, pollLoop fuel e = .ok r) ↔ e.Covers e.conn.inboundRx.queue := by
  induction fuel generalizing e with
  | zero => omega
  | succ fuel ih =>
    cases hq : e.conn.inboundRx.queue with
    | nil =>
      rw [pollLoop_succ_of_nil hq]
      exact ⟨fun _ => trivial, fun _ => ⟨_, rfl⟩⟩
    | cons msg rest =>
      rw [hq, List.length_cons] at hf
      have hw₁ := hw.took msg rest
      rw [pollLoop_succ_of_cons hq]
      show _ ↔ (e.took msg rest).Covers (msg :: rest)
      rcases handleMessage_cases hw₁ msg with ⟨-, e', r, hm, hh⟩ | ⟨hstuck, p, hm⟩
      · rw [hm]
        cases r with
        | error err =>
          exact ⟨fun _ => covers_of_handles_error hh rest, fun _ => ⟨_, rfl⟩⟩
        | ok u =>
          have hq' : e'.conn.inboundRx.queue = rest := by
            rw [queue_handles hh]
            rfl
          have hih := ih (wf_handles hw₁ hh) (by rw [hq']; omega)
          rw [hq'] at hih
          exact hih.trans (covers_of_handles_ok hw₁ hh rest)
      · rw [hm]
        refine ⟨fun ⟨r, hr⟩ => ?_, fun hc => absurd (safe_of_covers hw₁ hc) hstuck⟩
        cases hr

/-- `poll` returns exactly when the messages that wait are covered. -/
theorem isOk_poll_iff {e : Endpoint P R} (hw : e.Wf) :
    (∃ r, e.poll = .ok r) ↔ e.Covers e.conn.inboundRx.queue :=
  isOk_pollLoop_iff hw (Nat.lt_succ_self _)

/-- What a `poll` can answer: `Pending` or an error. -/
theorem pollLoop_answer {fuel : ℕ} {e e' : Endpoint P R}
    {r : Poll (Except Error StreamMuxerEvent)} (h : pollLoop fuel e = .ok (e', r)) :
    r = .pending ∨ ∃ err, r = .ready (.error err) :=
  pollLoop_rule (I := fun _ => True) (Q := fun _ r => r = .pending ∨ ∃ err, r = .ready (.error err))
    (fun _ _ => Or.inl rfl) (fun _ _ _ _ _ _ _ => trivial)
    (fun _ _ _ _ err _ _ _ => Or.inr ⟨err, rfl⟩) trivial h

/-! ### Runs -/

/-- If the operation is a `poll` of a connection that was not dropped, the messages that wait for it
are covered. -/
def PollCovered (e : Endpoint P R) (o : Op) : Prop :=
  o = .poll → e.Alive → e.Covers e.conn.inboundRx.queue

theorem step_isOk_iff {e : Endpoint P R} (hw : e.Wf) (o : Op) :
    (∃ r, e.step o = .ok r) ↔ e.PollCovered o := by
  by_cases ho : o = .poll
  · subst ho
    by_cases ha : e.Alive
    · constructor
      · rintro ⟨⟨e', a⟩, hs⟩ - -
        cases steps_of_step hw hs with
        | skip =>
          simp only [step, ha, ↓reduceIte] at hs
          split at hs
          · cases hs
          · injection hs with hs
            cases congrArg Prod.snd hs
        | poll _ r _ hp => exact (isOk_poll_iff hw).mp ⟨_, hp⟩
      · intro hc
        obtain ⟨⟨e', r⟩, hp⟩ := (isOk_poll_iff hw).mpr (hc rfl ha)
        refine ⟨(e', .poll r), ?_⟩
        simp only [step, ha, ↓reduceIte, hp]
    · refine ⟨fun _ _ hal => absurd hal ha, fun _ => ⟨(e, .skip), ?_⟩⟩
      simp only [step, ha, ↓reduceIte]
  · exact ⟨fun _ hp => absurd hp ho, fun _ => step_isOk_of_ne_poll ho⟩

theorem wf_run {e e' : Endpoint P R} (hw : e.Wf) {ops : List Op} {as : List Answer} :
    run step e ops = .ok (e', as) → e'.Wf :=
  run_induction (I := fun _ _ (e : Endpoint P R) => e.Wf) hw
    fun _ _ _ _ _ _ _ hi hs => wf_step hi hs

/-- Every `poll` of a run answers `Pending` or an error. -/
theorem run_poll_answers {e e' : Endpoint P R} (hw : e.Wf) {ops : List Op} {as : List Answer} :
    run step e ops = .ok (e', as) →
      ∀ r, Answer.poll r ∈ as → r = .pending ∨ ∃ err, r = .ready (.error err) := by
  refine run_induction
    (I := fun _ as _ => ∀ r, Answer.poll r ∈ as → r = .pending ∨ ∃ err, r = .ready (.error err))
    (fun r hr => by cases hr) ?_
  intro xs as m o t a hrun ih hs r hr
  rw [List.mem_append, List.mem_singleton] at hr
  rcases hr with hr | rfl
  · exact ih r hr
  · cases steps_of_step (wf_run hw hrun) hs with
    | poll _ _ _ hp => exact pollLoop_answer hp

/-- **Exactly the runs that do not crash.**  For every new connection over any channel to the mixnet
and every run of received messages, polls and operations on the connection and its substreams: every
`poll` returns `Pending` or an error, and none panics, iff every `poll` meets a covered queue. -/
theorem run_isOk_iff_covered (peerId : P) (remoteRecipient : R) (id : ConnectionId)
    (outboundTx : Chan (OutboundMessage P R)) (ops : List Op) :
    (∃ e as, run step (new peerId remoteRecipient id outboundTx) ops = .ok (e, as) ∧
        ∀ r, Answer.poll r ∈ as → r = .pending ∨ ∃ err, r = .ready (.error err)) ↔
      Along PollCovered step (new peerId remoteRecipient id outboundTx) ops := by
  have hw := wf_new peerId remoteRecipient id outboundTx
  rw [← run_isOk_iff_along fun _ o _ _ _ hr => step_isOk_iff (wf_run hw hr) o]
  constructor
  · rintro ⟨e, as, hr, -⟩
    exact ⟨_, hr⟩
  · rintro ⟨⟨e, as⟩, hr⟩
    exact ⟨e, as, hr, run_poll_answers hw hr⟩

/-- Data for an id that was never opened. -/
def sampleStrayData : List Op := [.receive ⟨⟨.fill 2⟩, .data [1]⟩, .poll]

theorem run_sampleStrayData :
    run step sample sampleStrayData = .error .noSubstreamChannel := rfl

end Libp2pNym.Endpoint
