import Libp2pNym.Connection.Equiv.Lifecycle

/-!
# Pending substreams

A connection files a substream under its id in `substream_inbound_txs` and `substream_close_txs`,
and one it has opened itself also in `pending_substreams`, until the response comes.  `handle_close`
takes the id out of the first two only, so a close that comes before the response leaves an id
pending whose substream is gone (`pending_sampleEarlyClose`).  `ClosesAnswered` walks through the
messages waiting for a `poll` with the ids that are registered and those that are pending, and
`pending_consistent` says that in the runs all of whose polls meet it, every pending id is that of a
substream that was opened here, is still registered, and whose response was not taken.
-/

namespace Libp2pNym.Endpoint

open StepRun

variable {P R : Type}

/-! ### Closes of substreams that were answered -/

/-- No close among the messages unregisters an id that is pending, where `reg` are the registered
ids and `pend` the pending ones; `mixnet` says that responses can be sent.  An error ends the
`poll`, and what comes after it is not looked at. -/
def ClosesAnswered (mixnet : Prop) :
    Set SubstreamId → Set SubstreamId → List SubstreamMessage → Prop
  | _, _, [] => True
  | reg, pend, msg :: rest =>
    match msg.messageType with
    | .openRequest =>
      msg.substreamId ∈ reg ∨ ¬ mixnet ∨
        ClosesAnswered mixnet (insert msg.substreamId reg) pend rest
    | .openResponse => ClosesAnswered mixnet reg (pend \ {msg.substreamId}) rest
    | .close =>
      msg.substreamId ∉ reg ∨
        (msg.substreamId ∉ pend ∧ ClosesAnswered mixnet (reg \ {msg.substreamId}) pend rest)
    | .data _ => ClosesAnswered mixnet reg pend rest

/-- The ids in `pending_substreams`. -/
def pending (e : Endpoint P R) : Set SubstreamId := {s | s ∈ e.conn.pendingSubstreams}

/-- The closes among the messages, taken at the endpoint, find no pending substream. -/
def Answers (e : Endpoint P R) (msgs : List SubstreamMessage) : Prop :=
  ClosesAnswered e.outbox.Alive e.registered e.pending msgs

/-- After a message that was handled without an error, what is left finds no pending substream
either. -/
theorem answers_handles {e e' : Endpoint P R} (hw : e.Wf) {s : SubstreamId}
    {ty : SubstreamMessageType} (hh : Handles e s ty e' (.ok ())) {rest : List SubstreamMessage}
    (hc : e.Answers (⟨s, ty⟩ :: rest)) : e'.Answers rest := by
  cases hh with
  | openAccepted hs ha =>
    have hr : (e.accepted s).registered = insert s e.registered := registered_opened e s
    unfold Answers
    rw [hr]
    rcases hc with hc | hc | hc
    · exact absurd hc (not_mem_registered_of_none hs)
    · exact absurd ha hc
    · exact hc
  | openResponse =>
    have hp : pending { e with conn.pendingSubstreams := e.conn.pendingSubstreams.erase s }
        = e.pending \ {s} := by
      ext s'
      rw [Set.mem_sdiff, Set.mem_singleton_iff]
      exact Finset.mem_erase.trans and_comm
    unfold Answers
    rw [hp]
    exact hc
  | closed h sub hs hsub halive =>
    unfold Answers
    rw [registered_closedBy]
    rcases hc with hc | hc
    · exact absurd (mem_registered_of_some hs) hc
    · exact hc.2
  | data h d hs =>
    obtain ⟨sub, hsub, -⟩ := hw.registered s h hs
    rw [sendData_eq_put hsub]
    exact hc

/-! ### The invariant -/

/-- Every pending id is registered under the handle it was opened with, and its response is not
among the messages taken since, where `opened s h n` says that `s` was opened here as `h` when `n`
messages had been taken. -/
def Awaits (opened : SubstreamId → ℕ → ℕ → Prop) (e : Endpoint P R) : Prop :=
  ∀ s ∈ e.conn.pendingSubstreams, ∃ h n, opened s h n ∧ e.conn.substreamInboundTxs s = some h ∧
    ⟨s, .openResponse⟩ ∉ e.taken.drop n

section

variable {opened opened' : SubstreamId → ℕ → ℕ → Prop}

theorem Awaits.mono {e : Endpoint P R} (ha : Awaits opened e)
    (ho : ∀ s h n, opened s h n → opened' s h n) : Awaits opened' e := by
  intro s hs
  obtain ⟨h, n, h1, h2, h3⟩ := ha s hs
  exact ⟨h, n, ho s h n h1, h2, h3⟩

theorem Awaits.congr {e e' : Endpoint P R} (ha : Awaits opened e)
    (hpend : e'.conn.pendingSubstreams = e.conn.pendingSubstreams)
    (htxs : e'.conn.substreamInboundTxs = e.conn.substreamInboundTxs)
    (htaken : e'.taken = e.taken) : Awaits opened e' := by
  intro s hs
  rw [hpend] at hs
  rw [htxs, htaken]
  exact ha s hs

theorem awaits_handles {e e' : Endpoint P R} (ha : Awaits opened e) {s : SubstreamId}
    {ty : SubstreamMessageType} {rest : List SubstreamMessage} {r : Except Error Unit}
    (hh : Handles (e.took ⟨s, ty⟩ rest) s ty e' r) (hc : e.Answers (⟨s, ty⟩ :: rest)) :
    Awaits opened e' := by
  -- a pending id that the message does not concern stays as it was
  have hkeep : ∀ s' ∈ e.conn.pendingSubstreams, (ty = .openResponse → s' ≠ s) →
      e'.conn.substreamInboundTxs s' = e.conn.substreamInboundTxs s' →
      e'.taken = e.taken ++ [⟨s, ty⟩] →
      ∃ h n, opened s' h n ∧ e'.conn.substreamInboundTxs s' = some h ∧
        ⟨s', .openResponse⟩ ∉ e'.taken.drop n := by
    intro s' hs' hne htxs htaken
    obtain ⟨h, n, h1, h2, h3⟩ := ha s' hs'
    refine ⟨h, n, h1, htxs.trans h2, fun hm => ?_⟩
    rw [htaken, List.drop_append, List.mem_append] at hm
    rcases hm with hm | hm
    · exact h3 hm
    · have heq := List.mem_singleton.mp (List.mem_of_mem_drop hm)
      injection heq with hss hty
      exact hne hty.symm hss
  -- an id that is not registered is not pending
  have hunreg : ∀ s' ∈ e.conn.pendingSubstreams, e.conn.substreamInboundTxs s = none → s' ≠ s := by
    rintro s' hs' hn rfl
    obtain ⟨h, n, -, h2, -⟩ := ha s' hs'
    rw [hn] at h2
    cases h2
  cases hh with
  | openExists h hs => exact fun s' hs' => hkeep s' hs' (fun hty => (by cases hty)) rfl rfl
  | openAccepted hs hal =>
    exact fun s' hs' => hkeep s' hs' (fun hty => (by cases hty))
      (KeyMap.insert_of_ne _ _ (hunreg s' hs' hs)) rfl
  | openUnanswered hs hal =>
    exact fun s' hs' => hkeep s' hs' (fun hty => (by cases hty))
      (KeyMap.insert_of_ne _ _ (hunreg s' hs' hs)) rfl
  | openResponse =>
    intro s' hs'
    obtain ⟨hne, hs'⟩ := Finset.mem_erase.mp hs'
    exact hkeep s' hs' (fun _ => hne) rfl rfl
  | closeUnknown hs => exact fun s' hs' => hkeep s' hs' (fun hty => (by cases hty)) rfl rfl
  | closed h sub hs hsub halive =>
    intro s' hs'
    refine hkeep s' hs' (fun hty => (by cases hty)) (KeyMap.remove_of_ne _ ?_) rfl
    -- the close is not for a pending id
    rintro rfl
    rcases hc with hc | hc
    · exact hc (mem_registered_of_some hs)
    · exact hc.1 hs'
  | data h d hs => exact fun s' hs' => hkeep s' hs' (fun hty => (by cases hty)) rfl rfl

theorem awaits_pollLoop {fuel : ℕ} {e e' : Endpoint P R}
    {r : Poll (Except Error StreamMuxerEvent)} (hw : e.Wf) (ha : Awaits opened e)
    (hc : e.Answers e.conn.inboundRx.queue) (h : pollLoop fuel e = .ok (e', r)) :
    Awaits opened e' := by
  refine pollLoop_rule (I := fun e => e.Wf ∧ Awaits opened e ∧ e.Answers e.conn.inboundRx.queue)
    (Q := fun e _ => Awaits opened e) (fun _ hi => hi.2.1) ?_ ?_ ⟨hw, ha, hc⟩ h
  · rintro e msg rest e' ⟨hw, ha, hc⟩ hq hm
    have hw₁ := hw.took msg rest
    have hh := handles_of_handleMessage hw₁ hm
    rw [hq] at hc
    refine ⟨wf_handles hw₁ hh, awaits_handles ha hh hc, ?_⟩
    rw [queue_handles hh]
    exact answers_handles hw₁ hh hc
  · rintro e msg rest e' err ⟨hw, ha, hc⟩ hq hm
    rw [hq] at hc
    exact awaits_handles ha (handles_of_handleMessage (hw.took msg rest) hm) hc

/-! ### Runs -/

/-- If the operation is a `poll` of a connection that was not dropped, the closes among the messages
that wait for it find no pending substream. -/
def PollAnswers (e : Endpoint P R) (o : Op) : Prop :=
  o = .poll → e.Alive → e.Answers e.conn.inboundRx.queue

theorem awaits_steps {e e' : Endpoint P R} (hw : e.Wf) (ha : e.Alive → Awaits opened e) {o : Op}
    {a : Answer} (hc : e.PollAnswers o) (hs : Steps e o e' a)
    (ho : ∀ s h n, opened s h n → opened' s h n)
    (hnew : ∀ s h, o = .pollOutbound s → a = .pollOutbound (.ready (.ok h)) →
      opened' s h e.taken.length) : e'.Alive → Awaits opened' e' := by
  have ha' : e.Alive → Awaits opened' e := fun hal => (ha hal).mono ho
  cases hs with
  | skip o => exact ha'
  | receive msg hal => exact fun hal => (ha' hal).congr rfl rfl rfl
  | poll e' r hal hp => exact fun _ => (awaits_pollLoop hw (ha hal) (hc rfl hal) hp).mono ho
  | yielded h rest hal hq => exact fun hal => (ha' hal).congr rfl rfl rfl
  | notYielded hq => exact ha'
  | requested s hal hn hout =>
    intro _ s' hs'
    rcases Finset.mem_insert.mp hs' with rfl | hs'
    · -- the id that was opened just now
      refine ⟨e.next, e.taken.length, hnew _ _ rfl rfl, KeyMap.insert_self .., fun hm => ?_⟩
      have hm' : ⟨s', .openResponse⟩ ∈ e.taken.drop e.taken.length := hm
      rw [List.drop_length] at hm'
      exact List.not_mem_nil hm'
    · obtain ⟨h, n, h1, h2, h3⟩ := ha' hal s' hs'
      refine ⟨h, n, h1, (KeyMap.insert_of_ne _ _ ?_).trans h2, h3⟩
      rintro rfl
      rw [hn] at h2
      cases h2
  | requestExists s h hal hreg hout => exact fun hal => (ha' hal).congr rfl rfl rfl
  | requestUnsent s hal hout => exact fun hal => (ha' hal).congr rfl rfl rfl
  | closeReported s rest hq => exact fun hal => (ha' hal).congr rfl rfl rfl
  | closeNotReported hq => exact ha'
  | read h sub buf hh => exact fun hal => (ha' hal).congr rfl rfl rfl
  | writeRefused h sub buf hh => exact fun hal => (ha' hal).congr rfl rfl rfl
  | written h sub buf hh hcl hn hout => exact fun hal => (ha' hal).congr rfl rfl rfl
  | writeUnsent h sub buf hh hout => exact fun hal => (ha' hal).congr rfl rfl rfl
  | flushed h sub hh => exact fun hal => (ha' hal).congr rfl rfl rfl
  | closeRefused h sub hh hcl => exact fun hal => (ha' hal).congr rfl rfl rfl
  | closedLocally h sub hh hcl hout => exact fun hal => (ha' hal).congr rfl rfl rfl
  | closeUnsent h sub hh hcl hout => exact fun hal => (ha' hal).congr rfl rfl rfl
  | dropped h sub hh => exact fun hal => (ha' hal).congr rfl rfl rfl
  | connectionDropped hal => exact fun hal => (by cases hal)

end

/-- The run from `e₀` has opened the id `s` as the substream `h` when `n` messages had been taken.
-/
def OpenedIn (e₀ : Endpoint P R) (ops : List Op) (s : SubstreamId) (h n : ℕ) : Prop :=
  ∃ xs ys m as m', ops = xs ++ .pollOutbound s :: ys ∧ run step e₀ xs = .ok (m, as) ∧
    m.step (.pollOutbound s) = .ok (m', .pollOutbound (.ready (.ok h))) ∧ n = m.taken.length

/-- **The three collections of a connection agree while no close overtakes a response.**  In every
run none of whose polls takes a close for a registered id that is pending then, and in every state
it reaches with the connection not dropped: the two maps of senders have the same ids, and every
pending id is in them, under the handle it was opened with here, and no response for it was taken
since. -/
theorem pending_consistent (peerId : P) (remoteRecipient : R) (id : ConnectionId)
    (outboundTx : Chan (OutboundMessage P R)) (ops : List Op)
    (hc : Along PollAnswers step (new peerId remoteRecipient id outboundTx) ops) :
    Always (fun xs _ e => e.Alive →
        (∀ s, e.conn.substreamInboundTxs s ≠ none ↔ e.conn.substreamCloseTxs s ≠ none) ∧
        ∀ s ∈ e.conn.pendingSubstreams, ∃ h n,
          OpenedIn (new peerId remoteRecipient id outboundTx) xs s h n ∧
          e.conn.substreamInboundTxs s = some h ∧ ⟨s, .openResponse⟩ ∉ e.taken.drop n)
      step (new peerId remoteRecipient id outboundTx) ops := by
  have hw := wf_new peerId remoteRecipient id outboundTx
  intro xs hxs e as hrun hal
  obtain ⟨ys, rfl⟩ := hxs
  refine ⟨fun s => by rw [(wf_run hw hrun).closeTxs], ?_⟩
  refine run_induction_along (I := fun xs _ (e : Endpoint P R) => e.Alive →
    Awaits (OpenedIn (new peerId remoteRecipient id outboundTx) xs) e) ?_ ?_ hc.of_append hrun hal
  · intro _ s hs
    exact absurd hs (Finset.notMem_empty s)
  · intro xs as m o t a hr ih hP hs
    have hwm := wf_run hw hr
    refine awaits_steps hwm ih hP (steps_of_step hwm hs) ?_ ?_
    · rintro s h n ⟨xs₁, ys₁, m₁, as₁, m₁', rfl, h1, h2, h3⟩
      exact ⟨xs₁, ys₁ ++ [o], m₁, as₁, m₁', List.append_assoc .., h1, h2, h3⟩
    · rintro s h rfl rfl
      exact ⟨xs, [], m, as, t, rfl, hr, hs, rfl⟩

/-- A substream is opened, and the remote answers and closes it. -/
def sampleAnswered : List Op :=
  [.pollOutbound ⟨.fill 2⟩, .receive ⟨⟨.fill 2⟩, .openResponse⟩, .receive ⟨⟨.fill 2⟩, .close⟩,
    .poll, .pollOutbound ⟨.fill 3⟩]

theorem pollAnswers_sampleAnswered : Along PollAnswers step sample sampleAnswered := by
  have hskip : ∀ {e : Endpoint RawPeerId RawRecipient} {o : Op}, o ≠ .poll → e.PollAnswers o :=
    fun hne ho => absurd ho hne
  refine ⟨hskip (by simp), fun _ _ hs => ?_⟩
  cases hs
  refine ⟨hskip (by simp), fun _ _ hs => ?_⟩
  cases hs
  refine ⟨hskip (by simp), fun _ _ hs => ?_⟩
  cases hs
  refine ⟨fun _ _ => Or.inr ⟨?_, trivial⟩, fun _ _ hs => ?_⟩
  · -- the response was taken before the close
    exact fun hm => hm.2 rfl
  · cases hs
    exact ⟨hskip (by simp), fun _ _ _ => trivial⟩

/-- The first id is in no collection any more, and the second is pending under its handle. -/
theorem pending_consistent_sampleAnswered :
    ∃ e as n, run step sample sampleAnswered = .ok (e, as) ∧ e.Alive ∧
      e.conn.substreamInboundTxs ⟨.fill 2⟩ = none ∧ e.conn.substreamCloseTxs ⟨.fill 2⟩ = none ∧
      e.conn.pendingSubstreams = {⟨.fill 3⟩} ∧ e.conn.substreamInboundTxs ⟨.fill 3⟩ = some 1 ∧
      e.conn.substreamCloseTxs ⟨.fill 3⟩ ≠ none ∧ OpenedIn sample sampleAnswered ⟨.fill 3⟩ 1 n ∧
      ⟨⟨.fill 3⟩, .openResponse⟩ ∉ e.taken.drop n := by
  have hstate : ∃ e as, run step sample sampleAnswered = .ok (e, as) ∧ e.Alive ∧
      e.conn.substreamInboundTxs ⟨.fill 2⟩ = none ∧ e.conn.pendingSubstreams = {⟨.fill 3⟩} ∧
      e.conn.substreamInboundTxs ⟨.fill 3⟩ = some 1 := ⟨_, _, rfl, rfl, rfl, by decide, rfl⟩
  obtain ⟨e, as, hrun, ha, hclosed, hpending, hopen⟩ := hstate
  obtain ⟨hboth, hopened⟩ := pending_consistent _ _ _ _ sampleAnswered pollAnswers_sampleAnswered
    _ (List.prefix_refl _) e as hrun ha
  obtain ⟨h, n, hin, hreg, hnone⟩ := hopened ⟨.fill 3⟩ (hpending ▸ Finset.mem_singleton_self _)
  rw [hopen] at hreg
  cases hreg
  have hsome : e.conn.substreamInboundTxs ⟨.fill 3⟩ ≠ none := by simp [hopen]
  exact ⟨e, as, n, hrun, ha, hclosed, by_contra fun hne => (hboth _).mpr hne hclosed, hpending,
    hopen, (hboth _).mp hsome, hin, hnone⟩

/-- A substream is opened, and the remote closes it without an answer. -/
def sampleEarlyClose : List Op := [.pollOutbound ⟨.fill 2⟩, .receive ⟨⟨.fill 2⟩, .close⟩, .poll]

/-- The id is pending, and its substream is gone. -/
theorem pending_sampleEarlyClose :
    ∃ e as, run step sample sampleEarlyClose = .ok (e, as) ∧ e.Alive ∧
      ⟨.fill 2⟩ ∈ e.conn.pendingSubstreams ∧ e.conn.substreamInboundTxs ⟨.fill 2⟩ = none ∧
      e.conn.substreamCloseTxs ⟨.fill 2⟩ = none :=
  ⟨_, _, rfl, rfl, Finset.mem_insert_self _ _, rfl, rfl⟩

end Libp2pNym.Endpoint
