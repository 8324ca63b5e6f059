import Libp2pNym.Connection.Equiv.Joined
import Libp2pNym.Connection.Pair

/-!
# Runs of two connections that deliver to each other

Both ends keep their ledgers and hear each other in every run with fresh substream ids (`inv_run`).
`run_isOk_iff_not_gone`: such a run panics only where a `poll` finds the close of a substream that
was dropped before.  `lifecycle_agreement`: with the substreams kept alive, the two ends agree on
the substreams that were opened, and every message finds what it is for.
-/

namespace Libp2pNym.Pair

open StepRun Endpoint

variable {P R : Type}

/-! ### What was opened and yielded in a run -/

/-- The id that the operation has opened at the end `x`. -/
def openedAt (x : Side) : Op → Answer → List SubstreamId
  | .act y o, a => if y = x then openedIn o a else []
  | .deliver _, _ => []

/-- The handle that the operation has yielded at the end `x`. -/
def yieldedAt (x : Side) : Op → Answer → List ℕ
  | .act y _, a => if y = x then yieldedIn a else []
  | .deliver _, _ => []

/-- The ids opened by `poll_outbound` at the end `x`, in order. -/
def openedBy (x : Side) (ops : List Op) (as : List Answer) : List SubstreamId :=
  (ops.zip as).flatMap fun oa => openedAt x oa.1 oa.2

/-- The handles yielded by `poll_inbound` at the end `x`, in order. -/
def yieldedBy (x : Side) (ops : List Op) (as : List Answer) : List ℕ :=
  (ops.zip as).flatMap fun oa => yieldedAt x oa.1 oa.2

theorem openedBy_snoc {ops : List Op} {as : List Answer} (hlen : as.length = ops.length) (x : Side)
    (o : Op) (a : Answer) :
    openedBy x (ops ++ [o]) (as ++ [a]) = openedBy x ops as ++ openedAt x o a :=
  flatMap_zip_snoc _ hlen o a

theorem yieldedBy_snoc {ops : List Op} {as : List Answer} (hlen : as.length = ops.length) (x : Side)
    (o : Op) (a : Answer) :
    yieldedBy x (ops ++ [o]) (as ++ [a]) = yieldedBy x ops as ++ yieldedAt x o a :=
  flatMap_zip_snoc _ hlen o a

theorem generated_append (ops ops' : List Op) :
    generated (ops ++ ops') = generated ops ++ generated ops' := List.filterMap_append

/-! ### The joint invariant -/

/-- Both ends are well formed, keep their ledgers and hear each other; `used` are the ids generated
so far, and what was opened and yielded is what the run has answered. -/
structure Inv (ops : List Op) (as : List Answer) (p : Pair P R) : Prop where
  wf : ∀ x, (p x).Wf
  ledger : ∀ x, (p x).Ledger
  mixnet : ∀ x, (p x).outbox.Alive
  joined : ∀ x, (p x).Joined (p x.peer)
  used : ∀ x, requests (p x).sent ⊆ generated ops
  opened : ∀ x, requests (p x).sent = openedBy x ops as
  yielded : ∀ x, (p x).conn.inboundOpen.got = yieldedBy x ops as
  answers : ∀ r, Answer.poll r ∈ as → r = .pending

theorem inv_new (peerIds : Side → P) (addresses : Side → R) (id : ConnectionId) :
    Inv [] [] (new peerIds addresses id) where
  wf _ := wf_new _ _ _ _
  ledger _ := ledger_new _ _ _
  mixnet _ := rfl
  joined _ := ⟨List.nil_prefix, List.nil_prefix, fun _ hs => by cases hs⟩
  used _ := List.Subset.refl _
  opened _ := rfl
  yielded _ := rfl
  answers r hr := by cases hr

theorem Inv.sound {ops : List Op} {as : List Answer} {p : Pair P R} (hi : Inv ops as p) (x : Side)
    (ha : (p x).Alive) :
    (p x).Sound {s | ⟨s, .openRequest⟩ ∈ (p x.peer).taken} (p x.peer).sent :=
  ⟨hi.wf x, hi.ledger x, ha, hi.mixnet x, (hi.joined x).hears (hi.ledger x.peer)⟩

/-- An id that was not generated before is not known at either end. -/
theorem Inv.silent {ops : List Op} {as : List Answer} {p : Pair P R} (hi : Inv ops as p) (x : Side)
    {s : SubstreamId} (hs : s ∉ generated ops) : (p x).Silent s := by
  have hsent : ∀ y, (⟨s, .openRequest⟩ : SubstreamMessage) ∉ (p y).sent := by
    intro y hm
    exact hs (hi.used y (mem_requests_iff.mpr hm))
  refine ((hi.joined x).hears (hi.ledger x.peer)).silent (hsent x) fun hm => hsent x.peer ?_
  exact ((hi.joined x).hears (hi.ledger x.peer)).taken.subset hm

theorem Inv.used_append {ops : List Op} {as : List Answer} {p : Pair P R} (hi : Inv ops as p)
    (x : Side) (o : Op) : requests (p x).sent ⊆ generated (ops ++ [o]) := by
  rw [generated_append]
  exact List.Subset.trans (hi.used x) (List.subset_append_left _ _)

/-- One end has moved to `e` and the other has not. -/
theorem Inv.update {ops : List Op} {as : List Answer} {p : Pair P R} (hi : Inv ops as p)
    (hlen : as.length = ops.length) {x : Side} {o : Op} {a : Answer} {e : Endpoint P R} (hw : e.Wf)
    (hl : e.Ledger) (hmix : e.outbox.Alive) (hj : e.Joined (p x.peer))
    (hused : requests e.sent ⊆ generated (ops ++ [o]))
    (hopened : requests e.sent = requests (p x).sent ++ openedAt x o a)
    (hyielded : e.conn.inboundOpen.got = (p x).conn.inboundOpen.got ++ yieldedAt x o a)
    (hother : openedAt x.peer o a = [] ∧ yieldedAt x.peer o a = [])
    (hans : ∀ r, a = .poll r → r = .pending) :
    Inv (ops ++ [o]) (as ++ [a]) (Function.update p x e) := by
  have hself : Function.update p x e x = e := Function.update_self ..
  have hpeer : Function.update p x e x.peer = p x.peer := Function.update_of_ne x.peer_ne ..
  -- it is enough to look at the two ends
  have hends : ∀ {Q : Side → Prop}, Q x → Q x.peer → ∀ y, Q y := by
    intro Q hx hp y
    by_cases hy : y = x
    · exact hy ▸ hx
    · exact Side.eq_peer_of_ne hy ▸ hp
  refine ⟨hends ?_ ?_, hends ?_ ?_, hends ?_ ?_, hends ?_ ?_, hends ?_ ?_, hends ?_ ?_,
    hends ?_ ?_, ?_⟩
  · rwa [hself]
  · rw [hpeer]
    exact hi.wf _
  · rwa [hself]
  · rw [hpeer]
    exact hi.ledger _
  · rwa [hself]
  · rw [hpeer]
    exact hi.mixnet _
  · rwa [hself, hpeer]
  · rw [Side.peer_peer, hself, hpeer]
    exact hj.symm
  · rwa [hself]
  · rw [hpeer]
    exact hi.used_append _ o
  · rw [hself, openedBy_snoc hlen, hopened, hi.opened]
  · rw [hpeer, openedBy_snoc hlen, hother.1, List.append_nil, hi.opened]
  · rw [hself, yieldedBy_snoc hlen, hyielded, hi.yielded]
  · rw [hpeer, yieldedBy_snoc hlen, hother.2, List.append_nil, hi.yielded]
  · intro r hr
    rw [List.mem_append, List.mem_singleton] at hr
    exact hr.elim (hi.answers r) fun hr => hans r hr.symm

/-- A step that does nothing. -/
theorem Inv.skip {ops : List Op} {as : List Answer} {p : Pair P R} (hi : Inv ops as p)
    (hlen : as.length = ops.length) {o : Op} (ho : ∀ x, openedAt x o .skip = []) :
    Inv (ops ++ [o]) (as ++ [.skip]) p := by
  refine ⟨hi.wf, hi.ledger, hi.mixnet, hi.joined, fun x => hi.used_append x o, fun x => ?_,
    fun x => ?_, ?_⟩
  · rw [openedBy_snoc hlen, ho, List.append_nil, hi.opened]
  · have hy : yieldedAt x o .skip = [] := by
      cases o with
      | act y o => exact ite_self _
      | deliver y => rfl
    rw [yieldedBy_snoc hlen, hy, List.append_nil, hi.yielded]
  · intro r hr
    rw [List.mem_append, List.mem_singleton] at hr
    exact hr.elim (hi.answers r) fun hr => by cases hr

/-- An operation of the application at one end. -/
theorem Inv.act {ops : List Op} {as : List Answer} {p p' : Pair P R} (hi : Inv ops as p)
    (hlen : as.length = ops.length) {x : Side} {o : Endpoint.Op} {a : Answer}
    (hrec : ∀ m, o ≠ .receive m) (hfresh : (generated (ops ++ [.act x o])).Nodup)
    (hs : p.stepAt x o = .ok (p', a)) : Inv (ops ++ [.act x o]) (as ++ [a]) p' := by
  unfold stepAt at hs
  split at hs
  · cases hs
  · rename_i e a' hst
    cases hs
    have hsteps := steps_of_step (hi.wf x) hst
    have hnew : ∀ s, o = .pollOutbound s → s ∉ generated ops := by
      intro s ho hm
      subst ho
      rw [generated_append] at hfresh
      exact List.disjoint_of_nodup_append hfresh hm (List.mem_singleton_self s)
    obtain ⟨hl, hg⟩ := ledger_steps (hi.wf x) (hi.ledger x) (hi.mixnet x)
      ((hi.joined x).hears (hi.ledger x.peer)) hsteps hrec fun s ho => hi.silent x (hnew s ho)
    have hmix := alive_step (hi.wf x) (hi.mixnet x) hst
    refine hi.update hlen (wf_step (hi.wf x) hst) hl hmix ?_ ?_ ?_ ?_ ?_ hg.answer
    · refine (hi.joined x).grows hg fun s ho hm => hnew s ho ?_
      exact hi.used x.peer (mem_requests_iff.mpr hm)
    · rw [hg.opened]
      refine List.append_subset.mpr ⟨hi.used_append x _, ?_⟩
      rw [generated_append]
      refine List.Subset.trans ?_ (List.subset_append_right _ _)
      unfold openedIn
      split
      · exact List.Subset.refl _
      · exact List.nil_subset _
    · rw [hg.opened]
      simp only [openedAt, ↓reduceIte]
    · rw [hg.yielded]
      simp only [yieldedAt, ↓reduceIte]
    · simp only [openedAt, yieldedAt, x.peer_ne.symm, ↓reduceIte, and_self]

/-- The delivery of the next message to one end. -/
theorem Inv.deliver {ops : List Op} {as : List Answer} {p p' : Pair P R} (hi : Inv ops as p)
    (hlen : as.length = ops.length) {x : Side} {m : SubstreamMessage} {a : Answer}
    (hnext : p.nextFor x = some m) (hs : p.stepAt x (.receive m) = .ok (p', a)) :
    Inv (ops ++ [.deliver x]) (as ++ [a]) p' := by
  unfold stepAt at hs
  split at hs
  · cases hs
  · rename_i e a' hst
    cases hs
    have hw := wf_step (hi.wf x) hst
    have hused := hi.used_append x (.deliver x)
    cases steps_of_step (hi.wf x) hst with
    | skip o =>
      exact hi.update hlen hw (hi.ledger x) (hi.mixnet x) (hi.joined x) hused
        (List.append_nil _).symm (List.append_nil _).symm ⟨rfl, rfl⟩ fun r hr => by cases hr
    | receive msg ha =>
      have hj := hi.joined x
      refine hi.update hlen hw ((hi.ledger x).congr id rfl rfl rfl rfl rfl rfl) (hi.mixnet x)
        ⟨?_, hj.right, hj.apart⟩ hused
        (List.append_nil _).symm (List.append_nil _).symm ⟨rfl, rfl⟩ fun r hr => by cases hr
      -- the log grows by the message at its end
      show _ ++ (_ ++ [m]) <+: _
      rw [← List.append_assoc]
      show (p x).conn.inboundRx.log ++ [m] <+: _
      have hpre := List.prefix_iff_eq_take.mp hj.left
      have htake := List.take_add_one (l := (p x.peer).sent)
        (i := (p x).conn.inboundRx.log.length)
      have hnext' : (p x.peer).sent[(p x).conn.inboundRx.log.length]? = some m := hnext
      rw [← hpre, hnext', Option.toList_some] at htake
      rw [← htake]
      exact List.take_prefix _ _

/-- **Both ends keep their ledgers and hear each other** in every run with fresh substream ids. -/
theorem inv_run {peerIds : Side → P} {addresses : Side → R} {id : ConnectionId} {ops : List Op}
    {p : Pair P R} {as : List Answer} (hfresh : (generated ops).Nodup)
    (h : run step (new peerIds addresses id) ops = .ok (p, as)) : Inv ops as p := by
  refine run_induction (I := fun ops as p => (generated ops).Nodup → Inv ops as p)
    (fun _ => inv_new _ _ _) ?_ h hfresh
  intro xs es m o t a hr ih hs hf
  have hlen := length_answers hr
  have hi := ih (by
    rw [generated_append] at hf
    exact hf.of_append_left)
  cases o with
  | deliver x =>
    simp only [step] at hs
    split at hs
    · cases hs
      exact hi.skip hlen fun _ => rfl
    · rename_i msg hnext
      exact hi.deliver hlen hnext hs
  | act x o =>
    by_cases hrec : ∃ msg, o = .receive msg
    · obtain ⟨msg, rfl⟩ := hrec
      cases hs
      exact hi.skip hlen fun _ => ite_self _
    · push Not at hrec
      refine hi.act hlen hrec hf ?_
      cases o with
      | receive msg => exact absurd rfl (hrec msg)
      | _ => exact hs

/-! ### Panics -/

/-- If the operation is a `poll` at one end, none of the messages that wait there is the close of a
registered substream that was dropped. -/
def NoCloseOfGone (p : Pair P R) (o : Op) : Prop :=
  ∀ x, o = .act x .poll → (p x).Alive → ∀ s ∈ (p x).gone, ⟨s, .close⟩ ∉ (p x).conn.inboundRx.queue

theorem stepAt_isOk_iff (p : Pair P R) (x : Side) (o : Endpoint.Op) :
    (∃ r, p.stepAt x o = .ok r) ↔ ∃ r, (p x).step o = .ok r := by
  unfold stepAt
  cases (p x).step o with
  | error panic => exact ⟨fun ⟨r, hr⟩ => (by cases hr), fun ⟨r, hr⟩ => (by cases hr)⟩
  | ok v => exact ⟨fun _ => ⟨v, rfl⟩, fun _ => ⟨_, rfl⟩⟩

theorem Inv.step_isOk_iff {ops : List Op} {as : List Answer} {p : Pair P R} (hi : Inv ops as p)
    (o : Op) : (∃ r, p.step o = .ok r) ↔ p.NoCloseOfGone o := by
  cases o with
  | deliver x =>
    refine ⟨fun _ y hy => (by cases hy), fun _ => ?_⟩
    simp only [step]
    split
    · exact ⟨_, rfl⟩
    · exact (stepAt_isOk_iff p x _).mpr (step_isOk_of_ne_poll (by simp))
  | act x o =>
    by_cases ho : o = .poll
    · subst ho
      show (∃ r, p.stepAt x .poll = .ok r) ↔ _
      rw [stepAt_isOk_iff, Endpoint.step_isOk_iff (hi.wf x)]
      have hpoll : (p x).Alive → ((p x).Covers (p x).conn.inboundRx.queue ↔
          ∀ s ∈ (p x).gone, ⟨s, .close⟩ ∉ (p x).conn.inboundRx.queue) := by
        intro ha
        rw [← isOk_poll_iff (hi.wf x)]
        exact isOk_pollLoop_sound_iff (hi.sound x ha) (Nat.lt_succ_self _)
      constructor
      · rintro hc y ⟨rfl⟩ ha
        exact (hpoll ha).mp (hc rfl ha)
      · intro hc _ ha
        exact (hpoll ha).mpr (hc x rfl ha)
    · refine ⟨fun _ y hy => ?_, fun _ => ?_⟩
      · cases hy
        exact absurd rfl ho
      · have hok : ∃ r, p.stepAt x o = .ok r :=
          (stepAt_isOk_iff p x o).mpr (step_isOk_of_ne_poll ho)
        cases o with
        | receive msg => exact ⟨_, rfl⟩
        | _ => exact hok

theorem nodup_generated {ops ops' : List Op} (hfresh : (generated ops').Nodup) (hp : ops <+: ops') :
    (generated ops).Nodup := by
  obtain ⟨rest, rfl⟩ := hp
  rw [generated_append] at hfresh
  exact hfresh.of_append_left

/-- **Exactly the honest runs that panic.**  For every two connections that deliver to each other in
order and every run with fresh substream ids, with substreams dropped at any time: the run does not
panic iff no `poll` of it finds the close of a registered substream that was dropped. -/
theorem run_isOk_iff_not_gone (peerIds : Side → P) (addresses : Side → R) (id : ConnectionId)
    (ops : List Op) (hfresh : (generated ops).Nodup) :
    (∃ r, run step (new peerIds addresses id) ops = .ok r) ↔
      Along NoCloseOfGone step (new peerIds addresses id) ops := by
  refine run_isOk_iff_along fun xs o hp m as hr => ?_
  refine Inv.step_isOk_iff (inv_run (nodup_generated hfresh ?_) hr) o
  exact (List.prefix_append xs [o]).trans hp

/-- Two new connections. -/
def sample : Pair RawPeerId RawRecipient :=
  new (fun | .left => .fill 7 | .right => .fill 8) (fun | .left => .fill 9 | .right => .fill 10)
    ⟨.fill 1⟩

/-- A substream is opened on the left and yielded on the right. -/
def sampleOpen : List Op :=
  [.act .left (.pollOutbound ⟨.fill 2⟩), .deliver .right, .act .right .poll,
    .act .right .pollInbound]

/-- The right end drops its substream after the left end's close has arrived. -/
def sampleDropAfterClose : List Op :=
  sampleOpen ++ [.act .left (.close 0), .deliver .right, .act .right .poll,
    .act .right (.dropSubstream 0)]

theorem noCloseOfGone_sampleDropAfterClose :
    Along NoCloseOfGone step sample sampleDropAfterClose :=
  (run_isOk_iff_not_gone _ _ _ sampleDropAfterClose (by decide)).mp ⟨_, rfl⟩

/-- The right end drops its substream before the left end's close arrives. -/
def sampleDropBeforeClose : List Op :=
  sampleOpen ++ [.act .right (.dropSubstream 0), .act .left (.close 0), .deliver .right,
    .act .right .poll]

theorem run_sampleDropBeforeClose :
    (generated sampleDropBeforeClose).Nodup ∧
      run step sample sampleDropBeforeClose = .error .unwrapErr :=
  ⟨by decide, rfl⟩

/-! ### Agreement -/

/-- Every message that a `poll` at one end takes finds what it is for. -/
def PollFinds (p : Pair P R) (o : Op) : Prop :=
  ∀ x, o = .act x .poll → (p x).Alive →
    EachTaken Finds ((p x).conn.inboundRx.queue.length + 1) (p x)

/-- No registered substream is lost while the application drops none. -/
theorem gone_run {peerIds : Side → P} {addresses : Side → R} {id : ConnectionId} {ops : List Op}
    {p : Pair P R} {as : List Answer} (hfresh : (generated ops).Nodup)
    (hkept : ∀ x h, Op.act x (.dropSubstream h) ∉ ops)
    (h : run step (new peerIds addresses id) ops = .ok (p, as)) : ∀ x, (p x).gone = ∅ := by
  refine run_induction (I := fun ops _ p => (generated ops).Nodup →
    (∀ x h, Op.act x (.dropSubstream h) ∉ ops) → ∀ x, (p x).gone = ∅) ?_ ?_ h hfresh hkept
  · intro _ _ x
    refine Set.eq_empty_of_subset_empty ?_
    rintro s ⟨h, sub, hreg, -⟩
    cases hreg
  · intro xs es m o t a hr ih hs hf hk
    have hf' := nodup_generated hf (List.prefix_append xs [o])
    have hi := inv_run hf' hr
    have hbefore := ih hf' fun x h hm => hk x h (List.mem_append_left _ hm)
    -- one end moves, without dropping a substream
    have hstep : ∀ x o', (∀ h, o' ≠ .dropSubstream h) → m.stepAt x o' = .ok (t, a) →
        ∀ y, (t y).gone = ∅ := by
      intro x o' hne hst y
      unfold stepAt at hst
      split at hst
      · cases hst
      · rename_i e a' hst'
        cases hst
        by_cases hy : y = x
        · subst hy
          rw [Function.update_self]
          have hsub := gone_steps (hi.wf y) (hi.ledger y) (hi.mixnet y)
            ((hi.joined y).hears (hi.ledger y.peer)) (steps_of_step (hi.wf y) hst') hne
          rw [hbefore y] at hsub
          exact Set.eq_empty_of_subset_empty hsub
        · rw [Function.update_of_ne hy]
          exact hbefore y
    cases o with
    | deliver x =>
      simp only [step] at hs
      split at hs
      · cases hs
        exact hbefore
      · exact hstep x _ (by simp) hs
    | act x o =>
      have hne : ∀ h, o ≠ .dropSubstream h := by
        intro h ho
        refine hk x h (List.mem_append_right _ ?_)
        rw [ho]
        exact List.mem_singleton_self _
      cases o with
      | receive msg =>
        cases hs
        exact hbefore
      | _ => exact hstep x _ hne hs

/-- **Substream lifecycle agreement.**  For every two connections that deliver to each other in
order and every run with fresh substream ids in which the application drops no substream: the run
does not panic; the ids of the substreams yielded at one end are, in order, a prefix of those opened
at the other; no `poll` answers that a substream id exists or does not exist; and every data message
finds the channel of its substream and every response its pending substream. -/
theorem lifecycle_agreement (peerIds : Side → P) (addresses : Side → R) (id : ConnectionId)
    (ops : List Op) (hfresh : (generated ops).Nodup)
    (hkept : ∀ x h, Op.act x (.dropSubstream h) ∉ ops) :
    ∃ p as, run step (new peerIds addresses id) ops = .ok (p, as) ∧
      (∀ x, ∃ ids, (yieldedBy x ops as).map (p x).idOf = ids.map some ∧
        ids <+: openedBy x.peer ops as) ∧
      (∀ s, Answer.poll (.ready (.error (.substreamIdExists s))) ∉ as ∧
        Answer.poll (.ready (.error (.substreamIdDoesNotExist s))) ∉ as) ∧
      Along PollFinds step (new peerIds addresses id) ops := by
  have hok : ∃ r, run step (new peerIds addresses id) ops = .ok r := by
    rw [run_isOk_iff_along fun xs o hp m as hr => Inv.step_isOk_iff (inv_run (nodup_generated hfresh
      ((List.prefix_append xs [o]).trans hp)) hr) o]
    refine along_of_forall fun xs o hp m as hr x _ _ s hs => ?_
    have hp' := (List.prefix_append xs [o]).trans hp
    rw [gone_run (nodup_generated hfresh hp')
      (fun x h hm => hkept x h (hp'.subset hm)) hr x] at hs
    cases hs
  obtain ⟨⟨p, as⟩, hr⟩ := hok
  have hi := inv_run hfresh hr
  refine ⟨p, as, hr, fun x => ?_, fun s => ⟨fun hm => ?_, fun hm => ?_⟩, ?_⟩
  · obtain ⟨ids, hids, hpre⟩ := (hi.ledger x).yields
    rw [hi.yielded x] at hids
    refine ⟨ids, hids, hpre.trans ?_⟩
    rw [← hi.opened x.peer]
    exact ((hi.joined x).hears (hi.ledger x.peer)).taken.filterMap _
  · cases hi.answers _ hm
  · cases hi.answers _ hm
  · refine along_of_forall fun xs o hp m as' hr' x _ ha => ?_
    have hi' := inv_run (nodup_generated hfresh ((List.prefix_append xs [o]).trans hp)) hr'
    exact eachTaken_finds _ (hi'.sound x ha)

/-- A substream is opened, written to and closed at both ends. -/
def sampleExchange : List Op :=
  sampleOpen ++ [.act .left (.write 0 [1]), .act .left (.close 0), .act .right (.close 0),
    .deliver .right, .deliver .right, .deliver .left, .deliver .left, .act .right .poll,
    .act .left .poll]

/-- The right end has yielded the substream that the left end has opened. -/
theorem lifecycle_agreement_sampleExchange :
    ∃ p as, run step sample sampleExchange = .ok (p, as) ∧
      yieldedBy .right sampleExchange as = [0] ∧ (p .right).idOf 0 = some ⟨.fill 2⟩ ∧
      [⟨.fill 2⟩] <+: openedBy .left sampleExchange as ∧
      (∀ s, Answer.poll (.ready (.error (.substreamIdExists s))) ∉ as ∧
        Answer.poll (.ready (.error (.substreamIdDoesNotExist s))) ∉ as) ∧
      Along PollFinds step sample sampleExchange := by
  have hstate : ∃ p as, run step sample sampleExchange = .ok (p, as) ∧
      yieldedBy .right sampleExchange as = [0] ∧ (p .right).idOf 0 = some ⟨.fill 2⟩ :=
    ⟨_, _, rfl, rfl, rfl⟩
  obtain ⟨p, as, hrun, hyielded, hid⟩ := hstate
  obtain ⟨p', as', hrun', hids, hrest⟩ :=
    lifecycle_agreement _ _ _ sampleExchange (by decide) (by simp [sampleExchange, sampleOpen])
  obtain ⟨rfl, rfl⟩ : p = p' ∧ as = as' := Prod.mk.inj (Except.ok.inj (hrun.symm.trans hrun'))
  obtain ⟨ids, heq, hpre⟩ := hids .right
  rw [hyielded, List.map_singleton, hid] at heq
  obtain rfl : ids = [⟨.fill 2⟩] :=
    List.map_injective_iff.mpr (Option.some_injective _) heq.symm
  exact ⟨p, as, hrun, hyielded, hid, hpre, hrest⟩

end Libp2pNym.Pair
