import Libp2pNym.Message.Equiv.Codec
import Libp2pNym.Transport.Equiv.Moves

/-!
# When a transport can be crashed from the mixnet

A transport message with nonce 0 for an id without a connection makes the queue of that id expect
the nonce 1, and a connection message for the id then finds a queue that seems to have seen one
already.  `run_resilient_iff`: a transport withstands every further message exactly when no such
message has come.
-/

namespace Libp2pNym.Node

open StepRun

variable {P R : Type}

/-- Every queue of an id without a connection still expects the connection message. -/
def Calm (n : Node P R) : Prop :=
  ∀ id, n.transport.connections id = none → (n.queueOf id).nextExpectedNonce = 0

/-- A transport message with nonce 0 for an id without a connection. -/
def Premature (n : Node P R) (o : Op P R) : Prop :=
  ∃ msg : TransportMessage, o = .inbound (.transportMessage msg) ∧ msg.nonce = 0 ∧
    n.transport.connections msg.id = none

/-! ### The queues of ids without a connection -/

/-- An id that is without a connection after a step was so before, and only a transport message for
it moves its queue. -/
theorem unestablished_steps {n n' : Node P R} (hp : n.Placed) {o : Op P R} {a : Answer P}
    (hs : Steps n o n' a) {id : ConnectionId} (hc : n'.transport.connections id = none) :
    n.transport.connections id = none ∧
      (n'.queueOf id = n.queueOf id ∨ ∃ m : TransportMessage,
        o = .inbound (.transportMessage m) ∧ m.id = id ∧
          n'.queueOf id = ((n.queueOf id).tryPush m).2) := by
  have hend := (placed_steps hp hs).endAt_eq_none_iff.mpr hc
  rw [← hp.endAt_eq_none_iff]
  cases moves_steps hp hs id with
  | same o ho hc' he hq => exact ⟨he ▸ hend, Or.inl hq⟩
  | dropped o ho hc' e he he' hq =>
    rw [he'] at hend
    cases hend
  | established o peerId recipient ho he h0 hc' e' hd he' hq =>
    rw [he'] at hend
    cases hend
  | pushed m hid hout hc' he hq => exact ⟨he ▸ hend, Or.inr ⟨m, rfl, hid, hq⟩⟩
  | forwarded m hid e he ha hout hc' he' hq =>
    rw [he'] at hend
    cases hend

/-- A connection is made only for an id whose queue expects the connection message. -/
theorem still_unestablished {n n' : Node P R} (hp : n.Placed) {o : Op P R} {a : Answer P}
    (hs : Steps n o n' a) {id : ConnectionId} (hc : n.transport.connections id = none)
    (hne : (n.queueOf id).nextExpectedNonce ≠ 0) : n'.transport.connections id = none := by
  have hend := hp.endAt_eq_none_iff.mpr hc
  rw [← (placed_steps hp hs).endAt_eq_none_iff]
  cases moves_steps hp hs id with
  | same o ho hc' he hq => rw [he, hend]
  | dropped o ho hc' e he he' hq =>
    rw [hend] at he
    cases he
  | established o peerId recipient ho he h0 hc' e' hd he' hq => exact absurd h0 hne
  | pushed m hid hout hc' he hq => rw [he, hend]
  | forwarded m hid e he ha hout hc' he' hq =>
    rw [hend] at he
    cases he

/-! ### Runs -/

theorem calm_steps {n n' : Node P R} (hpl : n.Placed) {o : Op P R} {a : Answer P} (hn : n.Calm)
    (hp : ¬ n.Premature o) (hs : Steps n o n' a) : n'.Calm := by
  intro id hc
  obtain ⟨hc', hq⟩ := unestablished_steps hpl hs hc
  have h0 := hn id hc'
  rcases hq with heq | ⟨m, rfl, rfl, heq⟩
  · rw [heq, h0]
  · have hne : m.nonce ≠ 0 := fun hz => hp ⟨m, rfl, hz, hc'⟩
    have hge : ¬ m.nonce < 0 := by simp
    rw [heq]
    unfold MessageQueue.tryPush
    rw [h0, if_neg hne, if_neg hge]

/-- `tryPush` moves the next expected nonce by at most one. -/
theorem nextExpectedNonce_tryPush (q : MessageQueue) (m : TransportMessage) :
    (q.tryPush m).2.nextExpectedNonce = q.nextExpectedNonce ∨
      (q.tryPush m).2.nextExpectedNonce = q.nextExpectedNonce + 1 := by
  unfold MessageQueue.tryPush
  split
  · exact Or.inr rfl
  · split <;> exact Or.inl rfl

/-- Some id without a connection has a queue that has moved on, by at most `k`. -/
def Spoiled (k : ℕ) (n : Node P R) : Prop :=
  ∃ id, n.transport.connections id = none ∧ 1 ≤ (n.queueOf id).nextExpectedNonce.toNat ∧
    (n.queueOf id).nextExpectedNonce.toNat ≤ k

theorem spoiled_steps {n n' : Node P R} (hpl : n.Placed) {o : Op P R} {a : Answer P} {k : ℕ}
    (hn : n.Spoiled k) (hk : k + 1 < 2 ^ 64) (hs : Steps n o n' a) : n'.Spoiled (k + 1) := by
  obtain ⟨id, hc, h1, hle⟩ := hn
  have hc' : n'.transport.connections id = none := by
    refine still_unestablished hpl hs hc fun h0 => ?_
    rw [h0] at h1
    cases h1
  refine ⟨id, hc', ?_⟩
  rcases (unestablished_steps hpl hs hc').2 with heq | ⟨m, -, -, heq⟩
  · rw [heq]
    omega
  · rw [heq]
    rcases nextExpectedNonce_tryPush (n.queueOf id) m with hq | hq
    · rw [hq]
      omega
    · rw [hq, MessageQueue.toNat_add_one (by omega)]
      omega

theorem spoiled_of_premature {n n' : Node P R} (hpl : n.Placed) {o : Op P R} {a : Answer P} {k : ℕ}
    (hn : n.Calm) (hp : n.Premature o) (hs : Steps n o n' a) : n'.Spoiled (k + 1) := by
  obtain ⟨m, rfl, hz, hc⟩ := hp
  have hend := hpl.endAt_eq_none_iff.mpr hc
  have hnext : ((n.queueOf m.id).tryPush m).2.nextExpectedNonce = 1 := by
    unfold MessageQueue.tryPush
    rw [hn m.id hc, if_pos hz]
    rfl
  cases moves_steps hpl hs m.id with
  | same _ ho hc' he hq => exact absurd rfl (ho m rfl)
  | dropped _ ho hc' e he he' hq => exact absurd rfl (ho _)
  | established _ peerId recipient ho he h0 hc' e' hd he' hq => cases ho
  | pushed _ hid hout hc' he hq =>
    refine ⟨m.id, (placed_steps hpl hs).endAt_eq_none_iff.mp (he.trans hend), ?_⟩
    rw [hq, hnext]
    exact ⟨le_refl 1, Nat.le_add_left 1 k⟩
  | forwarded _ hid e he ha hout hc' he' hq =>
    rw [hend] at he
    cases he

/-- Handling any further message returns. -/
def Resilient (n : Node P R) : Prop := ∀ msg, ∃ r, n.handleInbound msg = .ok r

theorem not_clashes_of_calm {n : Node P R} (hn : n.Calm) (msg : Message P R) :
    ¬ n.Clashes msg := by
  cases msg with
  | connectionRequest msg => exact fun hcl => hcl.2.2 (hn msg.id hcl.2.1)
  | connectionResponse msg => exact fun hcl => hcl.2.2 (hn msg.id hcl.2.1)
  | transportMessage msg => exact id

theorem resilient_of_calm {n : Node P R} (hn : n.Calm) : n.Resilient := by
  intro msg
  rcases handleInbound_cases n msg with ⟨-, n', r, hm, -⟩ | ⟨hcl, -⟩
  · exact ⟨(n', r), hm⟩
  · exact absurd hcl (not_clashes_of_calm hn msg)

/-- A connection request for the id of the spoiled queue panics. -/
theorem not_resilient_of_spoiled {n : Node P R} {k : ℕ} (hn : n.Spoiled k) : ¬ n.Resilient := by
  obtain ⟨id, hc, h1, -⟩ := hn
  have hcl : n.Clashes (.connectionRequest
      { peerId := n.transport.peerId, recipient := some n.transport.selfAddress, id := id }) := by
    refine ⟨nofun, hc, fun h0 => ?_⟩
    rw [h0] at h1
    cases h1
  intro hres
  obtain ⟨r, hr⟩ := hres _
  rcases handleInbound_cases n _ with ⟨hncl, -⟩ | ⟨-, hm⟩
  · exact hncl hcl
  · rw [hm] at hr
    cases hr

theorem calm_new (selfAddress : R) (peerId : P) (outboundTx : Chan (OutboundMessage P R)) :
    (Node.new selfAddress peerId outboundTx).Calm := fun _ _ => rfl

section

variable {selfAddress : R} {peerId : P} {outboundTx : Chan (OutboundMessage P R)} {n : Node P R}
  {as : List (Answer P)} {ops : List (Op P R)}

/-- A run without a premature message stays calm, and any other one spoils a queue for good. -/
theorem calm_or_spoiled_run (hlen : ops.length < 2 ^ 64 - 1)
    (h : run step (Node.new selfAddress peerId outboundTx) ops = .ok (n, as)) :
    (Along (fun n o => ¬ n.Premature o) step (Node.new selfAddress peerId outboundTx) ops →
      n.Calm) ∧
    (¬ Along (fun n o => ¬ n.Premature o) step (Node.new selfAddress peerId outboundTx) ops →
      n.Spoiled ops.length) := by
  refine run_induction (I := fun xs _ m => xs.length < 2 ^ 64 - 1 →
    (Along (fun n o => ¬ n.Premature o) step (Node.new selfAddress peerId outboundTx) xs →
      m.Calm) ∧
    (¬ Along (fun n o => ¬ n.Premature o) step (Node.new selfAddress peerId outboundTx) xs →
      m.Spoiled xs.length)) ?_ ?_ h hlen
  · intro _
    exact ⟨fun _ => calm_new selfAddress peerId outboundTx, fun hn => absurd trivial hn⟩
  · intro xs es m o t e hr ih hs hlen
    rw [List.length_append, List.length_singleton] at hlen ⊢
    obtain ⟨hcalm, hspoiled⟩ := ih (by omega)
    have hpl := placed_run hr
    have hsteps := steps_of_step hs
    rw [along_append_singleton]
    constructor
    · rintro ⟨hal, hlast⟩
      exact calm_steps hpl (hcalm hal) (hlast m es hr) hsteps
    · intro hn
      by_cases hal : Along (fun n o => ¬ n.Premature o) step
        (Node.new selfAddress peerId outboundTx) xs
      · have hprem : m.Premature o := by
          by_contra hp
          refine hn ⟨hal, fun m' es' hr' => ?_⟩
          rw [hr] at hr'
          cases hr'
          exact hp
        exact spoiled_of_premature hpl (hcalm hal) hprem hsteps
      · exact spoiled_steps hpl (hspoiled hal) (by omega) hsteps

/-- **What crashes a transport.**  For every sequence of fewer than `2 ^ 64 - 1` operations on a new
transport: none of them panics, the transport then withstands every further message, and every queue
of an id without a connection expects the connection message, exactly when no transport message with
nonce 0 came for an id that was without a connection. -/
theorem run_resilient_iff (hlen : ops.length < 2 ^ 64 - 1) :
    (∃ n as, run step (Node.new selfAddress peerId outboundTx) ops = .ok (n, as) ∧
      n.Resilient ∧ n.Calm) ↔
    Along (fun n o => ¬ n.Premature o) step (Node.new selfAddress peerId outboundTx) ops := by
  constructor
  · rintro ⟨n, as, h, hres, -⟩
    by_contra hn
    exact not_resilient_of_spoiled ((calm_or_spoiled_run hlen h).2 hn) hres
  · intro hal
    -- a calm transport has no message to clash with, so the run goes on
    have hok : ∃ r, run step (Node.new selfAddress peerId outboundTx) ops = .ok r := by
      refine (run_isOk_iff_along (P := fun n o => ∀ msg, o = .inbound msg → ¬ n.Clashes msg)
        fun xs o _ m es _ => step_isOk_iff m o).mpr (along_of_forall fun xs o hp m es hr => ?_)
      obtain ⟨ys, rfl⟩ := hp
      rw [List.append_assoc] at hal hlen
      have hlen' : xs.length < 2 ^ 64 - 1 := by
        rw [List.length_append] at hlen
        omega
      exact fun msg _ =>
        not_clashes_of_calm ((calm_or_spoiled_run hlen' hr).1 hal.of_append) msg
    obtain ⟨⟨n, as⟩, h⟩ := hok
    have hcalm := (calm_or_spoiled_run hlen h).1 hal
    exact ⟨n, as, h, resilient_of_calm hcalm, hcalm⟩

end

/-- A new transport. -/
def sample : Node RawPeerId RawRecipient := new (.fill 9) (.fill 7) Chan.new

/-- A transport message for a connection that is not there. -/
def sampleMessage (nonce : UInt64) : TransportMessage where
  nonce := nonce
  id := ⟨.fill 1⟩
  message := ⟨⟨.fill 2⟩, .openRequest⟩

/-- The request for that connection. -/
def sampleRequest : ConnectionMessage RawPeerId RawRecipient where
  peerId := .fill 8
  id := ⟨.fill 1⟩
  recipient := some (.fill 10)

/-- The first transport message overtakes the connection request. -/
def sampleOvertaken : List (Op RawPeerId RawRecipient) :=
  [.inbound (.transportMessage (sampleMessage 1)), .inbound (.connectionRequest sampleRequest),
    .inbound (.transportMessage (sampleMessage 0))]

theorem resilient_sampleOvertaken : ∃ n as, run step sample sampleOvertaken = .ok (n, as) ∧
    n.Resilient ∧ n.Calm := by
  refine (run_resilient_iff (by decide)).mpr ⟨?_, fun n₁ _ h₁ => ⟨?_, fun n₂ _ h₂ => ⟨?_, ?_⟩⟩⟩
  · rintro ⟨msg, heq, hz, -⟩
    cases heq
    cases hz
  · rintro ⟨msg, heq, -⟩
    cases heq
  · -- by now there is a connection
    rintro ⟨msg, heq, -, hc⟩
    cases h₁
    cases h₂
    cases heq
    cases hc
  · exact fun _ _ _ => trivial

/-- A message with nonce 0 and then the connection request. -/
theorem handleInbound_samplePremature :
    ∃ n as, run step sample [.inbound (.transportMessage (sampleMessage 0))] = .ok (n, as) ∧
      n.handleInbound (.connectionRequest sampleRequest)
        = .error .connectionMessageReceivedTwice :=
  ⟨_, _, rfl, rfl⟩

end Libp2pNym.Node
