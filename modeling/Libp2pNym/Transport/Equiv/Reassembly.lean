import Libp2pNym.Transport.Equiv.Panic

/-!
# The transport puts the messages of a connection back in order

`Ordered n c hist` says that after the transport messages `hist` have come for the connection id
`c`, the first arrivals with the nonces from 1 on were forwarded in order, as far as there is no
gap, and the others wait in the queue; every operation keeps it (`ordered_moves`).  `reassembly`
spells it out for every run of a transport to which no message with nonce 0 comes.
-/

namespace Libp2pNym

open StepRun Reassembly TransportMessage MessageQueue

variable {P R : Type}

/-! ### Draining the queue -/

/-- What `while let Some(msg) = queue.pop()` does to a queue and to the channel of a connection that
is there. -/
theorem forwardQueued_upto {fuel : ℕ} {q : MessageQueue} {rx : Chan SubstreamMessage}
    {hist log : List TransportMessage} {k : ℕ} (h : q.Upto hist k log) (hroom : Room hist)
    (ha : rx.rxAlive = true) (hlog : rx.log = log.map message) (hf : q.size < fuel) :
    ∃ k' log', (forwardQueued fuel q rx).1.Upto hist k' log' ∧
      (forwardQueued fuel q rx).1.Settled ∧
      (forwardQueued fuel q rx).2.1.log = log'.map message := by
  induction fuel generalizing q rx k log with
  | zero => omega
  | succ fuel ih =>
    unfold forwardQueued
    rcases pop_upto h hroom with ⟨m, hpop, hupto, hsize⟩ | ⟨hpop, hset⟩
    · have heq : q.pop = (some m, q.pop.2) := by rw [← hpop]
      rw [heq]
      dsimp only
      rw [Chan.send_of_alive ha]
      refine ih hupto ha ?_ (by omega)
      rw [List.map_append, ← hlog]
      exact (List.append_assoc ..).symm
    · rw [hpop]
      exact ⟨k, log, h, hset, hlog⟩

namespace Node

/-! ### One connection id -/

/-- The first arrivals among `hist` with the nonces `1, ..., k` were forwarded to the connection
`c`, as far as there is no gap, or nothing if it was not established, and the others wait in its
queue.  What was forwarded to a connection that was dropped since has no gap either. -/
structure Ordered (n : Node P R) (c : ConnectionId) (hist : List TransportMessage) : Prop where
  waiting : n.endAt c = none → (n.queueOf c).nextExpectedNonce = 0 ∧
    Holds key hist 0 [] (· ∈ (n.queueOf c).queue)
  passing : ∀ e, n.endAt c = some e → e.Alive → ∃ k log, (n.queueOf c).Upto hist k log ∧
    (n.queueOf c).Settled ∧ e.conn.inboundRx.log = log.map message
  sofar : ∀ e, n.endAt c = some e → ∃ (k : ℕ) (log : List TransportMessage),
    log.map some = (List.range' 1 k).map (first key hist) ∧
      e.conn.inboundRx.log = log.map message

/-- The transport message for `c` that comes with the operation. -/
def arrivedIn (c : ConnectionId) : Op P R → List TransportMessage
  | .inbound (.transportMessage m) => if m.id = c then [m] else []
  | _ => []

/-- The transport messages that have come for `c`, in order. -/
def arrivals (c : ConnectionId) (ops : List (Op P R)) : List TransportMessage :=
  ops.flatMap (arrivedIn c)

theorem arrivals_snoc (c : ConnectionId) (ops : List (Op P R)) (o : Op P R) :
    arrivals c (ops ++ [o]) = arrivals c ops ++ arrivedIn c o := by
  simp [arrivals]

theorem mem_of_mem_arrivals {c : ConnectionId} {ops : List (Op P R)} {m : TransportMessage}
    (h : m ∈ arrivals c ops) : .inbound (.transportMessage m) ∈ ops := by
  obtain ⟨o, ho, hm⟩ := List.mem_flatMap.mp h
  unfold arrivedIn at hm
  split at hm
  · split at hm
    · rw [List.mem_singleton] at hm
      rw [hm]
      exact ho
    · cases hm
  · cases hm

theorem ordered_new (selfAddress : R) (peerId : P) (outboundTx : Chan (OutboundMessage P R))
    (c : ConnectionId) : (Node.new selfAddress peerId outboundTx).Ordered c [] where
  waiting _ := ⟨rfl, (holds_nil key).congr fun m => by simp [queueOf, Node.new, MessageQueue.new]⟩
  passing e he := by cases he
  sofar e he := by cases he

/-- For a connection that is established, the endpoint and the queue are all that matters. -/
theorem ordered_of_endAt {n : Node P R} {c : ConnectionId} {hist : List TransportMessage}
    {e : Endpoint P R} (he : n.endAt c = some e)
    (hpassing : e.Alive → ∃ k log, (n.queueOf c).Upto hist k log ∧ (n.queueOf c).Settled ∧
      e.conn.inboundRx.log = log.map message)
    (hsofar : ∃ (k : ℕ) (log : List TransportMessage),
      log.map some = (List.range' 1 k).map (first key hist) ∧
        e.conn.inboundRx.log = log.map message) : n.Ordered c hist where
  waiting hnone := by
    rw [he] at hnone
    cases hnone
  passing e' he' := by
    rw [he] at he'
    cases he'
    exact hpassing
  sofar e' he' := by
    rw [he] at he'
    cases he'
    exact hsofar

/-- What is in order behind the queue is in order at the endpoint. -/
theorem ordered_of_passing {n : Node P R} {c : ConnectionId} {hist : List TransportMessage}
    {e : Endpoint P R} (he : n.endAt c = some e)
    (h : ∃ k log, (n.queueOf c).Upto hist k log ∧ (n.queueOf c).Settled ∧
      e.conn.inboundRx.log = log.map message) : n.Ordered c hist := by
  refine ordered_of_endAt he (fun _ => h) ?_
  obtain ⟨k, log, hupto, -, hlog⟩ := h
  exact ⟨k, log, hupto.holds.log, hlog⟩

/-- **One operation keeps the messages of a connection in order.** -/
theorem ordered_moves {n n' : Node P R} {c : ConnectionId} {hist : List TransportMessage}
    {o : Op P R} (hn : n.Ordered c hist)
    (h1 : ∀ m, o = .inbound (.transportMessage m) → m.id = c → 1 ≤ key m)
    (hroom : Room (hist ++ arrivedIn c o)) (hm : Moves n c n' o) :
    n'.Ordered c (hist ++ arrivedIn c o) := by
  cases hm with
  | same _ ho hc' he hq =>
    have hnone : arrivedIn c o = [] := by
      unfold arrivedIn
      split
      · exact if_neg (ho _ rfl)
      · rfl
    rw [hnone, List.append_nil]
    refine ⟨?_, ?_, ?_⟩
    · rw [he, hq]
      exact hn.waiting
    · rw [he, hq]
      exact hn.passing
    · rw [he]
      exact hn.sofar
  | dropped _ ho hc' e he he' hq =>
    obtain ⟨k, log, hfirst, hlog⟩ := hn.sofar e he
    have hdead : ¬ e.dropConnection.Alive := Bool.noConfusion
    exact ordered_of_endAt he' (fun ha => absurd ha hdead) ⟨k, log, map_first_append hfirst _, hlog⟩
  | established _ peerId recipient ho he h0 hc' e' hd he' hq =>
    have hnone : arrivedIn c o = [] := by cases ho <;> rfl
    rw [hnone, List.append_nil] at hroom ⊢
    have hupto : (n.opened c).Upto hist 0 [] := upto_zero h0 (hn.waiting he).2
    obtain ⟨k, log, hupto', hset', hlog'⟩ :=
      forwardQueued_upto hupto hroom (rfl : (Chan.new : Chan SubstreamMessage).rxAlive = true) rfl
        (Nat.lt_succ_self _)
    refine ordered_of_passing he' ⟨k, log, hq ▸ hupto', hq ▸ hset', ?_⟩
    rcases hd with rfl | rfl <;> exact hlog'
  | pushed m hid hout hc' he hq =>
    have hone : arrivedIn c (.inbound (.transportMessage m) : Op P R) = [m] := if_pos hid
    rw [hone] at hroom ⊢
    refine ⟨fun hnone => ?_, fun e he₁ ha => ?_, fun e he₁ => ?_⟩
    · obtain ⟨h0, hh⟩ := hn.waiting (he ▸ hnone)
      rw [hq]
      exact (tryPush_unestablished h0 hh (h1 m rfl hid)).2
    · rw [he] at he₁
      obtain ⟨k, log, hupto, hset, hlog⟩ := hn.passing e he₁ ha
      rw [hq]
      rcases tryPush_upto hupto hset (h1 m rfl hid) hroom with ⟨hsome, -⟩ | ⟨-, hupto', hset'⟩
      · -- what was handed out would have been forwarded
        rcases hout with hout | hout
        · rw [hsome] at hout
          cases hout
        · exact absurd ha (hout e he₁)
      · exact ⟨k, log, hupto', hset', hlog⟩
    · rw [he] at he₁
      obtain ⟨k, log, hfirst, hlog⟩ := hn.sofar e he₁
      exact ⟨k, log, map_first_append hfirst _, hlog⟩
  | forwarded m hid e he ha hout hc' he' hq =>
    have hone : arrivedIn c (.inbound (.transportMessage m) : Op P R) = [m] := if_pos hid
    rw [hone] at hroom ⊢
    have hpassing : ∃ k log, (n.passed c e m).1.Upto (hist ++ [m]) k log ∧
        (n.passed c e m).1.Settled ∧ (n.passed c e m).2.1.log = log.map message := by
      obtain ⟨k, log, hupto, hset, hlog⟩ := hn.passing e he ha
      rcases tryPush_upto hupto hset (h1 m rfl hid) hroom with ⟨-, hupto'⟩ | ⟨hnone, -⟩
      · refine forwardQueued_upto hupto' hroom ha ?_ (Nat.lt_succ_self _)
        rw [List.map_append, ← hlog]
        exact (List.append_assoc ..).symm
      · rw [hout] at hnone
        cases hnone
    exact ordered_of_passing he' (hq ▸ hpassing)

/-- An operation at a connection takes from its channel and adds nothing. -/
theorem Ordered.insert {n : Node P R} {c : ConnectionId} {hist : List TransportMessage}
    (hn : n.Ordered c hist) (hp : n.Placed) {h : ℕ} {e e' : Endpoint P R} (he : n.conns h = some e)
    (hlog : e'.conn.inboundRx.log = e.conn.inboundRx.log) (hal : e'.Alive → e.Alive) :
    { n with conns := n.conns.insert h e' }.Ordered c hist := by
  have hend := hp.endAt_insert he e' c
  by_cases hc : c = e.conn.id
  · have hat : n.endAt c = some e := endAt_eq_some_iff.mpr ⟨h, hc ▸ hp.back he, he⟩
    rw [if_pos hc] at hend
    refine ordered_of_endAt hend (fun ha => ?_) ?_
    · rw [hlog]
      exact hn.passing e hat (hal ha)
    · rw [hlog]
      exact hn.sofar e hat
  · rw [if_neg hc] at hend
    refine ⟨fun hnone => hn.waiting (hend ▸ hnone), fun e₁ he₁ => ?_, fun e₁ he₁ => ?_⟩
    · exact hn.passing e₁ (hend ▸ he₁)
    · exact hn.sofar e₁ (hend ▸ he₁)

/-! ### Runs -/

/-- The messages from the mixnet that were handled, in order. -/
def inbounds (ops : List (Op P R)) : List (Message P R) :=
  ops.filterMap fun o =>
    match o with
    | .inbound msg => some msg
    | _ => none

theorem inbounds_append (ops ops' : List (Op P R)) :
    inbounds (ops ++ ops') = inbounds ops ++ inbounds ops' := List.filterMap_append

/-- No more messages come for one connection than come at all. -/
theorem length_arrivals_le (c : ConnectionId) (ops : List (Op P R)) :
    (arrivals c ops).length ≤ (inbounds ops).length := by
  induction ops using List.reverseRecOn with
  | nil => exact le_refl _
  | append_singleton ops o ih =>
    rw [arrivals_snoc, inbounds_append, List.length_append, List.length_append]
    refine Nat.add_le_add ih ?_
    unfold arrivedIn
    split
    · split
      · exact le_refl _
      · exact Nat.zero_le _
    · exact Nat.zero_le _

section

variable {selfAddress : R} {peerId : P} {outboundTx : Chan (OutboundMessage P R)} {n : Node P R}
  {as : List (Answer P)} {ops : List (Op P R)}

/-- Only what comes for the connection matters. -/
theorem ordered_run_of_arrivals {c : ConnectionId} (hnonce : ∀ m ∈ arrivals c ops, 1 ≤ key m)
    (hroom : Room (arrivals c ops))
    (h : run step (Node.new selfAddress peerId outboundTx) ops = .ok (n, as)) :
    n.Ordered c (arrivals c ops) := by
  refine run_induction (I := fun xs _ m => (∀ m ∈ arrivals c xs, 1 ≤ key m) →
    Room (arrivals c xs) → m.Ordered c (arrivals c xs))
    (fun _ _ => ordered_new _ _ _ c) ?_ h hnonce hroom
  intro xs es m o t e hr ih hs hnonce hroom
  rw [arrivals_snoc] at hnonce hroom ⊢
  refine ordered_moves (ih ?_ ?_) ?_ hroom (moves_steps (placed_run hr) (steps_of_step hs) c)
  · exact fun m hm => hnonce m (List.mem_append_left _ hm)
  · exact hroom.mono (List.subset_append_left _ _)
  · rintro m rfl hid
    refine hnonce m (List.mem_append_right _ ?_)
    rw [show arrivedIn c (.inbound (.transportMessage m) : Op P R) = [m] from if_pos hid]
    exact List.mem_singleton_self _

theorem ordered_run (hnonce : ∀ m, .inbound (.transportMessage m) ∈ ops → 1 ≤ m.nonce)
    (hlen : (inbounds ops).length < 2 ^ 64 - 1)
    (h : run step (Node.new selfAddress peerId outboundTx) ops = .ok (n, as)) (c : ConnectionId) :
    n.Ordered c (arrivals c ops) := by
  have hle := length_arrivals_le c ops
  refine ordered_run_of_arrivals (fun m hm => ?_) (room_of_length (by omega)) h
  exact UInt64.le_iff_toNat_le.mp (hnonce m (mem_of_mem_arrivals hm))

/-- The queue of a connection that was not established is untouched. -/
theorem calm_of_ordered (hp : n.Placed) {hist : ConnectionId → List TransportMessage}
    (h : ∀ c, n.Ordered c (hist c)) : n.Calm :=
  fun c hc => ((h c).waiting (hp.endAt_eq_none_iff.mpr hc)).1

/-- A run in which no message with nonce 0 comes does not panic. -/
theorem run_isOk_of_nonce (selfAddress : R) (peerId : P) (outboundTx : Chan (OutboundMessage P R))
    (hnonce : ∀ m, .inbound (.transportMessage m) ∈ ops → 1 ≤ m.nonce)
    (hlen : (inbounds ops).length < 2 ^ 64 - 1) :
    ∃ r, run step (Node.new selfAddress peerId outboundTx) ops = .ok r := by
  refine (run_isOk_iff_along (P := fun n o => ∀ msg, o = .inbound msg → ¬ n.Clashes msg)
    fun xs o _ m es _ => step_isOk_iff m o).mpr (along_of_forall fun xs o hp m es hr msg _ => ?_)
  obtain ⟨ys, rfl⟩ := hp
  have hordered := ordered_run (fun m hm => hnonce m (by simp [hm])) ?_ hr
  · exact not_clashes_of_calm (calm_of_ordered (placed_run hr) hordered) msg
  · rw [inbounds_append, inbounds_append, List.length_append, List.length_append] at hlen
    omega

/-- **Exact reassembly at the transport.**  For every sequence of operations on a new transport with
fewer than `2 ^ 64 - 1` messages from the mixnet, each transport message with a nonce from 1 on, in
any order, with repeated nonces and among any other operations: none of the operations panics, and
for every connection id `c`, with the messages `arrivals c ops` that have come for it,

* if `c` was established and its connection was not dropped, exactly the first arrivals with the
  nonces `1, ..., k` were forwarded to it, in order, where `k` is the greatest number such that the
  nonces `1, ..., k` have all arrived; its queue expects the nonce `k + 1` and holds exactly the
  first arrivals of the nonces greater than `k`, which are all greater than `k + 1`;
* if `c` was not established, there is no connection for it to forward anything to, and its queue
  expects the connection message and holds exactly the first arrival of every nonce. -/
theorem reassembly (hnonce : ∀ m, .inbound (.transportMessage m) ∈ ops → 1 ≤ m.nonce)
    (hlen : (inbounds ops).length < 2 ^ 64 - 1) :
    ∃ n as, run step (Node.new selfAddress peerId outboundTx) ops = .ok (n, as) ∧ ∀ c,
      (∀ h, n.transport.connections c = some h → ∃ e, n.conns h = some e ∧ e.conn.id = c ∧
        (e.Alive → ∃ q k, n.transport.messageQueues c = some q ∧
          IsGreatest {k | ∀ i, 1 ≤ i → i ≤ k → ∃ m ∈ arrivals c ops, key m = i} k ∧
          e.conn.inboundRx.log.map some
            = (List.range' 1 k).map (fun i => (first key (arrivals c ops) i).map message) ∧
          q.nextExpectedNonce.toNat = k + 1 ∧
          (∀ m, m ∈ q.queue ↔ first key (arrivals c ops) (key m) = some m ∧ k < key m) ∧
          ∀ m ∈ q.queue, q.nextExpectedNonce < m.nonce)) ∧
      (n.transport.connections c = none → (∀ h e, n.conns h = some e → e.conn.id ≠ c) ∧
        (n.queueOf c).nextExpectedNonce = 0 ∧
        ∀ m, m ∈ (n.queueOf c).queue ↔ first key (arrivals c ops) (key m) = some m) := by
  obtain ⟨⟨n, as⟩, hr⟩ := run_isOk_of_nonce selfAddress peerId outboundTx hnonce hlen
  have hp := placed_run hr
  refine ⟨n, as, hr, fun c => ?_⟩
  have hord := ordered_run hnonce hlen hr c
  constructor
  · intro h hc
    obtain ⟨e, he, hid⟩ := hp.conn hc
    refine ⟨e, he, hid, fun ha => ?_⟩
    obtain ⟨k, log, hupto, hset, hlog⟩ := hord.passing e (endAt_eq_some_iff.mpr ⟨h, hc, he⟩) ha
    -- the queue is there, as it expects a nonce greater than 0
    obtain ⟨q, hq, hqueue⟩ : ∃ q, n.transport.messageQueues c = some q ∧ n.queueOf c = q := by
      cases hq : n.transport.messageQueues c with
      | some q => exact ⟨q, rfl, by simp only [queueOf, hq, Option.getD_some]⟩
      | none =>
        have hnext := hupto.next
        simp only [queueOf, hq, Option.getD_none] at hnext
        cases hnext
    rw [hqueue] at hupto hset
    have hgap : ∀ m, m ∈ q.queue → key m ≠ k + 1 := by
      intro m hm
      rw [← hupto.next]
      exact hset m hm
    refine ⟨q, k, hq, hupto.holds.isGreatest hgap, ?_, hupto.next, hupto.holds.waits,
      fun m hm => ?_⟩
    · have hmap := congrArg (List.map (Option.map message)) hupto.holds.log
      rw [List.map_map, List.map_map] at hmap
      rw [hlog, List.map_map]
      exact hmap
    · have hlt := ((hupto.holds.waits m).mp hm).2
      have hne := hgap m hm
      rw [UInt64.lt_iff_toNat_lt, hupto.next]
      show k + 1 < key m
      omega
  · intro hc
    obtain ⟨h0, hh⟩ := hord.waiting (hp.endAt_eq_none_iff.mpr hc)
    refine ⟨fun h e he heq => ?_, h0, fun m => ?_⟩
    · have hback := hp.back he
      rw [heq, hc] at hback
      cases hback
    · rw [hh.waits]
      refine ⟨fun hm => hm.1, fun hm => ⟨hm, ?_⟩⟩
      exact UInt64.le_iff_toNat_le.mp (hnonce m (mem_of_mem_arrivals (mem_of_first hm)))

end

/-- A chunk for the connection of the sample. -/
def sampleChunk (nonce : UInt64) (data : Bytes) : TransportMessage :=
  { sampleMessage nonce with message := ⟨⟨.fill 2⟩, .data data⟩ }

/-- Messages that come too early, twice and out of order, and a dial. -/
def sampleShuffled : List (Op RawPeerId RawRecipient) :=
  [.inbound (.transportMessage (sampleChunk 3 [3])),
    .inbound (.transportMessage (sampleMessage 1)), .inbound (.connectionRequest sampleRequest),
    .dial (.fill 11) ⟨.fill 3⟩, .inbound (.transportMessage (sampleChunk 3 [4])),
    .inbound (.transportMessage (sampleChunk 5 [5])),
    .inbound (.transportMessage (sampleChunk 2 [2]))]

set_option maxRecDepth 2000 in
/-- The messages 1, 2 and 3 were forwarded, and the message 5 waits for the message 4. -/
theorem reassembly_sampleShuffled :
    ∃ n as e q, run step sample sampleShuffled = .ok (n, as) ∧
      n.transport.connections ⟨.fill 1⟩ = some 0 ∧ n.conns 0 = some e ∧ e.Alive ∧
      n.transport.messageQueues ⟨.fill 1⟩ = some q ∧
      IsGreatest {k | ∀ i, 1 ≤ i → i ≤ k → ∃ m ∈ arrivals ⟨.fill 1⟩ sampleShuffled, key m = i} 3 ∧
      e.conn.inboundRx.log
        = [⟨⟨.fill 2⟩, .openRequest⟩, ⟨⟨.fill 2⟩, .data [2]⟩, ⟨⟨.fill 2⟩, .data [3]⟩] ∧
      q.queue.elems = [sampleChunk 5 [5]] ∧ ∀ m ∈ q.queue, q.nextExpectedNonce < m.nonce := by
  have hnonce : ∀ m, .inbound (.transportMessage m) ∈ sampleShuffled → 1 ≤ m.nonce := by
    intro m hm
    simp only [sampleShuffled, List.mem_cons, Op.inbound.injEq, Message.transportMessage.injEq,
      reduceCtorEq, List.not_mem_nil, or_false, false_or] at hm
    rcases hm with rfl | rfl | rfl | rfl | rfl <;> decide
  have hstate : ∃ n as e q, run step sample sampleShuffled = .ok (n, as) ∧
      n.transport.connections ⟨.fill 1⟩ = some 0 ∧ n.conns 0 = some e ∧ e.Alive ∧
      n.transport.messageQueues ⟨.fill 1⟩ = some q ∧
      e.conn.inboundRx.log
        = [⟨⟨.fill 2⟩, .openRequest⟩, ⟨⟨.fill 2⟩, .data [2]⟩, ⟨⟨.fill 2⟩, .data [3]⟩] ∧
      q.queue.elems = [sampleChunk 5 [5]] ∧ q.nextExpectedNonce.toNat = 3 + 1 :=
    ⟨_, _, _, _, rfl, rfl, rfl, rfl, rfl, rfl, rfl, rfl⟩
  obtain ⟨n, as, e, q, hrun, hc, he, ha, hq, hlog, helems, hnext⟩ := hstate
  obtain ⟨n', as', hrun', hall⟩ := reassembly hnonce (by decide)
  obtain ⟨rfl, rfl⟩ : n = n' ∧ as = as' :=
    Prod.mk.inj (Except.ok.inj (hrun.symm.trans hrun'))
  obtain ⟨e', he', -, hlive⟩ := (hall ⟨.fill 1⟩).1 0 hc
  obtain rfl := Option.some.inj (he.symm.trans he')
  obtain ⟨q', k, hq', hgreatest, -, hk, -, hlt⟩ := hlive ha
  obtain rfl := Option.some.inj (hq.symm.trans hq')
  obtain rfl : k = 3 := by omega
  exact ⟨n, as, e, q, hrun, hc, he, ha, hq, hgreatest, hlog, helems, hlt⟩

end Node

end Libp2pNym
