import Libp2pNym.Connection.Equiv.Outbound
import Libp2pNym.Connection.Writers
import Libp2pNym.Transport.Equiv.Reassembly

/-!
# Calls of different tasks may overlap

`linearized`: however the tasks of a connection overlap, the messages on the channel are, up to
their order, those of the same calls made one after another, in the order in which they have drawn
their nonces.  The receiver goes by the nonces, so its connection is handed the messages in that
order, whatever the mixnet does (`linearized_delivery`).  An endpoint, whose calls nothing
interrupts, is one way to overlap (`Endpoint.run_writers`).
-/

namespace Libp2pNym

open Reassembly TransportMessage

variable {P R : Type}

/-! ### Calls one after another -/

/-- The message that a call with the nonce puts on the channel. -/
def stamp (recipient : R) (id : ConnectionId) (nonce : UInt64) (msg : SubstreamMessage) :
    OutboundMessage P R :=
  { message := .transportMessage { nonce := nonce, message := msg, id := id }
    recipient := recipient }

/-- What the calls put on the channel, the first with the given nonce. -/
def stampAll (recipient : R) (id : ConnectionId) (nonce : UInt64) :
    List (Option SubstreamMessage) → List (OutboundMessage P R)
  | [] => []
  | c :: calls =>
    (c.map (stamp recipient id nonce)).toList ++ stampAll recipient id (nonce + 1) calls

namespace Outbox

variable {o : Outbox P R} {recipient : R} {id : ConnectionId}

theorem call_of_alive (h : o.Alive) (c : Option SubstreamMessage) :
    o.call recipient id c = (c.map (o.emit recipient id)).getD o.draw := by
  cases c with
  | none => rfl
  | some msg =>
    simp only [call, Outbox.send_fetchAdd_of_alive h, Option.map_some, Option.getD_some]

/-- A call moves the counter by one and sends what it has to send. -/
theorem call_spec (h : o.Alive) (recipient : R) (id : ConnectionId)
    (c : Option SubstreamMessage) :
    (o.call recipient id c).Alive ∧ (o.call recipient id c).messageNonce = o.messageNonce + 1 ∧
      (o.call recipient id c).outboundTx.log
        = o.outboundTx.log ++ (c.map (stamp recipient id o.messageNonce)).toList := by
  rw [call_of_alive h]
  cases c with
  | none => exact ⟨h, rfl, (List.append_nil _).symm⟩
  | some msg => exact ⟨h, rfl, log_emit ..⟩

theorem log_callAll (h : o.Alive) (calls : List (Option SubstreamMessage)) :
    (o.callAll recipient id calls).outboundTx.log
      = o.outboundTx.log ++ stampAll recipient id o.messageNonce calls := by
  induction calls generalizing o with
  | nil => exact (List.append_nil _).symm
  | cons c calls ih =>
    obtain ⟨halive, hnonce, hlog⟩ := call_spec h recipient id c
    refine (ih halive).trans ?_
    rw [hnonce, hlog, List.append_assoc]
    rfl

theorem messageNonce_callAll (h : o.Alive) (calls : List (Option SubstreamMessage)) :
    (o.callAll recipient id calls).messageNonce = o.messageNonce + UInt64.ofNat calls.length := by
  induction calls generalizing o with
  | nil => exact (UInt64.add_zero _).symm
  | cons c calls ih =>
    obtain ⟨halive, hnonce, -⟩ := call_spec h recipient id c
    refine (ih halive).trans ?_
    rw [hnonce, List.length_cons, UInt64.ofNat_add, UInt64.add_assoc, UInt64.add_comm 1]
    rfl

theorem sentMessages_callAll (h : o.Alive) (recipient : R) (id : ConnectionId)
    (calls : List (Option SubstreamMessage)) :
    (o.callAll recipient id calls).sentMessages = o.sentMessages ++ calls.filterMap fun c => c := by
  induction calls generalizing o with
  | nil => exact (List.append_nil _).symm
  | cons c calls ih =>
    refine (ih (call_spec h recipient id c).1).trans ?_
    rw [call_of_alive h]
    cases c with
    | none => rfl
    | some msg =>
      rw [Option.map_some, Option.getD_some, sentMessages_emit, List.append_assoc]
      rfl

/-- The messages of the calls carry increasing nonces, with a gap for each that was given up. -/
theorem Stamped.callAll {refused : ℕ} (ha : o.Alive) (h : o.Stamped recipient id refused)
    (calls : List (Option SubstreamMessage))
    (hlt : o.sentMessages.length + refused + calls.length < 2 ^ 64 - 1) :
    ∃ refused', (o.callAll recipient id calls).Stamped recipient id refused' := by
  induction calls generalizing o refused with
  | nil => exact ⟨refused, h⟩
  | cons c calls ih =>
    rw [List.length_cons] at hlt
    have halive := (call_spec ha recipient id c).1
    show ∃ refused', ((o.call recipient id c).callAll recipient id calls).Stamped recipient id
      refused'
    rw [call_of_alive ha] at halive ⊢
    cases c with
    | none =>
      have hlen : o.draw.sentMessages.length = o.sentMessages.length := rfl
      exact ih halive (h.draw (by omega)) (by rw [Option.map_none, Option.getD_none, hlen]; omega)
    | some msg =>
      have hlen : (o.emit recipient id msg).sentMessages.length = o.sentMessages.length + 1 := by
        rw [sentMessages_emit, List.length_append, List.length_singleton]
      exact ih halive (h.emit msg (by omega))
        (by rw [Option.map_some, Option.getD_some, hlen]; omega)

end Outbox

/-! ### Overlapping calls -/

namespace Writers

variable {w : Writers P R} {recipient : R} {id : ConnectionId}

/-- The nonces that were drawn and not used, each by one task. -/
structure Drawn (w : Writers P R) (pend : List (ℕ × UInt64)) : Prop where
  nodup : (pend.map Prod.fst).Nodup
  mem : ∀ i n, w.drawn i = some n ↔ (i, n) ∈ pend

/-- What the tasks that have drawn a nonce are going to send. -/
def owed (recipient : R) (id : ConnectionId) (ops : List Op) (pend : List (ℕ × UInt64)) :
    List (OutboundMessage P R) :=
  pend.filterMap fun p => (outcome p.1 ops).map (stamp recipient id p.2)

def busy (w : Writers P R) (i : ℕ) : Bool := (w.drawn i).isSome

theorem Drawn.remove {pend : List (ℕ × UInt64)} (hd : Drawn w pend) {i : ℕ} {n : UInt64}
    (hi : w.drawn i = some n) (outbox : Outbox P R) :
    ∃ pend', pend.Perm ((i, n) :: pend') ∧ (∀ p ∈ pend', p.1 ≠ i) ∧
      Drawn ⟨outbox, w.drawn.remove i⟩ pend' := by
  have hmem := (hd.mem i n).mp hi
  have hperm := List.perm_cons_erase hmem
  have hnodup := (hperm.map Prod.fst).nodup_iff.mp hd.nodup
  rw [List.map_cons, List.nodup_cons] at hnodup
  have hne : ∀ p ∈ pend.erase (i, n), p.1 ≠ i := by
    intro p hp heq
    exact hnodup.1 (List.mem_map.mpr ⟨p, hp, heq⟩)
  refine ⟨pend.erase (i, n), hperm, hne, hnodup.2, fun j m => ?_⟩
  rw [KeyMap.remove_eq_some_iff, hd.mem, hperm.mem_iff, List.mem_cons]
  constructor
  · rintro ⟨hj, heq | hm⟩
    · cases heq
      exact absurd rfl hj
    · exact hm
  · intro hm
    exact ⟨hne _ hm, Or.inr hm⟩

theorem busy_remove (outbox : Outbox P R) (i : ℕ) :
    busy ⟨outbox, w.drawn.remove i⟩ = Function.update w.busy i false := by
  funext j
  show (w.drawn.remove i j).isSome = _
  rw [Function.update_apply, KeyMap.remove_apply]
  split <;> rfl

theorem busy_insert (outbox : Outbox P R) (i : ℕ) (n : UInt64) :
    busy ⟨outbox, w.drawn.insert i n⟩ = Function.update w.busy i true := by
  funext j
  show (w.drawn.insert i n j).isSome = _
  rw [Function.update_apply, KeyMap.insert_apply]
  split <;> rfl

/-- The step is the last of a call of the task `i`, which sends `c`. -/
inductive Uses (i : ℕ) : Op → Option SubstreamMessage → Prop
  | send (msg : SubstreamMessage) : Uses i (.send i msg) (some msg)
  | giveUp : Uses i (.giveUp i) none

section

variable {i : ℕ} {o : Op} {c : Option SubstreamMessage}

theorem outcome_uses (hu : Uses i o c) (ops : List Op) (j : ℕ) :
    outcome j (o :: ops) = if i = j then c else outcome j ops := by
  cases hu <;> rfl

theorem calls_uses (hu : Uses i o c) (ops : List Op) (busy : ℕ → Bool) :
    calls busy (o :: ops) = calls (Function.update busy i false) ops := by
  cases hu <;> rfl

/-- A task that has drawn no nonce does nothing. -/
theorem step_uses_of_none (hu : Uses i o c) (hi : w.drawn i = none) :
    w.step recipient id o = w ∧ Function.update w.busy i false = w.busy := by
  refine ⟨?_, Function.update_eq_self_iff.mpr (by rw [busy, hi]; rfl)⟩
  cases hu with
  | send msg => simp only [step, hi]
  | giveUp =>
    have hremove : w.drawn.remove i = w.drawn := by
      funext j
      rw [KeyMap.remove_apply]
      split
      · rename_i hj
        rw [hj, hi]
      · rfl
    simp only [step, hremove]

/-- A task that has drawn a nonce sends what it has to send with it. -/
theorem step_uses_of_some (hu : Uses i o c) (ha : w.outbox.Alive) {n : UInt64}
    (hi : w.drawn i = some n) (recipient : R) (id : ConnectionId) :
    ∃ outbox, w.step recipient id o = ⟨outbox, w.drawn.remove i⟩ ∧ outbox.Alive ∧
      outbox.messageNonce = w.outbox.messageNonce ∧
      outbox.outboundTx.log
        = w.outbox.outboundTx.log ++ (c.map (stamp recipient id n)).toList := by
  cases hu with
  | send msg =>
    have ha' : w.outbox.outboundTx.rxAlive = true := ha
    refine ⟨{ w.outbox with outboundTx := { w.outbox.outboundTx with
      queue := w.outbox.outboundTx.queue ++ [stamp recipient id n msg] } }, ?_, ha, rfl, ?_⟩
    · simp only [step, hi, Outbox.send, Chan.send, ha', ↓reduceIte]
      rfl
    · simp only [Chan.log, List.append_assoc, Option.map_some, Option.toList_some]
  | giveUp => exact ⟨w.outbox, rfl, ha, rfl, (List.append_nil _).symm⟩

/-- What was drawn is used: the task `i` is done, and the others go on. -/
theorem owed_uses (hu : Uses i o c) {ops : List Op} {pend pend' : List (ℕ × UInt64)} {n : UInt64}
    (hperm : pend.Perm ((i, n) :: pend')) (hne : ∀ p ∈ pend', p.1 ≠ i) :
    (owed recipient id (o :: ops) pend : List (OutboundMessage P R)).Perm
      ((c.map (stamp recipient id n)).toList ++ owed recipient id ops pend') := by
  refine (hperm.filterMap _).trans (List.Perm.of_eq ?_)
  have hrest : pend'.filterMap (fun p =>
        (outcome p.1 (o :: ops)).map (stamp recipient id p.2))
      = (owed recipient id ops pend' : List (OutboundMessage P R)) := by
    refine List.filterMap_congr fun p hp => ?_
    rw [outcome_uses hu, if_neg (Ne.symm (hne p hp))]
  rw [List.filterMap_cons, hrest, outcome_uses hu, if_pos rfl]
  cases c <;> rfl

/-- A task that has drawn no nonce owes nothing. -/
theorem owed_uses_of_none (hu : Uses i o c) {ops : List Op} {pend : List (ℕ × UInt64)}
    (hd : Drawn w pend) (hi : w.drawn i = none) :
    (owed recipient id (o :: ops) pend : List (OutboundMessage P R))
      = owed recipient id ops pend := by
  refine List.filterMap_congr fun p hp => ?_
  have hne : i ≠ p.1 := by
    rintro rfl
    rw [(hd.mem p.1 p.2).mpr hp] at hi
    cases hi
  rw [outcome_uses hu, if_neg hne]

end

/-- A task that has drawn a nonce draws no other. -/
theorem step_draw_of_some {i : ℕ} {n : UInt64} (hi : w.drawn i = some n) :
    w.step recipient id (.draw i) = w := by
  simp only [step, hi]

theorem Drawn.insert {pend : List (ℕ × UInt64)} (hd : Drawn w pend) {i : ℕ}
    (hi : w.drawn i = none) (outbox : Outbox P R) (n : UInt64) :
    Drawn ⟨outbox, w.drawn.insert i n⟩ ((i, n) :: pend) := by
  have hnew : ∀ m, (i, m) ∉ pend := by
    intro m hm
    rw [(hd.mem i m).mpr hm] at hi
    cases hi
  constructor
  · rw [List.map_cons, List.nodup_cons]
    refine ⟨fun hm => ?_, hd.nodup⟩
    obtain ⟨p, hp, rfl⟩ := List.mem_map.mp hm
    exact hnew p.2 hp
  · intro j m
    rw [KeyMap.insert_eq_some_iff, hd.mem, List.mem_cons, Prod.mk.injEq]
    refine or_congr (and_congr_right fun _ => eq_comm) ⟨fun h => h.2, fun hm => ⟨?_, hm⟩⟩
    rintro rfl
    exact hnew m hm

/-- **Overlapping calls**: the channel holds what it held, what the tasks that had drawn a nonce
have sent, and what the calls of the run have sent, in some order. -/
theorem run_spec {pend : List (ℕ × UInt64)} (hd : Drawn w pend) (ha : w.outbox.Alive)
    (recipient : R) (id : ConnectionId) (ops : List Op) :
    (w.run recipient id ops).outbox.outboundTx.log.Perm (w.outbox.outboundTx.log ++
      (owed recipient id ops pend ++
        stampAll recipient id w.outbox.messageNonce (calls w.busy ops))) ∧
    (w.run recipient id ops).outbox.messageNonce
      = w.outbox.messageNonce + UInt64.ofNat (calls w.busy ops).length := by
  induction ops generalizing w pend with
  | nil =>
    have hnone : (owed recipient id [] pend : List (OutboundMessage P R)) = [] :=
      List.filterMap_eq_nil_iff.mpr fun _ _ => rfl
    refine ⟨?_, (UInt64.add_zero _).symm⟩
    rw [hnone, calls, stampAll, List.append_nil, List.append_nil]
    exact List.Perm.refl _
  | cons o ops ih =>
    show ((w.step recipient id o).run recipient id ops).outbox.outboundTx.log.Perm _ ∧
      ((w.step recipient id o).run recipient id ops).outbox.messageNonce = _
    -- a draw makes a new call, unless the task is still in one; every other step ends a call
    by_cases hdraw : ∃ i, o = .draw i
    · obtain ⟨i, rfl⟩ := hdraw
      cases hi : w.drawn i with
      | some n =>
        have hbusy : w.busy i = true := by rw [busy, hi]; rfl
        rw [step_draw_of_some hi, calls, if_pos hbusy]
        exact ih hd ha
      | none =>
        have hbusy : ¬ w.busy i = true := by
          rw [busy, hi]
          exact Bool.false_ne_true
        have hstep : w.step recipient id (.draw i)
            = ⟨w.outbox.draw, w.drawn.insert i w.outbox.messageNonce⟩ := by
          simp only [step, hi]
          rfl
        obtain ⟨hlog, hnonce⟩ := ih (hd.insert hi w.outbox.draw w.outbox.messageNonce) ha
        rw [busy_insert] at hlog hnonce
        rw [hstep, calls, if_neg hbusy]
        refine ⟨hlog.trans (List.Perm.append_left _ ?_), ?_⟩
        · -- the new call is owed first, and sent after what was owed before
          have howed : (owed recipient id ops ((i, w.outbox.messageNonce) :: pend) :
              List (OutboundMessage P R))
              = ((outcome i ops).map (stamp recipient id w.outbox.messageNonce)).toList
                ++ owed recipient id ops pend := by
            rw [owed, List.filterMap_cons]
            cases outcome i ops <;> rfl
          rw [howed, stampAll, ← List.append_assoc]
          exact List.Perm.append_right _ List.perm_append_comm
        · rw [hnonce, List.length_cons, UInt64.ofNat_add, UInt64.add_comm (UInt64.ofNat _)]
          exact UInt64.add_assoc ..
    · obtain ⟨i, c, hu⟩ : ∃ i c, Uses i o c := by
        cases o with
        | draw i => exact absurd ⟨i, rfl⟩ hdraw
        | send i msg => exact ⟨i, some msg, .send msg⟩
        | giveUp i => exact ⟨i, none, .giveUp⟩
      rw [calls_uses hu]
      cases hi : w.drawn i with
      | none =>
        obtain ⟨hstep, hbusy⟩ := step_uses_of_none hu hi
        rw [hstep, hbusy, owed_uses_of_none hu hd hi]
        exact ih hd ha
      | some n =>
        obtain ⟨outbox, hstep, halive, hsame, hlog'⟩ := step_uses_of_some hu ha hi recipient id
        obtain ⟨pend', hperm, hne, hd'⟩ := hd.remove hi outbox
        obtain ⟨hlog, hnonce⟩ := ih hd' halive
        rw [busy_remove] at hlog hnonce
        rw [hstep]
        refine ⟨hlog.trans ?_, hnonce.trans ?_⟩
        · show (outbox.outboundTx.log ++ (_ ++ stampAll recipient id outbox.messageNonce _)).Perm _
          rw [hlog', hsame, List.append_assoc, ← List.append_assoc _ (owed ..)]
          exact List.Perm.append_left _ (List.Perm.append_right _ (owed_uses hu hperm hne).symm)
        · show outbox.messageNonce + _ = _
          rw [hsame]

/-- **Overlapping calls can be told apart by nothing but the order of the channel**: the counter
and, up to their order, the messages are those of the same calls made one after another, in the
order in which they have drawn their nonces. -/
theorem linearized {o : Outbox P R} (ha : o.Alive) (recipient : R) (id : ConnectionId)
    (ops : List Op) :
    ((new o).run recipient id ops).outbox.messageNonce
        = (o.callAll recipient id (calls (fun _ => false) ops)).messageNonce ∧
      ((new o).run recipient id ops).outbox.outboundTx.log.Perm
        (o.callAll recipient id (calls (fun _ => false) ops)).outboundTx.log := by
  have hd : Drawn (new o) [] :=
    ⟨List.nodup_nil, fun i n => iff_of_false (fun h => by cases h) List.not_mem_nil⟩
  obtain ⟨hlog, hnonce⟩ := run_spec hd ha recipient id ops
  rw [Outbox.messageNonce_callAll ha, Outbox.log_callAll ha]
  exact ⟨hnonce, hlog⟩

theorem length_calls_le (busy : ℕ → Bool) (ops : List Op) :
    (calls busy ops).length ≤ ops.length := by
  induction ops generalizing busy with
  | nil => exact Nat.le_refl _
  | cons o ops ih =>
    rw [List.length_cons]
    cases o with
    | draw i =>
      rw [calls]
      split
      · exact (ih _).trans (Nat.le_succ _)
      · rw [List.length_cons]
        exact Nat.succ_le_succ (ih _)
    | send i msg => exact (ih _).trans (Nat.le_succ _)
    | giveUp i => exact (ih _).trans (Nat.le_succ _)

/-- **Delivery in the order of the draws.**  The tasks of a connection overlap in any way, in fewer
than `2 ^ 64 - 1` steps.  At any transport, in any run in which what has come for the connection is
some of what they have sent, in any order and any number of times: the connection, if it is there
and was not dropped, was handed exactly the first `k` messages in the order in which their nonces
were drawn, where `k` is the greatest number such that the nonces `1, ..., k` have all come. -/
theorem linearized_delivery {o : Outbox P R} (ha : o.Alive) (hnonce : o.messageNonce = 1)
    (hempty : o.outboundTx.log = []) (recipient : R) (c : ConnectionId) {sends : List Op}
    (hsends : sends.length < 2 ^ 64 - 1) {selfAddress : R} {peerId : P}
    {outboundTx : Chan (OutboundMessage P R)} {ops : List (Node.Op P R)} {n : Node P R}
    {as : List (Node.Answer P)}
    (hrun : StepRun.run Node.step (Node.new selfAddress peerId outboundTx) ops = .ok (n, as))
    (hsent : ∀ m ∈ Node.arrivals c ops,
      m ∈ ((new o).run recipient c sends).outbox.transported)
    {f : Endpoint P R} (hf : n.endAt c = some f) (hfa : f.Alive) :
    ∃ k, IsGreatest {k | ∀ i, 1 ≤ i → i ≤ k → ∃ m ∈ Node.arrivals c ops, key m = i} k ∧
      f.conn.inboundRx.log
        = ((calls (fun _ => false) sends).filterMap fun msg => msg).take k := by
  obtain ⟨-, hperm⟩ := linearized ha recipient c sends
  have hmessages : o.sentMessages = [] := by
    rw [Outbox.sentMessages, hempty]
    rfl
  have hstamped : o.Stamped recipient c 0 := by
    have htransported : o.transported = [] := by
      rw [Outbox.transported, hempty]
      rfl
    constructor
    · rw [hnonce, hmessages]
      rfl
    · rw [htransported]
      exact List.Pairwise.nil
    · rw [htransported]
      exact fun m hm => absurd hm List.not_mem_nil
    · rw [hempty]
      exact fun m hm => absurd hm List.not_mem_nil
  obtain ⟨refused, hcalls⟩ := hstamped.callAll ha (calls (fun _ => false) sends) (by
    have := length_calls_le (fun _ => false) sends
    rw [hmessages, List.length_nil]
    omega)
  have hsub : Node.arrivals c ops
      ⊆ (o.callAll recipient c (calls (fun _ => false) sends)).transported :=
    fun m hm => (hperm.filterMap _).subset (hsent m hm)
  have hroom : MessageQueue.Room (Node.arrivals c ops) := by
    intro k hk
    have hlt := (o.callAll recipient c (calls (fun _ => false) sends)).messageNonce.toNat_lt
    by_cases h0 : k = 0
    · omega
    · obtain ⟨m, hm, hkey⟩ := hk k (by omega) (Nat.le_refl k)
      have hbound := (hcalls.bounds m (hsub hm)).2
      omega
  have hordered := Node.ordered_run_of_arrivals (fun m hm => (hcalls.bounds m (hsub hm)).1) hroom
    hrun
  obtain ⟨k, log, hupto, hset, hlog⟩ := hordered.passing f hf hfa
  refine ⟨k, hupto.holds.isGreatest fun m hm => ?_, ?_⟩
  · rw [← hupto.next]
    exact hset m hm
  · have htake := hupto.holds.eq_take (fun m hm => (hcalls.bounds m hm).1) hcalls.sorted hsub
    have hall := Outbox.sentMessages_callAll ha recipient c (calls (fun _ => false) sends)
    rw [Outbox.sentMessages_eq, hmessages, List.nil_append] at hall
    rw [hlog, htake, List.map_take, hall]

/-- Two tasks: the second draws its nonce after the first and sends before it. -/
def sampleOverlap : List Op :=
  [.draw 0, .draw 1, .send 1 ⟨⟨.fill 3⟩, .openRequest⟩, .send 0 ⟨⟨.fill 2⟩, .openRequest⟩]

/-- The messages come in the order in which they were sent. -/
def sampleReceived : List (Node.Op RawPeerId RawRecipient) :=
  [.inbound (.connectionRequest Node.sampleRequest),
    .inbound (.transportMessage ⟨2, ⟨⟨.fill 3⟩, .openRequest⟩, ⟨.fill 1⟩⟩),
    .inbound (.transportMessage ⟨1, ⟨⟨.fill 2⟩, .openRequest⟩, ⟨.fill 1⟩⟩)]

/-- The connection is handed them in the order of the draws. -/
theorem linearized_delivery_sampleOverlap : ∃ n as f,
    StepRun.run Node.step Node.sample sampleReceived = .ok (n, as) ∧
      n.endAt ⟨.fill 1⟩ = some f ∧
      f.conn.inboundRx.log = [⟨⟨.fill 2⟩, .openRequest⟩, ⟨⟨.fill 3⟩, .openRequest⟩] := by
  have hstate : ∃ n as f, StepRun.run Node.step Node.sample sampleReceived = .ok (n, as) ∧
      n.endAt ⟨.fill 1⟩ = some f ∧ f.Alive ∧ f.conn.inboundRx.log.length = 2 :=
    ⟨_, _, _, rfl, rfl, rfl, rfl⟩
  obtain ⟨n, as, f, hrun, hf, ha, hlog⟩ := hstate
  have halive : (⟨1, Chan.new⟩ : Outbox RawPeerId RawRecipient).Alive := rfl
  have hsent : ((new (⟨1, Chan.new⟩ : Outbox RawPeerId RawRecipient)).run (.fill 9) ⟨.fill 1⟩
      sampleOverlap).outbox.transported = Node.arrivals ⟨.fill 1⟩ sampleReceived := rfl
  have hsends : sampleOverlap.length < 2 ^ 64 - 1 := by decide
  obtain ⟨k, -, htake⟩ := linearized_delivery halive rfl rfl (.fill 9) ⟨.fill 1⟩ hsends hrun
    (fun _ hm => hsent ▸ hm) hf ha
  refine ⟨n, as, f, hrun, hf, ?_⟩
  have hcalls : (calls (fun _ => false) sampleOverlap).filterMap (fun msg => msg)
      = [⟨⟨.fill 2⟩, .openRequest⟩, ⟨⟨.fill 3⟩, .openRequest⟩] := rfl
  rw [hcalls] at htake
  rw [htake, List.length_take] at hlog
  rw [htake, List.take_of_length_le]
  simp only [List.length_cons, List.length_nil] at hlog ⊢
  omega

end Writers

/-! ### The calls of an endpoint -/

namespace Writers

/-- The task `0` makes the calls, and nothing comes in between. -/
def atomic (calls : List (Option SubstreamMessage)) : List Op :=
  calls.flatMap fun c => [.draw 0, (c.map (Op.send 0)).getD (.giveUp 0)]

/-- Calls that are made one after another are one way to overlap. -/
theorem run_atomic {o : Outbox P R} (ha : o.Alive) (recipient : R) (id : ConnectionId)
    (calls : List (Option SubstreamMessage)) :
    (new o).run recipient id (atomic calls) = new (o.callAll recipient id calls) := by
  induction calls generalizing o with
  | nil => rfl
  | cons c calls ih =>
    have hremove : (KeyMap.empty.insert 0 o.messageNonce).remove 0
        = (KeyMap.empty : KeyMap ℕ UInt64) := by
      rw [KeyMap.insert, KeyMap.remove, Function.update_idem]
      exact Function.update_eq_self _ _
    have hcall : ((new o).step recipient id (.draw 0)).step recipient id
        ((c.map (Op.send 0)).getD (.giveUp 0)) = new (o.call recipient id c) := by
      have hdraw : (new o).step recipient id (.draw 0)
          = ⟨o.draw, KeyMap.empty.insert 0 o.messageNonce⟩ := rfl
      rw [hdraw]
      cases c with
      | none => exact congrArg (Writers.mk o.draw) hremove
      | some msg =>
        have hsend := Outbox.send_fetchAdd_of_alive ha recipient id msg
        simp only [Outbox.fetchAdd] at hsend
        simp only [Option.map_some, Option.getD_some, step, KeyMap.insert_self, Outbox.draw, hsend,
          hremove, Outbox.call, Outbox.fetchAdd]
        rfl
    show (((new o).step recipient id (.draw 0)).step recipient id _).run recipient id
      (atomic calls) = _
    rw [hcall]
    exact ih (Outbox.call_spec ha recipient id c).1

end Writers

namespace Outbox

variable {o : Outbox P R} {recipient : R} {id : ConnectionId}

theorem emitAll_eq_callAll (ha : o.Alive) (msgs : List SubstreamMessage) :
    o.emitAll recipient id msgs = o.callAll recipient id (msgs.map some) := by
  induction msgs generalizing o with
  | nil => rfl
  | cons msg msgs ih =>
    show (o.emit recipient id msg).emitAll recipient id msgs
      = (o.call recipient id (some msg)).callAll recipient id (msgs.map some)
    rw [call_of_alive ha]
    exact ih ha

end Outbox

namespace Endpoint

/-- An operation at the endpoint makes some calls, one after another. -/
theorem step_callAll {e e' : Endpoint P R} (hw : e.Wf) (ha : e.outbox.Alive) {o : Op} {a : Answer}
    (hs : e.step o = .ok (e', a)) :
    ∃ calls, e'.outbox = e.outbox.callAll e.conn.remoteRecipient e.conn.id calls := by
  rcases step_outbox hw ha hs with ⟨-, -, -, msgs, hem⟩ | ⟨-, hd⟩
  · exact ⟨msgs.map some, by rw [hem, Outbox.emitAll_eq_callAll ha]⟩
  · exact ⟨[none], hd⟩

theorem remote_step {e e' : Endpoint P R} (hw : e.Wf) {o : Op} {a : Answer}
    (hs : e.step o = .ok (e', a)) :
    e'.conn.remoteRecipient = e.conn.remoteRecipient ∧ e'.conn.id = e.conn.id := by
  have hst := steps_of_step hw hs
  by_cases hrec : ∃ m, o = .receive m
  · obtain ⟨m, rfl⟩ := hrec
    cases hst <;> exact ⟨rfl, rfl⟩
  · obtain ⟨-, -, hid, hrem, -⟩ := frame_steps hw hst fun m hm => hrec ⟨m, hm⟩
    exact ⟨hrem, hid⟩

/-- **An endpoint is one way to overlap**: what its operations do to the outbox is what tasks do
whose calls nothing interrupts. -/
theorem run_writers (peerId : P) (recipient : R) (id : ConnectionId) {ops : List Op}
    {e : Endpoint P R} {as : List Answer}
    (hrun : StepRun.run step (new peerId recipient id Chan.new) ops = .ok (e, as)) :
    ∃ sends, (Writers.new ⟨1, Chan.new⟩).run recipient id sends = Writers.new e.outbox := by
  have hcalls : (e.Wf ∧ e.outbox.Alive) ∧ (e.conn.remoteRecipient = recipient ∧ e.conn.id = id) ∧
      ∃ calls, e.outbox = Outbox.callAll recipient id ⟨1, Chan.new⟩ calls := by
    revert hrun
    refine StepRun.run_induction (I := fun _ _ (e : Endpoint P R) => (e.Wf ∧ e.outbox.Alive) ∧
      (e.conn.remoteRecipient = recipient ∧ e.conn.id = id) ∧
      ∃ calls, e.outbox = Outbox.callAll recipient id ⟨1, Chan.new⟩ calls)
      ⟨⟨wf_new _ _ _ _, rfl⟩, ⟨rfl, rfl⟩, [], rfl⟩ ?_
    rintro xs es m o t a - ⟨⟨hw, ha⟩, ⟨rfl, rfl⟩, calls, hcalls⟩ hs
    obtain ⟨calls', hstep⟩ := step_callAll hw ha hs
    refine ⟨⟨wf_step hw hs, alive_step hw ha hs⟩, remote_step hw hs, calls ++ calls', ?_⟩
    rw [hstep, hcalls, Outbox.callAll, Outbox.callAll, Outbox.callAll, List.foldl_append]
  obtain ⟨-, -, calls, hcalls⟩ := hcalls
  have ha : (⟨1, Chan.new⟩ : Outbox P R).Alive := rfl
  exact ⟨Writers.atomic calls, by rw [hcalls, Writers.run_atomic ha]⟩

end Endpoint

end Libp2pNym
