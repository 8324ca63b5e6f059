import Libp2pNym.Network.Equiv.Delivery

/-!
# Nothing is lost that was delivered

`ordered_delivery` says what never reaches a substream.  Here is what does: a connection was handed
exactly the messages that have arrived without a gap (`exact_delivery`), so when the mixnet has
delivered every message, and no close was refused, all that was written has reached the substreams
(`complete_delivery`).
-/

namespace Libp2pNym.Network

open StepRun Endpoint Reassembly TransportMessage

variable {P R : Type} [DecidableEq R]

/-! ### What was delivered -/

/-- The transport message for the connection `c` that the operation hands to the transport `a`. -/
def deliveredAt (t : ThirdParty P R) (a : R) (c : ConnectionId) (net : Network P R) :
    Op P R → List TransportMessage
  | .deliver b h i =>
    match (sentFrom (net b) h)[i]? with
    | none => []
    | some m =>
      if m.recipient = a then
        match parseMessageData t (m.message.toBytes t) with
        | .error _ => []
        | .ok inbound => Node.arrivedIn c (.inbound inbound.message : Node.Op P R)
      else []
  | _ => []

/-- The transport messages for the connection `c` that were handed to the transport `a` in a run, in
the order in which they came. -/
def delivered (t : ThirdParty P R) (peerIds : R → P) (a : R) (c : ConnectionId)
    (ops : List (Op P R)) : List TransportMessage :=
  gather (deliveredAt t a c) (step t) (new peerIds) ops

/-- Every transport has put back in order what it was handed, which was sent to it. -/
def Handed (hist : R → ConnectionId → List TransportMessage) (net : Network P R) : Prop :=
  ∀ a c, (net a).Ordered c (hist a c) ∧ ∀ m ∈ hist a c, SentTo net c a m

section

variable {t : ThirdParty P R} {ops : List (Op P R)} {as : List (Answer P)}
  {refused : R → ConnectionId → ℕ} {net : Network P R}
  {hist hist' : R → ConnectionId → List TransportMessage}

/-- A transport has moved, and its endpoints have sent no less than before. -/
theorem Handed.update (hh : Handed hist net) {a : R} {n : Node P R}
    (hgrows : ∀ c e, (net a).endAt c = some e → ∃ e', n.endAt c = some e' ∧
      e'.conn.remoteRecipient = e.conn.remoteRecipient ∧
      e.outbox.transported ⊆ e'.outbox.transported)
    (hself : ∀ c, n.Ordered c (hist' a c) ∧ ∀ m ∈ hist' a c, SentTo net c a m)
    (hother : ∀ b, b ≠ a → hist' b = hist b) : Handed hist' (Function.update net a n) := by
  have hsent : ∀ {c b m}, SentTo net c b m → SentTo (Function.update net a n) c b m := by
    intro c b m hm
    refine hm.mono fun b' e he => ?_
    by_cases hb : b' = a
    · subst hb
      rw [Function.update_self]
      exact hgrows c e he
    · rw [Function.update_of_ne hb]
      exact ⟨e, he, rfl, List.Subset.refl _⟩
  intro b c
  by_cases hb : b = a
  · subst hb
    rw [Function.update_self]
    exact ⟨(hself c).1, fun m hm => hsent ((hself c).2 m hm)⟩
  · rw [Function.update_of_ne hb, hother b hb]
    exact ⟨(hh b c).1, fun m hm => hsent ((hh b c).2 m hm)⟩

/-- An operation at a transport. -/
theorem Handed.node (hh : Handed hist net) (hi : Inv ops as refused net) {a : R}
    {o : Node.Op P R} {n : Node P R} {r : Node.Answer P} (hs : Node.Steps (net a) o n r)
    (hmsg : ∀ m, o = .inbound (.transportMessage m) → SentTo net m.id a m)
    (hself : ∀ c, hist' a c = hist a c ++ Node.arrivedIn c o)
    (hother : ∀ b, b ≠ a → hist' b = hist b) : Handed hist' (Function.update net a n) := by
  have hmoves := Node.moves_steps (hi.placed a) hs
  refine hh.update (fun c e he => ?_) (fun c => ?_) hother
  · obtain ⟨e', he', hrem, -, ho⟩ := (hmoves c).endAt he
    exact ⟨e', he', hrem, ho ▸ List.Subset.refl _⟩
  · obtain ⟨hord, hhist⟩ := hh a c
    have hnew : ∀ m ∈ hist a c ++ Node.arrivedIn c o, SentTo net c a m := by
      intro m hm
      rcases List.mem_append.mp hm with hm | hm
      · exact hhist m hm
      · -- what arrives with the operation was sent to this transport
        unfold Node.arrivedIn at hm
        split at hm
        · split at hm
          · rename_i hid
            rw [List.mem_singleton] at hm
            subst hm
            exact hid ▸ hmsg _ rfl
          · cases hm
        · cases hm
    rw [hself]
    refine ⟨Node.ordered_moves hord ?_ (hi.room hnew) (hmoves c), hnew⟩
    rintro m rfl rfl
    exact (hi.nonce (hmsg m rfl)).1

/-- An operation at a connection. -/
theorem Handed.conn (hh : Handed hist net) (hi : Inv ops as refused net) {a : R} {h : ℕ}
    {o : Endpoint.Op} (ho : ∀ m, o ≠ .receive m) {e e' : Endpoint P R} {r : Endpoint.Answer}
    (he : (net a).conns h = some e) (hs : e.step o = .ok (e', r)) :
    Handed hist (Function.update net a { net a with conns := (net a).conns.insert h e' }) := by
  have hend := hi.ends ((hi.placed a).back he) he
  obtain ⟨hlog, hal, -, hrem, -⟩ := frame_steps hend.wf (Endpoint.steps_of_step hend.wf hs) ho
  refine hh.update (fun c e₀ he₀ => ?_) (fun c => ⟨?_, (hh a c).2⟩) fun _ _ => rfl
  · rw [(hi.placed a).endAt_insert he e']
    by_cases hc : c = e.conn.id
    · subst hc
      rw [Node.endAt_eq_some_iff.mpr ⟨h, (hi.placed a).back he, he⟩] at he₀
      cases he₀
      exact ⟨e', if_pos rfl, hrem, transported_step hend.wf hend.mixnet hs⟩
    · exact ⟨e₀, (if_neg hc).trans he₀, rfl, List.Subset.refl _⟩
  · exact (hh a c).1.insert (hi.placed a) he hlog hal

end

section

variable {t : ThirdParty P R} {peerIds : R → P} {ops : List (Op P R)} {as : List (Answer P)}
  {net : Network P R}

/-- Nothing is delivered. -/
theorem Handed.same {hist : R → ConnectionId → List TransportMessage} {net' : Network P R}
    {o : Op P R} (hh : Handed hist net') (ho : ∀ a c, deliveredAt t a c net o = []) :
    Handed (fun a c => hist a c ++ deliveredAt t a c net o) net' := by
  simp only [ho, List.append_nil]
  exact hh

/-- **Every transport has put back in order what it was handed**, in every run with fresh ids in
which no counter wraps. -/
theorem handed_run (ht : t.RoundTrips) (hdial : (dialed ops).Nodup) (hgen : (generated ops).Nodup)
    (hspare : Always (fun xs _ net => Spared t peerIds xs net) (step t) (new peerIds) ops)
    (h : run (step t) (new peerIds) ops = .ok (net, as)) :
    Handed (fun a c => delivered t peerIds a c ops) net := by
  refine run_induction (I := fun xs _ net => (dialed xs).Nodup → (generated xs).Nodup →
    Always (fun xs _ net => Spared t peerIds xs net) (step t) (new peerIds) xs →
    Handed (fun a c => delivered t peerIds a c xs) net) (fun _ _ _ a c => ?_) ?_ h hdial hgen hspare
  · exact ⟨Node.ordered_new _ _ _ c, fun m hm => by cases hm⟩
  · intro xs es m o net' r hr ih hs hdial hgen hspare
    have hd := nodup_dialed_of_append hdial
    have hg := nodup_generated_of_append hgen
    have hi := inv_run ht hd hg hspare.of_append hr
    have hh := ih hd hg hspare.of_append
    have hsnoc : (fun a c => delivered t peerIds a c (xs ++ [o]))
        = fun a c => delivered t peerIds a c xs ++ deliveredAt t a c m o :=
      funext fun a => funext fun c => gather_append_singleton hr
    rw [hsnoc]
    by_cases hdeliver : ∃ b h i, o = .deliver b h i
    · obtain ⟨b, h, i, rfl⟩ := hdeliver
      simp only [step] at hs
      cases hm : (sentFrom (m b) h)[i]? with
      | none =>
        rw [hm] at hs
        cases hs
        exact hh.same fun a c => by simp only [deliveredAt, hm]
      | some msg =>
        rw [hm] at hs
        dsimp only at hs
        -- a message that cannot be parsed is lost on the way
        rcases parseMessageData_toBytes ht msg.message with ⟨-, hp⟩ | ⟨-, hp⟩
        · rw [hp] at hs
          obtain ⟨n, r', hs', rfl, -⟩ := stepNode_cases hs
          refine hh.node hi hs' (fun m' heq => ?_) (fun c => ?_) fun b' hb' => ?_
          · have heq' : msg.message = .transportMessage m' := Node.Op.inbound.inj heq
            rcases hi.signal (List.mem_of_getElem? hm) with hsig | ⟨m₁, hmsg, hsent⟩
            · simp only [Signal, heq'] at hsig
            · rw [heq'] at hmsg
              cases hmsg
              exact hsent
          · simp only [deliveredAt, hm, hp, if_true]
          · funext c
            simp only [deliveredAt, hm, if_neg (Ne.symm hb'), List.append_nil]
        · rw [hp] at hs
          cases hs
          refine hh.same fun a c => ?_
          simp only [deliveredAt, hm, hp, ite_self]
    · push Not at hdeliver
      have hnone : ∀ a c, deliveredAt t a c m o = [] := by
        intro a c
        cases o with
        | deliver b h i => exact absurd rfl (hdeliver b h i)
        | _ => rfl
      refine Handed.same ?_ hnone
      cases steps_of_step ht hs with
      | skip _ ho => exact hh
      | lost b h i err => exact absurd rfl (hdeliver b h i)
      | node a o ho n r hs' =>
        refine hh.node hi hs' (fun m' heq => absurd heq (ho _)) (fun c => ?_) fun _ _ => rfl
        have harrived : Node.arrivedIn c o = [] := by
          cases o with
          | inbound msg => exact absurd rfl (ho msg)
          | _ => rfl
        rw [harrived, List.append_nil]
      | delivered b h i msg hm n r hs' => exact absurd rfl (hdeliver b h i)
      | conn a h o ho e e' r he hs' => exact hh.conn hi ho he hs'

/-! ### The two ends of a connection -/

/-- What a connection was handed is what its other end has sent first, as far as that has arrived.
-/
theorem Inv.handed {refused : R → ConnectionId → ℕ} (hi : Inv ops as refused net)
    (hfresh : (dialed ops).Nodup) {hist : R → ConnectionId → List TransportMessage}
    (hh : Handed hist net) {a b : R} {c : ConnectionId} {e f : Endpoint P R} (hab : a ≠ b)
    (he : (net a).endAt c = some e) (hf : (net b).endAt c = some f) (ha : f.Alive) :
    ∃ k, IsGreatest {k | ∀ i, 1 ≤ i → i ≤ k → ∃ m ∈ hist b c, key m = i} k ∧
      f.conn.inboundRx.log = e.sent.take k := by
  obtain ⟨_, _, _, hend⟩ := hi.endInv he
  obtain ⟨_, _, _, hendf⟩ := hi.endInv hf
  obtain ⟨hord, hsent⟩ := hh b c
  obtain ⟨k, log, hupto, hset, hlog⟩ := hord.passing f hf ha
  -- what the transport was handed for the connection comes from its other end
  have hremote : f.conn.remoteRecipient = a :=
    Linked.remote hfresh (Ne.symm hab) hendf.linked hend.linked
  have hsub : hist b c ⊆ e.outbox.transported := by
    intro m hm
    obtain ⟨e', he', hm'⟩ := hi.sent_by hfresh hendf.linked (hsent m hm)
    rw [hremote, he] at he'
    cases he'
    exact hm'
  refine ⟨k, hupto.holds.isGreatest fun m hm => ?_, ?_⟩
  · rw [← hupto.next]
    exact hset m hm
  · have htake := hupto.holds.eq_take (fun m hm => (hend.stamped.bounds m hm).1)
      hend.stamped.sorted hsub
    rw [hlog, htake, sent, Outbox.sentMessages_eq, List.map_take]

/-- It was handed all messages iff as many nonces have arrived as messages were sent. -/
theorem Inv.handed_all_iff {refused : R → ConnectionId → ℕ} (hi : Inv ops as refused net)
    (hfresh : (dialed ops).Nodup) {hist : R → ConnectionId → List TransportMessage}
    (hh : Handed hist net) {a b : R} {c : ConnectionId} {e f : Endpoint P R} (hab : a ≠ b)
    (he : (net a).endAt c = some e) (hf : (net b).endAt c = some f) (ha : f.Alive) :
    f.conn.inboundRx.log = e.sent ↔
      ∀ i, 1 ≤ i → i ≤ e.sent.length → ∃ m ∈ hist b c, key m = i := by
  obtain ⟨k, hk, hlog⟩ := hi.handed hfresh hh hab he hf ha
  rw [hlog]
  constructor
  · intro hall i h1 hi
    have hle : e.sent.length ≤ k := List.take_eq_self_iff _ |>.mp hall
    exact hk.1 i h1 (hi.trans hle)
  · intro hall
    exact List.take_of_length_le (hk.2 hall)

/-- **Exact delivery.**  In every run of any number of transports with fresh ids and fewer than
`2 ^ 64 - 1` operations, on a mixnet that delays, reorders, repeats and loses messages: a connection
that was not dropped was handed exactly the first `k` messages that its other end, at another
transport, has sent, where `k` is the greatest number such that messages with the nonces `1, ..., k`
have all been delivered; and it was handed all of them iff as many nonces as messages were sent have
been delivered. -/
theorem exact_delivery (ht : t.RoundTrips) (hdial : (dialed ops).Nodup)
    (hgen : (generated ops).Nodup) (hlen : ops.length < 2 ^ 64 - 1)
    (h : run (step t) (new peerIds) ops = .ok (net, as)) {a b : R} {c : ConnectionId}
    {e f : Endpoint P R} (hab : a ≠ b) (he : (net a).endAt c = some e)
    (hf : (net b).endAt c = some f) (ha : f.Alive) :
    (∃ k, IsGreatest {k | ∀ i, 1 ≤ i → i ≤ k → ∃ m ∈ delivered t peerIds b c ops, key m = i} k ∧
      f.conn.inboundRx.log = e.sent.take k) ∧
    (f.conn.inboundRx.log = e.sent ↔
      ∀ i, 1 ≤ i → i ≤ e.sent.length → ∃ m ∈ delivered t peerIds b c ops, key m = i) := by
  have hspare : Always (fun xs _ net => Spared t peerIds xs net) (step t) (new peerIds) _ :=
    spared_of_length ht hlen
  have hi := inv_run ht hdial hgen hspare h
  have hh := handed_run ht hdial hgen hspare h
  exact ⟨hi.handed hdial hh hab he hf ha, hi.handed_all_iff hdial hh hab he hf ha⟩

end

/-- The second transport has got the first of two buffers, and the second buffer is on its way. -/
def sampleHalf : List (Op RawPeerId RawRecipient) := sampleCall ++
  [.conn (.fill 1) 0 (.pollOutbound ⟨.fill 6⟩), .conn (.fill 1) 0 (.write 0 [1]),
    .conn (.fill 1) 0 (.write 0 [2]), .deliver (.fill 1) (some 0) 1, .deliver (.fill 1) (some 0) 0]

set_option maxRecDepth 2000 in
theorem exact_delivery_sampleHalf : ∃ net as e f k,
    run (step .raw) (new samplePeers) sampleHalf = .ok (net, as) ∧
      (net (.fill 1)).endAt ⟨.fill 5⟩ = some e ∧ (net (.fill 2)).endAt ⟨.fill 5⟩ = some f ∧
      IsGreatest {k | ∀ i, 1 ≤ i → i ≤ k →
        ∃ m ∈ delivered .raw samplePeers (.fill 2) ⟨.fill 5⟩ sampleHalf, key m = i} k ∧
      f.conn.inboundRx.log = e.sent.take k ∧ f.conn.inboundRx.log ≠ e.sent := by
  have hstate : ∃ net as e f, run (step .raw) (new samplePeers) sampleHalf = .ok (net, as) ∧
      (net (.fill 1)).endAt ⟨.fill 5⟩ = some e ∧ (net (.fill 2)).endAt ⟨.fill 5⟩ = some f ∧
      f.Alive ∧ f.conn.inboundRx.log.length = 2 ∧ e.sent.length = 3 :=
    ⟨_, _, _, _, rfl, rfl, rfl, rfl, rfl, rfl⟩
  obtain ⟨net, as, e, f, hrun, he, hf, ha, hlog, hsent⟩ := hstate
  obtain ⟨⟨k, hk, htake⟩, -⟩ := exact_delivery ThirdParty.raw_roundTrips (by decide) (by decide)
    (by decide) hrun (by decide) he hf ha
  refine ⟨net, as, e, f, k, hrun, he, hf, hk, htake, fun heq => ?_⟩
  rw [heq, hsent] at hlog
  cases hlog

section

variable {t : ThirdParty P R} {peerIds : R → P} {ops : List (Op P R)} {as : List (Answer P)}
  {net : Network P R}

/-- With no close refused, the nonces of what was sent are the numbers from 1 to its length. -/
theorem EndInv.exists_nonce {a : R} {c : ConnectionId} {h i : ℕ} {e : Endpoint P R}
    (hend : EndInv ops as a c h 0 e) (h1 : 1 ≤ i) (hi : i ≤ e.sent.length) :
    ∃ m ∈ e.outbox.transported, key m = i := by
  have hlen : e.sent.length = e.outbox.transported.length := by
    rw [sent, Outbox.sentMessages_eq, List.length_map]
  refine exists_key hend.stamped.sorted (fun m hm => ?_) h1 (hlen ▸ hi)
  have hb := hend.stamped.bounds m hm
  have hcounter := hend.stamped.counter
  rw [show e.outbox.sentMessages.length = _ from hlen] at hcounter
  omega

/-- When everything that one end has sent has arrived at the other, in any order and any number of
times, and was polled there, the other end has seen all messages, and its substreams that neither
side has closed or dropped have got all that was accepted for them. -/
theorem Inv.complete {refused : R → ConnectionId → ℕ} (hi : Inv ops as refused net)
    (hdial : (dialed ops).Nodup) {hist : R → ConnectionId → List TransportMessage}
    (hh : Handed hist net) {a b : R} {c : ConnectionId} {h : ℕ} {e f : Endpoint P R} (hab : a ≠ b)
    (hc : (net a).transport.connections c = some h) (he : (net a).conns h = some e)
    (hf : (net b).endAt c = some f) (ha : f.Alive) (hrefused : refused a c = 0)
    (hall : ∀ m ∈ e.outbox.transported, m ∈ hist b c) (hpolled : f.conn.inboundRx.queue = []) :
    f.taken = e.sent ∧ f.conn.inboundOpen.log.map f.idOf = (requests e.sent).map some ∧
      ∀ k sub k' sub', f.substreams k = some sub → sub.inboundRx.rxAlive = true →
        e.substreams k' = some sub' → sub'.closed = false →
        sub'.substreamId = sub.substreamId → sub.inboundRx.log = accepted a h k' ops as := by
  have hend := hi.ends hc he
  obtain ⟨_, _, _, hendf⟩ := hi.endInv hf
  have hne : e.conn.remoteRecipient ≠ a :=
    Linked.remote hdial hab hend.linked hendf.linked ▸ Ne.symm hab
  have hne' : f.conn.remoteRecipient ≠ b :=
    Linked.remote hdial (Ne.symm hab) hendf.linked hend.linked ▸ hab
  -- every message was delivered, so every message was handed over
  have htaken : f.taken = e.sent := by
    have hat := Node.endAt_eq_some_iff.mpr ⟨h, hc, he⟩
    have hlog : f.conn.inboundRx.log = e.sent := by
      refine (hi.handed_all_iff hdial hh hab hat hf ha).mpr fun i h1 hle => ?_
      have hend₀ : EndInv ops as a c h 0 e := hrefused ▸ hend
      obtain ⟨m, hm, hkey⟩ := hend₀.exists_nonce h1 hle
      exact ⟨m, hall m hm, hkey⟩
    rw [Chan.log, hpolled, List.append_nil] at hlog
    exact hlog
  have hledger := hendf.ledger hne'
  refine ⟨htaken, ?_, fun k sub k' sub' hk hrx hk' hopen hid => ?_⟩
  · rw [hledger.opens ha, htaken]
  · -- the substream is registered, as its close was not sent
    have hclose : ⟨sub.substreamId, .close⟩ ∉ f.taken := by
      rw [htaken, ← hid]
      exact (hend.ledger hne).closed k' sub' hk' hopen
    have hreg := (hledger.registered ha sub.substreamId).mpr ⟨hledger.known k sub hk, hclose⟩
    obtain ⟨j, hj⟩ := Option.ne_none_iff_exists'.mp hreg
    obtain ⟨sub₁, hsub₁, hid₁⟩ := hendf.wf.registered _ j hj
    obtain rfl : j = k := hledger.unique j k sub₁ sub hsub₁ hk hid₁
    rw [hledger.allChunks j sub hk hrx hj, htaken]
    exact (hend.written hne).each k' sub.substreamId (by rw [idOf, hk', Option.map_some, hid])

/-- **Complete delivery.**  In every run of any number of transports with fresh ids and fewer than
`2 ^ 64 - 1` operations: when every message that one end of a connection has sent was delivered, in
any order and any number of times, no close was refused there, and the other end, at another
transport, has polled what it was handed, then the other end has seen all messages in order.  It has
every substream that was opened, and each substream that neither side has closed or dropped has got
all that was accepted by the substream with its id at the sending end. -/
theorem complete_delivery (ht : t.RoundTrips) (hdial : (dialed ops).Nodup)
    (hgen : (generated ops).Nodup) (hlen : ops.length < 2 ^ 64 - 1)
    (hrun : run (step t) (new peerIds) ops = .ok (net, as)) {a b : R} {c : ConnectionId} {h : ℕ}
    {e f : Endpoint P R} (hab : a ≠ b) (hc : (net a).transport.connections c = some h)
    (he : (net a).conns h = some e) (hf : (net b).endAt c = some f) (ha : f.Alive)
    (hrefused : count (refusesAt a c) (step t) (new peerIds) ops = 0)
    (hall : ∀ m ∈ e.outbox.transported, m ∈ delivered t peerIds b c ops)
    (hpolled : f.conn.inboundRx.queue = []) :
    f.taken = e.sent ∧ f.conn.inboundOpen.log.map f.idOf = (requests e.sent).map some ∧
      ∀ k sub k' sub', f.substreams k = some sub → sub.inboundRx.rxAlive = true →
        e.substreams k' = some sub' → sub'.closed = false →
        sub'.substreamId = sub.substreamId → sub.inboundRx.log = accepted a h k' ops as := by
  have hspare : Always (fun xs _ net => Spared t peerIds xs net) (step t) (new peerIds) _ :=
    spared_of_length ht hlen
  exact (inv_run ht hdial hgen hspare hrun).complete hdial (handed_run ht hdial hgen hspare hrun)
    hab hc he hf ha hrefused hall hpolled

end

set_option maxRecDepth 2000 in
/-- Both buffers have reached the substream. -/
theorem complete_delivery_sampleTalk : ∃ net as e f sub,
    run (step .raw) (new samplePeers) sampleTalk = .ok (net, as) ∧
      (net (.fill 1)).conns 0 = some e ∧ (net (.fill 2)).endAt ⟨.fill 5⟩ = some f ∧
      f.taken = e.sent ∧ f.substreams 0 = some sub ∧
      sub.inboundRx.log = accepted (.fill 1) 0 0 sampleTalk as ∧ sub.inboundRx.log ≠ [] := by
  have hstate : ∃ net as e f sub sub',
      run (step .raw) (new samplePeers) sampleTalk = .ok (net, as) ∧
      (net (.fill 1)).transport.connections ⟨.fill 5⟩ = some 0 ∧ (net (.fill 1)).conns 0 = some e ∧
      (net (.fill 2)).endAt ⟨.fill 5⟩ = some f ∧ f.Alive ∧ f.conn.inboundRx.queue = [] ∧
      e.outbox.transported = [⟨1, ⟨⟨.fill 6⟩, .openRequest⟩, ⟨.fill 5⟩⟩,
        ⟨2, ⟨⟨.fill 6⟩, .data [1]⟩, ⟨.fill 5⟩⟩, ⟨3, ⟨⟨.fill 6⟩, .data [2]⟩, ⟨.fill 5⟩⟩] ∧
      f.substreams 0 = some sub ∧ sub.inboundRx.rxAlive = true ∧ e.substreams 0 = some sub' ∧
      sub'.closed = false ∧ sub'.substreamId = sub.substreamId ∧ sub.inboundRx.log = [[1], [2]] :=
    ⟨_, _, _, _, _, _, rfl, rfl, rfl, rfl, rfl, rfl, rfl, rfl, rfl, rfl, rfl, rfl, rfl⟩
  obtain ⟨net, as, e, f, sub, sub', hrun, hc, he, hf, ha, hq, hsent, hsub, hrx, hsub', hopen, hid,
    hlog⟩ := hstate
  have hdelivered : delivered .raw samplePeers (.fill 2) ⟨.fill 5⟩ sampleTalk
      = [⟨3, ⟨⟨.fill 6⟩, .data [2]⟩, ⟨.fill 5⟩⟩, ⟨2, ⟨⟨.fill 6⟩, .data [1]⟩, ⟨.fill 5⟩⟩,
        ⟨2, ⟨⟨.fill 6⟩, .data [1]⟩, ⟨.fill 5⟩⟩, ⟨1, ⟨⟨.fill 6⟩, .openRequest⟩, ⟨.fill 5⟩⟩] := rfl
  obtain ⟨htaken, -, hdata⟩ := complete_delivery ThirdParty.raw_roundTrips (by decide) (by decide)
    (by decide) hrun (by decide) hc he hf ha rfl (by rw [hsent, hdelivered]; simp) hq
  refine ⟨net, as, e, f, sub, hrun, he, hf, htaken, hsub,
    hdata 0 sub 0 sub' hsub hrx hsub' hopen hid, ?_⟩
  rw [hlog]
  exact List.cons_ne_nil _ _

end Libp2pNym.Network
