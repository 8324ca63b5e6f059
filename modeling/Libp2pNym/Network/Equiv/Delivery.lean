import Libp2pNym.Network.Equiv.Invariant

/-!
# Ordered delivery from one transport to another

`ordered_delivery`: in every run with fresh ids in which no counter wraps, the chunks that reached a
substream are a prefix of the buffers that were accepted by the substream with the same id at the
other end.
-/

namespace Libp2pNym.Network

open StepRun Endpoint

variable {P R : Type} [DecidableEq R]

section

variable {t : ThirdParty P R} {peerIds : R → P} {ops : List (Op P R)} {as : List (Answer P)}
  {net : Network P R}

/-- What every substream was sent: for each two ends of a connection the chunks that reached a
substream of the one are a prefix of the buffers accepted by the substream with its id at the other,
and there are none if the other has no such substream. -/
def InOrder (ops : List (Op P R)) (as : List (Answer P)) (net : Network P R) : Prop :=
  ∀ a b c h e f, a ≠ b → (net a).transport.connections c = some h → (net a).conns h = some e →
    (net b).endAt c = some f → ∀ k sub, f.substreams k = some sub →
      (∀ k' sub', e.substreams k' = some sub' → sub'.substreamId = sub.substreamId →
        sub.inboundRx.log <+: accepted a h k' ops as) ∧
      ((∀ k' sub', e.substreams k' = some sub' → sub'.substreamId ≠ sub.substreamId) →
        sub.inboundRx.log = [])

theorem Inv.inOrder {refused : R → ConnectionId → ℕ} (hi : Inv ops as refused net)
    (hdial : (dialed ops).Nodup) : InOrder ops as net := by
  intro a b c h e f hab hc he hf k sub hk
  have hend := hi.ends hc he
  obtain ⟨h', hc', hh', hendf⟩ := hi.endInv hf
  have hremote : e.conn.remoteRecipient = b := Linked.remote hdial hab hend.linked hendf.linked
  have hremote' : f.conn.remoteRecipient = a :=
    Linked.remote hdial (Ne.symm hab) hendf.linked hend.linked
  have hne : e.conn.remoteRecipient ≠ a := hremote ▸ Ne.symm hab
  have hne' : f.conn.remoteRecipient ≠ b := hremote' ▸ hab
  -- the chunks are data that was taken, and what was taken the other end has sent
  obtain ⟨e₀, heq, hl, hj, -⟩ := hi.joined hdial hf hne'
  obtain rfl : e₀ = e := heq e (hremote' ▸ Node.endAt_eq_some_iff.mpr ⟨h, hc, he⟩)
  have hchunks : sub.inboundRx.log <+: dataOf sub.substreamId e₀.sent :=
    ((hendf.ledger hne').chunks k sub hk).trans ((hj.hears hl).taken.filterMap _)
  have hwritten := hend.written hne
  refine ⟨fun k' sub' hk' hid => ?_, fun hnone => ?_⟩
  · rw [← hwritten.each k' sub.substreamId (by rw [idOf, hk', Option.map_some, hid])]
    exact hchunks
  · by_contra hlog
    have hdata : dataOf sub.substreamId e₀.sent ≠ [] := by
      intro h0
      rw [h0, List.prefix_nil] at hchunks
      exact hlog hchunks
    obtain ⟨k', hk'⟩ := hwritten.known _ hdata
    obtain ⟨sub', hsub', hid⟩ := Option.map_eq_some_iff.mp hk'
    exact hnone k' sub' hsub' hid

/-- **Ordered delivery**: in every run with fresh ids in which the messages sent and the closes
refused on each end of each connection number fewer than `2^64 - 1`, what reaches a substream is at
every time a prefix of what was accepted by the substream with the same id at the other end. -/
theorem ordered_delivery (ht : t.RoundTrips) (hdial : (dialed ops).Nodup)
    (hgen : (generated ops).Nodup)
    (hspare : Always (fun xs _ net => Spared t peerIds xs net) (step t) (new peerIds) ops) :
    Always InOrder (step t) (new peerIds) ops := by
  rintro xs ⟨ys, rfl⟩ net as hr
  have hd := nodup_dialed_of_append hdial
  have hg := nodup_generated_of_append hgen
  exact (inv_run ht hd hg hspare.of_append hr).inOrder hd

end

/-! ### A call -/

/-- The peer ids of two transports. -/
def samplePeers : RawRecipient → RawPeerId := fun a => if a = .fill 1 then .fill 3 else .fill 4

/-- The first transport dials the second, and the request and the response are delivered. -/
def sampleCall : List (Op RawPeerId RawRecipient) :=
  [.node (.fill 1) (.dial (.fill 2) ⟨.fill 5⟩), .node (.fill 1) (.pollDial 0 false),
    .deliver (.fill 1) none 0, .deliver (.fill 2) none 0]

/-- Two buffers are written, and the messages come in the wrong order and twice. -/
def sampleTalk : List (Op RawPeerId RawRecipient) := sampleCall ++
  [.conn (.fill 1) 0 (.pollOutbound ⟨.fill 6⟩), .conn (.fill 1) 0 (.write 0 [1]),
    .conn (.fill 1) 0 (.write 0 [2]), .deliver (.fill 1) (some 0) 2, .deliver (.fill 1) (some 0) 1,
    .deliver (.fill 1) (some 0) 1, .deliver (.fill 1) (some 0) 0, .conn (.fill 2) 0 .poll]

set_option maxRecDepth 2000 in
/-- Both buffers reach the second transport, in order. -/
theorem inOrder_sampleTalk :
    Always InOrder (step .raw) (new samplePeers) sampleTalk ∧
      ∃ net as e sub, run (step .raw) (new samplePeers) sampleTalk = .ok (net, as) ∧
        (net (.fill 2)).endAt ⟨.fill 5⟩ = some e ∧ e.substreams 0 = some sub ∧
        sub.inboundRx.log = [[1], [2]] ∧ accepted (.fill 1) 0 0 sampleTalk as = [[1], [2]] :=
  ⟨ordered_delivery ThirdParty.raw_roundTrips (by decide) (by decide)
      (spared_of_length ThirdParty.raw_roundTrips (by decide)),
    _, _, _, _, rfl, rfl, rfl, rfl, rfl⟩

/-! ### A counter that wraps -/

section

variable {t : ThirdParty P R} {net : Network P R} {a : R} {h k : ℕ} {e : Endpoint P R}
  {sub : Substream R}

/-- The counter of the endpoint `e` of the transport `a` was set. -/
def recounted (net : Network P R) (a : R) (h : ℕ) (e : Endpoint P R) (nonce : UInt64) :
    Network P R :=
  Function.update net a
    { net a with conns := (net a).conns.insert h { e with outbox.messageNonce := nonce } }

theorem step_refused (he : (net a).conns h = some e) (hh : e.held k = some sub)
    (hc : sub.closed = true) : step t net (.conn a h (.close k))
      = .ok (net.recounted a h e (e.outbox.messageNonce + 1),
        .conn (.close (.ready (.error streamClosed)))) := by
  have hstep : e.step (.close k) = .ok (e.drawn, .close (.ready (.error streamClosed))) := by
    have hput : e.put k sub = e := put_self (held_eq_some_iff.mp hh).1
    simp only [Endpoint.step, hh, Substream.pollClose, hc, ↓reduceIte]
    rw [hput]
    rfl
  show stepConn net a h (.close k) = _
  simp only [stepConn, he, hstep]
  rfl

theorem accepted_replicate {o : Op P R} {r : Answer P} {i : ℕ} (hnone : acceptedAt a h i o r = [])
    {n : ℕ} : accepted a h i (List.replicate n o) (List.replicate n r) = [] := by
  induction n with
  | zero => rfl
  | succ n ih =>
    rw [List.replicate_succ, List.replicate_succ, accepted, List.zip_cons_cons, List.flatMap_cons,
      hnone]
    exact ih

/-- Refused closes move the counter and do nothing else. -/
theorem run_refused (he : (net a).conns h = some e) (hh : e.held k = some sub)
    (hc : sub.closed = true) (n : ℕ) :
    run (step t) net (List.replicate n (.conn a h (.close k)))
        = .ok (net.recounted a h e (e.outbox.messageNonce + UInt64.ofNat n),
          List.replicate n (.conn (.close (.ready (.error streamClosed))))) ∧
      count (fun net o => !refuses net o) (step t) net
        (List.replicate n (.conn a h (.close k))) = 0 := by
  induction n generalizing net e with
  | zero =>
    refine ⟨?_, rfl⟩
    have hsame : net.recounted a h e (e.outbox.messageNonce + UInt64.ofNat 0) = net := by
      rw [recounted, show UInt64.ofNat 0 = 0 from rfl, UInt64.add_zero,
        KeyMap.insert_eq_self _ he, Function.update_eq_self]
    rw [hsame]
    rfl
  | succ n ih =>
    have hstep := step_refused (t := t) he hh hc
    have hself : (net.recounted a h e (e.outbox.messageNonce + 1) a).conns h
        = some { e with outbox.messageNonce := e.outbox.messageNonce + 1 } := by
      rw [recounted, Function.update_self]
      exact KeyMap.insert_self ..
    obtain ⟨hrun, hcount⟩ := ih hself hh
    have hagain : ∀ nonce, (net.recounted a h e (e.outbox.messageNonce + 1)).recounted a h
        { e with outbox.messageNonce := e.outbox.messageNonce + 1 } nonce
        = net.recounted a h e nonce := by
      intro nonce
      simp only [recounted, Function.update_self, Function.update_idem, KeyMap.insert_insert]
    have hnonce : e.outbox.messageNonce + 1 + UInt64.ofNat n
        = e.outbox.messageNonce + UInt64.ofNat (n + 1) := by
      rw [UInt64.ofNat_add, UInt64.add_assoc, UInt64.add_comm 1]
      rfl
    rw [hagain, hnonce] at hrun
    refine ⟨run_cons_of_ok hstep hrun, ?_⟩
    have hrefuses : refuses net (.conn a h (.close k)) = true := by
      simp only [refuses, he, refusesClose, hh, hc]
    rw [List.replicate_succ, count, hstep]
    dsimp only
    rw [hcount, hrefuses]
    rfl

end

/-- The first transport opens two substreams, writes to the first and closes the second. -/
def sampleOpened : List (Op RawPeerId RawRecipient) := sampleCall ++
  [.conn (.fill 1) 0 (.pollOutbound ⟨.fill 6⟩), .conn (.fill 1) 0 (.write 0 [1]),
    .conn (.fill 1) 0 (.pollOutbound ⟨.fill 7⟩), .conn (.fill 1) 0 (.close 1)]

/-- It writes to the first again, and its first and its last message are delivered. -/
def sampleRewritten : List (Op RawPeerId RawRecipient) :=
  [.conn (.fill 1) 0 (.write 0 [2]), .deliver (.fill 1) (some 0) 0, .deliver (.fill 1) (some 0) 4,
    .conn (.fill 2) 0 .poll]

/-- In between it closes the second again and again, until the counter is back at 2. -/
def sampleWrap : List (Op RawPeerId RawRecipient) :=
  sampleOpened ++ List.replicate (2 ^ 64 - 3) (.conn (.fill 1) 0 (.close 1)) ++ sampleRewritten

set_option maxRecDepth 2000 in
/-- What happens before the counter wraps, and once it is back at 2. -/
theorem sampleWrap_parts : ∃ net₁ as₁ e₁ sub₁ net as e sub f sub',
    run (step .raw) (new samplePeers) sampleOpened = .ok (net₁, as₁) ∧
    (net₁ (.fill 1)).conns 0 = some e₁ ∧ e₁.held 1 = some sub₁ ∧ sub₁.closed = true ∧
    e₁.outbox.messageNonce = 5 ∧ accepted (.fill 1) 0 0 sampleOpened as₁ = [[1]] ∧
    run (step .raw) (net₁.recounted (.fill 1) 0 e₁ 2) sampleRewritten = .ok (net, as) ∧
    (net (.fill 1)).transport.connections ⟨.fill 5⟩ = some 0 ∧ (net (.fill 1)).conns 0 = some e ∧
    e.substreams 0 = some sub ∧ sub.substreamId = ⟨.fill 6⟩ ∧
    (net (.fill 2)).endAt ⟨.fill 5⟩ = some f ∧ f.substreams 0 = some sub' ∧
    sub'.substreamId = ⟨.fill 6⟩ ∧ sub'.inboundRx.log = [[2]] ∧
    accepted (.fill 1) 0 0 sampleRewritten as = [[2]] :=
  ⟨_, _, _, _, _, _, _, _, _, _, rfl, rfl, rfl, rfl, rfl, rfl, rfl, rfl, rfl, rfl, rfl, rfl, rfl,
    rfl, rfl, rfl⟩

/-- **A counter that wraps** breaks the order: the second write carries the nonce 2 of the first,
overtakes it, and is the first to reach the substream, in a run of a dozen messages. -/
theorem not_inOrder_sampleWrap :
    (dialed sampleWrap).Nodup ∧ (generated sampleWrap).Nodup ∧
      ∃ net as, run (step .raw) (new samplePeers) sampleWrap = .ok (net, as) ∧
        (∀ a c e, (net a).endAt c = some e → e.sent.length ≤ 12) ∧ ¬ InOrder sampleWrap as net := by
  obtain ⟨net₁, as₁, e₁, sub₁, net, as, e, sub, f, sub', hr₁, he₁, hh₁, hc₁, hn₁, hacc₁, hr, hc, he,
    hs, hid, hf, hs', hid', hlog, hacc⟩ := sampleWrap_parts
  obtain ⟨hclosed, hcount⟩ := run_refused (t := .raw) he₁ hh₁ hc₁ (2 ^ 64 - 3)
  have hwrap : e₁.outbox.messageNonce + UInt64.ofNat (2 ^ 64 - 3) = 2 := by
    rw [hn₁]
    decide
  rw [hwrap] at hclosed
  have hrun₂ := run_append_iff.mpr ⟨_, _, _, hr₁, hclosed, rfl⟩
  have hrun := run_append_iff.mpr ⟨_, _, _, hrun₂, hr, rfl⟩
  refine ⟨?_, ?_, net, _, hrun, ?_, ?_⟩
  · have hnone : dialed (List.replicate (2 ^ 64 - 3)
        (.conn (.fill 1) 0 (.close 1) : Op RawPeerId RawRecipient)) = [] :=
      List.filterMap_replicate_of_none rfl
    rw [sampleWrap, dialed_append, dialed_append, hnone]
    decide
  · have hnone : generated (List.replicate (2 ^ 64 - 3)
        (.conn (.fill 1) 0 (.close 1) : Op RawPeerId RawRecipient)) = [] :=
      List.filterMap_replicate_of_none rfl
    rw [sampleWrap, generated_append, generated_append, hnone]
    decide
  · -- a refused close sends nothing
    intro a c e' he'
    have hload := load_run ThirdParty.raw_roundTrips hrun he'
    rw [count_append hrun₂, count_append hr₁, hcount, Endpoint.load] at hload
    have h₁ : count (fun net o => !refuses net o) (step .raw) (new samplePeers) sampleOpened ≤ 8 :=
      count_le_length
    have h₂ : count (fun net o => !refuses net o) (step .raw) (net₁.recounted (.fill 1) 0 e₁ 2)
      sampleRewritten ≤ 4 := count_le_length
    omega
  · intro hord
    have hpre :=
      (hord (.fill 1) (.fill 2) ⟨.fill 5⟩ 0 e f (by decide) hc he hf 0 sub' hs').1 0 sub hs
      (hid.trans hid'.symm)
    rw [sampleWrap, accepted_append (length_answers hrun₂), accepted_append (length_answers hr₁),
      accepted_replicate rfl, hacc₁, hacc, hlog] at hpre
    revert hpre
    decide

end Libp2pNym.Network
