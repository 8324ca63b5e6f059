import Libp2pNym.Lib.Reassembly
import Libp2pNym.Queue.Basic

/-!
# The reorder queue puts the messages back in order

`Upto q hist k log` says that the queue `q` of a connection, after the messages `hist` have arrived,
expects the nonce `k + 1` and holds back the first arrivals with greater nonces, the messages `log`
with the nonces `1, ..., k` having been handed out.  `tryPush` and `pop` move it along.
-/

namespace Libp2pNym.MessageQueue

open Reassembly TransportMessage

/-- The messages `log` with the nonces `1, ..., k` were handed out, and the later ones are queued.
-/
structure Upto (q : MessageQueue) (hist : List TransportMessage) (k : ℕ)
    (log : List TransportMessage) : Prop where
  next : q.nextExpectedNonce.toNat = k + 1
  holds : Holds key hist k log (· ∈ q.queue)

/-- The message with the next expected nonce is not in the queue. -/
def Settled (q : MessageQueue) : Prop := ∀ m ∈ q.queue, key m ≠ q.nextExpectedNonce.toNat

/-- The nonces `1, ..., k` that have all arrived leave room in a 64-bit counter. -/
def Room (hist : List TransportMessage) : Prop :=
  ∀ k, (∀ n, 1 ≤ n → n ≤ k → ∃ m ∈ hist, key m = n) → k + 1 < 2 ^ 64

variable {q : MessageQueue} {hist log : List TransportMessage} {k : ℕ} {m : TransportMessage}

theorem Room.mono {hist' : List TransportMessage} (h : Room hist') (hsub : hist ⊆ hist') :
    Room hist := by
  intro k hk
  refine h k fun n h1 hn => ?_
  obtain ⟨m, hm, heq⟩ := hk n h1 hn
  exact ⟨m, hsub hm, heq⟩

theorem room_of_length (h : hist.length + 1 < 2 ^ 64) : Room hist := by
  intro k hk
  have := le_length_of_arrived hk
  omega

theorem toNat_add_one {x : UInt64} (h : x.toNat + 1 < 2 ^ 64) : (x + 1).toNat = x.toNat + 1 := by
  rw [UInt64.toNat_add]
  simp only [UInt64.reduceToNat]
  omega

/-- An arrival beyond `k` is queued, or its nonce was queued before. -/
theorem holds_insert {s : BTreeSet key} (h : Holds key hist k log (· ∈ s)) (hk : k < key m) :
    Holds key (hist ++ [m]) k log (· ∈ (s.insert m).2) := by
  by_cases hnew : first key hist (key m) = none
  · refine (h.push_new hnew hk).congr fun m' => ?_
    rw [BTreeSet.mem_insert]
    refine or_congr Iff.rfl ⟨fun hm => hm.1, fun hm => ⟨hm, fun b hb heq => ?_⟩⟩
    -- a queued message with this nonce would have arrived before
    have hb' := ((h.waits b).mp hb).1
    rw [heq, hnew] at hb'
    cases hb'
  · obtain ⟨b, hb⟩ := Option.ne_none_iff_exists'.mp hnew
    refine (h.push_old hnew).congr fun m' => ?_
    have hkb := key_of_first hb
    have hqueued : b ∈ s := (h.waits b).mpr ⟨by rw [hkb, hb], by omega⟩
    rw [BTreeSet.mem_insert]
    exact ⟨fun hm => hm.resolve_right fun hm => hm.2 b hqueued hkb, Or.inl⟩

/-- A message that comes before the connection is established is queued. -/
theorem tryPush_unestablished (hnext : q.nextExpectedNonce = 0)
    (h : Holds key hist 0 [] (· ∈ q.queue)) (h1 : 1 ≤ key m) :
    (q.tryPush m).1 = none ∧ (q.tryPush m).2.nextExpectedNonce = 0 ∧
      Holds key (hist ++ [m]) 0 [] (· ∈ (q.tryPush m).2.queue) := by
  have hne : m.nonce ≠ q.nextExpectedNonce := by
    rw [hnext]
    intro heq
    rw [key, heq] at h1
    simp at h1
  have hge : ¬ m.nonce < q.nextExpectedNonce := by
    rw [hnext, UInt64.lt_iff_toNat_lt]
    simp
  unfold tryPush
  rw [if_neg hne, if_neg hge]
  exact ⟨rfl, hnext, holds_insert h (by omega)⟩

/-- What `tryPush` does on a queue in which the next message is not waiting: it hands the message
out exactly if it is the next one, and otherwise queues it unless its nonce has arrived before. -/
theorem tryPush_upto (h : q.Upto hist k log) (hs : q.Settled) (h1 : 1 ≤ key m)
    (hroom : Room (hist ++ [m])) :
    ((q.tryPush m).1 = some m ∧ (q.tryPush m).2.Upto (hist ++ [m]) (k + 1) (log ++ [m])) ∨
    ((q.tryPush m).1 = none ∧ (q.tryPush m).2.Upto (hist ++ [m]) k log ∧
      (q.tryPush m).2.Settled) := by
  have hgap : ∀ m, m ∈ q.queue → key m ≠ k + 1 := by
    intro m hm
    rw [← h.next]
    exact hs m hm
  unfold tryPush
  by_cases heq : m.nonce = q.nextExpectedNonce
  · left
    have hkm : key m = k + 1 := by rw [key, heq, h.next]
    have hnone := h.holds.first_eq_none hgap
    have hnew := h.holds.push_new (m := m) (by rw [hkm, hnone]) (by omega)
    have hfirst : first key (hist ++ [m]) (k + 1) = some m := by
      rw [first_snoc, hnone, Option.none_or, if_pos hkm]
    have hpass := hnew.pass hfirst
    have hk := hroom (k + 1) fun n => hpass.arrived
    rw [if_pos heq]
    refine ⟨rfl, ?_, ?_⟩
    · show (q.nextExpectedNonce + 1).toNat = _
      rw [toNat_add_one (by rw [h.next]; omega), h.next]
    · refine hpass.congr fun m' => ?_
      refine ⟨fun hm => ⟨Or.inl hm, fun he => hgap m' hm (he ▸ hkm)⟩, fun hm => ?_⟩
      exact hm.1.resolve_right hm.2
  · right
    have hne : key m ≠ k + 1 := by
      rw [← h.next]
      exact fun he => heq (UInt64.toNat_inj.mp he)
    rw [if_neg heq]
    by_cases hlt : m.nonce < q.nextExpectedNonce
    · have hlt' : key m < k + 1 := by
        rw [← h.next]
        exact UInt64.lt_iff_toNat_lt.mp hlt
      rw [if_pos hlt]
      exact ⟨rfl, ⟨h.next, h.holds.push_old (h.holds.first_ne_none h1 (by omega))⟩, hs⟩
    · have hge : k + 1 ≤ key m := by
        rw [← h.next]
        exact UInt64.le_iff_toNat_le.mp (UInt64.not_lt.mp hlt)
      rw [if_neg hlt]
      refine ⟨rfl, ⟨h.next, holds_insert h.holds (by omega)⟩, fun b hb => ?_⟩
      show key b ≠ q.nextExpectedNonce.toNat
      rw [h.next]
      rcases BTreeSet.mem_insert.mp hb with hb | ⟨rfl, -⟩
      · exact hgap b hb
      · exact hne

/-- What `pop` does: it hands out the next message if it is queued; otherwise nothing is handed out
and nothing that is queued is next. -/
theorem pop_upto (h : q.Upto hist k log) (hroom : Room hist) :
    (∃ m, q.pop.1 = some m ∧ q.pop.2.Upto hist (k + 1) (log ++ [m]) ∧
      q.pop.2.size < q.size) ∨
    (q.pop = (none, q) ∧ q.Settled) := by
  unfold pop
  rcases q.queue.first_cases with ⟨hfirst, hempty⟩ | ⟨m, hfirst, hpop, hm, hmem, hlt⟩
  · right
    rw [hfirst]
    exact ⟨rfl, fun b hb => absurd hb (hempty b)⟩
  · rw [hfirst]
    dsimp only
    have hwaits := (h.holds.waits m).mp hm
    by_cases heq : m.nonce = q.nextExpectedNonce
    · left
      have hkm : key m = k + 1 := by rw [key, heq, h.next]
      have hholds := (h.holds.pass (hkm ▸ hwaits.1)).congr hmem
      have hk := hroom (k + 1) fun n => hholds.arrived
      rw [if_pos heq]
      refine ⟨m, hpop, ⟨?_, hholds⟩, BTreeSet.length_popFirst_lt hfirst⟩
      show (q.nextExpectedNonce + 1).toNat = _
      rw [toNat_add_one (by rw [h.next]; omega), h.next]
    · right
      rw [if_neg heq]
      have hne : key m ≠ k + 1 := by
        rw [← h.next]
        exact fun he => heq (UInt64.toNat_inj.mp he)
      refine ⟨rfl, fun b hb => ?_⟩
      rw [h.next]
      by_cases hbm : b = m
      · rw [hbm]
        exact hne
      · have := hlt b ((hmem b).mpr ⟨hb, hbm⟩)
        omega

/-- Once the connection message is there, the queue expects the nonce 1. -/
theorem upto_zero (hnext : q.nextExpectedNonce = 0) (h : Holds key hist 0 [] (· ∈ q.queue)) :
    { q with nextExpectedNonce := q.nextExpectedNonce + 1 }.Upto hist 0 [] := by
  refine ⟨?_, h⟩
  show (q.nextExpectedNonce + 1).toNat = _
  rw [hnext]
  rfl

end Libp2pNym.MessageQueue
