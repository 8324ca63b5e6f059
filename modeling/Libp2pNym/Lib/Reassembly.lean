import Mathlib.Algebra.Order.Ring.Nat
import Mathlib.Data.List.Nodup
import Mathlib.Data.List.Perm.Subperm
import Mathlib.Order.Bounds.Basic

/-!
# Putting a sequence back in order

Values with a key from 1 on arrive in any order and with repetitions.  A receiver passes on, in
order, the first arrivals with the keys `1, ..., k` and holds back the first arrivals with greater
keys; `Holds key hist k log waits` says that it has done so with the history `hist`.

The lemmas say how a new arrival and the release of a value that waits change this, and that once
nothing waits with the key `k + 1`, `k` is the greatest number such that `1, ..., k` have all
arrived.
-/

namespace Reassembly

variable {α : Type} (key : α → ℕ)

/-- The first arrival with the key `n`. -/
def first (hist : List α) (n : ℕ) : Option α := hist.find? fun m => key m = n

variable {key} {hist : List α} {m : α} {n : ℕ}

theorem key_of_first (h : first key hist n = some m) : key m = n := by
  simpa using List.find?_some h

theorem mem_of_first (h : first key hist n = some m) : m ∈ hist := List.mem_of_find?_eq_some h

theorem first_eq_none_iff : first key hist n = none ↔ ∀ m ∈ hist, key m ≠ n := by
  simp [first]

theorem first_snoc (hist : List α) (m : α) (n : ℕ) :
    first key (hist ++ [m]) n = (first key hist n).or (if key m = n then some m else none) := by
  unfold first
  rw [List.find?_append, List.find?_singleton]
  by_cases h : key m = n <;> simp [h]

/-- Another key, or a key that has arrived before. -/
theorem first_snoc_of_old (hist : List α) (m : α) {n : ℕ}
    (h : key m ≠ n ∨ first key hist (key m) ≠ none) :
    first key (hist ++ [m]) n = first key hist n := by
  rw [first_snoc]
  by_cases heq : key m = n
  · subst heq
    obtain ⟨m', hm'⟩ := Option.ne_none_iff_exists'.mp (h.resolve_left fun hne => hne rfl)
    rw [hm', Option.some_or]
  · rw [if_neg heq, Option.or_none]

/-- The first arrival with a key stays the first. -/
theorem first_append_of_some {l : List α} (h : first key hist n = some m) :
    first key (hist ++ l) n = some m := by
  unfold first at h ⊢
  rw [List.find?_append, h, Option.some_or]

/-- The values with the keys `1, ..., k` were passed on, and the later ones wait. -/
structure Holds (key : α → ℕ) (hist : List α) (k : ℕ) (log : List α) (waits : α → Prop) :
    Prop where
  log : log.map some = (List.range' 1 k).map (first key hist)
  waits : ∀ m, waits m ↔ first key hist (key m) = some m ∧ k < key m

variable {k : ℕ} {log : List α} {waits : α → Prop}

theorem holds_nil (key : α → ℕ) : Holds key [] 0 [] fun _ => False :=
  ⟨rfl, fun m => by simp [first]⟩

theorem Holds.congr (h : Holds key hist k log waits) {waits' : α → Prop}
    (heq : ∀ m, waits' m ↔ waits m) : Holds key hist k log waits' :=
  ⟨h.log, fun m => (heq m).trans (h.waits m)⟩

theorem Holds.first_ne_none (h : Holds key hist k log waits) (h1 : 1 ≤ n) (hk : n ≤ k) :
    first key hist n ≠ none := by
  intro hn
  have hm : first key hist n ∈ log.map some := by
    rw [h.log]
    exact List.mem_map_of_mem (List.mem_range'_1.mpr (by omega))
  rw [hn] at hm
  simp at hm

/-- What was passed on does not depend on what arrives later. -/
theorem map_first_append (h : log.map some = (List.range' 1 k).map (first key hist)) (l : List α) :
    log.map some = (List.range' 1 k).map (first key (hist ++ l)) := by
  rw [h]
  refine List.map_congr_left fun n hn => ?_
  have hm : first key hist n ∈ log.map some := by
    rw [h]
    exact List.mem_map_of_mem hn
  obtain ⟨m, -, hm⟩ := List.mem_map.mp hm
  rw [← hm, first_append_of_some hm.symm]

/-- The keys of the first arrivals are those they were looked up with. -/
theorem keys_of_first (h : log.map some = (List.range' 1 k).map (first key hist)) :
    log.map key = List.range' 1 k := by
  have hlen : log.length = k := by
    have := congrArg List.length h
    simpa using this
  refine List.ext_getElem (by simp [hlen]) fun i hi _ => ?_
  rw [List.length_map] at hi
  have hi' := congrArg (·[i]?) h
  simp only [List.getElem?_map, List.getElem?_eq_getElem hi, Option.map_some] at hi'
  rw [List.getElem?_eq_getElem (by simp; omega), Option.map_some, Option.some.injEq] at hi'
  rw [List.getElem_map]
  exact key_of_first hi'.symm

/-- The values with the keys `1, ..., k` have all arrived. -/
theorem Holds.arrived (h : Holds key hist k log waits) (h1 : 1 ≤ n) (hk : n ≤ k) :
    ∃ m ∈ hist, key m = n := by
  obtain ⟨m, hm⟩ := Option.ne_none_iff_exists'.mp (h.first_ne_none h1 hk)
  exact ⟨m, mem_of_first hm, key_of_first hm⟩

/-- No more keys have arrived than values. -/
theorem le_length_of_arrived (h : ∀ n, 1 ≤ n → n ≤ k → ∃ m ∈ hist, key m = n) :
    k ≤ hist.length := by
  have hsub : List.range' 1 k ⊆ hist.map key := by
    intro n hn
    rw [List.mem_range'_1] at hn
    obtain ⟨m, hm, rfl⟩ := h n (by omega) (by omega)
    exact List.mem_map_of_mem hm
  have hle := (List.subperm_of_subset List.nodup_range' hsub).length_le
  rwa [List.length_range', List.length_map] at hle

/-- An arrival whose key was passed on or waits changes nothing. -/
theorem Holds.push_old (h : Holds key hist k log waits) (hold : first key hist (key m) ≠ none) :
    Holds key (hist ++ [m]) k log waits := by
  constructor
  · rw [h.log]
    exact List.map_congr_left fun n _ => (first_snoc_of_old hist m (Or.inr hold)).symm
  · intro m'
    rw [h.waits, first_snoc_of_old hist m (Or.inr hold)]

/-- A new key beyond `k` waits. -/
theorem Holds.push_new (h : Holds key hist k log waits) (hnew : first key hist (key m) = none)
    (hk : k < key m) : Holds key (hist ++ [m]) k log fun m' => waits m' ∨ m' = m := by
  constructor
  · rw [h.log]
    refine List.map_congr_left fun n hn => (first_snoc_of_old hist m (Or.inl ?_)).symm
    rw [List.mem_range'_1] at hn
    omega
  · intro m'
    rw [h.waits, first_snoc]
    by_cases heq : key m = key m'
    · rw [← heq, hnew, Option.none_or, if_pos rfl]
      constructor
      · rintro (⟨hn, -⟩ | rfl)
        · cases hn
        · exact ⟨rfl, hk⟩
      · rintro ⟨hm, -⟩
        cases hm
        exact Or.inr rfl
    · rw [if_neg heq, Option.or_none]
      refine ⟨fun hor => hor.resolve_right fun hm => heq (by rw [hm]), Or.inl⟩

/-- The value with the key `k + 1` is passed on. -/
theorem Holds.pass (h : Holds key hist k log waits) (hm : first key hist (k + 1) = some m) :
    Holds key hist (k + 1) (log ++ [m]) fun m' => waits m' ∧ m' ≠ m := by
  constructor
  · rw [List.map_append, h.log, List.range'_concat, List.map_append, List.map_singleton,
      List.map_singleton, Nat.one_mul, Nat.add_comm 1 k, hm]
  · intro m'
    rw [h.waits]
    constructor
    · rintro ⟨⟨hf, hk⟩, hne⟩
      refine ⟨hf, lt_of_le_of_ne hk fun heq => hne ?_⟩
      rw [← heq, hm] at hf
      cases hf
      rfl
    · rintro ⟨hf, hk⟩
      refine ⟨⟨hf, by omega⟩, ?_⟩
      rintro rfl
      rw [key_of_first hm] at hk
      omega

/-- Once nothing waits with the key `k + 1`, no value with this key has arrived. -/
theorem Holds.first_eq_none (h : Holds key hist k log waits)
    (hgap : ∀ m, waits m → key m ≠ k + 1) : first key hist (k + 1) = none := by
  cases hf : first key hist (k + 1) with
  | none => rfl
  | some m =>
    have hk := key_of_first hf
    refine absurd hk (hgap m ((h.waits m).mpr ⟨?_, by omega⟩))
    rw [hk, hf]

/-- **`k` is the greatest number such that `1, ..., k` have all arrived**, once nothing waits with
the key `k + 1`. -/
theorem Holds.isGreatest (h : Holds key hist k log waits) (hgap : ∀ m, waits m → key m ≠ k + 1) :
    IsGreatest {k | ∀ n, 1 ≤ n → n ≤ k → ∃ m ∈ hist, key m = n} k := by
  have harrived : ∀ n, (∃ m ∈ hist, key m = n) ↔ first key hist n ≠ none := by
    intro n
    rw [ne_eq, first_eq_none_iff]
    push Not
    rfl
  constructor
  · intro n h1 hk
    rw [harrived]
    exact h.first_ne_none h1 hk
  · intro j hj
    by_contra hlt
    have := hj (k + 1) (by omega) (by omega)
    rw [harrived] at this
    exact this (h.first_eq_none hgap)

/-! ### Values that were sent in the order of their keys -/

theorem prefix_of_keys_from {sent log : List α} {j : ℕ} (hge : ∀ m ∈ sent, j ≤ key m)
    (hsorted : sent.Pairwise fun m m' => key m < key m') (hsub : log ⊆ sent)
    (hkeys : log.map key = List.range' j log.length) : log <+: sent := by
  induction log generalizing sent j with
  | nil => exact List.nil_prefix
  | cons x log ih =>
    rw [List.map_cons, List.length_cons, List.range'_succ, List.cons.injEq] at hkeys
    obtain ⟨hx, hkeys⟩ := hkeys
    have hmem := hsub List.mem_cons_self
    cases sent with
    | nil => cases hmem
    | cons y sent =>
      obtain ⟨hlt, hrest⟩ := List.pairwise_cons.mp hsorted
      -- the least key there is comes first
      obtain rfl : x = y := by
        rcases List.mem_cons.mp hmem with heq | hmem
        · exact heq
        · have h1 := hlt x hmem
          have h2 := hge y List.mem_cons_self
          omega
      refine List.prefix_cons_iff.mpr (Or.inr ⟨log, rfl, ih (j := j + 1) ?_ hrest ?_ hkeys⟩)
      · intro m hm
        have := hlt m hm
        omega
      · intro m hm
        refine (List.mem_cons.mp (hsub (List.mem_cons_of_mem x hm))).resolve_left ?_
        rintro rfl
        have : key m ∈ List.range' (j + 1) log.length := by
          rw [← hkeys]
          exact List.mem_map_of_mem hm
        rw [List.mem_range'_1] at this
        omega

/-- **What was put back in order is what was sent first**: if the values were sent with increasing
keys from 1 on, possibly with gaps, the first arrivals with the keys `1, ..., k` are a prefix of
them. -/
theorem prefix_of_first {sent : List α} (hpos : ∀ m ∈ sent, 1 ≤ key m)
    (hsorted : sent.Pairwise fun m m' => key m < key m') (hsub : hist ⊆ sent)
    (hlog : log.map some = (List.range' 1 k).map (first key hist)) : log <+: sent := by
  have hkeys := keys_of_first hlog
  have hlen : log.length = k := by
    have := congrArg List.length hkeys
    simpa using this
  refine prefix_of_keys_from hpos hsorted (fun m hm => ?_) (hlen ▸ hkeys)
  have hm' : some m ∈ log.map some := List.mem_map_of_mem hm
  rw [hlog] at hm'
  obtain ⟨n, -, hn⟩ := List.mem_map.mp hm'
  exact hsub (mem_of_first hn)

/-- As many values were passed on as have arrived without a gap. -/
theorem Holds.eq_take {sent : List α} (h : Holds key hist k log waits)
    (hpos : ∀ m ∈ sent, 1 ≤ key m) (hsorted : sent.Pairwise fun m m' => key m < key m')
    (hsub : hist ⊆ sent) : log = sent.take k := by
  have hlen : log.length = k := by
    have := congrArg List.length (keys_of_first h.log)
    simpa using this
  rw [← hlen]
  exact List.prefix_iff_eq_take.mp (prefix_of_first hpos hsorted hsub h.log)

/-- Values with increasing keys from 1 to their number have all these keys. -/
theorem exists_key {sent : List α} (hsorted : sent.Pairwise fun m m' => key m < key m')
    (hbounds : ∀ m ∈ sent, 1 ≤ key m ∧ key m ≤ sent.length) (h1 : 1 ≤ n) (hn : n ≤ sent.length) :
    ∃ m ∈ sent, key m = n := by
  have hnodup : (sent.map key).Nodup :=
    List.pairwise_map.mpr (hsorted.imp fun hlt => Nat.ne_of_lt hlt)
  have hsub : sent.map key ⊆ List.range' 1 sent.length := by
    intro i hi
    obtain ⟨m, hm, rfl⟩ := List.mem_map.mp hi
    obtain ⟨hge, hle⟩ := hbounds m hm
    exact List.mem_range'_1.mpr (by omega)
  have hperm : (sent.map key).Perm (List.range' 1 sent.length) :=
    (List.subperm_of_subset hnodup hsub).perm_of_length_le (by simp)
  exact List.mem_map.mp (hperm.mem_iff.mpr (List.mem_range'_1.mpr (by omega)))

end Reassembly
