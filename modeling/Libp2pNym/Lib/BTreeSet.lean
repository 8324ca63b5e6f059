import Mathlib.Algebra.Order.Ring.Nat
import Mathlib.Tactic.Common

/-!
# Ordered sets of values that are compared by a key

`BTreeSet key` holds its elements in strictly ascending order of `key`, so two values with one key
are the same element as far as the set goes: inserting a value whose key is already there changes
nothing and says so.
-/

/-- A set of values of `α` ordered, and told apart, by `key`. -/
structure BTreeSet {α κ : Type} [LinearOrder κ] (key : α → κ) where
  /-- The elements, smallest key first. -/
  elems : List α
  sorted : elems.Pairwise fun a b => key a < key b

namespace BTreeSet

variable {α κ : Type} [LinearOrder κ] {key : α → κ}

instance : Membership α (BTreeSet key) := ⟨fun s a => a ∈ s.elems⟩

theorem mem_def {s : BTreeSet key} {a : α} : a ∈ s ↔ a ∈ s.elems := Iff.rfl

def empty : BTreeSet key where
  elems := []
  sorted := List.Pairwise.nil

@[simp] theorem not_mem_empty (a : α) : a ∉ (empty : BTreeSet key) := by simp [mem_def, empty]

/-- Insert into an ascending list, unless an element with the same key is there. -/
def insertList (key : α → κ) (a : α) : List α → List α
  | [] => [a]
  | b :: l => if key a < key b then a :: b :: l
    else if key a = key b then b :: l
    else b :: insertList key a l

/-- On an ascending list, `insertList` adds `a` unless its key is taken. -/
theorem mem_insertList {a x : α} {l : List α} (hl : l.Pairwise fun a b => key a < key b) :
    x ∈ insertList key a l ↔ x ∈ l ∨ x = a ∧ ∀ b ∈ l, key b ≠ key a := by
  induction l with
  | nil => simp [insertList]
  | cons b l ih =>
    rw [List.pairwise_cons] at hl
    unfold insertList
    split_ifs with h1 h2
    · -- every key of the list is above `key a`
      have hfree : ∀ c ∈ b :: l, key c ≠ key a := by
        intro c hc
        rcases List.mem_cons.mp hc with rfl | hc
        · exact ne_of_gt h1
        · exact ne_of_gt (lt_trans h1 (hl.1 c hc))
      rw [List.mem_cons]
      constructor
      · rintro (rfl | h)
        · exact Or.inr ⟨rfl, hfree⟩
        · exact Or.inl h
      · rintro (h | ⟨rfl, -⟩)
        · exact Or.inr h
        · exact Or.inl rfl
    · constructor
      · exact Or.inl
      · rintro (h | ⟨-, h⟩)
        · exact h
        · exact absurd h2.symm (h b (List.mem_cons_self ..))
    · rw [List.mem_cons, List.mem_cons, ih hl.2]
      constructor
      · rintro (rfl | h | ⟨rfl, h⟩)
        · exact Or.inl (Or.inl rfl)
        · exact Or.inl (Or.inr h)
        · refine Or.inr ⟨rfl, ?_⟩
          intro c hc
          rcases List.mem_cons.mp hc with rfl | hc
          · exact fun he => h2 he.symm
          · exact h c hc
      · rintro ((rfl | h) | ⟨rfl, h⟩)
        · exact Or.inl rfl
        · exact Or.inr (Or.inl h)
        · exact Or.inr (Or.inr ⟨rfl, fun c hc => h c (List.mem_cons_of_mem _ hc)⟩)

theorem sorted_insertList {a : α} {l : List α} (hl : l.Pairwise fun a b => key a < key b) :
    (insertList key a l).Pairwise fun a b => key a < key b := by
  induction l with
  | nil => exact List.pairwise_singleton _ _
  | cons b l ih =>
    have hl' := List.pairwise_cons.mp hl
    unfold insertList
    split_ifs with h1 h2
    · rw [List.pairwise_cons]
      refine ⟨fun c hc => ?_, hl⟩
      rcases List.mem_cons.mp hc with rfl | hc
      · exact h1
      · exact lt_trans h1 (hl'.1 c hc)
    · exact hl
    · rw [List.pairwise_cons]
      refine ⟨fun c hc => ?_, ih hl'.2⟩
      rcases (mem_insertList hl'.2).mp hc with hc | ⟨rfl, -⟩
      · exact hl'.1 c hc
      · exact lt_of_le_of_ne (not_lt.mp h1) (Ne.symm h2)

theorem length_insertList_le (a : α) (l : List α) : (insertList key a l).length ≤ l.length + 1 := by
  induction l with
  | nil => exact Nat.le_refl _
  | cons b l ih =>
    unfold insertList
    split
    · exact Nat.le_refl _
    · split
      · exact Nat.le_succ _
      · exact Nat.succ_le_succ ih

/-- Insert `a`; the answer is `false`, and the set is unchanged, if its key was taken. -/
def insert (s : BTreeSet key) (a : α) : Bool × BTreeSet key :=
  (!s.elems.any fun b => decide (key b = key a),
    { elems := insertList key a s.elems, sorted := sorted_insertList s.sorted })

theorem mem_insert {s : BTreeSet key} {a x : α} :
    x ∈ (s.insert a).2 ↔ x ∈ s ∨ x = a ∧ ∀ b ∈ s, key b ≠ key a :=
  mem_insertList s.sorted

theorem length_insert_le (s : BTreeSet key) (a : α) :
    (s.insert a).2.elems.length ≤ s.elems.length + 1 :=
  length_insertList_le a s.elems

/-- The element with the smallest key. -/
def first (s : BTreeSet key) : Option α := s.elems.head?

/-- Take the element with the smallest key out of the set. -/
def popFirst (s : BTreeSet key) : Option α × BTreeSet key :=
  match s with
  | ⟨[], h⟩ => (none, ⟨[], h⟩)
  | ⟨a :: l, h⟩ => (some a, ⟨l, (List.pairwise_cons.mp h).2⟩)

/-- What `first` and `popFirst` say of a set: either it is empty, or its smallest element is
taken out and everything left lies strictly above it. -/
theorem first_cases (s : BTreeSet key) :
    (s.first = none ∧ ∀ x, x ∉ s) ∨
    ∃ a, s.first = some a ∧ s.popFirst.1 = some a ∧ a ∈ s ∧
      (∀ x, x ∈ s.popFirst.2 ↔ x ∈ s ∧ x ≠ a) ∧ ∀ x ∈ s.popFirst.2, key a < key x := by
  obtain ⟨l, hl⟩ := s
  cases l with
  | nil => exact Or.inl ⟨rfl, fun x hx => by simp [mem_def] at hx⟩
  | cons a l =>
    rw [List.pairwise_cons] at hl
    refine Or.inr ⟨a, rfl, rfl, List.mem_cons_self .., fun x => ?_, hl.1⟩
    simp only [mem_def, popFirst, List.mem_cons]
    constructor
    · intro hx
      exact ⟨Or.inr hx, fun he => absurd (hl.1 x hx) (by rw [he]; exact lt_irrefl _)⟩
    · rintro ⟨rfl | hx, hne⟩
      · exact absurd rfl hne
      · exact hx

theorem length_popFirst_lt {s : BTreeSet key} {a : α} (h : s.first = some a) :
    s.popFirst.2.elems.length < s.elems.length := by
  obtain ⟨l, hl⟩ := s
  cases l with
  | nil => cases h
  | cons b l => exact Nat.lt_succ_self _

end BTreeSet
