import Mathlib.Logic.Function.Basic
import Mathlib.Tactic.Common

/-!
# Maps from keys to values

A map is the function that looks a key up; inserting and removing are pointwise updates.
-/

/-- A map from `K` to `V`, as its lookup function. -/
abbrev KeyMap (K V : Type) := K → Option V

namespace KeyMap

variable {K V : Type}

def empty : KeyMap K V := fun _ => none

@[simp] theorem empty_apply (k : K) : (empty : KeyMap K V) k = none := rfl

variable [DecidableEq K]

/-- Insert or replace the value at `k`. -/
def insert (m : KeyMap K V) (k : K) (v : V) : KeyMap K V := Function.update m k (some v)

/-- Remove the value at `k`, if any. -/
def remove (m : KeyMap K V) (k : K) : KeyMap K V := Function.update m k none

/-- Apply `f` to the value at `k`, if any. -/
def modify (m : KeyMap K V) (k : K) (f : V → V) : KeyMap K V := Function.update m k ((m k).map f)

theorem insert_apply (m : KeyMap K V) (k : K) (v : V) (j : K) :
    m.insert k v j = if j = k then some v else m j := by
  simp only [insert, Function.update_apply]

theorem remove_apply (m : KeyMap K V) (k : K) (j : K) :
    m.remove k j = if j = k then none else m j := by
  simp only [remove, Function.update_apply]

theorem modify_apply (m : KeyMap K V) (k : K) (f : V → V) (j : K) :
    m.modify k f j = if j = k then (m k).map f else m j := by
  simp only [modify, Function.update_apply]

@[simp] theorem insert_self (m : KeyMap K V) (k : K) (v : V) : m.insert k v k = some v := by
  simp only [insert_apply, ↓reduceIte]

@[simp] theorem remove_self (m : KeyMap K V) (k : K) : m.remove k k = none := by
  simp only [remove_apply, ↓reduceIte]

theorem insert_of_ne (m : KeyMap K V) {k j : K} (v : V) (h : j ≠ k) : m.insert k v j = m j := by
  simp only [insert_apply, h, ↓reduceIte]

theorem remove_of_ne (m : KeyMap K V) {k j : K} (h : j ≠ k) : m.remove k j = m j := by
  simp only [remove_apply, h, ↓reduceIte]

/-- A value after an insertion is the new one, or it was there before. -/
theorem insert_eq_some_iff {m : KeyMap K V} {k j : K} {v w : V} :
    m.insert k v j = some w ↔ j = k ∧ v = w ∨ j ≠ k ∧ m j = some w := by
  rw [insert_apply]
  split_ifs with hj <;> simp [hj]

theorem insert_eq_none_iff {m : KeyMap K V} {k j : K} {v : V} :
    m.insert k v j = none ↔ j ≠ k ∧ m j = none := by
  rw [insert_apply]
  split_ifs with hj <;> simp [hj]

theorem remove_eq_some_iff {m : KeyMap K V} {k j : K} {w : V} :
    m.remove k j = some w ↔ j ≠ k ∧ m j = some w := by
  rw [remove_apply]
  split_ifs with hj <;> simp [hj]

theorem modify_eq_insert (m : KeyMap K V) {k : K} {v : V} (f : V → V) (h : m k = some v) :
    m.modify k f = m.insert k (f v) := by
  simp only [modify, insert, h, Option.map_some]

theorem insert_eq_self (m : KeyMap K V) {k : K} {v : V} (h : m k = some v) : m.insert k v = m := by
  rw [insert, ← h, Function.update_eq_self]

@[simp] theorem insert_insert (m : KeyMap K V) (k : K) (v w : V) :
    (m.insert k v).insert k w = m.insert k w := Function.update_idem ..

end KeyMap
