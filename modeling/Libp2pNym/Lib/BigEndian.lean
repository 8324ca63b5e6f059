import Mathlib.Algebra.Order.Ring.Nat
import Mathlib.Data.List.Induction
import Mathlib.Tactic.Common

/-!
# Big-endian bytes

`beBytes k n` is the last `k` base-256 digits of `n`, most significant first, and `ofBeBytes`
reads such digits back.  On `k` bytes the two are inverse to each other, below `256 ^ k`.
-/

namespace BigEndian

/-- The `k` lowest bytes of `n`, most significant first. -/
def beBytes : ℕ → ℕ → List UInt8
  | 0, _ => []
  | k + 1, n => beBytes k (n / 256) ++ [UInt8.ofNat n]

/-- The number whose big-endian bytes are `l`. -/
def ofBeBytes (l : List UInt8) : ℕ := l.foldl (fun acc b => acc * 256 + b.toNat) 0

@[simp] theorem length_beBytes (k n : ℕ) : (beBytes k n).length = k := by
  induction k generalizing n with
  | zero => rfl
  | succ k ih => rw [beBytes, List.length_append, ih, List.length_singleton]

theorem ofBeBytes_append_singleton (l : List UInt8) (b : UInt8) :
    ofBeBytes (l ++ [b]) = ofBeBytes l * 256 + b.toNat := by
  simp only [ofBeBytes, List.foldl_append, List.foldl_cons, List.foldl_nil]

/-- **Reading the bytes back** gives the number modulo `256 ^ k`. -/
theorem ofBeBytes_beBytes (k n : ℕ) : ofBeBytes (beBytes k n) = n % 256 ^ k := by
  induction k generalizing n with
  | zero => rw [beBytes, Nat.pow_zero, Nat.mod_one]; rfl
  | succ k ih =>
    have hb : (UInt8.ofNat n).toNat = n % 256 := UInt8.toNat_ofNat'
    rw [beBytes, ofBeBytes_append_singleton, ih, hb, Nat.pow_succ', Nat.mod_mul]
    omega

theorem ofBeBytes_lt (l : List UInt8) : ofBeBytes l < 256 ^ l.length := by
  induction l using List.reverseRecOn with
  | nil => exact Nat.one_pos
  | append_singleton l b ih =>
    have hb := b.toNat_lt
    rw [ofBeBytes_append_singleton, List.length_append, List.length_singleton, Nat.pow_succ]
    omega

/-- **Every list of bytes is the big-endian form of the number it stands for.** -/
theorem beBytes_ofBeBytes (l : List UInt8) : beBytes l.length (ofBeBytes l) = l := by
  induction l using List.reverseRecOn with
  | nil => rfl
  | append_singleton l b ih =>
    have hb := b.toNat_lt
    have hdiv : (ofBeBytes l * 256 + b.toNat) / 256 = ofBeBytes l := by omega
    have hlast : UInt8.ofNat (ofBeBytes l * 256 + b.toNat) = b := by
      apply UInt8.toNat_inj.mp
      rw [UInt8.toNat_ofNat']
      omega
    rw [ofBeBytes_append_singleton, List.length_append, List.length_singleton, beBytes, hdiv, ih,
      hlast]

end BigEndian
