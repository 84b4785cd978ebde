import Mathlib.Order.Monotone.Basic
import Mathlib.Algebra.Group.Nat.Defs

/-!
# Counters that only go up, read through a register that wraps

* `toInt_sub_ofNat` : the signed difference of two readings is that of the counts, if these are less than half of the
  register's range apart;
* `sub_ofNat_neg_iff`, `sub_ofNat_eq_one_iff` : so their order and distance can be read off;
* `exists_forall_eq` : a count that is bounded comes to rest.
-/

namespace Lib

section Counter
variable {w a b : Nat}

theorem toInt_sub_ofNat (h : b ≤ a + 2 ^ w) (h' : a < b + 2 ^ w) :
    (BitVec.ofNat (w + 1) a - BitVec.ofNat (w + 1) b).toInt = (a : Int) - b := by
  have hrange : 2 ^ (w + 1) = 2 * 2 ^ w := Nat.pow_succ'
  rw [BitVec.toInt_sub, BitVec.toInt_ofNat', BitVec.toInt_ofNat', Int.bmod_sub_bmod, Int.sub_bmod_bmod]
  apply Int.bmod_eq_of_le_mul_two
  · rw [hrange]
    omega
  · rw [hrange]
    omega

theorem sub_ofNat_neg_iff (h : b ≤ a + 2 ^ w) (h' : a < b + 2 ^ w) :
    (BitVec.ofNat (w + 1) a - BitVec.ofNat (w + 1) b).toInt < 0 ↔ a < b := by
  rw [toInt_sub_ofNat h h']
  omega

theorem sub_ofNat_eq_one_iff (hw : 0 < w) (h : b ≤ a + 2 ^ w) (h' : a < b + 2 ^ w) :
    BitVec.ofNat (w + 1) a - BitVec.ofNat (w + 1) b = 1 ↔ a = b + 1 := by
  have hone : (1 : BitVec (w + 1)).toInt = 1 := BitVec.toInt_one (by omega)
  rw [← BitVec.toInt_inj, toInt_sub_ofNat h h', hone]
  omega

variable {c : Nat → Nat} {bound : Nat}

theorem exists_forall_eq (hmono : Monotone c) (hbound : ∀ k, c k ≤ bound) : ∃ n, ∀ k, n ≤ k → c k = c n := by
  suffices h : ∀ d n, bound - c n ≤ d → ∃ n, ∀ k, n ≤ k → c k = c n from h _ 0 le_rfl
  intro d
  induction d with
  | zero =>
    intro n hd
    refine ⟨n, fun k hk => le_antisymm ?_ (hmono hk)⟩
    have := hbound k
    omega
  | succ d ih =>
    intro n hd
    by_cases hrest : ∀ k, n ≤ k → c k = c n
    · exact ⟨n, hrest⟩
    · push Not at hrest
      obtain ⟨k, hk, hne⟩ := hrest
      have hlt := lt_of_le_of_ne (hmono hk) hne.symm
      have := hbound k
      exact ih k (by omega)

end Counter

end Lib
