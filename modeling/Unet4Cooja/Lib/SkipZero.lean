import Mathlib.Data.BitVec
import Mathlib.Data.Nat.ModEq
import Mathlib.Logic.Function.Iterate
import Mathlib.Tactic.Ring

/-!
# A wrapping counter that skips zero

`bump` counts `1, 2, ..., 2^w - 1, 1, ...`. `bump_iterate_inj`: after `n` and after `m` bumps a
non-zero counter shows the same value exactly when `n` and `m` are equal modulo `2^w - 1`.
-/

namespace Lib

variable {w : Nat}

/-- The next value of a `w`-bit counter that is never zero. -/
def bump (c : BitVec w) : BitVec w := if c + 1 = 0 then 1 else c + 1

theorem bump_toNat (hw : 0 < w) (c : BitVec w) :
    (bump c).toNat = if c.toNat + 1 = 2 ^ w then 1 else c.toNat + 1 := by
  have h1 : 1 < 2 ^ w := Nat.one_lt_two_pow hw.ne'
  have hone : (1 : BitVec w).toNat = 1 := by simp [Nat.mod_eq_of_lt h1]
  have hsum : (c + 1).toNat = (c.toNat + 1) % 2 ^ w := by rw [BitVec.toNat_add, hone]
  have hc := c.isLt
  unfold bump
  by_cases h : c.toNat + 1 = 2 ^ w
  · have hz : c + 1 = 0 := BitVec.eq_of_toNat_eq (by rw [hsum, h, Nat.mod_self]; rfl)
    rw [if_pos hz, if_pos h, hone]
  · have hz : c + 1 ≠ 0 := by
      intro e
      have := congrArg BitVec.toNat e
      rw [hsum, Nat.mod_eq_of_lt (by omega)] at this
      simp at this
    rw [if_neg hz, if_neg h, hsum, Nat.mod_eq_of_lt (by omega)]

theorem bump_ne_zero (hw : 0 < w) (c : BitVec w) : bump c ≠ 0 := by
  intro e
  have := bump_toNat hw c
  rw [e] at this
  split at this <;> simp at this

theorem bump_iterate_toNat (hw : 0 < w) {c : BitVec w} (hc : c ≠ 0) (n : Nat) :
    (bump^[n] c).toNat = (c.toNat - 1 + n) % (2 ^ w - 1) + 1 := by
  have h1 : 1 < 2 ^ w := Nat.one_lt_two_pow hw.ne'
  have hlt := c.isLt
  have hpos : 0 < c.toNat := Nat.pos_of_ne_zero (by simpa [← BitVec.toNat_inj] using hc)
  induction n with
  | zero =>
    rw [Function.iterate_zero, id, Nat.add_zero, Nat.mod_eq_of_lt (by omega)]
    omega
  | succ n ih =>
    have hm : 0 < 2 ^ w - 1 := by omega
    have hr := Nat.mod_lt (c.toNat - 1 + n) hm
    have hdm := Nat.div_add_mod (c.toNat - 1 + n) (2 ^ w - 1)
    have hstep : (bump^[n + 1] c).toNat =
        if (c.toNat - 1 + n) % (2 ^ w - 1) + 1 + 1 = 2 ^ w then 1
        else (c.toNat - 1 + n) % (2 ^ w - 1) + 1 + 1 := by
      rw [Function.iterate_succ_apply', bump_toNat hw, ih]
    rw [hstep]
    by_cases hlast : (c.toNat - 1 + n) % (2 ^ w - 1) + 1 = 2 ^ w - 1
    · have hwrap : c.toNat - 1 + (n + 1) =
          (2 ^ w - 1) * ((c.toNat - 1 + n) / (2 ^ w - 1) + 1) := by
        rw [Nat.mul_add]; omega
      rw [if_pos (by omega), hwrap, Nat.mul_mod_right]
    · have hnext : c.toNat - 1 + (n + 1) = (2 ^ w - 1) * ((c.toNat - 1 + n) / (2 ^ w - 1)) +
          ((c.toNat - 1 + n) % (2 ^ w - 1) + 1) := by omega
      rw [if_neg (by omega), hnext, Nat.mul_add_mod,
        Nat.mod_eq_of_lt (show (c.toNat - 1 + n) % (2 ^ w - 1) + 1 < 2 ^ w - 1 by omega)]

/-- A counter shows one value at two times exactly if they differ by a multiple of its period. -/
theorem bump_iterate_inj (hw : 0 < w) {c : BitVec w} (hc : c ≠ 0) (n m : Nat) :
    bump^[n] c = bump^[m] c ↔ n ≡ m [MOD 2 ^ w - 1] := by
  rw [← BitVec.toNat_inj, bump_iterate_toNat hw hc, bump_iterate_toNat hw hc, Nat.succ_inj]
  constructor
  · intro h
    exact Nat.ModEq.add_left_cancel' (c.toNat - 1) h
  · intro h
    exact Nat.ModEq.add_left (c.toNat - 1) h

end Lib
