import Mathlib.Data.Nat.Digits.Lemmas

/-!
# Positional notation

* `numeral b n` : the digits of `n` in base `b`, the most significant first; 0 has one digit;
* `padded b k n` : with zeros in front up to `k` digits;
* `lastDigits b n k` : the last `k` digits, one division by a power for each;
* `lastDigits_eq_padded` : they are the padded numeral if `n` has no more digits;
* `ofDigits_padded` : a padded numeral is read back.
-/

namespace Lib

/-- `n` in base `b`, the most significant digit first. -/
def numeral (b n : Nat) : List Nat := if n = 0 then [0] else (Nat.digits b n).reverse

/-- The numeral, with zeros in front up to `k` digits. -/
def padded (b k n : Nat) : List Nat := List.replicate (k - (numeral b n).length) 0 ++ numeral b n

/-- The last `k` digits of `n`, the most significant first. -/
def lastDigits (b n : Nat) : Nat → List Nat
  | 0 => []
  | k + 1 => n / b ^ k % b :: lastDigits b n k

section
variable {b n k : Nat}

theorem numeral_of_pos (h : 0 < n) : numeral b n = (Nat.digits b n).reverse := if_neg (Nat.ne_of_gt h)

theorem numeral_ne_nil (b n : Nat) : numeral b n ≠ [] := by
  unfold numeral
  split
  · exact List.cons_ne_nil _ _
  · rename_i h
    rw [ne_eq, List.reverse_eq_nil_iff]
    exact Nat.digits_ne_nil_iff_ne_zero.mpr h

theorem numeral_of_lt (h : n < b) : numeral b n = [n] := by
  unfold numeral
  split
  · rename_i hn
    rw [hn]
  · rename_i hn
    rw [Nat.digits_of_lt b n hn h, List.reverse_singleton]

theorem numeral_of_ge (hb : 1 < b) (h : b ≤ n) : numeral b n = numeral b (n / b) ++ [n % b] := by
  have hquotient : 0 < n / b := Nat.div_pos h (by omega)
  rw [numeral_of_pos (by omega), numeral_of_pos hquotient, Nat.digits_def' hb (by omega), List.reverse_cons]

/-- A numeral has at most `k` digits if the number is below the `k`-th power. -/
theorem length_numeral_le_iff (hb : 1 < b) (hk : 0 < k) : (numeral b n).length ≤ k ↔ n < b ^ k := by
  unfold numeral
  split
  · rename_i hn
    rw [hn]
    exact iff_of_true hk (Nat.pow_pos (by omega))
  · rw [List.length_reverse]
    exact Nat.digits_length_le_iff hb n

theorem lt_base_of_mem_numeral (hb : 1 < b) {d : Nat} (h : d ∈ numeral b n) : d < b := by
  unfold numeral at h
  split at h
  · rw [List.mem_singleton] at h
    omega
  · exact Nat.digits_lt_base hb (List.mem_reverse.mp h)

theorem head_numeral_ne_zero (h : 0 < n) : (numeral b n).head? ≠ some 0 := by
  rw [numeral_of_pos h, List.head?_reverse, List.getLast?_eq_some_getLast (Nat.digits_ne_nil_iff_ne_zero.mpr (by omega))]
  intro hzero
  exact Nat.getLast_digit_ne_zero b (by omega) (Option.some.inj hzero)

/-! ## Reading back -/

theorem ofDigits_numeral (b n : Nat) : Nat.ofDigits b (numeral b n).reverse = n := by
  unfold numeral
  split
  · rename_i h
    rw [List.reverse_singleton, Nat.ofDigits_singleton, h]
  · rw [List.reverse_reverse, Nat.ofDigits_digits]

theorem ofDigits_padded (b k n : Nat) : Nat.ofDigits b (padded b k n).reverse = n := by
  unfold padded
  rw [List.reverse_append, List.reverse_replicate, Nat.ofDigits_append_replicate_zero, ofDigits_numeral]

theorem padded_of_le (h : k ≤ (numeral b n).length) : padded b k n = numeral b n := by
  unfold padded
  rw [Nat.sub_eq_zero_of_le h, List.replicate_zero, List.nil_append]

theorem length_padded (b k n : Nat) : (padded b k n).length = max k (numeral b n).length := by
  unfold padded
  rw [List.length_append, List.length_replicate]
  omega

/-! ## Digits by division -/

theorem length_lastDigits (b n k : Nat) : (lastDigits b n k).length = k := by
  induction k with
  | zero => rfl
  | succ k ih => rw [lastDigits, List.length_cons, ih]

theorem lastDigits_succ (b n k : Nat) : lastDigits b n (k + 1) = lastDigits b (n / b) k ++ [n % b] := by
  induction k with
  | zero => simp [lastDigits]
  | succ k ih => rw [lastDigits, ih, lastDigits, List.cons_append, Nat.div_div_eq_div_mul, ← Nat.pow_succ']

theorem lastDigits_mod {m : Nat} (h : k ≤ m) : lastDigits b (n % b ^ m) k = lastDigits b n k := by
  induction k with
  | zero => rfl
  | succ k ih =>
    have hdigit : n % b ^ m / b ^ k % b = n / b ^ k % b := by
      obtain ⟨j, rfl⟩ := Nat.exists_eq_add_of_le h
      rw [show k + 1 + j = k + (1 + j) by omega, Nat.pow_add b k, Nat.mod_mul_right_div_self, Nat.pow_add, Nat.pow_one]
      exact Nat.mod_mul_right_mod _ _ _
    rw [lastDigits, lastDigits, hdigit, ih (by omega)]

theorem lastDigits_zero (b k : Nat) : lastDigits b 0 k = List.replicate k 0 := by
  induction k with
  | zero => rfl
  | succ k ih => rw [lastDigits, ih, Nat.zero_div, Nat.zero_mod, List.replicate_succ]

theorem lastDigits_eq_padded (hb : 1 < b) (hk : 0 < k) (h : n < b ^ k) : lastDigits b n k = padded b k n := by
  induction k generalizing n with
  | zero => exact absurd hk (Nat.lt_irrefl 0)
  | succ k ih =>
    rw [lastDigits_succ]
    by_cases hn : n < b
    · rw [Nat.div_eq_of_lt hn, Nat.mod_eq_of_lt hn, lastDigits_zero, padded, numeral_of_lt hn]
      rfl
    · have hquotient : n / b < b ^ k := Nat.div_lt_of_lt_mul (by rwa [← Nat.pow_succ'])
      have hpos : 0 < k := by
        by_contra hzero
        rw [Nat.eq_zero_of_not_pos hzero, Nat.pow_zero] at hquotient
        exact absurd (Nat.div_pos (Nat.le_of_not_lt hn) (by omega)) (by omega)
      rw [ih hpos hquotient, padded, padded, numeral_of_ge hb (Nat.le_of_not_lt hn), List.length_append,
        List.length_singleton, Nat.add_sub_add_right, List.append_assoc]

theorem lastDigits_eq_numeral (hb : 1 < b) (hlow : b ^ k ≤ n) (h : n < b ^ (k + 1)) :
    lastDigits b n (k + 1) = numeral b n := by
  rw [lastDigits_eq_padded hb (Nat.succ_pos k) h, padded_of_le]
  rcases Nat.eq_zero_or_pos k with rfl | hk
  · exact List.length_pos_of_ne_nil (numeral_ne_nil b n)
  · by_contra hlen
    have hle : (numeral b n).length ≤ k := Nat.le_of_lt_succ (Nat.lt_of_not_le hlen)
    exact absurd ((length_numeral_le_iff hb hk).mp hle) (Nat.not_lt.mpr hlow)

end

end Lib
