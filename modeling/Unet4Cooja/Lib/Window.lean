import Mathlib.Data.List.Basic

/-!
# Windows of a list

* `window o n xs` : at most `n` elements, from the place `o`;
* `flatten_windows` : the windows of one size, one after the other, are the list.
-/

namespace Lib

section
variable {α : Type*} {o n : Nat} {xs ys : List α}

/-- At most `n` elements of a list, from the place `o`. -/
def window (o n : Nat) (xs : List α) : List α := (xs.drop o).take n

theorem window_of_le (h : xs.length ≤ o + n) : window o n xs = xs.drop o := by
  apply List.take_of_length_le
  rw [List.length_drop]
  omega

theorem window_of_length_le (h : xs.length ≤ o) : window o n xs = [] := by
  unfold window
  rw [List.drop_of_length_le h, List.take_nil]

theorem window_append (h : o + n ≤ xs.length) : window o n (xs ++ ys) = window o n xs := by
  unfold window
  rw [List.drop_append_of_le_length (by omega), List.take_append_of_le_length]
  rw [List.length_drop]
  omega

theorem length_window : (window o n xs).length = min n (xs.length - o) := by
  unfold window
  rw [List.length_take, List.length_drop]

/-- The first `k` windows. -/
def windows (n k : Nat) (xs : List α) : List (List α) := (List.range k).map fun j => window (j * n) n xs

theorem windows_succ (n k : Nat) (xs : List α) : windows n (k + 1) xs = windows n k xs ++ [window (k * n) n xs] := by
  unfold windows
  rw [List.range_succ, List.map_append]
  rfl

theorem flatten_windows_take (n k : Nat) (xs : List α) : (windows n k xs).flatten = xs.take (k * n) := by
  induction k with
  | zero => rw [Nat.zero_mul, List.take_zero]; rfl
  | succ k ih =>
    rw [windows_succ, List.flatten_append, ih, List.flatten_singleton, Nat.succ_mul, List.take_add]
    rfl

theorem flatten_windows {k : Nat} (h : xs.length ≤ k * n) : (windows n k xs).flatten = xs := by
  rw [flatten_windows_take, List.take_of_length_le h]

end

end Lib
