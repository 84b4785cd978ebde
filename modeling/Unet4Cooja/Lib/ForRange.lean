import Mathlib.Data.List.Range

/-!
# Counted loops

* `forRange n body s` : `for (i = 0; i < n; i++) body`, with the loop rule `forRange_induct`;
* `firstBelow n p` : the first index below `n` where `p` holds, the search loop with `break`.
-/

namespace Lib

section ForRange
variable {σ : Type*}

/-- `for (i = 0; i < n; i++) s = body i s`. -/
def forRange : Nat → (Nat → σ → σ) → σ → σ
  | 0, _, s => s
  | n + 1, body, s => body n (forRange n body s)

variable {n : Nat} {body : Nat → σ → σ} {s : σ}

/-- The loop rule: `P i` holds before round `i`, so `P n` holds after the loop. -/
theorem forRange_induct {P : Nat → σ → Prop} (h0 : P 0 s)
    (hs : ∀ i < n, ∀ t, P i t → P (i + 1) (body i t)) : P n (forRange n body s) := by
  induction n with
  | zero => exact h0
  | succ n ih => exact hs n (Nat.lt_succ_self n) _ (ih fun i hi => hs i (Nat.lt_succ_of_lt hi))

theorem forRange_invariant {I : σ → Prop} (h0 : I s)
    (hs : ∀ i < n, ∀ t, I t → I (body i t)) : I (forRange n body s) :=
  forRange_induct (P := fun _ => I) h0 hs

theorem forRange_frame {β : Type*} (f : σ → β) (hs : ∀ i < n, ∀ t, f (body i t) = f t) :
    f (forRange n body s) = f s :=
  forRange_invariant (I := fun t => f t = f s) rfl fun i hi t ht => (hs i hi t).trans ht

end ForRange

section FirstBelow

/-- The first index below `n` where `p` holds. -/
def firstBelow (n : Nat) (p : Nat → Bool) : Option Nat := (List.range n).find? p

variable {n i : Nat} {p : Nat → Bool}

theorem firstBelow_eq_some :
    firstBelow n p = some i ↔ i < n ∧ p i = true ∧ ∀ j < i, p j = false := by
  unfold firstBelow
  rw [List.find?_range_eq_some]
  simp only [List.mem_range, Bool.not_eq_true', and_left_comm]

theorem firstBelow_eq_none : firstBelow n p = none ↔ ∀ j < n, p j = false := by
  simp [firstBelow, List.find?_eq_none]

theorem firstBelow_isSome (hi : i < n) (hp : p i = true) : ∃ j, firstBelow n p = some j := by
  cases h : firstBelow n p with
  | some j => exact ⟨j, rfl⟩
  | none => rw [firstBelow_eq_none.mp h i hi] at hp; cases hp

theorem firstBelow_congr {q : Nat → Bool} (h : ∀ j < n, p j = q j) :
    firstBelow n p = firstBelow n q := by
  cases hq : firstBelow n q with
  | none => exact firstBelow_eq_none.mpr fun j hj => (h j hj).trans (firstBelow_eq_none.mp hq j hj)
  | some i =>
    obtain ⟨hi, hpi, hlt⟩ := firstBelow_eq_some.mp hq
    exact firstBelow_eq_some.mpr
      ⟨hi, (h i hi).trans hpi, fun j hj => (h j (lt_trans hj hi)).trans (hlt j hj)⟩

theorem firstBelow_succ (n : Nat) (p : Nat → Bool) :
    firstBelow (n + 1) p = (firstBelow n p).or (if p n then some n else none) := by
  unfold firstBelow
  rw [List.range_succ, List.find?_append, List.find?_singleton]

end FirstBelow

end Lib
