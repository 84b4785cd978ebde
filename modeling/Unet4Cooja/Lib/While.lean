import Mathlib.Logic.Function.Iterate

/-!
# While loops

* `whileLoop cond body fuel s` : the loop, of at most `fuel` rounds;
* `Ends cond body s t` : it ends in the state `t`, and does so with every greater number of rounds
  (`whileLoop_mono`);
* `Ends.exit`, `Ends.round` : the two cases of the test; `ends_iterate` : a known number of rounds;
* `Ends.unique` : there is one such state at most; `Ends.elim`, `Ends.inv` : what holds in it.
-/

namespace Lib

section While
variable {σ : Type*}

/-- `while (cond s) s = body s;`, of at most `fuel` rounds. -/
def whileLoop (cond : σ → Bool) (body : σ → σ) : Nat → σ → Option σ
  | 0, s => if cond s then none else some s
  | fuel + 1, s => if cond s then whileLoop cond body fuel (body s) else some s

/-- The loop ends in the state `t`. -/
def Ends (cond : σ → Bool) (body : σ → σ) (s t : σ) : Prop := ∃ fuel, whileLoop cond body fuel s = some t

variable {cond : σ → Bool} {body : σ → σ} {s t u : σ} {fuel fuel' n : Nat}

theorem whileLoop_exit (h : cond s = false) (fuel : Nat) : whileLoop cond body fuel s = some s := by
  cases fuel <;> simp [whileLoop, h]

theorem whileLoop_round (h : cond s = true) (fuel : Nat) :
    whileLoop cond body (fuel + 1) s = whileLoop cond body fuel (body s) := by
  rw [whileLoop, if_pos h]

theorem whileLoop_mono (h : whileLoop cond body fuel s = some t) (hf : fuel ≤ fuel') :
    whileLoop cond body fuel' s = some t := by
  induction fuel generalizing s fuel' with
  | zero =>
    cases hc : cond s with
    | true => simp [whileLoop, hc] at h
    | false =>
      rw [whileLoop_exit hc] at h ⊢
      exact h
  | succ fuel ih =>
    obtain ⟨k, rfl⟩ : ∃ k, fuel' = k + 1 := ⟨fuel' - 1, by omega⟩
    cases hc : cond s with
    | true =>
      rw [whileLoop_round hc] at h ⊢
      exact ih h (Nat.le_of_succ_le_succ hf)
    | false =>
      rw [whileLoop_exit hc] at h ⊢
      exact h

theorem Ends.exit (h : cond s = false) : Ends cond body s s := ⟨0, whileLoop_exit h 0⟩

theorem Ends.round (h : cond s = true) (he : Ends cond body (body s) t) : Ends cond body s t := by
  obtain ⟨fuel, he⟩ := he
  exact ⟨fuel + 1, (whileLoop_round h fuel).trans he⟩

theorem Ends.unique (h : Ends cond body s t) (h' : Ends cond body s u) : t = u := by
  obtain ⟨fuel, h⟩ := h
  obtain ⟨fuel', h'⟩ := h'
  have ht := whileLoop_mono h (Nat.le_max_left fuel fuel')
  have hu := whileLoop_mono h' (Nat.le_max_right fuel fuel')
  exact Option.some.inj (ht.symm.trans hu)

theorem Ends.elim (P : σ → Prop) (hexit : cond t = false → P t) (hround : ∀ s, cond s = true → P (body s) → P s)
    (h : Ends cond body s t) : P s := by
  obtain ⟨fuel, h⟩ := h
  induction fuel generalizing s with
  | zero =>
    obtain ⟨hc, h⟩ := Option.ite_none_left_eq_some.mp h
    obtain rfl := Option.some.inj h
    exact hexit (eq_false_of_ne_true hc)
  | succ fuel ih =>
    cases hc : cond s with
    | true =>
      apply hround s hc
      exact ih ((whileLoop_round hc fuel).symm.trans h)
    | false =>
      obtain rfl := Option.some.inj ((whileLoop_exit hc _).symm.trans h)
      exact hexit hc

theorem Ends.inv {I : σ → Prop} (hI : ∀ s, cond s = true → I s → I (body s)) (h : Ends cond body s t) :
    I s → I t :=
  Ends.elim (fun s => I s → I t) (fun _ ht => ht) (fun s hc ih hs => ih (hI s hc hs)) h

theorem ends_iterate (hin : ∀ k < n, cond (body^[k] s) = true) (hout : cond (body^[n] s) = false) :
    Ends cond body s (body^[n] s) := by
  induction n generalizing s with
  | zero => exact .exit hout
  | succ n ih =>
    rw [Function.iterate_succ_apply] at hout ⊢
    apply Ends.round (hin 0 (Nat.succ_pos n))
    apply ih _ hout
    intro k hk
    rw [← Function.iterate_succ_apply]
    exact hin (k + 1) (Nat.succ_lt_succ hk)

end While

end Lib
