import Unet4Cooja.Lib.While
import Mathlib.Data.List.Basic

/-!
# Draws with rejection

A generator `next` returns a value and its next state. Values that are not accepted are drawn again.

* `values next n s` : the next `n` values; `values_eq_map` : each of them;
* `Draws next accept s r t` : `do r = next(); while (!accept(r));`, from the state `s` to the state `t`;
* `exists_draws` : the loop ends if one of the next values is accepted; `Draws.unique`;
* `DrawsAll`, `drawsAll_values` : several draws take the accepted ones of the values, in order.
-/

namespace Lib

section Draws
variable {σ ρ : Type*} {next : σ → ρ × σ} {accept : ρ → Bool} {s t : σ} {r : ρ} {n : Nat}

/-- The next `n` values. -/
def values (next : σ → ρ × σ) : Nat → σ → List ρ
  | 0, _ => []
  | n + 1, s => (next s).1 :: values next n (next s).2

/-- The state after `n` values. -/
def after (next : σ → ρ × σ) (n : Nat) (s : σ) : σ := (fun s => (next s).2)^[n] s

theorem after_succ (next : σ → ρ × σ) (n : Nat) (s : σ) : after next (n + 1) s = after next n (next s).2 :=
  Function.iterate_succ_apply _ n s

theorem values_eq_map (next : σ → ρ × σ) (n : Nat) (s : σ) :
    values next n s = (List.range n).map fun i => (next (after next i s)).1 := by
  induction n generalizing s with
  | zero => rfl
  | succ n ih =>
    rw [List.range_succ_eq_map, List.map_cons, List.map_map, values, ih]
    rfl

/-- The loop that draws values until one is accepted. -/
def Draws (next : σ → ρ × σ) (accept : ρ → Bool) (s : σ) (r : ρ) (t : σ) : Prop :=
  Ends (fun p : ρ × σ => !accept p.1) (fun p => next p.2) (next s) (r, t)

theorem Draws.take (h : accept (next s).1 = true) : Draws next accept s (next s).1 (next s).2 :=
  .exit (by simp [h])

theorem Draws.again (h : accept (next s).1 = false) (hd : Draws next accept (next s).2 r t) :
    Draws next accept s r t :=
  Ends.round (by simp [h]) hd

theorem Draws.unique {r' : ρ} {t' : σ} (h : Draws next accept s r t) (h' : Draws next accept s r' t') :
    r = r' ∧ t = t' :=
  Prod.mk.inj (Ends.unique h h')

theorem Draws.keeps {I : σ → Prop} (hI : ∀ s, I s → I (next s).2) (hs : I s) (h : Draws next accept s r t) : I t :=
  @Ends.inv _ _ _ _ _ (fun p => I p.2) (fun p _ hp => hI p.2 hp) h (hI s hs)

theorem exists_draws (h : accept (next (after next n s)).1 = true) : ∃ r t, Draws next accept s r t := by
  induction n generalizing s with
  | zero => exact ⟨_, _, .take h⟩
  | succ n ih =>
    cases hs : accept (next s).1 with
    | true => exact ⟨_, _, .take hs⟩
    | false =>
      rw [after_succ] at h
      obtain ⟨r, t, hd⟩ := ih h
      exact ⟨r, t, .again hs hd⟩

/-- Draws one after the other. -/
def DrawsAll (next : σ → ρ × σ) (accept : ρ → Bool) : σ → List ρ → σ → Prop
  | s, [], t => s = t
  | s, r :: rs, t => ∃ u, Draws next accept s r u ∧ DrawsAll next accept u rs t

theorem drawsAll_values (next : σ → ρ × σ) (accept : ρ → Bool) (n : Nat) (s : σ) :
    ∃ t, DrawsAll next accept s ((values next n s).filter accept) t := by
  induction n generalizing s with
  | zero => exact ⟨s, rfl⟩
  | succ n ih =>
    obtain ⟨t, hd⟩ := ih (next s).2
    rw [values]
    cases hs : accept (next s).1 with
    | true =>
      rw [List.filter_cons_of_pos hs]
      exact ⟨t, _, .take hs, hd⟩
    | false =>
      rw [List.filter_cons_of_neg (by simp [hs])]
      -- the first of the later draws begins one value earlier
      cases hrest : (values next n (next s).2).filter accept with
      | nil => exact ⟨s, rfl⟩
      | cons r rs =>
        rw [hrest] at hd
        obtain ⟨u, hfirst, hd⟩ := hd
        exact ⟨t, u, .again hs hfirst, hd⟩

end Draws

end Lib
