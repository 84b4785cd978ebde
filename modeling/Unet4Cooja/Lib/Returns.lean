import Mathlib.Data.List.Basic

/-!
# What a sequence of calls returns

* `returns step s as` : the values the calls `as` return, from the state `s` on;
* `returns_eq_of_simulation` : related states from which each call returns the same and leads to related states;
* `tryReturns`, `tryReturns_of_simulation` : the same for calls that may fail, but do not in related states;
* `callAll`, `callAll_append`, `applyAll`, `callAll_of_simulation` : the same with the state at the end, for calls that
  may only be made in some states.
-/

namespace Lib

section Returns
variable {σ τ ι ρ : Type*}

/-- The values that the calls return one after the other. -/
def returns (step : σ → ι → ρ × σ) : σ → List ι → List ρ
  | _, [] => []
  | s, a :: as => (step s a).1 :: returns step (step s a).2 as

theorem returns_eq_of_simulation {step : σ → ι → ρ × σ} {step' : τ → ι → ρ × τ} {R : σ → τ → Prop}
    (hstep : ∀ s t a, R s t → (step s a).1 = (step' t a).1 ∧ R (step s a).2 (step' t a).2) {s : σ} {t : τ}
    (h : R s t) (as : List ι) : returns step s as = returns step' t as := by
  induction as generalizing s t with
  | nil => rfl
  | cons a as ih =>
    obtain ⟨hreturn, hnext⟩ := hstep s t a h
    rw [returns, returns, hreturn, ih hnext]

end Returns

section TryReturns
universe u
variable {ε τ ι : Type*} {σ ρ : Type u}

/-- The values that the calls return one after the other, if none of them fails. -/
def tryReturns (step : σ → ι → Except ε (ρ × σ)) : σ → List ι → Except ε (List ρ)
  | _, [] => pure []
  | s, a :: as => do
    let next ← step s a
    let rest ← tryReturns step next.2 as
    pure (next.1 :: rest)

theorem tryReturns_of_simulation {step : σ → ι → Except ε (ρ × σ)} {step' : τ → ι → ρ × τ} {R : σ → τ → Prop}
    (hstep : ∀ s t a, R s t → ∃ s', step s a = .ok ((step' t a).1, s') ∧ R s' (step' t a).2) {s : σ} {t : τ}
    (h : R s t) (as : List ι) : tryReturns step s as = .ok (returns step' t as) := by
  induction as generalizing s t with
  | nil => rfl
  | cons a as ih =>
    obtain ⟨s', hs, hnext⟩ := hstep s t a h
    rw [tryReturns, hs, returns]
    show (tryReturns step s' as >>= fun rest => pure ((step' t a).1 :: rest)) = _
    rw [ih hnext]
    rfl

end TryReturns

section CallAll
variable {σ τ ι ρ : Type*}

/-- The calls one after the other, if each of them returns: the values, and the state at the end. -/
def callAll (step : σ → ι → Option (ρ × σ)) : σ → List ι → Option (List ρ × σ)
  | s, [] => some ([], s)
  | s, a :: as => (step s a).bind fun next => (callAll step next.2 as).map fun rest => (next.1 :: rest.1, rest.2)

theorem callAll_append (step : σ → ι → Option (ρ × σ)) (s : σ) (as bs : List ι) :
    callAll step s (as ++ bs) = (callAll step s as).bind fun r =>
      (callAll step r.2 bs).map fun r' => (r.1 ++ r'.1, r'.2) := by
  induction as generalizing s with
  | nil =>
    show callAll step s bs = (callAll step s bs).map fun r' => ([] ++ r'.1, r'.2)
    cases callAll step s bs <;> rfl
  | cons a as ih =>
    rw [List.cons_append, callAll, callAll]
    cases step s a with
    | none => rfl
    | some next =>
      rw [Option.bind_some, Option.bind_some, ih]
      cases callAll step next.2 as with
      | none => rfl
      | some r =>
        rw [Option.bind_some, Option.map_some, Option.bind_some, Option.map_map]
        rfl

/-- The same for calls that always return. -/
def applyAll (step : τ → ι → ρ × τ) : τ → List ι → List ρ × τ
  | t, [] => ([], t)
  | t, a :: as => ((step t a).1 :: (applyAll step (step t a).2 as).1, (applyAll step (step t a).2 as).2)

/-- Each call may be made where it is made. -/
def AllAllowed (pre : τ → ι → Prop) (step : τ → ι → ρ × τ) : τ → List ι → Prop
  | _, [] => True
  | t, a :: as => pre t a ∧ AllAllowed pre step (step t a).2 as

instance AllAllowed.decidable {pre : τ → ι → Prop} {step : τ → ι → ρ × τ} [∀ t a, Decidable (pre t a)] :
    ∀ (t : τ) (as : List ι), Decidable (AllAllowed pre step t as)
  | _, [] => isTrue trivial
  | t, a :: as => @instDecidableAnd _ _ inferInstance (AllAllowed.decidable (step t a).2 as)

theorem callAll_of_simulation {step : σ → ι → Option (ρ × σ)} {step' : τ → ι → ρ × τ} {R : σ → τ → Prop}
    {pre : τ → ι → Prop}
    (hstep : ∀ s t a, R s t → pre t a → ∃ s', step s a = some ((step' t a).1, s') ∧ R s' (step' t a).2)
    {s : σ} {t : τ} (h : R s t) {as : List ι} (hall : AllAllowed pre step' t as) :
    ∃ s', callAll step s as = some ((applyAll step' t as).1, s') ∧ R s' (applyAll step' t as).2 := by
  induction as generalizing s t with
  | nil => exact ⟨s, rfl, h⟩
  | cons a as ih =>
    obtain ⟨ha, has⟩ := hall
    obtain ⟨s', hs, hnext⟩ := hstep s t a h ha
    obtain ⟨s'', hs', hend⟩ := ih hnext has
    refine ⟨s'', ?_, hend⟩
    rw [callAll, hs, Option.bind_some, hs']
    rfl

end CallAll

end Lib
