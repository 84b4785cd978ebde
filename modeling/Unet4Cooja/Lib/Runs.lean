import Mathlib.Logic.Relation

/-!
# Runs of a partial step function

* `Runs step ok s as t` : the actions `as` lead from `s` to `t`, each taken in a state where `ok`
  allows it; `Runs.invariant` is the induction over such a run, `Runs.mono` weakens the guard;
* `exec` : the run as a computable fold, `exec_of_runs` / `Runs.of_exec` / `Runs.of_exec_guarded`
  connect the two;
* `observe` : what a passive observer notes along a run, `Runs.observed` the induction with it,
  `Runs.noted_iff`, `Runs.nothing_noted_iff`, `Runs.all_noted_iff` for notes that tell whether a guard held;
* `watched` : the steps with what the observer notes, for guards that refer to it;
* `no_cycle_of_rank` : a relation along which a rank falls has no cycle.
-/

namespace Lib

section Runs
variable {σ α : Type*} (step : σ → α → Option σ)

/-- The guard that allows every action. -/
def Free : σ → α → Prop := fun _ _ => True

/-- The actions `as` lead from `s` to `t`, each enabled and allowed by `ok` where it is taken. -/
inductive Runs (ok : σ → α → Prop) (s : σ) : List α → σ → Prop
  | nil : Runs ok s [] s
  | snoc {as : List α} {t u : σ} {a : α} :
      Runs ok s as t → ok t a → step t a = some u → Runs ok s (as ++ [a]) u

/-- The state after the actions, if each of them is enabled. -/
def exec : σ → List α → Option σ
  | s, [] => some s
  | s, a :: as => (step s a).bind fun t => exec t as

variable {step} {ok ok' : σ → α → Prop} {s t u : σ} {as bs : List α} {a : α}

/-- What holds at the start and is kept by every allowed step holds wherever a run leads. -/
theorem Runs.invariant {I : σ → Prop} (r : Runs step ok s as t) (h0 : I s)
    (hstep : ∀ t a u, I t → ok t a → step t a = some u → I u) : I t := by
  induction r with
  | nil => exact h0
  | snoc _ hok hs ih => exact hstep _ _ _ ih hok hs

theorem Runs.mono (r : Runs step ok s as t) (h : ∀ t a, ok t a → ok' t a) :
    Runs step ok' s as t := by
  induction r with
  | nil => exact .nil
  | snoc _ hok hs ih => exact .snoc ih (h _ _ hok) hs

theorem Runs.free (r : Runs step ok s as t) : Runs step Free s as t :=
  r.mono fun _ _ _ => trivial

theorem Runs.guarded_of {I : σ → Prop} {A : α → Prop} (r : Runs step ok s as t) (h0 : I s)
    (hA : ∀ a ∈ as, A a) (hstep : ∀ u a v, I u → A a → step u a = some v → I v ∧ ok' u a) :
    I t ∧ Runs step ok' s as t := by
  induction r with
  | nil => exact ⟨h0, .nil⟩
  | snoc _ _ hs ih =>
    obtain ⟨hI, r⟩ := ih fun a ha => hA a (List.mem_append_left _ ha)
    obtain ⟨hI', hok⟩ := hstep _ _ _ hI (hA _ (List.mem_append_right _ (List.mem_singleton_self _))) hs
    exact ⟨hI', .snoc r hok hs⟩

theorem Runs.trans (r : Runs step ok s as t) (r' : Runs step ok t bs u) :
    Runs step ok s (as ++ bs) u := by
  induction r' with
  | nil => rwa [List.append_nil]
  | snoc _ hok hs ih => rw [← List.append_assoc]; exact .snoc ih hok hs

theorem Runs.snoc_iff :
    Runs step ok s (as ++ [a]) u ↔ ∃ t, Runs step ok s as t ∧ ok t a ∧ step t a = some u := by
  constructor
  · intro r
    generalize hbs : as ++ [a] = bs at r
    cases r with
    | nil => exact absurd hbs (by simp)
    | snoc r hok hs =>
      obtain ⟨rfl, hlast⟩ := List.append_inj' hbs rfl
      cases hlast
      exact ⟨_, r, hok, hs⟩
  · rintro ⟨t, r, hok, hs⟩
    exact .snoc r hok hs

theorem exec_append (s : σ) (as bs : List α) :
    exec step s (as ++ bs) = (exec step s as).bind fun t => exec step t bs := by
  induction as generalizing s with
  | nil => rfl
  | cons a as ih =>
    simp only [List.cons_append, exec]
    cases step s a with
    | none => rfl
    | some t => exact ih t

theorem exec_of_runs (r : Runs step ok s as t) : exec step s as = some t := by
  induction r with
  | nil => rfl
  | snoc _ _ hs ih => rw [exec_append, ih]; simp [exec, hs]

theorem Runs.of_exec (h : exec step s as = some t) : Runs step Free s as t := by
  induction as generalizing s with
  | nil => cases h; exact .nil
  | cons a as ih =>
    simp only [exec, Option.bind_eq_some_iff] at h
    obtain ⟨m, hm, h⟩ := h
    have r := Runs.trans (.snoc .nil trivial hm) (ih h)
    rwa [List.nil_append, List.singleton_append] at r

/-- A step taken only where `ok` allows it. -/
def guarded (step : σ → α → Option σ) (ok : σ → α → Prop) [∀ s a, Decidable (ok s a)] (s : σ) (a : α) :
    Option σ :=
  if ok s a then step s a else none

theorem Runs.of_exec_guarded [∀ s a, Decidable (ok s a)] (h : exec (guarded step ok) s as = some t) :
    Runs step ok s as t := by
  induction as generalizing s with
  | nil => cases h; exact .nil
  | cons a as ih =>
    simp only [exec, guarded, Option.bind_eq_some_iff] at h
    obtain ⟨m, hm, h⟩ := h
    split at hm
    · rename_i hok
      have r := Runs.trans (.snoc .nil hok hm) (ih h)
      rwa [List.nil_append, List.singleton_append] at r
    · cases hm

end Runs

section Observers
variable {σ α μ : Type*} (step : σ → α → Option σ) (watch : σ → μ → α → μ)

/-- What an observer that starts with `m` has noted after the actions. -/
def observe : σ → μ → List α → μ
  | _, m, [] => m
  | s, m, a :: as =>
    match step s a with
    | none => m
    | some t => observe t (watch s m a) as

/-- The step together with what the observer notes. -/
def watched (p : σ × μ) (a : α) : Option (σ × μ) :=
  (step p.1 a).map fun t => (t, watch p.1 p.2 a)

variable {step watch} {ok : σ → α → Prop} {s t u : σ} {as : List α} {m : μ} {a : α}

theorem observe_snoc (h : exec step s as = some t) (hs : step t a = some u) :
    observe step watch s m (as ++ [a]) = watch t (observe step watch s m as) a := by
  induction as generalizing s m with
  | nil =>
    cases h
    simp [observe, hs]
  | cons b as ih =>
    simp only [exec, Option.bind_eq_some_iff] at h
    obtain ⟨v, hv, h⟩ := h
    simp only [List.cons_append, observe, hv]
    exact ih h

theorem observe_le_length {count : σ → Nat → α → Nat} (hc : ∀ s m a, count s m a ≤ m + 1) (s : σ)
    (m : Nat) (as : List α) : observe step count s m as ≤ m + as.length := by
  induction as generalizing s m with
  | nil => exact Nat.le_refl m
  | cons a as ih =>
    simp only [observe, List.length_cons]
    cases step s a with
    | none => exact Nat.le_add_right m _
    | some t =>
      have hcount := hc s m a
      exact Nat.le_trans (ih t _) (by omega)

/-- What holds at the start and is kept by every allowed step, with what an observer notes there,
holds wherever a run leads. -/
theorem Runs.observed {I : σ → μ → Prop} (r : Runs step ok s as t) (h0 : I s m)
    (hstep : ∀ t m a u, I t m → ok t a → step t a = some u → I u (watch t m a)) :
    I t (observe step watch s m as) := by
  induction r with
  | nil => exact h0
  | snoc r hok hs ih =>
    rw [observe_snoc (exec_of_runs r) hs]
    exact hstep _ _ _ _ ih hok hs

/-- If a note stays good exactly at the steps `ok` allows, it is good after a run if and only if all steps are
allowed. -/
theorem Runs.noted_iff {I : σ → Prop} {P : μ → Prop} (r : Runs step Free s as t) (h0 : I s)
    (hm : P m) (hstep : ∀ t a u, I t → step t a = some u → I u)
    (hnote : ∀ t m a u, I t → step t a = some u → (P (watch t m a) ↔ P m ∧ ok t a)) :
    P (observe step watch s m as) ↔ Runs step ok s as t := by
  have key : I t ∧ (P (observe step watch s m as) ↔ Runs step ok s as t) := by
    induction r with
    | nil => exact ⟨h0, fun _ => .nil, fun _ => hm⟩
    | @snoc as t u a r _ hs ih =>
      obtain ⟨hI, ih⟩ := ih
      refine ⟨hstep t a u hI hs, ?_⟩
      rw [observe_snoc (exec_of_runs r) hs, hnote t _ a u hI hs, ih, Runs.snoc_iff]
      constructor
      · rintro ⟨r', hok⟩
        exact ⟨t, r', hok, hs⟩
      · rintro ⟨t', r', hok, hs'⟩
        obtain rfl : t' = t := by
          have he := (exec_of_runs r').symm.trans (exec_of_runs r)
          exact Option.some.inj he
        exact ⟨r', hok⟩
  exact key.2

/-- An observer that notes something exactly at the steps `ok` does not allow has noted nothing if and only
if all steps are allowed. -/
theorem Runs.nothing_noted_iff {β : Type*} {note : σ → List β → α → List β} {I : σ → Prop}
    (r : Runs step Free s as t) (h0 : I s) (hstep : ∀ t a u, I t → step t a = some u → I u)
    (hnote : ∀ t m a u, I t → step t a = some u → (note t m a = [] ↔ m = [] ∧ ok t a)) :
    observe step note s [] as = [] ↔ Runs step ok s as t :=
  r.noted_iff (P := fun m => m = []) h0 rfl hstep hnote

theorem watched_eq_some {p q : σ × μ} :
    watched step watch p a = some q ↔ step p.1 a = some q.1 ∧ q.2 = watch p.1 p.2 a := by
  rw [watched, Option.map_eq_some_iff]
  constructor
  · rintro ⟨t, ht, rfl⟩
    exact ⟨ht, rfl⟩
  · rintro ⟨ht, hq⟩
    exact ⟨q.1, ht, by rw [← hq]⟩

end Observers

section Cycles
variable {ι : Type*} {R : ι → ι → Prop}

/-- A relation has no cycle if a rank falls along every edge whose target has a successor:
on a cycle every node has one. -/
theorem no_cycle_of_rank (rank : ι → Nat)
    (h : ∀ i j, R i j → (∃ k, R j k) → rank j < rank i) (i : ι) : ¬ Relation.TransGen R i i := by
  have fall : ∀ {i j}, Relation.TransGen R i j → (∃ k, R j k) → rank j < rank i := by
    intro i j hij
    induction hij with
    | single e => exact fun hs => h _ _ e hs
    | tail _ e ih => exact fun hs => Nat.lt_trans (h _ _ e hs) (ih ⟨_, e⟩)
  intro hc
  obtain ⟨k, hk, _⟩ := Relation.TransGen.head'_iff.mp hc
  exact Nat.lt_irrefl _ (fall hc ⟨k, hk⟩)

end Cycles

end Lib
