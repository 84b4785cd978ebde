import Mathlib.Data.List.Basic

/-!
# Steps that may fail

* `isOk_dite`, `isOk_ite` : a test that fails, and one that guards what may fail;
* `isOk_bind`, `isOk_bind_and` : a sequence succeeds if and only if its first part does and then its second;
* `isOk_foldlM` : a loop succeeds if and only if each step is allowed where it is taken;
* `isOk_foldlM_forall` : the same for a condition on the input alone.
-/

namespace Lib

universe u

section Faults
variable {ε ι : Type*} {σ α β : Type u}

theorem isOk_iff {x : Except ε α} : x.isOk ↔ ∃ a, x = .ok a := by
  cases x with
  | ok a => exact ⟨fun _ => ⟨a, rfl⟩, fun _ => rfl⟩
  | error e => exact ⟨fun h => (nomatch h), fun ⟨_, h⟩ => (nomatch h)⟩

@[simp] theorem isOk_pure (a : α) : (pure a : Except ε α).isOk := rfl

theorem isOk_dite {p : Prop} [Decidable p] {f : p → α} {e : ε} :
    (if h : p then (.ok (f h) : Except ε α) else .error e).isOk ↔ p := by
  split
  · rename_i h
    exact ⟨fun _ => h, fun _ => rfl⟩
  · rename_i h
    exact ⟨fun hf => (nomatch hf), fun hp => absurd hp h⟩

theorem isOk_ite {p : Prop} [Decidable p] {x : Except ε α} {a : α} : (if p then x else pure a).isOk ↔ (p → x.isOk) := by
  split
  · rename_i h
    rw [forall_prop_of_true h]
  · rename_i h
    exact ⟨fun _ hp => absurd hp h, fun _ => rfl⟩

theorem isOk_bind {x : Except ε α} {f : α → Except ε β} :
    (x >>= f).isOk ↔ ∃ a, x = .ok a ∧ (f a).isOk := by
  cases x with
  | ok a =>
    refine ⟨fun h => ⟨a, rfl, h⟩, fun ⟨b, hb, h⟩ => ?_⟩
    cases hb
    exact h
  | error e => exact ⟨fun h => (nomatch h), fun ⟨_, h, _⟩ => (nomatch h)⟩

theorem isOk_bind_and {x : Except ε α} {f : α → Except ε β} {q : Prop} (h : ∀ a, (f a).isOk ↔ q) :
    (x >>= f).isOk ↔ x.isOk ∧ q := by
  rw [isOk_bind, isOk_iff]
  simp only [h, exists_and_right]

theorem isOk_bind_pure {x : Except ε α} {g : α → β} : (x >>= fun a => pure (g a)).isOk ↔ x.isOk := by
  rw [isOk_bind_and (q := True) fun a => iff_true_intro (isOk_pure (g a)), and_true]

variable {step : σ → ι → Except ε σ} {ok : σ → ι → Prop} {p : ι → Prop}

theorem isOk_foldlM (hstep : ∀ s a, (step s a).isOk ↔ ok s a) (s : σ) (as : List ι) :
    (as.foldlM step s).isOk ↔
      ∀ bs a t, bs ++ [a] <+: as → bs.foldlM step s = .ok t → ok t a := by
  induction as generalizing s with
  | nil =>
    refine ⟨fun _ bs a t h => ?_, fun _ => rfl⟩
    exact absurd (List.prefix_nil.mp h) (by simp)
  | cons a as ih =>
    rw [List.foldlM_cons, isOk_bind]
    constructor
    · rintro ⟨u, hu, h⟩ bs b t hpre ht
      cases bs with
      | nil =>
        obtain ⟨rfl, -⟩ := List.cons_prefix_cons.mp hpre
        cases ht
        exact (hstep s b).mp (isOk_iff.mpr ⟨u, hu⟩)
      | cons c bs =>
        obtain ⟨rfl, htail⟩ := List.cons_prefix_cons.mp hpre
        rw [List.foldlM_cons, hu] at ht
        exact (ih u).mp h bs b t htail ht
    · intro h
      have hok : ok s a := h [] a s (List.cons_prefix_cons.mpr ⟨rfl, List.nil_prefix⟩) rfl
      obtain ⟨u, hu⟩ := isOk_iff.mp ((hstep s a).mpr hok)
      refine ⟨u, hu, (ih u).mpr fun bs b t hpre ht => ?_⟩
      apply h (a :: bs) b t (List.cons_prefix_cons.mpr ⟨rfl, hpre⟩)
      rw [List.foldlM_cons, hu]
      exact ht

theorem isOk_foldlM_forall (hstep : ∀ s a, (step s a).isOk ↔ p a) (s : σ) (as : List ι) :
    (as.foldlM step s).isOk ↔ ∀ a ∈ as, p a := by
  induction as generalizing s with
  | nil => exact ⟨fun _ => List.forall_mem_nil p, fun _ => rfl⟩
  | cons a as ih =>
    rw [List.foldlM_cons, isOk_bind_and fun u => ih u, List.forall_mem_cons, hstep]

end Faults

end Lib
