import Unet4Cooja.Brtos.Mutex

/-!
# Priority ceilings

`CeilingInv` : what holds of priorities, priority vector, holders and saved priorities;
`CeilingInv.vector_priority` : then the priority vector leads to every task; `CeilingInv.take`,
`CeilingInv.give` : a mutex is taken, and given back.
-/

namespace Unet4Cooja

variable {τ μ : Type*}

/-- Tasks have their own priority or the ceiling of a mutex they hold, and so have the saved priorities; the
priority vector leads to the tasks from both. -/
structure CeilingInv (c : Priorities τ μ) (priority : τ → Nat) (vector : Nat → TaskNumber τ)
    (held : τ → μ → Prop) (saved : μ → Nat) : Prop where
  tasks : ∀ t, priority t = c.iPriority t ∨
    ∃ m, held t m ∧ saved m < c.osMaxPriority m ∧ priority t = c.osMaxPriority m
  backups : ∀ t m, held t m → saved m = c.iPriority t ∨
    ∃ x, x ≠ m ∧ held t x ∧ saved x < c.osMaxPriority x ∧ saved m = c.osMaxPriority x
  installed : ∀ t, vector (c.iPriority t) = .task t
  ceilings : ∀ t m, held t m → saved m < c.osMaxPriority m → vector (c.osMaxPriority m) = .task t

namespace CeilingInv
variable {c : Priorities τ μ} {priority priority' : τ → Nat} {vector vector' : Nat → TaskNumber τ}
  {held held' : τ → μ → Prop} {saved saved' : μ → Nat} {t : τ} {m : μ}

theorem vector_priority (h : CeilingInv c priority vector held saved) (t : τ) :
    vector (priority t) = .task t := by
  rcases h.tasks t with ht | ⟨m, hm, hlt, ht⟩
  · rw [ht]
    exact h.installed t
  · rw [ht]
    exact h.ceilings t m hm hlt

theorem priority_inj (h : CeilingInv c priority vector held saved) {t u : τ}
    (he : priority t = priority u) : t = u := by
  have ht := h.vector_priority t
  rw [he, h.vector_priority u] at ht
  cases ht
  rfl

theorem congr (h : CeilingInv c priority vector held saved) (hh : ∀ t m, held' t m ↔ held t m) :
    CeilingInv c priority vector held' saved := by
  obtain rfl : held' = held := by
    funext t m
    exact propext (hh t m)
  exact h

variable [DecidableEq τ]

theorem take (h : CeilingInv c priority vector held saved) (hfree : ∀ u, ¬ held u m)
    (hh : ∀ u x, held' u x ↔ held u x ∨ (u = t ∧ x = m)) (hsaved : saved' m = priority t)
    (hother : ∀ x, x ≠ m → saved' x = saved x)
    (hp : priority' = if priority t < c.osMaxPriority m then
      Function.update priority t (c.osMaxPriority m) else priority)
    (hv : vector' = if priority t < c.osMaxPriority m then
      Function.update vector (c.osMaxPriority m) (.task t) else vector) :
    CeilingInv c priority' vector' held' saved' := by
  have hne : ∀ {u x}, held u x → x ≠ m := by
    rintro u x hx rfl
    exact hfree u hx
  have hlift : ∀ {u x}, held u x → saved x < c.osMaxPriority x →
      held' u x ∧ saved' x < c.osMaxPriority x := by
    intro u x hx hlt
    rw [hother x (hne hx)]
    exact ⟨(hh u x).mpr (.inl hx), hlt⟩
  -- what `t` had is a priority it may save
  have hold : ∀ u, priority u = c.iPriority u ∨
      ∃ x, x ≠ m ∧ held' u x ∧ saved' x < c.osMaxPriority x ∧ priority u = c.osMaxPriority x := by
    intro u
    refine (h.tasks u).imp id ?_
    rintro ⟨x, hx, hlt, he⟩
    exact ⟨x, hne hx, (hlift hx hlt).1, (hlift hx hlt).2, he⟩
  refine ⟨fun u => ?_, fun u x hx => ?_, fun u => ?_, fun u x hx hlt => ?_⟩
  · rw [hp]
    split
    · rename_i hraise
      by_cases hu : u = t
      · refine .inr ⟨m, (hh u m).mpr (.inr ⟨hu, rfl⟩), hsaved ▸ hraise, ?_⟩
        rw [hu, Function.update_self]
      · rw [Function.update_of_ne hu]
        exact (hold u).imp id fun ⟨x, _, hx⟩ => ⟨x, hx⟩
    · exact (hold u).imp id fun ⟨x, _, hx⟩ => ⟨x, hx⟩
  · rcases (hh u x).mp hx with hx | ⟨rfl, rfl⟩
    · rw [hother x (hne hx)]
      refine (h.backups u x hx).imp id ?_
      rintro ⟨y, hyx, hy, hlt, he⟩
      exact ⟨y, hyx, (hlift hy hlt).1, (hlift hy hlt).2, he⟩
    · rw [hsaved]
      exact hold u
  · rw [hv]
    split
    · rename_i hraise
      rw [Function.update_of_ne (c.free u m (by omega))]
      exact h.installed u
    · exact h.installed u
  · rw [hv]
    rcases (hh u x).mp hx with hx | ⟨rfl, rfl⟩
    · rw [hother x (hne hx)] at hlt
      split
      · rw [Function.update_of_ne fun he => hne hx (c.distinct x m (by omega) he)]
        exact h.ceilings u x hx hlt
      · exact h.ceilings u x hx hlt
    · rw [hsaved] at hlt
      rw [if_pos hlt, Function.update_self]

/-- `t` gives `m` back, whose ceiling is not what another mutex of `t` has saved. -/
theorem give (h : CeilingInv c priority vector held saved) (hm : held t m) (honly : ∀ u, held u m → u = t)
    (hh : ∀ u x, held' u x ↔ held u x ∧ x ≠ m)
    (hv : ∀ p, (c.osMaxPriority m ≠ 0 → p ≠ c.osMaxPriority m) → vector' p = vector p)
    (hg : saved m < c.osMaxPriority m → ∀ y, y ≠ m → held t y → saved y ≠ c.osMaxPriority m) :
    CeilingInv c (Function.update priority t (saved m)) vector' held' saved := by
  -- nobody else's priority is the ceiling of `m`
  have hkeep : ∀ {u x}, u ≠ t → held u x → held' u x := by
    intro u x hu hx
    refine (hh u x).mpr ⟨hx, ?_⟩
    rintro rfl
    exact hu (honly u hx)
  refine ⟨fun u => ?_, fun u y hy => ?_, fun u => ?_, fun u x hx hlt => ?_⟩
  · by_cases hu : u = t
    · rw [hu, Function.update_self]
      refine (h.backups t m hm).imp id ?_
      rintro ⟨x, hxm, hx, hlt, he⟩
      exact ⟨x, (hh t x).mpr ⟨hx, hxm⟩, hlt, he⟩
    · rw [Function.update_of_ne hu]
      refine (h.tasks u).imp id ?_
      rintro ⟨x, hx, hlt, he⟩
      exact ⟨x, hkeep hu hx, hlt, he⟩
  · obtain ⟨hy, hym⟩ := (hh u y).mp hy
    refine (h.backups u y hy).imp id ?_
    rintro ⟨x, hxy, hx, hlt, he⟩
    refine ⟨x, hxy, (hh u x).mpr ⟨hx, ?_⟩, hlt, he⟩
    rintro rfl
    obtain rfl := honly u hx
    exact hg hlt y hym hy he
  · rw [hv _ fun hz => c.free u m hz]
    exact h.installed u
  · obtain ⟨hx, hxm⟩ := (hh u x).mp hx
    rw [hv _ fun hz he => hxm (c.distinct x m (by omega) he)]
    exact h.ceilings u x hx hlt

end CeilingInv

end Unet4Cooja
