import Unet4Cooja.Brtos.MutexRelease

/-!
# What one task changes with mutexes

* `TaskStep s s' t` : between the states `s` and `s'`, the task `t` changes its own priority, and readies itself or a
  task that waits for a mutex;
* `taskStep_acquire`, `taskStep_resumed`, `taskStep_release`, `taskStep_delay` : the functions do so;
* `MutexSys.withVector`, `SameVector` : the functions, with another priority vector;
* `MutexInv.frame` : changes to which the invariant of the mutexes is indifferent.
-/

namespace Unet4Cooja

variable {τ μ : Type*} {c : Priorities τ μ} {s s' : MutexSys τ μ} {t : τ} {m : μ}

/-- What a call of the task `t` may change. -/
structure TaskStep (s s' : MutexSys τ μ) (t : τ) : Prop where
  priority : ∀ u, u ≠ t → s'.priority u = s.priority u
  pc : ∀ u, u ≠ t → s'.pc u = s.pc u
  timeToWait : ∀ u, u ≠ t → s'.timeToWait u = s.timeToWait u
  ready : ∀ p ∈ s'.osReadyList, p ∈ s.osReadyList ∨ p = s'.priority t ∨
    ∃ u m b, s.pc u = .acquiring m p b
  kept : ∀ p ∈ s.osReadyList, p ≠ s.priority t → p ∈ s'.osReadyList
  self : s.priority t ∈ s.osReadyList → s'.pc t = .running → s'.priority t ∈ s'.osReadyList

theorem TaskStep.refl (s : MutexSys τ μ) (t : τ) : TaskStep s s t where
  priority _ _ := rfl
  pc _ _ := rfl
  timeToWait _ _ := rfl
  ready _ hp := Or.inl hp
  kept _ hp _ := hp
  self hp _ := hp

theorem TaskStep.quiet (hp : s'.priority = s.priority) (hr : s'.osReadyList = s.osReadyList)
    (hpc : ∀ u, u ≠ t → s'.pc u = s.pc u) (ht : ∀ u, u ≠ t → s'.timeToWait u = s.timeToWait u) : TaskStep s s' t where
  priority u _ := by rw [hp]
  pc := hpc
  timeToWait := ht
  ready p hpr := Or.inl (hr ▸ hpr)
  kept p hpr _ := hr ▸ hpr
  self h _ := by rwa [hp, hr]

theorem TaskStep.suspended (hp : s'.priority = s.priority) (hr : s'.osReadyList = s.osReadyList.erase (s.priority t))
    (hpc : ∀ u, u ≠ t → s'.pc u = s.pc u) (ht : ∀ u, u ≠ t → s'.timeToWait u = s.timeToWait u)
    (hself : s'.pc t ≠ .running) : TaskStep s s' t where
  priority u _ := by rw [hp]
  pc := hpc
  timeToWait := ht
  ready p hpr := by
    rw [hr] at hpr
    exact Or.inl (Finset.mem_of_mem_erase hpr)
  kept p hpr hne := by
    rw [hr]
    exact Finset.mem_erase.mpr ⟨hne, hpr⟩
  self _ hrun := absurd hrun hself

section
variable [DecidableEq τ] [DecidableEq μ]

theorem TaskStep.takeCeiling {v : MutexSys τ μ} (h : TaskStep s v t) (q : Nat) (hq : q = v.priority t)
    (hself : v.priority t = s.priority t) (hready : v.osReadyList = s.osReadyList) :
    TaskStep s (v.takeCeiling c t m q) t := by
  unfold MutexSys.takeCeiling
  dsimp only
  split
  · constructor
    · intro u hu
      dsimp only
      rw [Function.update_of_ne hu]
      exact h.priority u hu
    · exact h.pc
    · exact h.timeToWait
    · intro p hp
      dsimp only at hp ⊢
      rw [Function.update_self]
      rcases Finset.mem_insert.mp hp with rfl | hp
      · exact Or.inr (Or.inl rfl)
      · exact Or.inl (hready ▸ Finset.mem_of_mem_erase hp)
    · intro p hp hne
      refine Finset.mem_insert_of_mem (Finset.mem_erase.mpr ⟨?_, ?_⟩)
      · rw [hq, hself]
        exact hne
      · exact hready ▸ hp
    · intro _ _
      dsimp only
      rw [Function.update_self]
      exact Finset.mem_insert_self _ _
  · exact ⟨h.priority, h.pc, h.timeToWait, h.ready, h.kept, h.self⟩

theorem taskStep_acquire (timeWait : WaitTime) : TaskStep s (osMutexAcquire c s t m timeWait) t := by
  unfold osMutexAcquire
  dsimp only
  split
  · exact .refl s t
  · split
    · generalize hv : s.setMutex m { s.mutexes m with osEventState := .busyResource, osEventOwner := .task t } = v
      have hsame : v.priority = s.priority ∧ v.osReadyList = s.osReadyList ∧ v.pc = s.pc ∧
          v.timeToWait = s.timeToWait := by
        subst hv
        exact ⟨rfl, rfl, rfl, rfl⟩
      obtain ⟨hp, hr, hpc, htime⟩ := hsame
      refine TaskStep.takeCeiling (.quiet hp hr (fun u _ => by rw [hpc]) fun u _ => by rw [htime]) _ ?_ ?_ hr
      · rw [hp]
      · rw [hp]
    · split
      · exact .refl s t
      · refine .suspended rfl rfl (fun u hu => Function.update_of_ne hu _ _) (fun u hu => Function.update_of_ne hu _ _) ?_
        dsimp only
        rw [Function.update_self]
        exact nofun

theorem taskStep_resumed {q : Nat} {b : Bool} (hq : s.priority t = q) :
    TaskStep s (osMutexAcquireResumed c s t m q b) t := by
  have hpc : ∀ u, u ≠ t → Function.update s.pc t .running u = s.pc u := fun u hu => Function.update_of_ne hu _ _
  unfold osMutexAcquireResumed
  dsimp only
  split
  · exact .quiet rfl rfl hpc fun _ _ => rfl
  · refine TaskStep.takeCeiling ?_ _ ?_ ?_ ?_
    · split
      · exact .quiet rfl rfl hpc fun u hu => Function.update_of_ne hu _ _
      · exact .quiet rfl rfl hpc fun _ _ => rfl
    · split <;> exact hq.symm
    · split <;> rfl
    · split <;> rfl

omit [DecidableEq μ] in
theorem taskStep_delay : TaskStep s (osDelayTask s t) t := by
  refine .suspended rfl rfl (fun u hu => Function.update_of_ne hu _ _) (fun u hu => Function.update_of_ne hu _ _) ?_
  unfold osDelayTask
  dsimp only
  rw [Function.update_self]
  exact nofun

theorem pc_acquireResumed (q : Nat) (b : Bool) : (osMutexAcquireResumed c s t m q b).pc t = .running := by
  unfold osMutexAcquireResumed MutexSys.takeCeiling
  dsimp only
  split
  · exact Function.update_self ..
  · split
    · split <;> exact Function.update_self ..
    · split <;> exact Function.update_self ..

theorem pc_release : (osMutexRelease c s t m).pc = s.pc := by
  unfold osMutexRelease
  dsimp only
  split
  · rfl
  · split
    · split <;> rfl
    · split
      · split <;> rfl
      · split <;> rfl

theorem taskStep_release (hq : QueueInv s) : TaskStep s (osMutexRelease c s t m) t := by
  unfold osMutexRelease
  dsimp only
  split
  · exact .refl s t
  · generalize hv : (if s.priority t ≠ (s.mutexes m).osOriginalPriority then
        { s with
          osReadyList := insert (s.mutexes m).osOriginalPriority (s.osReadyList.erase (s.priority t))
          priority := Function.update s.priority t (s.mutexes m).osOriginalPriority }
      else s) = v
    have hrestored : TaskStep s v t ∧ v.pc = s.pc := by
      rw [← hv]
      split
      · refine ⟨⟨fun u hu => Function.update_of_ne hu _ _, fun _ _ => rfl, fun _ _ => rfl, fun p hp => ?_,
          fun p hp hne => ?_, fun _ _ => ?_⟩, rfl⟩
        · dsimp only at hp ⊢
          rw [Function.update_self]
          rcases Finset.mem_insert.mp hp with rfl | hp
          · exact Or.inr (Or.inl rfl)
          · exact Or.inl (Finset.mem_of_mem_erase hp)
        · exact Finset.mem_insert_of_mem (Finset.mem_erase.mpr ⟨hne, hp⟩)
        · dsimp only
          rw [Function.update_self]
          exact Finset.mem_insert_self _ _
      · exact ⟨.refl s t, rfl⟩
    obtain ⟨h, -⟩ := hrestored
    split
    · rename_i hwait
      obtain ⟨-, w, b, hw, -⟩ := hq.waiter hwait
      refine ⟨h.priority, h.pc, h.timeToWait, fun p hp => ?_, fun p hp hne => ?_, fun hp hrun => ?_⟩
      · rcases Finset.mem_insert.mp hp with rfl | hp
        · exact Or.inr (Or.inr ⟨w, m, b, hw⟩)
        · exact h.ready p hp
      · exact Finset.mem_insert_of_mem (h.kept p hp hne)
      · exact Finset.mem_insert_of_mem (h.self hp hrun)
    · split
      · exact ⟨h.priority, h.pc, h.timeToWait, h.ready, h.kept, h.self⟩
      · exact ⟨h.priority, h.pc, h.timeToWait, h.ready, h.kept, h.self⟩

/-- A call that does not lower the priority of `t`, and readies nothing else. -/
structure Raises (s s' : MutexSys τ μ) (t : τ) : Prop where
  priority : s.priority t ≤ s'.priority t
  ready : ∀ p ∈ s'.osReadyList, p ∈ s.osReadyList ∨ p = s'.priority t

theorem Raises.takeCeiling {v : MutexSys τ μ} {q : Nat} (hq : v.priority t = q) (hp : v.priority t = s.priority t)
    (hr : v.osReadyList = s.osReadyList) : Raises s (v.takeCeiling c t m q) t := by
  unfold MutexSys.takeCeiling
  dsimp only
  split
  · rename_i hlt
    refine ⟨?_, fun p hpr => ?_⟩
    · dsimp only
      rw [Function.update_self]
      omega
    · dsimp only at hpr ⊢
      rw [Function.update_self]
      rcases Finset.mem_insert.mp hpr with rfl | hpr
      · exact Or.inr rfl
      · exact Or.inl (hr ▸ Finset.mem_of_mem_erase hpr)
  · exact ⟨hp.symm.le, fun p hpr => Or.inl (hr ▸ hpr)⟩

theorem raises_acquire (timeWait : WaitTime) : Raises s (osMutexAcquire c s t m timeWait) t := by
  unfold osMutexAcquire
  dsimp only
  split
  · exact ⟨le_rfl, fun p hp => Or.inl hp⟩
  · split
    · exact Raises.takeCeiling rfl rfl rfl
    · split
      · exact ⟨le_rfl, fun p hp => Or.inl hp⟩
      · exact ⟨le_rfl, fun p hp => Or.inl (Finset.mem_of_mem_erase hp)⟩

theorem raises_resumed {q : Nat} {b : Bool} (hq : s.priority t = q) :
    Raises s (osMutexAcquireResumed c s t m q b) t := by
  unfold osMutexAcquireResumed
  dsimp only
  split
  · exact ⟨le_rfl, fun p hp => Or.inl hp⟩
  · split
    · exact Raises.takeCeiling hq rfl rfl
    · exact Raises.takeCeiling hq rfl rfl

theorem release_free (howner : (s.mutexes m).osEventOwner = .task t) (hwait : (s.mutexes m).osEventWait = 0) :
    (osMutexRelease c s t m).priority t = (s.mutexes m).osOriginalPriority ∧
      ∀ p, p ∈ (osMutexRelease c s t m).osReadyList ∧ p ≠ (s.mutexes m).osOriginalPriority ↔
        p ∈ s.osReadyList ∧ p ≠ s.priority t ∧ p ≠ (s.mutexes m).osOriginalPriority := by
  unfold osMutexRelease
  dsimp only
  rw [if_neg (not_not.mpr howner), if_neg (not_not.mpr hwait)]
  by_cases hp : s.priority t = (s.mutexes m).osOriginalPriority
  · rw [if_neg (not_not.mpr hp)]
    split <;> simp [hp, MutexSys.setMutex]
  · rw [if_pos hp]
    split <;>
    · simp only [MutexSys.setMutex, Function.update_self, Finset.mem_insert, Finset.mem_erase, true_and]
      intro p
      tauto

theorem release_other (howner : (s.mutexes m).osEventOwner ≠ .task t) : osMutexRelease c s t m = s := by
  unfold osMutexRelease
  exact if_pos howner

end

/-! ## Changes outside of the mutexes -/

/-- A step that changes the ready list by the bits of tasks that do not wait for a mutex, and only their times. -/
theorem MutexInv.frame (h : MutexInv c s) (hp : s'.priority = s.priority) (hv : s'.priorityVector = s.priorityVector)
    (hpc : s'.pc = s.pc) (hm : s'.mutexes = s.mutexes)
    (ht : ∀ u, s.pc u ≠ .running → s'.timeToWait u = s.timeToWait u)
    (hr : ∀ p ∈ s'.osReadyList, p ∈ s.osReadyList ∨ ∃ u, s.priority u = p ∧ s.pc u = .running) : MutexInv c s' := by
  have htime : ∀ {u x q b}, s.pc u = .acquiring x q b → s'.timeToWait u = s.timeToWait u := by
    intro u x q b hx
    exact ht u (by rw [hx]; exact nofun)
  refine ⟨⟨fun p hpr => ?_, ?_, ?_, ?_, ?_, fun u x q hx => ?_⟩, h.sameOwners hp hv (fun u x => ?_) fun x => ?_⟩
  · rw [hp, hpc, hm]
    rcases hr p hpr with hpr | ⟨u, hu, hrun⟩
    · obtain ⟨u, hu, hw⟩ := h.ready p hpr
      refine ⟨u, hu, fun x q b hx => ?_⟩
      rw [htime hx]
      exact hw x q b hx
    · exact ⟨u, hu, fun x q b hx => nomatch hrun.symm.trans hx⟩
  · rw [hp, hpc, hm]
    exact h.waiting
  · rw [hpc, hm]
    exact h.listed
  · rw [hm]
    exact h.count
  · rw [hm]
    exact h.available
  · rw [hpc] at hx
    rw [htime hx]
    exact h.forever u x q hx
  · unfold MutexSys.Held
    rw [hm, hpc]
  · unfold MutexSys.saved
    rw [hm]

/-! ## Another priority vector -/

def MutexSys.withVector (s : MutexSys τ μ) (v : Nat → TaskNumber τ) : MutexSys τ μ := { s with priorityVector := v }

/-- The priority vectors agree outside of the priorities of tasks that are not installed. -/
def SameVector (c : Priorities τ μ) (installed : Finset τ) (v w : Nat → TaskNumber τ) : Prop :=
  ∀ p, (∀ u, u ∉ installed → c.iPriority u ≠ p) → v p = w p

section
variable {installed : Finset τ} {v w : Nat → TaskNumber τ}

theorem SameVector.update (h : SameVector c installed v w) (q : Nat) (x : TaskNumber τ) :
    SameVector c installed (Function.update v q x) (Function.update w q x) := by
  intro p hp
  rw [Function.update_apply, Function.update_apply, h p hp]

variable [DecidableEq τ] [DecidableEq μ]

theorem withVector_takeCeiling (h : SameVector c installed v s.priorityVector) (q : Nat) :
    ∃ w, (s.withVector v).takeCeiling c t m q = (s.takeCeiling c t m q).withVector w ∧
      SameVector c installed w (s.takeCeiling c t m q).priorityVector := by
  by_cases hq : q < c.osMaxPriority m
  · refine ⟨Function.update v (c.osMaxPriority m) (.task t), ?_, ?_⟩
    · simp only [MutexSys.takeCeiling, if_pos hq]
      rfl
    · simp only [MutexSys.takeCeiling, if_pos hq]
      exact h.update _ _
  · refine ⟨v, ?_, ?_⟩
    · simp only [MutexSys.takeCeiling, if_neg hq]
      rfl
    · simp only [MutexSys.takeCeiling, if_neg hq]
      exact h

theorem withVector_acquire (h : SameVector c installed v s.priorityVector) (timeWait : WaitTime) :
    ∃ w, osMutexAcquire c (s.withVector v) t m timeWait = (osMutexAcquire c s t m timeWait).withVector w ∧
      SameVector c installed w (osMutexAcquire c s t m timeWait).priorityVector := by
  unfold osMutexAcquire
  dsimp only [MutexSys.withVector]
  split
  · exact ⟨v, rfl, h⟩
  · split
    · exact withVector_takeCeiling (s := s.setMutex m _) h _
    · split
      · exact ⟨v, rfl, h⟩
      · exact ⟨v, rfl, h⟩

theorem withVector_resumed (h : SameVector c installed v s.priorityVector) (q : Nat) (b : Bool) :
    ∃ w, osMutexAcquireResumed c (s.withVector v) t m q b = (osMutexAcquireResumed c s t m q b).withVector w ∧
      SameVector c installed w (osMutexAcquireResumed c s t m q b).priorityVector := by
  unfold osMutexAcquireResumed
  by_cases hover : b = true ∧ s.timeToWait t = .exitByTimeout ∧ q ∈ (s.mutexes m).osEventWaitList
  · refine ⟨v, ?_, ?_⟩
    · simp [MutexSys.withVector, hover, MutexSys.setMutex]
    · simpa [hover, MutexSys.setMutex] using h
  · by_cases htime : b = true ∧ s.timeToWait t ≠ .exitByTimeout
    · obtain ⟨w, he, hw⟩ := withVector_takeCeiling (m := m) (t := t)
        (s := { s with timeToWait := Function.update s.timeToWait t .noTimeout, pc := Function.update s.pc t .running })
        h q
      refine ⟨w, ?_, ?_⟩
      · simpa [MutexSys.withVector, hover, htime] using he
      · simpa [hover, htime] using hw
    · obtain ⟨w, he, hw⟩ := withVector_takeCeiling (m := m) (t := t)
        (s := { s with pc := Function.update s.pc t .running }) h q
      refine ⟨w, ?_, ?_⟩
      · simpa [MutexSys.withVector, hover, htime] using he
      · simpa [hover, htime] using hw

theorem withVector_release (h : SameVector c installed v s.priorityVector)
    (hw : (s.mutexes m).osEventWait ≠ 0 →
      ∀ u, u ∉ installed → c.iPriority u ≠ saScheduler (s.mutexes m).osEventWaitList) :
    ∃ w, osMutexRelease c (s.withVector v) t m = (osMutexRelease c s t m).withVector w ∧
      SameVector c installed w (osMutexRelease c s t m).priorityVector := by
  unfold osMutexRelease
  by_cases howner : (s.mutexes m).osEventOwner = .task t
  · by_cases hwait : (s.mutexes m).osEventWait = 0
    · by_cases hmax : 0 < c.osMaxPriority m
      · by_cases hp : s.priority t = (s.mutexes m).osOriginalPriority
        · refine ⟨Function.update v (c.osMaxPriority m) .mutexPrio, ?_, ?_⟩
          · simp [MutexSys.withVector, howner, hwait, hmax, hp, MutexSys.setMutex]
          · simpa [howner, hwait, hmax, hp, MutexSys.setMutex] using h.update _ _
        · refine ⟨Function.update v (c.osMaxPriority m) .mutexPrio, ?_, ?_⟩
          · simp [MutexSys.withVector, howner, hwait, hmax, hp, MutexSys.setMutex]
          · simpa [howner, hwait, hmax, hp, MutexSys.setMutex] using h.update _ _
      · refine ⟨v, ?_, ?_⟩
        · by_cases hp : s.priority t = (s.mutexes m).osOriginalPriority <;>
            simp [MutexSys.withVector, howner, hwait, hmax, hp, MutexSys.setMutex]
        · by_cases hp : s.priority t = (s.mutexes m).osOriginalPriority <;>
            simpa [howner, hwait, hmax, hp, MutexSys.setMutex] using h
    · have hread := h _ (hw hwait)
      refine ⟨v, ?_, ?_⟩
      · by_cases hp : s.priority t = (s.mutexes m).osOriginalPriority <;>
          simp [MutexSys.withVector, howner, hwait, hp, MutexSys.setMutex, hread]
      · by_cases hp : s.priority t = (s.mutexes m).osOriginalPriority <;>
          simpa [howner, hwait, hp, MutexSys.setMutex] using h
  · exact ⟨v, by simp [MutexSys.withVector, howner], by simpa [howner] using h⟩

end

end Unet4Cooja
