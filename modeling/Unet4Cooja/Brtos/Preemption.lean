import Mathlib.Data.Fintype.Basic
import Unet4Cooja.Brtos.KernelStep

/-!
# Preemption

* `KernelSys.postReturn` : the task to which `OSSemPost`, `OSQueuePost` or `OSMutexRelease` returns in a step;
* `RunsHighest` : no ready task that is not blocked has a higher priority than the running one;
* `SwitchKept` : a release of a mutex no task waits for, and the installation of a task, leave the running task the one
  of the highest priority;
* `KernelPreempts`, `kernelStep_preempts` : such steps keep it so;
* `runsHighest_of_runs` : then it holds whenever a post or a release returns;
* `release_highest_iff` : a release for which no task waits returns so if and only if the condition holds;
* `runsHighest_fails` : it does not when a task was readied while another one held the mutex.
-/

namespace Unet4Cooja
open Lib

variable {τ μ ε κ : Type*}

section
variable (s : KernelSys τ μ ε κ)

def KernelSys.CanRun (t : τ) : Prop := s.priority t ∈ s.osReadyList ∧ s.priority t ∉ s.osBlockedList

instance (t : τ) : Decidable (s.CanRun t) := inferInstanceAs (Decidable (_ ∧ _))

/-- The task `t` runs, and no task that can run has a higher current priority. -/
structure RunsHighest (t : τ) : Prop where
  running : s.currentTask = .task t
  highest : ∀ u, s.CanRun u → s.priority u ≤ s.priority t

variable [DecidableEq τ]

/-- The task to which a call of `OSSemPost`, `OSQueuePost` or `OSMutexRelease` returns in the step. -/
def KernelSys.postReturn : KernelAct τ μ ε κ → Option τ
  | .semPost (some t) e => if (s.wait (.inl e)).osEventWait ≠ 0 then none else some t
  | .queuePost (some t) k _ =>
    if (s.queue k).osqEntries < (s.queue k).osqSize ∧ (s.wait (.inr k)).osEventWait ≠ 0 then none else some t
  | .release t m => if s.HandsOver t m then none else some t
  | .resume t =>
    match s.call t with
    | some .posting => some t
    | _ => none
  | _ => none

end

/-- A release of a mutex that no task waits for finds no other task that can run above `OSOriginalPriority`, a mutex
is released while no other one of its owner has saved its ceiling, and no task above the running one is installed. -/
def SwitchKept (c : KernelPriorities τ μ) (s : KernelSys τ μ ε κ) : KernelAct τ μ ε κ → Prop
  | .release t m => KernelReleaseKept c s (.release t m) ∧
    ((s.mutexes m).osEventOwner = .task t → (s.mutexes m).osEventWait = 0 →
      ∀ u, u ≠ t → s.CanRun u → s.priority u ≤ (s.mutexes m).osOriginalPriority)
  | .install t u => c.iPriority u ∉ s.osBlockedList → c.iPriority u ≤ s.priority t
  | _ => True

instance [DecidableEq τ] [DecidableEq μ] [Fintype τ] [Fintype μ] (c : KernelPriorities τ μ) (s : KernelSys τ μ ε κ)
    (a : KernelAct τ μ ε κ) : Decidable (SwitchKept c s a) :=
  match a with
  | .release t m =>
    inferInstanceAs (Decidable (ReleaseKept c.toPriorities s.toMutexSys (.release t m) ∧
      (_ → _ → ∀ u, u ≠ t → s.CanRun u → s.priority u ≤ (s.mutexes m).osOriginalPriority)))
  | .install .. => inferInstanceAs (Decidable (_ → _))
  | .acquire .. | .delay .. | .semPend .. | .queuePend .. | .semPost .. | .queuePost .. | .blockTask ..
  | .unBlockTask .. | .blockPriority .. | .unBlockPriority .. | .blockMultipleTask .. | .unBlockMultipleTask ..
  | .resume .. | .enter | .tick .. | .exit => inferInstanceAs (Decidable True)

/-- Outside of interrupts, no priority that can run is above that of the running task. -/
def KernelPreempts (s : KernelSys τ μ ε κ) : Prop :=
  s.iNesting = false → ∀ t, s.currentTask = .task t →
    ∀ p ∈ s.osReadyList, p ∉ s.osBlockedList → p ≤ s.priority t

namespace KernelPreempts
variable {c : KernelPriorities τ μ} {s s' : KernelSys τ μ ε κ} {t : τ} {m : μ}

theorem of_scheduled (h : KernelInv c s) (hcur : s.currentTask = s.osSchedule) : KernelPreempts s := by
  intro _ t ht p hp hb
  obtain ⟨u, hu, -, hmax, -⟩ := h.osSchedule_spec
  obtain rfl : u = t := by simpa using (hu.symm.trans hcur.symm).trans ht
  exact hmax p hp hb

theorem of_nesting (hn : s.iNesting = true) : KernelPreempts s := fun h => nomatch h.symm.trans hn

/-- A step in which the running task stays, and nothing above it becomes ready or is unblocked. -/
theorem stays (h : KernelPreempts s) (hcur : s.currentTask = .task t) (hn : s'.iNesting = s.iNesting)
    (hcur' : s'.currentTask = s.currentTask) (hp : s.priority t ≤ s'.priority t)
    (hr : ∀ p ∈ s'.osReadyList, p ∉ s'.osBlockedList →
      (p ∈ s.osReadyList ∧ p ∉ s.osBlockedList) ∨ p ≤ s'.priority t) : KernelPreempts s' := by
  intro hn' u hu p hpr hpb
  obtain rfl : t = u := by simpa using (hcur.symm.trans hcur'.symm).trans hu
  rcases hr p hpr hpb with ⟨hpr, hpb⟩ | hle
  · exact (h (hn.symm.trans hn') t hcur p hpr hpb).trans hp
  · exact hle

theorem quiet (h : KernelPreempts s) (hn : s'.iNesting = s.iNesting) (hcur : s'.currentTask = s.currentTask)
    (hp : s'.priority = s.priority) (hr : s'.osReadyList = s.osReadyList) (hb : s.osBlockedList ⊆ s'.osBlockedList) :
    KernelPreempts s' := by
  intro hn' t ht p hpr hpb
  rw [hp]
  rw [hr] at hpr
  exact h (hn.symm.trans hn') t (hcur.symm.trans ht) p hpr fun hin => hpb (hb hin)

end KernelPreempts

section
variable [DecidableEq τ] {c : KernelPriorities τ μ} {s s' : KernelSys τ μ ε κ} {t : τ} {m : μ}

theorem KernelPreempts.leave {caller : Option τ} {x : KernelCall (ε ⊕ κ)}
    (hok : KernelOk c (s.leave caller x)) (hn : caller = none → s.iNesting = true)
    (ht : ∀ t, caller = some t → s.iNesting = false) : KernelPreempts (s.leave caller x) := by
  cases caller with
  | none => exact .of_nesting (hn rfl)
  | some t => exact .of_scheduled hok.toKernelInv (leave_current (ht t rfl))

omit [DecidableEq τ] in
theorem KernelSys.Calls.nesting {caller : Option τ} (h : s.Calls c caller) :
    (caller = none → s.iNesting = true) ∧ ∀ t, caller = some t → s.iNesting = false := by
  cases caller with
  | none => exact ⟨fun _ => h, nofun⟩
  | some t => exact ⟨nofun, fun _ _ => h.1⟩

variable [DecidableEq μ]

/-- A release of a mutex that no task waits for returns to the task of the highest priority if and only if no other
task that can run is above `OSOriginalPriority`. -/
theorem release_highest_iff (h : KernelOk c s) (hr : s.Runs c t) (howner : (s.mutexes m).osEventOwner = .task t)
    (hwait : (s.mutexes m).osEventWait = 0) :
    RunsHighest (s.osMutexRelease c t m) t ↔
      ∀ u, u ≠ t → s.CanRun u → s.priority u ≤ (s.mutexes m).osOriginalPriority := by
  have hstep : s.osMutexRelease c t m =
      { s with toMutexSys := osMutexRelease c.toPriorities s.toMutexSys t m } := if_neg fun hh => hh.2 hwait
  obtain ⟨hp, hready⟩ := release_free (c := c.toPriorities) howner hwait
  have hframe : TaskStep s.toMutexSys (osMutexRelease c.toPriorities s.toMutexSys t m) t :=
    taskStep_release h.queueInv
  rw [hstep]
  constructor
  · intro hhigh u hut hu
    have hp' := hframe.priority u hut
    have hu' : KernelSys.CanRun
        { s with toMutexSys := osMutexRelease c.toPriorities s.toMutexSys t m } u := by
      unfold KernelSys.CanRun
      dsimp only
      rw [hp']
      exact ⟨hframe.kept _ hu.1 fun he => hut (h.inj he), hu.2⟩
    have hle := hhigh.highest u hu'
    dsimp only at hle
    rwa [hp', hp] at hle
  · refine fun hall => ⟨hr.2.1, fun u hu => ?_⟩
    dsimp only
    rw [hp]
    by_cases hut : u = t
    · rw [hut, hp]
    · have hp' := hframe.priority u hut
      rw [hp']
      by_cases hpo : s.priority u = (s.mutexes m).osOriginalPriority
      · rw [hpo]
      · refine hall u hut ⟨?_, ?_⟩
        · exact ((hready _).mp ⟨hp' ▸ hu.1, hpo⟩).1
        · exact hp' ▸ hu.2

variable [DecidableEq ε] [DecidableEq κ]

theorem KernelPreempts.release (h : KernelPreempts s) (hok : KernelOk c s) (hr : s.Runs c t)
    (hg : SwitchKept c s (.release t m)) : KernelPreempts (s.osMutexRelease c t m) := by
  have hok' := hok.mutexRelease hr hg.1
  by_cases hhands : s.HandsOver t m
  · have hleave : s.osMutexRelease c t m =
        { s with toMutexSys := osMutexRelease c.toPriorities s.toMutexSys t m }.leave (some t) .posting := if_pos hhands
    refine .of_scheduled hok'.toKernelInv ?_
    rw [hleave]
    exact leave_current hr.1
  · by_cases howner : (s.mutexes m).osEventOwner = .task t
    · have hwait : (s.mutexes m).osEventWait = 0 := by
        by_contra hne
        exact hhands ⟨howner, hne⟩
      have hhigh := (release_highest_iff hok hr howner hwait).mpr (hg.2 howner hwait)
      intro hn u hu p hpr hpb
      obtain rfl : t = u := by simpa using hhigh.running.symm.trans hu
      obtain ⟨w, -, rfl⟩ := hok'.task_of_ready hpr
      exact hhigh.highest w ⟨hpr, hpb⟩
    · unfold KernelSys.osMutexRelease
      dsimp only
      rw [if_neg hhands, release_other howner]
      exact h

theorem KernelPreempts.resume (h : KernelPreempts s) (hok : KernelOk c s) (hcur : s.currentTask = .task t)
    (hs : s.resume c t = some s') : KernelPreempts s' := by
  unfold KernelSys.resume at hs
  obtain ⟨v, -, hm⟩ := hok.mutex
  split at hs
  · obtain rfl := Option.some.inj hs
    exact h.quiet rfl rfl rfl rfl (Finset.Subset.refl _)
  · rename_i x q b hpc
    obtain rfl := Option.some.inj hs
    have hq : s.priority t = q := (hm.waiting t x q b hpc).1
    have hraises := raises_resumed (c := c.toPriorities) (m := x) (b := b) hq
    refine h.stays hcur rfl rfl hraises.priority fun p hp hb => ?_
    exact (hraises.ready p hp).imp (fun hp => ⟨hp, hb⟩) fun he => he.le
  · split at hs
    · exact nomatch hs
    · rename_i e q b hpend
      obtain rfl := Option.some.inj hs
      unfold KernelSys.pendResumed
      split
      · exact h.quiet rfl rfl rfl rfl (Finset.Subset.refl _)
      · split <;> exact h.quiet rfl rfl rfl rfl (Finset.Subset.refl _)
    all_goals
      obtain rfl := Option.some.inj hs
      exact h.quiet rfl rfl rfl rfl (Finset.Subset.refl _)

theorem kernelStep_preempts {a : KernelAct τ μ ε κ} (h : KernelPreempts s) (hok : KernelOk c s) (hg : SwitchKept c s a)
    (hs : kernelStep c s a = some s') (hok' : KernelOk c s') : KernelPreempts s' := by
  cases a with
  | enter =>
    obtain ⟨-, hs⟩ := Option.ite_none_left_eq_some.mp hs
    obtain rfl := Option.some.inj hs
    exact .of_nesting rfl
  | exit =>
    obtain ⟨-, hs⟩ := Option.ite_none_right_eq_some.mp hs
    obtain rfl := Option.some.inj hs
    exact .of_scheduled hok'.toKernelInv rfl
  | resume t =>
    obtain ⟨⟨-, hcur⟩, hs⟩ := Option.ite_none_right_eq_some.mp hs
    exact h.resume hok hcur hs
  | tick t =>
    obtain ⟨⟨hn, -⟩, hs⟩ := Option.ite_none_right_eq_some.mp hs
    obtain rfl := Option.some.inj hs
    exact .of_nesting hn
  | install t u =>
    obtain ⟨⟨hr, hu⟩, hs⟩ := Option.ite_none_right_eq_some.mp hs
    obtain rfl := Option.some.inj hs
    have htu : t ≠ u := by
      rintro rfl
      exact hu (hok.installed_of_ready (hok.current_eq hr.2.1))
    have hp : (s.osInstallTask c u).priority t = s.priority t := Function.update_of_ne htu ..
    refine h.stays hr.2.1 rfl rfl hp.ge fun p hpr hpb => ?_
    rw [hp]
    rcases Finset.mem_insert.mp hpr with rfl | hpr
    · exact Or.inr (hg hpb)
    · exact Or.inl ⟨hpr, hpb⟩
  | acquire t m timeWait =>
    obtain ⟨hr, hs⟩ := Option.ite_none_right_eq_some.mp hs
    obtain rfl := Option.some.inj hs
    have hraises := raises_acquire (c := c.toPriorities) (s := s.toMutexSys) (t := t) (m := m) timeWait
    unfold KernelSys.osMutexAcquire at hok' ⊢
    dsimp only at hok' ⊢
    split
    · refine h.stays hr.2.1 rfl rfl hraises.priority fun p hp hb => ?_
      exact (hraises.ready p hp).imp (fun hp => ⟨hp, hb⟩) fun he => he.le
    · rename_i hpc
      rw [if_neg hpc] at hok'
      exact .of_scheduled hok'.toKernelInv (changeContext_current hr.1)
  | release t m =>
    obtain ⟨hr, hs⟩ := Option.ite_none_right_eq_some.mp hs
    obtain rfl := Option.some.inj hs
    exact h.release hok hr hg
  | delay t =>
    obtain ⟨hr, hs⟩ := Option.ite_none_right_eq_some.mp hs
    obtain rfl := Option.some.inj hs
    exact .of_scheduled hok'.toKernelInv (changeContext_current hr.1)
  | semPend t e timeWait =>
    obtain ⟨hr, hs⟩ := Option.ite_none_right_eq_some.mp hs
    obtain rfl := Option.some.inj hs
    unfold KernelSys.osSemPend at hok' ⊢
    split
    · exact h.quiet rfl rfl rfl rfl (Finset.Subset.refl _)
    · rename_i hcount
      rw [if_neg hcount] at hok'
      split
      · exact h
      · rename_i hwait
        rw [if_neg hwait] at hok'
        exact .of_scheduled hok'.toKernelInv (changeContext_current hr.1)
  | queuePend t k timeWait =>
    obtain ⟨hr, hs⟩ := Option.ite_none_right_eq_some.mp hs
    obtain rfl := Option.some.inj hs
    unfold KernelSys.osQueuePend at hok' ⊢
    split
    · exact h.quiet rfl rfl rfl rfl (Finset.Subset.refl _)
    · rename_i hcount
      rw [if_neg hcount] at hok'
      split
      · exact h
      · rename_i hwait
        rw [if_neg hwait] at hok'
        exact .of_scheduled hok'.toKernelInv (changeContext_current hr.1)
  | semPost caller e =>
    obtain ⟨hr, hs⟩ := Option.ite_none_right_eq_some.mp hs
    obtain rfl := Option.some.inj hs
    unfold KernelSys.osSemPost at hok' ⊢
    split
    · rename_i hwait
      rw [if_pos hwait] at hok'
      exact .leave hok' hr.nesting.1 hr.nesting.2
    · split
      · exact h.quiet rfl rfl rfl rfl (Finset.Subset.refl _)
      · exact h
  | queuePost caller k data =>
    obtain ⟨hr, hs⟩ := Option.ite_none_right_eq_some.mp hs
    obtain rfl := Option.some.inj hs
    unfold KernelSys.osQueuePost at hok' ⊢
    dsimp only at hok' ⊢
    split
    · rename_i hspace
      rw [if_pos hspace] at hok'
      split
      · rename_i hwait
        rw [if_pos hwait] at hok'
        exact .leave hok' hr.nesting.1 hr.nesting.2
      · exact h.quiet rfl rfl rfl rfl (Finset.Subset.refl _)
    · exact h
  | blockTask t u =>
    obtain ⟨hr, hs⟩ := Option.ite_none_right_eq_some.mp hs
    obtain rfl := Option.some.inj hs
    unfold KernelSys.osBlockTask at hok' ⊢
    dsimp only at hok' ⊢
    split
    · rename_i htu
      rw [if_pos htu] at hok'
      exact .of_scheduled hok'.toKernelInv (leave_current hr.1)
    · exact h.quiet rfl rfl rfl rfl (Finset.subset_insert _ _)
  | unBlockTask caller u =>
    obtain ⟨hr, hs⟩ := Option.ite_none_right_eq_some.mp hs
    obtain rfl := Option.some.inj hs
    exact .leave hok' hr.nesting.1 hr.nesting.2
  | blockPriority t iPriority =>
    obtain ⟨hr, hs⟩ := Option.ite_none_right_eq_some.mp hs
    obtain rfl := Option.some.inj hs
    unfold KernelSys.osBlockPriority at hok' ⊢
    dsimp only at hok' ⊢
    split
    · rename_i hself
      rw [if_pos hself] at hok'
      exact .of_scheduled hok'.toKernelInv (leave_current hr.1)
    · exact h.quiet rfl rfl rfl rfl (Finset.subset_insert _ _)
  | unBlockPriority caller iPriority =>
    obtain ⟨hr, hs⟩ := Option.ite_none_right_eq_some.mp hs
    obtain rfl := Option.some.inj hs
    exact .leave hok' hr.nesting.1 hr.nesting.2
  | blockMultipleTask t us =>
    obtain ⟨hr, hs⟩ := Option.ite_none_right_eq_some.mp hs
    obtain rfl := Option.some.inj hs
    exact h.quiet rfl rfl rfl rfl Finset.subset_union_left
  | unBlockMultipleTask t us =>
    obtain ⟨hr, hs⟩ := Option.ite_none_right_eq_some.mp hs
    obtain rfl := Option.some.inj hs
    exact .of_scheduled hok'.toKernelInv (leave_current hr.1)

/-! ## Runs -/

omit [DecidableEq μ] [DecidableEq ε] [DecidableEq κ] [DecidableEq τ] in
theorem SwitchKept.releaseKept {a : KernelAct τ μ ε κ} (h : SwitchKept c s a) : KernelReleaseKept c s a := by
  cases a with
  | release => exact h.1
  | _ => trivial

theorem current_of_postReturn {a : KernelAct τ μ ε κ} (hs : kernelStep c s a = some s')
    (hret : s.postReturn a = some t) : s'.iNesting = false ∧ s'.currentTask = .task t := by
  cases a with
  | semPost caller e =>
    obtain ⟨hr, hs⟩ := Option.ite_none_right_eq_some.mp hs
    obtain rfl := Option.some.inj hs
    cases caller with
    | none => exact nomatch hret
    | some u =>
      obtain ⟨hwait, hret⟩ := Option.ite_none_left_eq_some.mp hret
      obtain rfl := Option.some.inj hret
      unfold KernelSys.osSemPost
      rw [if_neg hwait]
      split <;> exact ⟨hr.1, hr.2.1⟩
  | queuePost caller k data =>
    obtain ⟨hr, hs⟩ := Option.ite_none_right_eq_some.mp hs
    obtain rfl := Option.some.inj hs
    cases caller with
    | none => exact nomatch hret
    | some u =>
      obtain ⟨hwait, hret⟩ := Option.ite_none_left_eq_some.mp hret
      obtain rfl := Option.some.inj hret
      unfold KernelSys.osQueuePost
      dsimp only
      split
      · rename_i hspace
        rw [if_neg fun hne => hwait ⟨hspace, hne⟩]
        exact ⟨hr.1, hr.2.1⟩
      · exact ⟨hr.1, hr.2.1⟩
  | release u m =>
    obtain ⟨hr, hs⟩ := Option.ite_none_right_eq_some.mp hs
    obtain rfl := Option.some.inj hs
    obtain ⟨hhands, hret⟩ := Option.ite_none_left_eq_some.mp hret
    obtain rfl := Option.some.inj hret
    unfold KernelSys.osMutexRelease
    dsimp only
    rw [if_neg hhands]
    exact ⟨hr.1, hr.2.1⟩
  | resume u =>
    obtain ⟨⟨hn, hcur⟩, hs⟩ := Option.ite_none_right_eq_some.mp hs
    have hut : u = t := by
      unfold KernelSys.postReturn at hret
      dsimp only at hret
      split at hret
      · exact Option.some.inj hret
      · exact nomatch hret
    rw [hut] at hcur hs
    unfold KernelSys.resume at hs
    split at hs
    · obtain rfl := Option.some.inj hs
      exact ⟨hn, hcur⟩
    · obtain rfl := Option.some.inj hs
      exact ⟨hn, hcur⟩
    · split at hs
      · exact nomatch hs
      · obtain rfl := Option.some.inj hs
        unfold KernelSys.pendResumed
        split
        · exact ⟨hn, hcur⟩
        · split <;> exact ⟨hn, hcur⟩
      all_goals
        obtain rfl := Option.some.inj hs
        exact ⟨hn, hcur⟩
  | _ => exact nomatch hret

/-- In every run of such steps, no ready task that is not blocked has a higher priority than the running one when
`OSSemPost`, `OSQueuePost` or `OSMutexRelease` returns to it. -/
theorem runsHighest_of_runs {s₀ : KernelSys τ μ ε κ} {as : List (KernelAct τ μ ε κ)} {a : KernelAct τ μ ε κ}
    (h0 : KernelStarted c s₀) (r : Runs (kernelStep c) (SwitchKept c) s₀ as s) (hg : SwitchKept c s a)
    (hs : kernelStep c s a = some s') (hret : s.postReturn a = some t) : RunsHighest s' t := by
  have hstart : KernelOk c s₀ := kernelStarted_ok h0
  have hpreempts : KernelPreempts s₀ := .of_scheduled hstart.toKernelInv h0.currentTask
  have hstep : ∀ (u : KernelSys τ μ ε κ) a v, KernelOk c u ∧ KernelPreempts u → SwitchKept c u a → kernelStep c u a = some v →
      KernelOk c v ∧ KernelPreempts v := by
    intro u a v h hg hs
    have hok := kernelStep_ok h.1 hg.releaseKept hs
    exact ⟨hok, kernelStep_preempts h.2 h.1 hg hs hok⟩
  have h := r.invariant (I := fun s => KernelOk c s ∧ KernelPreempts s) ⟨hstart, hpreempts⟩ hstep
  obtain ⟨hn, hcur⟩ := current_of_postReturn hs hret
  exact ⟨hcur, fun u hu => (hstep s a s' h hg hs).2 hn t hcur _ hu.1 hu.2⟩

end

/-- A task uses a mutex, and posts to a task of a higher priority that pends. -/
def postedAbove : List (KernelAct (Fin 3) Bool Unit Empty) :=
  [.semPend 2 () .zero, .acquire 1 true .zero, .release 1 true, .semPost (some 1) (), .resume 2, .delay 2]

theorem runsHighest_of_runs_postedAbove :
    ∃ s s', Runs (kernelStep smallKernel) (SwitchKept smallKernel) smallKernelStarted postedAbove s ∧
      kernelStep smallKernel s (.resume 1) = some s' ∧ RunsHighest s' 1 := by
  have hrun : (exec (guarded (kernelStep smallKernel) (SwitchKept smallKernel)) smallKernelStarted postedAbove).map
      (fun s => (s.call 1, (kernelStep smallKernel s (.resume 1)).isSome)) = some (some .posting, true) := by
    decide +kernel
  obtain ⟨s, hs, hobs⟩ := Option.map_eq_some_iff.mp hrun
  simp only [Prod.mk.injEq] at hobs
  obtain ⟨s', hs'⟩ := Option.isSome_iff_exists.mp hobs.2
  have r := Runs.of_exec_guarded hs
  have hret : s.postReturn (.resume 1) = some 1 := by
    unfold KernelSys.postReturn
    dsimp only
    rw [hobs.1]
  have hg : SwitchKept smallKernel s (.resume 1) := trivial
  exact ⟨s, s', r, hs', runsHighest_of_runs smallKernelStarted_started r hg hs' hret⟩

/-- An interrupt readies a task while another one holds a mutex with a ceiling above both. -/
def readiedBelow : List (KernelAct (Fin 3) Bool Unit Empty) :=
  [.semPend 2 () .zero, .acquire 1 true .zero, .enter, .semPost none (), .exit]

/-- The release of the mutex returns to a task below the one that the interrupt readied. -/
theorem runsHighest_fails :
    ¬ ∀ (s s' : KernelSys (Fin 3) Bool Unit Empty) (as : List (KernelAct (Fin 3) Bool Unit Empty))
      (a : KernelAct (Fin 3) Bool Unit Empty) (t : Fin 3), Runs (kernelStep smallKernel) Free smallKernelStarted as s →
        kernelStep smallKernel s a = some s' → s.postReturn a = some t → RunsHighest s' t := by
  intro h
  have hrun : (exec (kernelStep smallKernel) smallKernelStarted readiedBelow).map (fun s =>
      (decide (s.HandsOver 1 true), (kernelStep smallKernel s (.release 1 true)).map fun s' =>
        (decide (s'.CanRun 2), s'.priority 1, s'.priority 2))) = some (false, some (true, 3, 5)) := by
    decide +kernel
  obtain ⟨s, hs, hobs⟩ := Option.map_eq_some_iff.mp hrun
  simp only [Prod.mk.injEq, decide_eq_false_iff_not] at hobs
  obtain ⟨hhands, hs'⟩ := hobs
  obtain ⟨s', hs', hobs⟩ := Option.map_eq_some_iff.mp hs'
  simp only [Prod.mk.injEq, decide_eq_true_eq] at hobs
  have hhigh := h s s' _ _ 1 (Runs.of_exec hs) hs' (if_neg hhands)
  have hle := hhigh.highest 2 hobs.1
  omega

end Unet4Cooja
