import Unet4Cooja.Brtos.MutexRelease

/-!
# Mutual exclusion

* `AcquireReturn`, `MutexSys.returns` : what a call of `OSMutexAcquire` returns in a step;
* `noteAcquired` : the observer of the tasks between an acquire and the next release;
* `Exclusive`, `HandsOver`, `Refused` : exclusion, the choice of the next owner, and a refused acquire;
* `exclusive_of_runs` : they hold in every run of tasks that use one mutex.
-/

namespace Unet4Cooja
open Lib

variable {τ μ : Type*}

/-! ## What is said of one mutex -/

inductive AcquireReturn
  | ok | exitByNoResourceAvailable
  deriving DecidableEq

section
variable [DecidableEq τ] (s : MutexSys τ μ)

/-- The task whose `OSMutexAcquire` returns in the step, from which mutex, and what it returns. -/
def MutexSys.returns : MutexAct τ μ → Option (τ × μ × AcquireReturn)
  | .acquire t m timeWait =>
    if (s.mutexes m).osEventOwner = .task t then some (t, m, .ok)
    else if (s.mutexes m).osEventState = .availableResource then some (t, m, .ok)
    else if timeWait = .noTimeout then some (t, m, .exitByNoResourceAvailable)
    else none
  | .resume t =>
    match s.pc t with
    | .acquiring m iPriority timeWait =>
      if timeWait ∧ s.timeToWait t = .exitByTimeout ∧ iPriority ∈ (s.mutexes m).osEventWaitList then
        some (t, m, .exitByNoResourceAvailable)
      else some (t, m, .ok)
    | _ => none
  | .release .. | .delay _ | .tick _ => none

/-- The tasks between an acquire that returned `OK` and the next release. -/
def noteAcquired (held : τ → Bool) (a : MutexAct τ μ) : τ → Bool :=
  match s.returns a, a with
  | some (t, _, .ok), _ => Function.update held t true
  | _, .release t _ => Function.update held t false
  | _, _ => held

end

section
variable (s : MutexSys τ Unit)

def MutexSys.owner : TaskNumber τ := (s.mutexes ()).osEventOwner

def MutexSys.InWaitList (t : τ) : Prop :=
  ∃ p b, s.pc t = .acquiring () p b ∧ p ∈ (s.mutexes ()).osEventWaitList

/-- At most one task has the mutex, and it is `OSEventOwner`. -/
structure Exclusive (held : τ → Bool) : Prop where
  one : ∀ t u, held t = true → held u = true → t = u
  owner : ∀ t, held t = true → s.owner = .task t

/-- A release by the owner while tasks wait makes the one of the highest priority the owner. -/
def HandsOver (a : MutexAct τ Unit) (s' : MutexSys τ Unit) : Prop :=
  ∀ t, a = .release t () → s.owner = .task t → (∃ u, s.InWaitList u) →
    ∃ w, s.InWaitList w ∧ (∀ u, s.InWaitList u → s.priority u ≤ s.priority w) ∧ s'.owner = .task w

/-- A task whose acquire returns `EXIT_BY_NO_RESOURCE_AVAILABLE` is neither the owner nor in the wait
list. -/
def Refused [DecidableEq τ] (a : MutexAct τ Unit) (s' : MutexSys τ Unit) : Prop :=
  ∀ t, s.returns a = some (t, (), .exitByNoResourceAvailable) →
    s'.owner ≠ .task t ∧ s'.priority t ∉ (s'.mutexes ()).osEventWaitList

end

/-! ## One step -/

section
variable [DecidableEq τ] (c : Priorities τ Unit) (s : MutexSys τ Unit) (t : τ) (p : Nat)

omit [DecidableEq τ] in
@[simp] theorem owner_setMutex (x : BrtosMutex τ) : (s.setMutex () x).owner = x.osEventOwner := by
  simp [MutexSys.owner, MutexSys.setMutex]

@[simp] theorem owner_takeCeiling : (s.takeCeiling c t () p).owner = s.owner := by
  unfold MutexSys.takeCeiling
  dsimp only
  split <;> simp [MutexSys.owner, MutexSys.setMutex]

@[simp] theorem pc_takeCeiling : (s.takeCeiling c t () p).pc = s.pc := by
  unfold MutexSys.takeCeiling
  dsimp only
  split <;> rfl

end

section
variable [DecidableEq τ] {c : Priorities τ Unit} {s s' : MutexSys τ Unit} {t u : τ} {held : τ → Bool}

omit [DecidableEq τ] in
theorem releaseKept_of_one (a : MutexAct τ Unit) : ReleaseKept c s a := by
  cases a with
  | release t m => exact fun _ _ x hx => absurd (Subsingleton.elim x m) hx
  | acquire | delay | resume | tick => trivial

/-- The tasks that are noted own the mutex and are not in their wait for it. -/
def HeldByNoted (s : MutexSys τ Unit) (held : τ → Bool) : Prop := ∀ t, held t = true → s.Held t ()

omit [DecidableEq τ] in
theorem HeldByNoted.keep (h : HeldByNoted s held) (ho : s'.owner = s.owner)
    (hpc : ∀ u, held u = true → s'.pc u = s.pc u) : HeldByNoted s' held := by
  intro u hu
  have hh := h u hu
  refine ⟨ho.trans hh.1, ?_⟩
  rw [hpc u hu]
  exact hh.2

theorem HeldByNoted.acquire (i : MutexInv c s) (h : HeldByNoted s held) (hrun : s.pc t = .running)
    (timeWait : WaitTime) :
    HeldByNoted (osMutexAcquire c s t () timeWait) (noteAcquired s held (.acquire t () timeWait)) := by
  have hself : (s.pc t).waitsFor ≠ some () := by
    rw [hrun]
    exact nofun
  unfold osMutexAcquire noteAcquired MutexSys.returns
  dsimp only
  by_cases howner : (s.mutexes ()).osEventOwner = .task t
  · rw [if_pos howner, if_pos howner]
    intro u hu
    by_cases hut : u = t
    · rw [hut]
      exact ⟨howner, hself⟩
    · dsimp only at hu
      rw [Function.update_of_ne hut] at hu
      exact h u hu
  · rw [if_neg howner, if_neg howner]
    have hne : ∀ u, held u = true → u ≠ t := by
      rintro u hu rfl
      exact howner (h u hu).1
    by_cases hfree : (s.mutexes ()).osEventState = .availableResource
    · rw [if_pos hfree, if_pos hfree]
      intro u hu
      by_cases hut : u = t
      · rw [hut]
        refine ⟨?_, ?_⟩
        · show MutexSys.owner _ = _
          rw [owner_takeCeiling, owner_setMutex]
        · rw [pc_takeCeiling]
          exact hself
      · -- a free mutex has no owner
        dsimp only at hu
        rw [Function.update_of_ne hut] at hu
        have hh := (h u hu).1
        rw [i.available () hfree] at hh
        cases hh
    · rw [if_neg hfree, if_neg hfree]
      by_cases hwait : timeWait = .noTimeout
      · rw [if_pos hwait, if_pos hwait]
        exact h
      · rw [if_neg hwait, if_neg hwait]
        refine h.keep ?_ fun u hu => Function.update_of_ne (hne u hu) _ _
        show (s.setMutex () _).owner = s.owner
        rw [owner_setMutex]
        rfl

theorem HeldByNoted.release (h : HeldByNoted s held) (hrun : s.pc t = .running) :
    HeldByNoted (osMutexRelease c s t ()) (noteAcquired s held (.release t ())) := by
  intro u hu
  have hu : Function.update held t false u = true := hu
  have hut : u ≠ t := by
    rintro rfl
    rw [Function.update_self] at hu
    cases hu
  rw [Function.update_of_ne hut] at hu
  have hh := h u hu
  -- the owner is `u`, so the release has no effect
  unfold osMutexRelease
  dsimp only
  rw [if_pos]
  · exact hh
  · rw [hh.1]
    intro he
    cases he
    exact hut rfl

theorem HeldByNoted.resume (i : MutexInv c s) (h : HeldByNoted s held) (ht : s.Selected t) {p : Nat}
    {b : Bool} (hpc : s.pc t = .acquiring () p b) :
    HeldByNoted (osMutexAcquireResumed c s t () p b) (noteAcquired s held (.resume t)) := by
  have hne : ∀ u, held u = true → u ≠ t := by
    rintro u hu rfl
    apply (h u hu).2
    rw [hpc]
    rfl
  have howner : ∀ u, u ≠ t → Function.update s.pc t .running u = s.pc u :=
    fun u hu => Function.update_of_ne hu _ _
  have hselected := i.selected ht hpc
  have hlist := (i.waiting t () p b hpc).2
  unfold osMutexAcquireResumed noteAcquired MutexSys.returns
  dsimp only
  rw [hpc]
  dsimp only
  split
  · -- the time is over
    refine h.keep ?_ fun u hu => howner u (hne u hu)
    rw [owner_setMutex]
    rfl
  · rename_i hover
    have hmine : s.owner = .task t := by
      rcases hselected with ho | ⟨hb, hexit⟩
      · exact ho
      · by_contra hno
        exact hover ⟨hb, hexit, hlist.mpr hno⟩
    intro u hu
    by_cases hut : u = t
    · rw [hut]
      refine ⟨?_, ?_⟩
      · show MutexSys.owner _ = _
        rw [owner_takeCeiling]
        split <;> exact hmine
      · rw [pc_takeCeiling]
        split <;>
        · dsimp only
          rw [Function.update_self]
          exact nofun
    · dsimp only at hu
      rw [Function.update_of_ne hut] at hu
      have hh := (h u hu).1
      rw [show (s.mutexes ()).osEventOwner = .task t from hmine] at hh
      cases hh
      exact absurd rfl hut

theorem HeldByNoted.step (i : MutexInv c s) (h : HeldByNoted s held) {a : MutexAct τ Unit}
    (hs : mutexStep c s a = some s') : HeldByNoted s' (noteAcquired s held a) := by
  unfold mutexStep at hs
  cases a with
  | acquire u m timeWait =>
    dsimp only at hs
    split at hs <;> cases hs
    rename_i hrun
    exact h.acquire i hrun.2 timeWait
  | release u m =>
    dsimp only at hs
    split at hs <;> cases hs
    rename_i hrun
    exact h.release hrun.2
  | delay u =>
    dsimp only at hs
    split at hs <;> cases hs
    intro v hv
    have hh := h v hv
    refine ⟨hh.1, ?_⟩
    show (Function.update s.pc u .delayed v).waitsFor ≠ some ()
    by_cases hvu : v = u
    · rw [hvu, Function.update_self]
      exact nofun
    · rw [Function.update_of_ne hvu]
      exact hh.2
  | resume u =>
    dsimp only at hs
    split at hs
    · rename_i hselected
      cases hpc : s.pc u with
      | running =>
        rw [hpc] at hs
        cases hs
      | delayed =>
        rw [hpc] at hs
        cases hs
        intro v hv
        have hv : held v = true := by
          unfold noteAcquired MutexSys.returns at hv
          dsimp only at hv
          rw [hpc] at hv
          exact hv
        have hh := h v hv
        refine ⟨hh.1, ?_⟩
        show (Function.update s.pc u .running v).waitsFor ≠ some ()
        by_cases hvu : v = u
        · rw [hvu, Function.update_self]
          exact nofun
        · rw [Function.update_of_ne hvu]
          exact hh.2
      | acquiring m q b =>
        rw [hpc] at hs
        cases hs
        exact h.resume i hselected hpc
    · cases hs
  | tick u =>
    dsimp only at hs
    split at hs <;> cases hs
    exact h

theorem HandsOver.of_step (i : MutexInv c s) {a : MutexAct τ Unit} (hs : mutexStep c s a = some s') :
    HandsOver s a s' := by
  rintro t rfl howner ⟨u, p, b, hu, hp⟩
  simp only [mutexStep] at hs
  split at hs <;> cases hs
  have hwait : (s.mutexes ()).osEventWait ≠ 0 := by
    rw [i.count ()]
    exact Finset.card_ne_zero_of_mem hp
  obtain ⟨hq, w, d, hw, hwq⟩ := i.waiter hwait
  have hvw : s.priorityVector (saScheduler (s.mutexes ()).osEventWaitList) = .task w :=
    hwq ▸ i.ceiling.vector_priority w
  refine ⟨w, ⟨_, d, hw, hq⟩, ?_, ?_⟩
  · rintro v ⟨r, e, hv, hr⟩
    rw [hwq, (i.waiting v () r e hv).1]
    exact le_saScheduler hr
  · have howner : (s.mutexes ()).osEventOwner = .task t := howner
    unfold osMutexRelease
    dsimp only
    rw [if_neg (not_not.mpr howner), if_pos hwait]
    unfold MutexSys.owner
    dsimp only
    rw [setMutex_mutexes, if_pos rfl]
    dsimp only
    split <;> exact hvw

theorem Refused.of_step (i : MutexInv c s) {a : MutexAct τ Unit} (hs : mutexStep c s a = some s') :
    Refused s a s' := by
  intro t hret
  cases a with
  | acquire u m timeWait =>
    simp only [mutexStep] at hs
    split at hs <;> cases hs
    rename_i hrun
    simp only [MutexSys.returns] at hret
    split at hret
    · cases hret
    · rename_i howner
      split at hret
      · cases hret
      · rename_i hbusy
        split at hret <;> cases hret
        rename_i hwait
        have hsame : osMutexAcquire c s t () timeWait = s := by
          unfold osMutexAcquire
          dsimp only
          rw [if_neg howner, if_neg hbusy, if_pos hwait]
        rw [hsame]
        refine ⟨howner, fun hin => ?_⟩
        obtain ⟨w, b, hw⟩ := i.listed () _ hin
        exact ne_of_running hrun.2 hw (i.ceiling.priority_inj (i.waiting w () _ b hw).1)
  | resume u =>
    simp only [MutexSys.returns] at hret
    split at hret
    · rename_i m p b hpc
      split at hret <;> cases hret
      rename_i hover
      simp only [mutexStep, hpc] at hs
      split at hs <;> cases hs
      obtain ⟨hprio, hlist⟩ := i.waiting t () p b hpc
      have howner := hlist.mp hover.2.2
      unfold osMutexAcquireResumed
      dsimp only
      rw [if_pos hover]
      refine ⟨?_, ?_⟩
      · rw [owner_setMutex]
        exact howner
      · rw [setMutex_mutexes, if_pos rfl]
        show s.priority t ∉ _
        rw [hprio]
        exact Finset.notMem_erase _ _
    · cases hret
  | release | delay | tick => cases hret

/-! ## Runs -/

variable {as : List (MutexAct τ Unit)}

/-- In every run of tasks that use one mutex, at most one has it, a release hands it over to the waiting
task of the highest priority, and a refused acquire leaves no trace. -/
theorem exclusive_of_runs {s₀ : MutexSys τ Unit} (h0 : Installed c s₀)
    (r : Runs (mutexStep c) Free s₀ as s) :
    Exclusive s (observe (mutexStep c) noteAcquired s₀ (fun _ => false) as) ∧
      ∀ a s', mutexStep c s a = some s' → HandsOver s a s' ∧ Refused s a s' := by
  have h : MutexInv c s ∧ HeldByNoted s (observe (mutexStep c) noteAcquired s₀ (fun _ => false) as) :=
    r.observed (I := fun s held => MutexInv c s ∧ HeldByNoted s held) ⟨h0.inv, nofun⟩
      fun t held a u ⟨i, h⟩ _ hs => ⟨mutexStep_inv i (releaseKept_of_one a) hs, h.step i hs⟩
  obtain ⟨i, hheld⟩ := h
  refine ⟨⟨fun t u ht hu => ?_, fun t ht => (hheld t ht).1⟩,
    fun a s' hs => ⟨.of_step i hs, .of_step i hs⟩⟩
  have ho := (hheld t ht).1
  rw [(hheld u hu).1] at ho
  cases ho
  rfl

end

/-- Two tasks of the priorities 3 and 5, and one mutex with the ceiling 10. -/
def oneMutex : Priorities Bool Unit where
  iPriority := fun t => if t then 5 else 3
  osMaxPriority := fun _ => 10
  installed := by decide
  distinct := fun _ _ _ _ => rfl
  free := by decide

def oneMutexInstalled : MutexSys Bool Unit where
  priority := oneMutex.iPriority
  timeToWait := fun _ => .noTimeout
  pc := fun _ => .running
  priorityVector := fun p => if p = 3 then .task false else if p = 5 then .task true else .emptyPrio
  osReadyList := {3, 5}
  mutexes := fun _ => {
    osEventState := .availableResource
    osEventOwner := .zero
    osOriginalPriority := 0
    osEventWait := 0
    osEventWaitList := ∅ }

theorem oneMutexInstalled_installed : Installed oneMutex oneMutexInstalled :=
  ⟨fun _ => rfl, fun _ => rfl, by decide, by decide, fun _ => ⟨rfl, rfl, rfl, rfl⟩⟩

/-- The mutex is handed over to a task whose time is over before it runs. -/
def handedOverLate : List (MutexAct Bool Unit) :=
  [.acquire false () .zero, .acquire true () .ticks, .release false (), .tick true, .resume true]

theorem exclusive_of_runs_handedOverLate :
    ∃ s, Runs (mutexStep oneMutex) Free oneMutexInstalled handedOverLate s ∧ s.owner = .task true ∧
      Exclusive s (observe (mutexStep oneMutex) noteAcquired oneMutexInstalled (fun _ => false)
        handedOverLate) := by
  have hrun : (exec (mutexStep oneMutex) oneMutexInstalled handedOverLate).map (fun s => s.owner) =
      some (.task true) := by decide +kernel
  obtain ⟨s, hs, he⟩ := Option.map_eq_some_iff.mp hrun
  have r := Runs.of_exec hs
  exact ⟨s, r, he, (exclusive_of_runs oneMutexInstalled_installed r).1⟩

end Unet4Cooja
