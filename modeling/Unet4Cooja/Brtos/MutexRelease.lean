import Mathlib.Data.Fintype.Basic
import Unet4Cooja.Brtos.MutexInv
import Unet4Cooja.Lib.Runs

/-!
# The release of mutexes

* `ReleaseKept` : a mutex is released while no other one of its owner has saved its ceiling;
* `MutexInv.release`, `mutexStep_inv` : then the invariant is kept;
* `prioritiesKept_of_runs` : a task without a mutex has its own priority, and the bits of the ready list
  lead to tasks;
* `prioritiesKept_fails` : two mutexes are released in the order in which they were acquired.
-/

namespace Unet4Cooja
open Lib

variable {τ μ : Type*}

/-- A mutex is released only if no other mutex of the task has saved its ceiling. -/
def ReleaseKept (c : Priorities τ μ) (s : MutexSys τ μ) : MutexAct τ μ → Prop
  | .release t m =>
    (s.mutexes m).osEventOwner = .task t → (s.mutexes m).osOriginalPriority < c.osMaxPriority m →
      ∀ x, x ≠ m → (s.mutexes x).osEventOwner = .task t →
        (s.mutexes x).osOriginalPriority ≠ c.osMaxPriority m
  | _ => True

instance [DecidableEq τ] [DecidableEq μ] [Fintype μ] (c : Priorities τ μ) (s : MutexSys τ μ) (a : MutexAct τ μ) :
    Decidable (ReleaseKept c s a) :=
  match a with
  | .release .. => inferInstanceAs (Decidable (_ → _))
  | .acquire .. | .delay _ | .resume _ | .tick _ => .isTrue trivial

namespace MutexInv
variable {c : Priorities τ μ} {s : MutexSys τ μ} {t : τ} {m : μ}

theorem freed [DecidableEq μ] {v : Nat → TaskNumber τ} (hq : QueueInv s) (hrun : s.pc t = .running)
    (howner : (s.mutexes m).osEventOwner = .task t) (hwait : (s.mutexes m).osEventWait = 0)
    (hc : CeilingInv c s.priority v (fun u x => s.Held u x ∧ x ≠ m) s.saved) :
    MutexInv c
      { s.setMutex m { s.mutexes m with
          osEventOwner := .zero, osEventState := .availableResource } with
        priorityVector := v } := by
  generalize hz : ({ s.mutexes m with
    osEventOwner := .zero, osEventState := .availableResource } : BrtosMutex τ) = z
  have hempty : (s.mutexes m).osEventWaitList = ∅ := by
    rw [← Finset.card_eq_zero, ← hq.count m]
    exact hwait
  have hnobody : ∀ {u q b}, s.pc u ≠ .acquiring m q b := by
    intro u q b hu
    have hlist := (hq.waiting u m q b hu).2
    rw [hempty] at hlist
    refine Finset.notMem_empty q (hlist.mpr fun ho => ?_)
    rw [howner] at ho
    cases ho
    exact ne_of_running hrun hu rfl
  have hlists : ∀ x, ((s.setMutex m z).mutexes x).osEventWaitList = (s.mutexes x).osEventWaitList :=
    setMutex_field BrtosMutex.osEventWaitList (by rw [← hz])
  have hother : ∀ {x u q b}, s.pc u = .acquiring x q b →
      ((s.setMutex m z).mutexes x).osEventOwner = (s.mutexes x).osEventOwner := by
    intro x u q b hu
    rw [setMutex_mutexes, if_neg]
    rintro rfl
    exact hnobody hu
  refine ⟨⟨fun p hp => ?_, fun u x q b hu => ?_, fun x q hin => ?_, fun x => ?_, fun x hx => ?_,
    hq.forever⟩, ?_⟩
  · obtain ⟨u, hu, hw⟩ := hq.ready p hp
    refine ⟨u, hu, fun x q b hx => ?_⟩
    dsimp only
    rw [hother hx]
    exact hw x q b hx
  · dsimp only
    rw [hother hu, hlists]
    exact hq.waiting u x q b hu
  · dsimp only at hin
    rw [hlists] at hin
    exact hq.listed x q hin
  · dsimp only
    rw [hlists, ← hq.count x]
    exact setMutex_field BrtosMutex.osEventWait (by rw [← hz]) x
  · dsimp only at hx ⊢
    rw [setMutex_mutexes] at hx ⊢
    split at hx
    · rename_i hxm
      rw [if_pos hxm, ← hz]
    · rename_i hxm
      rw [if_neg hxm]
      exact hq.available x hx
  · have hsaved : (s.setMutex m z).saved = s.saved :=
      funext (setMutex_field BrtosMutex.osOriginalPriority (by rw [← hz]))
    show CeilingInv c s.priority v _ (s.setMutex m z).saved
    rw [hsaved]
    refine hc.congr fun u x => ?_
    unfold MutexSys.Held
    dsimp only
    rw [setMutex_mutexes]
    split
    · rename_i hx
      rw [← hz, hx]
      exact iff_of_false (fun hh => nomatch hh.1) fun hh => hh.2 rfl
    · rename_i hx
      exact ⟨fun hh => ⟨hh, hx⟩, And.left⟩

variable [DecidableEq τ]

theorem restored (h : MutexInv c s) (hrun : s.pc t = .running) (howner : (s.mutexes m).osEventOwner = .task t)
    (hg : ReleaseKept c s (.release t m)) :
    ∃ s', (if s.priority t ≠ (s.mutexes m).osOriginalPriority then
        { s with
          osReadyList := insert (s.mutexes m).osOriginalPriority (s.osReadyList.erase (s.priority t))
          priority := Function.update s.priority t (s.mutexes m).osOriginalPriority }
      else s) = s' ∧ QueueInv s' ∧ s'.mutexes = s.mutexes ∧ s'.pc = s.pc ∧
      s'.priorityVector = s.priorityVector ∧
      ∀ v : Nat → TaskNumber τ,
        (∀ p, (c.osMaxPriority m ≠ 0 → p ≠ c.osMaxPriority m) → v p = s.priorityVector p) →
        CeilingInv c s'.priority v (fun u x => s.Held u x ∧ x ≠ m) s.saved := by
  have hheld : s.Held t m := ⟨howner, by rw [hrun]; exact nofun⟩
  have hgive : ∀ v : Nat → TaskNumber τ,
      (∀ p, (c.osMaxPriority m ≠ 0 → p ≠ c.osMaxPriority m) → v p = s.priorityVector p) →
      CeilingInv c (Function.update s.priority t (s.mutexes m).osOriginalPriority) v
        (fun u x => s.Held u x ∧ x ≠ m) s.saved := by
    intro v hv
    refine h.ceiling.give hheld (fun u hu => ?_) (fun u x => Iff.rfl) hv fun hlt x hx hheldx =>
      hg howner hlt x hx hheldx.1
    have ho := hu.1
    rw [howner] at ho
    cases ho
    rfl
  by_cases hne : s.priority t = (s.mutexes m).osOriginalPriority
  · refine ⟨s, if_neg (not_not.mpr hne), h.toQueueInv, rfl, rfl, rfl, fun v hv => ?_⟩
    have hgive := hgive v hv
    rwa [← hne, Function.update_eq_self] at hgive
  · refine ⟨_, if_pos hne, ⟨fun p hp => ?_, fun u x q b hu => ?_, h.listed, h.count, h.available,
      h.forever⟩, rfl, rfl, rfl, hgive⟩
    · rcases Finset.mem_insert.mp hp with rfl | hp
      · exact ⟨t, Function.update_self _ _ _, fun x q b hx => absurd rfl (ne_of_running hrun hx)⟩
      · obtain ⟨hpt, hp⟩ := Finset.mem_erase.mp hp
        obtain ⟨u, hu, hw⟩ := h.ready p hp
        refine ⟨u, ?_, hw⟩
        dsimp only
        rw [Function.update_of_ne, hu]
        rintro rfl
        exact hpt hu.symm
    · dsimp only
      rw [Function.update_of_ne (ne_of_running hrun hu)]
      exact h.waiting u x q b hu

variable [DecidableEq μ]

theorem handedOver {v : Nat → TaskNumber τ} (hq : QueueInv s) (hrun : s.pc t = .running)
    (howner : (s.mutexes m).osEventOwner = .task t) (hwait : (s.mutexes m).osEventWait ≠ 0)
    (hv : v = s.priorityVector)
    (hc : CeilingInv c s.priority v (fun u x => s.Held u x ∧ x ≠ m) s.saved) :
    MutexInv c
      { s.setMutex m { s.mutexes m with
          osEventWaitList := (s.mutexes m).osEventWaitList.erase (saScheduler (s.mutexes m).osEventWaitList)
          osEventWait := (s.mutexes m).osEventWait - 1
          osEventOwner := s.priorityVector (saScheduler (s.mutexes m).osEventWaitList) } with
        osReadyList := insert (saScheduler (s.mutexes m).osEventWaitList) s.osReadyList } := by
  obtain ⟨hin, w, b, hw, hwp⟩ := hq.waiter hwait
  generalize saScheduler (s.mutexes m).osEventWaitList = p at hin hw hwp ⊢
  have hvw : s.priorityVector p = .task w := by
    have hvw := hc.vector_priority w
    rwa [hwp, hv] at hvw
  rw [hvw]
  generalize hz : ({ s.mutexes m with
    osEventWaitList := (s.mutexes m).osEventWaitList.erase p
    osEventWait := (s.mutexes m).osEventWait - 1
    osEventOwner := .task w } : BrtosMutex τ) = z
  have hbusy : (s.mutexes m).osEventState ≠ .availableResource := by
    intro hav
    have hzero := hq.available m hav
    rw [howner] at hzero
    cases hzero
  refine ⟨⟨fun r hr => ?_, fun u x q d hu => ?_, fun x q hlist => ?_, fun x => ?_, fun x hx => ?_,
    hq.forever⟩, ?_⟩
  · have hold : ∃ u, s.priority u = r ∧ ∀ x q d, s.pc u = .acquiring x q d →
        (x = m ∧ u = w) ∨ (x ≠ m ∧ (s.mutexes x).osEventOwner = .task u) ∨
          (d = true ∧ s.timeToWait u = .exitByTimeout) := by
      rcases Finset.mem_insert.mp hr with rfl | hr
      · refine ⟨w, hwp, fun x q d hx => .inl ⟨?_, rfl⟩⟩
        rw [hw] at hx
        cases hx
        rfl
      · obtain ⟨u, hu, hready⟩ := hq.ready r hr
        refine ⟨u, hu, fun x q d hx => .inr ((hready x q d hx).imp (fun ho => ⟨?_, ho⟩) id)⟩
        rintro rfl
        rw [howner] at ho
        cases ho
        exact ne_of_running hrun hx rfl
    obtain ⟨u, hu, hready⟩ := hold
    refine ⟨u, hu, fun x q d hx => ?_⟩
    dsimp only
    rw [setMutex_mutexes]
    rcases hready x q d hx with ⟨hxm, rfl⟩ | ⟨hxm, ho⟩ | hover
    · rw [if_pos hxm, ← hz]
      exact .inl rfl
    · rw [if_neg hxm]
      exact .inl ho
    · exact .inr hover
  · obtain ⟨hprio, hlist⟩ := hq.waiting u x q d hu
    refine ⟨hprio, ?_⟩
    dsimp only
    rw [setMutex_mutexes]
    split
    · rename_i hx
      rw [← hz]
      by_cases huw : u = w
      · have hqp : q = p := by
          rw [← hprio, huw, hwp]
        rw [hqp, huw]
        exact iff_of_false (Finset.notMem_erase _ _) fun hne => hne rfl
      · have hqp : q ≠ p := fun he => huw (hc.priority_inj (hprio.trans (he.trans hwp.symm)))
        rw [hx] at hlist
        refine iff_of_true (Finset.mem_erase.mpr ⟨hqp, hlist.mpr fun ho => ?_⟩) fun ho => ?_
        · rw [howner] at ho
          cases ho
          exact ne_of_running hrun hu rfl
        · cases ho
          exact huw rfl
    · exact hlist
  · dsimp only at hlist
    rw [setMutex_mutexes] at hlist
    split at hlist
    · rename_i hx
      rw [← hz] at hlist
      rw [hx]
      exact hq.listed m q (Finset.mem_of_mem_erase hlist)
    · exact hq.listed x q hlist
  · dsimp only
    rw [setMutex_mutexes]
    split
    · rw [← hz, Finset.card_erase_of_mem hin, hq.count]
    · exact hq.count x
  · dsimp only at hx ⊢
    rw [setMutex_mutexes] at hx ⊢
    split at hx
    · rw [← hz] at hx
      exact absurd hx hbusy
    · rename_i hxm
      rw [if_neg hxm]
      exact hq.available x hx
  · have hsaved : (s.setMutex m z).saved = s.saved :=
      funext (setMutex_field BrtosMutex.osOriginalPriority (by rw [← hz]))
    show CeilingInv c s.priority s.priorityVector _ (s.setMutex m z).saved
    rw [hsaved, ← hv]
    refine hc.congr fun u x => ?_
    unfold MutexSys.Held
    dsimp only
    rw [setMutex_mutexes]
    split
    · rename_i hx
      rw [← hz, hx]
      refine iff_of_false (fun hh => ?_) fun hh => hh.2 rfl
      obtain ⟨ho, hne⟩ := hh
      cases ho
      apply hne
      show (s.pc w).waitsFor = some m
      rw [hw]
      rfl
    · rename_i hx
      exact ⟨fun hh => ⟨hh, hx⟩, And.left⟩

theorem release (h : MutexInv c s) (hrun : s.pc t = .running) (hg : ReleaseKept c s (.release t m)) :
    MutexInv c (osMutexRelease c s t m) := by
  unfold osMutexRelease
  dsimp only
  by_cases howner : (s.mutexes m).osEventOwner = .task t
  · rw [if_neg (not_not.mpr howner)]
    obtain ⟨s', he, hq, hm, hpc, hv, hc⟩ := h.restored hrun howner hg
    rw [he]
    have hheld : ∀ u x, s'.Held u x ↔ s.Held u x := by
      intro u x
      unfold MutexSys.Held
      rw [hm, hpc]
    have hsaved : s'.saved = s.saved := by
      unfold MutexSys.saved
      rw [hm]
    have hc' : ∀ v : Nat → TaskNumber τ,
        (∀ p, (c.osMaxPriority m ≠ 0 → p ≠ c.osMaxPriority m) → v p = s.priorityVector p) →
        CeilingInv c s'.priority v (fun u x => s'.Held u x ∧ x ≠ m) s'.saved := by
      intro v hvv
      rw [hsaved]
      exact (hc v hvv).congr fun u x => and_congr_left' (hheld u x)
    rw [← hm] at howner ⊢
    rw [← hpc] at hrun
    split
    · rename_i hwait
      exact handedOver hq hrun howner hwait hv.symm (hc' _ fun _ _ => rfl)
    · rename_i hwait
      have hzero := not_not.mp hwait
      split
      · rename_i hceil
        refine freed hq hrun howner hzero (hc' _ fun p hp => ?_)
        rw [← hv]
        exact Function.update_of_ne (hp (by omega)) _ _
      · exact freed hq hrun howner hzero (hc' s'.priorityVector fun p _ => by rw [hv])
  · rw [if_pos howner]
    exact h

end MutexInv

/-! ## Runs -/

/-- A task without a mutex has the priority it was installed with; every bit of the ready list leads to a
task of this priority, and `OSSchedule` selects the one of the highest. -/
structure PrioritiesKept (c : Priorities τ μ) (s : MutexSys τ μ) : Prop where
  restored : ∀ t, (∀ m, (s.mutexes m).osEventOwner ≠ .task t) → s.priority t = c.iPriority t
  ready : ∀ p ∈ s.osReadyList, ∃ t, s.priorityVector p = .task t ∧ s.priority t = p
  scheduled : s.osReadyList.Nonempty →
    ∃ t, osSchedule s = .task t ∧ s.priority t ∈ s.osReadyList ∧ ∀ p ∈ s.osReadyList, p ≤ s.priority t

/-- After the tasks have been installed and the mutexes created. -/
structure Installed (c : Priorities τ μ) (s : MutexSys τ μ) : Prop where
  priority : ∀ t, s.priority t = c.iPriority t
  pc : ∀ t, s.pc t = .running
  vector : ∀ t, s.priorityVector (c.iPriority t) = .task t
  ready : ∀ p ∈ s.osReadyList, ∃ t, c.iPriority t = p
  mutexes : ∀ m, (s.mutexes m).osEventState = .availableResource ∧ (s.mutexes m).osEventOwner = .zero ∧
    (s.mutexes m).osEventWait = 0 ∧ (s.mutexes m).osEventWaitList = ∅

section
variable {c : Priorities τ μ} {s t : MutexSys τ μ} {as : List (MutexAct τ μ)}

theorem Installed.inv (h : Installed c s) : MutexInv c s := by
  have hno : ∀ {u x q b}, s.pc u ≠ .acquiring x q b := by
    intro u x q b hu
    rw [h.pc u] at hu
    cases hu
  have hfree : ∀ {u x}, ¬ s.Held u x := by
    intro u x hh
    have ho := hh.1
    rw [(h.mutexes x).2.1] at ho
    cases ho
  refine ⟨⟨fun p hp => ?_, fun u x q b hu => absurd hu hno, fun x q hq => ?_, fun x => ?_,
    fun x _ => (h.mutexes x).2.1, fun u x q hu => absurd hu hno⟩,
    ⟨fun u => .inl (h.priority u), fun u x hh => absurd hh hfree, h.vector,
      fun u x hh => absurd hh hfree⟩⟩
  · obtain ⟨u, hu⟩ := h.ready p hp
    exact ⟨u, (h.priority u).trans hu, fun x q b hx => absurd hx hno⟩
  · rw [(h.mutexes x).2.2.2] at hq
    exact absurd hq (Finset.notMem_empty q)
  · rw [(h.mutexes x).2.2.1, (h.mutexes x).2.2.2]
    rfl

theorem MutexInv.prioritiesKept (h : MutexInv c s) : PrioritiesKept c s := by
  have hready : ∀ p ∈ s.osReadyList, ∃ t, s.priorityVector p = .task t ∧ s.priority t = p := by
    intro p hp
    obtain ⟨t, ht, _⟩ := h.ready p hp
    exact ⟨t, by rw [← ht]; exact h.ceiling.vector_priority t, ht⟩
  refine ⟨fun t ht => ?_, hready, fun hne => ?_⟩
  · rcases h.ceiling.tasks t with hp | ⟨m, hm, _⟩
    · exact hp
    · exact absurd hm.1 (ht m)
  · have hp := saScheduler_mem hne
    obtain ⟨t, hv, ht⟩ := hready _ hp
    refine ⟨t, hv, ht ▸ hp, fun q hq => ?_⟩
    rw [ht]
    exact le_saScheduler hq

variable [DecidableEq τ] [DecidableEq μ]

theorem mutexStep_inv {a : MutexAct τ μ} (h : MutexInv c s) (hg : ReleaseKept c s a)
    (hs : mutexStep c s a = some t) : MutexInv c t := by
  unfold mutexStep at hs
  cases a with
  | acquire u m timeWait =>
    dsimp only at hs
    split at hs
    · rename_i hrun
      cases hs
      exact h.acquire hrun.2
    · cases hs
  | release u m =>
    dsimp only at hs
    split at hs
    · rename_i hrun
      cases hs
      exact h.release hrun.2 hg
    · cases hs
  | delay u =>
    dsimp only at hs
    split at hs
    · rename_i hrun
      cases hs
      exact h.delay hrun.2
    · cases hs
  | resume u =>
    dsimp only at hs
    split at hs
    · rename_i hselected
      cases hpc : s.pc u with
      | running =>
        rw [hpc] at hs
        cases hs
      | delayed =>
        rw [hpc] at hs
        cases hs
        exact h.undelay hpc
      | acquiring m q b =>
        rw [hpc] at hs
        cases hs
        exact h.resumed hselected hpc
    · cases hs
  | tick u =>
    dsimp only at hs
    split at hs
    · rename_i hticks
      cases hs
      exact h.tick hticks
    · cases hs

/-- In every run that keeps to `ReleaseKept`, the priorities are kept. -/
theorem prioritiesKept_of_runs (h0 : Installed c s) (r : Runs (mutexStep c) (ReleaseKept c) s as t) :
    PrioritiesKept c t :=
  (r.invariant h0.inv fun _ _ _ h hg hs => mutexStep_inv h hg hs).prioritiesKept

end

def twoTasks : Priorities (Fin 2) (Fin 2) where
  iPriority := fun t => if t = 0 then 3 else 5
  osMaxPriority := fun m => if m = 0 then 10 else 20
  installed := by decide
  distinct := by decide
  free := by decide

def twoTasksInstalled : MutexSys (Fin 2) (Fin 2) where
  priority := twoTasks.iPriority
  timeToWait := fun _ => .noTimeout
  pc := fun _ => .running
  priorityVector := fun p =>
    if p = 3 then .task 0 else if p = 5 then .task 1 else if p = 10 ∨ p = 20 then .mutexPrio else .emptyPrio
  osReadyList := {3, 5}
  mutexes := fun _ => {
    osEventState := .availableResource
    osEventOwner := .zero
    osOriginalPriority := 0
    osEventWait := 0
    osEventWaitList := ∅ }

theorem twoTasksInstalled_installed : Installed twoTasks twoTasksInstalled :=
  ⟨fun _ => rfl, fun _ => rfl, by decide, by decide, fun _ => ⟨rfl, rfl, rfl, rfl⟩⟩

/-- Both mutexes are acquired and released in reverse order, while the other task waits for the first
one. -/
def releasedInReverse : List (MutexAct (Fin 2) (Fin 2)) :=
  [.acquire 0 0 .zero, .acquire 0 1 .zero, .acquire 1 0 .ticks, .release 0 1, .tick 1, .release 0 0,
    .resume 1, .release 1 0]

theorem prioritiesKept_of_runs_releasedInReverse :
    ∃ s, Runs (mutexStep twoTasks) (ReleaseKept twoTasks) twoTasksInstalled releasedInReverse s ∧
      PrioritiesKept twoTasks s ∧ s.priority 0 = 3 ∧ s.osReadyList = {3, 5} := by
  have hrun : (exec (guarded (mutexStep twoTasks) (ReleaseKept twoTasks)) twoTasksInstalled
      releasedInReverse).map (fun s => (s.priority 0, s.osReadyList)) = some (3, {3, 5}) := by
    decide +kernel
  obtain ⟨s, hs, he⟩ := Option.map_eq_some_iff.mp hrun
  have r := Runs.of_exec_guarded hs
  exact ⟨s, r, prioritiesKept_of_runs twoTasksInstalled_installed r, congrArg Prod.fst he,
    congrArg Prod.snd he⟩

/-- Both mutexes are acquired and released in the same order. -/
def releasedInOrder : List (MutexAct (Fin 2) (Fin 2)) :=
  [.acquire 0 0 .zero, .acquire 0 1 .zero, .release 0 0, .release 0 1]

theorem prioritiesKept_fails :
    ¬ ∀ (as : List (MutexAct (Fin 2) (Fin 2))) (s : MutexSys (Fin 2) (Fin 2)),
      Runs (mutexStep twoTasks) Free twoTasksInstalled as s → PrioritiesKept twoTasks s := by
  intro h
  have hrun : (exec (mutexStep twoTasks) twoTasksInstalled releasedInOrder).map
      (fun s => (decide (∀ m, (s.mutexes m).osEventOwner ≠ .task 0), s.priority 0)) =
      some (true, 10) := by decide +kernel
  obtain ⟨s, hs, he⟩ := Option.map_eq_some_iff.mp hrun
  have hfree := of_decide_eq_true (congrArg Prod.fst he)
  have hprio : s.priority 0 = 10 := congrArg Prod.snd he
  have hkept := (h releasedInOrder s (Runs.of_exec hs)).restored 0 hfree
  rw [hprio] at hkept
  exact absurd hkept (by decide)

end Unet4Cooja
