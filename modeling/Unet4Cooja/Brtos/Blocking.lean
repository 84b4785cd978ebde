import Unet4Cooja.Brtos.MutexStack
import Unet4Cooja.Brtos.KernelStep

/-!
# Blocked tasks

* `KernelNote`, `noteKernel` : who is blocked, and the mutexes the tasks have taken, as an observer notes it;
* `BlockKept` : mutexes are given back in reverse order, and only tasks are blocked and unblocked;
* `BlockedApart` : the scheduler selects no blocked task, and the mask excludes no other one that is ready;
* `KernelFrame`, `kernelStep_frame` : what a step does to priorities, to the mask and to the running task;
* `BlockedInv` : the mask has the current priorities of the blocked tasks;
* `blockedApart_of_runs` : `BlockedApart` in every run of such steps.
-/

namespace Unet4Cooja
open Lib

variable {τ μ ε κ : Type*} [DecidableEq τ]

/-! ## The observer -/

structure KernelNote (τ μ : Type*) where
  stack : τ → List μ
  blocked : Finset τ

section
variable (s : KernelSys τ μ ε κ)

/-- The mutex that is taken or given back in the step. -/
def KernelSys.ownerEvent : KernelAct τ μ ε κ → OwnerEvent τ μ
  | .acquire t m _ =>
    if (s.mutexes m).osEventOwner ≠ .task t ∧ (s.mutexes m).osEventState = .availableResource then .takes t m
    else .none
  | .release t m => if (s.mutexes m).osEventOwner = .task t then .gives t m else .none
  | .resume t =>
    match s.pc t with
    | .acquiring m iPriority timeWait => if s.WaitOver t m iPriority timeWait then .none else .takes t m
    | _ => .none
  | _ => .none

/-- A task gives back the mutex it has taken last, and installed tasks other than the idle task are blocked and
unblocked by their numbers, one by one. -/
def BlockKept (c : KernelPriorities τ μ) (p : KernelSys τ μ ε κ × KernelNote τ μ) : KernelAct τ μ ε κ → Prop
  | .release t m => (p.1.mutexes m).osEventOwner = .task t → (p.2.stack t).head? = some m
  | .blockTask _ u | .unBlockTask _ u => u ∈ p.1.installed ∧ u ≠ c.idle
  | .blockPriority .. | .unBlockPriority .. | .blockMultipleTask .. | .unBlockMultipleTask .. => False
  | _ => True

instance [DecidableEq μ] (c : KernelPriorities τ μ) (p : KernelSys τ μ ε κ × KernelNote τ μ)
    (a : KernelAct τ μ ε κ) : Decidable (BlockKept c p a) :=
  match a with
  | .release .. => inferInstanceAs (Decidable (_ → _))
  | .blockTask .. | .unBlockTask .. => inferInstanceAs (Decidable (_ ∧ _))
  | .blockPriority .. | .unBlockPriority .. | .blockMultipleTask .. | .unBlockMultipleTask .. => .isFalse id
  | .acquire .. | .delay .. | .semPend .. | .queuePend .. | .semPost .. | .queuePost .. | .install .. | .resume ..
  | .enter | .tick .. | .exit => .isTrue trivial

/-- The scheduler selects no task that is blocked, and the mask excludes no other task that is ready. -/
structure BlockedApart (blocked : Finset τ) : Prop where
  scheduled : ∀ t, s.osSchedule = .task t → t ∉ blocked
  ready : ∀ t, s.priority t ∈ s.osReadyList → t ∉ blocked → s.priority t ∉ s.osBlockedList

/-- `OSBlockedList` after a step. -/
def KernelSys.blockedAfter : KernelAct τ μ ε κ → Finset Nat
  | .blockTask _ u => insert (s.priority u) s.osBlockedList
  | .unBlockTask _ u => s.osBlockedList.erase (s.priority u)
  | .blockPriority _ iPriority => insert iPriority s.osBlockedList
  | .unBlockPriority _ iPriority => s.osBlockedList.erase iPriority
  | .blockMultipleTask t us => s.osBlockedList ∪ (us.erase t).image s.priority
  | .unBlockMultipleTask t us => s.osBlockedList \ (us.erase t).image s.priority
  | _ => s.osBlockedList

end

def noteKernel [DecidableEq μ] (s : KernelSys τ μ ε κ) (n : KernelNote τ μ) (a : KernelAct τ μ ε κ) : KernelNote τ μ where
  stack := (s.ownerEvent a).stack n.stack
  blocked :=
    match a with
    | .blockTask _ u => insert u n.blocked
    | .unBlockTask _ u => n.blocked.erase u
    | _ => n.blocked

/-! ## What a step does -/

variable [DecidableEq μ]

/-- The event `x` happens to the mutexes, and `blocked` is the mask after the step. -/
structure KernelFrame (c : KernelPriorities τ μ) (s s' : KernelSys τ μ ε κ) (x : OwnerEvent τ μ)
    (blocked : Finset Nat) : Prop where
  owners : OwnerStep c.toPriorities s.toMutexSys s'.toMutexSys x
  priority : ∀ u, s.currentTask ≠ .task u → s'.priority u = s.priority u
  installed : s.installed ⊆ s'.installed
  osBlockedList : s'.osBlockedList = blocked
  currentTask : s'.currentTask = s.currentTask ∨ s'.currentTask = s'.osSchedule

namespace KernelFrame
variable {c : KernelPriorities τ μ} {s s' v : KernelSys τ μ ε κ} {x : OwnerEvent τ μ} {blocked : Finset Nat} {t : τ}
  {m : μ}

theorem same (hp : s'.priority = s.priority) (hm : s'.mutexes = s.mutexes) (hpc : s'.pc = s.pc)
    (hi : s.installed ⊆ s'.installed) (hb : s'.osBlockedList = blocked) (hc : s'.currentTask = s.currentTask) :
    KernelFrame c s s' .none blocked where
  owners := by
    refine .none hp ?_ fun u x => ?_
    · unfold MutexSys.saved
      rw [hm]
    · unfold MutexSys.Held
      rw [hm, hpc]
  priority u _ := by rw [hp]
  installed := hi
  osBlockedList := hb
  currentTask := Or.inl hc

theorem refl (s : KernelSys τ μ ε κ) : KernelFrame c s s .none s.osBlockedList :=
  same rfl rfl rfl (Finset.Subset.refl _) rfl rfl

theorem block (s : KernelSys τ μ ε κ) (blocked : Finset Nat) :
    KernelFrame c s { s with osBlockedList := blocked } .none blocked :=
  same rfl rfl rfl (Finset.Subset.refl _) rfl rfl

theorem changeContext (h : KernelFrame c s v x blocked) : KernelFrame c s v.changeContext x blocked := by
  unfold KernelSys.changeContext
  split
  · exact h
  · exact ⟨h.owners, h.priority, h.installed, h.osBlockedList, Or.inr rfl⟩

theorem leave (h : KernelFrame c s v x blocked) (caller : Option τ) (y : KernelCall (ε ⊕ κ)) :
    KernelFrame c s (v.leave caller y) x blocked := by
  cases caller with
  | none => exact h
  | some t =>
    have hcall : KernelFrame c s { v with call := Function.update v.call t (some y) } x blocked :=
      ⟨h.owners, h.priority, h.installed, h.osBlockedList, h.currentTask⟩
    exact hcall.changeContext

theorem task {w : MutexSys τ μ} (hcur : s.currentTask = .task t) (hx : OwnerStep c.toPriorities s.toMutexSys w x)
    (hf : TaskStep s.toMutexSys w t) :
    KernelFrame c s { s with toMutexSys := w } x s.osBlockedList where
  owners := hx
  priority u hu := hf.priority u fun he => hu (he ▸ hcur)
  installed := Finset.Subset.refl _
  osBlockedList := rfl
  currentTask := Or.inl rfl

theorem pendResumed [DecidableEq ε] [DecidableEq κ] (e : ε ⊕ κ) (q : Nat) (b : Bool) :
    KernelFrame c s (s.pendResumed t e q b) .none s.osBlockedList := by
  unfold KernelSys.pendResumed
  split
  · exact same rfl rfl rfl (Finset.Subset.refl _) rfl rfl
  · split <;> exact same rfl rfl rfl (Finset.Subset.refl _) rfl rfl

end KernelFrame

section
variable {c : KernelPriorities τ μ} {s s' : KernelSys τ μ ε κ} {t : τ} {m : μ} {q : Nat} {b : Bool}

omit [DecidableEq τ] [DecidableEq μ] in
theorem KernelInv.owner_iff (h : KernelInv c s) (hready : s.priority t ∈ s.osReadyList)
    (hpc : s.pc t = .acquiring m q b) : (s.mutexes m).osEventOwner = .task t ↔ ¬s.WaitOver t m q b := by
  have hq := h.queueInv
  have hlist := (hq.waiting t m q b hpc).2
  constructor
  · intro howner hover
    exact hlist.mp hover.2.2 howner
  · intro hover
    by_contra hne
    obtain ⟨u, hu, hw⟩ := hq.ready _ hready
    obtain rfl := h.inj hu
    rcases hw m q b hpc with howner | ⟨hb, htime⟩
    · exact hne howner
    · exact hover ⟨hb, htime, hlist.mpr hne⟩

omit [DecidableEq τ] [DecidableEq μ] in
theorem KernelInv.waiter (h : KernelInv c s) (hwait : (s.mutexes m).osEventWait ≠ 0) : ∃ w q b,
    s.priorityVector (saScheduler (s.mutexes m).osEventWaitList) = .task w ∧ s.pc w = .acquiring m q b := by
  obtain ⟨-, w, b, hw, hwp⟩ := h.queueInv.waiter hwait
  refine ⟨w, _, b, ?_, hw⟩
  rw [← hwp]
  refine h.vector ?_
  by_contra hno
  exact nomatch (h.fresh w hno).pc.symm.trans hw

variable [DecidableEq ε] [DecidableEq κ]

theorem resume_frame (h : KernelOk c s) (hcur : s.currentTask = .task t) (hs : s.resume c t = some s') :
    KernelFrame c s s' (s.ownerEvent (.resume t)) s.osBlockedList := by
  unfold KernelSys.resume at hs
  unfold KernelSys.ownerEvent
  dsimp only
  split at hs
  · rename_i hpc
    obtain rfl := Option.some.inj hs
    rw [hpc]
    refine .task hcur (.none rfl rfl ?_) (.quiet rfl rfl (fun u hu => Function.update_of_ne hu ..) fun _ _ => rfl)
    refine held_of_owners (t := t) (fun _ => rfl) (fun u hu => Function.update_of_ne hu ..) fun x _ => ?_
    dsimp only
    rw [Function.update_self, hpc]
    rfl
  · rename_i m q b hpc
    obtain rfl := Option.some.inj hs
    rw [hpc]
    have hq : s.priority t = q := (h.queueInv.waiting t m q b hpc).1
    exact .task hcur (ownerStep_resumed hpc hq (h.owner_iff (h.current_eq hcur) hpc)) (taskStep_resumed hq)
  · rename_i hpc
    rw [hpc]
    split at hs
    · exact nomatch hs
    · obtain rfl := Option.some.inj hs
      exact .pendResumed ..
    all_goals
      obtain rfl := Option.some.inj hs
      exact .same rfl rfl rfl (Finset.Subset.refl _) rfl rfl

theorem kernelStep_frame {a : KernelAct τ μ ε κ} (h : KernelOk c s) (hs : kernelStep c s a = some s') :
    KernelFrame c s s' (s.ownerEvent a) (s.blockedAfter a) := by
  cases a with
  | enter =>
    obtain ⟨-, hs⟩ := Option.ite_none_left_eq_some.mp hs
    obtain rfl := Option.some.inj hs
    exact .same rfl rfl rfl (Finset.Subset.refl _) rfl rfl
  | exit =>
    obtain ⟨-, hs⟩ := Option.ite_none_right_eq_some.mp hs
    obtain rfl := Option.some.inj hs
    have hsame := KernelFrame.refl (c := c) s
    exact ⟨hsame.owners, hsame.priority, hsame.installed, hsame.osBlockedList, Or.inr rfl⟩
  | resume t =>
    obtain ⟨⟨-, hcur⟩, hs⟩ := Option.ite_none_right_eq_some.mp hs
    exact resume_frame h hcur hs
  | tick t =>
    obtain ⟨-, hs⟩ := Option.ite_none_right_eq_some.mp hs
    obtain rfl := Option.some.inj hs
    exact .same rfl rfl rfl (Finset.Subset.refl _) rfl rfl
  | install t u =>
    obtain ⟨⟨-, hu⟩, hs⟩ := Option.ite_none_right_eq_some.mp hs
    obtain rfl := Option.some.inj hs
    have hpriority : (s.osInstallTask c u).priority = s.priority := by
      show Function.update s.priority u (c.iPriority u) = s.priority
      rw [← (h.fresh u hu).priority, Function.update_eq_self]
    exact .same hpriority rfl rfl (Finset.subset_insert _ _) rfl rfl
  | acquire t m timeWait =>
    obtain ⟨hr, hs⟩ := Option.ite_none_right_eq_some.mp hs
    obtain rfl := Option.some.inj hs
    have hframe := KernelFrame.task hr.2.1 (ownerStep_acquire h.queueInv hr.2.2.2.1 timeWait)
      (taskStep_acquire (c := c.toPriorities) (m := m) timeWait)
    unfold KernelSys.osMutexAcquire
    dsimp only
    split
    · exact hframe
    · exact hframe.changeContext
  | release t m =>
    obtain ⟨hr, hs⟩ := Option.ite_none_right_eq_some.mp hs
    obtain rfl := Option.some.inj hs
    have hframe := KernelFrame.task hr.2.1 (ownerStep_release (c := c.toPriorities) h.waiter)
      (taskStep_release (m := m) h.queueInv)
    unfold KernelSys.osMutexRelease
    dsimp only
    split
    · exact hframe.leave (some t) .posting
    · exact hframe
  | delay t =>
    obtain ⟨hr, hs⟩ := Option.ite_none_right_eq_some.mp hs
    obtain rfl := Option.some.inj hs
    refine KernelFrame.changeContext (.task hr.2.1 (.none rfl rfl ?_) taskStep_delay)
    refine held_of_owners (t := t) (fun _ => rfl) (fun u hu => Function.update_of_ne hu ..) fun x _ => ?_
    show (Function.update s.pc t .delayed t).waitsFor = some x ↔ _
    rw [Function.update_self, hr.2.2.2.1]
    rfl
  | semPend t e timeWait =>
    obtain ⟨-, hs⟩ := Option.ite_none_right_eq_some.mp hs
    obtain rfl := Option.some.inj hs
    unfold KernelSys.osSemPend
    split
    · exact .same rfl rfl rfl (Finset.Subset.refl _) rfl rfl
    · split
      · exact .refl s
      · exact KernelFrame.changeContext (.same rfl rfl rfl (Finset.Subset.refl _) rfl rfl)
  | queuePend t k timeWait =>
    obtain ⟨-, hs⟩ := Option.ite_none_right_eq_some.mp hs
    obtain rfl := Option.some.inj hs
    unfold KernelSys.osQueuePend
    split
    · exact .same rfl rfl rfl (Finset.Subset.refl _) rfl rfl
    · split
      · exact .refl s
      · exact KernelFrame.changeContext (.same rfl rfl rfl (Finset.Subset.refl _) rfl rfl)
  | semPost caller e =>
    obtain ⟨-, hs⟩ := Option.ite_none_right_eq_some.mp hs
    obtain rfl := Option.some.inj hs
    unfold KernelSys.osSemPost
    split
    · refine .leave ?_ caller .posting
      exact .same rfl rfl rfl (Finset.Subset.refl _) rfl rfl
    · split
      · exact .same rfl rfl rfl (Finset.Subset.refl _) rfl rfl
      · exact .refl s
  | queuePost caller k data =>
    obtain ⟨-, hs⟩ := Option.ite_none_right_eq_some.mp hs
    obtain rfl := Option.some.inj hs
    unfold KernelSys.osQueuePost
    dsimp only
    split
    · split
      · refine .leave ?_ caller .posting
        exact .same rfl rfl rfl (Finset.Subset.refl _) rfl rfl
      · exact .same rfl rfl rfl (Finset.Subset.refl _) rfl rfl
    · exact .refl s
  | blockTask t u =>
    obtain ⟨-, hs⟩ := Option.ite_none_right_eq_some.mp hs
    obtain rfl := Option.some.inj hs
    unfold KernelSys.osBlockTask
    dsimp only
    split
    · exact (KernelFrame.block s _).leave (some t) .blocking
    · exact .block s _
  | unBlockTask caller u =>
    obtain ⟨-, hs⟩ := Option.ite_none_right_eq_some.mp hs
    obtain rfl := Option.some.inj hs
    exact (KernelFrame.block s _).leave caller .blocking
  | blockPriority t iPriority =>
    obtain ⟨-, hs⟩ := Option.ite_none_right_eq_some.mp hs
    obtain rfl := Option.some.inj hs
    unfold KernelSys.osBlockPriority
    dsimp only
    split
    · exact (KernelFrame.block s _).leave (some t) .blocking
    · exact .block s _
  | unBlockPriority caller iPriority =>
    obtain ⟨-, hs⟩ := Option.ite_none_right_eq_some.mp hs
    obtain rfl := Option.some.inj hs
    exact (KernelFrame.block s _).leave caller .blocking
  | blockMultipleTask t us =>
    obtain ⟨-, hs⟩ := Option.ite_none_right_eq_some.mp hs
    obtain rfl := Option.some.inj hs
    exact .block s _
  | unBlockMultipleTask t us =>
    obtain ⟨-, hs⟩ := Option.ite_none_right_eq_some.mp hs
    obtain rfl := Option.some.inj hs
    exact (KernelFrame.block s _).leave (some t) .blocking

end

/-! ## The mask -/

/-- The mask has the current priorities of the blocked tasks, and the running task is not one of them. -/
structure BlockedInv (c : KernelPriorities τ μ) (s : KernelSys τ μ ε κ) (blocked : Finset τ) : Prop where
  mask : s.osBlockedList = blocked.image s.priority
  installed : blocked ⊆ s.installed
  idle : c.idle ∉ blocked
  current : ∀ t, s.currentTask = .task t → t ∉ blocked

section
variable {c : KernelPriorities τ μ} {s s' : KernelSys τ μ ε κ} {t : τ} {blocked : Finset τ}

omit [DecidableEq τ] [DecidableEq μ] in
theorem mem_mask (h : KernelInv c s) (hmask : s.osBlockedList = blocked.image s.priority) :
    s.priority t ∈ s.osBlockedList ↔ t ∈ blocked := by
  rw [hmask, Finset.mem_image]
  constructor
  · rintro ⟨u, hu, he⟩
    exact h.inj he ▸ hu
  · exact fun ht => ⟨t, ht, rfl⟩

omit [DecidableEq τ] [DecidableEq μ] in
theorem notMem_of_scheduled (h : KernelInv c s) (hmask : s.osBlockedList = blocked.image s.priority)
    (hidle : c.idle ∉ blocked) (ht : s.osSchedule = .task t) : t ∉ blocked := by
  obtain ⟨u, hu, -, -, honly⟩ := h.osSchedule_spec
  obtain rfl := TaskNumber.task.inj (hu.symm.trans ht)
  intro hin
  exact hidle (honly ((mem_mask h hmask).mpr hin) ▸ hin)

omit [DecidableEq τ] [DecidableEq μ] in
theorem BlockedInv.apart (h : BlockedInv c s blocked) (hk : KernelInv c s) : BlockedApart s blocked where
  scheduled _ ht := notMem_of_scheduled hk h.mask h.idle ht
  ready _ _ hno hin := hno ((mem_mask hk h.mask).mp hin)

theorem BlockedInv.mask_step {a : KernelAct τ μ ε κ} {n : KernelNote τ μ} (h : BlockedInv c s n.blocked)
    (hk : KernelInv c s) (hf : KernelFrame c s s' (s.ownerEvent a) (s.blockedAfter a)) (hg : BlockKept c (s, n) a) :
    s'.osBlockedList = (noteKernel s n a).blocked.image s'.priority := by
  rw [hf.osBlockedList]
  -- no task changes its priority in a call of these functions
  have hnone : s.ownerEvent a = .none → s'.priority = s.priority := by
    intro ha
    have howners := hf.owners
    rw [ha] at howners
    cases howners
    assumption
  -- otherwise the running task may do so, which is not blocked
  have hsame : s.osBlockedList = n.blocked.image s'.priority := by
    rw [h.mask]
    refine Finset.image_congr fun t ht => (hf.priority t fun hcur => ?_).symm
    exact h.current t hcur ht
  cases a with
  | blockTask t u =>
    show insert (s.priority u) s.osBlockedList = (insert u n.blocked).image s'.priority
    rw [hnone rfl, Finset.image_insert, h.mask]
  | unBlockTask caller u =>
    show s.osBlockedList.erase (s.priority u) = (n.blocked.erase u).image s'.priority
    rw [hnone rfl, Finset.image_erase fun _ _ he => hk.inj he, h.mask]
  | blockPriority | unBlockPriority | blockMultipleTask | unBlockMultipleTask => exact hg.elim
  | _ => exact hsame

variable [DecidableEq ε] [DecidableEq κ]

theorem BlockedInv.step {a : KernelAct τ μ ε κ} {n : KernelNote τ μ} (h : BlockedInv c s n.blocked)
    (hk : KernelOk c s) (hk' : KernelOk c s') (hg : BlockKept c (s, n) a) (hs : kernelStep c s a = some s') :
    BlockedInv c s' (noteKernel s n a).blocked := by
  have hf := kernelStep_frame hk hs
  have hmask := h.mask_step hk.toKernelInv hf hg
  have hold : ∀ u, u ∈ (noteKernel s n a).blocked → u ∈ n.blocked ∨ ∃ t, a = .blockTask t u := by
    intro u hu
    unfold noteKernel at hu
    dsimp only at hu
    split at hu
    · rcases Finset.mem_insert.mp hu with rfl | hu
      · exact Or.inr ⟨_, rfl⟩
      · exact Or.inl hu
    · exact Or.inl (Finset.mem_of_mem_erase hu)
    · exact Or.inl hu
  have hidle : c.idle ∉ (noteKernel s n a).blocked := by
    intro hin
    rcases hold _ hin with hin | ⟨t, rfl⟩
    · exact h.idle hin
    · exact hg.2 rfl
  refine ⟨hmask, fun u hu => hf.installed ?_, hidle, fun u hcur hu => ?_⟩
  · rcases hold u hu with hu | ⟨t, rfl⟩
    · exact h.installed hu
    · exact hg.1
  · have hscheduled : s'.currentTask ≠ s'.osSchedule := by
      intro he
      exact notMem_of_scheduled hk'.toKernelInv hmask hidle (he ▸ hcur) hu
    have hstays := hf.currentTask.resolve_right hscheduled
    rw [hstays] at hcur
    rcases hold u hu with hu | ⟨t, rfl⟩
    · exact h.current u hcur hu
    · -- a task that blocks itself comes to `ChangeContext`
      obtain ⟨hr, hs⟩ := Option.ite_none_right_eq_some.mp hs
      obtain rfl := Option.some.inj hs
      obtain rfl : t = u := TaskNumber.task.inj (hr.2.1.symm.trans hcur)
      refine hscheduled ?_
      unfold KernelSys.osBlockTask
      dsimp only
      rw [if_pos rfl]
      exact leave_current hr.1

/-! ## Runs -/

def KernelNote.start : KernelNote τ μ where
  stack _ := []
  blocked := ∅

/-- What holds along a run of such steps. -/
structure WatchedOk (c : KernelPriorities τ μ) (p : KernelSys τ μ ε κ × KernelNote τ μ) : Prop where
  ok : KernelOk c p.1
  stack : StackInv c.toPriorities p.1.toMutexSys p.2.stack
  blocked : BlockedInv c p.1 p.2.blocked

theorem WatchedOk.step {p q : KernelSys τ μ ε κ × KernelNote τ μ} {a : KernelAct τ μ ε κ} (h : WatchedOk c p)
    (hg : BlockKept c p a) (hs : watched (kernelStep c) noteKernel p a = some q) : WatchedOk c q := by
  obtain ⟨s, n⟩ := p
  obtain ⟨s', n'⟩ := q
  obtain ⟨hstep, hn⟩ := watched_eq_some.mp hs
  dsimp only at hstep hn
  subst hn
  have hkept : KernelReleaseKept c s a := by
    cases a with
    | release t m =>
      intro howner
      have hr := (Option.ite_none_right_eq_some.mp hstep).1
      exact h.stack.releaseKept hr.2.2.2.1 hg howner
    | _ => trivial
  have hok := kernelStep_ok h.ok hkept hstep
  refine ⟨hok, h.stack.step (kernelStep_frame h.ok hstep).owners fun t m he => ?_, h.blocked.step h.ok hok hg hstep⟩
  cases a with
  | release u x =>
    unfold KernelSys.ownerEvent at he
    dsimp only at he
    split at he
    · rename_i howner
      obtain ⟨rfl, rfl⟩ := OwnerEvent.gives.inj he
      exact hg howner
    · exact nomatch he
  | acquire u x timeWait =>
    unfold KernelSys.ownerEvent at he
    dsimp only at he
    split at he <;> exact nomatch he
  | resume u =>
    unfold KernelSys.ownerEvent at he
    dsimp only at he
    split at he
    · split at he <;> exact nomatch he
    · exact nomatch he
  | _ => exact nomatch he

omit [DecidableEq μ] [DecidableEq ε] [DecidableEq κ] in
theorem watchedOk_start (h : KernelStarted c s) : WatchedOk c (s, .start) := by
  have hno : ∀ t m, ¬s.Held t m := by
    intro t m hh
    exact nomatch (h.mutexes m).2.1.symm.trans hh.1
  refine ⟨kernelStarted_ok h, ⟨fun t m => ?_, fun t => List.nodup_nil, h.priority⟩, ?_⟩
  · exact iff_of_false List.not_mem_nil (hno t m)
  · exact ⟨h.osBlockedList, Finset.empty_subset _, Finset.notMem_empty _, fun _ _ => Finset.notMem_empty _⟩

/-- In every run in which tasks are blocked one by one and mutexes given back in reverse order, the scheduler selects
no blocked task, and no other task that is ready is excluded. -/
theorem blockedApart_of_runs {as : List (KernelAct τ μ ε κ)} {n : KernelNote τ μ} {s₀ : KernelSys τ μ ε κ}
    (h0 : KernelStarted c s₀) (r : Runs (watched (kernelStep c) noteKernel) (BlockKept c) (s₀, .start) as (s, n)) :
    BlockedApart s n.blocked := by
  have h : WatchedOk c (s, n) := r.invariant (watchedOk_start h0) fun _ _ _ h hg hs => h.step hg hs
  exact h.blocked.apart h.ok.toKernelInv

end

/-- A task blocks itself while it holds a mutex, and another one uses a mutex. -/
def blockedAtCeiling : List (KernelAct (Fin 3) Bool Unit Empty) :=
  [.acquire 2 true .zero, .blockTask 2 2, .acquire 1 false .zero, .release 1 false]

theorem blockedApart_of_runs_blockedAtCeiling :
    ∃ s n, Runs (watched (kernelStep smallKernel) noteKernel) (BlockKept smallKernel) (smallKernelStarted, .start)
      blockedAtCeiling (s, n) ∧ n.blocked = {2} ∧ s.priority 2 = 10 ∧ BlockedApart s n.blocked := by
  have hrun : (exec (guarded (watched (kernelStep smallKernel) noteKernel) (BlockKept smallKernel))
      (smallKernelStarted, .start) blockedAtCeiling).map (fun p => (p.2.blocked, p.1.priority 2)) =
        some ({2}, 10) := by
    decide +kernel
  obtain ⟨⟨s, n⟩, hs, hobs⟩ := Option.map_eq_some_iff.mp hrun
  simp only [Prod.mk.injEq] at hobs
  have r := Runs.of_exec_guarded hs
  exact ⟨s, n, r, hobs.1, hobs.2, blockedApart_of_runs smallKernelStarted_started r⟩

end Unet4Cooja
