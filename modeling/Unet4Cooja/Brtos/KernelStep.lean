import Unet4Cooja.Brtos.KernelInv

/-!
# Runs of the kernel

* `KernelOk` : the invariant, and the running task is ready;
* `KernelReleaseKept` : mutexes are released while no other one of their owner has saved their ceiling;
* `kernelStep_ok`, `kernelStarted_ok` : every such step keeps it, and it holds at the start.
-/

namespace Unet4Cooja
open Lib

variable {τ μ ε κ : Type*}

structure KernelOk (c : KernelPriorities τ μ) (s : KernelSys τ μ ε κ) : Prop extends KernelInv c s where
  current : ∃ t, s.currentTask = .task t ∧ s.priority t ∈ s.osReadyList

def KernelReleaseKept (c : KernelPriorities τ μ) (s : KernelSys τ μ ε κ) : KernelAct τ μ ε κ → Prop
  | .release t m => ReleaseKept c.toPriorities s.toMutexSys (.release t m)
  | _ => True

section
variable {s : KernelSys τ μ ε κ} {t : τ}

theorem changeContext_current (hn : s.iNesting = false) :
    s.changeContext.currentTask = s.changeContext.osSchedule := by
  unfold KernelSys.changeContext
  rw [if_neg (by rw [hn]; decide)]
  rfl

theorem leave_current [DecidableEq τ] {x : KernelCall (ε ⊕ κ)} (hn : s.iNesting = false) :
    (s.leave (some t) x).currentTask = (s.leave (some t) x).osSchedule :=
  changeContext_current (s := { s with call := Function.update s.call t (some x) }) hn

end

namespace KernelOk
variable {c : KernelPriorities τ μ} {s s' : KernelSys τ μ ε κ} {t u : τ} {m : μ} {caller : Option τ}

theorem current_eq (h : KernelOk c s) (ht : s.currentTask = .task t) : s.priority t ∈ s.osReadyList := by
  obtain ⟨u, hu, hready⟩ := h.current
  obtain rfl : u = t := by simpa using hu.symm.trans ht
  exact hready

theorem of_changeContext (h : KernelInv c s) (hn : s.iNesting = false) : KernelOk c s.changeContext := by
  obtain ⟨t, ht, hready, -⟩ := h.osSchedule_spec
  refine ⟨h.changeContext, t, ?_⟩
  unfold KernelSys.changeContext
  rw [if_neg (by rw [hn]; decide)]
  exact ⟨ht, hready⟩

theorem other (h : KernelOk c s) (hm : s'.toMutexSys = s.toMutexSys) (hi : s'.installed = s.installed)
    (hc : s'.call = s.call) (hw : s'.wait = s.wait) (ht : s'.currentTask = s.currentTask) : KernelOk c s' := by
  refine ⟨h.toKernelInv.other hm hi hc hw, ?_⟩
  rw [ht, hm]
  exact h.current

theorem block (h : KernelOk c s) (blocked : Finset Nat) : KernelOk c { s with osBlockedList := blocked } :=
  h.other rfl rfl rfl rfl rfl

variable [DecidableEq τ]

theorem leaveTask [DecidableEq ε] [DecidableEq κ] (h : KernelOk c s) (hr : s.Runs c t) {x : KernelCall (ε ⊕ κ)}
    (hx : ∀ e q b, x ≠ .pending e q b) : KernelOk c (s.leave (some t) x) := by
  obtain ⟨hn, hcur, hidle, hpc, hcall⟩ := hr
  have ht := h.installed_of_ready (h.current_eq hcur)
  refine of_changeContext (h.setCall hpc ht hidle (fun e q b => ?_) fun e q b he => ?_) hn
  · rw [hcall]
    exact nofun
  · exact hx e q b (Option.some.inj he)

theorem leave [DecidableEq ε] [DecidableEq κ] (h : KernelOk c s) (hcalls : s.Calls c caller)
    {x : KernelCall (ε ⊕ κ)} (hx : ∀ e q b, x ≠ .pending e q b) : KernelOk c (s.leave caller x) := by
  cases caller with
  | none => exact h
  | some t => exact h.leaveTask hcalls hx

theorem mutexAcquire [DecidableEq μ] (h : KernelOk c s) (hr : s.Runs c t) (timeWait : WaitTime) :
    KernelOk c (s.osMutexAcquire c t m timeWait) := by
  obtain ⟨hn, hcur, hidle, hpc, hcall⟩ := hr
  have hready := h.current_eq hcur
  have hstep := taskStep_acquire (c := c.toPriorities) (s := s.toMutexSys) (t := t) (m := m) timeWait
  have hinv : KernelInv c
      { s with toMutexSys := osMutexAcquire c.toPriorities s.toMutexSys t m timeWait } := by
    obtain ⟨v, hv, hm⟩ := h.mutex
    obtain ⟨w, he, hw⟩ := withVector_acquire (t := t) (m := m) hv timeWait
    exact h.task (h.installed_of_ready hready) hidle hcall hstep ⟨w, hw, he ▸ hm.acquire hpc⟩
  unfold KernelSys.osMutexAcquire
  dsimp only
  split
  · rename_i hrun
    exact ⟨hinv, t, hcur, hstep.self hready hrun⟩
  · exact of_changeContext hinv hn

theorem mutexRelease [DecidableEq μ] [DecidableEq ε] [DecidableEq κ] (h : KernelOk c s) (hr : s.Runs c t)
    (hg : KernelReleaseKept c s (.release t m)) : KernelOk c (s.osMutexRelease c t m) := by
  obtain ⟨hn, hcur, hidle, hpc, hcall⟩ := hr
  have hready := h.current_eq hcur
  obtain ⟨v, hv, hm⟩ := h.mutex
  have hstep : TaskStep s.toMutexSys (osMutexRelease c.toPriorities s.toMutexSys t m) t :=
    taskStep_release h.queueInv
  have hpc' : (osMutexRelease c.toPriorities s.toMutexSys t m).pc = s.pc := pc_release
  -- the mutex is handed over to a task that is installed
  have hwaiter : (s.mutexes m).osEventWait ≠ 0 →
      ∀ u, u ∉ s.installed → c.iPriority u ≠ saScheduler (s.mutexes m).osEventWaitList := by
    intro hwait u hu he
    obtain ⟨-, w, b, hw, hwp⟩ := h.queueInv.waiter hwait
    obtain rfl := h.inj (hwp.trans (he.symm.trans (h.fresh u hu).priority.symm))
    exact nomatch (h.fresh w hu).pc.symm.trans hw
  obtain ⟨w, he, hw⟩ := withVector_release (c := c.toPriorities) (t := t) (m := m) hv hwaiter
  have hinv : KernelOk c { s with toMutexSys := osMutexRelease c.toPriorities s.toMutexSys t m } := by
    refine ⟨h.task (h.installed_of_ready hready) hidle hcall hstep ⟨w, hw, ?_⟩, t, hcur, hstep.self hready ?_⟩
    · rw [← he]
      exact hm.release hpc hg
    · rw [hpc']
      exact hpc
  unfold KernelSys.osMutexRelease
  dsimp only
  split
  · refine hinv.leaveTask ⟨hn, hcur, hidle, ?_, hcall⟩ fun _ _ _ => nofun
    dsimp only
    rw [hpc']
    exact hpc
  · exact hinv

theorem delay (h : KernelOk c s) (hr : s.Runs c t) : KernelOk c (s.osDelayTask t) := by
  obtain ⟨hn, hcur, hidle, hpc, hcall⟩ := hr
  obtain ⟨v, hv, hm⟩ := h.mutex
  refine of_changeContext ?_ hn
  exact h.task (h.installed_of_ready (h.current_eq hcur)) hidle hcall taskStep_delay ⟨v, hv, hm.delay hpc⟩

theorem resume [DecidableEq μ] [DecidableEq ε] [DecidableEq κ] (h : KernelOk c s) (hcur : s.currentTask = .task t)
    (hs : s.resume c t = some s') : KernelOk c s' := by
  have hready := h.current_eq hcur
  have ht := h.installed_of_ready hready
  unfold KernelSys.resume at hs
  have hcall : s.pc t ≠ .running → s.call t = none := by
    intro hne
    by_contra hsome
    exact hne (h.running t hsome)
  have hidle : s.pc t ≠ .running → t ≠ c.idle := by
    rintro hne rfl
    exact hne h.idle.pc
  obtain ⟨v, hv, hm⟩ := h.mutex
  split at hs
  · rename_i hpc
    obtain rfl := Option.some.inj hs
    have hne : s.pc t ≠ .running := by
      rw [hpc]
      exact nofun
    have hstep : TaskStep s.toMutexSys { s.toMutexSys with pc := Function.update s.pc t .running } t :=
      .quiet rfl rfl (fun u hu => Function.update_of_ne hu ..) fun _ _ => rfl
    exact ⟨h.task ht (hidle hne) (hcall hne) hstep ⟨v, hv, hm.undelay hpc⟩, t, hcur, hready⟩
  · rename_i m q b hpc
    obtain rfl := Option.some.inj hs
    have hne : s.pc t ≠ .running := by
      rw [hpc]
      exact nofun
    have hq : s.priority t = q := (hm.waiting t m q b hpc).1
    have hstep := taskStep_resumed (c := c.toPriorities) (m := m) (b := b) hq
    obtain ⟨w, he, hw⟩ := withVector_resumed (t := t) (m := m) hv q b
    have hselected : (s.toMutexSys.withVector v).Selected t := ⟨s.priority t, hready, hm.ceiling.vector_priority t⟩
    refine ⟨h.task ht (hidle hne) (hcall hne) hstep ⟨w, hw, he ▸ hm.resumed hselected hpc⟩, t, hcur, ?_⟩
    exact hstep.self hready (pc_acquireResumed q b)
  · rename_i hpc
    split at hs
    · exact nomatch hs
    · rename_i e q b hpend
      obtain rfl := Option.some.inj hs
      refine ⟨h.pendResumed hpend hready, t, ?_⟩
      unfold KernelSys.pendResumed
      split
      · exact ⟨hcur, hready⟩
      · split <;> exact ⟨hcur, hready⟩
    all_goals
      rename_i hx
      obtain rfl := Option.some.inj hs
      refine ⟨h.setCall hpc ht (h.ne_idle_of_call ?_) (fun e q b => ?_) fun _ _ _ => nofun, t, hcur, hready⟩
      · rw [hx]
        exact nofun
      · rw [hx]
        exact nofun

section
variable [DecidableEq ε] [DecidableEq κ]

theorem suspend (h : KernelOk c s) (hr : s.Runs c t) (e : ε ⊕ κ) (timeWait : WaitTime) :
    KernelOk c (s.suspend t e timeWait).changeContext :=
  of_changeContext (h.toKernelInv.suspend hr.2.2.2.1 (h.installed_of_ready (h.current_eq hr.2.1)) hr.2.2.1
    hr.2.2.2.2 e timeWait) hr.1

theorem semPend (h : KernelOk c s) (hr : s.Runs c t) (e : ε) (timeWait : WaitTime) :
    KernelOk c (s.osSemPend t e timeWait) := by
  unfold KernelSys.osSemPend
  split
  · exact h.other rfl rfl rfl rfl rfl
  · split
    · exact h
    · exact h.suspend hr (.inl e) timeWait

theorem queuePend (h : KernelOk c s) (hr : s.Runs c t) (k : κ) (timeWait : WaitTime) :
    KernelOk c (s.osQueuePend t k timeWait) := by
  unfold KernelSys.osQueuePend
  split
  · exact h.other rfl rfl rfl rfl rfl
  · split
    · exact h
    · exact h.suspend hr (.inr k) timeWait

theorem post (h : KernelOk c s) (hcalls : s.Calls c caller) {e : ε ⊕ κ} (hwait : (s.wait e).osEventWait ≠ 0) :
    KernelOk c ((s.select e).leave caller .posting) := by
  obtain ⟨t, ht, hready⟩ := h.current
  have hselect : KernelOk c (s.select e) := ⟨h.toKernelInv.select hwait, t, ht, Finset.mem_insert_of_mem hready⟩
  refine hselect.leave ?_ fun _ _ _ => nofun
  cases caller with
  | none => exact hcalls
  | some t => exact hcalls

theorem semPost (h : KernelOk c s) (hcalls : s.Calls c caller) (e : ε) : KernelOk c (s.osSemPost caller e) := by
  unfold KernelSys.osSemPost
  split
  · rename_i hwait
    exact h.post hcalls hwait
  · split
    · exact h.other rfl rfl rfl rfl rfl
    · exact h

theorem queuePost (h : KernelOk c s) (hcalls : s.Calls c caller) (k : κ) (data : U8) :
    KernelOk c (s.osQueuePost caller k data) := by
  unfold KernelSys.osQueuePost
  split
  · have hput : KernelOk c { s with queue := Function.update s.queue k ((s.queue k).put data) } :=
      h.other rfl rfl rfl rfl rfl
    dsimp only
    split
    · rename_i hwait
      refine hput.post ?_ hwait
      cases caller with
      | none => exact hcalls
      | some t => exact hcalls
    · exact hput
  · exact h

theorem blockLeave (h : KernelOk c s) (hr : s.Runs c t) (blocked : Finset Nat) :
    KernelOk c ({ s with osBlockedList := blocked }.leave (some t) .blocking) :=
  (h.block blocked).leaveTask hr fun _ _ _ => nofun

theorem blockCalls (h : KernelOk c s) (hcalls : s.Calls c caller) (blocked : Finset Nat) :
    KernelOk c ({ s with osBlockedList := blocked }.leave caller .blocking) := by
  cases caller with
  | none => exact h.block blocked
  | some t => exact h.blockLeave hcalls blocked

end

end KernelOk

section
variable [DecidableEq τ] [DecidableEq μ] [DecidableEq ε] [DecidableEq κ] {c : KernelPriorities τ μ}
  {s s' : KernelSys τ μ ε κ} {a : KernelAct τ μ ε κ}

/-- Every step keeps the invariant, if mutexes are released as `KernelReleaseKept` says. -/
theorem kernelStep_ok (h : KernelOk c s) (hg : KernelReleaseKept c s a) (hs : kernelStep c s a = some s') :
    KernelOk c s' := by
  cases a with
  | enter =>
    obtain ⟨-, hs⟩ := Option.ite_none_left_eq_some.mp hs
    obtain rfl := Option.some.inj hs
    exact h.other rfl rfl rfl rfl rfl
  | exit =>
    obtain ⟨-, hs⟩ := Option.ite_none_right_eq_some.mp hs
    obtain rfl := Option.some.inj hs
    have hout : KernelInv c { s with iNesting := false } := h.toKernelInv.other rfl rfl rfl rfl
    exact KernelOk.of_changeContext hout rfl
  | resume t =>
    obtain ⟨⟨-, hcur⟩, hs⟩ := Option.ite_none_right_eq_some.mp hs
    exact h.resume hcur hs
  | tick t =>
    obtain ⟨⟨-, hticks⟩, hs⟩ := Option.ite_none_right_eq_some.mp hs
    obtain rfl := Option.some.inj hs
    obtain ⟨u, hu, hready⟩ := h.current
    exact ⟨h.toKernelInv.tick hticks, u, hu, Finset.mem_insert_of_mem hready⟩
  | install t u =>
    obtain ⟨⟨hr, hu⟩, hs⟩ := Option.ite_none_right_eq_some.mp hs
    obtain rfl := Option.some.inj hs
    have hready := h.current_eq hr.2.1
    refine ⟨h.toKernelInv.install hu, t, hr.2.1, ?_⟩
    have htu : t ≠ u := by
      rintro rfl
      exact hu (h.installed_of_ready hready)
    show Function.update s.priority u (c.iPriority u) t ∈ insert (c.iPriority u) s.osReadyList
    rw [Function.update_of_ne htu]
    exact Finset.mem_insert_of_mem hready
  | acquire t m timeWait =>
    obtain ⟨hr, hs⟩ := Option.ite_none_right_eq_some.mp hs
    obtain rfl := Option.some.inj hs
    exact h.mutexAcquire hr timeWait
  | release t m =>
    obtain ⟨hr, hs⟩ := Option.ite_none_right_eq_some.mp hs
    obtain rfl := Option.some.inj hs
    exact h.mutexRelease hr hg
  | delay t =>
    obtain ⟨hr, hs⟩ := Option.ite_none_right_eq_some.mp hs
    obtain rfl := Option.some.inj hs
    exact h.delay hr
  | semPend t e timeWait =>
    obtain ⟨hr, hs⟩ := Option.ite_none_right_eq_some.mp hs
    obtain rfl := Option.some.inj hs
    exact h.semPend hr e timeWait
  | queuePend t k timeWait =>
    obtain ⟨hr, hs⟩ := Option.ite_none_right_eq_some.mp hs
    obtain rfl := Option.some.inj hs
    exact h.queuePend hr k timeWait
  | semPost caller e =>
    obtain ⟨hr, hs⟩ := Option.ite_none_right_eq_some.mp hs
    obtain rfl := Option.some.inj hs
    exact h.semPost hr e
  | queuePost caller k data =>
    obtain ⟨hr, hs⟩ := Option.ite_none_right_eq_some.mp hs
    obtain rfl := Option.some.inj hs
    exact h.queuePost hr k data
  | blockTask t u =>
    obtain ⟨hr, hs⟩ := Option.ite_none_right_eq_some.mp hs
    obtain rfl := Option.some.inj hs
    unfold KernelSys.osBlockTask
    dsimp only
    split
    · exact h.blockLeave hr _
    · exact h.block _
  | unBlockTask caller u =>
    obtain ⟨hr, hs⟩ := Option.ite_none_right_eq_some.mp hs
    obtain rfl := Option.some.inj hs
    exact h.blockCalls hr _
  | blockPriority t iPriority =>
    obtain ⟨hr, hs⟩ := Option.ite_none_right_eq_some.mp hs
    obtain rfl := Option.some.inj hs
    unfold KernelSys.osBlockPriority
    dsimp only
    split
    · exact h.blockLeave hr _
    · exact h.block _
  | unBlockPriority caller iPriority =>
    obtain ⟨hr, hs⟩ := Option.ite_none_right_eq_some.mp hs
    obtain rfl := Option.some.inj hs
    exact h.blockCalls hr _
  | blockMultipleTask t us =>
    obtain ⟨hr, hs⟩ := Option.ite_none_right_eq_some.mp hs
    obtain rfl := Option.some.inj hs
    exact h.block _
  | unBlockMultipleTask t us =>
    obtain ⟨hr, hs⟩ := Option.ite_none_right_eq_some.mp hs
    obtain rfl := Option.some.inj hs
    exact h.blockLeave hr _

omit [DecidableEq μ] [DecidableEq ε] [DecidableEq κ] in
theorem kernelStarted_ok (h : KernelStarted c s) : KernelOk c s := by
  classical
  generalize hv : (fun p => if hu : ∃ u, u ∉ s.installed ∧ c.iPriority u = p then TaskNumber.task hu.choose
    else s.priorityVector p) = v
  have hsame : SameVector c.toPriorities s.installed v s.priorityVector := by
    intro p hp
    rw [← hv]
    exact dif_neg fun ⟨u, hu, he⟩ => hp u hu he
  have hvector : ∀ t, v (c.iPriority t) = .task t := by
    intro t
    by_cases ht : t ∈ s.installed
    · rw [hsame]
      · exact h.vector t ht
      · rintro u hu he
        exact hu (c.installed u t he ▸ ht)
    · have hex : ∃ u, u ∉ s.installed ∧ c.iPriority u = c.iPriority t := ⟨t, ht, rfl⟩
      rw [← hv]
      dsimp only
      rw [dif_pos hex, c.installed _ t hex.choose_spec.2]
  have hinstalled : Installed c.toPriorities (s.toMutexSys.withVector v) := by
    refine ⟨h.priority, h.pc, hvector, fun p hp => ?_, h.mutexes⟩
    obtain ⟨t, -, ht⟩ := (h.ready p).mp hp
    exact ⟨t, ht⟩
  have hno : ∀ {t e q b}, s.call t ≠ some (.pending e q b) := by
    intro t e q b
    rw [h.call]
    exact nofun
  have hidle : s.priority c.idle ∈ s.osReadyList := (h.ready _).mpr ⟨c.idle, h.idle, (h.priority _).symm⟩
  have hinv : KernelInv c s := by
    refine ⟨⟨v, hsame, hinstalled.inv⟩, fun t _ => h.pc t, fun t e q b ht => absurd ht hno,
      fun t e q ht => absurd ht hno, fun e q hq => ?_, fun e => ?_, fun t ht => ?_, ?_⟩
    · rw [(h.wait e).2] at hq
      exact absurd hq (Finset.notMem_empty q)
    · rw [(h.wait e).1, (h.wait e).2]
      rfl
    · refine ⟨h.pc t, h.call t, h.timeToWait t, h.priority t, fun hr => ?_⟩
      obtain ⟨u, hu, he⟩ := (h.ready _).mp hr
      rw [h.priority t] at he
      exact ht (c.installed u t he ▸ hu)
    · exact ⟨h.idle, h.pc _, h.call _, h.priority _, hidle⟩
  refine ⟨hinv, ?_⟩
  obtain ⟨t, ht, hready, -⟩ := hinv.osSchedule_spec
  exact ⟨t, h.currentTask.trans ht, hready⟩

end

end Unet4Cooja
