import Unet4Cooja.Brtos.Kernel
import Unet4Cooja.Brtos.TaskStep

/-!
# Who is ready in the kernel

* `KernelInv` : what holds of wait lists, calls and priorities, over the invariant of the mutexes;
* `KernelInv.task` : a call to a mutex or a delay; `KernelInv.suspend`, `KernelInv.select`, `KernelInv.cancel`,
  `KernelInv.wake`, `KernelInv.tick`, `KernelInv.install` : the other changes of the ready list;
* `KernelInv.osSchedule_spec` : what the scheduler selects.

The invariant of the mutexes is about tasks that are all installed. It holds with a priority vector that leads to the
others, too.
-/

namespace Unet4Cooja

variable {τ μ ε κ : Type*}

/-- A task that is not installed. -/
structure KernelSys.Fresh (c : KernelPriorities τ μ) (s : KernelSys τ μ ε κ) (t : τ) : Prop where
  pc : s.pc t = .running
  call : s.call t = none
  timeToWait : s.timeToWait t = .noTimeout
  priority : s.priority t = c.iPriority t
  ready : s.priority t ∉ s.osReadyList

structure KernelSys.Idles (c : KernelPriorities τ μ) (s : KernelSys τ μ ε κ) : Prop where
  installed : c.idle ∈ s.installed
  pc : s.pc c.idle = .running
  call : s.call c.idle = none
  priority : s.priority c.idle = c.iPriority c.idle
  ready : s.priority c.idle ∈ s.osReadyList

/-- The wait lists have the bits of the tasks that are in the pend, and a task in a wait list is ready only if its time
is over. -/
structure KernelInv (c : KernelPriorities τ μ) (s : KernelSys τ μ ε κ) : Prop where
  mutex : ∃ v, SameVector c.toPriorities s.installed v s.priorityVector ∧
    MutexInv c.toPriorities (s.toMutexSys.withVector v)
  running : ∀ t, s.call t ≠ none → s.pc t = .running
  pending : ∀ t e q b, s.call t = some (.pending e q b) → s.priority t = q ∧
    (q ∈ s.osReadyList → q ∈ (s.wait e).osEventWaitList → b = true ∧ s.timeToWait t = .exitByTimeout)
  forever : ∀ t e q, s.call t = some (.pending e q false) → s.timeToWait t ≠ .ticks
  listed : ∀ e, ∀ q ∈ (s.wait e).osEventWaitList, ∃ t b, s.call t = some (.pending e q b)
  count : ∀ e, (s.wait e).osEventWait = (s.wait e).osEventWaitList.card
  fresh : ∀ t, t ∉ s.installed → s.Fresh c t
  idle : s.Idles c

namespace KernelInv
variable {c : KernelPriorities τ μ} {s s' : KernelSys τ μ ε κ} {t u : τ} {e : ε ⊕ κ} {q : Nat} {b : Bool}

/-! ## Priorities -/

theorem inj (h : KernelInv c s) (he : s.priority t = s.priority u) : t = u := by
  obtain ⟨v, -, hm⟩ := h.mutex
  exact hm.ceiling.priority_inj he

theorem queueInv (h : KernelInv c s) : QueueInv s.toMutexSys := by
  obtain ⟨v, -, hm⟩ := h.mutex
  exact ⟨hm.ready, hm.waiting, hm.listed, hm.count, hm.available, hm.forever⟩

theorem vector (h : KernelInv c s) (ht : t ∈ s.installed) : s.priorityVector (s.priority t) = .task t := by
  obtain ⟨v, hv, hm⟩ := h.mutex
  rw [← hv]
  · exact hm.ceiling.vector_priority t
  · intro u hu he
    rw [← (h.fresh u hu).priority] at he
    exact hu (h.inj he ▸ ht)

theorem installed_of_call (h : KernelInv c s) (ht : s.call t ≠ none) : t ∈ s.installed := by
  by_contra hno
  exact ht (h.fresh t hno).call

theorem installed_of_ready (h : KernelInv c s) (ht : s.priority t ∈ s.osReadyList) : t ∈ s.installed := by
  by_contra hno
  exact (h.fresh t hno).ready ht

theorem task_of_ready (h : KernelInv c s) (hq : q ∈ s.osReadyList) : ∃ t ∈ s.installed, s.priority t = q := by
  obtain ⟨v, -, hm⟩ := h.mutex
  obtain ⟨t, ht, -⟩ := hm.ready q hq
  have ht' : s.priority t = q := ht
  exact ⟨t, h.installed_of_ready (ht'.symm ▸ hq), ht'⟩

theorem ne_idle_of_call (h : KernelInv c s) (ht : s.call t ≠ none) : t ≠ c.idle := by
  rintro rfl
  exact ht h.idle.call

/-- The task that `OSSchedule` selects is ready, it has the highest priority of those that are ready and not blocked,
and only the idle task can be selected although its priority is blocked. -/
theorem osSchedule_spec (h : KernelInv c s) : ∃ t, s.osSchedule = .task t ∧ s.priority t ∈ s.osReadyList ∧
    (∀ p ∈ s.osReadyList, p ∉ s.osBlockedList → p ≤ s.priority t) ∧
    (s.priority t ∈ s.osBlockedList → t = c.idle) := by
  unfold KernelSys.osSchedule
  rcases (s.osReadyList \ s.osBlockedList).eq_empty_or_nonempty with hempty | hne
  · have hzero : saScheduler (s.osReadyList \ s.osBlockedList) = s.priority c.idle := by
      rw [hempty, h.idle.priority, c.idlePriority]
      rfl
    rw [hzero]
    refine ⟨c.idle, h.vector h.idle.installed, h.idle.ready, fun p hp hb => ?_, fun _ => rfl⟩
    exact absurd (Finset.mem_sdiff.mpr ⟨hp, hb⟩) (hempty ▸ Finset.notMem_empty p)
  · obtain ⟨hready, hblocked⟩ := Finset.mem_sdiff.mp (saScheduler_mem hne)
    obtain ⟨t, ht, hp⟩ := h.task_of_ready hready
    rw [← hp] at hready hblocked ⊢
    refine ⟨t, h.vector ht, hready, fun p hpr hpb => ?_, fun hb => absurd hb hblocked⟩
    rw [hp]
    exact le_saScheduler (Finset.mem_sdiff.mpr ⟨hpr, hpb⟩)

theorem notMem_of_call (h : KernelInv c s) (hcall : s.call t = none) (e : ε ⊕ κ) :
    s.priority t ∉ (s.wait e).osEventWaitList := by
  intro hin
  obtain ⟨u, b, hu⟩ := h.listed e _ hin
  obtain rfl := h.inj (h.pending u e _ b hu).1
  exact nomatch hcall.symm.trans hu

/-! ## Steps without a change of the wait lists -/

/-- The running task, the blocked priorities, and what semaphores and queues hold do not count. -/
theorem other (h : KernelInv c s) (hm : s'.toMutexSys = s.toMutexSys) (hi : s'.installed = s.installed)
    (hc : s'.call = s.call) (hw : s'.wait = s.wait) : KernelInv c s' := by
  obtain ⟨m, installed, current, nesting, blocked, call, wait, sem, queue⟩ := s'
  dsimp only at hm hi hc hw
  subst hm hi hc hw
  exact ⟨h.mutex, h.running, h.pending, h.forever, h.listed, h.count,
    fun t ht => ⟨(h.fresh t ht).pc, (h.fresh t ht).call, (h.fresh t ht).timeToWait, (h.fresh t ht).priority,
      (h.fresh t ht).ready⟩,
    ⟨h.idle.installed, h.idle.pc, h.idle.call, h.idle.priority, h.idle.ready⟩⟩

theorem changeContext (h : KernelInv c s) : KernelInv c s.changeContext := by
  unfold KernelSys.changeContext
  split
  · exact h
  · exact h.other rfl rfl rfl rfl

theorem task (h : KernelInv c s) (ht : t ∈ s.installed) (hidle : t ≠ c.idle) (hcall : s.call t = none)
    {m : MutexSys τ μ} (f : TaskStep s.toMutexSys m t)
    (hm : ∃ v, SameVector c.toPriorities s.installed v m.priorityVector ∧ MutexInv c.toPriorities (m.withVector v)) :
    KernelInv c { s with toMutexSys := m } := by
  obtain ⟨v, hv, hm⟩ := hm
  obtain ⟨v₀, -, hm₀⟩ := h.mutex
  have hne : ∀ {u}, s.call u ≠ none → u ≠ t := by
    rintro u hu rfl
    exact hu hcall
  have hinj : ∀ {u w}, m.priority u = m.priority w → u = w := fun he => hm.ceiling.priority_inj he
  -- whose bit is set is ready already, waits for a mutex, or is `t`
  have hready : ∀ {u}, u ≠ t → s.pc u = .running → m.priority u ∈ m.osReadyList →
      s.priority u ∈ s.osReadyList := by
    intro u hut hpc hu
    rcases f.ready _ hu with hu | hu | ⟨w, x, d, hw⟩
    · rwa [f.priority u hut] at hu
    · exact absurd (hinj hu) hut
    · have hwp : s.priority w = m.priority u := (hm₀.waiting w x _ d hw).1
      rw [f.priority u hut] at hwp
      rw [h.inj hwp, hpc] at hw
      exact nomatch hw
  refine ⟨⟨v, hv, hm⟩, fun u hu => ?_, fun u e q b hu => ?_, fun u e q hu => ?_, h.listed, h.count, fun u hu => ?_, ?_⟩
  · dsimp only at hu ⊢
    rw [f.pc u (hne hu)]
    exact h.running u hu
  · dsimp only at hu ⊢
    have hsome : s.call u ≠ none := by
      rw [hu]
      exact nofun
    obtain ⟨hp, hover⟩ := h.pending u e q b hu
    rw [f.priority u (hne hsome), f.timeToWait u (hne hsome)]
    refine ⟨hp, fun hq => hover ?_⟩
    have hq' := hready (hne hsome) (h.running u hsome) (by rwa [f.priority u (hne hsome), hp])
    rwa [hp] at hq'
  · dsimp only at hu ⊢
    have hsome : s.call u ≠ none := by
      rw [hu]
      exact nofun
    rw [f.timeToWait u (hne hsome)]
    exact h.forever u e q hu
  · have hf := h.fresh u hu
    have hut : u ≠ t := by
      rintro rfl
      exact hu ht
    refine ⟨?_, hf.call, ?_, ?_, fun hr => hf.ready (hready hut hf.pc hr)⟩
    · exact (f.pc u hut).trans hf.pc
    · exact (f.timeToWait u hut).trans hf.timeToWait
    · exact (f.priority u hut).trans hf.priority
  · have hit : c.idle ≠ t := Ne.symm hidle
    refine ⟨h.idle.installed, ?_, h.idle.call, ?_, ?_⟩
    · exact (f.pc _ hit).trans h.idle.pc
    · exact (f.priority _ hit).trans h.idle.priority
    · dsimp only
      rw [f.priority _ hit]
      exact f.kept _ h.idle.ready fun he => hit (h.inj he)

variable [DecidableEq τ]

theorem setCall (h : KernelInv c s) (hpc : s.pc t = .running) (ht : t ∈ s.installed) (hidle : t ≠ c.idle)
    {x : Option (KernelCall (ε ⊕ κ))} (hold : ∀ e q b, s.call t ≠ some (.pending e q b))
    (hx : ∀ e q b, x ≠ some (.pending e q b)) :
    KernelInv c { s with call := Function.update s.call t x } := by
  have hcall : ∀ {u e q b}, Function.update s.call t x u = some (.pending e q b) →
      s.call u = some (.pending e q b) := by
    intro u e q b hu
    by_cases hut : u = t
    · rw [hut, Function.update_self] at hu
      exact absurd hu (hx e q b)
    · rwa [Function.update_of_ne hut] at hu
  refine ⟨h.mutex, fun u hu => ?_, fun u e q b hu => h.pending u e q b (hcall hu),
    fun u e q hu => h.forever u e q (hcall hu), fun e q hq => ?_, h.count, fun u hu => ?_, ?_⟩
  · by_cases hut : u = t
    · rw [hut]
      exact hpc
    · dsimp only at hu
      rw [Function.update_of_ne hut] at hu
      exact h.running u hu
  · obtain ⟨u, b, hu⟩ := h.listed e q hq
    refine ⟨u, b, ?_⟩
    dsimp only
    rw [Function.update_of_ne]
    · exact hu
    · rintro rfl
      exact hold e q b hu
  · have f := h.fresh u hu
    refine ⟨f.pc, ?_, f.timeToWait, f.priority, f.ready⟩
    dsimp only
    rw [Function.update_of_ne]
    · exact f.call
    · rintro rfl
      exact hu ht
  · refine ⟨h.idle.installed, h.idle.pc, ?_, h.idle.priority, h.idle.ready⟩
    dsimp only
    rw [Function.update_of_ne (Ne.symm hidle)]
    exact h.idle.call

/-! ## Ticks and installation -/

theorem tick (h : KernelInv c s) (hticks : s.timeToWait t = .ticks) :
    KernelInv c { s with toMutexSys := osTickHandler s.toMutexSys t } := by
  obtain ⟨v, hv, hm⟩ := h.mutex
  have ht : t ∈ s.installed := by
    by_contra hno
    exact nomatch hticks.symm.trans (h.fresh t hno).timeToWait
  have hself : (osTickHandler s.toMutexSys t).timeToWait t = .exitByTimeout := Function.update_self ..
  have hother : ∀ {u}, u ≠ t → (osTickHandler s.toMutexSys t).timeToWait u = s.timeToWait u :=
    fun hu => Function.update_of_ne hu ..
  have hready : ∀ {u}, u ≠ t → s.priority u ∈ (osTickHandler s.toMutexSys t).osReadyList →
      s.priority u ∈ s.osReadyList :=
    fun hut hu => Finset.mem_of_mem_insert_of_ne hu fun he => hut (h.inj he)
  refine ⟨⟨v, hv, hm.tick hticks⟩, h.running, fun u x q b hu => ?_, fun u x q hu => ?_, h.listed, h.count,
    fun u hu => ?_, ?_⟩
  · obtain ⟨hp, hover⟩ := h.pending u x q b hu
    refine ⟨hp, fun hq hl => ?_⟩
    by_cases hut : u = t
    · rw [hut] at hu ⊢
      refine ⟨?_, hself⟩
      -- a pend without a limit is not in the delay list
      cases b with
      | true => rfl
      | false => exact absurd hticks (h.forever t x q hu)
    · dsimp only
      rw [hother hut]
      exact hover (hp ▸ hready hut (hp.symm ▸ hq)) hl
  · by_cases hut : u = t
    · rw [hut]
      dsimp only
      rw [hself]
      exact nofun
    · dsimp only
      rw [hother hut]
      exact h.forever u x q hu
  · have hut : u ≠ t := by
      rintro rfl
      exact hu ht
    have f := h.fresh u hu
    exact ⟨f.pc, f.call, (hother hut).trans f.timeToWait, f.priority, fun hr => f.ready (hready hut hr)⟩
  · exact ⟨h.idle.installed, h.idle.pc, h.idle.call, h.idle.priority, Finset.mem_insert_of_mem h.idle.ready⟩

theorem install (h : KernelInv c s) (hu : u ∉ s.installed) : KernelInv c (s.osInstallTask c u) := by
  obtain ⟨v, hv, hm⟩ := h.mutex
  have f := h.fresh u hu
  have hpriority : (s.osInstallTask c u).priority = s.priority := by
    show Function.update s.priority u (c.iPriority u) = s.priority
    rw [← f.priority, Function.update_eq_self]
  have htime : (s.osInstallTask c u).timeToWait = s.timeToWait := by
    show Function.update s.timeToWait u .noTimeout = s.timeToWait
    rw [← f.timeToWait, Function.update_eq_self]
  have hready : ∀ {w}, w ≠ u → s.priority w ∈ (s.osInstallTask c u).osReadyList → s.priority w ∈ s.osReadyList := by
    intro w hwu hw
    refine Finset.mem_of_mem_insert_of_ne hw fun he => hwu (h.inj ?_)
    rw [he, f.priority]
  refine ⟨⟨v, fun p hp => ?_, ?_⟩, h.running, fun w x q b hw => ?_, fun w x q hw => ?_, h.listed, h.count,
    fun w hw => ?_, ?_⟩
  · show v p = Function.update s.priorityVector (c.iPriority u) (.task u) p
    by_cases hpu : p = c.iPriority u
    · rw [hpu, Function.update_self]
      exact hm.ceiling.installed u
    · rw [Function.update_of_ne hpu]
      refine hv p fun w hw => ?_
      by_cases hwu : w = u
      · rw [hwu]
        exact Ne.symm hpu
      · refine hp w fun hw' => ?_
        exact (Finset.mem_insert.mp hw').elim hwu hw
  · refine hm.frame hpriority rfl rfl rfl (fun w _ => congrFun htime w) fun p hp => ?_
    rcases Finset.mem_insert.mp hp with rfl | hp
    · exact Or.inr ⟨u, f.priority, f.pc⟩
    · exact Or.inl hp
  · obtain ⟨hp, hover⟩ := h.pending w x q b hw
    have hwu : w ≠ u := by
      rintro rfl
      exact nomatch f.call.symm.trans hw
    rw [hpriority, htime]
    exact ⟨hp, fun hq hl => hover (hp ▸ hready hwu (hp.symm ▸ hq)) hl⟩
  · rw [htime]
    exact h.forever w x q hw
  · have hwu : w ≠ u := by
      rintro rfl
      exact hw (Finset.mem_insert_self _ _)
    have g := h.fresh w fun hin => hw (Finset.mem_insert_of_mem hin)
    refine ⟨g.pc, g.call, ?_, ?_, ?_⟩
    · rw [htime]
      exact g.timeToWait
    · rw [hpriority]
      exact g.priority
    · rw [hpriority]
      exact fun hr => g.ready (hready hwu hr)
  · refine ⟨Finset.mem_insert_of_mem h.idle.installed, h.idle.pc, h.idle.call, ?_, ?_⟩
    · rw [hpriority]
      exact h.idle.priority
    · rw [hpriority]
      exact Finset.mem_insert_of_mem h.idle.ready

/-! ## Pends and posts -/

theorem returned (h : KernelInv c s) (hcall : s.call t = some (.pending e q b)) {wait : ε ⊕ κ → EventWait}
    {timeToWait : τ → TimeToWait} (hw : ∀ x p, p ∈ (wait x).osEventWaitList →
      p ∈ (s.wait x).osEventWaitList ∧ (x = e → p ≠ q)) (hcount : ∀ x, (wait x).osEventWait = (wait x).osEventWaitList.card)
    (htime : ∀ u, u ≠ t → timeToWait u = s.timeToWait u) :
    KernelInv c { s with
      wait := wait
      timeToWait := timeToWait
      call := Function.update s.call t none } := by
  obtain ⟨v, hv, hm⟩ := h.mutex
  have hsome : s.call t ≠ none := by
    rw [hcall]
    exact nofun
  have hold : ∀ {u x p d}, Function.update s.call t none u = some (.pending x p d) →
      u ≠ t ∧ s.call u = some (.pending x p d) := by
    intro u x p d hu
    by_cases hut : u = t
    · rw [hut, Function.update_self] at hu
      exact nomatch hu
    · rw [Function.update_of_ne hut] at hu
      exact ⟨hut, hu⟩
  refine ⟨⟨v, hv, ?_⟩, fun u hu => ?_, fun u x p d hu => ?_, fun u x p hu => ?_, fun x p hp => ?_, hcount,
    fun u hu => ?_, ?_⟩
  · refine hm.frame rfl rfl rfl rfl (fun u hu => htime u ?_) fun p hp => Or.inl hp
    rintro rfl
    exact hu (h.running u hsome)
  · by_cases hut : u = t
    · rw [hut]
      exact h.running t hsome
    · dsimp only at hu
      rw [Function.update_of_ne hut] at hu
      exact h.running u hu
  · obtain ⟨hut, hu⟩ := hold hu
    obtain ⟨hp, hover⟩ := h.pending u x p d hu
    dsimp only
    rw [htime u hut]
    exact ⟨hp, fun hr hl => hover hr (hw x p hl).1⟩
  · obtain ⟨hut, hu⟩ := hold hu
    dsimp only
    rw [htime u hut]
    exact h.forever u x p hu
  · obtain ⟨hl, hne⟩ := hw x p hp
    obtain ⟨u, d, hu⟩ := h.listed x p hl
    refine ⟨u, d, ?_⟩
    dsimp only
    rw [Function.update_of_ne]
    · exact hu
    · rintro rfl
      rw [hcall] at hu
      cases hu
      exact hne rfl rfl
  · have f := h.fresh u hu
    have hut : u ≠ t := by
      rintro rfl
      exact hu (h.installed_of_call hsome)
    exact ⟨f.pc, (Function.update_of_ne hut ..).trans f.call, (htime u hut).trans f.timeToWait, f.priority, f.ready⟩
  · have hit : c.idle ≠ t := Ne.symm (h.ne_idle_of_call hsome)
    exact ⟨h.idle.installed, h.idle.pc, (Function.update_of_ne hit ..).trans h.idle.call, h.idle.priority, h.idle.ready⟩

theorem wake (h : KernelInv c s) (hcall : s.call t = some (.pending e q b)) (hready : s.priority t ∈ s.osReadyList)
    (hover : ¬s.TimedOut t e q b) : KernelInv c (s.wake t b) := by
  obtain ⟨hp, himp⟩ := h.pending t e q b hcall
  have hout : q ∉ (s.wait e).osEventWaitList := by
    intro hin
    obtain ⟨hb, htime⟩ := himp (hp ▸ hready) hin
    exact hover ⟨hb, htime, hin⟩
  refine h.returned hcall (fun x p hpl => ⟨hpl, ?_⟩) h.count fun u hu => ?_
  · rintro rfl rfl
    exact hout hpl
  · split
    · exact Function.update_of_ne hu ..
    · rfl

variable [DecidableEq ε] [DecidableEq κ]

theorem suspend (h : KernelInv c s) (hpc : s.pc t = .running) (ht : t ∈ s.installed) (hidle : t ≠ c.idle)
    (hcall : s.call t = none) (e : ε ⊕ κ) (timeWait : WaitTime) : KernelInv c (s.suspend t e timeWait) := by
  obtain ⟨v, hv, hm⟩ := h.mutex
  have hself : (s.suspend t e timeWait).call t = some (.pending e (s.priority t) (timeWait = .ticks)) :=
    Function.update_self ..
  have hother : ∀ {u}, u ≠ t → (s.suspend t e timeWait).call u = s.call u ∧
      (s.suspend t e timeWait).timeToWait u = s.timeToWait u :=
    fun hu => ⟨Function.update_of_ne hu .., Function.update_of_ne hu ..⟩
  have hlist : ∀ x, ((s.suspend t e timeWait).wait x).osEventWaitList =
      if x = e then insert (s.priority t) (s.wait e).osEventWaitList else (s.wait x).osEventWaitList := by
    intro x
    unfold KernelSys.suspend
    dsimp only
    rw [Function.update_apply]
    split <;> rfl
  refine ⟨⟨v, hv, ?_⟩, fun u hu => ?_, fun u x q b hu => ?_, fun u x q hu => ?_, fun x q hq => ?_, fun x => ?_,
    fun u hu => ?_, ?_⟩
  · refine hm.frame rfl rfl rfl rfl (fun u hu => Function.update_of_ne ?_ ..) fun p hp =>
      Or.inl (Finset.mem_of_mem_erase hp)
    rintro rfl
    exact hu hpc
  · by_cases hut : u = t
    · rw [hut]
      exact hpc
    · rw [(hother hut).1] at hu
      exact h.running u hu
  · by_cases hut : u = t
    · rw [hut, hself] at hu
      cases hu
      exact ⟨by rw [hut]; rfl, fun hq => absurd rfl (Finset.ne_of_mem_erase hq)⟩
    · rw [(hother hut).1] at hu
      obtain ⟨hp, hover⟩ := h.pending u x q b hu
      rw [(hother hut).2]
      refine ⟨hp, fun hq hin => hover (Finset.mem_of_mem_erase hq) ?_⟩
      rw [hlist] at hin
      split at hin
      · rename_i hx
        rw [hx]
        exact Finset.mem_of_mem_insert_of_ne hin (Finset.ne_of_mem_erase hq)
      · exact hin
  · by_cases hut : u = t
    · rw [hut, hself] at hu
      have hb : e = x ∧ s.priority t = q ∧ ¬timeWait = .ticks := by simpa using hu
      rw [hut]
      show Function.update _ t _ t ≠ _
      rw [Function.update_self, if_neg hb.2.2]
      exact nofun
    · rw [(hother hut).1] at hu
      rw [(hother hut).2]
      exact h.forever u x q hu
  · have hold : q ∈ (s.wait x).osEventWaitList ∨ x = e ∧ q = s.priority t := by
      rw [hlist] at hq
      split at hq
      · rename_i hx
        rcases Finset.mem_insert.mp hq with hq | hq
        · exact Or.inr ⟨hx, hq⟩
        · exact Or.inl (hx ▸ hq)
      · exact Or.inl hq
    rcases hold with hq | ⟨rfl, rfl⟩
    · obtain ⟨u, b, hu⟩ := h.listed x q hq
      refine ⟨u, b, ?_⟩
      rw [(hother _).1]
      · exact hu
      · rintro rfl
        exact nomatch hcall.symm.trans hu
    · exact ⟨t, _, hself⟩
  · rw [hlist]
    unfold KernelSys.suspend
    dsimp only
    rw [Function.update_apply]
    split
    · rw [Finset.card_insert_of_notMem (h.notMem_of_call hcall e), ← h.count e]
    · exact h.count x
  · have hut : u ≠ t := by
      rintro rfl
      exact hu ht
    have f := h.fresh u hu
    exact ⟨f.pc, (hother hut).1.trans f.call, (hother hut).2.trans f.timeToWait, f.priority,
      fun hr => f.ready (Finset.mem_of_mem_erase hr)⟩
  · have hit : c.idle ≠ t := Ne.symm hidle
    exact ⟨h.idle.installed, h.idle.pc, (hother hit).1.trans h.idle.call, h.idle.priority,
      Finset.mem_erase.mpr ⟨fun he => hit (h.inj he), h.idle.ready⟩⟩

omit [DecidableEq τ] in
theorem select (h : KernelInv c s) (hwait : (s.wait e).osEventWait ≠ 0) : KernelInv c (s.select e) := by
  obtain ⟨v, hv, hm⟩ := h.mutex
  have hin : saScheduler (s.wait e).osEventWaitList ∈ (s.wait e).osEventWaitList := by
    apply saScheduler_mem
    rw [← Finset.card_pos, ← h.count e]
    omega
  unfold KernelSys.select
  generalize saScheduler (s.wait e).osEventWaitList = p at hin ⊢
  obtain ⟨w, d, hw⟩ := h.listed e p hin
  have hwp := (h.pending w e p d hw).1
  have hsome : s.call w ≠ none := by
    rw [hw]
    exact nofun
  have hlist : ∀ x q, q ∈ (Function.update s.wait e
      { osEventWait := (s.wait e).osEventWait - 1
        osEventWaitList := (s.wait e).osEventWaitList.erase p } x).osEventWaitList →
      q ∈ (s.wait x).osEventWaitList ∧ (x = e → q ≠ p) := by
    intro x q hq
    rw [Function.update_apply] at hq
    split at hq
    · rename_i hx
      rw [hx]
      exact ⟨Finset.mem_of_mem_erase hq, fun _ => Finset.ne_of_mem_erase hq⟩
    · rename_i hx
      exact ⟨hq, fun he => absurd he hx⟩
  refine ⟨⟨v, hv, ?_⟩, h.running, fun u x q b hu => ?_, h.forever, fun x q hq => ?_, fun x => ?_, fun u hu => ?_, ?_⟩
  · refine hm.frame rfl rfl rfl rfl (fun _ _ => rfl) fun q hq => ?_
    rcases Finset.mem_insert.mp hq with rfl | hq
    · exact Or.inr ⟨w, hwp, h.running w hsome⟩
    · exact Or.inl hq
  · obtain ⟨hp, hover⟩ := h.pending u x q b hu
    refine ⟨hp, fun hq hl => hover ?_ (hlist x q hl).1⟩
    refine Finset.mem_of_mem_insert_of_ne hq fun he => ?_
    -- the selected task is no longer in the wait list
    obtain rfl := h.inj (hp.trans (he.trans hwp.symm))
    rw [hw] at hu
    cases hu
    exact (hlist _ _ hl).2 rfl rfl
  · exact h.listed x q (hlist x q hq).1
  · dsimp only
    rw [Function.update_apply]
    split
    · dsimp only
      rw [Finset.card_erase_of_mem hin, h.count]
    · exact h.count x
  · have f := h.fresh u hu
    refine ⟨f.pc, f.call, f.timeToWait, f.priority, fun hr => ?_⟩
    rcases Finset.mem_insert.mp hr with he | hr
    · exact hu (h.inj (he.trans hwp.symm) ▸ h.installed_of_call hsome)
    · exact f.ready hr
  · exact ⟨h.idle.installed, h.idle.pc, h.idle.call, h.idle.priority, Finset.mem_insert_of_mem h.idle.ready⟩

theorem cancel (h : KernelInv c s) (hcall : s.call t = some (.pending e q b)) (hover : s.TimedOut t e q b) :
    KernelInv c (s.cancel t e q) := by
  refine h.returned hcall (fun x p hp => ?_) (fun x => ?_) fun _ _ => rfl
  · rw [Function.update_apply] at hp
    split at hp
    · rename_i hx
      rw [hx]
      exact ⟨Finset.mem_of_mem_erase hp, fun _ => Finset.ne_of_mem_erase hp⟩
    · rename_i hx
      exact ⟨hp, fun he => absurd he hx⟩
  · rw [Function.update_apply]
    split
    · dsimp only
      rw [Finset.card_erase_of_mem hover.2.2, h.count]
    · exact h.count x

theorem pendResumed (h : KernelInv c s) (hcall : s.call t = some (.pending e q b))
    (hready : s.priority t ∈ s.osReadyList) : KernelInv c (s.pendResumed t e q b) := by
  unfold KernelSys.pendResumed
  split
  · rename_i hover
    exact h.cancel hcall hover
  · rename_i hover
    have hwake := h.wake hcall hready hover
    cases e with
    | inl e => exact hwake
    | inr k => exact hwake.other rfl rfl rfl rfl

end KernelInv

end Unet4Cooja
