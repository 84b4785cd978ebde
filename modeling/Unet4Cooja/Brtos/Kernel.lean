import Unet4Cooja.Brtos.Mutex
import Unet4Cooja.Brtos.Queue

/-!
# The kernel (`BRTOS.c`, `mutex.c`, `semaphore.c`, `queue.c`, `HAL.c`)

* `KernelSys` : the mutexes and tasks of `MutexSys`, with the running task, the blocked priorities, semaphores and
  queues;
* `KernelSys.osSchedule`, `KernelSys.changeContext` : the scheduler, and `SwitchContext`;
* `KernelSys.suspend`, `KernelSys.select`, `KernelSys.cancel`, `KernelSys.wake` : what pends and posts have in common;
* `osSemPost`, `osQueuePost`, `osMutexRelease`, `osBlockTask` and the others in `KernelSys` : the calls;
* `KernelAct`, `kernelStep` : the interleavings;
* `smallKernel`, `smallKernelStarted` : a kernel with two tasks.

A call is a step up to its return or to `ChangeContext`; from there on it is another step, once the task runs again.
An interrupt is a sequence of steps between `enter` and `exit`. The idle task makes no call.
-/

namespace Unet4Cooja

/-- `Priorities`, with the idle task that `BRTOSStart` installs. -/
structure KernelPriorities (τ μ : Type*) extends Priorities τ μ where
  idle : τ
  idlePriority : iPriority idle = 0

structure EventWait where
  osEventWait : Nat
  osEventWaitList : Finset Nat

/-- The rest of `BRTOS_Sem`. -/
structure KernelSem where
  binary : Bool
  osEventCount : U8

/-- The call a task is in at `ChangeContext`, other than `OSMutexAcquire` and `OSDelayTask`: a pend, with the local
variable `iPriority` and whether `time_wait` is not 0; `OSSemPost`, `OSQueuePost` or `OSMutexRelease`; or a function that
blocks or unblocks. -/
inductive KernelCall (ε : Type*)
  | pending (e : ε) (iPriority : Nat) (timeWait : Bool)
  | posting
  | blocking
  deriving DecidableEq

/-- The kernel. `osBlockedList` has the bits that are 0 in `OSBlockedList`; `iNesting` tells whether an interrupt is
handled. -/
structure KernelSys (τ μ ε κ : Type*) extends MutexSys τ μ where
  installed : Finset τ
  currentTask : TaskNumber τ
  iNesting : Bool
  osBlockedList : Finset Nat
  call : τ → Option (KernelCall (ε ⊕ κ))
  wait : ε ⊕ κ → EventWait
  sem : ε → KernelSem
  queue : κ → OsQueue

namespace KernelSys
variable {τ μ ε κ : Type*}

section
variable (s : KernelSys τ μ ε κ)

def osSchedule : TaskNumber τ := s.priorityVector (saScheduler (s.osReadyList \ s.osBlockedList))

def changeContext : KernelSys τ μ ε κ := if s.iNesting then s else { s with currentTask := s.osSchedule }

variable [DecidableEq τ] [DecidableEq ε] [DecidableEq κ]

/-- The call `x` of the task `caller` comes to `ChangeContext`; an interrupt passes it. -/
def leave (caller : Option τ) (x : KernelCall (ε ⊕ κ)) : KernelSys τ μ ε κ :=
  match caller with
  | none => s
  | some t => { s with call := Function.update s.call t (some x) }.changeContext

/-! ## Waiting for an event -/

/-- The part of a pend of the task `t` before `ChangeContext`. -/
def suspend (t : τ) (e : ε ⊕ κ) (timeWait : WaitTime) : KernelSys τ μ ε κ :=
  let iPriority := s.priority t
  { s with
    wait := Function.update s.wait e
      { osEventWait := (s.wait e).osEventWait + 1
        osEventWaitList := insert iPriority (s.wait e).osEventWaitList }
    osReadyList := s.osReadyList.erase iPriority
    timeToWait := Function.update s.timeToWait t (if timeWait = .ticks then .ticks else .noTimeout)
    call := Function.update s.call t (some (.pending e iPriority (timeWait = .ticks))) }

/-- The tail of a post to an event for which tasks wait, up to `ChangeContext`. -/
def select (e : ε ⊕ κ) : KernelSys τ μ ε κ :=
  let iPriority := saScheduler (s.wait e).osEventWaitList
  { s with
    wait := Function.update s.wait e
      { osEventWait := (s.wait e).osEventWait - 1
        osEventWaitList := (s.wait e).osEventWaitList.erase iPriority }
    osReadyList := insert iPriority s.osReadyList }

/-- The wait of the task is over, and no post has selected it. -/
def TimedOut (t : τ) (e : ε ⊕ κ) (iPriority : Nat) (timeWait : Bool) : Prop :=
  timeWait = true ∧ s.timeToWait t = .exitByTimeout ∧ iPriority ∈ (s.wait e).osEventWaitList

instance (t : τ) (e : ε ⊕ κ) (iPriority : Nat) (timeWait : Bool) : Decidable (s.TimedOut t e iPriority timeWait) :=
  inferInstanceAs (Decidable (_ ∧ _))

/-- The return of `TIMEOUT`. -/
def cancel (t : τ) (e : ε ⊕ κ) (iPriority : Nat) : KernelSys τ μ ε κ :=
  { s with
    wait := Function.update s.wait e
      { osEventWait := (s.wait e).osEventWait - 1
        osEventWaitList := (s.wait e).osEventWaitList.erase iPriority }
    call := Function.update s.call t none }

/-- The part of a pend after `ChangeContext`, if it does not return `TIMEOUT`. -/
def wake (t : τ) (timeWait : Bool) : KernelSys τ μ ε κ :=
  { s with
    timeToWait :=
      if timeWait ∧ s.timeToWait t ≠ .exitByTimeout then Function.update s.timeToWait t .noTimeout
      else s.timeToWait
    call := Function.update s.call t none }

/-! ## Semaphores and queues -/

/-- `OSSemPend` by the task `t`, up to `ChangeContext` if it has to wait. -/
def osSemPend (t : τ) (e : ε) (timeWait : WaitTime) : KernelSys τ μ ε κ :=
  if 0 < (s.sem e).osEventCount then
    { s with sem := Function.update s.sem e { s.sem e with osEventCount := (s.sem e).osEventCount - 1 } }
  else if timeWait = .noTimeout then s
  else (s.suspend t (.inl e) timeWait).changeContext

/-- `OSQueuePend` by the task `t`, up to `ChangeContext` if it has to wait. -/
def osQueuePend (t : τ) (k : κ) (timeWait : WaitTime) : KernelSys τ μ ε κ :=
  if 0 < (s.queue k).osqEntries then { s with queue := Function.update s.queue k (s.queue k).take.2 }
  else if timeWait = .noTimeout then s
  else (s.suspend t (.inr k) timeWait).changeContext

/-- `OSSemPend` or `OSQueuePend` by the task `t` from `ChangeContext` on. -/
def pendResumed (t : τ) (e : ε ⊕ κ) (iPriority : Nat) (timeWait : Bool) : KernelSys τ μ ε κ :=
  if s.TimedOut t e iPriority timeWait then s.cancel t e iPriority
  else
    match e with
    | .inl _ => s.wake t timeWait
    | .inr k => { s.wake t timeWait with queue := Function.update s.queue k (s.queue k).take.2 }

/-- `OSSemPost`, by a task or an interrupt, up to `ChangeContext`. -/
def osSemPost (caller : Option τ) (e : ε) : KernelSys τ μ ε κ :=
  if (s.wait (.inl e)).osEventWait ≠ 0 then (s.select (.inl e)).leave caller .posting
  else if (s.sem e).osEventCount < 255 then
    { s with sem := Function.update s.sem e { s.sem e with
        osEventCount := if (s.sem e).binary then 1 else (s.sem e).osEventCount + 1 } }
  else s

/-- `OSQueuePost`, by a task or an interrupt, up to `ChangeContext`. -/
def osQueuePost (caller : Option τ) (k : κ) (data : U8) : KernelSys τ μ ε κ :=
  if (s.queue k).osqEntries < (s.queue k).osqSize then
    let s := { s with queue := Function.update s.queue k ((s.queue k).put data) }
    if (s.wait (.inr k)).osEventWait ≠ 0 then (s.select (.inr k)).leave caller .posting else s
  else s

/-! ## Blocked tasks -/

/-- `OSBlockTask` of the task `u` by the task `t`. -/
def osBlockTask (t u : τ) : KernelSys τ μ ε κ :=
  let s := { s with osBlockedList := insert (s.priority u) s.osBlockedList }
  if t = u then s.leave (some t) .blocking else s

def osUnBlockTask (caller : Option τ) (u : τ) : KernelSys τ μ ε κ :=
  { s with osBlockedList := s.osBlockedList.erase (s.priority u) }.leave caller .blocking

/-- `OSBlockPriority` by the task `t`. -/
def osBlockPriority (t : τ) (iPriority : Nat) : KernelSys τ μ ε κ :=
  let blocked := s.priorityVector iPriority
  let s := { s with osBlockedList := insert iPriority s.osBlockedList }
  if blocked = .task t then s.leave (some t) .blocking else s

def osUnBlockPriority (caller : Option τ) (iPriority : Nat) : KernelSys τ μ ε κ :=
  { s with osBlockedList := s.osBlockedList.erase iPriority }.leave caller .blocking

/-- `OSBlockMultipleTask` of the tasks `us` by the task `t`. -/
def osBlockMultipleTask (t : τ) (us : Finset τ) : KernelSys τ μ ε κ :=
  { s with osBlockedList := s.osBlockedList ∪ (us.erase t).image s.priority }

def osUnBlockMultipleTask (t : τ) (us : Finset τ) : KernelSys τ μ ε κ :=
  { s with osBlockedList := s.osBlockedList \ (us.erase t).image s.priority }.leave (some t) .blocking

end

/-! ## Mutexes, delays and installation -/

section
variable [DecidableEq τ] [DecidableEq μ] (c : KernelPriorities τ μ) (s : KernelSys τ μ ε κ) (t : τ)

/-- `OSMutexAcquire` by the task `t`, up to `ChangeContext` if it has to wait. -/
def osMutexAcquire (m : μ) (timeWait : WaitTime) : KernelSys τ μ ε κ :=
  let s := { s with toMutexSys := Unet4Cooja.osMutexAcquire c.toPriorities s.toMutexSys t m timeWait }
  if s.pc t = .running then s else s.changeContext

/-- A release of `m` by `t` hands it over to a task that waits for it. -/
def HandsOver (m : μ) : Prop := (s.mutexes m).osEventOwner = .task t ∧ (s.mutexes m).osEventWait ≠ 0

instance (m : μ) : Decidable (s.HandsOver t m) := inferInstanceAs (Decidable (_ ∧ _))

/-- `OSMutexRelease` by the task `t`, up to `ChangeContext` if a task waits for the mutex. -/
def osMutexRelease (m : μ) : KernelSys τ μ ε κ :=
  let s' := { s with toMutexSys := Unet4Cooja.osMutexRelease c.toPriorities s.toMutexSys t m }
  if s.HandsOver t m then s'.leave (some t) .posting else s'

/-- `OSDelayTask` by the task `t`, up to `ChangeContext`. -/
def osDelayTask : KernelSys τ μ ε κ :=
  { s with toMutexSys := Unet4Cooja.osDelayTask s.toMutexSys t }.changeContext

/-- `OSInstallTask` of the task `u`. -/
def osInstallTask (u : τ) : KernelSys τ μ ε κ :=
  { s with
    installed := insert u s.installed
    priority := Function.update s.priority u (c.iPriority u)
    priorityVector := Function.update s.priorityVector (c.iPriority u) (.task u)
    timeToWait := Function.update s.timeToWait u .noTimeout
    osReadyList := insert (c.iPriority u) s.osReadyList }

variable [DecidableEq ε] [DecidableEq κ]

/-- The call of the task `t` goes on from `ChangeContext`. -/
def resume : Option (KernelSys τ μ ε κ) :=
  match s.pc t with
  | .delayed => some { s with pc := Function.update s.pc t .running }
  | .acquiring m iPriority timeWait =>
    some { s with
      toMutexSys := osMutexAcquireResumed c.toPriorities s.toMutexSys t m iPriority timeWait }
  | .running =>
    match s.call t with
    | none => none
    | some (.pending e iPriority timeWait) => some (s.pendResumed t e iPriority timeWait)
    | some .posting | some .blocking => some { s with call := Function.update s.call t none }

end

end KernelSys

/-! ## Interleavings -/

/-- A step. The caller of a function that interrupts may use is a task, or `none`. -/
inductive KernelAct (τ μ ε κ : Type*)
  | acquire (t : τ) (m : μ) (timeWait : WaitTime)
  | release (t : τ) (m : μ)
  | delay (t : τ)
  | semPend (t : τ) (e : ε) (timeWait : WaitTime)
  | queuePend (t : τ) (k : κ) (timeWait : WaitTime)
  | semPost (caller : Option τ) (e : ε)
  | queuePost (caller : Option τ) (k : κ) (data : U8)
  | blockTask (t u : τ)
  | unBlockTask (caller : Option τ) (u : τ)
  | blockPriority (t : τ) (iPriority : Nat)
  | unBlockPriority (caller : Option τ) (iPriority : Nat)
  | blockMultipleTask (t : τ) (us : Finset τ)
  | unBlockMultipleTask (t : τ) (us : Finset τ)
  | install (t u : τ)
  | resume (t : τ)
  | enter
  | tick (t : τ)
  | exit

section
variable {τ μ ε κ : Type*} [DecidableEq τ] [DecidableEq μ] [DecidableEq ε] [DecidableEq κ]
  (c : KernelPriorities τ μ) (s : KernelSys τ μ ε κ)

def KernelSys.Runs (t : τ) : Prop :=
  s.iNesting = false ∧ s.currentTask = .task t ∧ t ≠ c.idle ∧ s.pc t = .running ∧ s.call t = none

/-- The caller is the running task, or the interrupt that is handled. -/
def KernelSys.Calls : Option τ → Prop
  | none => s.iNesting = true
  | some t => s.Runs c t

instance (t : τ) : Decidable (s.Runs c t) := inferInstanceAs (Decidable (_ ∧ _))

instance : (caller : Option τ) → Decidable (s.Calls c caller)
  | none => inferInstanceAs (Decidable (_ = _))
  | some t => inferInstanceAs (Decidable (s.Runs c t))

def kernelStep : KernelAct τ μ ε κ → Option (KernelSys τ μ ε κ)
  | .acquire t m timeWait => if s.Runs c t then some (s.osMutexAcquire c t m timeWait) else none
  | .release t m => if s.Runs c t then some (s.osMutexRelease c t m) else none
  | .delay t => if s.Runs c t then some (s.osDelayTask t) else none
  | .semPend t e timeWait => if s.Runs c t then some (s.osSemPend t e timeWait) else none
  | .queuePend t k timeWait => if s.Runs c t then some (s.osQueuePend t k timeWait) else none
  | .semPost caller e => if s.Calls c caller then some (s.osSemPost caller e) else none
  | .queuePost caller k data => if s.Calls c caller then some (s.osQueuePost caller k data) else none
  | .blockTask t u => if s.Runs c t then some (s.osBlockTask t u) else none
  | .unBlockTask caller u => if s.Calls c caller then some (s.osUnBlockTask caller u) else none
  | .blockPriority t iPriority => if s.Runs c t then some (s.osBlockPriority t iPriority) else none
  | .unBlockPriority caller iPriority =>
    if s.Calls c caller then some (s.osUnBlockPriority caller iPriority) else none
  | .blockMultipleTask t us => if s.Runs c t then some (s.osBlockMultipleTask t us) else none
  | .unBlockMultipleTask t us => if s.Runs c t then some (s.osUnBlockMultipleTask t us) else none
  | .install t u => if s.Runs c t ∧ u ∉ s.installed then some (s.osInstallTask c u) else none
  | .resume t => if s.iNesting = false ∧ s.currentTask = .task t then s.resume c t else none
  | .enter => if s.iNesting then none else some { s with iNesting := true }
  | .tick t =>
    if s.iNesting = true ∧ s.timeToWait t = .ticks then
      some { s with toMutexSys := osTickHandler s.toMutexSys t }
    else none
  | .exit => if s.iNesting then some { s with iNesting := false, currentTask := s.osSchedule } else none

end

/-- After `BRTOSStart`: the installed tasks are ready, all mutexes are free, and nothing is waited for or blocked. -/
structure KernelStarted {τ μ ε κ : Type*} (c : KernelPriorities τ μ) (s : KernelSys τ μ ε κ) : Prop where
  idle : c.idle ∈ s.installed
  priority : ∀ t, s.priority t = c.iPriority t
  timeToWait : ∀ t, s.timeToWait t = .noTimeout
  pc : ∀ t, s.pc t = .running
  call : ∀ t, s.call t = none
  vector : ∀ t ∈ s.installed, s.priorityVector (c.iPriority t) = .task t
  ready : ∀ p, p ∈ s.osReadyList ↔ ∃ t ∈ s.installed, c.iPriority t = p
  mutexes : ∀ m, (s.mutexes m).osEventState = .availableResource ∧ (s.mutexes m).osEventOwner = .zero ∧
    (s.mutexes m).osEventWait = 0 ∧ (s.mutexes m).osEventWaitList = ∅
  wait : ∀ e, (s.wait e).osEventWait = 0 ∧ (s.wait e).osEventWaitList = ∅
  osBlockedList : s.osBlockedList = ∅
  iNesting : s.iNesting = false
  currentTask : s.currentTask = s.osSchedule

/-! ## A small kernel -/

/-- The idle task, two tasks of the priorities 3 and 5, and two mutexes with the ceilings 8 and 10. -/
def smallKernel : KernelPriorities (Fin 3) Bool where
  iPriority := fun t => if t = 0 then 0 else if t = 1 then 3 else 5
  osMaxPriority := fun m => if m then 10 else 8
  installed := by decide
  distinct := by decide
  free := by decide
  idle := 0
  idlePriority := rfl

def smallKernelStarted : KernelSys (Fin 3) Bool Unit Empty where
  priority := smallKernel.iPriority
  timeToWait := fun _ => .noTimeout
  pc := fun _ => .running
  priorityVector := fun p => if p = 0 then .task 0 else if p = 3 then .task 1 else if p = 5 then .task 2 else .emptyPrio
  osReadyList := {0, 3, 5}
  mutexes := fun _ => {
    osEventState := .availableResource
    osEventOwner := .zero
    osOriginalPriority := 0
    osEventWait := 0
    osEventWaitList := ∅ }
  installed := {0, 1, 2}
  currentTask := .task 2
  iNesting := false
  osBlockedList := ∅
  call := fun _ => none
  wait := fun _ => { osEventWait := 0, osEventWaitList := ∅ }
  sem := fun _ => { binary := true, osEventCount := 0 }
  queue := nofun

theorem smallKernelStarted_started : KernelStarted smallKernel smallKernelStarted where
  idle := by decide
  priority _ := rfl
  timeToWait _ := rfl
  pc _ := rfl
  call _ := rfl
  vector := by decide
  ready p := by simp [smallKernelStarted, smallKernel, eq_comm]
  mutexes _ := ⟨rfl, rfl, rfl, rfl⟩
  wait _ := ⟨rfl, rfl⟩
  osBlockedList := rfl
  iNesting := rfl
  currentTask := by decide

end Unet4Cooja
