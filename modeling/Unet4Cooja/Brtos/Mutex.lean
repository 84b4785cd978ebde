import Mathlib.Data.Finset.Lattice.Fold
import Mathlib.Order.Lattice.Nat
import Unet4Cooja.Lib.Numerals

/-!
# Mutexes with priority ceilings (`mutex.c`)

* `Priorities` : the priorities of the tasks and the ceilings of the mutexes;
* `BrtosMutex`, `MutexSys` : the mutexes, the tasks, and what the scheduler reads;
* `osMutexAcquire`, `osMutexAcquireResumed`, `osMutexRelease`, `osDelayTask`, `osTickHandler` : the code;
* `MutexAct`, `mutexStep` : the interleavings.

`OSMutexAcquire` of a mutex that is not free returns from `ChangeContext` in a later step. A task runs
while some bit of `OSReadyList` leads to it through `PriorityVector`, which includes the task that
`OSSchedule` selects.
-/

namespace Unet4Cooja

/-- A `uint8_t` that names a task: 0, a task, `MUTEX_PRIO` or `EMPTY_PRIO`. -/
inductive TaskNumber (τ : Type*)
  | zero
  | task (t : τ)
  | mutexPrio
  | emptyPrio
  deriving DecidableEq

/-- What the tasks are installed with, and the ceilings of the mutexes; 0 is no ceiling. A priority that
is taken is refused by `InstallTask` and by `OSMutexCreate`. -/
structure Priorities (τ μ : Type*) where
  iPriority : τ → Nat
  osMaxPriority : μ → Nat
  installed : ∀ t u, iPriority t = iPriority u → t = u
  distinct : ∀ m x, osMaxPriority m ≠ 0 → osMaxPriority m = osMaxPriority x → m = x
  free : ∀ t m, osMaxPriority m ≠ 0 → iPriority t ≠ osMaxPriority m

/-- `OSEventState`. -/
inductive ResourceState
  | availableResource | busyResource
  deriving DecidableEq

/-- `BRTOS_Mutex`, without its ceiling. -/
structure BrtosMutex (τ : Type*) where
  osEventState : ResourceState
  osEventOwner : TaskNumber τ
  osOriginalPriority : Nat
  osEventWait : Nat
  osEventWaitList : Finset Nat

/-- The argument `time_wait`: `NO_TIMEOUT`, 0, or a number of ticks. -/
inductive WaitTime
  | noTimeout | zero | ticks
  deriving DecidableEq

/-- `TimeToWait`; with a tick count the task is in the delay list. -/
inductive TimeToWait
  | noTimeout | ticks | exitByTimeout
  deriving DecidableEq

/-- Where a task is: it runs or may run, it is in `OSDelayTask`, or in `OSMutexAcquire` at
`ChangeContext`, with the local variable `iPriority` and whether `time_wait` is not 0. -/
inductive TaskPc (μ : Type*)
  | running
  | delayed
  | acquiring (m : μ) (iPriority : Nat) (timeWait : Bool)
  deriving DecidableEq

structure MutexSys (τ μ : Type*) where
  priority : τ → Nat
  timeToWait : τ → TimeToWait
  pc : τ → TaskPc μ
  priorityVector : Nat → TaskNumber τ
  osReadyList : Finset Nat
  mutexes : μ → BrtosMutex τ

/-- `SAScheduler`: the highest bit that is set. -/
def saScheduler (readyList : Finset Nat) : Nat := readyList.sup id

theorem saScheduler_mem {readyList : Finset Nat} (h : readyList.Nonempty) : saScheduler readyList ∈ readyList := by
  obtain ⟨p, hp, he⟩ := Finset.exists_mem_eq_sup _ h id
  unfold saScheduler
  rwa [he]

theorem le_saScheduler {readyList : Finset Nat} {p : Nat} (h : p ∈ readyList) : p ≤ saScheduler readyList :=
  Finset.le_sup (f := id) h

/-- `OSSchedule`, with no task blocked. -/
def osSchedule {τ μ : Type*} (s : MutexSys τ μ) : TaskNumber τ :=
  s.priorityVector (saScheduler s.osReadyList)

section
variable {τ μ : Type*} [DecidableEq τ] [DecidableEq μ] (c : Priorities τ μ) (s : MutexSys τ μ)

def MutexSys.setMutex (m : μ) (x : BrtosMutex τ) : MutexSys τ μ :=
  { s with mutexes := Function.update s.mutexes m x }

/-- The task `t`, which owns `m` and had the priority `iPriority`, gets the ceiling of `m` if it is
higher. -/
def MutexSys.takeCeiling (t : τ) (m : μ) (iPriority : Nat) : MutexSys τ μ :=
  let s := s.setMutex m { s.mutexes m with osOriginalPriority := iPriority }
  if iPriority < c.osMaxPriority m then
    { s with
      priority := Function.update s.priority t (c.osMaxPriority m)
      priorityVector := Function.update s.priorityVector (c.osMaxPriority m) (.task t)
      osReadyList := insert (c.osMaxPriority m) (s.osReadyList.erase iPriority) }
  else s

/-- `OSMutexAcquire` by the task `t`, up to `ChangeContext` if it has to wait. -/
def osMutexAcquire (t : τ) (m : μ) (timeWait : WaitTime) : MutexSys τ μ :=
  let x := s.mutexes m
  if x.osEventOwner = .task t then s
  else if x.osEventState = .availableResource then
    (s.setMutex m { x with osEventState := .busyResource, osEventOwner := .task t }).takeCeiling c t m
      (s.priority t)
  else if timeWait = .noTimeout then s
  else
    let iPriority := s.priority t
    { s.setMutex m { x with
        osEventWait := x.osEventWait + 1
        osEventWaitList := insert iPriority x.osEventWaitList } with
      osReadyList := s.osReadyList.erase iPriority
      timeToWait := Function.update s.timeToWait t (if timeWait = .ticks then .ticks else .noTimeout)
      pc := Function.update s.pc t (.acquiring m iPriority (timeWait = .ticks)) }

/-- `OSMutexAcquire` by the task `t` from `ChangeContext` on. -/
def osMutexAcquireResumed (t : τ) (m : μ) (iPriority : Nat) (timeWait : Bool) : MutexSys τ μ :=
  let x := s.mutexes m
  let s := { s with pc := Function.update s.pc t .running }
  if timeWait ∧ s.timeToWait t = .exitByTimeout ∧ iPriority ∈ x.osEventWaitList then
    s.setMutex m { x with
      osEventWaitList := x.osEventWaitList.erase iPriority
      osEventWait := x.osEventWait - 1 }
  else
    let s :=
      if timeWait ∧ s.timeToWait t ≠ .exitByTimeout then
        { s with timeToWait := Function.update s.timeToWait t .noTimeout }
      else s
    s.takeCeiling c t m iPriority

/-- `OSMutexRelease` by the task `t`. -/
def osMutexRelease (t : τ) (m : μ) : MutexSys τ μ :=
  let x := s.mutexes m
  if x.osEventOwner ≠ .task t then s
  else
    let s :=
      if s.priority t ≠ x.osOriginalPriority then
        { s with
          osReadyList := insert x.osOriginalPriority (s.osReadyList.erase (s.priority t))
          priority := Function.update s.priority t x.osOriginalPriority }
      else s
    if x.osEventWait ≠ 0 then
      let iPriority := saScheduler x.osEventWaitList
      { s.setMutex m { x with
          osEventWaitList := x.osEventWaitList.erase iPriority
          osEventWait := x.osEventWait - 1
          osEventOwner := s.priorityVector iPriority } with
        osReadyList := insert iPriority s.osReadyList }
    else
      let s := s.setMutex m { x with osEventOwner := .zero, osEventState := .availableResource }
      if 0 < c.osMaxPriority m then
        { s with priorityVector := Function.update s.priorityVector (c.osMaxPriority m) .mutexPrio }
      else s

/-- `OSDelayTask` by the task `t`, up to `ChangeContext`. -/
def osDelayTask (t : τ) : MutexSys τ μ :=
  { s with
    timeToWait := Function.update s.timeToWait t .ticks
    osReadyList := s.osReadyList.erase (s.priority t)
    pc := Function.update s.pc t .delayed }

/-- `OS_TICK_HANDLER` at the tick the task `t` of the delay list waits for. -/
def osTickHandler (t : τ) : MutexSys τ μ :=
  { s with
    osReadyList := insert (s.priority t) s.osReadyList
    timeToWait := Function.update s.timeToWait t .exitByTimeout }

/-- Some bit of the ready list leads to `t`. -/
def MutexSys.Selected (t : τ) : Prop := ∃ p ∈ s.osReadyList, s.priorityVector p = .task t

instance (t : τ) : Decidable (s.Selected t) := inferInstanceAs (Decidable (∃ p ∈ s.osReadyList, _))

/-- A step: a call by a task, the return of a task from `ChangeContext`, or a tick. -/
inductive MutexAct (τ μ : Type*)
  | acquire (t : τ) (m : μ) (timeWait : WaitTime)
  | release (t : τ) (m : μ)
  | delay (t : τ)
  | resume (t : τ)
  | tick (t : τ)

def mutexStep : MutexAct τ μ → Option (MutexSys τ μ)
  | .acquire t m timeWait =>
    if s.Selected t ∧ s.pc t = .running then some (osMutexAcquire c s t m timeWait) else none
  | .release t m => if s.Selected t ∧ s.pc t = .running then some (osMutexRelease c s t m) else none
  | .delay t => if s.Selected t ∧ s.pc t = .running then some (osDelayTask s t) else none
  | .resume t =>
    if s.Selected t then
      match s.pc t with
      | .running => none
      | .delayed => some { s with pc := Function.update s.pc t .running }
      | .acquiring m iPriority timeWait => some (osMutexAcquireResumed c s t m iPriority timeWait)
    else none
  | .tick t => if s.timeToWait t = .ticks then some (osTickHandler s t) else none

end

end Unet4Cooja
