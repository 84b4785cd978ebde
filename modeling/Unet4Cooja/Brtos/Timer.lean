import Mathlib.Algebra.Group.Nat.Defs
import Mathlib.Data.List.FinRange
import Unet4Cooja.Lib.ForRange
import Unet4Cooja.Lib.Heap
import Unet4Cooja.Lib.Numerals

/-!
# Soft timers (`stimer.c`)

* `BrtosTimerT`, `BrtosTmrT`, `TimerSys` : the timers, the two lists, and where the timer task is;
* `subir`, `descer` : the two heap loops;
* `osTimerSet`, `osTimerStart`, `osTimerStop`, `osTick` : what other tasks, callbacks and the tick
  interrupt do;
* `timerTaskStep` : one step of `BRTOSTimerTask`;
* `TimerAct`, `timerStep` : the interleavings.

A step of the timer task is a stretch of its loop with one access to what it shares with others, or a
critical section. A callback is interrupted like the task; what it does with timers is a step of its
own while the task is at `callback`.
-/

namespace Unet4Cooja
open Lib

/-- `uint64_t`, the type `ostick_t` stands for. -/
abbrev U64 := BitVec 64

abbrev brtosMaxTimer : Nat := 8

def tickCountOverflow : Nat := 2 ^ 64 - 4

def timerMaxCounter : Nat := tickCountOverflow - 1

def exitByTimeout : Nat := 2 ^ 64 - 3

/-! ## Data -/

inductive TimerState
  | notAllocated | notUsed | stopped | running | search
  deriving DecidableEq, Repr, Inhabited

/-- `BRTOS_TIMER`, a pointer to an element of `BRTOS_TIMER_VECTOR.mem`. -/
abbrev BrtosTimer := Fin brtosMaxTimer

/-- `BRTOS_TIMER_T`; a callback is known by a number. -/
structure BrtosTimerT where
  funcCb : Option Nat
  timeout : Nat
  state : TimerState
  deriving DecidableEq, Repr, Inhabited

/-- `BRTOS_TMR_T`. Indices from `BRTOS_MAX_TIMER` on stand for the memory after the array. -/
structure BrtosTmrT where
  timers : Nat → Option BrtosTimer
  count : Nat

/-- `BRTOS_TMR_PING` and `BRTOS_TMR_PONG`. -/
inductive ListId
  | ping | pong
  deriving DecidableEq, Repr, Inhabited

/-- Where `BRTOSTimerTask` is. `ov` tells the loop after a counter overflow from the usual one. -/
inductive TimerPc
  | start
  | store (next : Nat)
  | enter
  | asleep
  | woken
  | overflowCheck (p : Option BrtosTimer)
  | loop (ov : Bool) (p : Option BrtosTimer)
  | expire (ov : Bool) (p : BrtosTimer)
  | invoke (ov : Bool) (p : BrtosTimer)
  | callback (ov : Bool) (p : BrtosTimer)
  | finish (ov : Bool) (p : BrtosTimer) (again : Nat)
  | switch (ov : Bool)
  | switched (ov : Bool) (tmp : ListId)
  | head (ov : Bool)
  | next (p : Option BrtosTimer)
  deriving DecidableEq, Repr, Inhabited

/-- The timers, the tick counter, and the timer task with its `TimeToWait` and the local variables
`list` and `timeout`. -/
structure TimerSys where
  mem : BrtosTimer → BrtosTimerT
  lists : ListId → BrtosTmrT
  current : ListId
  future : ListId
  tick : Nat
  timeToWait : Nat
  pc : TimerPc
  list : ListId
  timeout : Nat

namespace TimerSys
variable (s : TimerSys)

def setTimer (p : BrtosTimer) (t : BrtosTimerT) : TimerSys :=
  { s with mem := Function.update s.mem p t }

def setList (l : ListId) (x : BrtosTmrT) : TimerSys :=
  { s with lists := Function.update s.lists l x }

/-- `list->timers[1]` of the list `l`. -/
def first (l : ListId) : Option BrtosTimer := (s.lists l).timers 1

end TimerSys

/-! ## Heaps -/

section
variable (null : BrtosTimerT) (mem : BrtosTimer → BrtosTimerT)

/-- What is read through the pointer `x`; `null` is what is found at address 0. -/
def deref (x : Option BrtosTimer) : BrtosTimerT := x.elim null mem

/-- `Subir`. The index at least halves in a round. -/
def subir (timers : Nat → Option BrtosTimer) (i : Nat) : Nat → Option BrtosTimer :=
  siftUp (fun x y => decide ((deref null mem x).timeout < (deref null mem y).timeout)) i timers i

/-- The comparison in `Descer`, false for null pointers. -/
def timeoutLess : Option BrtosTimer → Option BrtosTimer → Bool
  | some p, some q => decide ((mem p).timeout < (mem q).timeout)
  | _, _ => false

/-- `Descer`. The index at least doubles in a round, up to `n`. -/
def descer (timers : Nat → Option BrtosTimer) (i n : Nat) : Nat → Option BrtosTimer :=
  siftDown (timeoutLess mem) n timers i n

namespace BrtosTmrT
variable (l : BrtosTmrT)

/-- `p` is inserted at the end and rises; in a full list it takes the place of the last entry. -/
def insert (p : BrtosTimer) : BrtosTmrT :=
  let count := if l.count < brtosMaxTimer - 1 then l.count + 1 else l.count
  { timers := subir null mem (Function.update l.timers count (some p)) count, count := count }

/-- The last entry takes the place of the first one. -/
def removeFirst : BrtosTmrT := { timers := dropRoot none l.timers l.count, count := l.count - 1 }

/-- The first entry sinks to its place. -/
def order : BrtosTmrT := { l with timers := descer mem l.timers 1 l.count }

/-- The index at which the search of `OSTimerStop` ends. -/
def searched : Nat :=
  match firstBelow l.count fun k => (deref null mem (l.timers (k + 1))).state = .search with
  | some k => k + 1
  | none => l.count + 1

end BrtosTmrT
end

/-! ## What tasks and interrupts do -/

section
variable (null : BrtosTimerT)

/-- The part that `OSTimerSet` and `OSTimerStart` share: `p` is queued to expire after `timeWait`
ticks. -/
def TimerSys.enqueue (s : TimerSys) (p : BrtosTimer) (timeWait : Nat) : TimerSys :=
  let timeout := (s.tick + timeWait) % 2 ^ 64
  if tickCountOverflow ≤ timeout then
    let s := s.setTimer p { s.mem p with timeout := timeout - tickCountOverflow }
    let s := s.setList s.future ((s.lists s.future).insert null s.mem p)
    s.setTimer p { s.mem p with state := .running }
  else
    let s := s.setTimer p { s.mem p with timeout := timeout }
    let s := s.setList s.current ((s.lists s.current).insert null s.mem p)
    -- the wake-up time of the timer task is changed for a new first entry
    let s :=
      if (s.mem p).timeout = (deref null s.mem (s.first s.current)).timeout then
        { s with timeToWait := (s.mem p).timeout }
      else s
    s.setTimer p { s.mem p with state := .running }

/-- The timer control block `OSTimerSet` takes; `none` for its two error returns. -/
def TimerSys.freeTimer (s : TimerSys) : Option BrtosTimer :=
  match (List.finRange brtosMaxTimer).find? fun i =>
      (s.mem i).state = .notAllocated ∨ (s.mem i).state = .notUsed with
  | none => none
  | some i => if (s.mem i).state = .notAllocated then none else some i

/-- `OSTimerSet`, with a callback. -/
def osTimerSet (s : TimerSys) (cb : Nat) (timeWait : U64) : TimerSys :=
  match s.freeTimer with
  | none => s
  | some p =>
    let s := s.setTimer p { s.mem p with state := .stopped, funcCb := some cb }
    if 0 < timeWait.toNat then s.enqueue null p timeWait.toNat else s

def osTimerStart (s : TimerSys) (p : BrtosTimer) (timeWait : U64) : TimerSys :=
  if timeWait.toNat ≠ 0 then s.enqueue null p (min timeWait.toNat timerMaxCounter) else s

/-- The list `OSTimerStop` removes `p` from. -/
def TimerSys.stopList (s : TimerSys) (p : BrtosTimer) : ListId :=
  if s.tick ≤ (s.mem p).timeout then s.current else s.future

def osTimerStop (s : TimerSys) (p : BrtosTimer) (del : Bool) : TimerSys :=
  let l := s.stopList p
  let s := s.setTimer p { s.mem p with state := .search }
  let pos := (s.lists l).searched null s.mem
  let s := s.setTimer p { s.mem p with timeout := 0 }
  let list := { s.lists l with timers := subir null s.mem (s.lists l).timers pos }
  let s := s.setList l (list.removeFirst.order s.mem)
  if del then s.setTimer p { s.mem p with state := .notUsed, funcCb := none }
  else s.setTimer p { s.mem p with state := .stopped }

/-- `OSIncCounter` and what `OS_TICK_HANDLER` does with the timer task. -/
def osTick (s : TimerSys) : TimerSys :=
  let tick := (s.tick + 1) % 2 ^ 64
  let s := { s with tick := if tick = tickCountOverflow then 0 else tick }
  if s.pc = .asleep ∧ s.timeToWait = s.tick then
    { s with timeToWait := exitByTimeout, pc := .woken }
  else s

/-! ## The timer task -/

/-- The critical section after the callback of `p`, which returned `again`. -/
def TimerSys.finishExpired (s : TimerSys) (ov : Bool) (p : BrtosTimer) (again : Nat) : TimerSys :=
  let s :=
    if 0 < again then
      let timeout := (s.tick + again) % 2 ^ 64
      let s := { s.setTimer p { s.mem p with state := .running } with timeout := timeout }
      if ov ∨ tickCountOverflow ≤ timeout then
        -- after an overflow the sum is stored as it is
        let s := s.setTimer p
          { s.mem p with timeout := if ov then timeout else timeout - tickCountOverflow }
        let s := s.setList s.future ((s.lists s.future).insert null s.mem p)
        s.setList s.list (s.lists s.list).removeFirst
      else s.setTimer p { s.mem p with timeout := timeout }
    else
      let s := s.setTimer p { funcCb := none, timeout := 0, state := .notUsed }
      s.setList s.list (s.lists s.list).removeFirst
  let s := s.setList s.list ((s.lists s.list).order s.mem)
  { s with pc := .loop ov (s.first s.list) }

/-- One step of `BRTOSTimerTask`; a callback returns `again`. -/
def timerTaskStep (s : TimerSys) (again : U64) : Option TimerSys :=
  match s.pc with
  | .start => some { s with list := s.current, pc := .next (s.first s.current) }
  | .store next => some { s with timeToWait := next, pc := .enter }
  | .enter => some { s with pc := .asleep }
  | .asleep => none
  | .woken => some { s with list := s.current, pc := .overflowCheck (s.first s.current) }
  | .overflowCheck p =>
    some { s with pc := .loop (p.any fun q => decide (s.tick < (s.mem q).timeout)) p }
  | .loop ov none =>
    if ov ∨ timerMaxCounter < s.timeout then some { s with pc := .switch ov }
    else some { s with pc := .next none }
  | .loop ov (some p) =>
    if ov ∨ (s.mem p).timeout ≤ s.tick then some { s with pc := .expire ov p }
    else some { s with pc := .next (some p) }
  | .expire ov p => some { s.setTimer p { s.mem p with state := .stopped } with pc := .invoke ov p }
  | .invoke ov p =>
    some { s with pc := if (s.mem p).funcCb.isSome then .callback ov p else .finish ov p 0 }
  | .callback ov p => some { s with pc := .finish ov p again.toNat }
  | .finish ov p r => some (s.finishExpired null ov p r)
  | .switch ov => some { s with current := s.future, pc := .switched ov s.current }
  | .switched ov tmp => some { s with future := tmp, pc := .head ov }
  | .head ov =>
    some { s with
      list := s.current
      pc := if ov then .loop false (s.first s.current) else .next (s.first s.current) }
  | .next p => some { s with pc := .store (p.elim timerMaxCounter fun q => (s.mem q).timeout) }

/-! ## Interleavings -/

/-- A step: a tick, a call by another task or by a callback, or a step of the timer task. -/
inductive TimerAct
  | tick
  | set (cb : Nat) (timeWait : U64)
  | start (p : BrtosTimer) (timeWait : U64)
  | stop (p : BrtosTimer) (del : Bool)
  | task (again : U64)

def timerStep (s : TimerSys) : TimerAct → Option TimerSys
  | .tick => some (osTick s)
  | .set cb timeWait => some (osTimerSet null s cb timeWait)
  | .start p timeWait => some (osTimerStart null s p timeWait)
  | .stop p del => some (osTimerStop null s p del)
  | .task again => timerTaskStep null s again

end

/-- After `BRTOS_TimerTaskInit`, at tick `t`. -/
def timersInit (t : Nat) : TimerSys where
  mem := fun _ => { funcCb := none, timeout := 0, state := .notUsed }
  lists := fun _ => { timers := fun _ => none, count := 0 }
  current := .ping
  future := .pong
  tick := t
  timeToWait := 0
  pc := .start
  list := .ping
  timeout := 0

end Unet4Cooja
