import Mathlib.Data.Fintype.Card
import Unet4Cooja.Brtos.Mutex
import Unet4Cooja.Brtos.Timer
import Unet4Cooja.Lib.DList
import Unet4Cooja.Lib.Runs

/-!
# The delay list (`BRTOS.h`, `BRTOS.c`)

* `DelaySys` : the list, the tick counter, and where the tasks are;
* `osDelayTask`, `osPend`, `osPendResumed`, `osPost`, `osTickHandler` : the functions that use the list;
* `DelayAct`, `delayStep` : the interleavings;
* `noteArmed` : the observer of the timeouts that have neither passed nor been cancelled;
* `tickHandler_spec` : what one run of `OS_TICK_HANDLER` does to a well-formed list;
* `delayList_of_runs` : while no timeout of a pend is `EXIT_BY_TIMEOUT`, the list is that of the armed tasks;
* `delayList_fails` : a pend with such a timeout leaves its task in the list.
-/

namespace Unet4Cooja
open Lib

/-- `NO_TIMEOUT`. -/
def noTimeoutTicks : U64 := BitVec.ofNat 64 (2 ^ 64 - 2)

/-- `EXIT_BY_TIMEOUT`, as a value of `TimeToWait`. -/
def exitTicks : U64 := BitVec.ofNat 64 exitByTimeout

/-- `TICK_COUNT_OVERFLOW`, as a value of `OSTickCounter`. -/
def overflowTicks : U64 := BitVec.ofNat 64 tickCountOverflow

/-- Where a task is: it runs or may run, it is in `OSDelayTask` at `ChangeContext`, or it is there in a pend
with `time_wait`. -/
inductive DelayPc
  | running
  | delayed
  | pending (timeWait : U64)
  deriving DecidableEq

/-- The delay list and the tasks. The bits of `OSReadyList` and of the wait lists are known by the tasks that
have their priorities. -/
structure DelaySys (τ : Type*) where
  osTickCounter : U64
  timeToWait : τ → U64
  list : DList τ
  osReadyList : Finset τ
  osEventWaitList : Finset τ
  pc : τ → DelayPc

variable {τ : Type*}

namespace DelaySys

/-- The tasks `ready` run, the counter starts at 0. -/
def start (ready : Finset τ) : DelaySys τ where
  osTickCounter := 0
  timeToWait _ := noTimeoutTicks
  list := DList.empty
  osReadyList := ready
  osEventWaitList := ∅
  pc _ := .running

variable [DecidableEq τ] (s : DelaySys τ) (t : τ)

/-- `TimeToWait` is set `time_wait` ticks ahead, as `sizeof_ostick_t` is 8 without a reduction to
`TICK_COUNT_OVERFLOW`, and the task is put into the delay list. -/
def arm (timeWait : U64) : DelaySys τ :=
  { s with
    timeToWait := Function.update s.timeToWait t (s.osTickCounter + timeWait)
    list := s.list.append t }

/-- The task is not ready any more. -/
def suspend (pc : DelayPc) : DelaySys τ :=
  { s with osReadyList := s.osReadyList.erase t, pc := Function.update s.pc t pc }

/-- `OSDelayTask`, up to `ChangeContext`. -/
def osDelayTask (timeWait : U64) : DelaySys τ :=
  if 0 < timeWait then (s.arm t timeWait).suspend t .delayed else s

/-- `OSSemPend`, `OSMutexAcquire` and `OSQueuePend`, up to `ChangeContext`; `available` tells whether the task
gets what it pends for at once. -/
def osPend (available : Bool) (timeWait : U64) : DelaySys τ :=
  if available then s
  else if timeWait = noTimeoutTicks then s
  else
    let s := { s with osEventWaitList := insert t s.osEventWaitList }
    let s :=
      if timeWait ≠ 0 then s.arm t timeWait
      else { s with timeToWait := Function.update s.timeToWait t noTimeoutTicks }
    s.suspend t (.pending timeWait)

/-- A pend from `ChangeContext` on. -/
def osPendResumed (timeWait : U64) : DelaySys τ :=
  let s :=
    if timeWait ≠ 0 then
      if s.timeToWait t = exitTicks then
        -- in the wait list the task returns `TIMEOUT`, otherwise a post came too
        { s with osEventWaitList := s.osEventWaitList.erase t }
      else
        { s with
          timeToWait := Function.update s.timeToWait t noTimeoutTicks
          list := s.list.remove t }
    else s
  { s with pc := Function.update s.pc t .running }

/-- A post or a release that selects the task. -/
def osPost : DelaySys τ :=
  { s with
    osEventWaitList := s.osEventWaitList.erase t
    osReadyList := insert t s.osReadyList }

def osIncCounter (count : U64) : U64 :=
  if count + 1 = overflowTicks then 0 else count + 1

/-- The body of the loop of `OS_TICK_HANDLER`. -/
def tickTask : DelaySys τ :=
  if s.timeToWait t = s.osTickCounter then
    { s with
      osReadyList := insert t s.osReadyList
      timeToWait := Function.update s.timeToWait t exitTicks
      list := s.list.remove t }
  else s

/-- The loop of `OS_TICK_HANDLER`, of at most `fuel` rounds. -/
def tickLoop : Nat → DelaySys τ → Option τ → Option (DelaySys τ)
  | _, s, none => some s
  | 0, _, some _ => none
  | fuel + 1, s, some t => tickLoop fuel (s.tickTask t) ((s.tickTask t).list.next t)

def osTickHandler [Fintype τ] : Option (DelaySys τ) := tickLoop (Fintype.card τ) s s.list.head

end DelaySys

section
variable [DecidableEq τ] [Fintype τ] (s : DelaySys τ)

/-- A step: a delay, a pend, the return from `ChangeContext`, a post, or a tick. -/
inductive DelayAct (τ : Type*)
  | delay (t : τ) (timeWait : U64)
  | pend (t : τ) (available : Bool) (timeWait : U64)
  | resume (t : τ)
  | post (t : τ)
  | tick

def delayStep : DelayAct τ → Option (DelaySys τ)
  | .delay t timeWait =>
    if t ∈ s.osReadyList ∧ s.pc t = .running then some (s.osDelayTask t timeWait) else none
  | .pend t available timeWait =>
    if t ∈ s.osReadyList ∧ s.pc t = .running then some (s.osPend t available timeWait) else none
  | .resume t =>
    if t ∈ s.osReadyList then
      match s.pc t with
      | .running => none
      | .delayed => some { s with pc := Function.update s.pc t .running }
      | .pending timeWait => some (s.osPendResumed t timeWait)
    else none
  | .post t => if t ∈ s.osEventWaitList then some (s.osPost t) else none
  | .tick => { s with osTickCounter := DelaySys.osIncCounter s.osTickCounter }.osTickHandler

end

/-! ## The timeouts -/

/-- The ticks at which the timeouts that are armed pass. -/
abbrev ArmedNote (τ : Type*) := τ → Option U64

section
variable [DecidableEq τ]

/-- A timeout is armed by a delay and by a pend that has to wait for a time. It passes at its tick, and it is
cancelled when the task returns from the pend. -/
def noteArmed (s : DelaySys τ) (n : ArmedNote τ) : DelayAct τ → ArmedNote τ
  | .delay t timeWait =>
    if 0 < timeWait then Function.update n t (some (s.osTickCounter + timeWait)) else n
  | .pend t available timeWait =>
    if available = false ∧ timeWait ≠ noTimeoutTicks ∧ timeWait ≠ 0 then
      Function.update n t (some (s.osTickCounter + timeWait))
    else n
  | .resume t => if s.pc t = .delayed then n else Function.update n t none
  | .post _ => n
  | .tick => fun t => if n t = some (DelaySys.osIncCounter s.osTickCounter) then none else n t

/-- The timeout of a pend that has to wait for a time is not `EXIT_BY_TIMEOUT`. -/
def TimeoutApart (s : DelaySys τ) : DelayAct τ → Prop
  | .pend _ available timeWait =>
    available = false ∧ timeWait ≠ noTimeoutTicks ∧ timeWait ≠ 0 → s.osTickCounter + timeWait ≠ exitTicks
  | .delay .. | .resume _ | .post _ | .tick => True

instance (s : DelaySys τ) (a : DelayAct τ) : Decidable (TimeoutApart s a) :=
  match a with
  | .pend .. => inferInstanceAs (Decidable (_ ∧ _ ∧ _ → _))
  | .delay .. | .resume _ | .post _ | .tick => .isTrue trivial

/-- The tasks of `xs` whose time is the value of the counter. -/
def DelaySys.due (s : DelaySys τ) (xs : List τ) : List τ := xs.filter fun t => s.timeToWait t = s.osTickCounter

/-- The other tasks of `xs`. -/
def DelaySys.early (s : DelaySys τ) (xs : List τ) : List τ := xs.filter fun t => s.timeToWait t ≠ s.osTickCounter

/-- `OS_TICK_HANDLER` ends, and readies and takes out exactly the tasks of the list whose time has come. -/
def TickExact [Fintype τ] (s : DelaySys τ) (xs : List τ) : Prop :=
  ∃ s', s.osTickHandler = some s' ∧ s'.osReadyList = s.osReadyList ∪ (s.due xs).toFinset ∧
    s'.list.Represents (s.early xs)

/-- The list is well formed, has the armed tasks, and the handler does what it should at the next tick. -/
structure DelayListed [Fintype τ] (s : DelaySys τ) (n : ArmedNote τ) (xs : List τ) : Prop where
  represents : s.list.Represents xs
  armed : ∀ t, t ∈ xs ↔ n t ≠ none
  handler : TickExact { s with osTickCounter := DelaySys.osIncCounter s.osTickCounter } xs

end

/-! ## The handler -/

section
variable {s : DelaySys τ} {t : τ} {xs ys zs : List τ}

theorem DelaySys.mem_due : t ∈ s.due xs ↔ t ∈ xs ∧ s.timeToWait t = s.osTickCounter := by
  simp [DelaySys.due]

theorem DelaySys.mem_early : t ∈ s.early xs ↔ t ∈ xs ∧ s.timeToWait t ≠ s.osTickCounter := by
  simp [DelaySys.early]

variable [DecidableEq τ]

/-- The state when the loop has gone over `ys` and left the list `l`. -/
def DelaySys.ticked (s : DelaySys τ) (ys : List τ) (l : DList τ) : DelaySys τ :=
  { s with
    osReadyList := s.osReadyList ∪ (s.due ys).toFinset
    timeToWait := fun t => if t ∈ s.due ys then exitTicks else s.timeToWait t
    list := l }

theorem DelaySys.ticked_nil : s.ticked [] s.list = s := by
  simp [DelaySys.ticked, DelaySys.due]

theorem tickTask_of_due (h : s.timeToWait t = s.osTickCounter) :
    s.tickTask t = s.ticked [t] (s.list.remove t) := by
  unfold DelaySys.tickTask DelaySys.ticked
  rw [if_pos h]
  have hdue : s.due [t] = [t] := by simp [DelaySys.due, h]
  rw [hdue]
  congr 1
  · funext u
    simp [Function.update_apply]
  · ext u
    simp

theorem ticked_timeToWait_of_notMem (l : DList τ) (h : t ∉ xs) : (s.ticked xs l).timeToWait t = s.timeToWait t :=
  if_neg fun hm => h (DelaySys.mem_due.mp hm).1

theorem due_ticked (l : DList τ) (ht : t ∉ ys) : (s.ticked [t] l).due ys = s.due ys := by
  refine List.filter_congr fun u hu => ?_
  rw [ticked_timeToWait_of_notMem l (by rw [List.mem_singleton]; rintro rfl; exact ht hu)]
  rfl

theorem early_ticked (l : DList τ) (ht : t ∉ ys) : (s.ticked [t] l).early ys = s.early ys := by
  refine List.filter_congr fun u hu => ?_
  rw [ticked_timeToWait_of_notMem l (by rw [List.mem_singleton]; rintro rfl; exact ht hu)]
  rfl

theorem ticked_cons (h : s.timeToWait t = s.osTickCounter) (ht : t ∉ ys) (l l' : DList τ) :
    (s.ticked [t] l).ticked ys l' = s.ticked (t :: ys) l' := by
  have hdue := due_ticked (s := s) l ht
  have hcons : s.due (t :: ys) = t :: s.due ys := by simp [DelaySys.due, h]
  have hone : s.due [t] = [t] := by simp [DelaySys.due, h]
  unfold DelaySys.ticked at hdue ⊢
  rw [hdue, hcons, hone]
  congr 1
  · funext u
    by_cases hu : u = t <;> simp [hu]
  · ext u
    simp

theorem tickLoop_spec {fuel : Nat} (h : s.list.Represents (zs ++ ys)) (hfuel : ys.length ≤ fuel) :
    ∃ l, DelaySys.tickLoop fuel s (DList.first ys none) = some (s.ticked ys l) ∧
      l.Represents (zs ++ s.early ys) := by
  induction ys generalizing s zs fuel with
  | nil => exact ⟨s.list, by rw [DelaySys.ticked_nil]; cases fuel <;> rfl, h⟩
  | cons t ys ih =>
    obtain ⟨fuel, rfl⟩ : ∃ n, fuel = n + 1 := ⟨fuel - 1, by simp at hfuel; omega⟩
    have hlen : ys.length ≤ fuel := Nat.le_of_succ_le_succ hfuel
    show ∃ l, DelaySys.tickLoop fuel (s.tickTask t) ((s.tickTask t).list.next t) = _ ∧ _
    by_cases htime : s.timeToWait t = s.osTickCounter
    · -- the task is taken out, and its pointer still leads to the rest
      have ht : t ∉ ys := (List.nodup_cons.mp (List.nodup_append.mp h.nodup).2.1).1
      have hearly : s.early (t :: ys) = s.early ys := by simp [DelaySys.early, htime]
      have hnext : (s.ticked [t] (s.list.remove t)).list.next t = DList.first ys none := h.next_remove
      obtain ⟨l, hl, hrep⟩ := ih (s := s.ticked [t] (s.list.remove t)) h.remove hlen
      rw [tickTask_of_due htime, hnext, hearly, ← early_ticked (s.list.remove t) ht]
      exact ⟨l, by rw [hl, ticked_cons htime ht], hrep⟩
    · have hsame : s.tickTask t = s := if_neg htime
      have hdue : s.due (t :: ys) = s.due ys := by simp [DelaySys.due, htime]
      have hearly : s.early (t :: ys) = t :: s.early ys := by simp [DelaySys.early, htime]
      have hshift : s.list.Represents ((zs ++ [t]) ++ ys) := by simpa using h
      obtain ⟨l, hl, hrep⟩ := ih hshift hlen
      rw [hsame, h.around.2]
      refine ⟨l, ?_, ?_⟩
      · rw [hl]
        simp [DelaySys.ticked, hdue]
      · rw [hearly]
        simpa using hrep

theorem tickHandler_spec [Fintype τ] (h : s.list.Represents xs) :
    ∃ l, s.osTickHandler = some (s.ticked xs l) ∧ l.Represents (s.early xs) := by
  unfold DelaySys.osTickHandler
  rw [h.head]
  have hall : s.list.Represents ([] ++ xs) := h
  exact tickLoop_spec hall h.nodup.length_le_card

theorem tickExact_of_represents [Fintype τ] (h : s.list.Represents xs) : TickExact s xs := by
  obtain ⟨l, hl, hrep⟩ := tickHandler_spec h
  exact ⟨_, hl, rfl, hrep⟩

end

/-! ## The invariant -/

/-- The list is well formed, and has the armed tasks with their times. -/
structure Listed (s : DelaySys τ) (n : ArmedNote τ) (xs : List τ) : Prop where
  represents : s.list.Represents xs
  armed : ∀ t, t ∈ xs ↔ n t ≠ none
  time : ∀ t d, n t = some d → s.timeToWait t = d

def TaskDelay (s : DelaySys τ) (n : ArmedNote τ) (t : τ) : Prop :=
  match s.pc t with
  | .running => n t = none ∧ t ∉ s.osEventWaitList
  | .delayed => (t ∈ s.osReadyList → n t = none) ∧ t ∉ s.osEventWaitList
  | .pending timeWait =>
    (n t = none ↔ timeWait = 0 ∨ s.timeToWait t = exitTicks) ∧
      (t ∈ s.osReadyList → t ∈ s.osEventWaitList → timeWait ≠ 0 ∧ s.timeToWait t = exitTicks)

structure DelayInv (s : DelaySys τ) (n : ArmedNote τ) : Prop where
  listed : ∃ xs, Listed s n xs
  task : ∀ t, TaskDelay s n t

section
variable {s s' : DelaySys τ} {n : ArmedNote τ} {t u : τ} {xs : List τ} {w : U64}

theorem TaskDelay.congr {n' : ArmedNote τ} (h : TaskDelay s n t) (hpc : s'.pc t = s.pc t) (hn : n' t = n t)
    (htime : s'.timeToWait t = s.timeToWait t) (hready : t ∈ s'.osReadyList → t ∈ s.osReadyList)
    (hwait : t ∈ s'.osEventWaitList → t ∈ s.osEventWaitList) : TaskDelay s' n' t := by
  unfold TaskDelay at h ⊢
  rw [hpc, hn, htime]
  cases hp : s.pc t with
  | running =>
    simp only [hp] at h
    exact ⟨h.1, fun hm => h.2 (hwait hm)⟩
  | delayed =>
    simp only [hp] at h
    exact ⟨fun hm => h.1 (hready hm), fun hm => h.2 (hwait hm)⟩
  | pending w =>
    simp only [hp] at h
    exact ⟨h.1, fun hm hm' => h.2 (hready hm) (hwait hm')⟩

theorem TaskDelay.passed {n' : ArmedNote τ} (h : TaskDelay s n t) (harmed : n t ≠ none) (hpc : s'.pc t = s.pc t)
    (hn : n' t = none) (htime : s'.timeToWait t = exitTicks)
    (hwait : t ∈ s'.osEventWaitList → t ∈ s.osEventWaitList) : TaskDelay s' n' t := by
  unfold TaskDelay at h ⊢
  rw [hpc, hn, htime]
  cases hp : s.pc t with
  | running =>
    simp only [hp] at h
    exact absurd h.1 harmed
  | delayed =>
    simp only [hp] at h
    exact ⟨fun _ => rfl, fun hm => h.2 (hwait hm)⟩
  | pending w =>
    simp only [hp] at h
    exact ⟨iff_of_true rfl (Or.inr rfl), fun _ _ => ⟨fun hzero => harmed (h.1.mpr (Or.inl hzero)), rfl⟩⟩

theorem TaskDelay.of_running (h : TaskDelay s n t) (hpc : s.pc t = .running) :
    n t = none ∧ t ∉ s.osEventWaitList := by
  unfold TaskDelay at h
  rwa [hpc] at h

theorem TaskDelay.of_delayed (h : TaskDelay s n t) (hpc : s.pc t = .delayed) :
    (t ∈ s.osReadyList → n t = none) ∧ t ∉ s.osEventWaitList := by
  unfold TaskDelay at h
  rwa [hpc] at h

theorem TaskDelay.of_pending (h : TaskDelay s n t) (hpc : s.pc t = .pending w) :
    (n t = none ↔ w = 0 ∨ s.timeToWait t = exitTicks) ∧
      (t ∈ s.osReadyList → t ∈ s.osEventWaitList → w ≠ 0 ∧ s.timeToWait t = exitTicks) := by
  unfold TaskDelay at h
  rwa [hpc] at h

theorem TaskDelay.pending_of_mem (h : TaskDelay s n t) (hm : t ∈ s.osEventWaitList) :
    ∃ w, s.pc t = .pending w := by
  cases hp : s.pc t with
  | running => exact absurd hm (h.of_running hp).2
  | delayed => exact absurd hm (h.of_delayed hp).2
  | pending w => exact ⟨w, rfl⟩

theorem DelayInv.start (ready : Finset τ) : DelayInv (DelaySys.start ready) fun _ => none where
  listed := ⟨[], DList.represents_empty, fun t => by simp, fun t d h => nomatch h⟩
  task t := ⟨rfl, Finset.notMem_empty t⟩

variable [DecidableEq τ]

theorem Listed.arm (h : Listed s n xs) (hn : n t = none) (w : U64) :
    Listed (s.arm t w) (Function.update n t (some (s.osTickCounter + w))) (xs ++ [t]) where
  represents := h.represents.append fun hm => (h.armed t).mp hm hn
  armed u := by
    rw [List.mem_append, List.mem_singleton, Function.update_apply]
    by_cases hu : u = t
    · simp [hu]
    · simp [hu, h.armed u]
  time u d := by
    show _ → Function.update s.timeToWait t _ u = d
    rw [Function.update_apply, Function.update_apply]
    split
    · exact Option.some.inj
    · exact h.time u d

theorem Listed.cancel (h : Listed s n xs) (hn : n t ≠ none) :
    ∃ ys, Listed { s with
      timeToWait := Function.update s.timeToWait t noTimeoutTicks
      list := s.list.remove t } (Function.update n t none) ys := by
  obtain ⟨zs, ys, rfl⟩ := List.append_of_mem ((h.armed t).mpr hn)
  have ht : t ∉ zs ++ ys := by
    have hnodup := h.represents.nodup
    rw [List.nodup_middle, List.nodup_cons] at hnodup
    exact hnodup.1
  refine ⟨zs ++ ys, h.represents.remove, fun u => ?_, fun u d => ?_⟩
  · rw [Function.update_apply]
    by_cases hu : u = t
    · simpa [hu] using ht
    · have harmed := h.armed u
      simp only [List.mem_append, List.mem_cons, hu, false_or] at harmed
      simpa [hu] using harmed
  · show _ → Function.update s.timeToWait t _ u = d
    rw [Function.update_apply, Function.update_apply]
    split
    · exact fun e => nomatch e
    · exact h.time u d

theorem Listed.setTime (h : Listed s n xs) (hn : n t = none) (w : U64) :
    Listed { s with timeToWait := Function.update s.timeToWait t w } n xs where
  represents := h.represents
  armed := h.armed
  time u d hd := by
    have hu : u ≠ t := by
      rintro rfl
      rw [hn] at hd
      exact nomatch hd
    exact (Function.update_of_ne hu _ _).trans (h.time u d hd)

theorem Listed.tick [Fintype τ] (h : Listed s n xs) {l : DList τ}
    (hrep : l.Represents (s.early xs)) :
    Listed (s.ticked xs l) (fun t => if n t = some s.osTickCounter then none else n t) (s.early xs) where
  represents := hrep
  armed u := by
    rw [DelaySys.mem_early, h.armed u]
    cases hn : n u with
    | none => simp
    | some d => simp [h.time u d hn]
  time u d := by
    split
    · exact fun e => nomatch e
    · rename_i hlate
      intro hn
      have htime := h.time u d hn
      have hdue : u ∉ s.due xs := by
        intro hm
        apply hlate
        rw [hn, ← htime, (DelaySys.mem_due.mp hm).2]
      exact (if_neg hdue).trans htime

namespace DelayInv

theorem delay (i : DelayInv s n) (hpc : s.pc t = .running) (w : U64) :
    DelayInv (s.osDelayTask t w)
      (if 0 < w then Function.update n t (some (s.osTickCounter + w)) else n) := by
  unfold DelaySys.osDelayTask
  split
  · obtain ⟨xs, h⟩ := i.listed
    obtain ⟨hn, hwait⟩ := (i.task t).of_running hpc
    have harm := h.arm hn w
    refine ⟨⟨_, harm.represents, harm.armed, harm.time⟩, fun u => ?_⟩
    by_cases hu : u = t
    · subst hu
      simp [TaskDelay, DelaySys.suspend, DelaySys.arm, hwait]
    · refine (i.task u).congr (Function.update_of_ne hu _ _) (Function.update_of_ne hu _ _)
        (Function.update_of_ne hu _ _) Finset.mem_of_mem_erase id
  · exact i

theorem pend (i : DelayInv s n) (hpc : s.pc t = .running) {available : Bool}
    (hok : TimeoutApart s (.pend t available w)) :
    DelayInv (s.osPend t available w) (noteArmed s n (.pend t available w)) := by
  obtain ⟨xs, h⟩ := i.listed
  obtain ⟨hn, hwait⟩ := (i.task t).of_running hpc
  unfold DelaySys.osPend
  cases available with
  | true => exact i
  | false =>
    by_cases hno : w = noTimeoutTicks
    · simpa [noteArmed, hno] using i
    · by_cases hzero : w = 0
      · subst hzero
        have hset := h.setTime hn noTimeoutTicks
        simp only [noteArmed, hno, ne_eq, not_true_eq_false, and_false, ↓reduceIte, Bool.false_eq_true]
        refine ⟨⟨xs, hset.represents, hset.armed, hset.time⟩, fun u => ?_⟩
        by_cases hu : u = t
        · subst hu
          simp [TaskDelay, DelaySys.suspend, hn]
        · refine (i.task u).congr (Function.update_of_ne hu _ _) rfl (Function.update_of_ne hu _ _)
            Finset.mem_of_mem_erase fun hm => (Finset.mem_insert.mp hm).resolve_left hu
      · have harm := h.arm hn w
        simp only [noteArmed, hno, hzero, ne_eq, not_false_eq_true, and_self, ↓reduceIte, Bool.false_eq_true]
        refine ⟨⟨_, harm.represents, harm.armed, harm.time⟩, fun u => ?_⟩
        by_cases hu : u = t
        · subst hu
          have hapart : s.osTickCounter + w ≠ exitTicks := hok ⟨rfl, hno, hzero⟩
          simpa [TaskDelay, DelaySys.suspend, DelaySys.arm, hapart] using hzero
        · refine (i.task u).congr (Function.update_of_ne hu _ _) (Function.update_of_ne hu _ _)
            (Function.update_of_ne hu _ _) Finset.mem_of_mem_erase
            fun hm => (Finset.mem_insert.mp hm).resolve_left hu

theorem delayed (i : DelayInv s n) (hpc : s.pc t = .delayed) (hready : t ∈ s.osReadyList) :
    DelayInv { s with pc := Function.update s.pc t .running } n where
  listed := by
    obtain ⟨xs, h⟩ := i.listed
    exact ⟨xs, h.represents, h.armed, h.time⟩
  task u := by
    by_cases hu : u = t
    · subst hu
      have h := (i.task u).of_delayed hpc
      simpa [TaskDelay] using ⟨h.1 hready, h.2⟩
    · exact (i.task u).congr (Function.update_of_ne hu _ _) rfl rfl id id

theorem resume (i : DelayInv s n) (hpc : s.pc t = .pending w) (hready : t ∈ s.osReadyList) :
    DelayInv (s.osPendResumed t w) (Function.update n t none) := by
  obtain ⟨xs, h⟩ := i.listed
  obtain ⟨hn, hwait⟩ := (i.task t).of_pending hpc
  have hothers : ∀ {s' : DelaySys τ}, s'.pc = Function.update s.pc t .running →
      (∀ u, u ≠ t → s'.timeToWait u = s.timeToWait u) → s'.osReadyList = s.osReadyList →
      s'.osEventWaitList ⊆ s.osEventWaitList → t ∉ s'.osEventWaitList →
      ∀ u, TaskDelay s' (Function.update n t none) u := by
    intro s' hpc' htime hready' hsub ht u
    by_cases hu : u = t
    · subst hu
      simp [TaskDelay, hpc', ht]
    · exact (i.task u).congr (by rw [hpc']; exact Function.update_of_ne hu _ _)
        (Function.update_of_ne hu _ _) (htime u hu) (by rw [hready']; exact id) fun hm => hsub hm
  unfold DelaySys.osPendResumed
  by_cases hset : w = 0 ∨ s.timeToWait t = exitTicks
  · -- the timeout has passed, or there was none
    have hnone : n t = none := hn.mpr hset
    have hsame : Function.update n t none = n := hnone ▸ Function.update_eq_self t n
    by_cases hzero : w = 0
    · refine ⟨⟨xs, ?_⟩, hothers (by simp [hzero]) (by simp [hzero]) (by simp [hzero]) (by simp [hzero]) ?_⟩
      · rw [hsame]
        simp only [hzero, ne_eq, not_true_eq_false, ↓reduceIte]
        exact ⟨h.represents, h.armed, h.time⟩
      · simp only [hzero, ne_eq, not_true_eq_false, ↓reduceIte]
        exact fun hm => (hwait hready hm).1 hzero
    · have hexit := hset.resolve_left hzero
      simp only [hzero, hexit, ne_eq, not_false_eq_true, ↓reduceIte]
      refine ⟨⟨xs, ?_⟩, hothers rfl (fun _ _ => rfl) rfl (Finset.erase_subset _ _)
        (Finset.notMem_erase _ _)⟩
      rw [hsame]
      exact ⟨h.represents, h.armed, h.time⟩
  · -- a post has selected the task before its time
    obtain ⟨hzero, hexit⟩ := not_or.mp hset
    simp only [hzero, hexit, ne_eq, not_false_eq_true, ↓reduceIte]
    obtain ⟨ys, hys⟩ := h.cancel (t := t) fun hnone => hset (hn.mp hnone)
    exact ⟨⟨ys, hys.represents, hys.armed, hys.time⟩, hothers rfl (fun u hu => Function.update_of_ne hu _ _) rfl
      (Finset.Subset.refl _) fun hm => hexit (hwait hready hm).2⟩

theorem post (i : DelayInv s n) (hm : t ∈ s.osEventWaitList) : DelayInv (s.osPost t) n where
  listed := by
    obtain ⟨xs, h⟩ := i.listed
    exact ⟨xs, h.represents, h.armed, h.time⟩
  task u := by
    by_cases hu : u = t
    · subst hu
      obtain ⟨w, hpc⟩ := (i.task u).pending_of_mem hm
      have h := (i.task u).of_pending hpc
      have hpc' : (s.osPost u).pc u = .pending w := hpc
      unfold TaskDelay
      rw [hpc']
      exact ⟨h.1, fun _ hm' => absurd hm' (Finset.notMem_erase _ _)⟩
    · exact (i.task u).congr rfl rfl rfl (fun hr => (Finset.mem_insert.mp hr).resolve_left hu)
        Finset.mem_of_mem_erase

omit [DecidableEq τ] in
theorem count (i : DelayInv s n) (count : U64) : DelayInv { s with osTickCounter := count } n where
  listed := by
    obtain ⟨xs, h⟩ := i.listed
    exact ⟨xs, h.represents, h.armed, h.time⟩
  task u := (i.task u).congr rfl rfl rfl id id

theorem handler [Fintype τ] (i : DelayInv s n) (hs : s.osTickHandler = some s') :
    DelayInv s' (fun t => if n t = some s.osTickCounter then none else n t) := by
  obtain ⟨xs, h⟩ := i.listed
  obtain ⟨l, hl, hrep⟩ := tickHandler_spec h.represents
  cases hl.symm.trans hs
  refine ⟨⟨_, h.tick hrep⟩, fun u => ?_⟩
  by_cases hdue : u ∈ s.due xs
  · -- the timeout of the task passes
    obtain ⟨hmem, htime⟩ := DelaySys.mem_due.mp hdue
    have harmed := (h.armed u).mp hmem
    obtain ⟨d, hd⟩ := Option.ne_none_iff_exists'.mp harmed
    have hnow : n u = some s.osTickCounter := by
      rw [hd, ← htime, h.time u d hd]
    exact (i.task u).passed harmed rfl (if_pos hnow) (if_pos hdue) id
  · have hlate : n u ≠ some s.osTickCounter := by
      intro hn
      exact hdue (DelaySys.mem_due.mpr ⟨(h.armed u).mpr (by rw [hn]; exact Option.some_ne_none _), h.time u _ hn⟩)
    refine (i.task u).congr rfl (if_neg hlate) (if_neg hdue) (fun hm => ?_) id
    exact (Finset.mem_union.mp hm).resolve_right fun hm => hdue (List.mem_toFinset.mp hm)

theorem step [Fintype τ] (i : DelayInv s n) {a : DelayAct τ} (hok : TimeoutApart s a)
    (hs : delayStep s a = some s') : DelayInv s' (noteArmed s n a) := by
  cases a with
  | delay t w =>
    simp only [delayStep] at hs
    split at hs <;> cases hs
    rename_i h
    exact i.delay h.2 w
  | pend t available w =>
    simp only [delayStep] at hs
    split at hs <;> cases hs
    rename_i h
    exact i.pend h.2 hok
  | resume t =>
    simp only [delayStep] at hs
    split at hs
    · rename_i hready
      cases hpc : s.pc t with
      | running => simp [hpc] at hs
      | delayed =>
        simp only [hpc, Option.some.injEq] at hs
        subst hs
        simpa [noteArmed, hpc] using i.delayed hpc hready
      | pending w =>
        simp only [hpc, Option.some.injEq] at hs
        subst hs
        simpa [noteArmed, hpc] using i.resume hpc hready
    · cases hs
  | post t =>
    simp only [delayStep] at hs
    split at hs <;> cases hs
    rename_i hm
    exact i.post hm
  | tick => exact (i.count _).handler hs

theorem delayListed [Fintype τ] (i : DelayInv s n) : ∃ xs, DelayListed s n xs := by
  obtain ⟨xs, h⟩ := i.listed
  exact ⟨xs, h.represents, h.armed, tickExact_of_represents h.represents⟩

end DelayInv

/-- In every run in which no timeout of a pend that waits is `EXIT_BY_TIMEOUT`, the list is that of the armed tasks. -/
theorem delayList_of_runs [Fintype τ] (ready : Finset τ) {as : List (DelayAct τ)}
    (r : Runs delayStep TimeoutApart (DelaySys.start ready) as s) :
    ∃ xs, DelayListed s (observe delayStep noteArmed (DelaySys.start ready) (fun _ => none) as) xs :=
  (r.observed (DelayInv.start ready) fun _ _ _ _ i hok hs => i.step hok hs).delayListed

end

def twoDelays : DelaySys Bool := DelaySys.start {false, true}

/-- A delay passes while the other task waits. -/
def delayPasses : List (DelayAct Bool) := [.delay false 1, .pend true false 5, .tick, .resume false]

theorem delayList_of_runs_delayPasses :
    ∃ s, Runs delayStep TimeoutApart twoDelays delayPasses s ∧ s.list.head = some true ∧
      ∃ xs, DelayListed s (observe delayStep noteArmed twoDelays (fun _ => none) delayPasses) xs := by
  have hrun : (exec (guarded delayStep TimeoutApart) twoDelays delayPasses).map (fun s => s.list.head) =
      some (some true) := by decide +kernel
  obtain ⟨s, hs, he⟩ := Option.map_eq_some_iff.mp hrun
  have r := Runs.of_exec_guarded hs
  exact ⟨s, r, he, delayList_of_runs {false, true} r⟩

/-- A pend whose timeout is `EXIT_BY_TIMEOUT` is served by a post. -/
def exitAwaited : List (DelayAct Bool) := [.pend false false exitTicks, .post false, .resume false]

/-- The task has returned, and it is still in the list. -/
theorem delayList_fails : ¬ ∀ as (s : DelaySys Bool), Runs delayStep Free twoDelays as s →
    ∃ xs, DelayListed s (observe delayStep noteArmed twoDelays (fun _ => none) as) xs := by
  intro hall
  have hrun : (exec delayStep twoDelays exitAwaited).map (fun s => s.list.head) = some (some false) := by
    decide +kernel
  have hnote : observe delayStep noteArmed twoDelays (fun _ => none) exitAwaited false = none := by
    decide +kernel
  obtain ⟨s, hs, he⟩ := Option.map_eq_some_iff.mp hrun
  obtain ⟨xs, hrep, harmed, -⟩ := hall exitAwaited s (Runs.of_exec hs)
  have hmem : false ∈ xs := by
    have hhead := hrep.head
    rw [he] at hhead
    cases xs with
    | nil => exact nomatch hhead
    | cons x xs => exact Option.some.inj hhead ▸ List.mem_cons_self
  exact (harmed false).mp hmem hnote

end Unet4Cooja
