import Unet4Cooja.Brtos.Event
import Unet4Cooja.Packet
import Unet4Cooja.Lib.Runs

/-!
# Counting semaphores (`semaphore.c`)

* `SemSys`, `osSemPendEvent`, `osSemPendResumed`, `osSemPostEvent` : a semaphore of `OSSemCreate`, and its operations;
* `SemAct`, `semStep` : the interleavings;
* `noteSem` : the observer that counts the posts and pends that returned `OK`;
* `conserved_of_runs` : no token is lost or doubled.
-/

namespace Unet4Cooja
open Lib

/-! ## The semaphore -/

structure SemSys (τ : Type*) extends EventSys τ where
  osEventCount : Nat

inductive SemReturn
  | ok | timeout | exitByNoEntryAvailable | errSemOvf
  deriving DecidableEq

variable {τ : Type*}

/-- `OSSemCreate(c)`, with the tasks of the priorities `ready` installed. -/
def osSemCreate (cnt : U8) (ready : Finset Nat) : SemSys τ :=
  { EventSys.start ready with osEventCount := cnt.toNat }

section
variable [DecidableEq τ] (c : TaskPriorities τ) (s : SemSys τ) (t : τ)

/-- `OSSemPost`, by a task or an interrupt. -/
def osSemPostEvent : SemReturn × SemSys τ :=
  if s.osEventWait ≠ 0 then (.ok, { s with toEventSys := s.select })
  else if s.osEventCount < 255 then (.ok, { s with osEventCount := s.osEventCount + 1 })
  else (.errSemOvf, s)

/-- `OSSemPend` by the task `t`, up to `ChangeContext` if it has to wait. -/
def osSemPendEvent (timeWait : WaitTime) : Option SemReturn × SemSys τ :=
  if 0 < s.osEventCount then (some .ok, { s with osEventCount := s.osEventCount - 1 })
  else if timeWait = .noTimeout then (some .exitByNoEntryAvailable, s)
  else (none, { s with toEventSys := s.suspend c t timeWait })

/-- `OSSemPend` by the task `t` from `ChangeContext` on. -/
def osSemPendResumed : SemReturn × SemSys τ :=
  if s.TimedOut c t then (.timeout, { s with toEventSys := s.cancel c t })
  else (.ok, { s with toEventSys := s.wake t })

/-- A step: a post, a pend, its return from `ChangeContext`, or a tick. -/
inductive SemAct (τ : Type*)
  | post
  | pend (t : τ) (timeWait : WaitTime)
  | resume (t : τ)
  | tick (t : τ)

def semStep : SemAct τ → Option (SemSys τ)
  | .post => some (osSemPostEvent s).2
  | .pend t timeWait =>
    if s.Ready c t ∧ s.pc t = .running then some (osSemPendEvent c s t timeWait).2 else none
  | .resume t => if s.Ready c t ∧ s.pc t ≠ .running then some (osSemPendResumed c s t).2 else none
  | .tick t => if s.timeToWait t = .ticks then some { s with toEventSys := s.tick c t } else none

end

/-! ## Conservation -/

structure SemNote where
  posts : Nat
  pends : Nat
  deriving DecidableEq

section
variable [DecidableEq τ] (c : TaskPriorities τ)

def noteSem (s : SemSys τ) (n : SemNote) : SemAct τ → SemNote
  | .post => if (osSemPostEvent s).1 = .ok then { n with posts := n.posts + 1 } else n
  | .pend t timeWait => if (osSemPendEvent c s t timeWait).1 = some .ok then { n with pends := n.pends + 1 } else n
  | .resume t => if (osSemPendResumed c s t).1 = .ok then { n with pends := n.pends + 1 } else n
  | .tick _ => n

variable [Fintype τ]

/-- The initial count and the posts are the count and the pends, with those a post has woken up that have
not returned yet. -/
structure Conserved (cnt : U8) (s : SemSys τ) (n : SemNote) : Prop where
  tokens : cnt.toNat + n.posts = s.osEventCount + (n.pends + (s.woken c).card)
  waiting : s.osEventWait = s.osEventWaitList.card
  nobody : 0 < s.osEventCount → s.osEventWaitList = ∅

/-- `Conserved`, with the invariant of the wait list. -/
structure SemInv (cnt : U8) (s : SemSys τ) (n : SemNote) : Prop extends Conserved c cnt s n where
  event : EventInv c s.toEventSys

variable {c} {cnt : U8} {s s' : SemSys τ} {n : SemNote} {t : τ}

omit [DecidableEq τ] in
theorem semInv_osSemCreate (ready : Finset Nat) :
    SemInv c cnt (osSemCreate cnt ready : SemSys τ) ⟨0, 0⟩ where
  tokens := by
    have h : (EventSys.start ready : EventSys τ).woken c = ∅ := by
      ext u
      rw [mem_woken]
      exact iff_of_false (fun h => h.1 rfl) (Finset.notMem_empty u)
    show cnt.toNat + 0 = cnt.toNat + (0 + ((EventSys.start ready : EventSys τ).woken c).card)
    rw [h, Finset.card_empty]
  waiting := rfl
  nobody _ := rfl
  event := eventInv_start ready

theorem SemInv.post (i : SemInv c cnt s n) : SemInv c cnt (osSemPostEvent s).2 (noteSem c s n .post) := by
  have htokens := i.tokens
  unfold noteSem osSemPostEvent
  dsimp only
  split
  · -- a waiting task is woken up: there is no token
    rename_i hwait
    have hnone : ¬ 0 < s.osEventCount := by
      intro hpos
      have h := i.waiting
      rw [i.nobody hpos] at h
      exact hwait h
    have hevent := i.event.select hwait
    refine ⟨⟨?_, hevent.count, fun hpos => absurd hpos hnone⟩, hevent⟩
    dsimp only
    rw [i.event.card_woken_select hwait]
    simp only [if_true]
    omega
  · rename_i hwait
    have hempty : s.osEventWaitList = ∅ := by
      rw [← Finset.card_eq_zero, ← i.waiting]
      exact not_not.mp hwait
    split
    · refine ⟨⟨?_, i.waiting, fun _ => hempty⟩, i.event⟩
      simp only [if_true]
      omega
    · exact i

theorem SemInv.pend (i : SemInv c cnt s n) (hrun : s.pc t = .running) (timeWait : WaitTime) :
    SemInv c cnt (osSemPendEvent c s t timeWait).2 (noteSem c s n (.pend t timeWait)) := by
  have htokens := i.tokens
  unfold noteSem osSemPendEvent
  dsimp only
  split
  · rename_i hpos
    refine ⟨⟨?_, i.waiting, fun _ => i.nobody hpos⟩, i.event⟩
    simp only [if_true]
    omega
  · rename_i hnone
    split
    · exact i
    · have hevent := i.event.suspend hrun timeWait
      refine ⟨⟨?_, hevent.count, fun hpos => absurd hpos hnone⟩, hevent⟩
      dsimp only
      rw [woken_suspend hrun timeWait]
      simpa using htokens

theorem SemInv.resume (i : SemInv c cnt s n) (hready : s.Ready c t) (hpc : s.pc t ≠ .running) :
    SemInv c cnt (osSemPendResumed c s t).2 (noteSem c s n (.resume t)) := by
  have htokens := i.tokens
  unfold noteSem osSemPendResumed
  dsimp only
  split
  · rename_i hover
    have hevent := i.event.cancel hover
    refine ⟨⟨?_, hevent.count, fun hpos => ?_⟩, hevent⟩
    · dsimp only
      rw [woken_cancel hover]
      simpa using htokens
    · -- the task itself is in the wait list
      have h := hover.2.2
      rw [i.nobody hpos] at h
      exact absurd h (Finset.notMem_empty _)
  · rename_i hover
    have hwoken := i.event.returns hready hpc hover
    have hcard := card_woken_wake hwoken
    have hevent := i.event.wake hwoken
    refine ⟨⟨?_, hevent.count, i.nobody⟩, hevent⟩
    simp only [if_true]
    omega

theorem SemInv.step (i : SemInv c cnt s n) {a : SemAct τ} (hs : semStep c s a = some s') :
    SemInv c cnt s' (noteSem c s n a) := by
  cases a with
  | post =>
    cases hs
    exact i.post
  | pend t timeWait =>
    simp only [semStep] at hs
    split at hs <;> cases hs
    rename_i h
    exact i.pend h.2 timeWait
  | resume t =>
    simp only [semStep] at hs
    split at hs <;> cases hs
    rename_i h
    exact i.resume h.1 h.2
  | tick t =>
    simp only [semStep] at hs
    split at hs <;> cases hs
    rename_i h
    have hevent := i.event.tick h
    refine ⟨⟨?_, hevent.count, i.nobody⟩, hevent⟩
    rw [woken_tick]
    exact i.tokens

/-- In every run of posts, pends and ticks the tokens are conserved, the number of waiting tasks is the
number of bits of the wait list, and nobody waits while there is a token. -/
theorem conserved_of_runs (cnt : U8) (ready : Finset Nat) {as : List (SemAct τ)}
    (r : Runs (semStep c) Free (osSemCreate cnt ready) as s) :
    Conserved c cnt s (observe (semStep c) (noteSem c) (osSemCreate cnt ready) ⟨0, 0⟩ as) :=
  (r.observed (I := SemInv c cnt) (semInv_osSemCreate ready) fun _ _ _ _ i _ hs => i.step hs).toConserved

end

def threePriorities : TaskPriorities (Fin 3) where
  priority t := t + 1
  installed := by decide

/-- A post selects a task whose time is over before it runs; another task pends meanwhile. -/
def postAfterTimeout : List (SemAct (Fin 3)) :=
  [.pend 0 .ticks, .tick 0, .post, .pend 1 .zero, .resume 0, .post, .post]

theorem conserved_of_runs_postAfterTimeout :
    ∃ s, Runs (semStep threePriorities) Free (osSemCreate 0 {1, 2, 3}) postAfterTimeout s ∧
      s.osEventCount = 1 ∧ Conserved threePriorities 0 s ⟨3, 1⟩ := by
  have hrun : (exec (semStep threePriorities) (osSemCreate 0 {1, 2, 3}) postAfterTimeout).map
      (fun s => s.osEventCount) = some 1 := by decide +kernel
  have hnote : observe (semStep threePriorities) (noteSem threePriorities) (osSemCreate 0 {1, 2, 3}) ⟨0, 0⟩
      postAfterTimeout = ⟨3, 1⟩ := by decide +kernel
  obtain ⟨s, hs, he⟩ := Option.map_eq_some_iff.mp hrun
  have r := Runs.of_exec hs
  exact ⟨s, r, he, hnote ▸ conserved_of_runs 0 {1, 2, 3} r⟩

end Unet4Cooja
