import Mathlib.Data.Fintype.Card
import Unet4Cooja.Brtos.Mutex

/-!
# The wait list of an event

* `TaskPriorities`, `EventSys` : the tasks with their priorities, and what the tasks that wait for one event
  share with those who post to it;
* `EventSys.suspend`, `EventSys.select`, `EventSys.cancel`, `EventSys.wake` : the parts that pend and post of
  semaphores and queues have in common;
* `EventInv` : who is in the wait list, and who may run;
* `EventSys.woken` : the tasks a post has selected that have not returned yet.

A pend returns from `ChangeContext` in a later step, once the bit of the task in `OSReadyList` is set.
-/

namespace Unet4Cooja

/-- The priorities of the tasks; `InstallTask` refuses one that is taken. -/
structure TaskPriorities (τ : Type*) where
  priority : τ → Nat
  installed : ∀ t u, priority t = priority u → t = u

/-- Where a task is: it runs or may run, or it is in a pend at `ChangeContext`, with whether `time_wait` is
not 0. -/
inductive EventPc
  | running
  | pending (timeWait : Bool)
  deriving DecidableEq

structure EventSys (τ : Type*) where
  osEventWait : Nat
  osEventWaitList : Finset Nat
  osReadyList : Finset Nat
  timeToWait : τ → TimeToWait
  pc : τ → EventPc

variable {τ : Type*} (c : TaskPriorities τ) (e : EventSys τ) (t : τ)

namespace EventSys

def start (ready : Finset Nat) : EventSys τ where
  osEventWait := 0
  osEventWaitList := ∅
  osReadyList := ready
  timeToWait _ := .noTimeout
  pc _ := .running

/-- The task can run. -/
def Ready : Prop := c.priority t ∈ e.osReadyList

/-- The task has been selected by a post and has not returned from its pend. -/
def Woken : Prop := e.pc t ≠ .running ∧ c.priority t ∉ e.osEventWaitList

/-- The wait of the task is over, and no post has selected it. -/
def TimedOut : Prop :=
  e.pc t = .pending true ∧ e.timeToWait t = .exitByTimeout ∧ c.priority t ∈ e.osEventWaitList

instance : Decidable (e.Ready c t) := inferInstanceAs (Decidable (_ ∈ _))
instance : Decidable (e.Woken c t) := inferInstanceAs (Decidable (_ ∧ _))
instance : Decidable (e.TimedOut c t) := inferInstanceAs (Decidable (_ ∧ _))

/-- The tasks a post has selected. -/
def woken [Fintype τ] : Finset τ := Finset.univ.filter fun t => e.Woken c t

/-- The tail of a post to an event for which tasks wait. -/
def select : EventSys τ :=
  let iPriority := saScheduler e.osEventWaitList
  { e with
    osEventWaitList := e.osEventWaitList.erase iPriority
    osEventWait := e.osEventWait - 1
    osReadyList := insert iPriority e.osReadyList }

section
variable [DecidableEq τ]

/-- The part of a pend before `ChangeContext`. -/
def suspend (timeWait : WaitTime) : EventSys τ :=
  let iPriority := c.priority t
  { osEventWait := e.osEventWait + 1
    osEventWaitList := insert iPriority e.osEventWaitList
    osReadyList := e.osReadyList.erase iPriority
    timeToWait := Function.update e.timeToWait t (if timeWait = .ticks then .ticks else .noTimeout)
    pc := Function.update e.pc t (.pending (timeWait = .ticks)) }

/-- The return of `TIMEOUT`. -/
def cancel : EventSys τ :=
  { e with
    osEventWaitList := e.osEventWaitList.erase (c.priority t)
    osEventWait := e.osEventWait - 1
    pc := Function.update e.pc t .running }

/-- The part of a pend after `ChangeContext`, if it does not return `TIMEOUT`. -/
def wake : EventSys τ :=
  { e with
    timeToWait :=
      if e.pc t = .pending true ∧ e.timeToWait t ≠ .exitByTimeout then
        Function.update e.timeToWait t .noTimeout
      else e.timeToWait
    pc := Function.update e.pc t .running }

/-- `OS_TICK_HANDLER` at the tick the task waits for. -/
def tick : EventSys τ :=
  { e with
    osReadyList := insert (c.priority t) e.osReadyList
    timeToWait := Function.update e.timeToWait t .exitByTimeout }

end

end EventSys

/-! ## The invariant -/

/-- The wait list has the bits of waiting tasks, and a waiting task may run only if it has been selected or
its time is over. -/
structure EventInv : Prop where
  count : e.osEventWait = e.osEventWaitList.card
  listed : ∀ p ∈ e.osEventWaitList, ∃ t, c.priority t = p ∧ e.pc t ≠ .running
  ready : ∀ t, e.Ready c t → c.priority t ∈ e.osEventWaitList → e.TimedOut c t
  forever : ∀ t, e.pc t = .pending false → e.timeToWait t ≠ .ticks

variable {c e t} {u : τ}

theorem eventInv_start (ready : Finset Nat) : EventInv c (EventSys.start ready) where
  count := rfl
  listed _ h := absurd h (Finset.notMem_empty _)
  ready _ _ h := absurd h (Finset.notMem_empty _)
  forever _ h := nomatch h

namespace EventInv

theorem pending_of_mem (i : EventInv c e) (h : c.priority t ∈ e.osEventWaitList) : e.pc t ≠ .running := by
  obtain ⟨u, hu, hpc⟩ := i.listed _ h
  rw [← c.installed u t hu]
  exact hpc

theorem not_mem_of_running (i : EventInv c e) (h : e.pc t = .running) :
    c.priority t ∉ e.osEventWaitList := fun hin => i.pending_of_mem hin h

theorem selected (i : EventInv c e) (hwait : e.osEventWait ≠ 0) :
    ∃ w, c.priority w = saScheduler e.osEventWaitList ∧ c.priority w ∈ e.osEventWaitList ∧
      e.pc w ≠ .running := by
  have hne : e.osEventWaitList.Nonempty := by
    rw [← Finset.card_pos, ← i.count]
    omega
  have hp := saScheduler_mem hne
  obtain ⟨w, hw, hpc⟩ := i.listed _ hp
  exact ⟨w, hw, hw.symm ▸ hp, hpc⟩

theorem select (i : EventInv c e) (hwait : e.osEventWait ≠ 0) : EventInv c e.select := by
  obtain ⟨w, hw, hin, hpc⟩ := i.selected hwait
  unfold EventSys.select
  rw [← hw]
  refine ⟨?_, fun p hp => ?_, fun t hr hl => ?_, i.forever⟩
  · dsimp only
    rw [Finset.card_erase_of_mem hin, i.count]
  · exact i.listed p (Finset.mem_of_mem_erase hp)
  · have hne := Finset.ne_of_mem_erase hl
    have hl := Finset.mem_of_mem_erase hl
    have h := i.ready t (Finset.mem_of_mem_insert_of_ne hr hne) hl
    exact ⟨h.1, h.2.1, Finset.mem_erase.mpr ⟨hne, hl⟩⟩

/-- A task that returns from `ChangeContext` has been selected by a post, or returns `TIMEOUT`. -/
theorem returns (i : EventInv c e) (hready : e.Ready c t) (hpc : e.pc t ≠ .running)
    (h : ¬ e.TimedOut c t) : e.Woken c t :=
  ⟨hpc, fun hl => h (i.ready t hready hl)⟩

variable [DecidableEq τ]

theorem suspend (i : EventInv c e) (hrun : e.pc t = .running) (timeWait : WaitTime) :
    EventInv c (e.suspend c t timeWait) := by
  have hnew := i.not_mem_of_running hrun
  have hpc : ∀ u, u ≠ t → (e.suspend c t timeWait).pc u = e.pc u := fun u hu => Function.update_of_ne hu _ _
  have htime : ∀ u, u ≠ t → (e.suspend c t timeWait).timeToWait u = e.timeToWait u :=
    fun u hu => Function.update_of_ne hu _ _
  have hself : (e.suspend c t timeWait).pc t = .pending (timeWait = .ticks) := Function.update_self _ _ _
  refine ⟨?_, fun p hp => ?_, fun u hr hl => ?_, fun u hu => ?_⟩
  · show e.osEventWait + 1 = (insert _ _ : Finset Nat).card
    rw [Finset.card_insert_of_notMem hnew, i.count]
  · rcases Finset.mem_insert.mp hp with rfl | hp
    · exact ⟨t, rfl, by rw [hself]; exact nofun⟩
    · obtain ⟨u, hu, h⟩ := i.listed p hp
      have hut : u ≠ t := by
        rintro rfl
        exact h hrun
      exact ⟨u, hu, by rwa [hpc u hut]⟩
  · -- the bit of `t` itself is not set in the ready list
    obtain ⟨hne, hr⟩ := Finset.mem_erase.mp hr
    have hut : u ≠ t := by
      rintro rfl
      exact hne rfl
    have h := i.ready u hr (Finset.mem_of_mem_insert_of_ne hl hne)
    exact ⟨(hpc u hut).trans h.1, (htime u hut).trans h.2.1, hl⟩
  · by_cases hut : u = t
    · rw [hut, hself] at hu
      have hb : ¬ timeWait = .ticks := by simpa using hu
      rw [hut]
      show Function.update _ t _ t ≠ _
      rw [Function.update_self, if_neg hb]
      exact nofun
    · rw [hpc u hut] at hu
      rw [htime u hut]
      exact i.forever u hu

theorem cancel (i : EventInv c e) (h : e.TimedOut c t) : EventInv c (e.cancel c t) := by
  have hpc : ∀ u, u ≠ t → (e.cancel c t).pc u = e.pc u := fun u hu => Function.update_of_ne hu _ _
  have hself : (e.cancel c t).pc t = .running := Function.update_self _ _ _
  have hne : ∀ u, c.priority u ∈ (e.cancel c t).osEventWaitList → u ≠ t := by
    rintro u hu rfl
    exact Finset.notMem_erase _ _ hu
  refine ⟨?_, fun p hp => ?_, fun u hr hl => ?_, fun u hu => ?_⟩
  · show e.osEventWait - 1 = (Finset.erase _ _).card
    rw [Finset.card_erase_of_mem h.2.2, i.count]
  · obtain ⟨u, rfl, hu⟩ := i.listed p (Finset.mem_of_mem_erase hp)
    exact ⟨u, rfl, by rwa [hpc u (hne u hp)]⟩
  · have h := i.ready u hr (Finset.mem_of_mem_erase hl)
    exact ⟨(hpc u (hne u hl)).trans h.1, h.2.1, hl⟩
  · by_cases hut : u = t
    · rw [hut, hself] at hu
      cases hu
    · exact i.forever u ((hpc u hut).symm.trans hu)

theorem wake (i : EventInv c e) (h : e.Woken c t) : EventInv c (e.wake t) := by
  have hpc : ∀ u, u ≠ t → (e.wake t).pc u = e.pc u := fun u hu => Function.update_of_ne hu _ _
  have hself : (e.wake t).pc t = .running := Function.update_self _ _ _
  have htime : ∀ u, u ≠ t → (e.wake t).timeToWait u = e.timeToWait u := by
    intro u hu
    unfold EventSys.wake
    dsimp only
    split
    · exact Function.update_of_ne hu _ _
    · rfl
  have hne : ∀ u, c.priority u ∈ e.osEventWaitList → u ≠ t := by
    rintro u hu rfl
    exact h.2 hu
  refine ⟨i.count, fun p hp => ?_, fun u hr hl => ?_, fun u hu => ?_⟩
  · obtain ⟨u, rfl, hu⟩ := i.listed p hp
    exact ⟨u, rfl, by rwa [hpc u (hne u hp)]⟩
  · have h := i.ready u hr hl
    exact ⟨(hpc u (hne u hl)).trans h.1, (htime u (hne u hl)).trans h.2.1, hl⟩
  · by_cases hut : u = t
    · rw [hut, hself] at hu
      cases hu
    · rw [htime u hut]
      exact i.forever u ((hpc u hut).symm.trans hu)

theorem tick (i : EventInv c e) (h : e.timeToWait t = .ticks) : EventInv c (e.tick c t) := by
  have htime : ∀ u, u ≠ t → (e.tick c t).timeToWait u = e.timeToWait u :=
    fun u hu => Function.update_of_ne hu _ _
  have hself : (e.tick c t).timeToWait t = .exitByTimeout := Function.update_self _ _ _
  refine ⟨i.count, i.listed, fun u hr hl => ?_, fun u hu => ?_⟩
  · by_cases hut : u = t
    · rw [hut] at hl ⊢
      refine ⟨?_, hself, hl⟩
      -- a wait without a limit is not in the delay list
      have hpc := i.pending_of_mem hl
      cases ht : e.pc t with
      | running => exact absurd ht hpc
      | pending b =>
        cases b with
        | false => exact absurd h (i.forever t ht)
        | true => exact ht
    · have hne : c.priority u ≠ c.priority t := fun he => hut (c.installed u t he)
      have h := i.ready u (Finset.mem_of_mem_insert_of_ne hr hne) hl
      exact ⟨h.1, (htime u hut).trans h.2.1, hl⟩
  · by_cases hut : u = t
    · rw [hut, hself]
      exact nofun
    · rw [htime u hut]
      exact i.forever u hu

end EventInv

/-! ## The selected tasks -/

section
variable [Fintype τ]

theorem mem_woken : t ∈ e.woken c ↔ e.Woken c t := by simp [EventSys.woken]

theorem woken_congr {e' : EventSys τ} (h : ∀ u, e'.Woken c u ↔ e.Woken c u) : e'.woken c = e.woken c := by
  ext u
  rw [mem_woken, mem_woken, h]

theorem EventInv.card_woken_select (i : EventInv c e) (hwait : e.osEventWait ≠ 0) :
    (e.select.woken c).card = (e.woken c).card + 1 := by
  classical
  obtain ⟨w, hw, hin, hpc⟩ := i.selected hwait
  have hnot : w ∉ e.woken c := fun h => (mem_woken.mp h).2 hin
  rw [← Finset.card_insert_of_notMem hnot]
  congr 1
  ext u
  rw [Finset.mem_insert, mem_woken, mem_woken]
  unfold EventSys.Woken EventSys.select
  dsimp only
  rw [← hw, Finset.mem_erase]
  by_cases hu : u = w
  · rw [hu]
    simp [hpc]
  · have hne : c.priority u ≠ c.priority w := fun he => hu (c.installed u w he)
    simp [hu, hne]

variable [DecidableEq τ]

theorem woken_suspend (hrun : e.pc t = .running) (timeWait : WaitTime) :
    (e.suspend c t timeWait).woken c = e.woken c := by
  refine woken_congr fun u => ?_
  unfold EventSys.Woken EventSys.suspend
  dsimp only
  by_cases hu : u = t
  · rw [hu]
    simp [hrun]
  · have hne : c.priority u ≠ c.priority t := fun he => hu (c.installed u t he)
    rw [Function.update_of_ne hu, Finset.mem_insert, or_iff_right hne]

theorem woken_cancel (h : e.TimedOut c t) : (e.cancel c t).woken c = e.woken c := by
  refine woken_congr fun u => ?_
  unfold EventSys.Woken EventSys.cancel
  dsimp only
  by_cases hu : u = t
  · rw [hu, Function.update_self]
    simp [h.2.2]
  · have hne : c.priority u ≠ c.priority t := fun he => hu (c.installed u t he)
    rw [Function.update_of_ne hu, Finset.mem_erase, and_iff_right hne]

theorem card_woken_wake (h : e.Woken c t) : ((e.wake t).woken c).card + 1 = (e.woken c).card := by
  have hwake : (e.wake t).woken c = (e.woken c).erase t := by
    ext u
    rw [Finset.mem_erase, mem_woken, mem_woken]
    unfold EventSys.Woken EventSys.wake
    dsimp only
    by_cases hu : u = t
    · rw [hu, Function.update_self]
      simp
    · rw [Function.update_of_ne hu]
      simp [hu]
  rw [hwake, Finset.card_erase_add_one (mem_woken.mpr h)]

theorem woken_tick : (e.tick c t).woken c = e.woken c := woken_congr fun _ => Iff.rfl

end

end Unet4Cooja
