import Unet4Cooja.Brtos.Install

/-!
# Creation and deletion of mutexes (`mutex.c`)

* `MutexBlock`, `MutexTableSys` : the control blocks, beside the variables of task installation;
* `osMutexCreate`, `osMutexDelete` : the functions;
* `CreationUndone` : a creation that fails changes nothing, and a deletion gives back what the creation has taken;
* `creationUndone_iff` : both hold only where no ceiling is taken;
* `priority_lost` : a ceiling that was taken is never given again.
-/

namespace Unet4Cooja
open Lib

abbrev brtosMaxMutex : Nat := 4

abbrev mutexPrio : U8 := 0xFE

abbrev availableResource : U8 := 11

/-- `BRTOS_Mutex`, with every field. -/
structure MutexBlock where
  osEventAllocated : Bool
  osEventState : U8
  osEventOwner : U8
  osMaxPriority : U8
  osOriginalPriority : U8
  osEventWait : U8
  osEventWaitList : U32
  deriving DecidableEq

/-- What `OSMutexDelete` leaves in a block. -/
def MutexBlock.cleared : MutexBlock := ⟨false, 0, 0, 0, 0, 0, 0⟩

/-- The variables of task installation, which have the priorities, with the mutexes. -/
structure MutexTableSys extends InstallSys where
  iNesting : U8
  brtosMutexTable : Nat → MutexBlock

/-- What `OSMutexCreate` returns; `ALLOC_EVENT_OK` with the block that is written to the handle. -/
inductive MutexCreateReturn
  | allocEventOk (i : Nat)
  | irqPendErr
  | busyPriority
  | noAvailableEvent
  deriving DecidableEq

inductive MutexDeleteReturn
  | deleteEventOk
  | irqPendErr
  deriving DecidableEq

namespace MutexTableSys
variable (s : MutexTableSys)

/-- The first block that is not allocated. -/
def freeBlock : Option Nat := firstBelow brtosMaxMutex fun i => !(s.brtosMutexTable i).osEventAllocated

/-- The priority is given to the mutex; 0 is no ceiling. -/
def takePriority (higherPriority : U8) : MutexTableSys :=
  if 0 < higherPriority then
    { s with priorityVector := Function.update s.priorityVector higherPriority.toNat mutexPrio }
  else s

def setBlock (i : Nat) (x : MutexBlock) : MutexTableSys :=
  { s with brtosMutexTable := Function.update s.brtosMutexTable i x }

def osMutexCreate (higherPriority : U8) : MutexCreateReturn × MutexTableSys :=
  if 0 < s.iNesting then (.irqPendErr, s)
  else if 0 < higherPriority ∧ s.priorityVector higherPriority.toNat ≠ emptyPrio then (.busyPriority, s)
  else
    -- the priority is taken before a block is looked for
    let s := s.takePriority higherPriority
    match s.freeBlock with
    | none => (.noAvailableEvent, s)
    | some i =>
      (.allocEventOk i, s.setBlock i { s.brtosMutexTable i with
        osEventAllocated := true
        osEventState := availableResource
        osEventWait := 0
        osMaxPriority := higherPriority
        osEventWaitList := 0 })

/-- `OSMutexDelete` of the mutex in the block `i`. -/
def osMutexDelete (i : Nat) : MutexDeleteReturn × MutexTableSys :=
  if 0 < s.iNesting then (.irqPendErr, s) else (.deleteEventOk, s.setBlock i .cleared)

end MutexTableSys

/-- The priorities and the blocks in use are those of `s`; what a free block holds does not count. -/
structure Restored (s t : MutexTableSys) : Prop where
  priorityVector : t.priorityVector = s.priorityVector
  allocated : ∀ i, (t.brtosMutexTable i).osEventAllocated = (s.brtosMutexTable i).osEventAllocated
  blocks : ∀ i, (s.brtosMutexTable i).osEventAllocated = true → t.brtosMutexTable i = s.brtosMutexTable i

def MutexTableSys.createDelete (s : MutexTableSys) (higherPriority : U8) (i : Nat) : MutexTableSys :=
  ((s.osMutexCreate higherPriority).2.osMutexDelete i).2

/-- A creation that returns an error changes nothing. After a creation and a deletion all is as it was, so that the
ceiling can be given to a mutex or a task again. -/
structure CreationUndone (s : MutexTableSys) (higherPriority : U8) : Prop where
  failed : (∀ i, (s.osMutexCreate higherPriority).1 ≠ .allocEventOk i) →
    (s.osMutexCreate higherPriority).2.priorityVector = s.priorityVector ∧
      (s.osMutexCreate higherPriority).2.brtosMutexTable = s.brtosMutexTable
  deleted : ∀ i, (s.osMutexCreate higherPriority).1 = .allocEventOk i →
    Restored s (s.createDelete higherPriority i)
  mutex : ∀ i, (s.osMutexCreate higherPriority).1 = .allocEventOk i →
    ((s.createDelete higherPriority i).osMutexCreate higherPriority).1 = .allocEventOk i
  task : ∀ i, (s.osMutexCreate higherPriority).1 = .allocEventOk i → ∀ idle fctPtr,
    (s.createDelete higherPriority i).priorityError idle fctPtr higherPriority ≠ some .busyPriority

section
variable {s t : MutexTableSys} {higherPriority : U8} {i : Nat}

theorem ceiling_pos (h : higherPriority ≠ 0) : 0 < higherPriority := by bv_omega

/-! ## One creation -/

namespace MutexTableSys

theorem takePriority_zero : s.takePriority 0 = s := rfl

theorem takePriority_table : (s.takePriority higherPriority).brtosMutexTable = s.brtosMutexTable := by
  unfold takePriority
  split <;> rfl

theorem takePriority_iNesting : (s.takePriority higherPriority).iNesting = s.iNesting := by
  unfold takePriority
  split <;> rfl

theorem takePriority_self (h : 0 < higherPriority) :
    (s.takePriority higherPriority).priorityVector higherPriority.toNat = mutexPrio := by
  unfold takePriority
  rw [if_pos h]
  exact Function.update_self _ _ _

theorem freeBlock_congr (h : ∀ j, (t.brtosMutexTable j).osEventAllocated = (s.brtosMutexTable j).osEventAllocated) :
    t.freeBlock = s.freeBlock :=
  firstBelow_congr fun j _ => by rw [h j]

theorem takePriority_freeBlock (s : MutexTableSys) (higherPriority : U8) :
    (s.takePriority higherPriority).freeBlock = s.freeBlock :=
  freeBlock_congr fun j => by rw [takePriority_table]

theorem freeBlock_free (h : s.freeBlock = some i) : (s.brtosMutexTable i).osEventAllocated = false := by
  obtain ⟨-, hfree, -⟩ := firstBelow_eq_some.mp h
  simpa using hfree

/-- The calls that come to the search. -/
def Admits (s : MutexTableSys) (higherPriority : U8) : Prop :=
  ¬ 0 < s.iNesting ∧ (0 < higherPriority → s.priorityVector higherPriority.toNat = emptyPrio)

theorem osMutexCreate_refused (h : ¬ s.Admits higherPriority) :
    (∀ i, (s.osMutexCreate higherPriority).1 ≠ .allocEventOk i) ∧ (s.osMutexCreate higherPriority).2 = s := by
  unfold osMutexCreate
  by_cases hn : 0 < s.iNesting
  · rw [if_pos hn]
    exact ⟨fun i e => (nomatch e), rfl⟩
  · have hbusy : 0 < higherPriority ∧ s.priorityVector higherPriority.toNat ≠ emptyPrio := by
      by_contra hc
      exact h ⟨hn, fun hp => by_contra fun hv => hc ⟨hp, hv⟩⟩
    rw [if_neg hn, if_pos hbusy]
    exact ⟨fun i e => (nomatch e), rfl⟩

theorem osMutexCreate_full (h : s.Admits higherPriority) (hfull : s.freeBlock = none) :
    s.osMutexCreate higherPriority = (.noAvailableEvent, s.takePriority higherPriority) := by
  have hsearch : (s.takePriority higherPriority).freeBlock = none := (takePriority_freeBlock s _).trans hfull
  unfold osMutexCreate
  rw [if_neg h.1, if_neg fun hc => hc.2 (h.2 hc.1)]
  simp only [hsearch]

theorem osMutexCreate_free (h : s.Admits higherPriority) (hfree : s.freeBlock = some i) :
    (s.osMutexCreate higherPriority).1 = .allocEventOk i ∧
      s.createDelete higherPriority i = (s.takePriority higherPriority).setBlock i .cleared := by
  have hsearch : (s.takePriority higherPriority).freeBlock = some i := (takePriority_freeBlock s _).trans hfree
  have hnesting : ¬ 0 < (s.takePriority higherPriority).iNesting := by
    rw [takePriority_iNesting]
    exact h.1
  unfold createDelete osMutexCreate
  rw [if_neg h.1, if_neg fun hc => hc.2 (h.2 hc.1)]
  simp only [hsearch]
  refine ⟨trivial, ?_⟩
  unfold osMutexDelete
  rw [if_neg (show ¬ 0 < ((s.takePriority higherPriority).setBlock i _).iNesting from hnesting)]
  unfold setBlock
  simp only [Function.update_idem]

theorem osMutexCreate_ok (h : (s.osMutexCreate higherPriority).1 = .allocEventOk i) :
    s.Admits higherPriority ∧ s.freeBlock = some i := by
  have hadm : s.Admits higherPriority := by
    by_contra hno
    exact (osMutexCreate_refused hno).1 i h
  refine ⟨hadm, ?_⟩
  cases hfree : s.freeBlock with
  | none =>
    rw [osMutexCreate_full hadm hfree] at h
    exact nomatch h
  | some j =>
    rw [(osMutexCreate_free hadm hfree).1] at h
    exact congrArg some (MutexCreateReturn.allocEventOk.inj h)

end MutexTableSys

open MutexTableSys

/-! ## What is given back -/

theorem Restored.setBlock (h : (s.brtosMutexTable i).osEventAllocated = false) :
    Restored s (s.setBlock i .cleared) where
  priorityVector := rfl
  allocated j := by
    show (Function.update s.brtosMutexTable i .cleared j).osEventAllocated = _
    by_cases hj : j = i
    · rw [hj, Function.update_self, h]
      rfl
    · rw [Function.update_of_ne hj]
  blocks j hused := by
    have hj : j ≠ i := by
      rintro rfl
      exact absurd (h.symm.trans hused) Bool.false_ne_true
    exact Function.update_of_ne hj _ _

/-- A ceiling that was taken stays taken after the deletion: no mutex gets it, and no task. -/
theorem priority_lost (hp : 0 < higherPriority) (hlimit : higherPriority.toNat ≤ configMaxTaskPriority)
    (h : (s.osMutexCreate higherPriority).1 = .allocEventOk i) :
    ((s.createDelete higherPriority i).osMutexCreate higherPriority).1 = .busyPriority ∧
      ∀ idle fctPtr,
        (s.createDelete higherPriority i).priorityError idle fctPtr higherPriority = some .busyPriority := by
  obtain ⟨hadm, hfree⟩ := osMutexCreate_ok h
  obtain ⟨-, hend⟩ := osMutexCreate_free hadm hfree
  have hvector : (s.createDelete higherPriority i).priorityVector higherPriority.toNat ≠ emptyPrio := by
    rw [hend]
    show (s.takePriority higherPriority).priorityVector higherPriority.toNat ≠ emptyPrio
    rw [takePriority_self hp]
    decide
  have hnesting : ¬ 0 < (s.createDelete higherPriority i).iNesting := by
    rw [hend]
    show ¬ 0 < (s.takePriority higherPriority).iNesting
    rw [takePriority_iNesting]
    exact hadm.1
  constructor
  · unfold osMutexCreate
    rw [if_neg hnesting, if_pos ⟨hp, hvector⟩]
  · intro idle fctPtr
    have hne : higherPriority ≠ 0 := by
      rintro rfl
      exact absurd hp (by decide)
    unfold InstallSys.priorityError
    rw [if_pos hne, if_neg (Nat.not_lt.mpr hlimit), if_pos hvector]

theorem CreationUndone.of_refused (h : ¬ s.Admits higherPriority) : CreationUndone s higherPriority := by
  obtain ⟨hfail, hsame⟩ := osMutexCreate_refused h
  refine ⟨fun _ => ?_, fun i e => absurd e (hfail i), fun i e => absurd e (hfail i), fun i e => absurd e (hfail i)⟩
  rw [hsame]
  exact ⟨rfl, rfl⟩

theorem CreationUndone.of_zero (s : MutexTableSys) : CreationUndone s 0 where
  failed hfail := by
    by_cases hadm : s.Admits 0
    · cases hfree : s.freeBlock with
      | none =>
        rw [osMutexCreate_full hadm hfree, takePriority_zero]
        exact ⟨rfl, rfl⟩
      | some i => exact absurd (osMutexCreate_free hadm hfree).1 (hfail i)
    · rw [(osMutexCreate_refused hadm).2]
      exact ⟨rfl, rfl⟩
  deleted i h := by
    obtain ⟨hadm, hfree⟩ := osMutexCreate_ok h
    rw [(osMutexCreate_free hadm hfree).2, takePriority_zero]
    exact .setBlock (freeBlock_free hfree)
  mutex i h := by
    obtain ⟨hadm, hfree⟩ := osMutexCreate_ok h
    have hagain : (s.createDelete 0 i).freeBlock = some i := by
      rw [(osMutexCreate_free hadm hfree).2, takePriority_zero,
        freeBlock_congr (Restored.setBlock (freeBlock_free hfree)).allocated, hfree]
    refine (osMutexCreate_free ⟨?_, fun hp => absurd hp (by decide)⟩ hagain).1
    rw [(osMutexCreate_free hadm hfree).2, takePriority_zero]
    exact hadm.1
  task i h idle fctPtr := by
    unfold InstallSys.priorityError
    rw [if_neg (not_not_intro rfl)]
    split <;> exact fun e => nomatch e

/-- What a creation takes is given back if and only if it takes no ceiling: in an interrupt, with the priority 0, or
with a priority that is not free. -/
theorem creationUndone_iff (s : MutexTableSys) (higherPriority : U8) :
    CreationUndone s higherPriority ↔
      0 < s.iNesting ∨ higherPriority = 0 ∨ s.priorityVector higherPriority.toNat ≠ emptyPrio := by
  constructor
  · intro h
    by_contra hno
    obtain ⟨hnesting, hzero, hempty⟩ : ¬ 0 < s.iNesting ∧ higherPriority ≠ 0 ∧
        s.priorityVector higherPriority.toNat = emptyPrio := by
      simpa only [not_or, not_not] using hno
    have hp : 0 < higherPriority := ceiling_pos hzero
    have hadm : s.Admits higherPriority := ⟨hnesting, fun _ => hempty⟩
    have htaken := takePriority_self (s := s) hp
    cases hfree : s.freeBlock with
    | none =>
      -- no block is free, and the priority has been taken
      obtain ⟨hvector, -⟩ := h.failed fun i e => by
        rw [osMutexCreate_full hadm hfree] at e
        exact nomatch e
      rw [osMutexCreate_full hadm hfree] at hvector
      rw [hvector, hempty] at htaken
      exact absurd htaken (by decide)
    | some i =>
      obtain ⟨hok, hend⟩ := osMutexCreate_free hadm hfree
      have hvector := (h.deleted i hok).priorityVector
      rw [hend] at hvector
      have hsame : (s.takePriority higherPriority).priorityVector = s.priorityVector := hvector
      rw [hsame, hempty] at htaken
      exact absurd htaken (by decide)
  · rintro (hnesting | rfl | hbusy)
    · exact .of_refused fun hadm => hadm.1 hnesting
    · exact .of_zero s
    · by_cases hzero : higherPriority = 0
      · rw [hzero]
        exact .of_zero s
      · exact .of_refused fun hadm => hbusy (hadm.2 (ceiling_pos hzero))

end

/-- The tables after `PreInstallTasks`, with no mutex. -/
def noMutexes : MutexTableSys where
  toInstallSys := clearedVariables.preInstallTasks 0x1C00
  iNesting := 0
  brtosMutexTable _ := .cleared

/-- Two mutexes with the ceiling 20, one after the other, are refused. -/
theorem creationUndone_fails : ¬ ∀ (s : MutexTableSys) (higherPriority : U8), higherPriority.toNat ≤ 31 →
    CreationUndone s higherPriority := by
  intro h
  have hok : (noMutexes.osMutexCreate 20).1 = .allocEventOk 0 := by decide +kernel
  have hagain := (h noMutexes 20 (by decide)).mutex 0 hok
  have hbusy : ((noMutexes.createDelete 20 0).osMutexCreate 20).1 = .busyPriority := by decide +kernel
  exact nomatch hagain.symm.trans hbusy

end Unet4Cooja
