import Unet4Cooja.Brtos.Scheduler
import Unet4Cooja.Brtos.Semaphore
import Unet4Cooja.Lib.ForRange
import Unet4Cooja.Lib.Returns

/-!
# Binary semaphores (`semaphore.c`)

* `SemBlock`, `SemTableSys` : the control blocks;
* `osSemBinaryCreate`, `osSemPost`, `osSemPend` : the functions, with calls of `OSSemPend` that do not block;
* `binarySem` : a binary semaphore as such;
* `FullIs` : the block holds what the semaphore does, which each call keeps;
* `binarySem_iff` : the calls return the same, unless the first one is a pend of a semaphore created with the bit 1;
* `binarySem_fails` : then it is empty.
-/

namespace Unet4Cooja
open Lib

abbrev brtosMaxSem : Nat := 15 + 4

/-- `BRTOS_Sem`, with every field. -/
structure SemBlock where
  osEventAllocated : Bool
  osEventCount : U8
  osEventWait : U8
  binary : Bool
  osEventWaitList : U32
  deriving DecidableEq

structure SemTableSys where
  iNesting : U8
  osReadyList : U32
  brtosSemTable : Nat → SemBlock

/-- What `OSSemBinaryCreate` returns; `ALLOC_EVENT_OK` with the block that is written to the handle. -/
inductive SemCreateReturn
  | allocEventOk (i : Nat)
  | irqPendErr
  | noAvailableEvent
  deriving DecidableEq

namespace SemTableSys
variable (s : SemTableSys)

/-- The first block that is not allocated. -/
def freeBlock : Option Nat := firstBelow brtosMaxSem fun i => !(s.brtosSemTable i).osEventAllocated

def setBlock (i : Nat) (x : SemBlock) : SemTableSys :=
  { s with brtosSemTable := Function.update s.brtosSemTable i x }

@[simp] theorem setBlock_brtosSemTable (i : Nat) (x : SemBlock) : (s.setBlock i x).brtosSemTable i = x := by
  show Function.update s.brtosSemTable i x i = x
  rw [Function.update_self]

def osSemBinaryCreate (bit : U8) : SemCreateReturn × SemTableSys :=
  if 0 < s.iNesting then (.irqPendErr, s)
  else
    match s.freeBlock with
    | none => (.noAvailableEvent, s)
    | some i =>
      (.allocEventOk i, s.setBlock i
        { osEventAllocated := true
          osEventCount := if 1 < bit then 1 else 0
          osEventWait := 0
          binary := true
          osEventWaitList := 0 })

/-- `OSSemPost` of the semaphore in the block `i`. -/
def osSemPost (i : Nat) : SemReturn × SemTableSys :=
  let x := s.brtosSemTable i
  if x.osEventWait ≠ 0 then
    let priorityMask := (1 : U32) <<< (Scheduler.saScheduler x.osEventWaitList).toNat
    (.ok, { s.setBlock i { x with
        osEventWaitList := x.osEventWaitList &&& ~~~priorityMask
        osEventWait := x.osEventWait - 1 } with
      osReadyList := s.osReadyList ||| priorityMask })
  else if x.osEventCount < 255 then
    (.ok, s.setBlock i { x with osEventCount := if x.binary = false then x.osEventCount + 1 else 1 })
  else (.errSemOvf, s)

/-- `OSSemPend` of the semaphore in the block `i` with `NO_TIMEOUT`. -/
def osSemPend (i : Nat) : SemReturn × SemTableSys :=
  let x := s.brtosSemTable i
  if 0 < x.osEventCount then (.ok, s.setBlock i { x with osEventCount := x.osEventCount - 1 })
  else (.exitByNoEntryAvailable, s)

end SemTableSys

inductive SemCall
  | post | pend
  deriving DecidableEq

def semCall (i : Nat) (s : SemTableSys) : SemCall → SemReturn × SemTableSys
  | .post => s.osSemPost i
  | .pend => s.osSemPend i

/-! ## The semaphore as such -/

/-- A post fills the semaphore, a pend empties it if it is full. -/
def binarySem (full : Bool) : SemCall → SemReturn × Bool
  | .post => (.ok, true)
  | .pend => (if full then .ok else .exitByNoEntryAvailable, false)

/-- A semaphore that starts full and one that starts empty can only be told apart at once. -/
theorem returns_binarySem_iff (full full' : Bool) (calls : List SemCall) :
    returns binarySem full calls = returns binarySem full' calls ↔ full = full' ∨ calls.head? ≠ some .pend := by
  cases calls with
  | nil => simp [returns]
  | cons a calls =>
    cases a with
    | post => simp [returns, binarySem]
    | pend => cases full <;> cases full' <;> simp [returns, binarySem]

/-! ## The block -/

/-- The block is that of a binary semaphore for which nobody waits. -/
structure FullIs (i : Nat) (s : SemTableSys) (full : Bool) : Prop where
  binary : (s.brtosSemTable i).binary = true
  osEventWait : (s.brtosSemTable i).osEventWait = 0
  osEventCount : (s.brtosSemTable i).osEventCount = if full then 1 else 0

section
variable {s : SemTableSys} {i : Nat} {full : Bool}

theorem FullIs.setCount (h : FullIs i s full) (full' : Bool) :
    FullIs i (s.setBlock i { s.brtosSemTable i with osEventCount := if full' then 1 else 0 }) full' :=
  ⟨by simp [h.binary], by simp [h.osEventWait], by simp⟩

theorem FullIs.post (h : FullIs i s full) : (s.osSemPost i).1 = .ok ∧ FullIs i (s.osSemPost i).2 true := by
  have hlt : (s.brtosSemTable i).osEventCount < 255 := by
    rw [h.osEventCount]
    cases full <;> decide
  have hbinary : ¬ (s.brtosSemTable i).binary = false := by
    rw [h.binary]
    decide
  unfold SemTableSys.osSemPost
  dsimp only
  rw [if_neg (not_not_intro h.osEventWait), if_pos hlt, if_neg hbinary]
  exact ⟨rfl, h.setCount true⟩

theorem FullIs.pend (h : FullIs i s full) :
    (s.osSemPend i).1 = (if full then .ok else .exitByNoEntryAvailable) ∧ FullIs i (s.osSemPend i).2 false := by
  unfold SemTableSys.osSemPend
  dsimp only
  cases full with
  | false =>
    rw [h.osEventCount]
    exact ⟨rfl, h⟩
  | true =>
    rw [h.osEventCount]
    exact ⟨rfl, h.setCount false⟩

theorem FullIs.call (h : FullIs i s full) (a : SemCall) :
    (semCall i s a).1 = (binarySem full a).1 ∧ FullIs i (semCall i s a).2 (binarySem full a).2 := by
  cases a with
  | post => exact h.post
  | pend => exact h.pend

theorem fullIs_osSemBinaryCreate {bit : U8} (h : (s.osSemBinaryCreate bit).1 = .allocEventOk i) :
    FullIs i (s.osSemBinaryCreate bit).2 (decide (1 < bit)) := by
  unfold SemTableSys.osSemBinaryCreate at h ⊢
  split at h
  · cases h
  · rename_i hnest
    rw [if_neg hnest]
    cases hfree : s.freeBlock with
    | none =>
      rw [hfree] at h
      cases h
    | some j =>
      rw [hfree] at h
      cases h
      exact ⟨by simp, by simp, by simp⟩

end

/-- The calls for a semaphore of `OSSemBinaryCreate(bit)` return what those for a binary semaphore do that is full if
the bit is not 0, if and only if the bit is not 1 or the first call is not a pend. -/
theorem binarySem_iff (s : SemTableSys) (bit : U8) (i : Nat) (hcreate : (s.osSemBinaryCreate bit).1 = .allocEventOk i)
    (calls : List SemCall) :
    returns (semCall i) (s.osSemBinaryCreate bit).2 calls = returns binarySem (decide (bit ≠ 0)) calls ↔
      bit ≠ 1 ∨ calls.head? ≠ some .pend := by
  have hcode : returns (semCall i) (s.osSemBinaryCreate bit).2 calls = returns binarySem (decide (1 < bit)) calls :=
    returns_eq_of_simulation (R := FullIs i) (fun _ _ a h => h.call a) (fullIs_osSemBinaryCreate hcreate) calls
  have hbit : decide (1 < bit) = decide (bit ≠ 0) ↔ bit ≠ 1 := by
    rw [decide_eq_decide]
    bv_omega
  rw [hcode, returns_binarySem_iff, hbit]

def noSemaphores : SemTableSys := ⟨0, 0, fun _ => ⟨false, 0, 0, false, 0⟩⟩

theorem binarySem_iff_two :
    (noSemaphores.osSemBinaryCreate 2).1 = .allocEventOk 0 ∧
      (returns (semCall 0) (noSemaphores.osSemBinaryCreate 2).2 [.pend, .pend, .post] =
          returns binarySem (decide ((2 : U8) ≠ 0)) [.pend, .pend, .post] ↔
        (2 : U8) ≠ 1 ∨ [SemCall.pend, .pend, .post].head? ≠ some .pend) :=
  ⟨by decide, binarySem_iff noSemaphores 2 0 (by decide) [.pend, .pend, .post]⟩

/-- With the bit 1 the semaphore is empty. -/
theorem binarySem_fails : ¬ ∀ (s : SemTableSys) (bit : U8) (i : Nat),
    (s.osSemBinaryCreate bit).1 = .allocEventOk i → ∀ calls : List SemCall,
      returns (semCall i) (s.osSemBinaryCreate bit).2 calls = returns binarySem (decide (bit ≠ 0)) calls := by
  intro h
  have hpend := h noSemaphores 1 0 (by decide) [.pend]
  exact absurd hpend (by decide)

end Unet4Cooja
