import Unet4Cooja.Brtos.Queue
import Unet4Cooja.Lib.Returns

/-!
# Queues as ring buffers (`queue.c`)

* `OsQueue.load`, `OsQueue.store` : accesses through the pointers of the queue, which fail outside of its buffer;
* `OsQueue.osWQueue`, `OsQueue.osRQueue` : the functions that do not wait;
* `BufferCall`, `bufferCall` : their calls, with `OSQueueClean`; `fifo` : a bounded FIFO;
* `OsQueue.Holds.write`, `OsQueue.Holds.read` : in a queue that holds a list each function does to the list what
  the FIFO does, and stays inside of the buffer;
* `ringQueue_returns` : any calls return what the FIFO returns.
-/

namespace Unet4Cooja
open Lib

/-- An access through a pointer with this offset from `OSQStart`, outside of the buffer. -/
structure OutsideBuffer where
  offset : Nat
  deriving DecidableEq

/-- What the functions return; `READ_BUFFER_OK` with the byte that is stored at `pdata`. -/
inductive BufferReturn
  | writeBufferOk
  | bufferUnderrun
  | readBufferOk (data : U8)
  | noEntryAvailable
  | cleanBufferOk
  deriving DecidableEq

namespace OsQueue

/-- The fields after `OSQueueCreate`, for a size that is rounded up to `OS_CPU_TYPE`; the bytes are what is found
in `QUEUE_STACK`. -/
def create (size : U16) (bytes : Nat → U8) : OsQueue :=
  { osqSize := size, osqEntries := 0, osqIn := 0, osqOut := 0, bytes := bytes }

variable (q : OsQueue)

def load (p : Nat) : Except OutsideBuffer U8 :=
  if p < q.osqSize.toNat then .ok (q.bytes p) else .error ⟨p⟩

def store (p : Nat) (data : U8) : Except OutsideBuffer OsQueue :=
  if p < q.osqSize.toNat then .ok { q with bytes := Function.update q.bytes p data } else .error ⟨p⟩

def osWQueue (data : U8) : Except OutsideBuffer (BufferReturn × OsQueue) :=
  if q.osqEntries < q.osqSize then do
    let q := { q with osqEntries := q.osqEntries + 1 }
    let q := { q with osqIn := Ring.slot q.osqSize.toNat q.osqIn }
    let q ← q.store q.osqIn data
    pure (.writeBufferOk, { q with osqIn := q.osqIn + 1 })
  else pure (.bufferUnderrun, q)

def osRQueue : Except OutsideBuffer (BufferReturn × OsQueue) :=
  if 0 < q.osqEntries then do
    let q := { q with osqOut := Ring.slot q.osqSize.toNat q.osqOut }
    let data ← q.load q.osqOut
    pure (.readBufferOk data, { q with osqOut := q.osqOut + 1, osqEntries := q.osqEntries - 1 })
  else pure (.noEntryAvailable, q)

end OsQueue

inductive BufferCall
  | write (data : U8)
  | read
  | clean
  deriving DecidableEq

def bufferCall (q : OsQueue) : BufferCall → Except OutsideBuffer (BufferReturn × OsQueue)
  | .write data => q.osWQueue data
  | .read => q.osRQueue
  | .clean => pure (.cleanBufferOk, q.clean)

/-! ## The FIFO -/

/-- A FIFO of at most `capacity` bytes. -/
def fifo (capacity : Nat) (xs : List U8) : BufferCall → BufferReturn × List U8
  | .write data => if xs.length < capacity then (.writeBufferOk, xs ++ [data]) else (.bufferUnderrun, xs)
  | .read =>
    match xs with
    | [] => (.noEntryAvailable, [])
    | x :: xs => (.readBufferOk x, xs)
  | .clean => (.cleanBufferOk, [])

section
variable {capacity : Nat} {xs : List U8} {data : U8}

theorem fifo_write_of_lt (h : xs.length < capacity) :
    fifo capacity xs (.write data) = (.writeBufferOk, xs ++ [data]) := if_pos h

theorem fifo_write_of_not_lt (h : ¬ xs.length < capacity) :
    fifo capacity xs (.write data) = (.bufferUnderrun, xs) := if_neg h

end

/-! ## The calls -/

namespace OsQueue
variable {q : OsQueue} {xs : List U8}

theorem Holds.write (h : q.Holds xs) (data : U8) :
    ∃ q', q.osWQueue data = .ok ((fifo q.osqSize.toNat xs (.write data)).1, q') ∧
      q'.osqSize = q.osqSize ∧ q'.Holds (fifo q.osqSize.toNat xs (.write data)).2 := by
  have hlen : q.osqEntries < q.osqSize ↔ xs.length < q.osqSize.toNat := by rw [BitVec.lt_def, h.2]
  unfold osWQueue
  by_cases hspace : xs.length < q.osqSize.toNat
  · have hslot : Ring.slot q.osqSize.toNat q.osqIn < q.osqSize.toNat := Ring.slot_lt h.1.inp_le (by omega)
    rw [fifo_write_of_lt hspace, if_pos (hlen.mpr hspace)]
    refine ⟨q.put data, ?_, rfl, h.put (hlen.mpr hspace) data⟩
    simp only [store, if_pos hslot]
    rfl
  · rw [fifo_write_of_not_lt hspace, if_neg (mt hlen.mp hspace)]
    exact ⟨q, rfl, rfl, h⟩

theorem Holds.read (h : q.Holds xs) :
    ∃ q', q.osRQueue = .ok ((fifo q.osqSize.toNat xs .read).1, q') ∧
      q'.osqSize = q.osqSize ∧ q'.Holds (fifo q.osqSize.toNat xs .read).2 := by
  have hlen : 0 < q.osqEntries ↔ 0 < xs.length := by
    rw [BitVec.lt_def, h.2]
    rfl
  unfold osRQueue
  cases xs with
  | nil =>
    refine ⟨q, ?_, rfl, h⟩
    rw [if_neg (mt hlen.mp (Nat.lt_irrefl 0))]
    rfl
  | cons x xs =>
    have hfits : xs.length + 1 ≤ q.osqSize.toNat := h.1.fits
    have hslot : Ring.slot q.osqSize.toNat q.osqOut < q.osqSize.toNat := Ring.slot_lt h.1.out_le (by omega)
    have hpos : 0 < q.osqEntries := hlen.mpr (Nat.succ_pos _)
    obtain ⟨ys, hxs, hys⟩ := h.take hpos
    obtain ⟨hx, rfl⟩ := List.cons.inj hxs
    refine ⟨q.take.2, ?_, rfl, hys⟩
    rw [if_pos hpos]
    simp only [load, if_pos hslot]
    show _ = Except.ok (BufferReturn.readBufferOk x, q.take.2)
    rw [hx]
    rfl

/-- What the queue holds, in a buffer of this size. -/
def Models (size : U16) (q : OsQueue) (xs : List U8) : Prop := q.osqSize = size ∧ q.Holds xs

theorem Models.call {size : U16} (h : Models size q xs) (a : BufferCall) :
    ∃ q', bufferCall q a = .ok ((fifo size.toNat xs a).1, q') ∧ Models size q' (fifo size.toNat xs a).2 := by
  obtain ⟨rfl, h⟩ := h
  cases a with
  | write data => exact h.write data
  | read => exact h.read
  | clean => exact ⟨q.clean, rfl, rfl, holds_clean q⟩

end OsQueue

theorem osQueueCreate_queue {τ : Type*} (size : U16) (bytes : Nat → U8) (ready : Finset Nat) :
    (osQueueCreate size bytes ready : QueueSys τ).queue = OsQueue.create size bytes := rfl

/-- Any writes, reads and cleans return what a FIFO of this size returns, and no pointer leaves the buffer. -/
theorem ringQueue_returns (size : U16) (bytes : Nat → U8) (calls : List BufferCall) :
    tryReturns bufferCall (OsQueue.create size bytes) calls = .ok (returns (fifo size.toNat) [] calls) := by
  apply tryReturns_of_simulation (R := OsQueue.Models size) fun q xs a h => h.call a
  exact ⟨rfl, Ring.holds_nil _ (Nat.zero_le _), rfl⟩

end Unet4Cooja
