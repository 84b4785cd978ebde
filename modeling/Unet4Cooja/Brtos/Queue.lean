import Unet4Cooja.Brtos.Event
import Unet4Cooja.Lib.Ring
import Unet4Cooja.Lib.Runs
import Unet4Cooja.Packet

/-!
# Queues (`queue.c`)

* `OsQueue` : `OS_QUEUE`; `OsQueue.Holds` : it holds a list of bytes;
* `QueueSys`, `osQueuePend`, `osQueuePendResumed`, `osQueuePost`, `osQueueClean` : a queue that tasks wait for,
  and its operations;
* `QueueAct`, `queueStep` : the interleavings;
* `noteQueue` : the observer of the bytes that were posted and returned;
* `intact_of_runs` : while every reader a post has woken up finds a byte, no byte is doubled or invented;
* `intact_fails` : another reader takes the byte before the woken one runs.
-/

namespace Unet4Cooja
open Lib

/-! ## The buffer -/

/-- `OS_QUEUE`; the pointers are offsets from `OSQStart`. -/
structure OsQueue where
  osqSize : U16
  osqEntries : U16
  osqIn : Nat
  osqOut : Nat
  bytes : Nat → U8

namespace OsQueue
variable (q : OsQueue)

def put (data : U8) : OsQueue :=
  let osqIn := Ring.slot q.osqSize.toNat q.osqIn
  { q with
    osqEntries := q.osqEntries + 1
    bytes := Function.update q.bytes osqIn data
    osqIn := osqIn + 1 }

def take : U8 × OsQueue :=
  let osqOut := Ring.slot q.osqSize.toNat q.osqOut
  (q.bytes osqOut, { q with osqOut := osqOut + 1, osqEntries := q.osqEntries - 1 })

/-- `OSQueueClean`. -/
def clean : OsQueue := { q with osqEntries := 0, osqIn := 0, osqOut := 0 }

/-- The queue holds the bytes `xs`. -/
def Holds (xs : List U8) : Prop :=
  Ring.Holds q.osqSize.toNat q.bytes q.osqIn q.osqOut xs ∧ q.osqEntries.toNat = xs.length

variable {q} {xs : List U8}

theorem Holds.le (h : q.Holds xs) : q.osqEntries.toNat ≤ q.osqSize.toNat := h.2 ▸ h.1.fits

theorem Holds.put (h : q.Holds xs) (hspace : q.osqEntries < q.osqSize) (data : U8) :
    (q.put data).Holds (xs ++ [data]) := by
  have hlt : q.osqEntries.toNat < q.osqSize.toNat := BitVec.lt_def.mp hspace
  refine ⟨h.1.write (h.2 ▸ hlt) data, ?_⟩
  rw [List.length_append, List.length_singleton, ← h.2]
  show (q.osqEntries + 1).toNat = _
  bv_omega

theorem Holds.take (h : q.Holds xs) (hpos : 0 < q.osqEntries) :
    ∃ ys, xs = q.take.1 :: ys ∧ q.take.2.Holds ys := by
  have hlt : 0 < q.osqEntries.toNat := BitVec.lt_def.mp hpos
  obtain ⟨ys, hxs, hys⟩ := h.1.read_pos (h.2 ▸ hlt)
  refine ⟨ys, hxs, hys, ?_⟩
  have hlen : q.osqEntries.toNat = ys.length + 1 := by
    rw [h.2, hxs, List.length_cons]
  show (q.osqEntries - 1).toNat = _
  bv_omega

theorem holds_clean (q : OsQueue) : q.clean.Holds [] := ⟨Ring.holds_nil _ (Nat.zero_le _), rfl⟩

end OsQueue

/-! ## The queue with its readers -/

structure QueueSys (τ : Type*) extends EventSys τ where
  queue : OsQueue

inductive QueueReturn
  | readBufferOk (data : U8)
  | timeout
  | exitByNoEntryAvailable
  deriving DecidableEq

inductive QueuePostReturn
  | writeBufferOk | bufferUnderrun
  deriving DecidableEq

variable {τ : Type*}

/-- `OSQueueCreate(size)`, with the tasks of the priorities `ready` installed. -/
def osQueueCreate (size : U16) (bytes : Nat → U8) (ready : Finset Nat) : QueueSys τ :=
  { EventSys.start ready with
    queue := { osqSize := size, osqEntries := 0, osqIn := 0, osqOut := 0, bytes := bytes } }

section
variable [DecidableEq τ] (c : TaskPriorities τ) (s : QueueSys τ) (t : τ)

/-- `OSQueuePost`, by a task or an interrupt. -/
def osQueuePost (data : U8) : QueuePostReturn × QueueSys τ :=
  if s.queue.osqEntries < s.queue.osqSize then
    let s := { s with queue := s.queue.put data }
    (.writeBufferOk, if s.osEventWait ≠ 0 then { s with toEventSys := s.select } else s)
  else (.bufferUnderrun, s)

/-- `OSQueuePend` by the task `t`, up to `ChangeContext` if it has to wait. -/
def osQueuePend (timeWait : WaitTime) : Option QueueReturn × QueueSys τ :=
  if 0 < s.queue.osqEntries then (some (.readBufferOk s.queue.take.1), { s with queue := s.queue.take.2 })
  else if timeWait = .noTimeout then (some .exitByNoEntryAvailable, s)
  else (none, { s with toEventSys := s.suspend c t timeWait })

/-- `OSQueuePend` by the task `t` from `ChangeContext` on. -/
def osQueuePendResumed : QueueReturn × QueueSys τ :=
  if s.TimedOut c t then (.timeout, { s with toEventSys := s.cancel c t })
  else (.readBufferOk s.queue.take.1, { s with toEventSys := s.wake t, queue := s.queue.take.2 })

def osQueueClean : QueueSys τ := { s with queue := s.queue.clean }

/-- A step: a post, a pend, its return from `ChangeContext`, a tick, or a clean. -/
inductive QueueAct (τ : Type*)
  | post (data : U8)
  | pend (t : τ) (timeWait : WaitTime)
  | resume (t : τ)
  | tick (t : τ)
  | clean

def queueStep : QueueAct τ → Option (QueueSys τ)
  | .post data => some (osQueuePost s data).2
  | .pend t timeWait =>
    if s.Ready c t ∧ s.pc t = .running then some (osQueuePend c s t timeWait).2 else none
  | .resume t => if s.Ready c t ∧ s.pc t ≠ .running then some (osQueuePendResumed c s t).2 else none
  | .tick t => if s.timeToWait t = .ticks then some { s with toEventSys := s.tick c t } else none
  | .clean => some (osQueueClean s)

end

/-! ## The bytes -/

/-- The bytes that were posted with `WRITE_BUFFER_OK`, and those that were returned with
`READ_BUFFER_OK`. -/
structure QueueNote where
  posted : List U8
  returned : List U8
  deriving DecidableEq

def QueueNote.read (n : QueueNote) : Option QueueReturn → QueueNote
  | some (.readBufferOk data) => { n with returned := n.returned ++ [data] }
  | _ => n

section
variable [DecidableEq τ] (c : TaskPriorities τ)

def noteQueue (s : QueueSys τ) (n : QueueNote) : QueueAct τ → QueueNote
  | .post data =>
    if (osQueuePost s data).1 = .writeBufferOk then { n with posted := n.posted ++ [data] } else n
  | .pend t timeWait => n.read (osQueuePend c s t timeWait).1
  | .resume t => n.read (some (osQueuePendResumed c s t).1)
  | .tick _ | .clean => n

/-- The number of entries is at most the size, and what was returned is a subsequence of what was
posted. -/
structure Intact (s : QueueSys τ) (n : QueueNote) : Prop where
  entries : s.queue.osqEntries ≤ s.queue.osqSize
  bytes : n.returned.Sublist n.posted

/-- A reader that a post has woken up finds a byte when it runs again. -/
def ReaderServed (s : QueueSys τ) : QueueAct τ → Prop
  | .resume t => ¬ s.TimedOut c t → 0 < s.queue.osqEntries
  | .post _ | .pend .. | .tick _ | .clean => True

instance (s : QueueSys τ) (a : QueueAct τ) : Decidable (ReaderServed c s a) :=
  match a with
  | .resume t => inferInstanceAs (Decidable (¬ s.TimedOut c t → 0 < s.queue.osqEntries))
  | .post _ | .pend .. | .tick _ | .clean => .isTrue trivial

/-- What is in the queue was posted after what has been returned. -/
def BytesKept (s : QueueSys τ) (n : QueueNote) : Prop :=
  ∃ xs, s.queue.Holds xs ∧ (n.returned ++ xs).Sublist n.posted

variable {c} {s s' : QueueSys τ} {n : QueueNote} {t : τ}

omit [DecidableEq τ] in
theorem BytesKept.intact (h : BytesKept s n) : Intact s n := by
  obtain ⟨xs, hxs, hsub⟩ := h
  exact ⟨BitVec.le_def.mpr hxs.le, (List.sublist_append_left _ xs).trans hsub⟩

omit [DecidableEq τ] in
theorem BytesKept.taken (h : BytesKept s n) (hpos : 0 < s.queue.osqEntries)
    (hq : s'.queue = s.queue.take.2) : BytesKept s' (n.read (some (.readBufferOk s.queue.take.1))) := by
  obtain ⟨xs, hxs, hsub⟩ := h
  obtain ⟨ys, rfl, hys⟩ := hxs.take hpos
  refine ⟨ys, hq ▸ hys, ?_⟩
  show ((n.returned ++ [_]) ++ ys).Sublist n.posted
  rwa [List.append_assoc, List.singleton_append]

omit [DecidableEq τ] in
theorem BytesKept.post (h : BytesKept s n) (data : U8) :
    BytesKept (osQueuePost s data).2
      (if (osQueuePost s data).1 = .writeBufferOk then { n with posted := n.posted ++ [data] } else n) := by
  obtain ⟨xs, hxs, hsub⟩ := h
  unfold osQueuePost
  split
  · rename_i hspace
    refine ⟨xs ++ [data], ?_, ?_⟩
    · dsimp only
      split <;> exact hxs.put hspace data
    · simp only [if_true]
      rw [← List.append_assoc]
      exact hsub.append (List.Sublist.refl [data])
  · exact ⟨xs, hxs, hsub⟩

theorem BytesKept.pend (h : BytesKept s n) (timeWait : WaitTime) :
    BytesKept (osQueuePend c s t timeWait).2 (n.read (osQueuePend c s t timeWait).1) := by
  unfold osQueuePend
  split
  · rename_i hpos
    exact h.taken hpos rfl
  · split <;> exact h

theorem BytesKept.resume (h : BytesKept s n) (hok : ReaderServed c s (.resume t)) :
    BytesKept (osQueuePendResumed c s t).2 (n.read (some (osQueuePendResumed c s t).1)) := by
  unfold osQueuePendResumed
  split
  · exact h
  · rename_i hover
    exact h.taken (hok hover) rfl

omit [DecidableEq τ] in
theorem BytesKept.clean (h : BytesKept s n) : BytesKept (osQueueClean s) n := by
  obtain ⟨xs, hxs, hsub⟩ := h
  refine ⟨[], OsQueue.holds_clean _, ?_⟩
  rw [List.append_nil]
  exact (List.sublist_append_left _ xs).trans hsub

theorem BytesKept.step (h : BytesKept s n) {a : QueueAct τ} (hok : ReaderServed c s a)
    (hs : queueStep c s a = some s') : BytesKept s' (noteQueue c s n a) := by
  cases a with
  | post data =>
    cases hs
    exact h.post data
  | pend t timeWait =>
    simp only [queueStep] at hs
    split at hs <;> cases hs
    exact h.pend timeWait
  | resume t =>
    simp only [queueStep] at hs
    split at hs <;> cases hs
    exact h.resume hok
  | tick t =>
    simp only [queueStep] at hs
    split at hs <;> cases hs
    exact h
  | clean =>
    cases hs
    exact h.clean

/-- In every run in which each woken reader finds a byte, the queue is intact. -/
theorem intact_of_runs (size : U16) (bytes : Nat → U8) (ready : Finset Nat) {as : List (QueueAct τ)}
    (r : Runs (queueStep c) (ReaderServed c) (osQueueCreate size bytes ready) as s) :
    Intact s (observe (queueStep c) (noteQueue c) (osQueueCreate size bytes ready) ⟨[], []⟩ as) := by
  refine BytesKept.intact (r.observed (I := BytesKept) ?_ fun _ _ _ _ h hok hs => h.step hok hs)
  exact ⟨[], ⟨Ring.holds_nil _ (Nat.zero_le _), rfl⟩, List.Sublist.refl []⟩

end

theorem readers_distinct : ∀ t u : Bool, (if t then 5 else 3) = (if u then (5 : Nat) else 3) → t = u := by decide

def twoReaders : TaskPriorities Bool where
  priority t := if t then 5 else 3
  installed := readers_distinct

def shortQueue : QueueSys Bool := osQueueCreate 4 (fun _ => 0) {3, 5}

/-- One reader waits, is selected by a post after its time is over, and gets its byte. -/
def readerServed : List (QueueAct Bool) :=
  [.pend false .ticks, .tick false, .post 65, .resume false, .post 66, .pend true .noTimeout]

theorem intact_of_runs_readerServed :
    ∃ s, Runs (queueStep twoReaders) (ReaderServed twoReaders) shortQueue readerServed s ∧
      s.queue.osqEntries = 0 ∧ Intact s ⟨[65, 66], [65, 66]⟩ := by
  have hrun : (exec (guarded (queueStep twoReaders) (ReaderServed twoReaders)) shortQueue readerServed).map
      (fun s => s.queue.osqEntries) = some 0 := by decide +kernel
  have hnote : observe (queueStep twoReaders) (noteQueue twoReaders) shortQueue ⟨[], []⟩ readerServed =
      ⟨[65, 66], [65, 66]⟩ := by decide +kernel
  obtain ⟨s, hs, he⟩ := Option.map_eq_some_iff.mp hrun
  have r := Runs.of_exec_guarded hs
  exact ⟨s, r, he, hnote ▸ intact_of_runs 4 (fun _ => 0) {3, 5} r⟩

/-- A reader waits, a byte is posted, and a reader of a higher priority takes it before the first one
runs. -/
def readerOvertaken : List (QueueAct Bool) :=
  [.pend false .zero, .post 65, .pend true .zero, .resume false]

/-- The woken reader decrements the number of entries below 0 and returns a byte that was not posted. -/
theorem intact_fails : ¬ ∀ as (s : QueueSys Bool),
    Runs (queueStep twoReaders) Free shortQueue as s →
      Intact s (observe (queueStep twoReaders) (noteQueue twoReaders) shortQueue ⟨[], []⟩ as) := by
  intro hall
  have hrun : (exec (queueStep twoReaders) shortQueue readerOvertaken).map
      (fun s => (s.queue.osqEntries, s.queue.osqSize)) = some (65535, 4) := by decide +kernel
  obtain ⟨s, hs, he⟩ := Option.map_eq_some_iff.mp hrun
  obtain ⟨hentries, hsize⟩ := Prod.mk.inj he
  have h := (hall readerOvertaken s (Runs.of_exec hs)).entries
  rw [hentries, hsize] at h
  exact absurd h (by decide)

end Unet4Cooja
