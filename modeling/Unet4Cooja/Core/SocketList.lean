import Unet4Cooja.Brtos.BinarySemaphore
import Unet4Cooja.Core.Sockets
import Unet4Cooja.Lib.DList
import Unet4Cooja.Lib.While

/-!
# The list of the sockets (`transport.c`)

* `SocketSys`, `unetListen`, `unetConnect`, `unetClose` : the pointers of the sockets, their semaphores, and the
  functions;
* `SocketCall`, `noteOpen` : the calls, and the sockets they leave open, in the order in which they were opened;
* `SocketList` : the pointers lead through the open sockets, forwards and backwards;
* `socketList_of_runs` : they do after any calls that open what is not open and close what is open;
* `socketList_delivery` : so the loop over the pointers in the ack tasks is the one over the list of the system
  model.
-/

namespace Unet4Cooja
open Lib

/-! ## Semaphores -/

namespace SemTableSys
variable (s : SemTableSys)

def osSemCreate (cnt : U8) : SemCreateReturn × SemTableSys :=
  if 0 < s.iNesting then (.irqPendErr, s)
  else
    match s.freeBlock with
    | none => (.noAvailableEvent, s)
    | some i =>
      (.allocEventOk i, s.setBlock i
        { osEventAllocated := true
          osEventCount := cnt
          osEventWait := 0
          binary := false
          osEventWaitList := 0 })

/-- What `OSSemDelete` does to the block `i`. -/
def release (i : Nat) : SemTableSys :=
  s.setBlock i { s.brtosSemTable i with
    osEventAllocated := false
    osEventCount := 0
    osEventWait := 0
    osEventWaitList := 0 }

end SemTableSys

/-! ## The functions -/

/-- `unet_tp_head`, `unet_tp_tail`, and `next` and `previous` of the sockets, with the blocks of their semaphores
`wake_up`. -/
structure SocketSys (ν : Type*) extends SemTableSys where
  unetTp : DList ν
  wakeUp : ν → Option Nat

variable {ν : Type*}

section
variable [DecidableEq ν] (s : SocketSys ν) (p : ν)

namespace SocketSys

/-- `OSSemCreate(0, &p->wake_up)`; an error is ignored. -/
def createWakeUp : SocketSys ν :=
  match s.osSemCreate 0 with
  | (.allocEventOk i, sem) => { s with toSemTableSys := sem, wakeUp := Function.update s.wakeUp p (some i) }
  | (_, sem) => { s with toSemTableSys := sem }

/-- `OSSemDelete(&p->wake_up)`, which does nothing in an interrupt. -/
def deleteWakeUp : SocketSys ν :=
  if 0 < s.iNesting then s
  else
    { s with
      toSemTableSys := (s.wakeUp p).elim s.toSemTableSys s.release
      wakeUp := Function.update s.wakeUp p none }

def includeServerClient : SocketSys ν := { s with unetTp := s.unetTp.append p }

def removeServerClient : SocketSys ν := { s with unetTp := s.unetTp.remove p }

def unetListen (server : ν) : SocketSys ν := (s.createWakeUp server).includeServerClient server

def unetConnect (client : ν) : SocketSys ν := (s.createWakeUp client).includeServerClient client

def unetClose (serverClient : ν) : SocketSys ν := (s.removeServerClient serverClient).deleteWakeUp serverClient

end SocketSys

inductive SocketCall (ν : Type*)
  | listen (server : ν)
  | connect (client : ν)
  | close (serverClient : ν)

def socketStep : SocketCall ν → Option (SocketSys ν)
  | .listen server => some (s.unetListen server)
  | .connect client => some (s.unetConnect client)
  | .close serverClient => some (s.unetClose serverClient)

/-- The open sockets, in the order in which they were opened. -/
def noteOpen (_ : SocketSys ν) (sockets : List ν) : SocketCall ν → List ν
  | .listen p | .connect p => sockets ++ [p]
  | .close p => sockets.erase p

/-- A socket is opened when it is not open, and closed when it is open. -/
def CallOk (s : SocketSys ν × List ν) : SocketCall ν → Prop
  | .listen p | .connect p => p ∉ s.2
  | .close p => p ∈ s.2

instance (s : SocketSys ν × List ν) (a : SocketCall ν) : Decidable (CallOk s a) :=
  match a with
  | .listen p | .connect p => inferInstanceAs (Decidable (p ∉ s.2))
  | .close p => inferInstanceAs (Decidable (p ∈ s.2))

/-! ## The pointers -/

variable {s : SocketSys ν} {xs : List ν} {p : ν}

theorem createWakeUp_unetTp : (s.createWakeUp p).unetTp = s.unetTp := by
  unfold SocketSys.createWakeUp
  split <;> rfl

theorem deleteWakeUp_unetTp : (s.deleteWakeUp p).unetTp = s.unetTp := by
  unfold SocketSys.deleteWakeUp
  split <;> rfl

theorem represents_opened (h : s.unetTp.Represents xs) (hp : p ∉ xs) :
    ((s.createWakeUp p).includeServerClient p).unetTp.Represents (xs ++ [p]) := by
  unfold SocketSys.includeServerClient
  dsimp only
  rw [createWakeUp_unetTp]
  exact h.append hp

theorem represents_closed (h : s.unetTp.Represents xs) (hp : p ∈ xs) :
    (s.unetClose p).unetTp.Represents (xs.erase p) := by
  unfold SocketSys.unetClose
  rw [deleteWakeUp_unetTp]
  obtain ⟨ys, zs, rfl⟩ := List.append_of_mem hp
  have hys : p ∉ ys := by
    have hnodup := h.nodup
    rw [List.nodup_middle, List.nodup_cons] at hnodup
    exact fun hm => hnodup.1 (List.mem_append_left zs hm)
  rw [List.erase_append_right _ hys, List.erase_cons_head]
  exact h.remove

theorem represents_step (h : s.unetTp.Represents xs) {a : SocketCall ν} (hok : CallOk (s, xs) a)
    {s' : SocketSys ν} (hs : socketStep s a = some s') : s'.unetTp.Represents (noteOpen s xs a) := by
  cases a with
  | listen p =>
    cases hs
    exact represents_opened h hok
  | connect p =>
    cases hs
    exact represents_opened h hok
  | close p =>
    cases hs
    exact represents_closed h hok

/-- The pointers lead from the first to the last one of the open sockets and back. -/
structure SocketList (s : SocketSys ν) (xs : List ν) : Prop where
  next : DList.Follows s.unetTp.next s.unetTp.head xs
  previous : DList.Follows s.unetTp.prev s.unetTp.tail xs.reverse
  head : s.unetTp.head = none ↔ xs = []
  tail : s.unetTp.tail = none ↔ xs = []

omit [DecidableEq ν] in
theorem socketList_of_represents (h : s.unetTp.Represents xs) : SocketList s xs where
  next := h.follows_next
  previous := h.follows_prev
  head := h.follows_next.eq_none_iff
  tail := h.follows_prev.eq_none_iff.trans List.reverse_eq_nil_iff

theorem represents_of_runs {s₀ s : SocketSys ν} (hhead : s₀.unetTp.head = none) (htail : s₀.unetTp.tail = none)
    {calls : List (SocketCall ν)} (r : Runs (watched socketStep noteOpen) CallOk (s₀, []) calls (s, xs)) :
    s.unetTp.Represents xs := by
  refine r.invariant (I := fun t => t.1.unetTp.Represents t.2) (DList.represents_nil hhead htail) ?_
  intro t a u h hok hs
  obtain ⟨hs, hnote⟩ := watched_eq_some.mp hs
  rw [hnote]
  exact represents_step h hok hs

/-- After any calls that open what is not open and close what is open, from an empty list on. -/
theorem socketList_of_runs {s₀ s : SocketSys ν} (hhead : s₀.unetTp.head = none) (htail : s₀.unetTp.tail = none)
    {calls : List (SocketCall ν)} (r : Runs (watched socketStep noteOpen) CallOk (s₀, []) calls (s, xs)) :
    SocketList s xs := socketList_of_represents (represents_of_runs hhead htail r)

end

def staleSockets : SocketSys Nat where
  iNesting := 0
  osReadyList := 0
  brtosSemTable _ := ⟨false, 0, 0, false, 0⟩
  unetTp := { head := none, tail := none, next := fun _ => some 2, prev := fun _ => some 2 }
  wakeUp _ := none

/-- Sockets are closed in the middle, at the front and at the end, and opened again. -/
def reopenedSockets : List (SocketCall Nat) :=
  [.listen 1, .connect 2, .listen 3, .close 2, .connect 2, .close 1, .close 2, .listen 1]

theorem socketList_of_runs_reopenedSockets :
    ∃ s, Runs (watched socketStep noteOpen) CallOk (staleSockets, []) reopenedSockets (s, [3, 1]) ∧
      SocketList s [3, 1] := by
  have hrun : (exec (guarded (watched socketStep noteOpen) CallOk) (staleSockets, []) reopenedSockets).map (·.2) =
      some [3, 1] := by decide
  obtain ⟨⟨s, xs⟩, hs, rfl⟩ := Option.map_eq_some_iff.mp hrun
  have r := Runs.of_exec_guarded hs
  exact ⟨s, r, socketList_of_runs rfl rfl r⟩

/-! ## Delivery -/

section
variable {next : ν → Option ν} {o : Option ν} {xs : List ν}

/-- The loop over the sockets in the ack tasks goes on until the pointer is null or its socket has the port. -/
def seeks (srcPort : ν → U8) (port : U8) (serverClient : Option ν) : Bool :=
  serverClient.any fun p => srcPort p ≠ port

theorem follows_ends (srcPort : ν → U8) (port : U8) (h : DList.Follows next o xs) :
    Ends (seeks srcPort port) (fun p => p.bind next) o (xs.find? fun p => srcPort p = port) := by
  induction xs generalizing o with
  | nil =>
    obtain rfl : o = none := h
    exact .exit rfl
  | cons x xs ih =>
    obtain ⟨rfl, h⟩ := h
    by_cases hx : srcPort x = port
    · simp only [List.find?_cons, decide_eq_true hx]
      exact .exit (by simp [seeks, hx])
    · simp only [List.find?_cons, decide_eq_false hx]
      exact .round (by simp [seeks, hx]) (ih h)

variable [DecidableEq ν]

/-- The sockets after the loop has ended at `serverClient`. -/
def handTo (mem : ν → UnetTransport) (fromUp : Bool) (r : Packet) (serverClient : Option ν) : ν → UnetTransport :=
  serverClient.elim mem fun p => Function.update mem p ((mem p).hand fromUp r)

theorem handTo_of_ne (mem : ν → UnetTransport) (fromUp : Bool) (r : Packet) {x : ν} (h : o ≠ some x) :
    handTo mem fromUp r o x = mem x := by
  cases o with
  | none => rfl
  | some p => exact Function.update_of_ne (fun e => h (congrArg some e.symm)) _ _

theorem deliverTo_map (mem : ν → UnetTransport) (fromUp : Bool) (r : Packet) (hn : xs.Nodup) :
    deliverTo fromUp r (xs.map mem) =
      xs.map (handTo mem fromUp r (xs.find? fun p => (mem p).srcPort = r.packet unetDestPort)) := by
  induction xs with
  | nil => rfl
  | cons x xs ih =>
    obtain ⟨hx, hn⟩ := List.nodup_cons.mp hn
    rw [List.map_cons, List.map_cons, deliverTo]
    split
    · rename_i hport
      simp only [List.find?_cons, decide_eq_true hport]
      have hself : handTo mem fromUp r (some x) x = (mem x).hand fromUp r := Function.update_self _ _ _
      have hrest : xs.map (handTo mem fromUp r (some x)) = xs.map mem := by
        apply List.map_congr_left
        intro y hy
        apply handTo_of_ne
        rintro e
        cases e
        exact hx hy
      rw [hself, hrest]
      rfl
    · rename_i hport
      simp only [List.find?_cons, decide_eq_false hport]
      rw [ih hn, handTo_of_ne]
      intro e
      exact hx (List.mem_of_find?_eq_some e)

/-- In every run the loop ends, and what it does to the open sockets is what the system model does to its list. -/
theorem socketList_delivery {s₀ s : SocketSys ν} (hhead : s₀.unetTp.head = none) (htail : s₀.unetTp.tail = none)
    {calls : List (SocketCall ν)} (run : Runs (watched socketStep noteOpen) CallOk (s₀, []) calls (s, xs))
    (mem : ν → UnetTransport) (fromUp : Bool) (r : Packet) :
    ∃ p, Ends (seeks (fun p => (mem p).srcPort) (r.packet unetDestPort)) (fun p => p.bind s.unetTp.next)
        s.unetTp.head p ∧
      xs.map (handTo mem fromUp r p) = deliverTo fromUp r (xs.map mem) := by
  have h := represents_of_runs hhead htail run
  exact ⟨_, follows_ends _ _ h.follows_next, (deliverTo_map mem fromUp r h.nodup).symm⟩

end

end Unet4Cooja
