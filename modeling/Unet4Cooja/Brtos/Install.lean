import Mathlib.Data.Set.Lattice
import Mathlib.Order.CompletePartialOrder
import Mathlib.Order.Interval.Set.Disjoint
import Unet4Cooja.Brtos.Timer
import Unet4Cooja.Lib.ForRange
import Unet4Cooja.Lib.Runs
import Unet4Cooja.Packet

/-!
# Task installation (`BRTOS.c`, `HAL.c`)

* `InstallSys` : what `OSInstallTask` reads and writes;
* `preInstallTasks`, `createVirtualStack`, `osInstallTask` : the functions;
* `InstalledTask`, `noteInstall` : the observer of the calls that returned `OK`;
* `TasksInstalled` : the stacks are apart and have their first frames, the priorities are those of the tasks;
* `osInstallTask_error` : a call that returns an error changes nothing;
* `installed_of_runs` : after any calls, if `Idle` is installed at most once.
-/

namespace Unet4Cooja
open Lib

abbrev heapSize : Nat := 2 * 4096

abbrev numberOfTasks : Nat := 12

abbrev numberMinOfStackedBytes : Nat := 52

abbrev configMaxTaskInstall : Nat := 32

abbrev configMaxTaskPriority : Nat := 31

abbrev emptyPrio : U8 := 0xFF

/-- `ContextType`, without the run time. -/
structure TaskContext where
  taskName : String
  stackPoint : U32
  stackInit : U32
  timeToWait : Nat
  priority : U8
  next : Option Nat
  previous : Option Nat

/-- The variables of task installation. `STACK` is an array of words, `StackAddress` an `unsigned int` of 16
bits. -/
structure InstallSys where
  taskAlloc : U32
  iStackAddress : U16
  stackAddress : U16
  numberOfInstalledTasks : U8
  priorityVector : Nat → U8
  contextTask : Nat → TaskContext
  osReadyList : U32
  stack : Nat → U32

/-- The arguments of `OSInstallTask`; a function is known by its address. -/
structure InstallCall where
  fctPtr : U32
  taskName : String
  userStackedBytes : U16
  iPriority : U8

/-- What `OSInstallTask` returns; `OK` with what is written to the task handle. -/
inductive InstallReturn
  | ok (taskNumber : Nat)
  | stackSizeTooSmall
  | noMemory
  | endOfAvailablePriorities
  | busyPriority
  | cannotAssignIdleTaskPrio
  | endOfAvailableTcb
  deriving DecidableEq

def InstallReturn.isOk : InstallReturn → Bool
  | .ok _ => true
  | _ => false

/-- The stack size fixed to the type of the CPU. -/
def stackedBytes (userStackedBytes : U16) : U16 := userStackedBytes - userStackedBytes % 4

namespace InstallSys
variable (s : InstallSys)

def preInstallTasks (stackStart : U16) : InstallSys :=
  { s with
    numberOfInstalledTasks := 0
    taskAlloc := 0
    iStackAddress := 0
    stackAddress := stackStart
    priorityVector := forRange configMaxTaskInstall (fun i v => Function.update v i emptyPrio) s.priorityVector
    contextTask :=
      forRange numberOfTasks (fun i c => Function.update c (i + 1) { c (i + 1) with priority := emptyPrio })
        s.contextTask }

/-- The words `CreateVirtualStack` writes, the entry of the task first. -/
def virtualStack (fctPtr : U32) : List U32 :=
  [((0x0000ffff &&& fctPtr) <<< 16) ||| ((0x000f0000 &&& fctPtr) >>> 4) ||| 0x00000008,
    0x15, 0x14, 0x13, 0x12, 0x11, 0x10, 0x09, 0x08, 0x07, 0x06, 0x05, 0x04]

/-- `*--stk_pt = w` for the words `ws`. -/
def pushWords : List U32 → Nat → (Nat → U32) → Nat → U32
  | [], _, stack => stack
  | w :: ws, stkPt, stack => pushWords ws (stkPt - 1) (Function.update stack (stkPt - 1) w)

def createVirtualStack (fctPtr : U32) (numberOfStackedBytes : U16) : InstallSys :=
  { s with
    stack := pushWords (virtualStack fctPtr) (s.iStackAddress.toNat + numberOfStackedBytes.toNat / 4) s.stack }

def priorityError (idle fctPtr : U32) (iPriority : U8) : Option InstallReturn :=
  if iPriority ≠ 0 then
    if configMaxTaskPriority < iPriority.toNat then some .endOfAvailablePriorities
    else if s.priorityVector iPriority.toNat ≠ emptyPrio then some .busyPriority
    else none
  else if fctPtr ≠ idle then some .cannotAssignIdleTaskPrio
  else none

def freeContext : Option Nat := firstBelow numberOfTasks fun i => ((1 : U32) <<< i) &&& s.taskAlloc = 0

/-- `OSInstallTask` when it has found the context of the task. -/
def install (call : InstallCall) (i : Nat) : InstallSys :=
  let bytes := stackedBytes call.userStackedBytes
  let taskNumber := i + 1
  let task := { s.contextTask taskNumber with
    taskName := call.taskName
    stackPoint := (s.stackAddress + (bytes - BitVec.ofNat 16 numberMinOfStackedBytes)).setWidth 32
    stackInit := (s.stackAddress + bytes).setWidth 32
    priority := call.iPriority
    timeToWait := 2 ^ 64 - 2
    next := none
    previous := none }
  let s := { s with
    taskAlloc := s.taskAlloc ||| ((1 : U32) <<< i)
    numberOfInstalledTasks := s.numberOfInstalledTasks + 1
    contextTask := Function.update s.contextTask taskNumber task
    priorityVector := Function.update s.priorityVector call.iPriority.toNat (BitVec.ofNat 8 taskNumber) }
  let s := s.createVirtualStack call.fctPtr bytes
  { s with
    iStackAddress := s.iStackAddress + bytes / 4
    stackAddress := s.stackAddress + bytes
    osReadyList := s.osReadyList ||| ((1 : U32) <<< call.iPriority.toNat) }

end InstallSys

/-- `OSInstallTask`; `idle` is the address of `Idle`. -/
def osInstallTask (idle : U32) (s : InstallSys) (call : InstallCall) : InstallReturn × InstallSys :=
  let bytes := stackedBytes call.userStackedBytes
  if bytes.toNat < numberMinOfStackedBytes then (.stackSizeTooSmall, s)
  else if heapSize / 4 < s.iStackAddress.toNat + bytes.toNat / 4 then (.noMemory, s)
  else
    match s.priorityError idle call.fctPtr call.iPriority with
    | some e => (e, s)
    | none =>
      match s.freeContext with
      | none => (.endOfAvailableTcb, s)
      | some i => (.ok (i + 1), s.install call i)

/-! ## The installed tasks -/

/-- A call that returned `OK`, with the number of the task. -/
structure InstalledTask extends InstallCall where
  taskNumber : Nat

def noteInstall (idle : U32) (s : InstallSys) (tasks : List InstalledTask) (call : InstallCall) :
    List InstalledTask :=
  match (osInstallTask idle s call).1 with
  | .ok taskNumber => tasks ++ [{ call with taskNumber := taskNumber }]
  | _ => tasks

def installStep (idle : U32) (s : InstallSys) (call : InstallCall) : Option InstallSys :=
  some (osInstallTask idle s call).2

/-- `Idle` is installed at most once. -/
def IdleOnce (idle : U32) (p : InstallSys × List InstalledTask) (call : InstallCall) : Prop :=
  (osInstallTask idle p.1 call).1.isOk = true → call.fctPtr = idle → ∀ t ∈ p.2, t.fctPtr ≠ idle

instance (idle : U32) (p : InstallSys × List InstalledTask) (call : InstallCall) : Decidable (IdleOnce idle p call) :=
  inferInstanceAs (Decidable (_ → _ → _))

def InstalledTask.bytes (t : InstalledTask) : Nat := (stackedBytes t.userStackedBytes).toNat

namespace InstallSys
variable (s : InstallSys) (stackStart : U16) (t : InstalledTask)

def context : TaskContext := s.contextTask t.taskNumber

/-- Where in `STACK` an address is. -/
def offset (stackStart : U16) (a : U32) : Nat := (a.setWidth 16 - stackStart).toNat

/-- The bytes of `STACK` that a task has. -/
def region : Set Nat :=
  Set.Ico (offset stackStart (s.context t).stackInit - t.bytes) (offset stackStart (s.context t).stackInit)

/-- The frame of a task that has not run is at the end of its stack. -/
structure Framed : Prop where
  point : offset stackStart (s.context t).stackPoint + numberMinOfStackedBytes =
    offset stackStart (s.context t).stackInit
  fits : numberMinOfStackedBytes ≤ t.bytes
  words : ∀ k (h : k < (virtualStack t.fctPtr).length),
    s.stack (offset stackStart (s.context t).stackInit / 4 - (k + 1)) = (virtualStack t.fctPtr)[k]

end InstallSys

/-- The stacks are apart, inside `STACK`, and have their first frames; the priorities are those of the tasks. -/
structure TasksInstalled (stackStart : U16) (s : InstallSys) (tasks : List InstalledTask) : Prop where
  alloc : ∀ i < numberOfTasks, s.taskAlloc.getLsbD i = true ↔ ∃ t ∈ tasks, t.taskNumber = i + 1
  numbers : tasks.Pairwise fun t u => t.taskNumber ≠ u.taskNumber
  regions : tasks.Pairwise fun t u => Disjoint (s.region stackStart t) (s.region stackStart u)
  inside : ∀ t ∈ tasks, t.bytes ≤ InstallSys.offset stackStart (s.context t).stackInit ∧
    InstallSys.offset stackStart (s.context t).stackInit ≤ heapSize
  framed : ∀ t ∈ tasks, s.Framed stackStart t
  priorities : tasks.Pairwise fun t u => (s.context t).priority ≠ (s.context u).priority
  vector : ∀ t ∈ tasks, (s.priorityVector (s.context t).priority.toNat).toNat = t.taskNumber
  ready : ∀ p, s.osReadyList.getLsbD p = true ↔ ∃ t ∈ tasks, (s.context t).priority.toNat = p

/-! ## The frames -/

section
variable {ws : List U32} {n a : Nat} {stack : Nat → U32}

theorem pushWords_of_outside (hlen : ws.length ≤ n) (h : n ≤ a ∨ a < n - ws.length) :
    InstallSys.pushWords ws n stack a = stack a := by
  induction ws generalizing n stack with
  | nil => rfl
  | cons w ws ih =>
    rw [List.length_cons] at hlen h
    show InstallSys.pushWords ws (n - 1) _ a = stack a
    rw [ih (by omega) (by omega)]
    exact Function.update_of_ne (by omega) _ _

theorem pushWords_get {k : Nat} (hlen : ws.length ≤ n) (hk : k < ws.length) :
    InstallSys.pushWords ws n stack (n - (k + 1)) = ws[k] := by
  induction ws generalizing n stack k with
  | nil => exact absurd hk (Nat.not_lt_zero k)
  | cons w ws ih =>
    rw [List.length_cons] at hlen hk
    cases k with
    | zero =>
      show InstallSys.pushWords ws (n - 1) _ (n - 1) = w
      rw [pushWords_of_outside (by omega) (Or.inl (Nat.le_refl _))]
      exact Function.update_self _ _ _
    | succ k =>
      show InstallSys.pushWords ws (n - 1) _ (n - (k + 1 + 1)) = ws[k]
      rw [show n - (k + 1 + 1) = n - 1 - (k + 1) by omega]
      exact ih (by omega) (by omega)

end

/-! ## One call -/

section
variable {idle : U32} {s : InstallSys} {call : InstallCall} {stackStart : U16} {tasks : List InstalledTask}

/-- What has been checked when a task is installed. -/
structure Accepted (idle : U32) (s : InstallSys) (call : InstallCall) (i : Nat) : Prop where
  size : numberMinOfStackedBytes ≤ (stackedBytes call.userStackedBytes).toNat
  memory : s.iStackAddress.toNat + (stackedBytes call.userStackedBytes).toNat / 4 ≤ heapSize / 4
  limit : call.iPriority.toNat ≤ configMaxTaskPriority
  vacant : call.iPriority ≠ 0 → s.priorityVector call.iPriority.toNat = emptyPrio
  idle : call.iPriority = 0 → call.fctPtr = idle
  small : i < numberOfTasks
  free : s.taskAlloc.getLsbD i = false

theorem priorityError_eq_none {fctPtr : U32} {iPriority : U8} :
    s.priorityError idle fctPtr iPriority = none ↔
      iPriority.toNat ≤ configMaxTaskPriority ∧ (iPriority ≠ 0 → s.priorityVector iPriority.toNat = emptyPrio) ∧
        (iPriority = 0 → fctPtr = idle) := by
  unfold InstallSys.priorityError
  by_cases h : iPriority = 0
  · subst h
    simp
  · rw [if_pos h]
    by_cases hlimit : configMaxTaskPriority < iPriority.toNat
    · simp [hlimit]
    · have hne : iPriority ≠ 0 := h
      rw [if_neg hlimit]
      simp only [Nat.le_of_not_lt hlimit, hne, ne_eq, not_false_eq_true, true_and, forall_const, false_imp_iff,
        and_true]
      simp

theorem priorityError_ne_ok {fctPtr : U32} {iPriority : U8} (n : Nat) :
    s.priorityError idle fctPtr iPriority ≠ some (.ok n) := by
  unfold InstallSys.priorityError
  split
  · split
    · exact fun h => nomatch h
    · split <;> exact fun h => nomatch h
  · split <;> exact fun h => nomatch h

theorem mask_and_eq_zero {i : Nat} (hi : i < 32) (w : U32) : ((1 : U32) <<< i) &&& w = 0 ↔ w.getLsbD i = false := by
  have hmask : (1 : U32) <<< i = BitVec.twoPow 32 i := (BitVec.twoPow_eq 32 i).symm
  rw [hmask, BitVec.twoPow_and]
  cases w.getLsbD i with
  | false => simp
  | true =>
    have hne : BitVec.twoPow 32 i ≠ 0 := by
      intro e
      have hbit := BitVec.getLsbD_twoPow (w := 32) i i
      rw [e] at hbit
      simp [hi] at hbit
    simpa using hne

theorem getLsbD_or_mask {i j : Nat} (hi : i < 32) (w : U32) :
    (w ||| ((1 : U32) <<< i)).getLsbD j = true ↔ w.getLsbD j = true ∨ j = i := by
  have hmask : (1 : U32) <<< i = BitVec.twoPow 32 i := (BitVec.twoPow_eq 32 i).symm
  rw [hmask, BitVec.getLsbD_or, BitVec.getLsbD_twoPow]
  simp only [hi, decide_true, Bool.true_and, Bool.or_eq_true, decide_eq_true_eq]
  exact or_congr_right eq_comm

theorem isOk_eq_false {r : InstallReturn} : r.isOk = false ↔ ∀ n, r ≠ .ok n := by
  cases r <;> simp [InstallReturn.isOk]

theorem osInstallTask_ok {n : Nat} (h : (osInstallTask idle s call).1 = .ok n) :
    ∃ i, n = i + 1 ∧ Accepted idle s call i ∧ (osInstallTask idle s call).2 = s.install call i := by
  unfold osInstallTask at h ⊢
  dsimp only at h ⊢
  split at h
  · exact nomatch h
  · rename_i hsize
    split at h
    · exact nomatch h
    · rename_i hmemory
      rw [if_neg hsize, if_neg hmemory]
      cases herr : s.priorityError idle call.fctPtr call.iPriority with
      | some e =>
        simp only [herr] at h
        exact absurd (h ▸ herr) (priorityError_ne_ok n)
      | none =>
        simp only [herr] at h ⊢
        cases hfree : s.freeContext with
        | none =>
          simp only [hfree] at h
          exact nomatch h
        | some i =>
          simp only [hfree] at h ⊢
          obtain ⟨hi, hbit, -⟩ := firstBelow_eq_some.mp hfree
          obtain ⟨hlimit, hvacant, hidle⟩ := priorityError_eq_none.mp herr
          refine ⟨i, (InstallReturn.ok.inj h).symm, ⟨Nat.le_of_not_lt hsize, Nat.le_of_not_lt hmemory, hlimit, hvacant,
            hidle, hi, ?_⟩, rfl⟩
          exact (mask_and_eq_zero (Nat.lt_trans hi (by decide)) _).mp (of_decide_eq_true hbit)

theorem osInstallTask_error (h : (osInstallTask idle s call).1.isOk = false) :
    (osInstallTask idle s call).2 = s := by
  unfold osInstallTask at h ⊢
  dsimp only at h ⊢
  split
  · rfl
  · rename_i hsize
    split
    · rfl
    · rename_i hmemory
      rw [if_neg hsize, if_neg hmemory] at h
      cases herr : s.priorityError idle call.fctPtr call.iPriority with
      | some e => rfl
      | none =>
        cases hfree : s.freeContext with
        | none => rfl
        | some i =>
          simp only [herr, hfree] at h
          exact nomatch h

/-! ## The invariant -/

/-- `TasksInstalled`, with where the two counters of the heap are. -/
structure InstallInv (idle : U32) (stackStart : U16) (s : InstallSys) (tasks : List InstalledTask) : Prop
    extends TasksInstalled stackStart s tasks where
  cursor : s.stackAddress = stackStart + 4 * s.iStackAddress
  room : s.iStackAddress.toNat ≤ heapSize / 4
  ends : ∀ t ∈ tasks, InstallSys.offset stackStart (s.context t).stackInit ≤ 4 * s.iStackAddress.toNat
  words : ∀ t ∈ tasks, InstallSys.offset stackStart (s.context t).stackInit % 4 = 0
  numbered : ∀ t ∈ tasks, t.taskNumber ≤ numberOfTasks
  idle : ∀ t ∈ tasks, (s.context t).priority = 0 → t.fctPtr = idle

theorem stackedBytes_toNat (b : U16) : (stackedBytes b).toNat = b.toNat / 4 * 4 := by
  unfold stackedBytes
  have hmod : (b % 4).toNat = b.toNat % 4 := BitVec.toNat_umod
  rw [BitVec.toNat_sub_of_le (by rw [BitVec.le_def, hmod]; exact Nat.mod_le _ _), hmod]
  omega

theorem offset_setWidth (a : U16) : InstallSys.offset stackStart (a.setWidth 32) = (a - stackStart).toNat := by
  unfold InstallSys.offset
  rw [BitVec.setWidth_setWidth_of_le _ (by decide), BitVec.setWidth_eq]

theorem Accepted.memory_words {i : Nat} (a : Accepted idle s call i) :
    s.iStackAddress.toNat + (stackedBytes call.userStackedBytes).toNat / 4 ≤ 2048 := a.memory

theorem stackedBytes_words (b : U16) : (stackedBytes b / 4).toNat = (stackedBytes b).toNat / 4 := BitVec.toNat_udiv

theorem Accepted.iStackAddress_toNat {i : Nat} (a : Accepted idle s call i) :
    (s.install call i).iStackAddress.toNat =
      s.iStackAddress.toNat + (stackedBytes call.userStackedBytes).toNat / 4 := by
  show (s.iStackAddress + stackedBytes call.userStackedBytes / 4).toNat = _
  have hmemory := a.memory_words
  rw [BitVec.toNat_add, stackedBytes_words]
  exact Nat.mod_eq_of_lt (by omega)

def InstallCall.task (call : InstallCall) (i : Nat) : InstalledTask := { call with taskNumber := i + 1 }

variable {i : Nat}

theorem install_context_of_ne {t : InstalledTask} (h : t.taskNumber ≠ i + 1) :
    (s.install call i).context t = s.context t := Function.update_of_ne h _ _

theorem install_context_task : ((s.install call i).context (call.task i)).priority = call.iPriority ∧
    ((s.install call i).context (call.task i)).stackInit =
      (s.stackAddress + stackedBytes call.userStackedBytes).setWidth 32 ∧
    ((s.install call i).context (call.task i)).stackPoint =
      (s.stackAddress + (stackedBytes call.userStackedBytes - BitVec.ofNat 16 numberMinOfStackedBytes)).setWidth 32 := by
  have h : (s.install call i).context (call.task i) = _ := Function.update_self (i + 1) _ _
  rw [h]
  exact ⟨rfl, rfl, rfl⟩

namespace InstallInv

theorem offset_init (h : InstallInv idle stackStart s tasks) (a : Accepted idle s call i) :
    InstallSys.offset stackStart ((s.install call i).context (call.task i)).stackInit =
      4 * s.iStackAddress.toNat + (stackedBytes call.userStackedBytes).toNat := by
  rw [install_context_task.2.1, offset_setWidth, h.cursor]
  have hmemory := a.memory_words
  have hbytes := stackedBytes_toNat call.userStackedBytes
  bv_omega

theorem offset_point (h : InstallInv idle stackStart s tasks) (a : Accepted idle s call i) :
    InstallSys.offset stackStart ((s.install call i).context (call.task i)).stackPoint + numberMinOfStackedBytes =
      4 * s.iStackAddress.toNat + (stackedBytes call.userStackedBytes).toNat := by
  rw [install_context_task.2.2, offset_setWidth, h.cursor]
  have hmemory := a.memory_words
  have hsize : 52 ≤ (stackedBytes call.userStackedBytes).toNat := a.size
  have hbytes := stackedBytes_toNat call.userStackedBytes
  show _ + 52 = _
  unfold numberMinOfStackedBytes
  bv_omega

theorem fresh (h : InstallInv idle stackStart s tasks) (a : Accepted idle s call i) {t : InstalledTask}
    (ht : t ∈ tasks) : t.taskNumber ≠ i + 1 := by
  intro e
  have hbit := (h.alloc i a.small).mpr ⟨t, ht, e⟩
  rw [a.free] at hbit
  cases hbit

theorem fresh_priority (h : InstallInv idle stackStart s tasks) (a : Accepted idle s call i)
    (honce : call.fctPtr = idle → ∀ t ∈ tasks, t.fctPtr ≠ idle) {t : InstalledTask} (ht : t ∈ tasks) :
    (s.context t).priority ≠ call.iPriority := by
  intro e
  by_cases hzero : call.iPriority = 0
  · exact honce (a.idle hzero) t ht (h.idle t ht (e.trans hzero))
  · have hvector := h.vector t ht
    have hnumber := h.numbered t ht
    rw [e, a.vacant hzero] at hvector
    exact absurd (hvector.symm ▸ hnumber) (by decide)

theorem pairwise {R : TaskContext → InstalledTask → TaskContext → InstalledTask → Prop}
    (h : InstallInv idle stackStart s tasks) (a : Accepted idle s call i)
    (hold : tasks.Pairwise fun t u => R (s.context t) t (s.context u) u)
    (hnew : ∀ t ∈ tasks, R (s.context t) t ((s.install call i).context (call.task i)) (call.task i)) :
    (tasks ++ [call.task i]).Pairwise fun t u =>
      R ((s.install call i).context t) t ((s.install call i).context u) u := by
  rw [List.pairwise_append]
  refine ⟨hold.imp_of_mem fun ht hu hr => ?_, List.pairwise_singleton _ _, fun t ht u hu => ?_⟩
  · rwa [install_context_of_ne (h.fresh a ht), install_context_of_ne (h.fresh a hu)]
  · rw [List.mem_singleton] at hu
    rw [hu, install_context_of_ne (h.fresh a ht)]
    exact hnew t ht

theorem forall_task {P : TaskContext → InstalledTask → Prop} (h : InstallInv idle stackStart s tasks)
    (a : Accepted idle s call i) (hold : ∀ t ∈ tasks, P (s.context t) t)
    (hnew : P ((s.install call i).context (call.task i)) (call.task i)) :
    ∀ t ∈ tasks ++ [call.task i], P ((s.install call i).context t) t := by
  intro t ht
  rcases List.mem_append.mp ht with ht | ht
  · rw [install_context_of_ne (h.fresh a ht)]
    exact hold t ht
  · rw [List.mem_singleton.mp ht]
    exact hnew

theorem framed_install (h : InstallInv idle stackStart s tasks) (a : Accepted idle s call i) :
    ∀ t ∈ tasks ++ [call.task i], (s.install call i).Framed stackStart t := by
  have hmemory := a.memory_words
  have hsize : 52 ≤ (stackedBytes call.userStackedBytes).toNat := a.size
  have hbytes := stackedBytes_toNat call.userStackedBytes
  have hlen : (InstallSys.virtualStack call.fctPtr).length = 13 := rfl
  have hstack : (s.install call i).stack = InstallSys.pushWords (InstallSys.virtualStack call.fctPtr)
      (s.iStackAddress.toNat + (stackedBytes call.userStackedBytes).toNat / 4) s.stack := rfl
  intro t ht
  rcases List.mem_append.mp ht with ht | ht
  · have f := h.framed t ht
    have hend := h.ends t ht
    have hfits : 52 ≤ t.bytes := f.fits
    have hinside := (h.inside t ht).1
    have hcontext : (s.install call i).context t = s.context t := install_context_of_ne (h.fresh a ht)
    refine ⟨by rw [hcontext]; exact f.point, f.fits, fun k hk => ?_⟩
    rw [hcontext, hstack, pushWords_of_outside (by omega) (Or.inr (by omega))]
    exact f.words k hk
  · rw [List.mem_singleton.mp ht]
    refine ⟨(h.offset_point a).trans (h.offset_init a).symm, a.size, fun k hk => ?_⟩
    rw [hstack, h.offset_init a]
    have hframe : (InstallSys.virtualStack (call.task i).fctPtr).length = 13 := rfl
    have hwhere : (4 * s.iStackAddress.toNat + (stackedBytes call.userStackedBytes).toNat) / 4 =
        s.iStackAddress.toNat + (stackedBytes call.userStackedBytes).toNat / 4 := by omega
    rw [hwhere]
    exact pushWords_get (by omega) hk

theorem regions_install (h : InstallInv idle stackStart s tasks) (a : Accepted idle s call i) :
    (tasks ++ [call.task i]).Pairwise fun t u =>
      Disjoint ((s.install call i).region stackStart t) ((s.install call i).region stackStart u) := by
  refine h.pairwise a (R := fun c t d u =>
    Disjoint (Set.Ico (InstallSys.offset stackStart c.stackInit - t.bytes) (InstallSys.offset stackStart c.stackInit))
      (Set.Ico (InstallSys.offset stackStart d.stackInit - u.bytes) (InstallSys.offset stackStart d.stackInit)))
    h.regions fun t ht => ?_
  have hend := h.ends t ht
  rw [Set.Ico_disjoint_Ico, h.offset_init a]
  have hstart : 4 * s.iStackAddress.toNat + (stackedBytes call.userStackedBytes).toNat - (call.task i).bytes =
      4 * s.iStackAddress.toNat := Nat.add_sub_cancel _ _
  rw [hstart]
  exact (min_le_left _ _).trans (hend.trans (le_max_right _ _))

theorem ready_install (h : InstallInv idle stackStart s tasks) (a : Accepted idle s call i) (p : Nat) :
    (s.install call i).osReadyList.getLsbD p = true ↔
      ∃ t ∈ tasks ++ [call.task i], ((s.install call i).context t).priority.toNat = p := by
  show (s.osReadyList ||| ((1 : U32) <<< call.iPriority.toNat)).getLsbD p = true ↔ _
  rw [getLsbD_or_mask (Nat.lt_of_le_of_lt a.limit (by decide)), h.ready p]
  constructor
  · rintro (⟨t, ht, hp⟩ | rfl)
    · exact ⟨t, List.mem_append_left _ ht, by rw [install_context_of_ne (h.fresh a ht)]; exact hp⟩
    · exact ⟨_, List.mem_append_right _ (List.mem_singleton_self _), by rw [install_context_task.1]⟩
  · rintro ⟨t, ht, hp⟩
    rcases List.mem_append.mp ht with ht | ht
    · rw [install_context_of_ne (h.fresh a ht)] at hp
      exact Or.inl ⟨t, ht, hp⟩
    · rw [List.mem_singleton.mp ht, install_context_task.1] at hp
      exact Or.inr hp.symm

theorem alloc_install (h : InstallInv idle stackStart s tasks) (a : Accepted idle s call i) {j : Nat}
    (hj : j < numberOfTasks) :
    (s.install call i).taskAlloc.getLsbD j = true ↔ ∃ t ∈ tasks ++ [call.task i], t.taskNumber = j + 1 := by
  show (s.taskAlloc ||| ((1 : U32) <<< i)).getLsbD j = true ↔ _
  rw [getLsbD_or_mask (Nat.lt_trans a.small (by decide)), h.alloc j hj]
  constructor
  · rintro (⟨t, ht, hn⟩ | rfl)
    · exact ⟨t, List.mem_append_left _ ht, hn⟩
    · exact ⟨_, List.mem_append_right _ (List.mem_singleton_self _), rfl⟩
  · rintro ⟨t, ht, hn⟩
    rcases List.mem_append.mp ht with ht | ht
    · exact Or.inl ⟨t, ht, hn⟩
    · rw [List.mem_singleton.mp ht] at hn
      exact Or.inr (Nat.succ.inj hn).symm

theorem vector_install (h : InstallInv idle stackStart s tasks) (a : Accepted idle s call i)
    (honce : call.fctPtr = idle → ∀ t ∈ tasks, t.fctPtr ≠ idle) :
    ∀ t ∈ tasks ++ [call.task i],
      ((s.install call i).priorityVector ((s.install call i).context t).priority.toNat).toNat = t.taskNumber := by
  have hvector : (s.install call i).priorityVector =
      Function.update s.priorityVector call.iPriority.toNat (BitVec.ofNat 8 (i + 1)) := rfl
  intro t ht
  rw [hvector]
  rcases List.mem_append.mp ht with ht | ht
  · have hne : (s.context t).priority.toNat ≠ call.iPriority.toNat :=
      fun e => h.fresh_priority a honce ht (BitVec.eq_of_toNat_eq e)
    rw [install_context_of_ne (h.fresh a ht), Function.update_of_ne hne]
    exact h.vector t ht
  · rw [List.mem_singleton.mp ht, install_context_task.1, Function.update_self, BitVec.toNat_ofNat]
    have hsmall : i < 12 := a.small
    exact Nat.mod_eq_of_lt (by omega)

theorem install (h : InstallInv idle stackStart s tasks) (a : Accepted idle s call i)
    (honce : call.fctPtr = idle → ∀ t ∈ tasks, t.fctPtr ≠ idle) :
    InstallInv idle stackStart (s.install call i) (tasks ++ [call.task i]) where
  alloc _ hj := h.alloc_install a hj
  numbers := h.pairwise a (R := fun _ t _ u => t.taskNumber ≠ u.taskNumber) h.numbers fun _ ht => h.fresh a ht
  regions := h.regions_install a
  inside := by
    refine h.forall_task a (P := fun c t => t.bytes ≤ InstallSys.offset stackStart c.stackInit ∧
      InstallSys.offset stackStart c.stackInit ≤ heapSize) h.inside ?_
    rw [h.offset_init a]
    have hmemory := a.memory_words
    have hbytes := stackedBytes_toNat call.userStackedBytes
    exact ⟨Nat.le_add_left _ _, by show _ ≤ 8192; omega⟩
  framed := h.framed_install a
  priorities := h.pairwise a (R := fun c _ d _ => c.priority ≠ d.priority) h.priorities fun t ht => by
    rw [install_context_task.1]
    exact h.fresh_priority a honce ht
  vector := h.vector_install a honce
  ready := h.ready_install a
  cursor := by
    have hbytes := stackedBytes_toNat call.userStackedBytes
    have hwords := stackedBytes_words call.userStackedBytes
    show s.stackAddress + stackedBytes call.userStackedBytes =
      stackStart + 4 * (s.iStackAddress + stackedBytes call.userStackedBytes / 4)
    rw [h.cursor]
    generalize stackedBytes call.userStackedBytes / 4 = q at hwords ⊢
    bv_omega
  room := a.iStackAddress_toNat.trans_le a.memory
  ends := by
    have hbytes := stackedBytes_toNat call.userStackedBytes
    have hmove := a.iStackAddress_toNat
    refine h.forall_task a (P := fun c _ => InstallSys.offset stackStart c.stackInit ≤
      4 * (s.install call i).iStackAddress.toNat) (fun t ht => ?_) ?_
    · have hend := h.ends t ht
      omega
    · rw [h.offset_init a]
      omega
  words := by
    refine h.forall_task a (P := fun c _ => InstallSys.offset stackStart c.stackInit % 4 = 0) h.words ?_
    have hbytes := stackedBytes_toNat call.userStackedBytes
    rw [h.offset_init a]
    omega
  numbered := h.forall_task a (P := fun _ t => t.taskNumber ≤ numberOfTasks) h.numbered a.small
  idle := by
    refine h.forall_task a (P := fun c t => c.priority = 0 → t.fctPtr = idle) h.idle ?_
    rw [install_context_task.1]
    exact a.idle

theorem step (h : InstallInv idle stackStart s tasks) (hok : IdleOnce idle (s, tasks) call) :
    InstallInv idle stackStart (osInstallTask idle s call).2 (noteInstall idle s tasks call) := by
  unfold noteInstall
  split
  · rename_i n hn
    obtain ⟨i, rfl, a, hs⟩ := osInstallTask_ok hn
    rw [hs]
    exact h.install a (hok (by rw [hn]; rfl))
  · rename_i hn
    rwa [osInstallTask_error (isOk_eq_false.mpr hn)]

end InstallInv

/-- The variables when the system starts, with `OSReadyList` 0. -/
def installStart (s : InstallSys) (stackStart : U16) : InstallSys × List InstalledTask :=
  ({ s with osReadyList := 0 }.preInstallTasks stackStart, [])

theorem installInv_installStart (s : InstallSys) :
    InstallInv idle stackStart (installStart s stackStart).1 (installStart s stackStart).2 where
  alloc i _ := by
    show (0 : U32).getLsbD i = true ↔ ∃ t ∈ [], _
    simp
  numbers := List.Pairwise.nil
  regions := List.Pairwise.nil
  inside _ ht := absurd ht List.not_mem_nil
  framed _ ht := absurd ht List.not_mem_nil
  priorities := List.Pairwise.nil
  vector _ ht := absurd ht List.not_mem_nil
  ready p := by
    show (0 : U32).getLsbD p = true ↔ ∃ t ∈ [], _
    simp
  cursor := by
    show stackStart = stackStart + 4 * 0
    simp
  room := Nat.zero_le _
  ends _ ht := absurd ht List.not_mem_nil
  words _ ht := absurd ht List.not_mem_nil
  numbered _ ht := absurd ht List.not_mem_nil
  idle _ ht := absurd ht List.not_mem_nil

/-- After any calls with `Idle` installed at most once the tasks are installed as they should be, and a call that
returns an error changes nothing. -/
theorem installed_of_runs (idle : U32) (s : InstallSys) (stackStart : U16) {calls : List InstallCall}
    {p : InstallSys × List InstalledTask}
    (r : Runs (watched (installStep idle) (noteInstall idle)) (IdleOnce idle) (installStart s stackStart) calls p) :
    TasksInstalled stackStart p.1 p.2 ∧
      ∀ call, (osInstallTask idle p.1 call).1.isOk = false → (osInstallTask idle p.1 call).2 = p.1 := by
  have i := r.invariant (I := fun p => InstallInv idle stackStart p.1 p.2) (installInv_installStart s)
    fun p call q h hok hs => by
      obtain ⟨hs, hq⟩ := watched_eq_some.mp hs
      rw [hq, ← Option.some.inj hs]
      exact h.step hok
  exact ⟨i.toTasksInstalled, fun _ h => osInstallTask_error h⟩

end

def clearedVariables : InstallSys where
  taskAlloc := 0
  iStackAddress := 0
  stackAddress := 0
  numberOfInstalledTasks := 0
  priorityVector _ := 0
  contextTask _ := ⟨"", 0, 0, 0, 0, none, none⟩
  osReadyList := 0
  stack _ := 0

/-- `Idle`, a task with an odd stack size, one with its priority, and one that is too large. -/
def someInstalls : List InstallCall :=
  [⟨0x8000, "Idle", 208, 0⟩, ⟨0x9000, "Link", 57, 5⟩, ⟨0x9100, "Router", 100, 5⟩, ⟨0x9200, "Large", 8000, 6⟩]

theorem installed_of_runs_someInstalls :
    ∃ p, Runs (watched (installStep 0x8000) (noteInstall 0x8000)) (IdleOnce 0x8000)
        (installStart clearedVariables 0x1C00) someInstalls p ∧
      p.2.map InstalledTask.bytes = [208, 56] ∧ TasksInstalled 0x1C00 p.1 p.2 := by
  have hrun : (exec (guarded (watched (installStep 0x8000) (noteInstall 0x8000)) (IdleOnce 0x8000))
      (installStart clearedVariables 0x1C00) someInstalls).map (fun p => p.2.map InstalledTask.bytes) =
      some [208, 56] := by decide +kernel
  obtain ⟨p, hp, hbytes⟩ := Option.map_eq_some_iff.mp hrun
  have r := Runs.of_exec_guarded hp
  exact ⟨p, r, hbytes, (installed_of_runs 0x8000 clearedVariables 0x1C00 r).1⟩

end Unet4Cooja
