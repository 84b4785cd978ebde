import Unet4Cooja.Brtos.DelayList
import Unet4Cooja.Hal.Benchmark
import Unet4Cooja.Lib.Faults

/-!
# The benchmark tasks (`benchmark.c`, `benchmark-coap.c`)

* `readAt`, `writeAt`, `divide` : the accesses, with the faults they can end in;
* `CoordinatorSys.round`, `CoapServerSys.round`, `ClientSys.round` : the loops of the three tasks;
* `coordinator`, `coapServer`, `client` : the tasks from the first command on;
* `CoordinatorOk`, `CoapServerOk`, `ClientOk` : the packets and commands without a fault;
* `benchmarkSafe_iff` : a task has no fault if and only if each round meets the condition;
* `benchmarkSafe_fails` : each task has a fault.
-/

namespace Unet4Cooja
open Lib

inductive BenchmarkFault
  | indexOutOfBounds | divideByZero

/-! ## The accesses -/

section
variable {n : Nat}

def readAt (v : Vector U16 n) (i : Nat) : Except BenchmarkFault U16 :=
  if h : i < n then .ok (v.get ⟨i, h⟩) else .error .indexOutOfBounds

def writeAt (v : Vector U16 n) (i : Nat) (x : U16) : Except BenchmarkFault (Vector U16 n) :=
  if h : i < n then .ok (v.set i x h) else .error .indexOutOfBounds

def divide (x y : U16) : Except BenchmarkFault U16 := if y = 0 then .error .divideByZero else .ok (x / y)

theorem isOk_readAt {v : Vector U16 n} {i : Nat} : (readAt v i).isOk ↔ i < n := isOk_dite

theorem isOk_writeAt {v : Vector U16 n} {i : Nat} {x : U16} : (writeAt v i x).isOk ↔ i < n := isOk_dite

theorem isOk_divide {x y : U16} : (divide x y).isOk ↔ y ≠ 0 := by
  unfold divide
  split
  · rename_i h
    exact ⟨fun hf => (nomatch hf), fun hy => absurd h hy⟩
  · rename_i h
    exact ⟨fun _ => h, fun _ => rfl⟩

end

/-! ## The tasks -/

/-- What `gets` leaves in the array, and what it returns. -/
structure SerialLine where
  data : Nat → U8
  count : U8

structure CoordinatorSys extends BenchmarkVars where
  bmPktsRecv : Vector U16 255

/-- A coordinator wakes up: what `gets` does, and the packet that is there. -/
structure Wake (π : Type) where
  line : SerialLine
  packet : Option π

/-- The loop waits until a first command has been given; its values are asserted. -/
def BenchmarkVars.asserts (b : BenchmarkVars) : Prop := b.bmNumOfNodes ≠ 0 ∧ b.bmInterval ≠ 0

instance (b : BenchmarkVars) : Decidable b.asserts := inferInstanceAs (Decidable (_ ∧ _))

namespace CoordinatorSys
variable (s : CoordinatorSys)

/-- `for(i=0;i<=bm_num_of_nodes;i++) bm_pkts_recv[i] = 0`, in `benchmark.c`. -/
def reset : Except BenchmarkFault CoordinatorSys := do
  let bmPktsRecv ← (List.range (s.bmNumOfNodes.toNat + 1)).foldlM (fun v i => writeAt v i 0) s.bmPktsRecv
  pure { s with bmPktsRecv := bmPktsRecv }

def parse (l : SerialLine) : CoordinatorSys :=
  { s with toBenchmarkVars := benchmarkParseControl l.data s.toBenchmarkVars }

def command (l : SerialLine) : Except BenchmarkFault CoordinatorSys :=
  if (s.parse l).bmCtrl.getLsbD 3 then (s.parse l).reset else pure (s.parse l)

/-- The check for control messages. -/
def control (l : SerialLine) : Except BenchmarkFault CoordinatorSys := if 0 < l.count then s.command l else pure s

/-- A packet from the address with this last byte. -/
def receive (senderAddress : U8) : Except BenchmarkFault CoordinatorSys := do
  let received ← readAt s.bmPktsRecv senderAddress.toNat
  let bmPktsRecv ← writeAt s.bmPktsRecv senderAddress.toNat (received + 1)
  pure { s with bmPktsRecv := bmPktsRecv }

/-- A round of the loop in `benchmark.c`. -/
def round (w : Wake U8) : Except BenchmarkFault CoordinatorSys := do
  let s ← s.control w.line
  match w.packet with
  | none => pure s
  | some senderAddress => s.receive senderAddress

end CoordinatorSys

/-- `Benchmark_Packet_Type`, without its message. -/
structure BenchmarkPacket where
  fromNode : U16
  msgNumber : U16

/-- The variables of the task in a CoAP server. -/
structure CoapServerSys extends CoordinatorSys where
  messageTable : Vector U16 128

namespace CoapServerSys
variable (s : CoapServerSys)

/-- The same loop in `benchmark-coap.c`, for both arrays. -/
def reset : Except BenchmarkFault CoapServerSys := do
  let (bmPktsRecv, messageTable) ← (List.range (s.bmNumOfNodes.toNat + 1)).foldlM
    (fun (v : Vector U16 255 × Vector U16 128) i => do
      let bmPktsRecv ← writeAt v.1 i 0
      let messageTable ← writeAt v.2 i 0
      pure (bmPktsRecv, messageTable)) (s.bmPktsRecv, s.messageTable)
  pure { s with bmPktsRecv := bmPktsRecv, messageTable := messageTable }

def parse (l : SerialLine) : CoapServerSys :=
  { s with toBenchmarkVars := benchmarkParseControl l.data s.toBenchmarkVars }

def command (l : SerialLine) : Except BenchmarkFault CoapServerSys :=
  if (s.parse l).bmCtrl.getLsbD 3 then (s.parse l).reset else pure (s.parse l)

def receive (p : BenchmarkPacket) : Except BenchmarkFault CoapServerSys := do
  let last ← readAt s.messageTable p.fromNode.toNat
  if last < p.msgNumber then do
    let messageTable ← writeAt s.messageTable p.fromNode.toNat p.msgNumber
    let received ← readAt s.bmPktsRecv p.fromNode.toNat
    let bmPktsRecv ← writeAt s.bmPktsRecv p.fromNode.toNat (received + 1)
    pure { s with messageTable := messageTable, bmPktsRecv := bmPktsRecv }
  else pure s

/-- A round of the loop in `benchmark-coap.c`. -/
def round (w : Wake BenchmarkPacket) : Except BenchmarkFault CoapServerSys :=
  if 0 < w.line.count then s.command w.line
  else
    match w.packet with
    | none => pure s
    | some p => s.receive p

end CoapServerSys

/-- The variables of the task in a router; `benchmark-coap.c` differs from `benchmark.c` in how it sends. -/
structure ClientSys extends BenchmarkVars where
  nodeId : U16
  msgNumber : U16
  sendTime : U64
  waitTime : U64

/-- A round of a router: what `gets` does, and the ticks before and after it sends. -/
structure ClientRound where
  line : SerialLine
  ticked : U64
  tick : U64

namespace ClientSys
variable (s : ClientSys)

/-- `(ostick_t)(bm_interval/bm_num_of_nodes) * (bm_num_of_nodes - node_id)`. -/
def nodeSendTime : Except BenchmarkFault U64 := do
  let slot ← divide s.bmInterval (s.bmNumOfNodes.setWidth 16)
  pure (slot.setWidth 64 * (s.bmNumOfNodes.setWidth 16 - s.nodeId).setWidth 64)

def parse (l : SerialLine) : ClientSys :=
  { s with toBenchmarkVars := benchmarkParseControl l.data s.toBenchmarkVars }

/-- The handling of a command, up to the test before `goto wait_serial`. -/
def command (l : SerialLine) : Except BenchmarkFault ClientSys := do
  let s := s.parse l
  let s := if s.bmCtrl.getLsbD 0 then { s with msgNumber := 1 } else s
  let s := if s.bmCtrl.getLsbD 1 then { s with waitTime := 0 } else s
  if s.bmCtrl.getLsbD 6 then do
    let sendTime ← s.nodeSendTime
    pure { s with sendTime := sendTime }
  else pure s

/-- After the command the task waits for the next one. -/
def delaysStart : Prop := ¬ s.bmCtrl.getLsbD 1 ∧ s.bmCtrl.getLsbD 0 ∧ s.waitTime ≠ s.sendTime

instance : Decidable s.delaysStart := inferInstanceAs (Decidable (_ ∧ _))

/-- The rest of the loop. -/
def send (ticked tick : U64) : ClientSys :=
  if s.bmEnComm then
    let s := { s with msgNumber := s.msgNumber + 1 }
    if s.bmNumOfPackets.setWidth 16 < s.msgNumber then { s with waitTime := 0, bmEnComm := false }
    else
      let waitTime := s.bmInterval.setWidth 64 - (tick - ticked)
      { s with waitTime := if waitTime = 0 ∨ s.bmInterval.setWidth 64 < waitTime then noTimeoutTicks else waitTime }
  else s

/-- A round of the loop of a router. -/
def round (r : ClientRound) : Except BenchmarkFault ClientSys :=
  if 0 < r.line.count then do
    let s ← s.command r.line
    if s.delaysStart then pure { s with waitTime := s.sendTime } else pure (s.send r.ticked r.tick)
  else pure (s.send r.ticked r.tick)

end ClientSys

/-- A task from its first command on. It stays in `assert`, or it comes to its loop. -/
def runTask {σ : Type} {α : Type} (start : Except BenchmarkFault (Option σ))
    (round : σ → α → Except BenchmarkFault σ) (as : List α) : Except BenchmarkFault (Option σ) := do
  match ← start with
  | none => pure none
  | some s => do
    let s ← as.foldlM round s
    pure (some s)

def CoordinatorSys.start (s : CoordinatorSys) (first : SerialLine) : Except BenchmarkFault (Option CoordinatorSys) :=
  pure (if (s.parse first).asserts then some (s.parse first) else none)

def CoapServerSys.start (s : CoapServerSys) (first : SerialLine) : Except BenchmarkFault (Option CoapServerSys) :=
  let s := { s with messageTable := Vector.replicate 128 0 }
  pure (if (s.parse first).asserts then some (s.parse first) else none)

def ClientSys.start (s : ClientSys) (first : SerialLine) : Except BenchmarkFault (Option ClientSys) :=
  let s := s.parse first
  if s.asserts then do
    let sendTime ← s.nodeSendTime
    pure (some { s with sendTime := if sendTime = 0 then noTimeoutTicks else sendTime, waitTime := 0 })
  else pure none

/-- `unet_benchmark` of a coordinator in `benchmark.c`. -/
def coordinator (s : CoordinatorSys) (first : SerialLine) (ws : List (Wake U8)) :
    Except BenchmarkFault (Option CoordinatorSys) :=
  runTask (s.start first) CoordinatorSys.round ws

/-- `unet_benchmark` of a coordinator in `benchmark-coap.c`. -/
def coapServer (s : CoapServerSys) (first : SerialLine) (ws : List (Wake BenchmarkPacket)) :
    Except BenchmarkFault (Option CoapServerSys) :=
  runTask (s.start first) CoapServerSys.round ws

/-- `unet_benchmark` of a router. -/
def client (s : ClientSys) (first : SerialLine) (rs : List ClientRound) : Except BenchmarkFault (Option ClientSys) :=
  runTask (s.start first) ClientSys.round rs

/-! ## One round -/

/-- `bm_num_of_nodes` after the command. -/
def nodesAfter (b : BenchmarkVars) (l : SerialLine) : U8 :=
  if (l.data 0).getLsbD 6 then l.data 1 else b.bmNumOfNodes

/-- A command with `reset` leaves a number of nodes below the bound. -/
def ResetFits (bound : Nat) (b : BenchmarkVars) (l : SerialLine) : Prop :=
  (l.data 0).getLsbD 3 → (nodesAfter b l).toNat < bound

def CoordinatorOk (s : CoordinatorSys) (w : Wake U8) : Prop :=
  (0 < w.line.count → ResetFits 255 s.toBenchmarkVars w.line) ∧ ∀ senderAddress ∈ w.packet, senderAddress ≠ 255

/-- A packet is only looked at when there is no command. -/
def CoapServerOk (s : CoapServerSys) (w : Wake BenchmarkPacket) : Prop :=
  (0 < w.line.count → ResetFits 128 s.toBenchmarkVars w.line) ∧
    (w.line.count = 0 → ∀ p ∈ w.packet, p.fromNode.toNat < 128)

/-- A command with `set` is for at least one node. -/
def ClientOk (_ : ClientSys) (r : ClientRound) : Prop :=
  0 < r.line.count → (r.line.data 0).getLsbD 6 → r.line.data 1 ≠ 0

section
variable {l : SerialLine}

theorem parse_bmCtrl (b : BenchmarkVars) (l : SerialLine) :
    (benchmarkParseControl l.data b).bmCtrl = l.data 0 := by
  unfold benchmarkParseControl
  cases h0 : (l.data 0).getLsbD 0 <;> cases h1 : (l.data 0).getLsbD 1 <;> cases h6 : (l.data 0).getLsbD 6 <;>
    simp only [h0, h1, h6, Bool.false_eq_true, ↓reduceIte]

theorem parse_bmNumOfNodes (b : BenchmarkVars) (l : SerialLine) :
    (benchmarkParseControl l.data b).bmNumOfNodes = nodesAfter b l := by
  unfold benchmarkParseControl nodesAfter
  cases h0 : (l.data 0).getLsbD 0 <;> cases h1 : (l.data 0).getLsbD 1 <;> cases h6 : (l.data 0).getLsbD 6 <;>
    simp only [h0, h1, h6, Bool.false_eq_true, ↓reduceIte]

theorem forall_mem_range_lt {m n : Nat} : (∀ i ∈ List.range (m + 1), i < n) ↔ m < n := by
  constructor
  · exact fun h => h m (List.mem_range.mpr (Nat.lt_succ_self m))
  · intro h i hi
    have := List.mem_range.mp hi
    omega

namespace CoordinatorSys
variable (s : CoordinatorSys)

theorem isOk_reset : s.reset.isOk ↔ s.bmNumOfNodes.toNat < 255 := by
  unfold reset
  rw [isOk_bind_pure, isOk_foldlM_forall (p := fun i => i < 255) fun v i => isOk_writeAt, forall_mem_range_lt]

theorem isOk_command : (s.command l).isOk ↔ ResetFits 255 s.toBenchmarkVars l := by
  have hctrl : (s.parse l).bmCtrl = l.data 0 := parse_bmCtrl s.toBenchmarkVars l
  have hnodes : (s.parse l).bmNumOfNodes = nodesAfter s.toBenchmarkVars l := parse_bmNumOfNodes s.toBenchmarkVars l
  unfold command ResetFits
  rw [isOk_ite, isOk_reset, hctrl, hnodes]

theorem isOk_control : (s.control l).isOk ↔ (0 < l.count → ResetFits 255 s.toBenchmarkVars l) := by
  unfold control
  rw [isOk_ite, isOk_command]

theorem isOk_receive (senderAddress : U8) : (s.receive senderAddress).isOk ↔ senderAddress ≠ 255 := by
  have hlt : senderAddress.toNat < 255 ↔ senderAddress ≠ 255 := by
    rw [ne_eq, ← BitVec.toNat_inj]
    show _ ↔ ¬ senderAddress.toNat = 255
    omega
  unfold receive
  rw [isOk_bind_and fun received => isOk_bind_pure.trans isOk_writeAt, isOk_readAt, and_self, hlt]

theorem isOk_round (w : Wake U8) : (s.round w).isOk ↔ CoordinatorOk s w := by
  have hpacket (t : CoordinatorSys) : (match w.packet with
      | none => pure t
      | some senderAddress => t.receive senderAddress).isOk ↔
        ∀ senderAddress ∈ w.packet, senderAddress ≠ 255 := by
    cases w.packet with
    | none => simp
    | some senderAddress => simp [isOk_receive]
  unfold round CoordinatorOk
  rw [isOk_bind_and hpacket, isOk_control]

end CoordinatorSys

namespace CoapServerSys
variable (s : CoapServerSys)

theorem isOk_reset : s.reset.isOk ↔ s.bmNumOfNodes.toNat < 128 := by
  have hbody (v : Vector U16 255 × Vector U16 128) (i : Nat) : (do
      let bmPktsRecv ← writeAt v.1 i 0
      let messageTable ← writeAt v.2 i 0
      pure (bmPktsRecv, messageTable) : Except BenchmarkFault _).isOk ↔ i < 128 := by
    rw [isOk_bind_and fun _ => isOk_bind_pure.trans isOk_writeAt, isOk_writeAt]
    omega
  unfold reset
  rw [isOk_bind_pure, isOk_foldlM_forall hbody, forall_mem_range_lt]

theorem isOk_command : (s.command l).isOk ↔ ResetFits 128 s.toBenchmarkVars l := by
  have hctrl : (s.parse l).bmCtrl = l.data 0 := parse_bmCtrl s.toBenchmarkVars l
  have hnodes : (s.parse l).bmNumOfNodes = nodesAfter s.toBenchmarkVars l := parse_bmNumOfNodes s.toBenchmarkVars l
  unfold command ResetFits
  rw [isOk_ite, isOk_reset, hctrl, hnodes]

theorem isOk_receive (p : BenchmarkPacket) : (s.receive p).isOk ↔ p.fromNode.toNat < 128 := by
  unfold receive
  rw [isOk_bind]
  constructor
  · rintro ⟨last, hlast, -⟩
    exact isOk_readAt.mp (isOk_iff.mpr ⟨last, hlast⟩)
  · intro h
    obtain ⟨last, hlast⟩ := isOk_iff.mp (isOk_readAt.mpr h)
    refine ⟨last, hlast, ?_⟩
    split
    · rw [isOk_bind_and fun _ => isOk_bind_and fun _ => isOk_bind_pure.trans isOk_writeAt, isOk_writeAt, isOk_readAt]
      omega
    · rfl

theorem isOk_round (w : Wake BenchmarkPacket) : (s.round w).isOk ↔ CoapServerOk s w := by
  unfold round CoapServerOk
  split
  · rename_i h
    have hne : w.line.count ≠ 0 := by
      intro he
      rw [he] at h
      exact absurd h (by decide)
    rw [isOk_command, forall_prop_of_true h, forall_prop_of_false hne, and_true]
  · rename_i h
    have hzero : w.line.count = 0 := by
      have hle := BitVec.not_lt.mp h
      bv_omega
    rw [forall_prop_of_false h, true_and, forall_prop_of_true hzero]
    cases w.packet with
    | none => simp
    | some p => simp [isOk_receive]

end CoapServerSys

namespace ClientSys
variable (s : ClientSys)

theorem isOk_nodeSendTime : s.nodeSendTime.isOk ↔ s.bmNumOfNodes ≠ 0 := by
  unfold nodeSendTime
  rw [isOk_bind_pure, isOk_divide, ne_eq, ← BitVec.toNat_inj, ne_eq, ← BitVec.toNat_inj, BitVec.toNat_setWidth]
  show ¬ s.bmNumOfNodes.toNat % 65536 = 0 ↔ ¬ s.bmNumOfNodes.toNat = 0
  have := s.bmNumOfNodes.isLt
  omega

theorem isOk_command : (s.command l).isOk ↔ ((l.data 0).getLsbD 6 → l.data 1 ≠ 0) := by
  have hctrl : (s.parse l).bmCtrl = l.data 0 := parse_bmCtrl s.toBenchmarkVars l
  have hnodes : (s.parse l).bmNumOfNodes = nodesAfter s.toBenchmarkVars l := parse_bmNumOfNodes s.toBenchmarkVars l
  have hvars {t : ClientSys} (h : t.toBenchmarkVars = (s.parse l).toBenchmarkVars) :
      (if t.bmCtrl.getLsbD 6 then do
        let sendTime ← t.nodeSendTime
        pure { t with sendTime := sendTime }
      else pure t : Except BenchmarkFault ClientSys).isOk ↔ ((l.data 0).getLsbD 6 → l.data 1 ≠ 0) := by
    rw [isOk_ite, isOk_bind_pure, isOk_nodeSendTime, h, hctrl, hnodes]
    apply forall_congr'
    intro hset
    rw [nodesAfter, if_pos hset]
  unfold command
  apply hvars
  split_ifs <;> rfl

theorem isOk_round (r : ClientRound) : (s.round r).isOk ↔ ClientOk s r := by
  have hrest (t : ClientSys) : (if t.delaysStart then pure { t with waitTime := t.sendTime }
      else pure (t.send r.ticked r.tick) : Except BenchmarkFault ClientSys).isOk ↔ True := by
    split <;> simp
  unfold round ClientOk
  rw [isOk_ite, isOk_bind_and hrest, and_true, isOk_command]

end ClientSys

end

/-! ## Whole runs -/

/-- Each round meets `ok` in the state in which it is taken. -/
def RoundsMeet {σ α : Type} (start : Except BenchmarkFault (Option σ)) (round : σ → α → Except BenchmarkFault σ)
    (ok : σ → α → Prop) (as : List α) : Prop :=
  ∀ s, start = .ok (some s) → ∀ bs a t, bs ++ [a] <+: as → bs.foldlM round s = .ok t → ok t a

theorem isOk_runTask {σ α : Type} {start : Except BenchmarkFault (Option σ)} {round : σ → α → Except BenchmarkFault σ}
    {ok : σ → α → Prop} (hstart : start.isOk) (hround : ∀ s a, (round s a).isOk ↔ ok s a) (as : List α) :
    (runTask start round as).isOk ↔ RoundsMeet start round ok as := by
  obtain ⟨o, rfl⟩ := isOk_iff.mp hstart
  cases o with
  | none => exact ⟨fun _ s hs => (nomatch hs), fun _ => rfl⟩
  | some s =>
    have hrun : (runTask (.ok (some s)) round as).isOk ↔ (as.foldlM round s).isOk := isOk_bind_pure
    rw [hrun, isOk_foldlM hround]
    constructor
    · intro h t ht
      cases ht
      exact h
    · exact fun h => h s rfl

theorem ClientSys.isOk_start (s : ClientSys) (first : SerialLine) : (s.start first).isOk := by
  unfold ClientSys.start
  dsimp only
  split
  · rename_i h
    exact isOk_bind_pure.mpr ((s.parse first).isOk_nodeSendTime.mpr h.1)
  · rfl

theorem benchmarkSafe_iff (first : SerialLine) (s : CoordinatorSys) (ws : List (Wake U8)) (t : CoapServerSys)
    (ps : List (Wake BenchmarkPacket)) (u : ClientSys) (rs : List ClientRound) :
    ((coordinator s first ws).isOk ↔ RoundsMeet (s.start first) CoordinatorSys.round CoordinatorOk ws) ∧
    ((coapServer t first ps).isOk ↔ RoundsMeet (t.start first) CoapServerSys.round CoapServerOk ps) ∧
    ((client u first rs).isOk ↔ RoundsMeet (u.start first) ClientSys.round ClientOk rs) := by
  refine ⟨?_, ?_, ?_⟩
  · exact isOk_runTask rfl CoordinatorSys.isOk_round ws
  · exact isOk_runTask rfl CoapServerSys.isOk_round ps
  · exact isOk_runTask (u.isOk_start first) ClientSys.isOk_round rs

/-! ## Faults -/

/-- `gets` returns these bytes; with none it returns 0. -/
def serialLine (bytes : List U8) : SerialLine := ⟨fun i => bytes.getD i 0, BitVec.ofNat 8 bytes.length⟩

def setLine (reset : Bool) (motes : Nat) : SerialLine := serialLine (bmcCommand reset motes 100 1000)

def freshCoordinator : CoordinatorSys := { toBenchmarkVars := clearedBenchmark, bmPktsRecv := Vector.replicate 255 0 }

def freshCoapServer : CoapServerSys :=
  { toCoordinatorSys := freshCoordinator, messageTable := Vector.replicate 128 0 }

def freshClient : ClientSys :=
  { toBenchmarkVars := clearedBenchmark, nodeId := 2, msgNumber := 1, sendTime := 0, waitTime := 0 }

/-- After a first command for two motes: a packet from the address 255, a reset for 256 motes, a packet from the node
128, a reset for 129 motes, and a command for one mote to a router. -/
theorem benchmarkSafe_fails :
    ¬ (coordinator freshCoordinator (setLine false 2) [⟨serialLine [], some 255⟩]).isOk ∧
    ¬ (coordinator freshCoordinator (setLine false 2) [⟨setLine true 256, none⟩]).isOk ∧
    ¬ (coapServer freshCoapServer (setLine false 2) [⟨serialLine [], some ⟨128, 1⟩⟩]).isOk ∧
    ¬ (coapServer freshCoapServer (setLine false 2) [⟨setLine true 129, none⟩]).isOk ∧
    ¬ (client freshClient (setLine false 2) [⟨setLine false 1, 0, 0⟩]).isOk := by
  refine ⟨?_, ?_, ?_, ?_, ?_⟩ <;> decide +kernel

end Unet4Cooja
