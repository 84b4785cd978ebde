import Mathlib.Data.Finset.Insert
import Unet4Cooja.Ieee802154

/-!
# Sending a frame (`unet_packet_output`, `cc2520.c`)

* `RadioFlag`, `OutputPc`, `RadioSys` : the bits of `RADIO_STATE`, where a task is in a call, and what
  the tasks and the interrupt share;
* `cc2520Write`, `cc2520Transmit`, `unetPacketOutput` : a call, cut where an interrupt may come;
* `radioRxInterrupt`, `unetRadioIsrHandler` : the FIFOP interrupt;
* `RadioAct`, `radioStep` : the interleavings.

`TX_STATUS` and `TX_RETRIES`, which are only printed, and the length of the delays are left out. The bytes
of the RX FIFO are what the interrupt finds there; it reads their number.
-/

namespace Unet4Cooja

/-- `eRADIO_FLAGS`. -/
inductive RadioFlag
  | init | autoack | txOk | txAck | txAcked | rxOk | rxDisabled | loopback
  deriving DecidableEq

/-- What `UNET_RADIO.send` returns; `driverError` is -1. -/
inductive RadioStatus
  | driverError | radioTxErrNone | radioTxErrCollision | radioTxWait
  deriving DecidableEq

inductive PacketSend
  | packetSendOk | packetSendErr
  deriving DecidableEq

def footerLen : Nat := 2
def cc2520AckLength : Nat := 6
def cc2520MaxPacketLength : Nat := 128

/-- The packet and the local variable `tx_retries` of a call. -/
structure OutputCall where
  pkt : Packet
  txRetries : U8

/-- Where a task is in `unet_packet_output`. -/
inductive OutputPc
  /-- In no call. -/
  | idle
  /-- At `acquireRadio`. -/
  | acquire (c : OutputCall)
  /-- At the condition of the loop. -/
  | retry (c : OutputCall)
  /-- In `cc2520_write`, at `cc2520_transmit`. -/
  | transmit (c : OutputCall)
  /-- `UNET_RADIO.send` has returned `radio_status`. -/
  | sent (c : OutputCall) (radioStatus : RadioStatus)
  /-- In `OSSemPend` at `ChangeContext`; the tick it waits for has come or not. -/
  | pend (c : OutputCall) (timedOut : Bool)
  /-- `OSSemPend` has not returned `TIMEOUT`. -/
  | posted (c : OutputCall)
  /-- At `radio_tx_acked(FALSE)`. -/
  | acked (c : OutputCall)
  /-- At `RadioReset`. -/
  | reset (c : OutputCall)
  /-- In `DelayTask`. -/
  | delay (c : OutputCall)
  /-- At `releaseRadio`. -/
  | release (c : OutputCall) (res : PacketSend)
  /-- The call has returned `res`. -/
  | returned (c : OutputCall) (res : PacketSend)

/-- The parameter `RADIO_STATE`, the driver, the two events, the mutex of the radio and the tasks. -/
structure RadioSys (τ : Type*) where
  radioState : Finset RadioFlag
  waitingAck : Bool
  /-- The FIFOP interrupt is enabled. -/
  fifopInt : Bool
  radioRxEvent : Nat
  radioTxEvent : Nat
  /-- The tasks that wait for `Radio_TX_Event`; there is at most one (`waits_alone`). -/
  txWaitList : List τ
  /-- The task that has `Radio_IEEE802`. -/
  radioIeee802 : Option τ
  pc : τ → OutputPc

variable {τ : Type*}

/-- `UNET_Init`. -/
def RadioSys.start : RadioSys τ where
  radioState := ∅
  waitingAck := false
  fifopInt := true
  radioRxEvent := 0
  radioTxEvent := 0
  txWaitList := []
  radioIeee802 := none
  pc := fun _ => .idle

/-- `RADIO_STATE_SET` and `RADIO_STATE_RESET`. -/
def RadioSys.flag (s : RadioSys τ) (f : RadioFlag) (b : Bool) : RadioSys τ :=
  { s with radioState := if b then insert f s.radioState else s.radioState.erase f }

/-! ## The interrupt -/

section
variable (s : RadioSys τ)

def postTxEvent : RadioSys τ :=
  match s.txWaitList with
  | [] => { s with radioTxEvent := osSemPost s.radioTxEvent }
  | _ :: ts => { s with txWaitList := ts }

def unetRadioIsrHandler : RadioSys τ :=
  let state := s.radioState
  let s :=
    if .rxOk ∈ state then
      { (s.flag .rxDisabled true).flag .rxOk false with radioRxEvent := osSemPost s.radioRxEvent }
    else s
  if .txOk ∈ state then postTxEvent (s.flag .txOk false) else s

def radioRxInterrupt (rxfifoLength : Nat) : RadioSys τ :=
  let s := { s with fifopInt := false }
  let s :=
    if rxfifoLength = cc2520AckLength then
      let s := if s.waitingAck then (s.flag .txAcked true).flag .txOk true else s
      { s.flag .rxOk false with fifopInt := true }
    else if cc2520AckLength < rxfifoLength ∧ rxfifoLength < cc2520MaxPacketLength then s.flag .rxOk true
    else { s.flag .rxOk false with fifopInt := true }
  unetRadioIsrHandler { s with waitingAck := false }

/-- A round of `UNET_Radio_Task`, as far as it uses the radio: `cc2520_read` enables the interrupt. -/
def unetRadioTaskRecv : Option (RadioSys τ) :=
  if 0 < s.radioRxEvent then
    some { (s.flag .rxOk false).flag .rxDisabled false with
      radioRxEvent := s.radioRxEvent - 1
      fifopInt := true }
  else none

end

/-! ## A call -/

section
variable [DecidableEq τ] (s : RadioSys τ) (t : τ)

def RadioSys.goto (pc : OutputPc) : RadioSys τ := { s with pc := Function.update s.pc t pc }

def cc2520Write (c : OutputCall) : RadioSys τ :=
  let frameControl := c.pkt.packet macFrameCtrl
  if 127 < c.pkt.info.size.toNat + footerLen then s.goto t (.sent c .driverError)
  else
    let s := if frameControl = 0x41 then (s.flag .txAck false).flag .txAcked true else s
    let s := if frameControl = 0x61 then (s.flag .txAck true).flag .txAcked false else s
    s.goto t (.transmit c)

/-- `cc2520_transmit`, and `CC2520_INTERRUPT_ENABLE_SET` after it. The transmission takes place, or there
is a collision or other activity on the channel. -/
def cc2520Transmit (c : OutputCall) (transmitted : Bool) : RadioSys τ :=
  let s := { s with fifopInt := true }
  if transmitted then
    if .txAck ∈ s.radioState then { s with waitingAck := true }.goto t (.sent c .radioTxWait)
    else s.goto t (.sent c .radioTxErrNone)
  else s.goto t (.sent c .radioTxErrCollision)

/-- `OSSemPend(Radio_TX_Event, TX_TIMEOUT)` up to `ChangeContext`. -/
def pendTxEvent (c : OutputCall) : RadioSys τ :=
  if 0 < s.radioTxEvent then { s with radioTxEvent := s.radioTxEvent - 1 }.goto t (.posted c)
  else { s with txWaitList := t :: s.txWaitList }.goto t (.pend c false)

/-- `unet_packet_output` by the task `t`, up to the next point, apart from the transmission. -/
def unetPacketOutput : OutputPc → Option (RadioSys τ)
  | .idle | .transmit _ | .returned .. => none
  | .acquire c =>
    if s.radioIeee802 = none then some ({ s with radioIeee802 := some t }.goto t (.retry c)) else none
  | .retry c =>
    let c' := { c with txRetries := c.txRetries - 1 }
    some (if 0 < c.txRetries then cc2520Write s t c' else s.goto t (.release c' .packetSendErr))
  | .sent c .driverError => some (s.goto t (.release c .packetSendErr))
  | .sent c .radioTxErrNone => some (s.goto t (.release c .packetSendOk))
  | .sent c .radioTxErrCollision => some (s.goto t (.delay c))
  | .sent c .radioTxWait => some (pendTxEvent s t c)
  | .pend c timedOut =>
    if t ∈ s.txWaitList then
      if timedOut then
        some ({ s with txWaitList := s.txWaitList.filter (· ≠ t) }.goto t (.reset c))
      else none
    else some (s.goto t (.posted c))
  | .posted c => some (s.goto t (if .txAcked ∈ s.radioState then .acked c else .delay c))
  | .acked c => some ((s.flag .txAcked false).goto t (.release c .packetSendOk))
  | .reset c => some ({ s with fifopInt := true }.goto t (.delay c))
  | .delay c => some (s.goto t (.retry c))
  | .release c res => some ({ s with radioIeee802 := none }.goto t (.returned c res))

/-- A step: a call, the next step of a task, its transmission or the tick it waits for, an interrupt, or a
round of the radio task. -/
inductive RadioAct (τ : Type*)
  | call (t : τ) (pkt : Packet) (txRetries : U8)
  | task (t : τ)
  | transmit (t : τ) (transmitted : Bool)
  | tick (t : τ)
  | interrupt (fifo : List U8)
  | recv

def radioStep : RadioAct τ → Option (RadioSys τ)
  | .call t pkt txRetries =>
    match s.pc t with
    | .idle | .returned .. => some (s.goto t (.acquire ⟨pkt, txRetries⟩))
    | _ => none
  | .task t => unetPacketOutput s t (s.pc t)
  | .transmit t transmitted =>
    match s.pc t with
    | .transmit c => some (cc2520Transmit s t c transmitted)
    | _ => none
  | .tick t =>
    match s.pc t with
    | .pend c _ => some (s.goto t (.pend c true))
    | _ => none
  | .interrupt fifo => if s.fifopInt then some (radioRxInterrupt s fifo.length) else none
  | .recv => unetRadioTaskRecv s

end

end Unet4Cooja
