import Unet4Cooja.Brtos.TimerOps
import Unet4Cooja.Lib.Runs
import Unet4Cooja.Packet

/-!
# CoAP transactions (`er-coap-transactions.c`)

* `SoftTimer` : what a transaction needs of a soft timer; `softTimers_set`, `softTimers_start`, `softTimers_stop`,
  `softTimers_finish` : it is what `stimer.c` does;
* `CoapTransaction`, `CoapSys` : the transactions, the timers, and where the timer task is;
* `coapNewTransaction`, `coapSendTransaction`, `coapClearTransaction`, `coapCheckTransactions` : the functions;
* `CoapAct`, `coapStep` : the interleavings.

A call of one of the functions is a step. A timer that runs may expire at any time.
-/

namespace Unet4Cooja
open Lib

/-! ## Soft timers -/

structure SoftTimer where
  state : TimerState
  funcCb : Option Nat
  deriving DecidableEq

abbrev SoftTimers := BrtosTimer → SoftTimer

namespace SoftTimers
variable (m : SoftTimers) (p : BrtosTimer)

/-- The control block `OSTimerSet` takes. -/
def freeTimer : Option BrtosTimer :=
  match (List.finRange brtosMaxTimer).find? fun i => (m i).state = .notAllocated ∨ (m i).state = .notUsed with
  | none => none
  | some i => if (m i).state = .notAllocated then none else some i

/-- `OSTimerSet` for 0 ticks, once it has found `p`. -/
def set (cb : Nat) : SoftTimers := Function.update m p ⟨.stopped, some cb⟩

/-- `OSTimerStart`. -/
def start : SoftTimers := Function.update m p { m p with state := .running }

/-- `OSTimerStop`, with `del`. -/
def stop : SoftTimers := Function.update m p ⟨.notUsed, none⟩

/-- The timer task finds `p` expired. -/
def expire : SoftTimers := Function.update m p { m p with state := .stopped }

/-- What the timer task does after the callback of `p`, which returned `again`. -/
def finish (again : U64) : SoftTimers :=
  Function.update m p (if 0 < again then { m p with state := .running } else ⟨.notUsed, none⟩)

end SoftTimers

/-- The timers of `stimer.c`, without the queues. -/
def TimerSys.softTimers (s : TimerSys) : SoftTimers := fun p => ⟨(s.mem p).state, (s.mem p).funcCb⟩

theorem softTimers_update {s t : TimerSys} {p : BrtosTimer} (x : BrtosTimerT)
    (h : t.mem = Function.update s.mem p x) :
    t.softTimers = Function.update s.softTimers p ⟨x.state, x.funcCb⟩ := by
  funext q
  unfold TimerSys.softTimers
  rw [h]
  by_cases hq : q = p <;> simp [hq]

section
variable (null : BrtosTimerT) (s : TimerSys) (p : BrtosTimer)

theorem freeTimer_softTimers : s.freeTimer = s.softTimers.freeTimer := rfl

theorem softTimers_set (cb : Nat) :
    (osTimerSet null s cb 0).softTimers = match s.freeTimer with
      | none => s.softTimers
      | some p => s.softTimers.set p cb := by
  unfold osTimerSet
  cases s.freeTimer with
  | none => rfl
  | some p => exact softTimers_update { s.mem p with state := .stopped, funcCb := some cb } rfl

theorem softTimers_start {timeWait : U64} (h : timeWait.toNat ≠ 0) :
    (osTimerStart null s p timeWait).softTimers = s.softTimers.start p := by
  unfold osTimerStart
  rw [if_pos h]
  obtain ⟨timeToWait, he⟩ := enqueue_eq null s p (min timeWait.toNat timerMaxCounter)
  rw [he]
  exact softTimers_update { s.mem p with timeout := s.expiry _, state := .running } rfl

theorem softTimers_stop : (osTimerStop null s p true).softTimers = s.softTimers.stop p := by
  rw [stop_eq]
  exact softTimers_update { funcCb := none, timeout := 0, state := .notUsed } rfl

theorem softTimers_finish (ov : Bool) (again : U64) (hne : s.list ≠ s.future) :
    (s.finishExpired null ov p again.toNat).softTimers = s.softTimers.finish p again := by
  unfold SoftTimers.finish
  by_cases hpos : 0 < again
  · have hpos' : 0 < again.toNat := hpos
    have htimer : ∀ t : TimerSys, t.mem = Function.update s.mem p
        { s.mem p with timeout := s.againTimeout ov again.toNat, state := .running } →
        t.softTimers = Function.update s.softTimers p { s.softTimers p with state := .running } :=
      fun t ht => softTimers_update _ ht
    rw [if_pos hpos]
    by_cases hf : ov = true ∨ tickCountOverflow ≤ (s.tick + again.toNat) % 2 ^ 64
    · rw [finish_future hpos' hf hne]
      exact htimer _ rfl
    · rw [finish_inPlace hpos' hf]
      exact htimer _ rfl
  · have hzero : again.toNat = 0 := Nat.eq_zero_of_not_pos hpos
    rw [if_neg hpos, hzero, finish_freed]
    exact softTimers_update { funcCb := none, timeout := 0, state := .notUsed } rfl

end

/-! ## Transactions -/

abbrev coapMaxOpenTransactions : Nat := 4

abbrev coapMaxRetransmit : U8 := 4

abbrev clockSecond : Nat := 32768 / (32768 / 1000)

abbrev coapResponseTimeoutTicks : Nat := clockSecond * 3

/-- The dividend of `% (ostick_t) COAP_RESPONSE_TIMEOUT_BACKOFF_MASK`: the `+ 1` of the macro is outside. -/
abbrev coapResponseTimeoutBackoff : Nat := clockSecond * 3 / 2

abbrev coapTypeCon : U8 := 0

abbrev coapCheckTransactionsCb : Nat := 0

/-- A pointer to a block of `transactions_memb`. -/
abbrev TransactionId := Fin coapMaxOpenTransactions

/-- `coap_transaction_t`, without the response handler. -/
structure CoapTransaction where
  mid : U16
  retransTimer : Option BrtosTimer
  retransInterval : U64
  retransCounter : U8
  addr : U64
  port : U16
  packetLen : U16
  packet : Nat → U8

/-- The type of the message is confirmable. -/
def CoapTransaction.Con (x : CoapTransaction) : Prop := (0x30 &&& x.packet 0) >>> 4 = coapTypeCon

instance (x : CoapTransaction) : Decidable x.Con := inferInstanceAs (Decidable (_ = _))

/-- What `coap_send_message` is called with. -/
structure CoapMessage where
  addr : U64
  port : U16
  data : List U8
  deriving DecidableEq

def CoapTransaction.message (x : CoapTransaction) : CoapMessage :=
  ⟨x.addr, x.port, (List.range x.packetLen.toNat).map x.packet⟩

/-- Where the timer task is with an expired timer: before its callback, or after it. -/
inductive CoapTimerPc
  | idle
  | expired (p : BrtosTimer)
  | finish (p : BrtosTimer) (again : U64)
  deriving DecidableEq

/-- The transactions, the timers, and the messages that were sent. `sent` tells whether the task that opened a
transaction has sent it. -/
structure CoapSys where
  block : TransactionId → CoapTransaction
  list : List TransactionId
  sent : TransactionId → Bool
  timer : SoftTimers
  pc : CoapTimerPc
  messages : List CoapMessage

namespace CoapSys
variable (s : CoapSys) (t : TransactionId)

def setBlock (x : CoapTransaction) : CoapSys := { s with block := Function.update s.block t x }

/-- The block `memb_alloc` takes. -/
def freeBlock : Option TransactionId := (List.finRange coapMaxOpenTransactions).find? fun t => t ∉ s.list

/-- `t->retrans_timer->state`; `null` is what is found at address 0. -/
def timerState (null : TimerState) : TimerState :=
  (s.block t).retransTimer.elim null fun p => (s.timer p).state

/-- `coap_new_transaction`. If no timer is free the pointer stays what it was. -/
def coapNewTransaction (mid : U16) (addr : U64) (port : U16) : CoapSys :=
  match s.freeBlock with
  | none => s
  | some t =>
    let s := s.setBlock t { s.block t with mid := mid, retransCounter := 0, addr := addr, port := port }
    let s :=
      match s.timer.freeTimer with
      | none => s
      | some p =>
        { s.setBlock t { s.block t with retransTimer := some p } with
          timer := s.timer.set p coapCheckTransactionsCb }
    { s with list := s.list ++ [t], sent := Function.update s.sent t false }

def coapClearTransaction : CoapSys :=
  { s with
    timer := (s.block t).retransTimer.elim s.timer s.timer.stop
    list := s.list.erase t }

/-- `coap_send_transaction`; `random` is the value of `random_get`. -/
def coapSendTransaction (random : U16) : CoapSys :=
  let s := { s with messages := s.messages ++ [(s.block t).message] }
  if (s.block t).Con then
    if (s.block t).retransCounter < coapMaxRetransmit then
      if (s.block t).retransCounter = 0 then
        let interval := coapResponseTimeoutTicks + (random.toNat % coapResponseTimeoutBackoff + 1)
        let s := s.setBlock t { s.block t with retransInterval := BitVec.ofNat 64 interval }
        { s with timer := (s.block t).retransTimer.elim s.timer s.timer.start }
      else s.setBlock t { s.block t with retransInterval := (s.block t).retransInterval <<< 1 }
    else s.coapClearTransaction t
  else s.coapClearTransaction t

/-- The body of the loop of `coap_check_transactions`, for a transaction whose timer is stopped. -/
def retransmit (random : U16) : U64 × CoapSys :=
  let s := s.setBlock t { s.block t with retransCounter := (s.block t).retransCounter + 1 }
  let s := s.coapSendTransaction t random
  if (s.block t).retransCounter < coapMaxRetransmit then ((s.block t).retransInterval, s) else (0, s)

def coapCheckTransactions (null : TimerState) (random : U16) : U64 × CoapSys :=
  match s.list.find? fun t => s.timerState t null = .stopped with
  | some t => s.retransmit t random
  | none => (0, s)

end CoapSys

/-! ## Interleavings -/

/-- A step: a transaction is opened, its packet is written, it is sent, or closed; a timer expires, its callback is
called, and the timer task finishes; another user of timers changes one. -/
inductive CoapAct
  | create (mid : U16) (addr : U64) (port : U16)
  | write (t : TransactionId) (packetLen : U16) (packet : Nat → U8)
  | send (t : TransactionId) (random : U16)
  | clear (t : TransactionId)
  | expire (p : BrtosTimer)
  | callback (random : U16) (again : U64)
  | finish
  | other (p : BrtosTimer) (x : SoftTimer)

def coapStep (null : TimerState) (s : CoapSys) : CoapAct → Option CoapSys
  | .create mid addr port => some (s.coapNewTransaction mid addr port)
  | .write t packetLen packet =>
    if t ∈ s.list ∧ s.sent t = false then
      some (s.setBlock t { s.block t with packetLen := packetLen, packet := packet })
    else none
  | .send t random =>
    if t ∈ s.list ∧ s.sent t = false then
      some ({ s with sent := Function.update s.sent t true }.coapSendTransaction t random)
    else none
  | .clear t => if t ∈ s.list then some (s.coapClearTransaction t) else none
  | .expire p =>
    if s.pc = .idle ∧ (s.timer p).state = .running then
      some { s with timer := s.timer.expire p, pc := .expired p }
    else none
  | .callback random again =>
    match s.pc with
    | .expired p =>
      match (s.timer p).funcCb with
      | none => some { s with pc := .finish p 0 }
      | some cb =>
        if cb = coapCheckTransactionsCb then
          some { (s.coapCheckTransactions null random).2 with
            pc := .finish p (s.coapCheckTransactions null random).1 }
        else some { s with pc := .finish p again }
    | .idle | .finish .. => none
  | .finish =>
    match s.pc with
    | .finish p again => some { s with timer := s.timer.finish p again, pc := .idle }
    | .idle | .expired _ => none
  | .other p x =>
    if (s.timer p).funcCb ≠ some coapCheckTransactionsCb ∧ x.funcCb ≠ some coapCheckTransactionsCb then
      some { s with timer := Function.update s.timer p x }
    else none

/-- No transaction is open, and no timer is used; the memory of the blocks has any contents. -/
def coapStart (block : TransactionId → CoapTransaction) : CoapSys where
  block := block
  list := []
  sent _ := false
  timer _ := ⟨.notUsed, none⟩
  pc := .idle
  messages := []

end Unet4Cooja
