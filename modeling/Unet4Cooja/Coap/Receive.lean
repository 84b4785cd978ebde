import Unet4Cooja.Coap.Retransmission

/-!
# Bad datagrams (`coap_receive`)

The variable `transaction` of `coap_receive` is static: it outlives the call that has set it, while its
block may be freed and given to another transaction.

* `CoapDatagram`, `coapParseMessage` : the fields of the header that decide what a datagram is;
* `EngineSys`, `engineStep` : `coap_receive`, cut where another task may open or close a transaction;
* `harmed`, `noteHarm` : the open transactions that a bad datagram frees, removes or stops the timer of;
* `Spares` : the pointer is stale without being in use again, and nobody has the number of a ping;
* `EngineMove`, `EngineInv`, `engineStep_harm` : one step;
* `unharmed_iff`, `unharmed_fails` : all runs.

The options after the header, the response of a request and the text of an error reply are parameters;
observers are left out.
-/

namespace Unet4Cooja
open Lib

/-! ## Datagrams -/

/-- `coap_status_t`. -/
abbrev CoapStatus := U8

def noError : CoapStatus := 0
def badRequest400 : CoapStatus := 128
def serviceUnavailable503 : CoapStatus := 163
def packetSerializationError : CoapStatus := 193
def manualResponse : CoapStatus := 194
def pingResponse : CoapStatus := 195

/-- A datagram as `coap_conn` presents it. -/
structure CoapDatagram where
  packet : Nat → U8
  payloadSize : U8
  senderAddress : U64
  senderPort : U16

namespace CoapDatagram
variable (d : CoapDatagram)

def version : U8 := (0xC0 &&& d.packet 0) >>> 6
def type : U8 := (0x30 &&& d.packet 0) >>> 4
def code : U8 := d.packet 1
def mid : U16 := bytesToShort (d.packet 2) (d.packet 3)

/-- `COAP_GET` to `COAP_DELETE`. -/
def Request : Prop := 1 ≤ d.code ∧ d.code ≤ 4

/-- A confirmable message without a code. -/
def Ping : Prop := d.type = coapTypeCon ∧ d.code = 0

instance : Decidable d.Request := inferInstanceAs (Decidable (_ ∧ _))

instance : Decidable d.Ping := inferInstanceAs (Decidable (_ ∧ _))

end CoapDatagram

/-- `coap_parse_message`; `options` is what it returns after the header. -/
def coapParseMessage (options : CoapDatagram → CoapStatus) (d : CoapDatagram) : CoapStatus :=
  if d.version ≠ 1 then badRequest400 else options d

/-- The parser fails, or the message is a ping. -/
def CoapDatagram.Bad (options : CoapDatagram → CoapStatus) (d : CoapDatagram) : Prop :=
  coapParseMessage options d ≠ noError ∨ d.Ping

instance (options : CoapDatagram → CoapStatus) (d : CoapDatagram) : Decidable (d.Bad options) :=
  inferInstanceAs (Decidable (_ ∨ _))

/-! ## The engine -/

/-- Where the engine is with a datagram. -/
inductive EnginePc
  /-- At `OSSemPend`. -/
  | idle
  /-- The message is parsed. -/
  | parsed (d : CoapDatagram)
  /-- A request has its transaction. -/
  | serving (d : CoapDatagram)
  /-- The transaction of a response is cleared, and its callback is called. -/
  | answered (d : CoapDatagram)
  /-- At `if (erbium_status_code == NO_ERROR)`. -/
  | finish (d : CoapDatagram) (status : CoapStatus)

/-- The transactions and the engine; `transaction` is the static variable. -/
structure EngineSys where
  coap : CoapSys
  transaction : Option TransactionId
  pc : EnginePc

/-- A step: another task or the timer task uses the transactions; a datagram arrives; the engine looks at
its code; the service is called and the response serialized; the callback of a response returns; the
datagram is answered. -/
inductive EngineAct
  | task (a : CoapAct)
  | receive (d : CoapDatagram)
  | dispatch
  | respond (status : CoapStatus) (packetLen : U16) (packet : Nat → U8)
  | returned
  | finish (random : U16) (reply : List U8)

def CoapSys.coapGetTransactionByMid (s : CoapSys) (mid : U16) : Option TransactionId :=
  s.list.find? fun t => (s.block t).mid = mid

/-- `coap_clear_transaction`, which may be called with `NULL`. -/
def CoapSys.clearOption (s : CoapSys) (t : Option TransactionId) : CoapSys :=
  t.elim s s.coapClearTransaction

namespace EngineSys
variable (s : EngineSys)

/-- A message that is no request: `PING_RESPONSE` is set before the lookup. -/
def responseStatus (d : CoapDatagram) : CoapStatus := if d.Ping then pingResponse else noError

/-- `coap_receive` with a parsed message. -/
def dispatch (d : CoapDatagram) : EngineSys :=
  if d.Request then
    match s.coap.freeBlock with
    | none => { s with transaction := none, pc := .finish d serviceUnavailable503 }
    | some t =>
      { coap := s.coap.coapNewTransaction d.mid d.senderAddress d.senderPort
        transaction := some t
        pc := .serving d }
  else
    match s.coap.coapGetTransactionByMid d.mid with
    | none => { s with transaction := none, pc := .finish d (responseStatus d) }
    | some t => { coap := s.coap.coapClearTransaction t, transaction := some t, pc := .answered d }

/-- The service has written into the packet of the transaction and has set `erbium_status_code`; without
an error the response is serialized there. -/
def respond (d : CoapDatagram) (t : TransactionId) (status : CoapStatus) (packetLen : U16)
    (packet : Nat → U8) : EngineSys :=
  if status = noError then
    { s with
      coap := s.coap.setBlock t { s.coap.block t with packetLen := packetLen, packet := packet }
      pc := .finish d (if packetLen = 0 then packetSerializationError else noError) }
  else
    { s with
      coap := s.coap.setBlock t { s.coap.block t with packet := packet }
      pc := .finish d status }

/-- The end of `coap_receive`; `reply` is the serialized error message. -/
def finish (d : CoapDatagram) (status : CoapStatus) (random : U16) (reply : List U8) : EngineSys :=
  { s with
    coap :=
      if status = noError then
        match s.transaction with
        | none => s.coap
        | some t =>
          { s.coap with sent := Function.update s.coap.sent t true }.coapSendTransaction t random
      else
        let coap := s.coap.clearOption s.transaction
        if status = manualResponse then coap
        else { coap with messages := coap.messages ++ [⟨d.senderAddress, d.senderPort, reply⟩] }
    pc := .idle }

end EngineSys

def engineStep (options : CoapDatagram → CoapStatus) (null : TimerState) (s : EngineSys) :
    EngineAct → Option EngineSys
  | .task a => (coapStep null s.coap a).map fun coap => { s with coap := coap }
  | .receive d =>
    match s.pc with
    | .idle =>
      let status := coapParseMessage options d
      some { s with pc := if status = noError then .parsed d else .finish d status }
    | .parsed _ | .serving _ | .answered _ | .finish .. => none
  | .dispatch =>
    match s.pc with
    | .parsed d => some (s.dispatch d)
    | .idle | .serving _ | .answered _ | .finish .. => none
  | .respond status packetLen packet =>
    match s.pc, s.transaction with
    | .serving d, some t => some (s.respond d t status packetLen packet)
    | _, _ => none
  | .returned =>
    match s.pc with
    | .answered d =>
      some { s with transaction := none, pc := .finish d (EngineSys.responseStatus d) }
    | .idle | .parsed _ | .serving _ | .finish .. => none
  | .finish random reply =>
    match s.pc with
    | .finish d status => some (s.finish d status random reply)
    | .idle | .parsed _ | .serving _ | .answered _ => none

def engineStart (block : TransactionId → CoapTransaction) : EngineSys where
  coap := coapStart block
  transaction := none
  pc := .idle

/-! ## Harm -/

def EnginePc.datagram : EnginePc → Option CoapDatagram
  | .idle => none
  | .parsed d | .serving d | .answered d | .finish d _ => some d

def CoapSys.timerOf (s : CoapSys) (t : TransactionId) : Option (BrtosTimer × SoftTimer) :=
  (s.block t).retransTimer.map fun p => (p, s.timer p)

/-- The open transactions that are freed and removed from the list, or whose timer is stopped. -/
def harmed (s s' : CoapSys) : List TransactionId :=
  s.list.filter fun t => !s'.list.contains t || s'.timerOf t ≠ s.timerOf t

/-- What an observer notes of the steps of `coap_receive` on bad datagrams. -/
def noteHarm (options : CoapDatagram → CoapStatus) (null : TimerState) (s : EngineSys)
    (m : List TransactionId) : EngineAct → List TransactionId
  | .task _ => m
  | a =>
    match s.pc.datagram, engineStep options null s a with
    | some d, some s' => if d.Bad options then m ++ harmed s.coap s'.coap else m
    | _, _ => m

/-- The transaction the pointer was left at is closed, and no open one has got its timer, other than one
that is not in use. -/
def EngineSys.PointerSpares (s : EngineSys) : Prop :=
  ∀ t, s.transaction = some t → t ∉ s.coap.list ∧
    ∀ u ∈ s.coap.list, ∀ p, (s.coap.block t).retransTimer = some p →
      (s.coap.block u).retransTimer = some p → s.coap.timer p = ⟨.notUsed, none⟩

/-- No open transaction has the number of the message. -/
def EngineSys.MidSpares (s : EngineSys) (d : CoapDatagram) : Prop :=
  ∀ t ∈ s.coap.list, (s.coap.block t).mid ≠ d.mid

/-- The error branch finds a harmless pointer, and a ping finds nothing. -/
def Spares (options : CoapDatagram → CoapStatus) (s : EngineSys) (a : EngineAct) : Prop :=
  match s.pc, a with
  | .parsed d, .dispatch => d.Ping → s.MidSpares d
  | .finish d _, .finish .. => coapParseMessage options d ≠ noError → s.PointerSpares
  | _, _ => True

/-! ## What harms -/

open CoapSys

section
variable {s s' : CoapSys} {t : TransactionId} {p : BrtosTimer}

theorem harmed_eq_nil :
    harmed s s' = [] ↔ ∀ u ∈ s.list, u ∈ s'.list ∧ s'.timerOf u = s.timerOf u := by
  unfold harmed
  rw [List.filter_eq_nil_iff]
  simp

theorem harmed_self (s : CoapSys) : harmed s s = [] := harmed_eq_nil.mpr fun _ hu => ⟨hu, rfl⟩

theorem coapClearTransaction_timerOf (hp : (s.block t).retransTimer = some p) (u : TransactionId) :
    (s.coapClearTransaction t).timerOf u = s.timerOf u ↔
      ((s.block u).retransTimer = some p → s.timer p = ⟨.notUsed, none⟩) := by
  have hblock : (s.coapClearTransaction t).block u = s.block u := rfl
  have htimer : (s.coapClearTransaction t).timer = s.timer.stop p := by
    unfold coapClearTransaction
    rw [hp]
    rfl
  unfold timerOf
  rw [hblock, htimer]
  cases hu : (s.block u).retransTimer with
  | none => simp
  | some q =>
    by_cases hq : q = p
    · subst hq
      simp [SoftTimers.stop, eq_comm]
    · simp [SoftTimers.stop, hq]

/-- Clearing harms nobody exactly if the block is closed, and its timer belongs to no open transaction, or
is not in use. -/
theorem harmed_clear (hn : s.list.Nodup) :
    harmed s (s.coapClearTransaction t) = [] ↔ t ∉ s.list ∧
      ∀ u ∈ s.list, ∀ p, (s.block t).retransTimer = some p →
        (s.block u).retransTimer = some p → s.timer p = ⟨.notUsed, none⟩ := by
  have hlist : (s.coapClearTransaction t).list = s.list.erase t := rfl
  have htimers : ∀ u, (s.coapClearTransaction t).timerOf u = s.timerOf u ↔
      ∀ p, (s.block t).retransTimer = some p →
        (s.block u).retransTimer = some p → s.timer p = ⟨.notUsed, none⟩ := by
    intro u
    cases hp : (s.block t).retransTimer with
    | none =>
      have hsame : s.coapClearTransaction t = { s with list := s.list.erase t } := by
        unfold coapClearTransaction
        rw [hp]
        rfl
      rw [hsame]
      exact ⟨fun _ => nofun, fun _ => rfl⟩
    | some p =>
      rw [coapClearTransaction_timerOf hp]
      constructor
      · rintro h q hq
        obtain rfl := Option.some.inj hq
        exact h
      · exact fun h => h p rfl
  rw [harmed_eq_nil]
  simp only [htimers, hlist]
  constructor
  · intro h
    refine ⟨fun ht => ?_, fun u hu => (h u hu).2⟩
    exact hn.not_mem_erase (h t ht).1
  · rintro ⟨ht, h⟩ u hu
    rw [List.erase_of_not_mem ht]
    exact ⟨hu, h u hu⟩

theorem coapGetTransactionByMid_eq_none {mid : U16} :
    s.coapGetTransactionByMid mid = none ↔ ∀ t ∈ s.list, (s.block t).mid ≠ mid := by
  unfold coapGetTransactionByMid
  simp

theorem mem_of_coapGetTransactionByMid {mid : U16} (h : s.coapGetTransactionByMid mid = some t) :
    t ∈ s.list := List.mem_of_find?_eq_some h

/-! ## The list of open transactions -/

theorem coapNewTransaction_nodup (hn : s.list.Nodup) (mid : U16) (addr : U64) (port : U16) :
    (s.coapNewTransaction mid addr port).list.Nodup := by
  cases hf : s.freeBlock with
  | none => rwa [coapNewTransaction_none hf]
  | some t =>
    rw [(created_of_freeBlock hf mid addr port).list, List.nodup_append]
    refine ⟨hn, List.nodup_singleton t, fun u hu v hv e => ?_⟩
    rw [List.mem_singleton.mp hv] at e
    exact freeBlock_notMem hf (e ▸ hu)

theorem coapSendTransaction_nodup (hn : s.list.Nodup) (t : TransactionId) (random : U16) :
    (s.coapSendTransaction t random).list.Nodup := by
  rcases coapSendTransaction_cases s t random with he | ⟨_, _, _, _, he⟩
  · rw [he]
    exact hn.erase t
  · rw [he]
    exact hn

theorem coapCheckTransactions_nodup (hn : s.list.Nodup) (null : TimerState) (random : U16) :
    (s.coapCheckTransactions null random).2.list.Nodup := by
  unfold coapCheckTransactions
  split
  · rename_i t _
    have hsend := coapSendTransaction_nodup
      (s := s.setBlock t { s.block t with retransCounter := (s.block t).retransCounter + 1 }) hn t random
    unfold retransmit
    dsimp only
    split <;> exact hsend
  · exact hn

theorem coapStep_nodup {null : TimerState} {a : CoapAct} (hn : s.list.Nodup)
    (hs : coapStep null s a = some s') : s'.list.Nodup := by
  cases a with
  | create mid addr port =>
    obtain rfl := Option.some.inj hs
    exact coapNewTransaction_nodup hn mid addr port
  | write t packetLen packet =>
    obtain ⟨_, hs⟩ := Option.ite_none_right_eq_some.mp hs
    obtain rfl := Option.some.inj hs
    exact hn
  | send t random =>
    obtain ⟨_, hs⟩ := Option.ite_none_right_eq_some.mp hs
    obtain rfl := Option.some.inj hs
    apply coapSendTransaction_nodup
    exact hn
  | clear t =>
    obtain ⟨_, hs⟩ := Option.ite_none_right_eq_some.mp hs
    obtain rfl := Option.some.inj hs
    exact hn.erase t
  | expire p =>
    obtain ⟨_, hs⟩ := Option.ite_none_right_eq_some.mp hs
    obtain rfl := Option.some.inj hs
    exact hn
  | callback random again =>
    obtain ⟨p, _, ⟨_, rfl⟩ | ⟨_, _, rfl⟩⟩ := callback_cases hs
    · exact coapCheckTransactions_nodup hn null random
    · exact hn
  | finish =>
    obtain ⟨p, again, _, rfl⟩ := finish_cases hs
    exact hn
  | other p x =>
    obtain ⟨_, hs⟩ := Option.ite_none_right_eq_some.mp hs
    obtain rfl := Option.some.inj hs
    exact hn

end

/-! ## One step -/

inductive EngineMove (options : CoapDatagram → CoapStatus) (null : TimerState) (s : EngineSys) :
    EngineAct → EngineSys → Prop
  | task {a : CoapAct} {coap : CoapSys} (h : coapStep null s.coap a = some coap) :
      EngineMove options null s (.task a) { s with coap := coap }
  | accepted {d : CoapDatagram} (hpc : s.pc = .idle) (h : coapParseMessage options d = noError) :
      EngineMove options null s (.receive d) { s with pc := .parsed d }
  | rejected {d : CoapDatagram} (hpc : s.pc = .idle) (h : coapParseMessage options d ≠ noError) :
      EngineMove options null s (.receive d) { s with pc := .finish d (coapParseMessage options d) }
  | dispatch {d : CoapDatagram} (hpc : s.pc = .parsed d) :
      EngineMove options null s .dispatch (s.dispatch d)
  | respond {d : CoapDatagram} {t : TransactionId} {status : CoapStatus} {packetLen : U16}
      {packet : Nat → U8} (hpc : s.pc = .serving d) :
      EngineMove options null s (.respond status packetLen packet) (s.respond d t status packetLen packet)
  | returned {d : CoapDatagram} (hpc : s.pc = .answered d) :
      EngineMove options null s .returned
        { s with transaction := none, pc := .finish d (EngineSys.responseStatus d) }
  | finish {d : CoapDatagram} {status : CoapStatus} {random : U16} {reply : List U8}
      (hpc : s.pc = .finish d status) :
      EngineMove options null s (.finish random reply) (s.finish d status random reply)

theorem engineMove_of_step {options : CoapDatagram → CoapStatus} {null : TimerState} {s s' : EngineSys}
    {a : EngineAct} (hs : engineStep options null s a = some s') : EngineMove options null s a s' := by
  cases a with
  | task a =>
    obtain ⟨c, hc, rfl⟩ := Option.map_eq_some_iff.mp hs
    exact .task hc
  | receive d =>
    unfold engineStep at hs
    dsimp only at hs
    split at hs
    · rename_i hpc
      obtain rfl := Option.some.inj hs
      by_cases h : coapParseMessage options d = noError
      · rw [if_pos h]
        exact .accepted hpc h
      · rw [if_neg h]
        exact .rejected hpc h
    all_goals exact nomatch hs
  | dispatch =>
    unfold engineStep at hs
    dsimp only at hs
    split at hs
    · rename_i d hpc
      obtain rfl := Option.some.inj hs
      exact .dispatch hpc
    all_goals exact nomatch hs
  | respond status packetLen packet =>
    unfold engineStep at hs
    dsimp only at hs
    split at hs
    · rename_i d t hpc _
      obtain rfl := Option.some.inj hs
      exact .respond hpc
    · exact nomatch hs
  | returned =>
    unfold engineStep at hs
    dsimp only at hs
    split at hs
    · rename_i d hpc
      obtain rfl := Option.some.inj hs
      exact .returned hpc
    all_goals exact nomatch hs
  | finish random reply =>
    unfold engineStep at hs
    dsimp only at hs
    split at hs
    · rename_i d status hpc
      obtain rfl := Option.some.inj hs
      exact .finish hpc
    all_goals exact nomatch hs

/-- What the engine knows of its datagram: a failed parser sets the status, and after a ping the pointer is
`NULL`. -/
def PcOk (options : CoapDatagram → CoapStatus) (transaction : Option TransactionId) : EnginePc → Prop
  | .idle => True
  | .parsed d | .answered d => coapParseMessage options d = noError
  | .serving d => coapParseMessage options d = noError ∧ ¬d.Ping
  | .finish d status =>
    (coapParseMessage options d = noError → d.Ping → status = pingResponse ∧ transaction = none) ∧
      (coapParseMessage options d ≠ noError → status = coapParseMessage options d)

structure EngineInv (options : CoapDatagram → CoapStatus) (s : EngineSys) : Prop where
  nodup : s.coap.list.Nodup
  pc : PcOk options s.transaction s.pc

section
variable {options : CoapDatagram → CoapStatus} {null : TimerState} {s s' : EngineSys} {a : EngineAct}
  {d : CoapDatagram} {m : List TransactionId}

theorem engineInv_start (block : TransactionId → CoapTransaction) :
    EngineInv options (engineStart block) := ⟨List.nodup_nil, trivial⟩

theorem not_ping_of_request (h : d.Request) : ¬d.Ping := by
  rintro ⟨_, hcode⟩
  have hpos := h.1
  rw [hcode] at hpos
  exact absurd hpos (by decide)

theorem pcOk_response (hparse : coapParseMessage options d = noError) :
    PcOk options none (.finish d (EngineSys.responseStatus d)) :=
  ⟨fun _ hping => ⟨if_pos hping, rfl⟩, fun h => absurd hparse h⟩

theorem pcOk_request (hparse : coapParseMessage options d = noError) (hping : ¬d.Ping)
    (t : Option TransactionId) (status : CoapStatus) : PcOk options t (.finish d status) :=
  ⟨fun _ h => absurd h hping, fun h => absurd hparse h⟩

theorem EngineInv.dispatch (i : EngineInv options s) (hpc : s.pc = .parsed d) :
    EngineInv options (s.dispatch d) := by
  have hparse : coapParseMessage options d = noError := by
    have h := i.pc
    rwa [hpc] at h
  unfold EngineSys.dispatch
  by_cases hreq : d.Request
  · rw [if_pos hreq]
    have hping := not_ping_of_request hreq
    cases hf : s.coap.freeBlock with
    | none => exact ⟨i.nodup, pcOk_request hparse hping _ _⟩
    | some t =>
      exact ⟨coapNewTransaction_nodup i.nodup _ _ _, hparse, hping⟩
  · rw [if_neg hreq]
    cases hf : s.coap.coapGetTransactionByMid d.mid with
    | none => exact ⟨i.nodup, pcOk_response hparse⟩
    | some t => exact ⟨i.nodup.erase t, hparse⟩

theorem clearOption_nodup {c : CoapSys} (hn : c.list.Nodup) (t : Option TransactionId) :
    (c.clearOption t).list.Nodup := by
  cases t with
  | none => exact hn
  | some t => exact hn.erase t

theorem EngineInv.finish (i : EngineInv options s) (status : CoapStatus) (random : U16)
    (reply : List U8) : EngineInv options (s.finish d status random reply) := by
  refine ⟨?_, trivial⟩
  unfold EngineSys.finish
  dsimp only
  split
  · split
    · exact i.nodup
    · apply coapSendTransaction_nodup
      exact i.nodup
  · split
    · exact clearOption_nodup i.nodup s.transaction
    · exact clearOption_nodup i.nodup s.transaction

theorem EngineInv.step (i : EngineInv options s) (hs : engineStep options null s a = some s') :
    EngineInv options s' := by
  have hok := i.pc
  cases engineMove_of_step hs with
  | task h => exact ⟨coapStep_nodup i.nodup h, i.pc⟩
  | accepted _ h => exact ⟨i.nodup, h⟩
  | rejected _ h => exact ⟨i.nodup, fun h' => absurd h' h, fun _ => rfl⟩
  | dispatch hpc => exact i.dispatch hpc
  | respond hpc =>
    rw [hpc] at hok
    unfold EngineSys.respond
    split
    · exact ⟨i.nodup, pcOk_request hok.1 hok.2 _ _⟩
    · exact ⟨i.nodup, pcOk_request hok.1 hok.2 _ _⟩
  | returned hpc =>
    rw [hpc] at hok
    exact ⟨i.nodup, pcOk_response hok⟩
  | finish _ => exact i.finish _ _ _

theorem noteHarm_eq_nil (ha : ∀ b, a ≠ .task b) (hd : s.pc.datagram = some d)
    (hs : engineStep options null s a = some s') :
    noteHarm options null s m a = [] ↔ m = [] ∧ (d.Bad options → harmed s.coap s'.coap = []) := by
  have hnote : noteHarm options null s m a = if d.Bad options then m ++ harmed s.coap s'.coap else m := by
    cases a with
    | task b => exact absurd rfl (ha b)
    | _ => simp only [noteHarm, hd, hs]
  rw [hnote]
  split
  · rename_i hbad
    rw [List.append_eq_nil_iff]
    exact and_congr_right fun _ => ⟨fun h _ => h, fun h => h hbad⟩
  · rename_i hbad
    exact ⟨fun h => ⟨h, fun h' => absurd h' hbad⟩, fun h => h.1⟩

theorem dispatch_harm (i : EngineInv options s) (hpc : s.pc = .parsed d) :
    (d.Bad options → harmed s.coap (s.dispatch d).coap = []) ↔ (d.Ping → s.MidSpares d) := by
  have hparse : coapParseMessage options d = noError := by
    have h := i.pc
    rwa [hpc] at h
  have hbad : d.Bad options ↔ d.Ping := or_iff_right fun h => h hparse
  rw [hbad]
  refine imp_congr_right fun hping => ?_
  have hreq : ¬d.Request := fun h => not_ping_of_request h hping
  unfold EngineSys.dispatch EngineSys.MidSpares
  rw [if_neg hreq, ← coapGetTransactionByMid_eq_none]
  cases hf : s.coap.coapGetTransactionByMid d.mid with
  | none => exact iff_of_true (harmed_self s.coap) rfl
  | some t =>
    dsimp only
    rw [harmed_clear i.nodup]
    exact iff_of_false (fun h => h.1 (mem_of_coapGetTransactionByMid hf)) nofun

theorem harmed_clearOption {c : CoapSys} (t : Option TransactionId) :
    harmed c (c.clearOption t) = [] ↔ ∀ u, t = some u → harmed c (c.coapClearTransaction u) = [] := by
  cases t with
  | none => exact iff_of_true (harmed_self c) nofun
  | some t =>
    constructor
    · rintro h u hu
      cases hu
      exact h
    · exact fun h => h t rfl

theorem finish_of_error {status : CoapStatus} (h : status ≠ noError) (random : U16) (reply : List U8) :
    harmed s.coap (s.finish d status random reply).coap =
      harmed s.coap (s.coap.clearOption s.transaction) := by
  unfold EngineSys.finish
  dsimp only
  rw [if_neg h]
  split <;> rfl

theorem finish_harm (i : EngineInv options s) {status : CoapStatus} (hpc : s.pc = .finish d status)
    (random : U16) (reply : List U8) :
    (d.Bad options → harmed s.coap (s.finish d status random reply).coap = []) ↔
      (coapParseMessage options d ≠ noError → s.PointerSpares) := by
  have hok := i.pc
  rw [hpc] at hok
  by_cases hparse : coapParseMessage options d = noError
  · -- after a ping the pointer is `NULL`
    refine iff_of_true (fun hbad => ?_) fun h => absurd hparse h
    obtain ⟨rfl, hnull⟩ := hok.1 hparse (hbad.resolve_left fun h => h hparse)
    rw [finish_of_error (by decide), hnull]
    exact harmed_self s.coap
  · have hstatus := hok.2 hparse
    have hbad : d.Bad options := .inl hparse
    rw [finish_of_error (by rw [hstatus]; exact hparse), harmed_clearOption]
    unfold EngineSys.PointerSpares
    simp only [harmed_clear i.nodup]
    exact ⟨fun h _ => h hbad, fun h _ => h hparse⟩

theorem engineStep_harm (i : EngineInv options s) (hs : engineStep options null s a = some s') :
    noteHarm options null s m a = [] ↔ m = [] ∧ Spares options s a := by
  have hok := i.pc
  have hnote : ∀ {d}, (∀ b, a ≠ .task b) → s.pc.datagram = some d → (noteHarm options null s m a = [] ↔
      m = [] ∧ (d.Bad options → harmed s.coap s'.coap = [])) := fun ha hd => noteHarm_eq_nil ha hd hs
  cases engineMove_of_step hs with
  | task h => simp [noteHarm, Spares]
  | accepted hpc _ => simp [noteHarm, Spares, hpc, EnginePc.datagram]
  | rejected hpc _ => simp [noteHarm, Spares, hpc, EnginePc.datagram]
  | dispatch hpc =>
    rw [hnote (by simp) (by rw [hpc]; rfl), dispatch_harm i hpc]
    simp [Spares, hpc]
  | @respond d t status packetLen packet hpc =>
    rw [hpc] at hok
    have hgood : ¬d.Bad options := fun h => h.elim (fun h => h hok.1) hok.2
    rw [hnote (by simp) (by rw [hpc]; rfl)]
    simp [Spares, hpc, hgood]
  | returned hpc =>
    rw [hnote (by simp) (by rw [hpc]; rfl)]
    simp [Spares, hpc, harmed_self]
  | finish hpc =>
    rw [hnote (by simp) (by rw [hpc]; rfl), finish_harm i hpc]
    simp [Spares, hpc]

end

/-! ## All runs -/

/-- No bad datagram of a run harms an open transaction if and only if each is handled where the pointer is
harmless and its number is nobody's. -/
theorem unharmed_iff {options : CoapDatagram → CoapStatus} {null : TimerState}
    {block : TransactionId → CoapTransaction} {as : List EngineAct} {s : EngineSys}
    (r : Runs (engineStep options null) Free (engineStart block) as s) :
    observe (engineStep options null) (noteHarm options null) (engineStart block) [] as = [] ↔
      Runs (engineStep options null) (Spares options) (engineStart block) as s :=
  r.nothing_noted_iff (I := EngineInv options) (engineInv_start block)
    (fun _ _ _ i hs => i.step hs) fun _ _ _ _ i hs => engineStep_harm i hs

def datagramOf (b0 b1 b2 b3 : U8) : CoapDatagram :=
  ⟨fun k => [b0, b1, b2, b3].getD k 0, 4, 1, 5683⟩

/-- A request is served, and its ack closes the transaction in block 0. -/
def requestServed : List EngineAct :=
  [.receive (datagramOf 0x40 1 0 7), .dispatch, .respond 0 4 fun _ => 0x60, .finish 0 []]

def versionZero : List EngineAct := [.receive (datagramOf 0 0 0 0), .finish 0 []]

/-- Block 0 is not in use when a datagram of version 0 arrives; later it is, and nobody pings it. -/
def staleUnused : List EngineAct :=
  requestServed ++ versionZero ++
    [.task (.create 9 2 5683), .receive (datagramOf 0x40 0 0 5), .dispatch, .finish 0 []]

theorem unharmed_iff_staleUnused : ∃ s,
    Runs (engineStep (fun _ => noError) .notUsed) (Spares fun _ => noError) (engineStart clearedBlocks)
      staleUnused s ∧ s.coap.list = [0] := by
  have hrun : (exec (engineStep (fun _ => noError) .notUsed) (engineStart clearedBlocks) staleUnused).map
      (fun s => s.coap.list) = some [0] := by decide +kernel
  obtain ⟨s, hs, hlist⟩ := Option.map_eq_some_iff.mp hrun
  exact ⟨s, (unharmed_iff (.of_exec hs)).mp (by decide +kernel), hlist⟩

/-- Another task opens a transaction in block 0 before a datagram of version 0 arrives. -/
def staleReused : List EngineAct := requestServed ++ [.task (.create 9 2 5683)] ++ versionZero

theorem unharmed_fails : ¬∀ (options : CoapDatagram → CoapStatus) (null : TimerState)
    (block : TransactionId → CoapTransaction) (as : List EngineAct) (s : EngineSys),
    Runs (engineStep options null) Free (engineStart block) as s →
      observe (engineStep options null) (noteHarm options null) (engineStart block) [] as = [] := by
  intro hall
  have hrun : (exec (engineStep (fun _ => noError) .notUsed) (engineStart clearedBlocks) staleReused).map
      (fun s => s.coap.list) = some [] := by decide +kernel
  obtain ⟨s, hs, _⟩ := Option.map_eq_some_iff.mp hrun
  have hnone := hall _ _ _ _ _ (.of_exec hs)
  revert hnone
  decide +kernel

end Unet4Cooja
