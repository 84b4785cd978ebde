import Unet4Cooja.Coap.Blockwise
import Unet4Cooja.Lib.Runs

/-!
# A request for a text in blocks (`coap_blocking_request`)

* `BlockingRequest`, `requestStep` : the loop, one round a step;
* `Heard` : what the network may answer: any datagram that the parser accepts;
* `RequestInv`, `RequestInv.step` : the blocks that have been given to the callback;
* `received_in_order` : all runs.
-/

namespace Unet4Cooja.Coap
open Lib

abbrev coapMaxAttempts : U8 := 4

/-- The request, `state.block_num`, `res_block`, `more` and `block_error`; `received` is what `request_callback` has
been given, and `running` tells that the loop goes on. -/
structure BlockingRequest where
  request : CoapPacket
  blockNum : U32
  resBlock : U32
  more : U8
  blockError : U8
  received : List Message
  running : Bool

def blockingRequest (request : CoapPacket) : BlockingRequest where
  request := request
  blockNum := 0
  resBlock := 0
  more := 0
  blockError := 0
  received := []
  running := true

namespace BlockingRequest
variable (s : BlockingRequest)

def nextRequest (mid : U16) : CoapPacket :=
  let request := { s.request with mid := mid }
  if 0 < s.blockNum then coapSetHeaderBlock2 request s.blockNum 0 (BitVec.ofNat 16 restMaxChunkSize) else request

/-- `coap_get_header_block2` leaves `res_block` and `more` if the response has no such option. -/
def readBlock2 (response : CoapPacket) : U32 × U8 :=
  if response.isOption .block2 then (response.block2.num, response.block2.more) else (s.resBlock, s.more)

def takeResponse (response : CoapPacket) (m : Mem) : BlockingRequest :=
  let (resBlock, more) := s.readBlock2 response
  if resBlock = s.blockNum then
    { s with
      resBlock := resBlock
      more := more
      received := s.received ++ [response.message m]
      blockNum := s.blockNum + 1
      running := more ≠ 0 ∧ s.blockError < coapMaxAttempts }
  else
    { s with
      resBlock := resBlock
      more := more
      blockError := s.blockError + 1
      running := more ≠ 0 ∧ s.blockError + 1 < coapMaxAttempts }

end BlockingRequest

/-- A round: there is no transaction, or no response, or a response with the memory that it points into. -/
inductive RequestAct
  | noTransaction (mid : U16)
  | noResponse (mid : U16)
  | response (mid : U16) (response : CoapPacket) (m : Mem)

def requestStep (s : BlockingRequest) (a : RequestAct) : Option BlockingRequest :=
  if s.running then
    match a with
    | .noTransaction mid => some { s with request := { s.request with mid := mid }, running := false }
    | .noResponse mid => some { s with request := s.nextRequest mid, running := false }
    | .response mid response m => some ({ s with request := s.nextRequest mid }.takeResponse response m)
  else none

/-- A response is what the parser has made of a datagram. -/
def Heard (_ : BlockingRequest) : RequestAct → Prop
  | .noTransaction _ | .noResponse _ => True
  | .response _ response m => ∃ m₀ data dataLen, coapParseMessage m₀ data dataLen = .returned none response m

/-! ## The number of a block -/

section
variable {m m' : Mem} {data : Nat} {dataLen : U16} {p q : CoapPacket}

theorem parse_num_lt (value : U32) : (Block.parse value).num.toNat < 2 ^ 28 := by
  show (value >>> 4).toNat < 2 ^ 28
  rw [BitVec.toNat_ushiftRight, Nat.shiftRight_eq_div_pow]
  have := value.isLt
  omega

theorem switchOption_num {start : Nat} {number length : U16} (h : switchOption m p start number length = .ok (q, m'))
    (hp : p.block2.num.toNat < 2 ^ 28) : q.block2.num.toNat < 2 ^ 28 := by
  unfold switchOption at h
  cases hk : CoapOption.ofNumber number with
  | none =>
    rw [hk] at h
    dsimp only at h
    split at h
    · cases h
    · cases h
      exact hp
  | some k =>
    rw [hk] at h
    cases k <;> cases h <;> first | exact hp | exact parse_num_lt _

theorem readOptions_num {stop : Nat} {payload : Option Nat} {os : List OptionAt}
    (h : readOptions m stop payload p os = .returned none q) (hp : p.block2.num.toNat < 2 ^ 28) :
    q.block2.num.toNat < 2 ^ 28 := by
  induction os generalizing p with
  | nil =>
    cases payload with
    | none =>
      cases h
      exact hp
    | some i =>
      cases h
      exact hp
  | cons o os ih =>
    unfold readOptions at h
    split at h
    · cases h
    · dsimp only at h
      cases hs : switchOption m (p.setOption o.number.toNat) o.start o.number o.length with
      | error e =>
        rw [hs] at h
        cases h
      | ok r =>
        rw [hs] at h
        exact ih h (switchOption_num hs hp)

theorem parsed_num_lt (h : coapParseMessage m data dataLen = .returned none q m') : q.block2.num.toNat < 2 ^ 28 := by
  have hread := parse_verdict m data dataLen
  rw [h] at hread
  unfold readMessage at hread
  dsimp only [ParseEnd.verdict] at hread
  split at hread
  · cases hread
  · have hstart : (parseToken m data).block2.num = 0 := rfl
    exact readOptions_num hread.symm (by rw [hstart]; decide)

end

/-! ## Rounds -/

/-- The `i`th message has block `i`; the first one may have no number. -/
def Numbered (i : Nat) (msg : Message) : Prop :=
  (∃ b, msg.options .block2 = some (.block b) ∧ b.num.toNat = i) ∨ i = 0 ∧ msg.options .block2 = none

structure RequestInv (rounds : Nat) (s : BlockingRequest) : Prop where
  blockNum : s.blockNum.toNat = s.received.length
  resBlock : s.resBlock.toNat < 2 ^ 28
  few : s.received.length ≤ 2 ^ 28
  numbered : ∀ i msg, s.received[i]? = some msg → Numbered i msg
  first : s.resBlock = s.blockNum → s.received = []
  error : s.running = true → s.blockError.toNat < 4
  rounds : rounds ≤ s.received.length + if s.running then s.blockError.toNat else 4

theorem requestInv_start (request : CoapPacket) : RequestInv 0 (blockingRequest request) where
  blockNum := rfl
  resBlock := Nat.two_pow_pos 28
  few := Nat.zero_le _
  numbered := fun i msg h => by cases h
  first := fun _ => rfl
  error := fun _ => Nat.succ_pos 3
  rounds := Nat.zero_le _

section
variable {s s' : BlockingRequest} {rounds : Nat} {response : CoapPacket} {m : Mem}

theorem RequestInv.stop (h : RequestInv rounds s) (hr : s.running = true) (request : CoapPacket) :
    RequestInv (rounds + 1) { s with request := request, running := false } where
  blockNum := h.blockNum
  resBlock := h.resBlock
  few := h.few
  numbered := h.numbered
  first := h.first
  error := fun e => by cases e
  rounds := by
    have herror := h.error hr
    have hrounds := h.rounds
    rw [if_pos hr] at hrounds
    show rounds + 1 ≤ s.received.length + 4
    omega

theorem RequestInv.takeResponse (h : RequestInv rounds s) (hr : s.running = true)
    (hnum : response.block2.num.toNat < 2 ^ 28) : RequestInv (rounds + 1) (s.takeResponse response m) := by
  have hlen := h.blockNum
  have herror := h.error hr
  have hrounds := h.rounds
  rw [if_pos hr] at hrounds
  have hread : (s.readBlock2 response).1.toNat < 2 ^ 28 := by
    unfold BlockingRequest.readBlock2
    split
    · exact hnum
    · exact h.resBlock
  have hsaid : s.readBlock2 response = (s.resBlock, s.more) ∧ (response.message m).options .block2 = none ∨
      (s.readBlock2 response).1 = response.block2.num ∧
        (response.message m).options .block2 = some (.block response.block2) := by
    unfold BlockingRequest.readBlock2 CoapPacket.message
    by_cases hoption : response.isOption .block2 = true
    · rw [if_pos hoption]
      exact Or.inr ⟨rfl, if_pos hoption⟩
    · rw [if_neg hoption]
      exact Or.inl ⟨rfl, if_neg hoption⟩
  unfold BlockingRequest.takeResponse
  generalize s.readBlock2 response = answer at hread hsaid ⊢
  obtain ⟨resBlock, more⟩ := answer
  dsimp only at hread hsaid ⊢
  by_cases hwanted : resBlock = s.blockNum
  · have hsucc : (s.blockNum + 1).toNat = s.received.length + 1 := by
      rw [BitVec.toNat_add, ← hlen, ← hwanted]
      exact Nat.mod_eq_of_lt (by omega : resBlock.toNat + 1 < 2 ^ 32)
    rw [if_pos hwanted]
    constructor
    · rw [List.length_append]
      exact hsucc
    · exact hread
    · rw [List.length_append, List.length_singleton]
      rw [hwanted] at hread
      omega
    · intro i msg hi
      rw [List.getElem?_append] at hi
      split at hi
      · exact h.numbered i msg hi
      · rename_i hge
        have hlast : i = s.received.length := by
          have hlt := (List.getElem?_eq_some_iff.mp hi).1
          rw [List.length_singleton] at hlt
          omega
        rw [hlast, Nat.sub_self] at hi
        obtain rfl := Option.some.inj hi
        rcases hsaid with ⟨hsame, hnone⟩ | ⟨hsame, hsome⟩
        · have hempty := h.first ((Prod.mk.inj hsame).1.symm.trans hwanted)
          rw [hempty] at hlast
          exact Or.inr ⟨hlast, hnone⟩
        · exact Or.inl ⟨_, hsome, by rw [← hsame, hwanted, hlen, hlast]⟩
    · intro hnext
      have hnat := congrArg BitVec.toNat (hwanted.symm.trans hnext)
      rw [hsucc, hlen] at hnat
      omega
    · intro hrunning
      exact herror
    · rw [List.length_append, List.length_singleton]
      dsimp only
      split <;> omega
  · have hsucc : (s.blockError + 1).toNat = s.blockError.toNat + 1 := by
      rw [BitVec.toNat_add]
      exact Nat.mod_eq_of_lt (by omega : s.blockError.toNat + 1 < 2 ^ 8)
    rw [if_neg hwanted]
    refine ⟨hlen, hread, h.few, h.numbered, fun hnext => absurd hnext hwanted, ?_, ?_⟩
    · intro hrunning
      have hboth := of_decide_eq_true hrunning
      exact hboth.2
    · dsimp only
      split <;> omega

theorem RequestInv.step {a : RequestAct} (h : RequestInv rounds s) (ha : Heard s a) (hs : requestStep s a = some s') :
    RequestInv (rounds + 1) s' := by
  unfold requestStep at hs
  split at hs
  · rename_i hr
    cases a with
    | noTransaction mid =>
      obtain rfl := Option.some.inj hs
      exact h.stop hr _
    | noResponse mid =>
      obtain rfl := Option.some.inj hs
      exact h.stop hr _
    | response mid response m =>
      obtain rfl := Option.some.inj hs
      obtain ⟨m₀, data, dataLen, hparsed⟩ := ha
      have hnext : RequestInv rounds { s with request := s.nextRequest mid } :=
        ⟨h.blockNum, h.resBlock, h.few, h.numbered, h.first, h.error, h.rounds⟩
      exact hnext.takeResponse hr (parsed_num_lt hparsed)
  · cases hs

theorem requestInv_of_runs {request : CoapPacket} {as : List RequestAct}
    (r : Runs requestStep Heard (blockingRequest request) as s) : RequestInv as.length s := by
  induction r with
  | nil => exact requestInv_start request
  | snoc _ ha hs ih =>
    rw [List.length_append]
    exact ih.step ha hs

/-- Whatever is answered, the callback gets block 0, block 1 and so on, each once, and the loop ends: there are at
most four more rounds than blocks, and a number has 28 bits. -/
theorem received_in_order {request : CoapPacket} {as : List RequestAct}
    (r : Runs requestStep Heard (blockingRequest request) as s) :
    (∀ i msg, s.received[i]? = some msg → Numbered i msg) ∧ as.length ≤ s.received.length + 4 ∧
      as.length ≤ 2 ^ 28 + 4 := by
  have h := requestInv_of_runs r
  have hrounds := h.rounds
  have hfew := h.few
  have herror := h.error
  have hbound : as.length ≤ s.received.length + 4 := by
    split at hrounds
    · rename_i hrunning
      have := herror hrunning
      omega
    · exact hrounds
  exact ⟨h.numbered, hbound, by omega⟩

end

theorem requestStep_numbered {s : BlockingRequest} {response : CoapPacket} {m : Mem} {mid : U16} {num : U32} {more : U8}
    (hr : s.running = true) (hoption : response.isOption .block2 = true) (hnum : response.block2.num = num)
    (hmore : response.block2.more = more) :
    requestStep s (.response mid response m) = some
      (if num = s.blockNum then
        { s with
          request := s.nextRequest mid
          resBlock := num
          more := more
          received := s.received ++ [response.message m]
          blockNum := s.blockNum + 1
          running := more ≠ 0 ∧ s.blockError < coapMaxAttempts }
      else
        { s with
          request := s.nextRequest mid
          resBlock := num
          more := more
          blockError := s.blockError + 1
          running := more ≠ 0 ∧ s.blockError + 1 < coapMaxAttempts }) := by
  subst hnum hmore
  unfold requestStep
  rw [if_pos hr]
  dsimp only
  unfold BlockingRequest.takeResponse BlockingRequest.readBlock2
  rw [if_pos hoption]

/-- The block `num`, with one byte; the last argument tells that it is not the last one. -/
def blockDatagram (num : Nat) (more : Bool) : List U8 :=
  [0x60, 69, 0, 1, 0xD1, 0x0A, BitVec.ofNat 8 (16 * num + if more then 10 else 2), 0xFF, 7]

/-- Block 0 is answered, then block 3 in place of block 1, and then block 1, which is the last one. -/
theorem received_in_order_secondBlock : ∃ q₀ m₀ q₃ m₃ q₁ m₁ s,
    coapParseMessage (store (fun _ => 0) 0 (blockDatagram 0 true)) 0 9 = .returned none q₀ m₀ ∧
    coapParseMessage (store (fun _ => 0) 0 (blockDatagram 3 true)) 0 9 = .returned none q₃ m₃ ∧
    coapParseMessage (store (fun _ => 0) 0 (blockDatagram 1 false)) 0 9 = .returned none q₁ m₁ ∧
    Runs requestStep Heard (blockingRequest getPath) [.response 1 q₀ m₀, .response 2 q₃ m₃, .response 3 q₁ m₁] s ∧
    s.running = false ∧ s.received = [q₀.message m₀, q₁.message m₁] ∧ Numbered 0 (q₀.message m₀) ∧
    Numbered 1 (q₁.message m₁) := by
  obtain ⟨q₀, m₀, hparsed₀, hoption₀, hnum₀, hmore₀⟩ : ∃ q m,
      coapParseMessage (store (fun _ => 0) 0 (blockDatagram 0 true)) 0 9 = .returned none q m ∧
      q.isOption .block2 = true ∧ q.block2.num = 0 ∧ q.block2.more = 1 := ⟨_, _, rfl, by decide +kernel⟩
  obtain ⟨q₃, m₃, hparsed₃, hoption₃, hnum₃, hmore₃⟩ : ∃ q m,
      coapParseMessage (store (fun _ => 0) 0 (blockDatagram 3 true)) 0 9 = .returned none q m ∧
      q.isOption .block2 = true ∧ q.block2.num = 3 ∧ q.block2.more = 1 := ⟨_, _, rfl, by decide +kernel⟩
  obtain ⟨q₁, m₁, hparsed₁, hoption₁, hnum₁, hmore₁⟩ : ∃ q m,
      coapParseMessage (store (fun _ => 0) 0 (blockDatagram 1 false)) 0 9 = .returned none q m ∧
      q.isOption .block2 = true ∧ q.block2.num = 1 ∧ q.block2.more = 0 := ⟨_, _, rfl, by decide +kernel⟩
  have ha₀ : ∀ s, Heard s (.response 1 q₀ m₀) := fun _ => ⟨_, _, _, hparsed₀⟩
  have ha₃ : ∀ s, Heard s (.response 2 q₃ m₃) := fun _ => ⟨_, _, _, hparsed₃⟩
  have ha₁ : ∀ s, Heard s (.response 3 q₁ m₁) := fun _ => ⟨_, _, _, hparsed₁⟩
  have r : Runs requestStep Heard (blockingRequest getPath) [] (blockingRequest getPath) := .nil
  have r₀ := r.snoc (ha₀ _) (requestStep_numbered rfl hoption₀ hnum₀ hmore₀)
  have r₃ := r₀.snoc (ha₃ _) (requestStep_numbered rfl hoption₃ hnum₃ hmore₃)
  have r₁ := r₃.snoc (ha₁ _) (requestStep_numbered rfl hoption₁ hnum₁ hmore₁)
  have hordered := (received_in_order r₁).1
  exact ⟨q₀, m₀, q₃, m₃, q₁, m₁, _, hparsed₀, hparsed₃, hparsed₁, r₁, rfl, rfl, hordered 0 _ rfl, hordered 1 _ rfl⟩

end Unet4Cooja.Coap
