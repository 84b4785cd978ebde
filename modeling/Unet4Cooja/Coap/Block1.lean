import Unet4Cooja.Coap.RoundTrip

/-!
# Requests in blocks (`er-coap-block1.c`)

A resource has the blocks of a request assembled in a buffer of its own.

* `coapBlock1Handler` : what happens to one block, with `accepted_iff`, `write_inside_iff`;
* `Reassembly`, `receiveBlock` : a resource and the datagrams it is sent;
* `Upload`, `receiveBlock_upload` : one datagram with a block of a body;
* `receiveBlocks_upload` : blocks in any order, some of them more than once.
-/

namespace Unet4Cooja.Coap
open Lib

/-- `size_t` of the large memory model. -/
abbrev SizeT := BitVec 20

def continue231 : U8 := 95
def requestEntityTooLarge413 : CoapStatus := 141

def noPayloadError : CoapError := ⟨badRequest400, "NoPayload"⟩
def tooBigError : CoapError := ⟨requestEntityTooLarge413, "Message to big"⟩

def coapGetPayload (p : CoapPacket) : U16 × Option Nat :=
  if p.payload.isSome then (p.payloadLen, p.payload) else (0, none)

def coapSetHeaderBlock1 (p : CoapPacket) (num : U32) (more : U8) (size : U16) : CoapPacket :=
  if size < 16 then p
  else if 2048 < size then p
  else if 0x0FFFFF < num then p
  else CoapPacket.setOption { p with block1 := { p.block1 with num := num, more := more, size := size } }
    CoapOption.block1.number.toNat

def coapSetStatusCode (p : CoapPacket) (code : U16) : CoapPacket :=
  if code ≤ 0xFF then { p with code := code.setWidth 8 } else p

/-- The returned value, `erbium_status_code` with `coap_error_message` if they are set, `response`, the memory
and `*len`. -/
structure Block1End where
  ret : Int
  error : Option CoapError
  response : CoapPacket
  mem : Mem
  len : Option SizeT

/-- `target + offset`, as addresses are computed. -/
def pointerAdd (target : Nat) (offset : U32) : Nat := (target + offset.toNat) % 2 ^ 20

/-- What the handler does once the block is in place. -/
def replyBlock1 (request response : CoapPacket) (m : Mem) (len : Option SizeT) : Block1End :=
  if request.isOption .block1 then
    let response := coapSetHeaderBlock1 response request.block1.num request.block1.more request.block1.size
    if request.block1.more ≠ 0 then ⟨1, none, coapSetStatusCode response (continue231.setWidth 16), m, len⟩
    else ⟨0, none, response, m, len⟩
  else ⟨0, none, response, m, len⟩

def coapBlock1Handler (request response : CoapPacket) (target : Option Nat) (len : Option SizeT) (maxLen : SizeT)
    (m : Mem) : Block1End :=
  let (payLen, payload) := coapGetPayload request
  if payLen = 0 ∨ payload = none then ⟨-1, some noPayloadError, response, m, len⟩
  else
    let offset := request.block1.offset
    let total := offset + payLen.signExtend 32
    if maxLen.setWidth 32 < total then ⟨-1, some tooBigError, response, m, len⟩
    else
      match target, len with
      | some target, some _ =>
        replyBlock1 request response
          (store m (pointerAdd target offset) (slice m (payload.getD 0) (payLen.signExtend 20).toNat))
          (some (total.setWidth 20))
      | _, _ => replyBlock1 request response m len

/-! ## One block -/

section
variable {p response : CoapPacket} {m : Mem} {target payload : Nat} {len maxLen : SizeT}

theorem signExtend_toNat {w : Nat} {x : U16} (hx : x.toNat < 2 ^ 15) (hw : 16 ≤ w) :
    (x.signExtend w).toNat = x.toNat := by
  have hmsb : x.msb = false := by
    rw [BitVec.msb_eq_decide]
    exact decide_eq_false (Nat.not_le.mpr hx)
  rw [BitVec.signExtend_eq_setWidth_of_msb_false hmsb, BitVec.toNat_setWidth, Nat.mod_eq_of_lt]
  exact Nat.lt_of_lt_of_le x.isLt (Nat.pow_le_pow_right (by decide) hw)

/-- A block with a payload is refused if the buffer ends before the block, counted modulo `2 ^ 32`; otherwise the
block is copied. -/
theorem handler_eq (hpayload : p.payload = some payload) (hpos : p.payloadLen ≠ 0)
    (hlen : p.payloadLen.toNat ≤ restMaxChunkSize) :
    coapBlock1Handler p response (some target) (some len) maxLen m =
      if maxLen.toNat < (p.block1.offset.toNat + p.payloadLen.toNat) % 2 ^ 32 then
        ⟨-1, some tooBigError, response, m, some len⟩
      else
        replyBlock1 p response
          (store m (pointerAdd target p.block1.offset) (slice m payload p.payloadLen.toNat))
          (some (BitVec.ofNat 20 ((p.block1.offset.toNat + p.payloadLen.toNat) % 2 ^ 32))) := by
  have hsmall : p.payloadLen.toNat < 2 ^ 15 := Nat.lt_of_le_of_lt hlen (by decide)
  have htotal : (p.block1.offset + p.payloadLen.signExtend 32).toNat =
      (p.block1.offset.toNat + p.payloadLen.toNat) % 2 ^ 32 := by
    rw [BitVec.toNat_add, signExtend_toNat hsmall (by decide)]
  have hmax : (maxLen.setWidth 32).toNat = maxLen.toNat := by
    rw [BitVec.toNat_setWidth, Nat.mod_eq_of_lt (Nat.lt_trans maxLen.isLt (by decide))]
  have hget : coapGetPayload p = (p.payloadLen, some payload) := by
    unfold coapGetPayload
    rw [hpayload]
    rfl
  have hsize : (p.block1.offset + p.payloadLen.signExtend 32).setWidth 20 =
      BitVec.ofNat 20 ((p.block1.offset.toNat + p.payloadLen.toNat) % 2 ^ 32) := by
    apply BitVec.eq_of_toNat_eq
    rw [BitVec.toNat_setWidth, htotal, BitVec.toNat_ofNat]
  have hsome : ¬(p.payloadLen = 0 ∨ some payload = none) := by simpa using hpos
  unfold coapBlock1Handler
  rw [hget]
  dsimp only
  rw [if_neg hsome, hsize, signExtend_toNat hsmall (by decide)]
  simp only [BitVec.lt_def, htotal, hmax]
  rfl

theorem replyBlock1_mem {len : Option SizeT} : (replyBlock1 p response m len).mem = m := by
  unfold replyBlock1
  dsimp only
  split
  · split <;> rfl
  · rfl

theorem replyBlock1_ret {len : Option SizeT} :
    (replyBlock1 p response m len).ret = if p.isOption .block1 ∧ p.block1.more ≠ 0 then 1 else 0 := by
  unfold replyBlock1
  dsimp only
  by_cases hoption : p.isOption .block1
  · by_cases hmore : p.block1.more ≠ 0
    · rw [if_pos hoption, if_pos hmore, if_pos ⟨hoption, hmore⟩]
    · rw [if_pos hoption, if_neg hmore, if_neg fun h => hmore h.2]
  · rw [if_neg hoption, if_neg fun h => hoption h.1]

theorem replyBlock1_error {len : Option SizeT} : (replyBlock1 p response m len).error = none := by
  unfold replyBlock1
  dsimp only
  split
  · split <;> rfl
  · rfl

theorem replyBlock1_len {len : Option SizeT} : (replyBlock1 p response m len).len = len := by
  unfold replyBlock1
  dsimp only
  split
  · split <;> rfl
  · rfl

theorem coapSetStatusCode_block1 (p : CoapPacket) (code : U16) :
    (coapSetStatusCode p code).isOption .block1 = p.isOption .block1 ∧ (coapSetStatusCode p code).block1 = p.block1 := by
  unfold coapSetStatusCode
  split <;> exact ⟨rfl, rfl⟩

theorem coapSetHeaderBlock1_block1 (p : CoapPacket) {num : U32} (more : U8) {size : U16} (hmin : 16 ≤ size)
    (hmax : size ≤ 2048) (hnum : num ≤ 0x0FFFFF) :
    (coapSetHeaderBlock1 p num more size).isOption .block1 ∧
      (coapSetHeaderBlock1 p num more size).block1 = ⟨num, more, size, p.block1.offset⟩ := by
  unfold coapSetHeaderBlock1
  rw [if_neg (BitVec.not_lt.mpr hmin), if_neg (BitVec.not_lt.mpr hmax), if_neg (BitVec.not_lt.mpr hnum)]
  exact ⟨CoapPacket.isOption_setOption _ _, rfl⟩

theorem replyBlock1_block (response : CoapPacket) (m : Mem) (len : Option SizeT) (hset : p.isOption .block1)
    (hmin : 16 ≤ p.block1.size) (hmax : p.block1.size ≤ 2048) (hnum : p.block1.num ≤ 0x0FFFFF) :
    (replyBlock1 p response m len).response.isOption .block1 ∧
      (replyBlock1 p response m len).response.block1.num = p.block1.num ∧
      (replyBlock1 p response m len).response.block1.size = p.block1.size := by
  obtain ⟨hoption, hblock⟩ := coapSetHeaderBlock1_block1 response p.block1.more hmin hmax hnum
  unfold replyBlock1
  rw [if_pos hset]
  dsimp only
  split
  · obtain ⟨hoption', hblock'⟩ := coapSetStatusCode_block1
      (coapSetHeaderBlock1 response p.block1.num p.block1.more p.block1.size) (continue231.setWidth 16)
    rw [hoption', hblock', hblock]
    exact ⟨hoption, rfl, rfl⟩
  · rw [hblock]
    exact ⟨hoption, rfl, rfl⟩

/-- The bytes of an accepted block land in the buffer if and only if the offset and the length do not wrap around:
a block shortly below `2 ^ 32` is accepted and starts before the buffer, at most its own length away. -/
theorem write_inside_iff {m₀ : Mem} {data : Nat} {dataLen : U16}
    (hr : coapParseMessage m₀ data dataLen = .returned none p m) (hpayload : p.payload = some payload)
    (hpos : p.payloadLen ≠ 0) (htarget : target + maxLen.toNat ≤ 2 ^ 20)
    (hret : (coapBlock1Handler p response (some target) (some len) maxLen m).ret ≠ -1) :
    (coapBlock1Handler p response (some target) (some len) maxLen m).mem =
        store m (pointerAdd target p.block1.offset) (slice m payload p.payloadLen.toNat) ∧
      (target ≤ pointerAdd target p.block1.offset ∧
          pointerAdd target p.block1.offset + p.payloadLen.toNat ≤ target + maxLen.toNat ↔
        p.block1.offset.toNat + p.payloadLen.toNat < 2 ^ 32) ∧
      (2 ^ 32 ≤ p.block1.offset.toNat + p.payloadLen.toNat → ∃ k, 0 < k ∧ k ≤ p.payloadLen.toNat ∧
        (pointerAdd target p.block1.offset + k) % 2 ^ 20 = target % 2 ^ 20) := by
  have hlen := payloadLen_le hr
  have hpos' : 0 < p.payloadLen.toNat := Nat.pos_of_ne_zero fun h => hpos (BitVec.eq_of_toNat_eq h)
  have hoffset := p.block1.offset.isLt
  have hmax : restMaxChunkSize = 64 := rfl
  rw [handler_eq hpayload hpos hlen] at hret ⊢
  split at hret
  · exact absurd rfl hret
  · rename_i hfits
    rw [if_neg hfits, replyBlock1_mem]
    unfold pointerAdd
    refine ⟨rfl, by omega, fun hwrapped => ⟨2 ^ 32 - p.block1.offset.toNat, by omega, by omega, by omega⟩⟩

/-- A request with the last block of `2 ^ 28`, whose offset is 16 bytes below `2 ^ 32`. -/
def wrappedDatagram : List U8 :=
  [0x40, 3, 0, 1, 0xD4, 14, 0xFF, 0xFF, 0xFF, 0xF0, 0xFF] ++ List.replicate 32 0xAA

theorem write_inside_iff_wrapped :
    ∃ p m, coapParseMessage (store (fun _ => 0) 0 wrappedDatagram) 0 43 = .returned none p m ∧
      (coapBlock1Handler p CoapPacket.zero (some 200) (some 0) 64 m).mem = store m 184 (slice m 11 32) ∧
        ¬(200 ≤ pointerAdd 200 p.block1.offset ∧ pointerAdd 200 p.block1.offset + 32 ≤ 264) ∧
        ∃ k, 0 < k ∧ k ≤ 32 ∧ (pointerAdd 200 p.block1.offset + k) % 2 ^ 20 = 200 := by
  refine ⟨_, _, rfl, ?_⟩
  obtain ⟨hmem, hinside, hwrapped⟩ := @write_inside_iff _ CoapPacket.zero _ 200 11 0 64
    (store (fun _ => 0) 0 wrappedDatagram) 0 43 rfl rfl (by decide) (by decide) (by decide)
  exact ⟨hmem, fun h => absurd (hinside.mp h) (by decide), hwrapped (by decide)⟩

theorem handler_message (response : CoapPacket) (len : SizeT) {msg : Message} {b : Block} (hmsg : p.message m = msg)
    (hblock : msg.options .block1 = some (.block b)) (hne : msg.payload ≠ [])
    (hlen : msg.payload.length ≤ restMaxChunkSize) (hfits : b.offset.toNat + msg.payload.length ≤ maxLen.toNat)
    (htarget : target + maxLen.toNat ≤ 2 ^ 20) :
    coapBlock1Handler p response (some target) (some len) maxLen m =
      replyBlock1 p response (store m (target + b.offset.toNat) msg.payload)
        (some (BitVec.ofNat 20 (b.offset.toNat + msg.payload.length))) ∧
      p.isOption .block1 ∧ p.block1 = b := by
  obtain ⟨hset, hb⟩ : p.isOption .block1 ∧ p.block1 = b := by
    rw [← hmsg] at hblock
    have hoption : (if p.isOption .block1 then some (p.value m .block1) else none) = some (.block b) := hblock
    split at hoption
    · rename_i hset
      exact ⟨hset, OptionValue.block.inj (Option.some.inj hoption)⟩
    · cases hoption
  obtain ⟨payload, hpayload, hbytes⟩ : ∃ payload, p.payload = some payload ∧
      msg.payload = slice m payload p.payloadLen.toNat := by
    rw [← hmsg] at hne ⊢
    unfold CoapPacket.message at hne ⊢
    cases hp : p.payload with
    | none =>
      rw [hp] at hne
      exact absurd rfl hne
    | some payload => exact ⟨payload, rfl, rfl⟩
  have hn : msg.payload.length = p.payloadLen.toNat := by rw [hbytes, length_slice]
  have hpos : p.payloadLen ≠ 0 := fun h => hne (List.eq_nil_of_length_eq_zero (by rw [hn, h]; rfl))
  have hmax := maxLen.isLt
  have hne' := List.length_pos_of_ne_nil hne
  refine ⟨?_, hset, hb⟩
  rw [hn] at hlen hfits hne' ⊢
  rw [handler_eq hpayload hpos hlen, hb, Nat.mod_eq_of_lt (by omega), if_neg (by omega), pointerAdd,
    Nat.mod_eq_of_lt (by omega), ← hbytes]

end

/-! ## Blocks of a body -/

/-- A resource: where datagrams arrive, where it assembles the body, and what its replies start from. -/
structure Reassembly where
  data : Nat
  dataSize : Nat
  target : Nat
  maxLen : SizeT
  response : CoapPacket
  small : dataSize ≤ 2 ^ 16
  inside : target + maxLen.toNat ≤ 2 ^ 20
  apart : data + dataSize ≤ target ∨ target + maxLen.toNat ≤ data

namespace Reassembly
variable (r : Reassembly)

/-- A datagram is received and parsed, and the handler is called for an accepted one. -/
def receive (s : Mem × SizeT) (datagram : List U8) : Option Block1End :=
  match coapParseMessage (store s.1 r.data datagram) r.data (BitVec.ofNat 16 datagram.length) with
  | .returned none request m => some (coapBlock1Handler request r.response (some r.target) (some s.2) r.maxLen m)
  | _ => none

/-- The datagrams one after the other, with the replies. -/
def receiveAll : Mem × SizeT → List (List U8) → Option (List (Int × CoapPacket) × Mem × SizeT)
  | s, [] => some ([], s)
  | s, datagram :: datagrams => do
    let e ← r.receive s datagram
    let (replies, s) ← receiveAll (e.mem, e.len.getD s.2) datagrams
    some ((e.ret, e.response) :: replies, s)

end Reassembly

/-- A request with block `j` of a body. -/
structure BlockOf (body : List U8) (size : U16) (j : Nat) (msg : Message) : Prop where
  fits : msg.Fits
  sizes : size = 16 ∨ size = 32 ∨ size = 64
  inside : j * size.toNat < body.length
  option : ∃ more offset, msg.options .block1 = some (.block ⟨BitVec.ofNat 32 j, more, size, offset⟩) ∧
    (more ≠ 0 ↔ (j + 1) * size.toNat < body.length)
  payload : msg.payload = (body.drop (j * size.toNat)).take size.toNat

/-- The reply names the block, and asks for more unless it is the last one. -/
structure Acknowledges (body : List U8) (size : U16) (j : Nat) (reply : Int × CoapPacket) : Prop where
  ret : reply.1 = if (j + 1) * size.toNat < body.length then 1 else 0
  option : reply.2.isOption .block1
  num : reply.2.block1.num = BitVec.ofNat 32 j
  size : reply.2.block1.size = size

/-- What becomes of a block: it is stored where it belongs. -/
structure Stored (r : Reassembly) (body : List U8) (size : U16) (j : Nat) (s : Mem × SizeT) (e : Block1End) :
    Prop where
  error : e.error = none
  reply : Acknowledges body size j (e.ret, e.response)
  len : e.len = some (BitVec.ofNat 20 (min ((j + 1) * size.toNat) body.length))
  cells : ∀ i x, body[i]? = some x →
    e.mem (r.target + i) = if i / size.toNat = j then x else s.1 (r.target + i)
  frame : ∀ i, (i < r.data ∨ r.data + r.dataSize ≤ i) → (i < r.target ∨ r.target + body.length ≤ i) → e.mem i = s.1 i

/-- What becomes of blocks that are received one after the other. -/
structure Assembled (r : Reassembly) (body : List U8) (size : U16) (js : List Nat) (s : Mem × SizeT)
    (replies : List (Int × CoapPacket)) (s' : Mem × SizeT) : Prop where
  replies : List.Forall₂ (Acknowledges body size) js replies
  cells : ∀ i x, body[i]? = some x →
    s'.1 (r.target + i) = if i / size.toNat ∈ js then x else s.1 (r.target + i)
  frame : ∀ i, (i < r.data ∨ r.data + r.dataSize ≤ i) → (i < r.target ∨ r.target + body.length ≤ i) → s'.1 i = s.1 i
  len : s'.2 = (js.getLast?.map fun j => BitVec.ofNat 20 (min ((j + 1) * size.toNat) body.length)).getD s.2

section
variable {r : Reassembly} {body : List U8} {size : U16} {j : Nat} {msg : Message} {s : Mem × SizeT}

theorem received_block (more : U8) (offset : U32) (hsize : size = 16 ∨ size = 32 ∨ size = 64)
    (hj : j * size.toNat < 2 ^ 20) :
    (Block.mk (BitVec.ofNat 32 j) more size offset).received.size = size ∧
      (Block.mk (BitVec.ofNat 32 j) more size offset).received.offset.toNat = j * size.toNat := by
  obtain ⟨e, he, hshift, hnat⟩ : ∃ e, e ≤ 2 ∧ size = (16 : U16) <<< e ∧ size.toNat = 16 * 2 ^ e := by
    rcases hsize with rfl | rfl | rfl
    · exact ⟨0, by decide, rfl, rfl⟩
    · exact ⟨1, by decide, rfl, rfl⟩
    · exact ⟨2, by decide, rfl, rfl⟩
  have hexponent : (Block.mk (BitVec.ofNat 32 j) more size offset).exponent = e := by
    unfold Block.exponent
    rw [hnat, Nat.mul_div_cancel_left _ (by decide), Nat.log2_two_pow]
  unfold Block.received
  rw [hexponent]
  refine ⟨hshift.symm, ?_⟩
  rw [hnat] at hj ⊢
  have hpow : 1 ≤ 2 ^ e := Nat.one_le_two_pow
  have hj' : j * 16 < 2 ^ 20 := Nat.lt_of_le_of_lt (Nat.mul_le_mul_left j (by omega)) hj
  rw [BitVec.toNat_shiftLeft, BitVec.toNat_shiftLeft, BitVec.toNat_ofNat, Nat.shiftLeft_eq, Nat.shiftLeft_eq,
    Nat.mod_eq_of_lt (by omega : j < 2 ^ 32), Nat.mod_eq_of_lt (by omega : j * 2 ^ 4 < 2 ^ 32), Nat.mul_assoc]
  exact Nat.mod_eq_of_lt (Nat.lt_trans hj (by decide))

theorem BlockOf.length_payload (hb : BlockOf body size j msg) :
    j * size.toNat + msg.payload.length = min ((j + 1) * size.toNat) body.length := by
  have hinside := hb.inside
  rw [hb.payload, List.length_take, List.length_drop, Nat.succ_mul]
  omega

theorem mem_block_iff {n i : Nat} (hn : 0 < n) : j * n ≤ i ∧ i < j * n + n ↔ i / n = j := by
  rw [Nat.div_eq_iff hn, Nat.add_sub_assoc hn]
  omega

theorem receive_block (hb : BlockOf body size j msg) (hbody : body.length ≤ r.maxLen.toNat)
    (hfit : msg.encode.length < r.dataSize) (s : Mem × SizeT) :
    ∃ e, r.receive s msg.encode = some e ∧ Stored r body size j s e := by
  have hsmall := r.small
  have hmax := r.maxLen.isLt
  have hinside := hb.inside
  have hpos : 0 < size.toNat := by
    rcases hb.sizes with rfl | rfl | rfl <;> decide
  have hdata : (BitVec.ofNat 16 msg.encode.length).toNat = msg.encode.length := by
    rw [BitVec.toNat_ofNat, Nat.mod_eq_of_lt (by omega)]
  have hholds : Holds (store s.1 r.data msg.encode) r.data msg.encode := holds_store _ _ _
  obtain ⟨q, m, hparse, hmsg⟩ := parse_encode hb.fits hholds hdata
  have hframe : Frame s.1 m r.data (r.data + r.dataSize) := by
    have hparsed := parse_encode_frame hb.fits hholds hdata hparse
    rw [hdata] at hparsed
    have hstored := frame_store s.1 r.data msg.encode
    exact (hstored.mono (Nat.le_refl _) (by omega)).trans (hparsed.mono (Nat.le_refl _) (by omega))
  obtain ⟨more, offset, hoption, hmore⟩ := hb.option
  obtain ⟨hsize, hoffset⟩ := received_block more offset hb.sizes (by omega : j * size.toNat < 2 ^ 20)
  have hlength := hb.length_payload
  have hne : msg.payload ≠ [] := by
    intro hnil
    rw [hnil, List.length_nil, Nat.succ_mul] at hlength
    omega
  have hreceived : msg.received.options .block1 =
      some (.block (Block.mk (BitVec.ofNat 32 j) more size offset).received) := by
    rw [Message.received]
    dsimp only
    rw [hoption]
    rfl
  have hends : (Block.mk (BitVec.ofNat 32 j) more size offset).received.offset.toNat + msg.received.payload.length =
      min ((j + 1) * size.toNat) body.length := by
    rw [hoffset]
    exact hlength
  obtain ⟨hend, hset, hblock⟩ := handler_message r.response s.2 hmsg hreceived hne hb.fits.payload
    (by omega) r.inside
  refine ⟨_, by rw [Reassembly.receive, hparse], ?_⟩
  have hnum : (BitVec.ofNat 32 j : U32).toNat = j := by
    have hle : j ≤ j * size.toNat := Nat.le_mul_of_pos_right j hpos
    rw [BitVec.toNat_ofNat, Nat.mod_eq_of_lt (by omega)]
  have hblock' : q.block1.num = BitVec.ofNat 32 j ∧ q.block1.size = size ∧ (q.block1.more ≠ 0 ↔ more ≠ 0) := by
    rw [hblock]
    refine ⟨rfl, hsize, ?_⟩
    show (if more ≠ 0 then 1 else 0 : U8) ≠ 0 ↔ _
    split <;> simp_all
  obtain ⟨hqnum, hqsize, hqmore⟩ := hblock'
  have hsizes : (16 : U16) ≤ size ∧ size ≤ 2048 := by
    rcases hb.sizes with rfl | rfl | rfl <;> decide
  have hnumle : (BitVec.ofNat 32 j : U32) ≤ 0x0FFFFF := by
    rw [BitVec.le_def, hnum]
    have hle : j ≤ j * size.toNat := Nat.le_mul_of_pos_right j hpos
    show j ≤ 0xFFFFF
    omega
  have hreply : ∀ m' len', (replyBlock1 q r.response m' len').response.isOption .block1 ∧
      (replyBlock1 q r.response m' len').response.block1.num = BitVec.ofNat 32 j ∧
      (replyBlock1 q r.response m' len').response.block1.size = size := by
    intro m' len'
    have hnamed := replyBlock1_block r.response m' len' hset
      (hqsize ▸ hsizes.1) (hqsize ▸ hsizes.2) (hqnum ▸ hnumle)
    rwa [hqnum, hqsize] at hnamed
  rw [hend]
  refine ⟨replyBlock1_error, ⟨?_, (hreply _ _).1, (hreply _ _).2.1, (hreply _ _).2.2⟩, ?_, ?_, ?_⟩
  · show (replyBlock1 q r.response _ _).ret = _
    rw [replyBlock1_ret]
    by_cases h : (j + 1) * size.toNat < body.length
    · rw [if_pos h, if_pos ⟨hset, hqmore.mpr (hmore.mpr h)⟩]
    · rw [if_neg h, if_neg fun hboth => h (hmore.mp (hqmore.mp hboth.2))]
  · rw [replyBlock1_len, hends]
  · intro i x hx
    have hi : i < body.length := (List.getElem?_eq_some_iff.mp hx).1
    rw [replyBlock1_mem, hoffset]
    show store m _ msg.payload _ = _
    rw [hb.payload, store_piece m r.target _ _ hx]
    simp only [mem_block_iff hpos]
    rw [hframe (r.target + i) (by have := r.apart; omega)]
  · intro i hdatagram htarget
    rw [replyBlock1_mem, hoffset, ← hframe i hdatagram]
    refine frame_store _ _ _ i ?_
    show i < _ ∨ _ + msg.payload.length ≤ i
    omega

/-! ## Runs -/

theorem Assembled.cons {js : List Nat} {s' : Mem × SizeT} {e : Block1End} {replies : List (Int × CoapPacket)}
    (h : Stored r body size j s e) (hrest : Assembled r body size js (e.mem, e.len.getD s.2) replies s') :
    Assembled r body size (j :: js) s ((e.ret, e.response) :: replies) s' where
  replies := List.Forall₂.cons h.reply hrest.replies
  cells := by
    intro i x hx
    rw [hrest.cells i x hx]
    dsimp only
    rw [h.cells i x hx]
    by_cases hlater : i / size.toNat ∈ js
    · rw [if_pos hlater, if_pos (List.mem_cons_of_mem _ hlater)]
    · rw [if_neg hlater]
      simp only [List.mem_cons, hlater, or_false]
  frame := fun i hdatagram htarget => (hrest.frame i hdatagram htarget).trans (h.frame i hdatagram htarget)
  len := by
    rw [hrest.len, h.len]
    cases js with
    | nil => rfl
    | cons j' js => rfl

/-- Datagrams with blocks of one body, in any order and some of them more than once: each block is stored and
acknowledged, and what has been stored before stays. -/
theorem receiveAll_blocks (blocks : List (Nat × Message)) (hbody : body.length ≤ r.maxLen.toNat)
    (hblocks : ∀ b ∈ blocks, BlockOf body size b.1 b.2 ∧ b.2.encode.length < r.dataSize) (s : Mem × SizeT) :
    ∃ replies s', r.receiveAll s (blocks.map fun b => b.2.encode) = some (replies, s') ∧
      Assembled r body size (blocks.map Prod.fst) s replies s' := by
  induction blocks generalizing s with
  | nil => exact ⟨[], s, rfl, List.Forall₂.nil, fun i x _ => by simp, fun _ _ _ => rfl, rfl⟩
  | cons b blocks ih =>
    obtain ⟨hb, hfit⟩ := hblocks b List.mem_cons_self
    obtain ⟨e, he, hstored⟩ := receive_block hb hbody hfit s
    obtain ⟨replies, s', hrun, hassembled⟩ :=
      ih (fun b hb => hblocks b (List.mem_cons_of_mem _ hb)) (e.mem, e.len.getD s.2)
    refine ⟨(e.ret, e.response) :: replies, s', ?_, hassembled.cons hstored⟩
    rw [List.map_cons, Reassembly.receiveAll, he]
    show (r.receiveAll (e.mem, e.len.getD s.2) _ >>= _) = _
    rw [hrun]
    rfl

/-- When each block of the body has been received, the buffer holds the body; if the last datagram had the last
block, the resource also has its length. -/
theorem receiveAll_body (blocks : List (Nat × Message)) (hbody : body.length ≤ r.maxLen.toNat)
    (hblocks : ∀ b ∈ blocks, BlockOf body size b.1 b.2 ∧ b.2.encode.length < r.dataSize)
    (hall : ∀ j, j * size.toNat < body.length → j ∈ blocks.map Prod.fst) (s : Mem × SizeT) :
    ∃ replies s', r.receiveAll s (blocks.map fun b => b.2.encode) = some (replies, s') ∧
      List.Forall₂ (Acknowledges body size) (blocks.map Prod.fst) replies ∧ Holds s'.1 r.target body ∧
      (∀ j, (blocks.map Prod.fst).getLast? = some j → body.length ≤ (j + 1) * size.toNat →
        s'.2.toNat = body.length) ∧
      ∀ i, (i < r.data ∨ r.data + r.dataSize ≤ i) → (i < r.target ∨ r.target + body.length ≤ i) →
        s'.1 i = s.1 i := by
  obtain ⟨replies, s', hrun, h⟩ := receiveAll_blocks blocks hbody hblocks s
  refine ⟨replies, s', hrun, h.replies, ?_, ?_, h.frame⟩
  · apply holds_of_getElem?
    intro i x hx
    have hi : i < body.length := (List.getElem?_eq_some_iff.mp hx).1
    rw [h.cells i x hx, if_pos]
    exact hall _ (Nat.lt_of_le_of_lt (Nat.div_mul_le_self i size.toNat) hi)
  · intro j hj hlast
    rw [h.len, hj]
    show (BitVec.ofNat 20 (min ((j + 1) * size.toNat) body.length)).toNat = _
    rw [Nat.min_eq_right hlast, BitVec.toNat_ofNat]
    exact Nat.mod_eq_of_lt (Nat.lt_of_le_of_lt hbody r.maxLen.isLt)

end

def twentyBytes : List U8 := (List.range 20).map (BitVec.ofNat 8)

def putTwentyBytes (j : Nat) : Message where
  type := 0
  code := 3
  mid := BitVec.ofNat 16 j
  token := []
  options := fun k => if k = .block1 then some (.block ⟨BitVec.ofNat 32 j, if j = 0 then 1 else 0, 16, 0⟩) else none
  payload := (twentyBytes.drop (j * 16)).take 16

def uploads : Reassembly where
  data := 0
  dataSize := 128
  target := 200
  maxLen := 64
  response := CoapPacket.zero
  small := by decide
  inside := by decide
  apart := by decide

theorem blockOf_putTwentyBytes {j : Nat} (hj : j < 2) : BlockOf twentyBytes 16 j (putTwentyBytes j) where
  fits := {
    type := (by decide : (0 : U8) < 4)
    token := Nat.zero_le _
    options := by
      intro k value hvalue
      unfold putTwentyBytes at hvalue
      dsimp only at hvalue
      split at hvalue
      · obtain rfl := Option.some.inj hvalue
        refine ⟨Or.inl ‹_›, ?_, (by decide : (16 : U16).toNat < 4096)⟩
        show (BitVec.ofNat 32 j).toNat < 2 ^ 28
        rw [BitVec.toNat_ofNat, Nat.mod_eq_of_lt (by omega)]
        omega
      · cases hvalue
    payload := Nat.le_trans (List.length_take_le _ _) (by decide) }
  sizes := Or.inl rfl
  inside := by
    show j * 16 < 20
    omega
  option := by
    refine ⟨_, _, rfl, ?_⟩
    show _ ↔ (j + 1) * 16 < 20
    split
    · simp_all
    · simp
      omega
  payload := rfl

/-- The last block first, and again at the end. -/
theorem receiveAll_body_twentyBytes :
    ∃ replies s', uploads.receiveAll (fun _ => 0, 0)
        ([(1, putTwentyBytes 1), (0, putTwentyBytes 0), (1, putTwentyBytes 1)].map fun b => b.2.encode) =
          some (replies, s') ∧ Holds s'.1 200 twentyBytes ∧ s'.2.toNat = 20 := by
  obtain ⟨replies, s', hrun, -, hholds, hlen, -⟩ :=
    @receiveAll_body uploads twentyBytes 16 [(1, putTwentyBytes 1), (0, putTwentyBytes 0), (1, putTwentyBytes 1)]
      (by decide : twentyBytes.length ≤ 64) (by
        intro b hb
        simp only [List.mem_cons, List.not_mem_nil, or_false] at hb
        rcases hb with rfl | rfl | rfl
        · exact ⟨blockOf_putTwentyBytes (by decide), by decide +kernel⟩
        · exact ⟨blockOf_putTwentyBytes (by decide), by decide +kernel⟩
        · exact ⟨blockOf_putTwentyBytes (by decide), by decide +kernel⟩) (by
        intro j hj
        have hj' : j * 16 < 20 := hj
        show j ∈ [1, 0, 1]
        simp only [List.mem_cons, List.not_mem_nil, or_false]
        omega) (fun _ => 0, 0)
  exact ⟨replies, s', hrun, hholds, hlen 1 rfl (by decide)⟩

end Unet4Cooja.Coap
