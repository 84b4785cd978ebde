import Unet4Cooja.Coap.RestEngine

/-!
# Requests that are answered in blocks (`er-coap-engine.c`)

* `blockRequest`, `handleBlock2`, `serveRequest`, `coapReceiveRequest` : what `coap_receive` does with a request that
  has got a transaction, up to the datagram that it sends;
* `ChunkOf` : a service has written a chunk of a text; `handleBlock2_chunk` : the packet with the chunk;
* `chunkAnswer`, `serve_chunk` : the datagram;
* `named_iff` : when the answer names the block that it carries.
-/

namespace Unet4Cooja.Coap
open Lib

def coapTypeNon : U8 := 1
def coapTypeAck : U8 := 2
def coapTypeRst : U8 := 3

def content205 : CoapStatus := 69
def notImplemented501 : CoapStatus := 161
def internalServerError500 : CoapStatus := 160

abbrev coapMaxBlockSize : U16 := 64

def noBlock1Error : CoapError := ⟨notImplemented501, "NoBlock1Support"⟩
def noServiceError : CoapError := ⟨notImplemented501, "NoServiceCallbck"⟩

def coapInitMessage (type code : U8) (mid : U16) : CoapPacket :=
  { CoapPacket.zero with type := type, code := code, mid := mid }

def coapSetToken (p : CoapPacket) (token : Nat → U8) (tokenLen : Nat) : CoapPacket :=
  let len := min coapTokenLen tokenLen
  { p with tokenLen := BitVec.ofNat 8 len, token := store p.token 0 (slice token 0 len) }

def coapSetHeaderBlock2 (p : CoapPacket) (num : U32) (more : U8) (size : U16) : CoapPacket :=
  if size < 16 then p
  else if 2048 < size then p
  else if 0x0FFFFF < num then p
  else
    let block := { p.block2 with num := num, more := if more ≠ 0 then 1 else 0, size := size }
    CoapPacket.setOption { p with block2 := block } CoapOption.block2.number.toNat

/-- `block_num`, `block_size` and `block_offset`. -/
structure BlockRequest where
  num : U32
  size : U16
  offset : U32

/-- What a request asks for; a block is at most as long as the space for it. -/
def blockRequest (message : CoapPacket) : BlockRequest :=
  if message.isOption .block2 then
    let size := message.block2.size
    ⟨message.block2.num, if size < coapMaxBlockSize then size else coapMaxBlockSize, message.block2.offset⟩
  else ⟨0, coapMaxBlockSize, 0⟩

def initResponse (message : CoapPacket) (mid : U16) : CoapPacket :=
  let response :=
    if message.type = coapTypeCon then coapInitMessage coapTypeAck content205 message.mid
    else coapInitMessage coapTypeNon content205 mid
  if message.tokenLen ≠ 0 then coapSetToken response message.token message.tokenLen.toNat else response

/-- What follows a service that has set no error; `outOfScope` is where the string is. An offset that is left as it
was tells that the resource is unaware of blocks. -/
def handleBlock2 (outOfScope : Nat) (message : CoapPacket) (b : BlockRequest) (response : CoapPacket) (offset : Int) :
    Except CoapError CoapPacket :=
  if message.isOption .block1 ∧ response.code < badRequest400 ∧ ¬response.isOption .block1 then .error noBlock1Error
  else if message.isOption .block2 then
    if BitVec.ofInt 32 offset = b.offset then
      if response.payloadLen.setWidth 32 ≤ b.offset then
        .ok (coapSetPayload { response with code := badOption402 } outOfScope 15)
      else
        let rest := response.payloadLen.toNat - b.offset.toNat
        .ok (coapSetPayload (coapSetHeaderBlock2 response b.num (if b.size.toNat < rest then 1 else 0) b.size)
          (response.payload.map (· + b.offset.toNat)) (min rest b.size.toNat))
    else
      let more := if offset ≠ -1 ∨ b.size < response.payloadLen then 1 else 0
      let answer := coapSetHeaderBlock2 response b.num more b.size
      .ok (if b.size < response.payloadLen then coapSetPayload answer answer.payload b.size.toNat else answer)
  else if offset ≠ 0 then
    let answer := coapSetHeaderBlock2 response 0 (if offset ≠ -1 then 1 else 0) coapMaxBlockSize
    .ok (coapSetPayload answer answer.payload (min answer.payloadLen.toNat coapMaxBlockSize.toNat))
  else .ok response

/-- What the engine works with: the service, where the transaction has its packet and the connection its datagram,
and where the strings are. -/
structure Engine where
  service : Option Service
  packet : Nat
  data : Nat
  literal : String → Nat

/-- `erbium_status_code` with `coap_error_message` if they are set, `packet_len` and the memory. -/
structure RequestEnd where
  error : Option CoapError
  packetLen : Nat
  mem : Mem

namespace Engine
variable (E : Engine)

/-- The response is serialized into the packet of the transaction. -/
def sendResponse (response : CoapPacket) (m : Mem) : RequestEnd :=
  let s := coapSerializeMessage response m E.packet
  if s.size = 0 then ⟨some ⟨packetSerializationError, s.errorMessage.getD ""⟩, 0, s.mem⟩ else ⟨none, s.size, s.mem⟩

/-- A request that has got a transaction; `mid` is for a response that is no acknowledgement. -/
def serveRequest (message : CoapPacket) (m : Mem) (mid : U16) : RequestEnd :=
  let b := blockRequest message
  match E.service with
  | none => ⟨some noServiceError, 0, m⟩
  | some service =>
    let e := service message (initResponse message mid) m (E.packet + coapMaxHeaderSize) b.size b.offset.toInt
    match e.error with
    | some error => ⟨some error, 0, e.mem⟩
    | none =>
      if e.ret then
        match handleBlock2 (E.literal "BlockOutOfScope") message b e.response e.offset with
        | .error error => ⟨some error, 0, e.mem⟩
        | .ok response => E.sendResponse response e.mem
      else E.sendResponse e.response e.mem

/-- The message about an error, serialized over the datagram. -/
def sendError (message : CoapPacket) (error : CoapError) (m : Mem) : List U8 × Mem :=
  let status :=
    if error.status = pingResponse then 0
    else if 192 ≤ error.status then internalServerError500
    else error.status
  let type := if error.status = pingResponse then coapTypeRst else coapTypeAck
  let reply := coapSetPayload (coapInitMessage type status message.mid) (E.literal error.message) error.message.length
  let s := coapSerializeMessage reply m E.data
  (slice s.mem E.data s.size, s.mem)

/-- The datagram that answers a request, if there is one. -/
def coapReceiveRequest (message : CoapPacket) (m : Mem) (mid : U16) : Option (List U8) × Mem :=
  let e := E.serveRequest message m mid
  match e.error with
  | none => (some (slice e.mem E.packet e.packetLen), e.mem)
  | some error =>
    if error.status = manualResponse then (none, e.mem)
    else
      let (reply, m) := E.sendError message error e.mem
      (some reply, m)

end Engine

/-! ## A chunk -/

def moreAfter (text : List U8) (b : BlockRequest) : U8 := if text.length ≤ b.offset.toNat + b.size.toNat then 0 else 1

def chunk (text : List U8) (b : BlockRequest) : List U8 := window b.offset.toNat b.size.toNat text

def chunkPacket (response : CoapPacket) (buffer : Nat) (text : List U8) (b : BlockRequest) : CoapPacket :=
  { response with
    options := Function.update (Function.update response.options 12 true) 23 true
    contentFormat := applicationLinkFormat
    block2 := ⟨b.num, moreAfter text b, b.size, response.block2.offset⟩
    payload := some buffer
    payloadLen := BitVec.ofNat 16 (chunk text b).length }

structure Asks (message : CoapPacket) (text : List U8) (b : BlockRequest) : Prop where
  request : blockRequest message = b
  unblocked : message.isOption .block1 = false
  num : b.num.toNat ≤ 0x0FFFFF
  size : 16 ≤ b.size.toNat
  inside : b.offset.toNat < text.length
  text : text.length ≤ 2 ^ 31

section
variable {message response : CoapPacket} {text : List U8} {b : BlockRequest} {buffer outOfScope : Nat} {e : HandlerEnd}
  {mid : U16}

theorem blockRequest_size_le (message : CoapPacket) : (blockRequest message).size.toNat ≤ 64 := by
  unfold blockRequest
  split
  · dsimp only
    split
    · rename_i hlt
      exact Nat.le_of_lt hlt
    · decide
  · decide

theorem coapSetHeaderBlock2_eq (p : CoapPacket) {num : U32} (more : U8) {size : U16} (hmin : 16 ≤ size.toNat)
    (hmax : size.toNat ≤ 64) (hnum : num.toNat ≤ 0x0FFFFF) :
    coapSetHeaderBlock2 p num more size =
      CoapPacket.setOption { p with block2 := ⟨num, if more ≠ 0 then 1 else 0, size, p.block2.offset⟩ } 23 := by
  have h16 : ¬size < 16 := Nat.not_lt.mpr hmin
  have h2048 : ¬2048 < size := Nat.not_lt.mpr (Nat.le_trans hmax (by decide : 64 ≤ (2048 : U16).toNat))
  have hover : ¬0x0FFFFF < num := Nat.not_lt.mpr hnum
  unfold coapSetHeaderBlock2
  rw [if_neg h16, if_neg h2048, if_neg hover]
  rfl

theorem handleBlock2_chunk (hask : Asks message text b)
    (hchunk : ChunkOf text b.offset.toNat b.size.toNat buffer response e) :
    handleBlock2 outOfScope message b e.response e.offset = .ok (chunkPacket response buffer text b) := by
  have hmax : b.size.toNat ≤ 64 := hask.request ▸ blockRequest_size_le message
  have hmin := hask.size
  have hinside := hask.inside
  have htext := hask.text
  obtain ⟨length, hresponse, hlen, hlast⟩ := hchunk.answer
  have hoffset := hchunk.offset
  have hpayload : e.response.payloadLen.toNat = min 64 length := by
    rw [hresponse]
    show (BitVec.ofNat 16 (min 64 length)).toNat = _
    rw [BitVec.toNat_ofNat, Nat.mod_eq_of_lt (by omega)]
  have hlonger : b.size < e.response.payloadLen ↔ b.size.toNat < min 64 length := by
    rw [BitVec.lt_def, hpayload]
  have hmore : (if e.offset ≠ -1 ∨ b.size < e.response.payloadLen then 1 else 0 : U8) = moreAfter text b := by
    unfold moreAfter
    by_cases hend : text.length ≤ b.offset.toNat + b.size.toNat
    · rw [if_pos hend] at hoffset ⊢
      have hle := hlast hoffset
      exact if_neg fun h => h.elim (fun h => h hoffset) fun h => by
        have := hlonger.mp h
        omega
    · rw [if_neg hend] at hoffset ⊢
      exact if_pos (Or.inl (by omega))
  have hmore1 : (if moreAfter text b ≠ 0 then 1 else 0 : U8) = moreAfter text b := by
    unfold moreAfter
    split <;> rfl
  unfold handleBlock2
  rw [if_neg (by rw [hask.unblocked]; simp)]
  by_cases hblock : message.isOption .block2 = true
  · have hmoved : ¬BitVec.ofInt 32 e.offset = b.offset := by
      intro heq
      have hnat := congrArg BitVec.toNat heq
      rw [BitVec.toNat_ofInt] at hnat
      split at hoffset <;> omega
    rw [if_pos hblock, if_neg hmoved]
    dsimp only
    rw [hmore, coapSetHeaderBlock2_eq _ _ hmin hmax hask.num, hmore1]
    refine congrArg Except.ok ?_
    unfold chunkPacket
    by_cases hlt : b.size < e.response.payloadLen
    · have hcut : min 64 b.size.toNat = (chunk text b).length := by
        have := hlonger.mp hlt
        unfold chunk
        omega
      rw [if_pos hlt, ← hcut, hresponse]
      rfl
    · have hwhole : min 64 length = (chunk text b).length := by
        have := hlonger.not.mp hlt
        unfold chunk
        omega
      rw [if_neg hlt, ← hwhole, hresponse]
      rfl
  · have hb : b = ⟨0, 64, 0⟩ := by
      rw [← hask.request]
      unfold blockRequest
      rw [if_neg hblock]
    have h64 : b.size.toNat = 64 := by rw [hb]; rfl
    have hzero : b.offset.toNat = 0 := by rw [hb]; rfl
    have hnz : e.offset ≠ 0 := by split at hoffset <;> omega
    have hcut : min 64 (min (min 64 length) 64) = (chunk text b).length := by
      unfold chunk
      omega
    have hmore' : (if e.offset ≠ -1 then 1 else 0 : U8) = moreAfter text b := by
      rw [← hmore]
      by_cases hend : e.offset = -1
      · have hle := hlast hend
        rw [if_neg (not_not.mpr hend), if_neg]
        rintro (hne | hlt)
        · exact hne hend
        · have := hlonger.mp hlt
          omega
      · rw [if_pos hend, if_pos (Or.inl hend)]
    rw [if_neg hblock, if_pos hnz]
    dsimp only
    rw [hmore', coapSetHeaderBlock2_eq _ _ (by decide) (by decide) (by decide), hmore1]
    show Except.ok (coapSetPayload _ _ (min e.response.payloadLen.toNat _)) = _
    rw [hpayload]
    refine congrArg Except.ok ?_
    unfold chunkPacket
    rw [← hcut, hresponse, hb]
    rfl

def chunkAnswer (message : CoapPacket) (mid : U16) (text : List U8) (b : BlockRequest) : Message where
  type := if message.type = coapTypeCon then coapTypeAck else coapTypeNon
  code := content205
  mid := if message.type = coapTypeCon then message.mid else mid
  token := slice message.token 0 message.tokenLen.toNat
  options
    | .contentFormat => some (.int (applicationLinkFormat.setWidth 32))
    | .block2 => some (.block ⟨b.num, moreAfter text b, b.size, 0⟩)
    | _ => none
  payload := chunk text b

theorem length_chunk_le (hsize : b.size.toNat ≤ 64) (text : List U8) : (chunk text b).length ≤ 64 := by
  unfold chunk
  rw [length_window]
  omega

theorem initResponse_token (htoken : message.tokenLen.toNat ≤ 8) (mid : U16) :
    slice (initResponse message mid).token 0 (initResponse message mid).tokenLen.toNat =
      slice message.token 0 message.tokenLen.toNat := by
  have hmin : min coapTokenLen message.tokenLen.toNat = message.tokenLen.toNat := Nat.min_eq_right htoken
  unfold initResponse
  by_cases hnone : message.tokenLen = 0
  · rw [if_neg (not_not.mpr hnone), hnone]
    split <;> rfl
  · rw [if_pos hnone]
    unfold coapSetToken
    rw [hmin]
    show slice (store _ 0 (slice message.token 0 message.tokenLen.toNat)) 0
      (BitVec.ofNat 8 message.tokenLen.toNat).toNat = _
    rw [BitVec.ofNat_toNat, BitVec.setWidth_eq]
    have hstored := fun token : Nat → U8 => slice_store token 0 (slice message.token 0 message.tokenLen.toNat)
    rw [length_slice] at hstored
    exact hstored _

theorem initResponse_fields (message : CoapPacket) (mid : U16) :
    (initResponse message mid).type = (if message.type = coapTypeCon then coapTypeAck else coapTypeNon) ∧
      (initResponse message mid).code = content205 ∧
      (initResponse message mid).mid = (if message.type = coapTypeCon then message.mid else mid) ∧
      (initResponse message mid).options = (fun _ => false) ∧ (initResponse message mid).block2.offset = 0 := by
  unfold initResponse
  by_cases hcon : message.type = coapTypeCon
  · rw [if_pos hcon, if_pos hcon, if_pos hcon]
    split <;> exact ⟨rfl, rfl, rfl, rfl, rfl⟩
  · rw [if_neg hcon, if_neg hcon, if_neg hcon]
    split <;> exact ⟨rfl, rfl, rfl, rfl, rfl⟩

theorem chunkPacket_message (htoken : message.tokenLen.toNat ≤ 8) (hsize : b.size.toNat ≤ 64) (mid : U16) {m : Mem}
    (hholds : Holds m buffer (chunk text b)) :
    (chunkPacket (initResponse message mid) buffer text b).message m = chunkAnswer message mid text b := by
  obtain ⟨htype, hcode, hmid, hoptions, hoffset⟩ := initResponse_fields message mid
  have hlen : (BitVec.ofNat 16 (chunk text b).length).toNat = (chunk text b).length := by
    have := length_chunk_le hsize text
    rw [BitVec.toNat_ofNat, Nat.mod_eq_of_lt (by omega)]
  unfold CoapPacket.message chunkPacket chunkAnswer
  dsimp only
  rw [htype, hcode, hmid, initResponse_token htoken, hoffset, hlen]
  congr 1
  · funext k
    unfold CoapPacket.isOption
    dsimp only
    rw [hoptions]
    cases k <;> rfl

theorem length_coapSetOptionHeader_le (delta length : U16) : (coapSetOptionHeader delta length).length ≤ 5 := by
  have hext : ∀ x, (optionExtension x).length ≤ 2 := by
    intro x
    unfold optionExtension
    split
    · exact Nat.le_refl 2
    · split
      · exact Nat.le_succ 1
      · exact Nat.zero_le 2
  unfold coapSetOptionHeader
  rw [List.length_cons, List.length_append]
  have := hext delta
  have := hext length
  omega

theorem length_encode_le (msg : Message) : msg.encode.length ≤ msg.header.length + 1 + msg.payload.length := by
  unfold Message.encode
  rw [List.length_append]
  split
  · exact Nat.le_trans (Nat.le_succ _) (Nat.le_add_right _ _)
  · rw [List.length_cons]
    omega

theorem length_encodeOptions_cons_le (current number : U16) (value : List U8) (os : List (U16 × List U8)) :
    (encodeOptions current ((number, value) :: os)).length ≤ 5 + value.length + (encodeOptions number os).length := by
  have := length_coapSetOptionHeader_le (number - current) (BitVec.ofNat 16 value.length)
  rw [encodeOptions, List.length_append, List.length_append]
  omega

theorem length_header_le {msg : Message} {format : U32} {block : Block}
    (h : msg.optionList = [(12, intBytes format), (23, intBytes block.value)]) :
    msg.header.length ≤ 22 + msg.token.length := by
  have hformat := length_intBytes_le format
  have hblock := length_intBytes_le block.value
  have hfirst := length_encodeOptions_cons_le 0 12 (intBytes format) [(23, intBytes block.value)]
  have hsecond := length_encodeOptions_cons_le 12 23 (intBytes block.value) []
  have hnil : (encodeOptions 23 []).length = 0 := rfl
  have hbytes : (headerBytes msg.type (BitVec.ofNat 8 msg.token.length) msg.code msg.mid).length = 4 := rfl
  unfold Message.header
  rw [h, List.length_append, List.length_append]
  omega

theorem chunkAnswer_header (htoken : message.tokenLen.toNat ≤ 8) (mid : U16) (text : List U8) (b : BlockRequest) :
    (chunkAnswer message mid text b).header.length ≤ 30 := by
  have hoptions : (chunkAnswer message mid text b).optionList =
      [(12, intBytes 40), (23, intBytes (Block.mk b.num (moreAfter text b) b.size 0).value)] := rfl
  have hheader := length_header_le hoptions
  have htokens : (chunkAnswer message mid text b).token.length = message.tokenLen.toNat := length_slice _ _ _
  omega

theorem chunkPacket_readable (message : CoapPacket) (mid : U16) (text : List U8) (b : BlockRequest)
    (buffer packet n : Nat) (m : Mem) : Readable (chunkPacket (initResponse message mid) buffer text b) m packet n := by
  have honly : ∀ k, (chunkPacket (initResponse message mid) buffer text b).isOption k →
      k = .contentFormat ∨ k = .block2 := by
    intro k hk
    unfold CoapPacket.isOption chunkPacket at hk
    dsimp only at hk
    rw [(initResponse_fields message mid).2.2.2.1] at hk
    cases k <;> first | exact Or.inl rfl | exact Or.inr rfl | cases hk
  constructor
  · intro k hk
    rcases honly k hk with rfl | rfl <;> exact Or.inl (Nat.zero_le _)
  · intro k c hk hc
    rcases honly k hk with rfl | rfl <;> cases hc

theorem chunkPacket_serialize (hsize : b.size.toNat ≤ 64) (htoken : message.tokenLen.toNat ≤ 8) (mid : U16) {m : Mem}
    {packet : Nat} (hholds : Holds m (packet + coapMaxHeaderSize) (chunk text b)) :
    let s := coapSerializeMessage (chunkPacket (initResponse message mid) (packet + coapMaxHeaderSize) text b) m packet
    s.size = (chunkAnswer message mid text b).encode.length ∧
      s.mem = store m packet (chunkAnswer message mid text b).encode := by
  have hmessage := chunkPacket_message htoken hsize mid hholds
  have hheader := chunkAnswer_header htoken mid text b
  have hcode : (chunkPacket (initResponse message mid) (packet + coapMaxHeaderSize) text b).code ≠ 0 := by
    show (initResponse message mid).code ≠ 0
    rw [(initResponse_fields message mid).2.1]
    decide
  have hreadable := chunkPacket_readable message mid text b (packet + coapMaxHeaderSize) packet
    (chunkAnswer message mid text b).header.length m
  have hserialize := @serialize_eq _ m packet hcode (by rw [hmessage]; exact hreadable)
    (by rw [hmessage]; exact Nat.le_trans hheader (by decide)) (fun h => by cases h)
    (by rw [hmessage]; exact Or.inr (Nat.add_le_add_left (Nat.le_trans (Nat.succ_le_succ hheader) (by decide)) packet))
  rw [hmessage] at hserialize
  dsimp only
  rw [hserialize]
  exact ⟨rfl, rfl⟩

theorem serve_chunk {E : Engine} {service : Service} {m : Mem} (mid : U16) (hservice : E.service = some service)
    (hask : Asks message text b) (htoken : message.tokenLen.toNat ≤ 8)
    (hend : service message (initResponse message mid) m (E.packet + coapMaxHeaderSize) b.size b.offset.toInt =
      ⟨e, true⟩)
    (hchunk : ChunkOf text b.offset.toNat b.size.toNat (E.packet + coapMaxHeaderSize) (initResponse message mid) e) :
    E.coapReceiveRequest message m mid = (some (chunkAnswer message mid text b).encode,
      store e.mem E.packet (chunkAnswer message mid text b).encode) := by
  have hmax : b.size.toNat ≤ 64 := hask.request ▸ blockRequest_size_le message
  obtain ⟨hsize, hmem⟩ := chunkPacket_serialize hmax htoken mid hchunk.holds
  have hsent : E.serveRequest message m mid = ⟨none, (chunkAnswer message mid text b).encode.length,
      store e.mem E.packet (chunkAnswer message mid text b).encode⟩ := by
    unfold Engine.serveRequest
    rw [hask.request, hservice]
    dsimp only
    rw [hend]
    dsimp only
    rw [hchunk.error]
    dsimp only
    rw [if_pos rfl, handleBlock2_chunk hask hchunk]
    dsimp only
    unfold Engine.sendResponse
    dsimp only
    rw [hsize, hmem, if_neg]
    unfold Message.encode Message.header headerBytes
    simp
  unfold Engine.coapReceiveRequest
  rw [hsent]
  dsimp only
  rw [slice_store]

/-! ## The name of a chunk -/

theorem parse_offset {value : U32} (hnum : (Block.parse value).num.toNat ≤ 0x0FFFFF) :
    ∃ e ≤ 7, (Block.parse value).size.toNat = 16 * 2 ^ e ∧
      (Block.parse value).offset.toNat = (Block.parse value).num.toNat * (Block.parse value).size.toNat := by
  have hexponent : (value &&& 0x07).toNat ≤ 7 := by
    rw [BitVec.toNat_and]
    exact Nat.and_le_right
  have hpow : (2 : Nat) ^ (value &&& 0x07).toNat ≤ 2 ^ 7 := Nat.pow_le_pow_right (by decide) hexponent
  have hsize : (Block.parse value).size.toNat = 16 * 2 ^ (value &&& 0x07).toNat := by
    show ((16 : U16) <<< (value &&& 0x07).toNat).toNat = _
    rw [BitVec.toNat_shiftLeft, Nat.shiftLeft_eq]
    exact Nat.mod_eq_of_lt (by show 16 * _ < 2 ^ 16; omega)
  refine ⟨_, hexponent, hsize, ?_⟩
  change (value >>> 4).toNat ≤ 0x0FFFFF at hnum
  rw [hsize]
  show ((value &&& 0xFFFFFFF0) <<< (value &&& 0x07)).toNat = (value >>> 4).toNat * _
  rw [mask_eq_shifts, BitVec.shiftLeft_eq', BitVec.toNat_shiftLeft, BitVec.toNat_shiftLeft, Nat.shiftLeft_eq,
    Nat.shiftLeft_eq, Nat.mod_eq_of_lt (by omega : (value >>> 4).toNat * 2 ^ 4 < 2 ^ 32), ← Nat.mul_assoc]
  apply Nat.mod_eq_of_lt
  calc (value >>> 4).toNat * 2 ^ 4 * 2 ^ (value &&& 0x07).toNat ≤ 0x0FFFFF * 2 ^ 4 * 2 ^ 7 :=
        Nat.mul_le_mul (Nat.mul_le_mul_right _ hnum) hpow
    _ < 2 ^ 32 := by decide

/-- A service that has written the chunk that is asked for, and nothing else. -/
def chunkEnd (text : List U8) (b : BlockRequest) (buffer : Nat) (response : CoapPacket) : HandlerEnd where
  response :=
    coapSetHeaderContentFormat (coapSetPayload response (some buffer) (chunk text b).length) applicationLinkFormat
  mem := store (fun _ => 0) buffer (chunk text b)
  offset := if text.length ≤ b.offset.toNat + b.size.toNat then -1 else (b.offset.toNat : Int) + b.size.toNat
  error := none

theorem chunkEnd_chunkOf (text : List U8) (b : BlockRequest) (buffer : Nat) (response : CoapPacket) :
    ChunkOf text b.offset.toNat b.size.toNat buffer response (chunkEnd text b buffer response) := by
  have hlen : (chunk text b).length ≤ b.size.toNat := by
    unfold chunk
    rw [length_window]
    omega
  exact ⟨⟨_, rfl, Nat.min_eq_right hlen, fun _ => hlen⟩, holds_store _ _ _, rfl, rfl⟩

/-- The packet carries the block that its option names. -/
def Named (text : List U8) (m : Mem) (p : CoapPacket) : Prop :=
  (p.message m).payload = window (p.block2.num.toNat * p.block2.size.toNat) p.block2.size.toNat text

/-- The server answers with a block under its own name exactly if the client has asked for a block that is not
longer than the chunks of the server, or for the first one. -/
theorem named_iff {v : U32} (hset : message.isOption .block2 = true) (hparsed : message.block2 = Block.parse v)
    (hunblocked : message.isOption .block1 = false) (hnum : message.block2.num.toNat ≤ 0x0FFFFF) :
    (∀ text response buffer e answer, Asks message text (blockRequest message) →
        ChunkOf text (blockRequest message).offset.toNat (blockRequest message).size.toNat buffer response e →
        handleBlock2 outOfScope message (blockRequest message) e.response e.offset = .ok answer →
        Named text e.mem answer) ↔
      message.block2.size.toNat ≤ 64 ∨ message.block2.num.toNat = 0 := by
  obtain ⟨k, hk, hsize, hoffset⟩ := parse_offset (hparsed ▸ hnum)
  rw [← hparsed] at hsize hoffset
  have hpow : (2 : Nat) ^ k ≤ 2 ^ 7 := Nat.pow_le_pow_right (by decide) hk
  have hnumb : (blockRequest message).num = message.block2.num := by
    unfold blockRequest
    rw [if_pos hset]
  have hoffsetb : (blockRequest message).offset = message.block2.offset := by
    unfold blockRequest
    rw [if_pos hset]
  have hsizeb : (blockRequest message).size.toNat = min message.block2.size.toNat 64 := by
    unfold blockRequest
    rw [if_pos hset]
    show (if message.block2.size < coapMaxBlockSize then message.block2.size else coapMaxBlockSize).toNat = _
    split
    · rename_i hlt
      exact (Nat.min_eq_left (Nat.le_of_lt hlt)).symm
    · rename_i hge
      exact (Nat.min_eq_right (Nat.not_lt.mp hge)).symm
  have hnamed : ∀ text response buffer e, Asks message text (blockRequest message) →
      ChunkOf text (blockRequest message).offset.toNat (blockRequest message).size.toNat buffer response e →
      (Named text e.mem (chunkPacket response buffer text (blockRequest message)) ↔
        window message.block2.offset.toNat (blockRequest message).size.toNat text =
          window (message.block2.num.toNat * (blockRequest message).size.toNat) (blockRequest message).size.toNat
            text) := by
    intro text response buffer e hask hchunk
    have hlen : (BitVec.ofNat 16 (chunk text (blockRequest message)).length).toNat =
        (chunk text (blockRequest message)).length := by
      have := length_chunk_le (by omega : (blockRequest message).size.toNat ≤ 64) text
      rw [BitVec.toNat_ofNat, Nat.mod_eq_of_lt (by omega)]
    have hpayload : ((chunkPacket response buffer text (blockRequest message)).message e.mem).payload =
        chunk text (blockRequest message) := by
      show slice e.mem buffer (BitVec.ofNat 16 (chunk text (blockRequest message)).length).toNat = _
      rw [hlen]
      exact hchunk.holds
    unfold Named
    rw [hpayload]
    unfold chunk chunkPacket
    rw [hnumb, hoffsetb]
  constructor
  · intro hall
    by_contra hlarge
    obtain ⟨hlong, hlater⟩ := not_or.mp hlarge
    have hk3 : 3 ≤ k := by
      by_contra hsmall
      have hfew : (2 : Nat) ^ k ≤ 2 ^ 2 := Nat.pow_le_pow_right (by decide) (by omega)
      omega
    have hdouble : 2 ^ 3 ≤ (2 : Nat) ^ k := Nat.pow_le_pow_right (by decide) hk3
    have hfar : message.block2.num.toNat * 128 ≤ message.block2.offset.toNat :=
      hoffset ▸ Nat.mul_le_mul_left _ (by omega)
    have hnear : message.block2.offset.toNat ≤ 0x0FFFFF * 2048 := hoffset ▸ Nat.mul_le_mul hnum (by omega)
    -- One byte of the block is there.
    let text : List U8 := List.replicate (message.block2.offset.toNat + 1) 0
    have hlen : text.length = message.block2.offset.toNat + 1 := List.length_replicate
    have hask : Asks message text (blockRequest message) :=
      ⟨rfl, hunblocked, hnumb ▸ hnum, by omega, by rw [hoffsetb, hlen]; exact Nat.lt_succ_self _, by omega⟩
    have hchunk := chunkEnd_chunkOf text (blockRequest message) 0 CoapPacket.zero
    have hsame := (hnamed _ _ _ _ hask hchunk).mp (hall _ _ _ _ _ hask hchunk (handleBlock2_chunk hask hchunk))
    have hlengths := congrArg List.length hsame
    have h64 : (blockRequest message).size.toNat = 64 := by omega
    rw [length_window, length_window, hlen, h64] at hlengths
    omega
  · intro hsmall text response buffer e answer hask hchunk hanswer
    rw [handleBlock2_chunk hask hchunk] at hanswer
    obtain rfl := Except.ok.inj hanswer
    apply (hnamed _ _ _ _ hask hchunk).mpr
    rcases hsmall with hle | hzero
    · rw [hsizeb, Nat.min_eq_left hle, hoffset]
    · rw [hoffset, hzero, Nat.zero_mul, Nat.zero_mul]

end

def secondLargeBlock : CoapPacket := CoapPacket.setOption { CoapPacket.zero with block2 := Block.parse 0x13 } 23

theorem named_iff_secondLargeBlock :
    ¬∀ text response buffer e answer, Asks secondLargeBlock text (blockRequest secondLargeBlock) →
      ChunkOf text (blockRequest secondLargeBlock).offset.toNat (blockRequest secondLargeBlock).size.toNat buffer
        response e →
      handleBlock2 0 secondLargeBlock (blockRequest secondLargeBlock) e.response e.offset = .ok answer →
      Named text e.mem answer := by
  rw [named_iff (v := 0x13) rfl rfl rfl (by decide)]
  decide

end Unet4Cooja.Coap
