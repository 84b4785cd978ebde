import Unet4Cooja.Coap.Message

/-!
# Parsing (`coap_parse_message`)

The parser merges the parts of a path or a query in the datagram itself, and it does not look where an option
ends.

* `coapMergeMultiOption`, `applyOption`, `parseOption` : one round of its loop;
* `coapParseMessage` : the parser, which ends as `ParseEnd` says.
-/

namespace Unet4Cooja.Coap
open Lib

def badOption402 : CoapStatus := 130
def proxyingNotSupported505 : CoapStatus := 165

/-- What the parser returns, with `coap_error_message`. -/
structure CoapError where
  status : CoapStatus
  message : String
deriving DecidableEq

def versionError : CoapError := ⟨badRequest400, "CoAP version must be 1"⟩
def criticalOptionError : CoapError := ⟨badOption402, "Unsupported critical option"⟩
def proxyError : CoapError := ⟨proxyingNotSupported505, "This is a constrained server (Contiki)"⟩

/-- How the parser ends: it returns, where `none` is `NO_ERROR`, or `SET_OPTION` writes behind `options`. -/
inductive ParseEnd
  | returned (error : Option CoapError) (packet : CoapPacket) (mem : Mem)
  | outside

/-- The memory, `coap_pkt`, `current_option` and `option_number`. -/
structure ParseState where
  mem : Mem
  packet : CoapPacket
  current : Nat
  number : U16

/-! ## The options -/

def coapMergeMultiOption (m : Mem) (dst : Text) (option len : Nat) (separator : U8) : Mem × Text :=
  if 0 < dst.len then
    let m := Function.update m (dst.ptr + dst.len) separator
    (store m (dst.ptr + dst.len + 1) (slice m option len), ⟨dst.ptr, dst.len + 1 + len⟩)
  else (m, ⟨option, len⟩)

/-- `etag` or `if_match` after the `memcpy` of its case; longer values are cut. -/
def Tag.copy (t : Tag) (m : Mem) (option : Nat) (length : U16) : Tag :=
  let len := min coapEtagLen length.toNat
  ⟨BitVec.ofNat 8 len, store t.bytes 0 (slice m option len)⟩

/-- The cases of the `switch`. -/
def applyOption (m : Mem) (p : CoapPacket) (current : Nat) (length : U16) :
    CoapOption → Except CoapError (CoapPacket × Mem)
  | .contentFormat => .ok ({ p with contentFormat := (coapParseIntOption m current length).setWidth 16 }, m)
  | .maxAge => .ok ({ p with maxAge := coapParseIntOption m current length }, m)
  | .etag => .ok ({ p with etag := p.etag.copy m current length }, m)
  | .accept => .ok ({ p with accept := (coapParseIntOption m current length).setWidth 16 }, m)
  | .ifMatch => .ok ({ p with ifMatch := p.ifMatch.copy m current length }, m)
  | .ifNoneMatch => .ok ({ p with ifNoneMatch := 1 }, m)
  | .proxyUri | .proxyScheme => .error proxyError
  | .uriHost => .ok ({ p with uriHost := ⟨current, length.toNat⟩ }, m)
  | .uriPort => .ok ({ p with uriPort := (coapParseIntOption m current length).setWidth 16 }, m)
  | .uriPath =>
    let merged := coapMergeMultiOption m p.uriPath current length.toNat 0x2F
    .ok ({ p with uriPath := merged.2 }, merged.1)
  | .uriQuery =>
    let merged := coapMergeMultiOption m p.uriQuery current length.toNat 0x26
    .ok ({ p with uriQuery := merged.2 }, merged.1)
  | .locationPath =>
    let merged := coapMergeMultiOption m p.locationPath current length.toNat 0x2F
    .ok ({ p with locationPath := merged.2 }, merged.1)
  | .locationQuery =>
    let merged := coapMergeMultiOption m p.locationQuery current length.toNat 0x26
    .ok ({ p with locationQuery := merged.2 }, merged.1)
  | .observe => .ok ({ p with observe := coapParseIntOption m current length }, m)
  | .block2 => .ok ({ p with block2 := .parse (coapParseIntOption m current length) }, m)
  | .block1 => .ok ({ p with block1 := .parse (coapParseIntOption m current length) }, m)
  | .size2 => .ok ({ p with size2 := coapParseIntOption m current length }, m)
  | .size1 => .ok ({ p with size1 := coapParseIntOption m current length }, m)

/-- The `switch`, with its `default`. -/
def switchOption (m : Mem) (p : CoapPacket) (current : Nat) (number length : U16) :
    Except CoapError (CoapPacket × Mem) :=
  match CoapOption.ofNumber number with
  | some k => applyOption m p current length k
  | none => if number &&& 1 ≠ 0 then .error criticalOptionError else .ok (p, m)

/-- A round of the loop that meets no payload marker. -/
def parseOption (s : ParseState) : Except ParseEnd ParseState :=
  let (delta, length, current) := readOptionHeader s.mem s.current
  let number := s.number + delta
  if optionBits ≤ number.toNat then .error .outside
  else
    let packet := s.packet.setOption number.toNat
    match switchOption s.mem packet current number length with
    | .error e => .error (.returned (some e) packet s.mem)
    | .ok (packet, mem) => .ok ⟨mem, packet, current + length.toNat, number⟩

/-- The round that meets the payload marker. -/
def parsePayload (stop : Nat) (s : ParseState) : ParseEnd :=
  let payload := s.current + 1
  let len := min restMaxChunkSize (stop - payload)
  .returned none { s.packet with payload := some payload, payloadLen := BitVec.ofNat 16 len }
    (Function.update s.mem (payload + len) 0)

/-- The loop; `fuel` bounds the number of rounds. -/
def parseOptions (stop : Nat) : Nat → ParseState → ParseEnd
  | 0, s => .returned none s.packet s.mem
  | fuel + 1, s =>
    if s.current < stop then
      if s.mem s.current &&& 0xF0 = 0xF0 then parsePayload stop s
      else
        match parseOption s with
        | .error e => e
        | .ok s => parseOptions stop fuel s
    else .returned none s.packet s.mem

/-- The packet after `coap_pkt->mid` is set. -/
def parseHeader (m : Mem) (data : Nat) : CoapPacket :=
  { CoapPacket.zero with
    buffer := some data
    version := (0xC0 &&& m data) >>> 6
    type := (0x30 &&& m data) >>> 4
    tokenLen := if 8 < 0x0F &&& m data then 8 else 0x0F &&& m data
    code := m (data + 1)
    mid := bytesToShort (m (data + 2)) (m (data + 3)) }

/-- The packet before the loop. -/
def parseToken (m : Mem) (data : Nat) : CoapPacket :=
  let p := parseHeader m data
  { p with token := store p.token 0 (slice m (data + coapHeaderLen) p.tokenLen.toNat) }

def coapParseMessage (m : Mem) (data : Nat) (dataLen : U16) : ParseEnd :=
  let p := parseHeader m data
  if p.version ≠ 1 then .returned (some versionError) p m
  else
    parseOptions (data + dataLen.toNat) dataLen.toNat
      ⟨m, parseToken m data, data + coapHeaderLen + p.tokenLen.toNat, 0⟩

end Unet4Cooja.Coap
