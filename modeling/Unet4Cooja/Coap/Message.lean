import Unet4Cooja.Coap.Options
import Unet4Cooja.Coap.Receive

/-!
# CoAP messages (`er-coap.h`, `er-coap-constants.h`)

* `CoapOption` : `coap_option_t`, with its numbers;
* `CoapPacket` : `coap_packet_t`; a string is the place of its first byte and its length;
* `Message`, `CoapPacket.message` : what a packet says, whatever the memory it points into.
-/

namespace Unet4Cooja.Coap
open Lib

abbrev coapTokenLen : Nat := 8
abbrev coapEtagLen : Nat := 8
abbrev coapHeaderLen : Nat := 4
abbrev coapMaxHeaderSize : Nat := 62
abbrev restMaxChunkSize : Nat := 64

abbrev optionBits : Nat := 64

/-- `coap_option_t`. -/
inductive CoapOption
  | ifMatch
  | uriHost
  | etag
  | ifNoneMatch
  | observe
  | uriPort
  | locationPath
  | uriPath
  | contentFormat
  | maxAge
  | uriQuery
  | accept
  | locationQuery
  | block2
  | block1
  | size2
  | proxyUri
  | proxyScheme
  | size1
deriving DecidableEq

namespace CoapOption

def number : CoapOption → U16
  | ifMatch => 1
  | uriHost => 3
  | etag => 4
  | ifNoneMatch => 5
  | observe => 6
  | uriPort => 7
  | locationPath => 8
  | uriPath => 11
  | contentFormat => 12
  | maxAge => 14
  | uriQuery => 15
  | accept => 17
  | locationQuery => 20
  | block2 => 23
  | block1 => 27
  | size2 => 28
  | proxyUri => 35
  | proxyScheme => 39
  | size1 => 60

def all : List CoapOption :=
  [ifMatch, uriHost, etag, ifNoneMatch, observe, uriPort, locationPath, uriPath, contentFormat, maxAge, uriQuery,
    accept, locationQuery, block2, block1, size2, proxyUri, proxyScheme, size1]

/-- The case that a `switch` over the numbers takes; `none` is `default`. -/
def ofNumber (number : U16) : Option CoapOption := all.find? fun k => k.number = number

theorem ofNumber_number (k : CoapOption) : ofNumber k.number = some k := by cases k <;> rfl

theorem number_inj {k k' : CoapOption} (h : k.number = k'.number) : k = k' := by
  have hsome := congrArg ofNumber h
  rw [ofNumber_number, ofNumber_number] at hsome
  exact Option.some.inj hsome

theorem number_ofNumber {n : U16} {k : CoapOption} (h : ofNumber n = some k) : k.number = n := by
  simpa using List.find?_some h

theorem number_lt (k : CoapOption) : k.number < 64 := by cases k <;> decide

end CoapOption

/-- A pointer and the length beside it, a `size_t`. -/
structure Text where
  ptr : Nat
  len : Nat

/-- `etag` and `etag_len`, or those of If-Match. -/
structure Tag where
  len : U8
  bytes : Nat → U8

/-- `coap_packet_t`; `options` has a bit for each number below `optionBits`. -/
structure CoapPacket where
  buffer : Option Nat
  version : U8
  type : U8
  code : U8
  mid : U16
  tokenLen : U8
  token : Nat → U8
  options : Nat → Bool
  contentFormat : U16
  maxAge : U32
  etag : Tag
  proxyUri : Text
  proxyScheme : Text
  uriHost : Text
  locationPath : Text
  uriPort : U16
  locationQuery : Text
  uriPath : Text
  observe : U32
  accept : U16
  ifMatch : Tag
  block2 : Block
  block1 : Block
  size2 : U32
  size1 : U32
  uriQuery : Text
  ifNoneMatch : U8
  payloadLen : U16
  payload : Option Nat

namespace CoapPacket

/-- `memset(coap_pkt, 0, sizeof(coap_packet_t))`. -/
def zero : CoapPacket where
  buffer := none
  version := 0
  type := 0
  code := 0
  mid := 0
  tokenLen := 0
  token := fun _ => 0
  options := fun _ => false
  contentFormat := 0
  maxAge := 0
  etag := ⟨0, fun _ => 0⟩
  proxyUri := ⟨0, 0⟩
  proxyScheme := ⟨0, 0⟩
  uriHost := ⟨0, 0⟩
  locationPath := ⟨0, 0⟩
  uriPort := 0
  locationQuery := ⟨0, 0⟩
  uriPath := ⟨0, 0⟩
  observe := 0
  accept := 0
  ifMatch := ⟨0, fun _ => 0⟩
  block2 := ⟨0, 0, 0, 0⟩
  block1 := ⟨0, 0, 0, 0⟩
  size2 := 0
  size1 := 0
  uriQuery := ⟨0, 0⟩
  ifNoneMatch := 0
  payloadLen := 0
  payload := none

variable (p : CoapPacket)

def setOption (number : Nat) : CoapPacket := { p with options := Function.update p.options number true }

def isOption (k : CoapOption) : Bool := p.options k.number.toNat

@[simp] theorem isOption_setOption (k : CoapOption) : (p.setOption k.number.toNat).isOption k = true :=
  Function.update_self _ _ _

end CoapPacket

/-! ## What a packet says -/

/-- The value of an option. -/
inductive OptionValue
  | int (value : U32)
  | block (block : Block)
  | bytes (value : List U8)
  | flag
deriving DecidableEq

/-- A message without pointers. -/
structure Message where
  type : U8
  code : U8
  mid : U16
  token : List U8
  options : CoapOption → Option OptionValue
  payload : List U8

def Text.value (m : Mem) (t : Text) : List U8 := slice m t.ptr t.len

def Tag.value (t : Tag) : List U8 := slice t.bytes 0 t.len.toNat

namespace CoapPacket
variable (m : Mem) (p : CoapPacket)

def value : CoapOption → OptionValue
  | .ifMatch => .bytes p.ifMatch.value
  | .uriHost => .bytes (p.uriHost.value m)
  | .etag => .bytes p.etag.value
  | .ifNoneMatch => .flag
  | .observe => .int p.observe
  | .uriPort => .int (p.uriPort.setWidth 32)
  | .locationPath => .bytes (p.locationPath.value m)
  | .uriPath => .bytes (p.uriPath.value m)
  | .contentFormat => .int (p.contentFormat.setWidth 32)
  | .maxAge => .int p.maxAge
  | .uriQuery => .bytes (p.uriQuery.value m)
  | .accept => .int (p.accept.setWidth 32)
  | .locationQuery => .bytes (p.locationQuery.value m)
  | .block2 => .block p.block2
  | .block1 => .block p.block1
  | .size2 => .int p.size2
  | .proxyUri => .bytes (p.proxyUri.value m)
  | .proxyScheme => .bytes (p.proxyScheme.value m)
  | .size1 => .int p.size1

def message : Message where
  type := p.type
  code := p.code
  mid := p.mid
  token := slice p.token 0 p.tokenLen.toNat
  options := fun k => if p.isOption k then some (p.value m k) else none
  payload := p.payload.elim [] fun payload => slice m payload p.payloadLen.toNat

end CoapPacket

end Unet4Cooja.Coap
