import Unet4Cooja.Node

/-!
# The MAC header (`ieee802154.c`, `unet_header_set`)

`ieee802154HeaderSet` and `unetHeaderSet` write the MAC and the network header of an outgoing
packet; `FrameControl` reads the two frame control bytes of a received one.
-/

namespace Unet4Cooja

def dataFrame : U8 := 1
def ackFrame : U8 := 2
def addr16Mode : U8 := 2

/-- `ieee802154_frame_control_t`: the bit fields of the two frame control bytes. -/
structure FrameControl where
  u80 : U8
  u81 : U8

namespace FrameControl

def frameType (fc : FrameControl) : U8 := fc.u80 &&& 7
def securityEnabled (fc : FrameControl) : Bool := fc.u80.getLsbD 3
def ackRequest (fc : FrameControl) : Bool := fc.u80.getLsbD 5
def dstAddrMode (fc : FrameControl) : U8 := (fc.u81 >>> 2) &&& 3
def srcAddrMode (fc : FrameControl) : U8 := (fc.u81 >>> 6) &&& 3

/-- The frame control bytes `ieee802154_header_set` builds: intra-PAN, 16-bit addresses. -/
def build (type : U8) (ackReq : Bool) : FrameControl :=
  { u80 := (type &&& 7) ||| (if ackReq then 0x20 else 0) ||| 0x40
    u81 := (addr16Mode <<< 2) ||| (addr16Mode <<< 6) }

end FrameControl

def ieee802154Dest16Set (p : Packet) (addr : U16) : Packet :=
  { p with info := { p.info with dest16H := hi addr, dest16L := lo addr } }

def ieee802154Dest16SetBroadcast (p : Packet) : Packet := ieee802154Dest16Set p broadAddr

def ieee802154HeaderSet (n : Node) (p : Packet) (type : U8) (ackReq : Bool) : Packet :=
  let fc := FrameControl.build type ackReq
  p |>.setByte macFrameCtrl fc.u80
    |>.setByte (macFrameCtrl + 1) fc.u81
    |>.setByte macSeqNum p.info.seqNum
    |>.setByte macPanid16 n.panid16L
    |>.setByte (macPanid16 + 1) n.panid16H
    |>.setByte macDest16 p.info.dest16L
    |>.setByte (macDest16 + 1) p.info.dest16H
    |>.setByte macSrc16 n.addr16L
    |>.setByte (macSrc16 + 1) n.addr16H
    |>.setByte macHeaderSize unetMacHeaderSize
    |>.setByte phyPktSize p.info.size

def unetHeaderSet (p : Packet) (type hopLimit nextHeader : U8) (src dst : Addr64)
    (payloadLen : U8) : Packet :=
  p |>.setByte unetPktType type
    |>.setByte unetHopLimit hopLimit
    |>.setByte unetPayloadLen payloadLen
    |>.setByte unetNextHeader nextHeader
    |>.setAddr64 unetSrc64 src
    |>.setAddr64 unetDest64 dst
    |>.setByte llcProto unetLlcProtoNumber

section Frame
variable (n : Node) (p : Packet) (type : U8) (ackReq : Bool) {k : Nat}

@[simp] theorem ieee802154HeaderSet_info : (ieee802154HeaderSet n p type ackReq).info = p.info := rfl

@[simp] theorem ieee802154HeaderSet_state :
    (ieee802154HeaderSet n p type ackReq).state = p.state := rfl

theorem ieee802154HeaderSet_packet (h : llcProto ≤ k) :
    (ieee802154HeaderSet n p type ackReq).packet k = p.packet k := by
  have hk : ∀ j < 11, k ≠ j := fun j hj e => by simp only [llcProto] at h; omega
  simp only [ieee802154HeaderSet, Packet.setByte_packet]
  rw [if_neg (hk 1 (by omega)), if_neg (hk 0 (by omega)), if_neg (hk 10 (by omega)),
    if_neg (hk 9 (by omega)), if_neg (hk 8 (by omega)), if_neg (hk 7 (by omega)),
    if_neg (hk 6 (by omega)), if_neg (hk 5 (by omega)), if_neg (hk 4 (by omega)),
    if_neg (hk 3 (by omega)), if_neg (hk 2 (by omega))]

theorem unetHeaderSet_packet (hop next : U8) (src dst : Addr64) (len : U8) (h : 32 ≤ k) :
    (unetHeaderSet p type hop next src dst len).packet k = p.packet k := by
  have hk : ∀ j < 32, k ≠ j := fun j hj e => by omega
  have h64 : unetDest64 + 8 ≤ k := h
  have h64' : unetSrc64 + 8 ≤ k := by simp only [unetSrc64]; omega
  simp only [unetHeaderSet, Packet.setByte_packet, Packet.setAddr64_of_ge _ _ h64,
    Packet.setAddr64_of_ge _ _ h64']
  rw [if_neg (hk 11 (by omega)), if_neg (hk 15 (by omega)), if_neg (hk 13 (by omega)),
    if_neg (hk 14 (by omega)), if_neg (hk 12 (by omega))]

end Frame

end Unet4Cooja
