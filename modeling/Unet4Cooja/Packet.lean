import Mathlib.Data.BitVec
import Mathlib.Logic.Function.Basic
import Unet4Cooja.Lib.Numerals

/-!
# Packets (`packet.h`, `packet.c`)

* `U8`, `U16`, `bytesToShort`, `hi`, `lo` : the C integer types and the address macros;
* `Packet` : `packet_t`, the info array, the bytes and the buffer state, with the byte offsets of
  the MAC, LLC, network, transport and link-message headers;
* `osSemPost` : a post to a BRTOS counting semaphore, seen from its single consumer.
-/

namespace Unet4Cooja

/-- `uint8_t`. -/
abbrev U8 := BitVec 8

/-- `uint16_t`. -/
abbrev U16 := BitVec 16

/-- `uint32_t`. -/
abbrev U32 := BitVec 32

/-- `BYTESTOSHORT(h, l)`, also written `(h << 8) + l`. -/
def bytesToShort (h l : U8) : U16 := (h.setWidth 16 <<< 8) + l.setWidth 16

def hi (x : U16) : U8 := (x >>> 8).setWidth 8

def lo (x : U16) : U8 := x.setWidth 8

@[simp] theorem bytesToShort_hi_lo (x : U16) : bytesToShort (hi x) (lo x) = x := by
  unfold bytesToShort hi lo; bv_omega

@[simp] theorem hi_bytesToShort (h l : U8) : hi (bytesToShort h l) = h := by
  unfold bytesToShort hi; bv_omega

@[simp] theorem lo_bytesToShort (h l : U8) : lo (bytesToShort h l) = l := by
  unfold bytesToShort lo; bv_omega

/-- `addr64_t`. -/
abbrev Addr64 := Fin 8 → U8

/-! ## Semaphores -/

/-- `OSSemPost` on the count of a semaphore with one consumer: a post to the waiting task and a
post to an idle semaphore both leave one token to take; the count stops at 255 (`ERR_SEM_OVF`). -/
def osSemPost (c : Nat) : Nat := if c < 255 then c + 1 else c

theorem osSemPost_pos (c : Nat) : 0 < osSemPost c := by unfold osSemPost; split <;> omega

/-! ## Packet layout -/

abbrev macHeaderSize : Nat := 0
abbrev phyPktSize : Nat := 1
abbrev macFrameCtrl : Nat := 2
abbrev macSeqNum : Nat := 4
abbrev macPanid16 : Nat := 5
abbrev macDest16 : Nat := 7
abbrev macSrc16 : Nat := 9
abbrev llcProto : Nat := 11
abbrev unetPktType : Nat := 12
abbrev unetPayloadLen : Nat := 13
abbrev unetHopLimit : Nat := 14
abbrev unetNextHeader : Nat := 15
abbrev unetSrc64 : Nat := 16
abbrev unetDest64 : Nat := 24
abbrev unetSourcePort : Nat := 32
abbrev unetDestPort : Nat := 33
abbrev unetAppPayloadLen : Nat := 34
abbrev unetAppHeaderStart : Nat := 35

def maxPacketSize : Nat := 128

/-- The link message header starts where the network header ends (`UNET_HEADER_END`). -/
abbrev unetCtrlMsgPacketType : Nat := 32
abbrev unetCtrlMsgAddr16H : Nat := 33
abbrev unetCtrlMsgAddr16L : Nat := 34
abbrev unetCtrlMsgDistance : Nat := 35
abbrev unetCtrlMsgNbCount : Nat := 36
abbrev unetCtrlMsgNbStart : Nat := 37

def unetMacHeaderSize : U8 := 9
def unetLlcHeaderSize : U8 := 1
def unetNwkHeaderSize : U8 := 20
def unetLlcProtoNumber : U8 := 1

def broadAddr : U16 := 0xFFFF

/-- `UNUSED_ADDR`, the address of a free slot of the neighbour table. -/
def unusedAddr : U16 := 0xFFFE

/-! ### `unet_packet_type_t` -/

def broadcastLocalLink : U8 := 0
def ackReqMask : U8 := 4
def unicastDown : U8 := 5
def unicastUp : U8 := 6
def unicastAckDown : U8 := 1
def unicastAckUp : U8 := 2
def multicastUp : U8 := 14
def multicastAckUp : U8 := 10

/-! ### `unet_ctrl_msg_type_t` and next headers -/

def neighborReq : U8 := 0
def neighborAdv : U8 := 1
def routerAdv : U8 := 3
def neighborAdvReset : U8 := 129
def nextHeaderUnetCtrlMsg : U8 := 253
def nextHeaderUnetApp : U8 := 254

/-- `packet_state_t`. -/
inductive PacketState
  | idle | busy | startRoute | inRoute | waitingTx | waitingAck | sendingAck | acked | notAcked
  | delivered
  deriving DecidableEq, Repr, Inhabited

/-- `info[PKTINFO_MAX_OPT]`, one field for each `packet_info_t` option. -/
structure PacketInfo where
  size : U8
  src16H : U8
  src16L : U8
  dest16H : U8
  dest16L : U8
  duplicated : Bool
  txChannel : U8
  seqNum : U8
  rssi : U8
  lqi : U8
  fcsH : U8
  fcsL : U8
  deriving DecidableEq, Repr, Inhabited

/-- `packet_t`. Indices from `MAX_PACKET_SIZE` on stand for the memory after the array. -/
structure Packet where
  info : PacketInfo
  packet : Nat → U8
  state : PacketState
  deriving Inhabited

namespace Packet

/-- `packet_get_source_addr16`. -/
def sourceAddr16 (p : Packet) : U16 := bytesToShort p.info.src16H p.info.src16L

/-- `packet_get_dest_addr16`. -/
def destAddr16 (p : Packet) : U16 := bytesToShort p.info.dest16H p.info.dest16L

def setByte (p : Packet) (k : Nat) (v : U8) : Packet :=
  { p with packet := Function.update p.packet k v }

/-- The eight address bytes at offset `k`. -/
def addr64At (p : Packet) (k : Nat) : Addr64 := fun i => p.packet (k + i)

/-- `memcpy(&p->packet[k], a, 8)`. -/
def setAddr64 (p : Packet) (k : Nat) (a : Addr64) : Packet :=
  { p with packet := fun i => if h : k ≤ i ∧ i - k < 8 then a ⟨i - k, h.2⟩ else p.packet i }

variable (p : Packet) (k j : Nat) (v : U8) (a : Addr64)

@[simp] theorem setByte_info : (p.setByte k v).info = p.info := rfl
@[simp] theorem setByte_state : (p.setByte k v).state = p.state := rfl
@[simp] theorem setByte_self : (p.setByte k v).packet k = v := by simp [setByte]
@[simp] theorem setAddr64_info : (p.setAddr64 k a).info = p.info := rfl
@[simp] theorem setAddr64_state : (p.setAddr64 k a).state = p.state := rfl

theorem setByte_packet : (p.setByte k v).packet j = if j = k then v else p.packet j := by
  simp [setByte, Function.update_apply]

variable {k j} in
@[simp] theorem setByte_of_ne (h : j ≠ k) : (p.setByte k v).packet j = p.packet j := by
  simp [setByte, h]

variable {k j} in
@[simp] theorem setAddr64_of_lt (h : j < k) : (p.setAddr64 k a).packet j = p.packet j := by
  simp [setAddr64, Nat.not_le.mpr h]

variable {k j} in
@[simp] theorem setAddr64_of_ge (h : k + 8 ≤ j) : (p.setAddr64 k a).packet j = p.packet j := by
  simp only [setAddr64]
  rw [dif_neg (by omega)]

end Packet

end Unet4Cooja
