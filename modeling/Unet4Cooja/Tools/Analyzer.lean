import Unet4Cooja.Core.Header

/-!
# The packet analyzer (`MicroNetAnalyzer.java`)

* `Fcf`, `destField`, `srcField` : the frame control and the addresses of the MAC header;
* `Report`, `analyzePacket` : what `analyzePacket` appends to `verbose`, unless an access of `packet.data` is out
  of bounds;
* `analyzePacket_eq` : the report on a frame with given headers.
-/

namespace Unet4Cooja
namespace MicroNetAnalyzer

def shortAddress : U8 := 2

def longAddress : U8 := 3

def ackframe : U8 := 2

def unetLlc : U8 := 1

/-- The variables `fcfType` to `fcfSrcAddrMode`. -/
structure Fcf where
  type : U8
  security : Bool
  pending : Bool
  ackRequested : Bool
  intraPAN : Bool
  destAddrMode : U8
  frameVersion : U8
  srcAddrMode : U8
  deriving DecidableEq, Repr

/-- The two bytes of the frame control field. -/
def Fcf.read (b0 b1 : U8) : Fcf where
  type := b0 &&& 0x07
  security := (b0 >>> 3) &&& 0x01 ≠ 0
  pending := (b0 >>> 4) &&& 0x01 ≠ 0
  ackRequested := (b0 >>> 5) &&& 0x01 ≠ 0
  intraPAN := (b0 >>> 6) &&& 0x01 ≠ 0
  destAddrMode := (b1 >>> 2) &&& 0x03
  frameVersion := (b1 >>> 4) &&& 0x03
  srcAddrMode := (b1 >>> 6) &&& 0x03

/-- Two bytes of the frame, the lower one first. -/
def short (data : List U8) (pos : Nat) : Option U16 := do
  let l ← data[pos]?
  let h ← data[pos + 1]?
  return bytesToShort h l

def long (data : List U8) (pos : Nat) : Option Addr64 :=
  if pos + 8 ≤ data.length then some fun i => data.getD (pos + i) 0 else none

/-- `destPanID`, `dstAddr` and the position after them. -/
def destField (data : List U8) (fcf : Fcf) (pos : Nat) : Option (U16 × U16 × Nat) :=
  if 0 < fcf.destAddrMode then do
    let destPanID ← short data pos
    if fcf.destAddrMode = shortAddress then
      let dstAddr ← short data (pos + 2)
      return (destPanID, dstAddr, pos + 4)
    else if fcf.destAddrMode = longAddress then
      let _ ← long data (pos + 2)
      return (destPanID, 0, pos + 10)
    else return (destPanID, 0, pos + 2)
  else some (0, 0, pos)

/-- `srcPanID`, `srcAddr` and the position after them. -/
def srcField (data : List U8) (fcf : Fcf) (destPanID : U16) (pos : Nat) : Option (U16 × U16 × Nat) :=
  if 0 < fcf.srcAddrMode then do
    let (srcPanID, pos) ← if fcf.intraPAN then some (destPanID, pos)
      else (short data pos).map fun srcPanID => (srcPanID, pos + 2)
    if fcf.srcAddrMode = shortAddress then
      let srcAddr ← short data pos
      return (srcPanID, srcAddr, pos + 2)
    else if fcf.srcAddrMode = longAddress then
      let _ ← long data pos
      return (srcPanID, 0, pos + 8)
    else return (srcPanID, 0, pos)
  else some (0, 0, pos)

def unetTypeString (i : U8) : String :=
  if i = broadcastLocalLink then "BROADCAST"
  else if i = unicastAckDown then "UNI ACK DOWN"
  else if i = unicastAckUp then "UNI ACK UP"
  else if i = unicastDown then "UNI DOWN"
  else if i = unicastUp then "UNI UP"
  else if i = multicastAckUp then "MULT ACK UP"
  else if i = multicastUp then "MULT UP"
  else "UNKOWN"

def unetNhheaderString (i : U8) : String :=
  if i = 0x3B then "NONE"
  else if i = 0x06 then "TCP"
  else if i = 0x11 then "UDP"
  else if i = 0xFD then "UNET_CTRL"
  else if i = 0xFE then "UNET_APP"
  else "UNKOWN"

def typeVerbose (fcfType : U8) : String := ["BEACON", "DATA", "ACK", "CMD"].getD fcfType.toNat "?"

def addrModeNames (mode : U8) : String := ["None", "Reserved", "Short", "Long"].getD mode.toNat ""

inductive Shown
  | bcast
  | addr (a : U16)
  deriving DecidableEq, Repr

structure Ids where
  pid : U16
  toPid : Option U16
  dst : Shown
  src : Shown
  deriving DecidableEq, Repr

structure Application where
  srcPort : U8
  dstPort : U8
  appLen : U8
  deriving DecidableEq, Repr

/-- The parts `uNet Network` and `uNet Transport`. -/
structure Network where
  type : String
  leng : U8
  hopLimit : U8
  nextHeader : String
  source : Addr64
  destiny : Addr64
  application : Option Application

/-- What `verbose` shows. -/
structure Report where
  frameType : String
  seqNumber : U8
  ids : Option Ids
  fcf : Fcf
  destAddr : String
  srcAddr : String
  network : Option Network

def analyzeApplication (data : List U8) (type nextHdr : U8) (pos : Nat) : Option (Option Application) :=
  if nextHdr = 0xFE ∧ (type = unicastDown ∨ type = unicastUp) then do
    let srcPort ← data[pos]?
    let dstPort ← data[pos + 1]?
    let appLen ← data[pos + 2]?
    return some ⟨srcPort, dstPort, appLen⟩
  else some none

def analyzeNetwork (data : List U8) (pos : Nat) : Option Network := do
  let type ← data[pos]?
  let leng ← data[pos + 1]?
  let hopLimit ← data[pos + 2]?
  let nextHdr ← data[pos + 3]?
  let source ← long data (pos + 4)
  let destiny ← long data (pos + 12)
  let application ← analyzeApplication data type nextHdr (pos + 20)
  return ⟨unetTypeString type, leng, hopLimit, unetNhheaderString nextHdr, source, destiny, application⟩

/-- `analyzePacket`, with `packet.pos` at the frame control field. -/
def analyzePacket (data : List U8) : Option Report := do
  let b0 ← data[0]?
  let b1 ← data[1]?
  let fcf := Fcf.read b0 b1
  let seqNumber ← data[2]?
  let (destPanID, dstAddr, pos) ← destField data fcf 3
  let (srcPanID, srcAddr, pos) ← srcField data fcf destPanID pos
  let llc ← data[pos]?
  let network ← if llc = unetLlc ∧ fcf.type ≠ ackframe then (analyzeNetwork data (pos + 1)).map some else some none
  return {
    frameType := typeVerbose fcf.type
    seqNumber := seqNumber
    ids := if fcf.type = ackframe then none else some {
      pid := srcPanID
      toPid := if fcf.intraPAN then none else some destPanID
      -- the test for the destination is made on the source
      dst := if srcAddr = 65535 then .bcast else .addr dstAddr
      src := if srcAddr = 65535 then .bcast else .addr srcAddr }
    fcf := fcf
    destAddr := addrModeNames fcf.destAddrMode
    srcAddr := addrModeNames fcf.srcAddrMode
    network := network }

/-! ## The report on a frame -/

section Report
variable {data : List U8} {q : Packet} {m : MacHeader} {h : NetHeader}

/-- `data` begins with the `len` bytes of `q` from `MAC_FRAME_CTRL` on. -/
def Begins (data : List U8) (q : Packet) (len : Nat) : Prop :=
  ∀ k < len, data[k]? = some (q.packet (macFrameCtrl + k))

theorem short_eq {len pos : Nat} (hd : Begins data q len) (hpos : pos + 1 < len) :
    short data pos = some (bytesToShort (q.packet (macFrameCtrl + (pos + 1))) (q.packet (macFrameCtrl + pos))) := by
  unfold short
  rw [hd pos (by omega), hd (pos + 1) hpos]
  rfl

theorem long_eq {len pos : Nat} (hd : Begins data q len) (hpos : pos + 8 ≤ len) :
    long data pos = some (q.addr64At (macFrameCtrl + pos)) := by
  have hlen : pos + 8 ≤ data.length := by
    have hlast := hd (pos + 7) (by omega)
    by_contra hc
    rw [List.getElem?_eq_none (by omega)] at hlast
    cases hlast
  unfold long
  rw [if_pos hlen, Option.some_inj]
  funext i
  rw [List.getD_eq_getElem?_getD, hd (pos + i) (by omega), ← Nat.add_assoc]
  rfl

theorem fcf_eq (ackReq : Bool) :
    Fcf.read (if ackReq then 0x61 else 0x41) 0x88 = ⟨1, false, false, ackReq, true, 2, 0, 2⟩ := by
  cases ackReq with
  | false => decide
  | true => decide

def network (h : NetHeader) (application : Option Application) : Network :=
  ⟨unetTypeString h.type, h.payloadLen, h.hopLimit, unetNhheaderString h.nextHeader, h.src64, h.dest64, application⟩

theorem analyzeNetwork_eq (hd : Begins data q 30) (hh : q.HoldsNet h) :
    analyzeNetwork data 10 = (analyzeApplication data h.type h.nextHeader 30).map (network h) := by
  have h0 : data[10]? = some h.type := by rw [hd 10 (by decide), ← hh.type]
  have h1 : data[11]? = some h.payloadLen := by rw [hd 11 (by decide), ← hh.payloadLen]
  have h2 : data[12]? = some h.hopLimit := by rw [hd 12 (by decide), ← hh.hopLimit]
  have h3 : data[13]? = some h.nextHeader := by rw [hd 13 (by decide), ← hh.nextHeader]
  have hsrc : long data 14 = some h.src64 := by rw [long_eq hd (by decide), ← hh.src64]
  have hdest : long data 22 = some h.dest64 := by rw [long_eq hd (by decide), ← hh.dest64]
  unfold analyzeNetwork
  simp only [h0, h1, h2, h3, hsrc, hdest, Option.bind_eq_bind, Option.bind_some]
  cases analyzeApplication data h.type h.nextHeader 30 with
  | none => rfl
  | some app => rfl

theorem analyzePacket_eq (hd : Begins data q 30) (hm : q.HoldsMac m) (hh : q.HoldsNet h) :
    analyzePacket data = (analyzeApplication data h.type h.nextHeader 30).map fun application => {
      frameType := "DATA"
      seqNumber := m.seqNum
      ids := some {
        pid := m.panid16
        toPid := none
        dst := if m.src16 = broadAddr then .bcast else .addr m.dest16
        src := if m.src16 = broadAddr then .bcast else .addr m.src16 }
      fcf := ⟨1, false, false, m.ackReq, true, 2, 0, 2⟩
      destAddr := "Short"
      srcAddr := "Short"
      network := some (network h application) } := by
  have h0 : data[0]? = some (if m.ackReq then 0x61 else 0x41) := by rw [hd 0 (by decide), ← hm.frameCtrl]
  have h1 : data[1]? = some 0x88 := by rw [hd 1 (by decide), ← hm.addrModes]
  have h2 : data[2]? = some m.seqNum := by rw [hd 2 (by decide), ← hm.seqNum]
  have hpan : short data 3 = some m.panid16 := by rw [short_eq hd (by decide), ← hm.panid16]
  have hdest : short data 5 = some m.dest16 := by rw [short_eq hd (by decide), ← hm.dest16]
  have hsrc : short data 7 = some m.src16 := by rw [short_eq hd (by decide), ← hm.src16]
  have hllc : data[9]? = some unetLlc := by
    rw [hd 9 (by decide)]
    exact congrArg some hh.llc
  have hdestField : destField data ⟨1, false, false, m.ackReq, true, 2, 0, 2⟩ 3 = some (m.panid16, m.dest16, 7) := by
    unfold destField
    simp [hpan, hdest, shortAddress]
  have hsrcField : srcField data ⟨1, false, false, m.ackReq, true, 2, 0, 2⟩ m.panid16 7 =
      some (m.panid16, m.src16, 9) := by
    unfold srcField
    simp [hsrc, shortAddress]
  have hnet := analyzeNetwork_eq hd hh
  unfold analyzePacket
  simp only [h0, h1, h2, hllc, fcf_eq, hdestField, hsrcField, hnet, Option.bind_eq_bind, Option.bind_some]
  rw [if_pos (by decide)]
  cases analyzeApplication data h.type h.nextHeader 30 with
  | none => rfl
  | some application => rfl

end Report

end MicroNetAnalyzer
end Unet4Cooja
