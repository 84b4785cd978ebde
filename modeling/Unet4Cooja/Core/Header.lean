import Unet4Cooja.Core.Ownership
import Unet4Cooja.Core.SendSize
import Unet4Cooja.Link.Moves

/-!
# The frame header from sender to receiver

* `MacHeader`, `NetHeader` : the values a sender sets; `Packet.HoldsMac`, `Packet.HoldsNet` : a packet with them
  in its bytes, `Packet.HoldsMac.of_agree` / `Packet.HoldsNet.of_agree` on a copy of these bytes;
* `unetRouterAdv` : with `unetPacketDownSend`, `unetPacketUpSendto` and `linkPacketCreate` the functions that
  build a frame;
* `Built` : a frame of one of the four, with its headers; `Built.holds`;
* `frame_roundTrip` : every receiver of the header accepts it and reads the values of the sender.
-/

namespace Unet4Cooja
open Lib

/-! ## Headers -/

/-- What `ieee802154_header_set` writes. -/
structure MacHeader where
  ackReq : Bool
  seqNum : U8
  panid16 : U16
  dest16 : U16
  src16 : U16

/-- What `unet_header_set` writes. -/
structure NetHeader where
  type : U8
  payloadLen : U8
  hopLimit : U8
  nextHeader : U8
  src64 : Addr64
  dest64 : Addr64

/-- What `unet_send` writes before the payload. -/
structure Ports where
  src : U8
  dest : U8
  deriving DecidableEq, Repr

abbrev unetHeaderEnd : Nat := 32

/-- The MAC header of a data frame with the values `h`. -/
structure Packet.HoldsMac (p : Packet) (h : MacHeader) : Prop where
  frameCtrl : p.packet macFrameCtrl = if h.ackReq then 0x61 else 0x41
  addrModes : p.packet (macFrameCtrl + 1) = 0x88
  seqNum : p.packet macSeqNum = h.seqNum
  panid16 : bytesToShort (p.packet (macPanid16 + 1)) (p.packet macPanid16) = h.panid16
  dest16 : bytesToShort (p.packet (macDest16 + 1)) (p.packet macDest16) = h.dest16
  src16 : bytesToShort (p.packet (macSrc16 + 1)) (p.packet macSrc16) = h.src16

/-- The LLC byte and the network header with the values `h`. -/
structure Packet.HoldsNet (p : Packet) (h : NetHeader) : Prop where
  llc : p.packet llcProto = unetLlcProtoNumber
  type : p.packet unetPktType = h.type
  payloadLen : p.packet unetPayloadLen = h.payloadLen
  hopLimit : p.packet unetHopLimit = h.hopLimit
  nextHeader : p.packet unetNextHeader = h.nextHeader
  src64 : p.addr64At unetSrc64 = h.src64
  dest64 : p.addr64At unetDest64 = h.dest64

section Copies
variable {p q : Packet} {m : MacHeader} {h : NetHeader}

theorem Packet.HoldsMac.of_agree (hm : q.HoldsMac m) (hb : ∀ k, macFrameCtrl ≤ k → k < llcProto → p.packet k = q.packet k) :
    p.HoldsMac m where
  frameCtrl := by rw [hb 2 (by decide) (by decide)]; exact hm.frameCtrl
  addrModes := by rw [hb 3 (by decide) (by decide)]; exact hm.addrModes
  seqNum := by rw [hb 4 (by decide) (by decide)]; exact hm.seqNum
  panid16 := by rw [hb 6 (by decide) (by decide), hb 5 (by decide) (by decide)]; exact hm.panid16
  dest16 := by rw [hb 8 (by decide) (by decide), hb 7 (by decide) (by decide)]; exact hm.dest16
  src16 := by rw [hb 10 (by decide) (by decide), hb 9 (by decide) (by decide)]; exact hm.src16

theorem Packet.addr64At_congr {k : Nat} (hb : ∀ j, k ≤ j → j < k + 8 → p.packet j = q.packet j) :
    p.addr64At k = q.addr64At k := by
  funext i
  exact hb _ (by omega) (by omega)

theorem Packet.HoldsNet.of_agree (hh : q.HoldsNet h) (hb : ∀ k, llcProto ≤ k → k < unetHeaderEnd → p.packet k = q.packet k) :
    p.HoldsNet h where
  llc := by rw [hb 11 (by decide) (by decide)]; exact hh.llc
  type := by rw [hb 12 (by decide) (by decide)]; exact hh.type
  payloadLen := by rw [hb 13 (by decide) (by decide)]; exact hh.payloadLen
  hopLimit := by rw [hb 14 (by decide) (by decide)]; exact hh.hopLimit
  nextHeader := by rw [hb 15 (by decide) (by decide)]; exact hh.nextHeader
  src64 := by
    rw [← hh.src64]
    exact Packet.addr64At_congr fun k h1 h2 => hb k (Nat.le_trans (by decide) h1) (Nat.lt_of_lt_of_le h2 (by decide))
  dest64 := by
    rw [← hh.dest64]
    exact Packet.addr64At_congr fun k h1 h2 => hb k (Nat.le_trans (by decide) h1) (Nat.lt_of_lt_of_le h2 (by decide))

end Copies

section Writers
variable (n : Node) (p : Packet)

def Node.panid16 (n : Node) : U16 := bytesToShort n.panid16H n.panid16L

theorem frameControl_build (ackReq : Bool) :
    (FrameControl.build dataFrame ackReq).u80 = (if ackReq then 0x61 else 0x41) ∧
      (FrameControl.build dataFrame ackReq).u81 = 0x88 := by
  cases ackReq with
  | false => exact ⟨by decide, by decide⟩
  | true => exact ⟨by decide, by decide⟩

theorem ieee802154HeaderSet_holds (ackReq : Bool) :
    (ieee802154HeaderSet n p dataFrame ackReq).HoldsMac
      ⟨ackReq, p.info.seqNum, n.panid16, p.destAddr16, n.addr16⟩ := by
  obtain ⟨h0, h1⟩ := frameControl_build ackReq
  unfold ieee802154HeaderSet
  dsimp only
  rw [h0, h1]
  constructor
  · simp [macFrameCtrl, macSeqNum, macPanid16, macDest16, macSrc16]
  · simp [macFrameCtrl, macSeqNum, macPanid16, macDest16, macSrc16]
  · simp [macSeqNum, macPanid16, macDest16, macSrc16]
  · simp [macPanid16, macDest16, macSrc16, Node.panid16]
  · simp [macDest16, macSrc16, Packet.destAddr16]
  · simp [macSrc16, Node.addr16]

theorem setByte_addr64At {k j : Nat} (v : U8) (h : j < k ∨ k + 8 ≤ j) : (p.setByte j v).addr64At k = p.addr64At k := by
  apply Packet.addr64At_congr
  intro i h1 h2
  exact Packet.setByte_of_ne _ _ (by omega)

theorem setAddr64_other_addr64At {k j : Nat} (a : Addr64) (h : j + 8 ≤ k ∨ k + 8 ≤ j) :
    (p.setAddr64 j a).addr64At k = p.addr64At k := by
  apply Packet.addr64At_congr
  intro i h1 h2
  rcases h with h | h
  · exact Packet.setAddr64_of_ge _ _ (by omega)
  · exact Packet.setAddr64_of_lt _ _ (by omega)

theorem unetHeaderSet_holds (type hop next : U8) (src dst : Addr64) (len : U8) :
    (unetHeaderSet p type hop next src dst len).HoldsNet ⟨type, len, hop, next, src, dst⟩ := by
  unfold unetHeaderSet
  constructor
  · simp
  · simp [unetPktType, unetPayloadLen, unetHopLimit, unetNextHeader, llcProto, unetSrc64, unetDest64]
  · simp [unetPayloadLen, unetHopLimit, unetNextHeader, llcProto, unetSrc64, unetDest64]
  · simp [unetPayloadLen, unetHopLimit, unetNextHeader, llcProto, unetSrc64, unetDest64]
  · simp [unetNextHeader, llcProto, unetSrc64, unetDest64]
  · rw [setByte_addr64At _ _ (.inl (by decide)), setAddr64_other_addr64At _ _ (.inr (by decide)), setAddr64_addr64At]
  · rw [setByte_addr64At _ _ (.inl (by decide)), setAddr64_addr64At]

theorem Packet.HoldsNet.headerSet {n : Node} {p : Packet} {h : NetHeader} (hh : p.HoldsNet h) (ackReq : Bool) :
    (ieee802154HeaderSet n p dataFrame ackReq).HoldsNet h :=
  hh.of_agree fun _ hk _ => ieee802154HeaderSet_packet n p dataFrame ackReq hk

theorem Packet.HoldsNet.decHopLimit {p : Packet} {h : NetHeader} (hh : p.HoldsNet h) :
    p.decHopLimit.HoldsNet { h with hopLimit := h.hopLimit - 1 } := by
  unfold Packet.decHopLimit
  constructor
  · simpa [llcProto, unetHopLimit] using hh.llc
  · simpa [unetPktType, unetHopLimit] using hh.type
  · simpa [unetPayloadLen, unetHopLimit] using hh.payloadLen
  · simp [hh.hopLimit]
  · simpa [unetNextHeader, unetHopLimit] using hh.nextHeader
  · rw [setByte_addr64At _ _ (.inl (by decide))]
    exact hh.src64
  · rw [setByte_addr64At _ _ (.inl (by decide))]
    exact hh.dest64

end Writers

/-! ## The functions that build a frame -/

/-- `unet_router_adv`. It does not look at the result of `unet_router_down`. -/
def unetRouterAdv (n : Node) (p : Packet) : Option RouteResult × Node × Packet :=
  if routeToBasestationLost ≤ n.distance then (some .destinationUnreachable, n, p)
  else
    match packetAcquire p with
    | none => (some .destinationUnreachable, n, p)
    | some p =>
      match unetRouterDown n (unetRouterAdvFill n p) with
      | (none, n, p) => (none, n, p)
      | (some _, n, p) => (some .packetSendOk, n, p)

section Builders
variable {n n' : Node} {p q : Packet} {m : MacHeader} {h : NetHeader} {pIdx : U8}

theorem Packet.HoldsMac.of_eq (hm : q.HoldsMac m) (hb : p.packet = q.packet) : p.HoldsMac m :=
  hm.of_agree fun k _ _ => congrFun hb k

theorem Packet.HoldsNet.of_eq (hh : q.HoldsNet h) (hb : p.packet = q.packet) : p.HoldsNet h :=
  hh.of_agree fun k _ _ => congrFun hb k

theorem setNextHop_holds (n : Node) (p : Packet) (nextHop : U16) :
    (setNextHop n p nextHop).HoldsMac ⟨true, p.info.seqNum, n.panid16, nextHop, n.addr16⟩ := by
  have hmac := ieee802154HeaderSet_holds n (ieee802154Dest16Set p nextHop) true
  have hdest : (ieee802154Dest16Set p nextHop).destAddr16 = nextHop := bytesToShort_hi_lo nextHop
  rw [hdest] at hmac
  exact hmac

theorem Packet.HoldsNet.setNextHop (hh : p.HoldsNet h) (n : Node) (nextHop : U16) :
    (setNextHop n p nextHop).HoldsNet h :=
  hh.of_agree fun _ hk _ => setNextHop_packet n p nextHop hk

/-- `unet_router_down` writes the MAC header for the parent and takes one from the hop limit. -/
theorem routerDown_holds (hh : p.HoldsNet h) (hhop : h.hopLimit ≠ 0) (hpar : n.parentIndex ≠ noParent) {r : Bool}
    (hr : unetRouterDown n p = (some r, n', q)) :
    q.HoldsMac ⟨true, (nodeSeqNumGetNext n).1, n.panid16, n.parent.addr16b, n.addr16⟩ ∧
      q.HoldsNet { h with hopLimit := h.hopLimit - 1 } := by
  rw [unetRouterDown_parent (by rw [hh.hopLimit]; exact hhop) hpar] at hr
  split at hr
  · cases hr
    have hnet : (downTaken n p).HoldsNet { h with hopLimit := h.hopLimit - 1 } := hh.decHopLimit.of_eq rfl
    exact ⟨setNextHop_holds _ _ _, hnet.setNextHop _ _⟩
  · cases hr

theorem downSend_router {payloadLen : U8} (hs : unetPacketDownSend n p payloadLen = (some .packetSendOk, n', q)) :
    unetRouterDown n (unetPacketDownHeader n p payloadLen) = (some true, n', q) := by
  unfold unetPacketDownSend at hs
  split at hs
  · cases hs
  · split at hs
    · cases hs
    · cases hs
    · rename_i hr
      cases hs
      exact hr

theorem parent_of_routerDown (hr : unetRouterDown n p = (some true, n', q)) : n.parentIndex ≠ noParent := by
  intro hpar
  by_cases hhop : p.packet unetHopLimit = 0
  · rw [unetRouterDown_used hhop] at hr
    cases hr
  · rw [unetRouterDown_noParent hhop hpar] at hr
    cases hr

theorem routerAdv_router (hs : unetRouterAdv n p = (some .packetSendOk, n', q)) :
    ∃ p' r, unetRouterDown n (unetRouterAdvFill n p') = (some r, n', q) := by
  unfold unetRouterAdv at hs
  split at hs
  · cases hs
  · split at hs
    · cases hs
    · rename_i p' _
      split at hs
      · cases hs
      · rename_i r _ _ hr
        cases hs
        exact ⟨p', r, hr⟩

theorem routerUp_holds {idx : Nat} (hh : p.HoldsNet h) (hidx : unetRouterUpTableEntryFind n.rtableUp h.dest64 = some idx)
    (hup : unetRouterUp n p = (.packetSendOk, n', q)) :
    q.HoldsMac ⟨true, (nodeSeqNumGetNext n).1, n.panid16, unetRouterUpTableEntryGet n.rtableUp idx, n.addr16⟩ ∧
      q.HoldsNet { h with hopLimit := h.hopLimit - 1 } := by
  unfold unetRouterUp at hup
  rw [hh.dest64, hidx] at hup
  dsimp only at hup
  split at hup
  · cases hup
  · cases hup
    have hnet := hh.decHopLimit.of_eq (p := { p.decHopLimit with
      info := { p.decHopLimit.info with seqNum := (nodeSeqNumGetNext n).1 } }) rfl
    have hmac := setNextHop_holds (nodeSeqNumGetNext n).2 { p.decHopLimit with
      info := { p.decHopLimit.info with seqNum := (nodeSeqNumGetNext n).1 } }
      (unetRouterUpTableEntryGet n.rtableUp idx)
    exact ⟨hmac.of_eq rfl, (hnet.setNextHop (nodeSeqNumGetNext n).2 (unetRouterUpTableEntryGet n.rtableUp idx)).of_eq rfl⟩

theorem unetPacketDownHeader_holds (n : Node) (p : Packet) (payloadLen : U8) :
    (unetPacketDownHeader n p payloadLen).HoldsNet
      ⟨unicastDown, payloadLen, 0xFF, nextHeaderUnetApp, n.addr64, n.panId64⟩ :=
  (unetHeaderSet_holds p unicastDown 0xFF nextHeaderUnetApp n.addr64 n.panId64 payloadLen).of_eq rfl

theorem unetPacketUpHeader_holds (n : Node) (p : Packet) (dest : Addr64) (payloadLen : U8) :
    (unetPacketUpHeader n p dest payloadLen).HoldsNet
      ⟨unicastUp, payloadLen, 0xFF, nextHeaderUnetApp, n.addr64, dest⟩ :=
  (unetHeaderSet_holds p unicastUp 0xFF nextHeaderUnetApp n.addr64 dest payloadLen).of_eq rfl

theorem unetRouterAdvFill_holds (n : Node) (p : Packet) :
    (unetRouterAdvFill n p).HoldsNet ⟨unicastDown, 1, 0xFF, nextHeaderUnetCtrlMsg, n.addr64, n.panId64⟩ :=
  (unetHeaderSet_holds _ unicastDown 0xFF nextHeaderUnetCtrlMsg n.addr64 n.panId64 1).of_eq rfl

theorem linkPacketCreate_holds (dev : DeviceType) (n : Node) :
    (linkPacketCreate dev n).linkPkt.HoldsMac ⟨false, (nodeSeqNumGetNext n).1, n.panid16, broadAddr, n.addr16⟩ ∧
      (linkPacketCreate dev n).linkPkt.HoldsNet
        ⟨broadcastLocalLink, (linkPacketBody dev n).2, 1, nextHeaderUnetCtrlMsg, n.addr64, n.panId64⟩ := by
  have hnet := unetHeaderSet_holds (linkPacketBody dev n).1 broadcastLocalLink 1 nextHeaderUnetCtrlMsg n.addr64
    n.panId64 (linkPacketBody dev n).2
  unfold linkPacketCreate
  dsimp only
  refine ⟨ieee802154HeaderSet_holds _ _ _, ?_⟩
  exact hnet.of_agree fun k hk _ => ieee802154HeaderSet_packet _ _ _ _ hk

end Builders

def Packet.ports (p : Packet) : Ports := ⟨p.packet unetSourcePort, p.packet unetDestPort⟩

/-- `q` is a frame that node `n` has built, with its headers and, in the packet of an application, its ports. -/
inductive Built (n : Node) : Packet → MacHeader → NetHeader → Option Ports → Prop
  | downSend {p q : Packet} {n' : Node} {payloadLen : U8}
      (h : unetPacketDownSend n p payloadLen = (some .packetSendOk, n', q)) :
      Built n q ⟨true, (nodeSeqNumGetNext n).1, n.panid16, n.parent.addr16b, n.addr16⟩
        ⟨unicastDown, payloadLen, 0xFF - 1, nextHeaderUnetApp, n.addr64, n.panId64⟩ (some p.ports)
  | upSendto {p q : Packet} {n' : Node} {dest : Addr64} {payloadLen : U8} {idx : Nat}
      (hidx : unetRouterUpTableEntryFind n.rtableUp dest = some idx)
      (h : unetPacketUpSendto n p dest payloadLen = (.packetSendOk, n', q)) :
      Built n q ⟨true, (nodeSeqNumGetNext n).1, n.panid16, unetRouterUpTableEntryGet n.rtableUp idx, n.addr16⟩
        ⟨unicastUp, payloadLen, 0xFF - 1, nextHeaderUnetApp, n.addr64, dest⟩ (some p.ports)
  | linkPacket (dev : DeviceType) :
      Built n (linkPacketCreate dev n).linkPkt ⟨false, (nodeSeqNumGetNext n).1, n.panid16, broadAddr, n.addr16⟩
        ⟨broadcastLocalLink, (linkPacketBody dev n).2, 1, nextHeaderUnetCtrlMsg, n.addr64, n.panId64⟩ none
  | routerAdv {p q : Packet} {n' : Node} (hpar : n.parentIndex ≠ noParent)
      (h : unetRouterAdv n p = (some .packetSendOk, n', q)) :
      Built n q ⟨true, (nodeSeqNumGetNext n).1, n.panid16, n.parent.addr16b, n.addr16⟩
        ⟨unicastDown, 1, 0xFF - 1, nextHeaderUnetCtrlMsg, n.addr64, n.panId64⟩ none

theorem hopLimit_ne_zero : (0xFF : U8) ≠ 0 := by decide

theorem Built.holds {n : Node} {q : Packet} {m : MacHeader} {h : NetHeader} {a : Option Ports}
    (b : Built n q m h a) :
    q.HoldsMac m ∧ q.HoldsNet h := by
  cases b with
  | @downSend p _ n' payloadLen hs =>
    have hr := downSend_router hs
    exact routerDown_holds (unetPacketDownHeader_holds n p payloadLen) hopLimit_ne_zero (parent_of_routerDown hr) hr
  | @upSendto p _ n' dest payloadLen idx hidx hs =>
    exact routerUp_holds (unetPacketUpHeader_holds n p dest payloadLen) hidx hs
  | linkPacket dev => exact linkPacketCreate_holds dev n
  | @routerAdv p _ n' hpar hs =>
    obtain ⟨p', r, hr⟩ := routerAdv_router hs
    exact routerDown_holds (unetRouterAdvFill_holds n p') hopLimit_ne_zero hpar hr

/-- The size of a frame with `payloadLen` bytes after the network header, as one byte. -/
def frameSize (payloadLen : U8) : U8 := payloadLen + unetNwkHeaderSize + unetLlcHeaderSize + unetMacHeaderSize

theorem Built.size {n : Node} {q : Packet} {m : MacHeader} {h : NetHeader} {a : Option Ports}
    (b : Built n q m h a) :
    q.info.size = frameSize h.payloadLen := by
  cases b with
  | @downSend p _ n' payloadLen hs =>
    have hkept := (unetRouterDown_kept n (unetPacketDownHeader n p payloadLen)).2
    rw [downSend_router hs] at hkept
    exact hkept
  | @upSendto p _ n' dest payloadLen idx _ hs =>
    have hkept := unetRouterUp_size n (unetPacketUpHeader n p dest payloadLen)
    unfold unetPacketUpSendto at hs
    rw [hs] at hkept
    exact hkept
  | linkPacket dev => rfl
  | @routerAdv p _ n' _ hs =>
    obtain ⟨p', r, hr⟩ := routerAdv_router hs
    have hkept := (unetRouterDown_kept n (unetRouterAdvFill n p')).2
    rw [hr] at hkept
    exact hkept

theorem decHopLimit_body (p : Packet) {k : Nat} (hk : unetHeaderEnd ≤ k) : p.decHopLimit.packet k = p.packet k :=
  Packet.setByte_of_ne _ _ (Nat.ne_of_gt (Nat.lt_of_lt_of_le (by decide) hk))

theorem downSend_body {n n' : Node} {p q : Packet} {payloadLen : U8}
    (hs : unetPacketDownSend n p payloadLen = (some .packetSendOk, n', q)) {k : Nat} (hk : unetHeaderEnd ≤ k) :
    q.packet k = p.packet k := by
  have hr := downSend_router hs
  have hhop : (unetPacketDownHeader n p payloadLen).packet unetHopLimit ≠ 0 := by
    rw [unetPacketDownHeader_hopLimit]
    decide
  have hhead : (unetPacketDownHeader n p payloadLen).packet k = p.packet k :=
    unetHeaderSet_packet p unicastDown _ _ _ _ _ hk
  rw [unetRouterDown_parent hhop (parent_of_routerDown hr)] at hr
  split at hr
  · cases hr
    rw [← hhead, ← decHopLimit_body (unetPacketDownHeader n p payloadLen) hk]
    exact setNextHop_packet _ (downTaken n (unetPacketDownHeader n p payloadLen)) _ (Nat.le_trans (by decide) hk)
  · cases hr

theorem unetRouterUp_body (n : Node) (p : Packet) {k : Nat} (hk : unetHeaderEnd ≤ k) :
    (unetRouterUp n p).2.2.packet k = p.packet k := by
  have hdec := decHopLimit_body p hk
  have hllc : llcProto ≤ k := Nat.le_trans (by decide) hk
  unfold unetRouterUp
  split
  · rfl
  · split
    · rfl
    · dsimp only
      rw [setNextHop_packet _ _ _ hllc]
      exact hdec

theorem upSendto_body {n n' : Node} {p q : Packet} {dest : Addr64} {payloadLen : U8}
    (hs : unetPacketUpSendto n p dest payloadLen = (.packetSendOk, n', q)) {k : Nat} (hk : unetHeaderEnd ≤ k) :
    q.packet k = p.packet k := by
  have hbody := unetRouterUp_body n (unetPacketUpHeader n p dest payloadLen) hk
  have hhead : (unetPacketUpHeader n p dest payloadLen).packet k = p.packet k :=
    unetHeaderSet_packet p unicastUp _ _ _ _ _ hk
  unfold unetPacketUpSendto at hs
  rw [hs, hhead] at hbody
  exact hbody

theorem Built.ports {n : Node} {q : Packet} {m : MacHeader} {h : NetHeader} {x : Ports} (b : Built n q m h (some x)) :
    q.ports = x := by
  have hports : ∀ p : Packet, (∀ k, unetHeaderEnd ≤ k → q.packet k = p.packet k) → q.ports = p.ports := by
    intro p hp
    unfold Packet.ports
    rw [hp unetSourcePort (by decide), hp unetDestPort (by decide)]
  cases b with
  | @downSend p _ n' payloadLen hs => exact hports p fun k hk => downSend_body hs hk
  | @upSendto p _ n' dest payloadLen idx _ hs => exact hports p fun k hk => upSendto_body hs hk

/-! ## The receiver -/

def Packet.frameControl (p : Packet) : FrameControl := ⟨p.packet macFrameCtrl, p.packet (macFrameCtrl + 1)⟩

theorem Packet.HoldsMac.frameControl {p : Packet} {m : MacHeader} (hm : p.HoldsMac m) :
    p.frameControl.frameType = dataFrame ∧ p.frameControl.srcAddrMode = addr16Mode ∧
      p.frameControl.dstAddrMode = addr16Mode ∧ p.frameControl.securityEnabled = false ∧
      p.frameControl.ackRequest = m.ackReq := by
  have hfc : p.frameControl = ⟨if m.ackReq then 0x61 else 0x41, 0x88⟩ := by
    unfold Packet.frameControl
    rw [hm.frameCtrl, hm.addrModes]
  rw [hfc]
  cases m.ackReq with
  | false => decide
  | true => decide

theorem Packet.supported_of_holds {p : Packet} {m : MacHeader} {h : NetHeader} (hm : p.HoldsMac m) (hh : p.HoldsNet h) :
    p.supported = true := by
  obtain ⟨htype, hsrc, hdst, hsec, _⟩ := hm.frameControl
  unfold Packet.supported
  exact decide_eq_true ⟨htype, hsrc, hdst, hsec, hh.llc⟩

/-- A receiver that has the header bytes of a built frame, with a correct checksum, passes it on and reads what
the sender has set. The first byte tells whether an ack is requested. -/
theorem frame_roundTrip {σ : Type} {n : Node} {q rx : Packet} {m : MacHeader} {h : NetHeader} {a : Option Ports}
    (b : Built n q m h a) (hrx : ∀ k, macFrameCtrl ≤ k → k < unetHeaderEnd → rx.packet k = q.packet k)
    (dev : DeviceType) (s : Sys σ) (tag : Nat) :
    ieee802154PacketInput dev s rx tag true = unetPacketInput dev s (rx.macInput s.node) tag ∧
      (rx.macInput s.node).info.seqNum = m.seqNum ∧
      (rx.macInput s.node).sourceAddr16 = m.src16 ∧
      rx.frameControl.ackRequest = m.ackReq ∧
      (rx.macInput s.node).packet unetPktType = h.type ∧
      (rx.macInput s.node).packet unetHopLimit = h.hopLimit ∧
      (rx.macInput s.node).addr64At unetSrc64 = h.src64 ∧
      (rx.macInput s.node).addr64At unetDest64 = h.dest64 ∧
      q.packet macFrameCtrl = if m.ackReq then 0x61 else 0x41 := by
  obtain ⟨hmac, hnet⟩ := b.holds
  have hm : rx.HoldsMac m := hmac.of_agree fun k h1 h2 => hrx k h1 (Nat.lt_trans h2 (by decide))
  have hh : rx.HoldsNet h := hnet.of_agree fun k h1 h2 => hrx k (Nat.le_trans (by decide) h1) h2
  have haccept : ieee802154PacketInput dev s rx tag true = unetPacketInput dev s (rx.macInput s.node) tag :=
    if_pos ⟨Packet.supported_of_holds hm hh, rfl⟩
  exact ⟨haccept, hm.seqNum, hm.src16, hm.frameControl.2.2.2.2, hh.type, hh.hopLimit, hh.src64, hh.dest64,
    hmac.frameCtrl⟩

/-- The link packet of a node with the address 7, received by a router that has just started. -/
theorem frame_roundTrip_link :
    ((linkPacketCreate .router { (default : Node) with addr16L := 7 }).linkPkt.macInput
        (startedSys .router Unit).node).sourceAddr16 = bytesToShort 0 7 ∧
      (linkPacketCreate .router { (default : Node) with addr16L := 7 }).linkPkt.packet macFrameCtrl = 0x41 := by
  have h := frame_roundTrip (Built.linkPacket (n := { (default : Node) with addr16L := 7 }) .router)
    (fun _ _ _ => rfl) .router (startedSys .router Unit) 0
  exact ⟨h.2.2.1, h.2.2.2.2.2.2.2.2⟩

end Unet4Cooja
