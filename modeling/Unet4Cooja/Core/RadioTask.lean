import Unet4Cooja.Core.Sockets
import Unet4Cooja.Link.RoundTrip

/-!
# Frames in the receive buffer (`UNET_Radio_Task`)

* `RxFrame`, `unetRadioTask` : a frame of the radio, loaded over the previous contents of
  `Radio_RX_buffer` and handled;
* `SameUse`, `SameEffect` : packets and states that differ in bytes nobody uses;
* `RxFrame.Complete` : every byte the node looks at is a byte of the frame;
* `sameEffect_of_complete` : then the previous contents make no difference.
-/

namespace Unet4Cooja
open Lib

variable {σ : Type}

/-! ## The radio task -/

/-- What the radio hands over: `len` bytes, the signal values and the result of the check sum. -/
structure RxFrame where
  len : Nat
  data : Nat → U8
  rssi : U8
  lqi : U8
  crc : Bool

namespace RxFrame
variable (f : RxFrame)

/-- The byte that gets to index `k` of the buffer. -/
def byte (k : Nat) : U8 := f.data (k - macFrameCtrl)

/-- Index `k` of the buffer is written with a byte of the frame. -/
def Has (k : Nat) : Prop := macFrameCtrl ≤ k ∧ k < macFrameCtrl + f.len

instance (k : Nat) : Decidable (f.Has k) := inferInstanceAs (Decidable (_ ∧ _))

/-- `Radio_RX_buffer` with the frame in it. The info array was cleared after the frame before. -/
def load (b : Packet) : Packet where
  info :=
    { size := BitVec.ofNat 8 f.len, src16H := 0, src16L := 0, dest16H := 0, dest16L := 0
      duplicated := false, txChannel := 0, seqNum := 0, rssi := f.rssi, lqi := f.lqi
      fcsH := 0, fcsL := 0 }
  packet := fun k =>
    if f.Has k then f.byte k
    else if k = phyPktSize then BitVec.ofNat 8 f.len else b.packet k
  state := .busy

variable {f} {b c : Packet} {k : Nat}

theorem load_of_has (h : f.Has k) : (f.load b).packet k = f.byte k := if_pos h

theorem load_of_not_has (h : ¬ f.Has k) (hk : k ≠ phyPktSize) : (f.load b).packet k = b.packet k := by
  simp [load, h, hk]

theorem load_size : (f.load b).packet phyPktSize = BitVec.ofNat 8 f.len := by
  have h : ¬ f.Has phyPktSize := fun h => absurd h.1 (by decide)
  simp [load, h]

theorem load_congr (hk : phyPktSize ≤ k) (hlt : k < macFrameCtrl + f.len) :
    (f.load c).packet k = (f.load b).packet k := by
  by_cases h1 : k = phyPktSize
  · rw [h1, load_size, load_size]
  · have hhas : f.Has k := ⟨by simp only [phyPktSize, macFrameCtrl] at *; omega, hlt⟩
    rw [load_of_has hhas, load_of_has hhas]

end RxFrame

/-- One round of `UNET_Radio_Task` with the previous contents `b` of `Radio_RX_buffer`. -/
def unetRadioTask (dev : DeviceType) (s : Sys σ) (b : Packet) (f : RxFrame) (tag : Nat) : Sys σ :=
  if 0 < f.len ∧ f.len < 128 then ieee802154PacketInput dev s (f.load b) tag f.crc else s

/-! ## Bytes nobody uses -/

/-- Two packets that differ in bytes nobody uses: none of the `PKTINFO_SIZE` bytes that are sent on,
none of the headers up to the network header, and no byte an application is handed. -/
structure SameUse (p q : Packet) : Prop where
  info : q.info = p.info
  state : q.state = p.state
  sent : ∀ k, phyPktSize ≤ k → k < macFrameCtrl + p.info.size.toNat → q.packet k = p.packet k
  header : ∀ k, phyPktSize ≤ k → k < 32 → q.packet k = p.packet k
  app : p.packet unetNextHeader = nextHeaderUnetApp →
    q.packet unetDestPort = p.packet unetDestPort ∧ q.datagram = p.datagram

/-- Two states that differ in such bytes of the two buffers only. -/
structure SameEffect (s t : Sys σ) : Prop where
  down : SameUse s.packetDown t.packetDown
  up : SameUse s.packetUp t.packetUp
  rest : t = { s with packetDown := t.packetDown, packetUp := t.packetUp }

theorem SameUse.refl (p : Packet) : SameUse p p :=
  ⟨rfl, rfl, fun _ _ _ => rfl, fun _ _ _ => rfl, fun _ => ⟨rfl, rfl⟩⟩

theorem SameEffect.refl (s : Sys σ) : SameEffect s s := ⟨.refl _, .refl _, rfl⟩

/-! ## Complete frames -/

/-- The first frame control byte announces an unsecured data frame. -/
def frameTypeOk (u80 : U8) : Prop :=
  (⟨u80, 0⟩ : FrameControl).frameType = dataFrame ∧
    (⟨u80, 0⟩ : FrameControl).securityEnabled = false

/-- The second one announces two 16-bit addresses. -/
def addrModeOk (u81 : U8) : Prop :=
  (⟨0, u81⟩ : FrameControl).srcAddrMode = addr16Mode ∧
    (⟨0, u81⟩ : FrameControl).dstAddrMode = addr16Mode

theorem supported_iff {p : Packet} : p.supported = true ↔
    frameTypeOk (p.packet macFrameCtrl) ∧ addrModeOk (p.packet (macFrameCtrl + 1)) ∧
      p.packet llcProto = unetLlcProtoNumber := by
  unfold Packet.supported frameTypeOk addrModeOk FrameControl.frameType FrameControl.securityEnabled
    FrameControl.srcAddrMode FrameControl.dstAddrMode
  simp only [decide_eq_true_eq]
  tauto

/-- The control messages `unet_packet_input` hands to `link_packet_process`. -/
def ctrlTypeOk (type : U8) : Prop := type = neighborReq ∨ type &&& 0x7F = neighborAdv

namespace RxFrame
variable (f : RxFrame)

/-- Entries `i` and `j` of the neighbour list have the same address. -/
def SameListed (i j : Nat) : Prop :=
  f.byte (unetCtrlMsgNbStart + 3 * i) = f.byte (unetCtrlMsgNbStart + 3 * j) ∧
    f.byte (unetCtrlMsgNbStart + 3 * i + 1) = f.byte (unetCtrlMsgNbStart + 3 * j + 1)

/-- All of the neighbour list is in the frame, or all but the signal strength of its last entry,
whose address occurs before. -/
def CompleteList : Prop :=
  35 + 3 * (f.byte unetCtrlMsgNbCount).toNat ≤ f.len ∨
    (34 + 3 * (f.byte unetCtrlMsgNbCount).toNat = f.len ∧
      ∃ j, j + 1 < (f.byte unetCtrlMsgNbCount).toNat ∧
        f.SameListed j ((f.byte unetCtrlMsgNbCount).toNat - 1))

/-- The link message is in the frame as far as `link_packet_process` looks at it. -/
def CompleteLink : Prop :=
  14 ≤ f.len ∧ (f.byte unetNextHeader = nextHeaderUnetCtrlMsg →
    31 ≤ f.len ∧ (ctrlTypeOk (f.byte unetCtrlMsgPacketType) →
      35 ≤ f.len ∧ ((f.byte unetCtrlMsgNbCount).toNat < neighbourhoodSize → f.CompleteList)))

/-- The network header and, for an application, the transport header and the payload are in the
frame. -/
def CompleteUnicast : Prop :=
  30 ≤ f.len ∧ (f.byte unetNextHeader = nextHeaderUnetApp →
    33 ≤ f.len ∧ 33 + (f.byte unetAppPayloadLen).toNat ≤ f.len)

/-- What the type of the packet asks for is in the frame. -/
def CompletePacket : Prop :=
  (f.byte unetPktType = broadcastLocalLink → f.CompleteLink) ∧
    (f.byte unetPktType = unicastUp ∨ f.byte unetPktType = unicastDown → f.CompleteUnicast)

/-- The frame contains every byte that is looked at. -/
def Complete : Prop :=
  f.crc = true → frameTypeOk (f.byte macFrameCtrl) →
    2 ≤ f.len ∧ (addrModeOk (f.byte (macFrameCtrl + 1)) →
      10 ≤ f.len ∧ (f.byte llcProto = unetLlcProtoNumber → 11 ≤ f.len ∧ f.CompletePacket))

end RxFrame

/-! ## Complete frames leave no room for the previous contents -/

section
variable {n : Node} {p q : Packet} {dev : DeviceType}

/-- What a link packet does depends on its address, distance, type and list only. -/
theorem linkPacketProcess_congr (haddr : q.linkAddr16 = p.linkAddr16) (hinfo : q.info = p.info)
    (hdist : q.packet unetCtrlMsgDistance = p.packet unetCtrlMsgDistance)
    (hcnt : q.packet unetCtrlMsgNbCount = p.packet unetCtrlMsgNbCount)
    (htype : q.packet unetCtrlMsgPacketType = p.packet unetCtrlMsgPacketType)
    (hlist : (p.packet unetCtrlMsgNbCount).toNat < neighbourhoodSize → ∀ a,
      q.listedRSSI (p.packet unetCtrlMsgNbCount).toNat a =
        p.listedRSSI (p.packet unetCtrlMsgNbCount).toNat a) :
    linkPacketProcess dev n q = linkPacketProcess dev n p := by
  have hfind : linkNeighborTableFind n q = linkNeighborTableFind n p := by
    unfold linkNeighborTableFind
    rw [haddr, hinfo]
  have hheard : ∀ nb : UnetNeighborhood, nb.heard q = nb.heard p := by
    intro nb
    unfold UnetNeighborhood.heard
    rw [hinfo, hdist]
  cases hf : linkNeighborTableFind n p with
  | mk r m =>
    cases r with
    | none =>
      unfold linkPacketProcess
      rw [hfind, hf]
    | some i =>
      by_cases hlt : (p.packet unetCtrlMsgNbCount).toNat < neighbourhoodSize
      · rw [linkPacketProcess_listed dev (hfind.trans hf) (hcnt ▸ hlt),
          linkPacketProcess_listed dev hf hlt, hcnt, htype, hheard, hlist hlt]
      · unfold linkPacketProcess
        rw [hfind, hf]
        dsimp only
        rw [hcnt, if_neg hlt, if_neg hlt, hheard]

end

namespace RxFrame
variable {f : RxFrame} {b c : Packet}

theorem listedRSSI_congr (h : f.CompleteList) (hlen : 35 ≤ f.len) (a : U16) :
    (f.load c).listedRSSI (f.byte unetCtrlMsgNbCount).toNat a =
      (f.load b).listedRSSI (f.byte unetCtrlMsgNbCount).toNat a := by
  have hlast : 34 + 3 * (f.byte unetCtrlMsgNbCount).toNat ≤ f.len := by
    rcases h with h | h <;> omega
  have hbyte : ∀ j < (f.byte unetCtrlMsgNbCount).toNat, ∀ d < 2,
      ∀ b : Packet, (f.load b).packet (unetCtrlMsgNbStart + 3 * j + d) =
        f.byte (unetCtrlMsgNbStart + 3 * j + d) := by
    intro j hj d hd b
    apply load_of_has
    simp only [Has, macFrameCtrl, unetCtrlMsgNbStart]
    omega
  have hnames : ∀ j < (f.byte unetCtrlMsgNbCount).toNat,
      (f.load c).names a j = (f.load b).names a j := by
    intro j hj
    unfold Packet.names
    rw [hbyte j hj 1 (by decide) c, hbyte j hj 1 (by decide) b]
    have h0 := hbyte j hj 0 (by decide)
    simp only [Nat.add_zero] at h0
    rw [h0 c, h0 b]
  unfold Packet.listedRSSI
  rw [firstBelow_congr hnames]
  cases hfirst : firstBelow (f.byte unetCtrlMsgNbCount).toNat ((f.load b).names a) with
  | none => rfl
  | some j =>
    obtain ⟨hj, hname, hbefore⟩ := firstBelow_eq_some.mp hfirst
    simp only [Option.map_some, Option.some.injEq]
    have hhas : unetCtrlMsgNbStart + 3 * j + 2 < macFrameCtrl + f.len := by
      simp only [unetCtrlMsgNbStart, macFrameCtrl]
      rcases h with h | ⟨hlen, i, hi, hsame⟩
      · omega
      · -- an address that occurs before the last entry is found there
        rcases Nat.lt_or_ge (j + 1) (f.byte unetCtrlMsgNbCount).toNat with hlt | hge
        · omega
        · have hjl : (f.byte unetCtrlMsgNbCount).toNat - 1 = j := by omega
          rw [hjl] at hsame
          have hi' : i < (f.byte unetCtrlMsgNbCount).toNat := by omega
          have h0 : ∀ k < (f.byte unetCtrlMsgNbCount).toNat, _ := fun k hk =>
            hbyte k hk 0 (by decide) b
          simp only [Nat.add_zero] at h0
          have hno := hbefore i (by omega)
          unfold Packet.names at hname hno
          rw [h0 j hj, hbyte j hj 1 (by decide) b, ← hsame.1, ← hsame.2] at hname
          rw [h0 i hi', hbyte i hi' 1 (by decide) b, hname] at hno
          cases hno
    exact load_congr (by simp only [unetCtrlMsgNbStart, phyPktSize]; omega) hhas

theorem macInput_info (n : Node) (h : 9 ≤ f.len) :
    ((f.load c).macInput n).info = ((f.load b).macInput n).info := by
  have hk : ∀ k, phyPktSize ≤ k → k ≤ 10 → (f.load c).packet k = (f.load b).packet k := fun k h1 h10 =>
    load_congr h1 (by simp only [macFrameCtrl]; omega)
  unfold Packet.macInput Packet.parseMac Packet.macSource
  rw [hk macFrameCtrl (by decide) (by decide), hk (macFrameCtrl + 1) (by decide) (by decide),
    hk macSeqNum (by decide) (by decide), hk macSrc16 (by decide) (by decide),
    hk (macSrc16 + 1) (by decide) (by decide), hk phyPktSize (by decide) (by decide)]
  rfl

theorem macInput_sameUse (n : Node) (hlen : f.len < 128) (h : f.CompleteUnicast) :
    SameUse ((f.load b).macInput n) ((f.load c).macInput n) := by
  obtain ⟨h30, happ⟩ := h
  have hsize : ((f.load b).macInput n).info.size.toNat = f.len := by
    have hbyte : ((f.load b).macInput n).info.size = BitVec.ofNat 8 f.len := load_size (b := b)
    rw [hbyte, BitVec.toNat_ofNat]
    omega
  refine ⟨macInput_info n (by omega), rfl, fun k h1 hk => ?_, fun k h1 hk => ?_, fun hnext => ?_⟩
  · rw [hsize] at hk
    exact load_congr h1 hk
  · exact load_congr h1 (by simp only [macFrameCtrl]; omega)
  · have hnb : f.byte unetNextHeader = nextHeaderUnetApp := by
      rw [← hnext]
      refine (load_of_has (b := b) ⟨by decide, ?_⟩).symm
      simp only [unetNextHeader, macFrameCtrl]
      omega
    obtain ⟨h33, hpay⟩ := happ hnb
    have hk : ∀ k, phyPktSize ≤ k → k < 35 + (f.byte unetAppPayloadLen).toNat →
        ((f.load c).macInput n).packet k = ((f.load b).macInput n).packet k := fun k h1 hlt =>
      load_congr h1 (by simp only [macFrameCtrl]; omega)
    have hbyte : ((f.load b).macInput n).packet unetAppPayloadLen = f.byte unetAppPayloadLen :=
      load_of_has ⟨by decide, by simp only [unetAppPayloadLen, macFrameCtrl]; omega⟩
    refine ⟨hk unetDestPort (by decide) (by simp only [unetDestPort]; omega), ?_⟩
    unfold Packet.datagram
    rw [hk unetAppPayloadLen (by decide) (by simp only [unetAppPayloadLen]; omega), hbyte,
      hk unetSourcePort (by decide) (by simp only [unetSourcePort]; omega)]
    congr 1
    · apply List.map_congr_left
      intro j hj
      have hj := List.mem_range.mp hj
      exact hk _ (by simp only [phyPktSize, unetAppHeaderStart]; omega)
        (by simp only [unetAppHeaderStart]; omega)
    · funext j
      exact hk _ (by simp only [phyPktSize, unetSrc64]; omega) (by simp only [unetSrc64]; omega)

theorem linkPacketProcess_load (dev : DeviceType) (n m : Node)
    (hlist : 35 ≤ f.len ∧ ((f.byte unetCtrlMsgNbCount).toNat < neighbourhoodSize → f.CompleteList)) :
    linkPacketProcess dev m ((f.load c).macInput n) =
      linkPacketProcess dev m ((f.load b).macInput n) := by
  obtain ⟨h35, hlist⟩ := hlist
  have hk : ∀ k, phyPktSize ≤ k → k ≤ 36 →
      ((f.load c).macInput n).packet k = ((f.load b).macInput n).packet k := fun k h1 hlt =>
    load_congr h1 (by simp only [macFrameCtrl]; omega)
  have hcnt : ((f.load b).macInput n).packet unetCtrlMsgNbCount = f.byte unetCtrlMsgNbCount :=
    load_of_has ⟨by decide, by simp only [unetCtrlMsgNbCount, macFrameCtrl]; omega⟩
  apply linkPacketProcess_congr
  · unfold Packet.linkAddr16
    rw [hk unetCtrlMsgAddr16H (by decide) (by decide), hk unetCtrlMsgAddr16L (by decide) (by decide)]
  · exact macInput_info n (by omega)
  · exact hk _ (by decide) (by decide)
  · exact hk _ (by decide) (by decide)
  · exact hk _ (by decide) (by decide)
  · intro hlt a
    rw [hcnt] at hlt ⊢
    exact listedRSSI_congr (hlist hlt) h35 a

end RxFrame

theorem SameUse.sendingAck {p q : Packet} (h : SameUse p q) :
    SameUse { p with state := .sendingAck } { q with state := .sendingAck } :=
  ⟨h.info, rfl, h.sent, h.header, h.app⟩

theorem acceptUp_sameEffect (s : Sys σ) {p q : Packet} (h : SameUse p q) (tag : Nat) :
    SameEffect (acceptUp s p tag) (acceptUp s q tag) := by
  have hact : linkSetNeighborActivity s.node q = linkSetNeighborActivity s.node p := by
    unfold linkSetNeighborActivity Packet.sourceAddr16
    rw [h.info]
  refine ⟨.refl _, h, ?_⟩
  unfold acceptUp
  rw [hact]

theorem acceptDown_sameEffect (s : Sys σ) {p q : Packet} (h : SameUse p q) (tag : Nat) :
    SameEffect (acceptDown s p tag) (acceptDown s q tag) := by
  have hact : ∀ n : Node, linkSetNeighborActivity n { q with state := .sendingAck } =
      linkSetNeighborActivity n { p with state := .sendingAck } := by
    intro n
    unfold linkSetNeighborActivity Packet.sourceAddr16
    rw [h.info]
  have hsrc : q.addr64At unetSrc64 = p.addr64At unetSrc64 := by
    funext j
    exact h.header _ (by simp only [phyPktSize, unetSrc64]; omega) (by simp only [unetSrc64]; omega)
  have haddr : ({ q with state := .sendingAck } : Packet).sourceAddr16 =
      ({ p with state := .sendingAck } : Packet).sourceAddr16 := by
    unfold Packet.sourceAddr16
    rw [h.info]
  have hsrc' : ({ q with state := .sendingAck } : Packet).addr64At unetSrc64 =
      ({ p with state := .sendingAck } : Packet).addr64At unetSrc64 := hsrc
  refine ⟨h.sendingAck, .refl _, ?_⟩
  unfold acceptDown
  dsimp only
  rw [hact, haddr, hsrc']

theorem sameEffect_of_complete {dev : DeviceType} {f : RxFrame} (h : f.Complete) (s : Sys σ)
    (b c : Packet) (tag : Nat) :
    SameEffect (unetRadioTask dev s b f tag) (unetRadioTask dev s c f tag) := by
  unfold unetRadioTask
  by_cases hlen : 0 < f.len ∧ f.len < 128
  swap
  · rw [if_neg hlen, if_neg hlen]
    exact .refl s
  rw [if_pos hlen, if_pos hlen]
  unfold ieee802154PacketInput
  -- the frame is dropped, or the bytes looked at so far are its own
  have hdrop : ∀ hb : ¬ (f.load b).supported = true, ∀ hc : ¬ (f.load c).supported = true,
      SameEffect (if (f.load b).supported = true ∧ f.crc = true then
          unetPacketInput dev s ((f.load b).macInput s.node) tag else s)
        (if (f.load c).supported = true ∧ f.crc = true then
          unetPacketInput dev s ((f.load c).macInput s.node) tag else s) := by
    intro hb hc
    rw [if_neg fun h => hb h.1, if_neg fun h => hc h.1]
    exact .refl s
  by_cases hcrc : f.crc = true
  swap
  · rw [if_neg fun h => hcrc h.2, if_neg fun h => hcrc h.2]
    exact .refl s
  have hbyte : ∀ {k : Nat} (b : Packet), macFrameCtrl ≤ k → k < macFrameCtrl + f.len →
      (f.load b).packet k = f.byte k := fun b h1 h2 => RxFrame.load_of_has ⟨h1, h2⟩
  have hu80 : ∀ b, (f.load b).packet macFrameCtrl = f.byte macFrameCtrl := fun b =>
    hbyte b (Nat.le_refl _) (by omega)
  by_cases htype : frameTypeOk (f.byte macFrameCtrl)
  swap
  · exact hdrop (fun h => htype (hu80 b ▸ (supported_iff.mp h).1))
      fun h => htype (hu80 c ▸ (supported_iff.mp h).1)
  obtain ⟨h2, h⟩ := h hcrc htype
  have hu81 : ∀ b, (f.load b).packet (macFrameCtrl + 1) = f.byte (macFrameCtrl + 1) := fun b =>
    hbyte b (Nat.le_succ _) (by omega)
  by_cases hmode : addrModeOk (f.byte (macFrameCtrl + 1))
  swap
  · exact hdrop (fun h => hmode (hu81 b ▸ (supported_iff.mp h).2.1))
      fun h => hmode (hu81 c ▸ (supported_iff.mp h).2.1)
  obtain ⟨h10, h⟩ := h hmode
  have hllc : ∀ b, (f.load b).packet llcProto = f.byte llcProto := fun b =>
    hbyte b (by decide) (by simp only [llcProto, macFrameCtrl]; omega)
  by_cases hproto : f.byte llcProto = unetLlcProtoNumber
  swap
  · exact hdrop (fun h => hproto (hllc b ▸ (supported_iff.mp h).2.2))
      fun h => hproto (hllc c ▸ (supported_iff.mp h).2.2)
  obtain ⟨h11, hlink, hunicast⟩ := h hproto
  have hsup : ∀ b, (f.load b).supported = true ∧ f.crc = true := fun b =>
    ⟨supported_iff.mpr ⟨hu80 b ▸ htype, hu81 b ▸ hmode, hllc b ▸ hproto⟩, hcrc⟩
  rw [if_pos (hsup b), if_pos (hsup c)]
  have hpkt : ∀ b, ((f.load b).macInput s.node).packet unetPktType = f.byte unetPktType := fun b =>
    hbyte b (by decide) (by simp only [unetPktType, macFrameCtrl]; omega)
  unfold unetPacketInput
  dsimp only
  rw [hpkt b, hpkt c]
  by_cases h0 : f.byte unetPktType = broadcastLocalLink
  · obtain ⟨h14, hlink⟩ := hlink h0
    have hnext : ∀ b, ((f.load b).macInput s.node).packet unetNextHeader = f.byte unetNextHeader :=
      fun b => hbyte b (by decide) (by simp only [unetNextHeader, macFrameCtrl]; omega)
    rw [if_pos h0, if_pos h0, hnext b, hnext c]
    by_cases hctrl : f.byte unetNextHeader = nextHeaderUnetCtrlMsg
    swap
    · rw [if_neg fun h => hctrl h.1, if_neg fun h => hctrl h.1]
      exact .refl s
    obtain ⟨_, hlink⟩ := hlink hctrl
    have hmsg : ∀ b, ((f.load b).macInput s.node).packet unetCtrlMsgPacketType =
        f.byte unetCtrlMsgPacketType := fun b =>
      hbyte b (by decide) (by simp only [unetCtrlMsgPacketType, macFrameCtrl]; omega)
    rw [hmsg b, hmsg c]
    by_cases hok : ctrlTypeOk (f.byte unetCtrlMsgPacketType)
    · rw [if_pos ⟨hctrl, hok⟩, if_pos ⟨hctrl, hok⟩,
        RxFrame.linkPacketProcess_load dev s.node s.node (hlink hok)]
      exact .refl _
    · rw [if_neg fun h => hok h.2, if_neg fun h => hok h.2]
      exact .refl s
  rw [if_neg h0, if_neg h0]
  by_cases hup : f.byte unetPktType = unicastUp
  · rw [if_pos hup, if_pos hup]
    split
    · exact acceptUp_sameEffect s
        (RxFrame.macInput_sameUse s.node hlen.2 (hunicast (.inl hup))) tag
    · exact .refl s
  rw [if_neg hup, if_neg hup]
  by_cases hdown : f.byte unetPktType = unicastDown
  · rw [if_pos hdown, if_pos hdown]
    split
    · exact acceptDown_sameEffect s
        (RxFrame.macInput_sameUse s.node hlen.2 (hunicast (.inr hdown))) tag
    · exact .refl s
  -- of an acknowledgment only the MAC header is looked at
  have hinfo := RxFrame.macInput_info (c := c) (b := b) s.node (show 9 ≤ f.len by omega)
  have hsrc : ((f.load c).macInput s.node).sourceAddr16 =
      ((f.load b).macInput s.node).sourceAddr16 := by
    unfold Packet.sourceAddr16
    rw [hinfo]
  rw [if_neg hdown, if_neg hdown, hinfo, hsrc]
  exact .refl _

end Unet4Cooja
