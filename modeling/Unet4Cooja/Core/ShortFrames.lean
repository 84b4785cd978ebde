import Mathlib.Data.Finset.Card
import Unet4Cooja.Core.FrameLeak

/-!
# Frames that leave room for the previous contents

* `residue` : a receive buffer with given bytes in it;
* `Passed` : the frame gets to `unet_packet_input`, whatever was in the buffer;
* `NoLeak.hasType`, `NoLeak.hasCount`, `NoLeak.hasList`, `NoLeak.hasUnicast` : a byte that is looked
  at and not in the frame shows in the state;
* `noLeak_iff` : a frame has the same effect after every other one if and only if it is complete;
* `noLeak_fails` : a link packet that announces one more neighbour than it carries.
-/

namespace Unet4Cooja
open Lib

variable {σ : Type} {dev : DeviceType} {f : RxFrame} {b c : Packet} {k : Nat}

def residue (v : Nat → U8) : Packet := { (default : Packet) with packet := v }

theorem load_residue {v : Nat → U8} (h : ¬ f.Has k) (hk : k ≠ phyPktSize) :
    (f.load (residue v)).packet k = v k := RxFrame.load_of_not_has h hk

theorem load_residue_eq (v : Nat → U8) (hk : k ≠ phyPktSize) :
    (f.load (residue v)).packet k = if f.Has k then f.byte k else v k := by
  split
  · rename_i h
    exact RxFrame.load_of_has h
  · rename_i h
    exact load_residue h hk

theorem load_residue_holds {P : U8 → Prop} {v : Nat → U8} (hk : k ≠ phyPktSize) (hf : f.Has k → P (f.byte k))
    (hv : P (v k)) : P ((f.load (residue v)).packet k) := by
  rw [load_residue_eq v hk]
  split
  · rename_i h
    exact hf h
  · exact hv

theorem has_of_lt (h1 : macFrameCtrl ≤ k) (h2 : k < f.len + 2) : f.Has k :=
  ⟨h1, by simp only [macFrameCtrl]; omega⟩

theorem not_has_of_le (h : f.len + 2 ≤ k) : ¬ f.Has k := fun hh => by
  have := hh.2
  simp only [macFrameCtrl] at this
  omega

/-! ## The MAC and LLC headers -/

theorem unetRadioTask_of_not_supported (s : Sys σ) (tag : Nat) (h : ¬ (f.load b).supported = true) :
    unetRadioTask dev s b f tag = s := by
  unfold unetRadioTask ieee802154PacketInput
  split
  · exact if_neg fun hs => h hs.1
  · rfl

/-- The bytes of a packet for the buffer `packet_down`. -/
def unicastBytes : Nat → U8 := fun k =>
  if k = macFrameCtrl + 1 then 0x88
  else if k = llcProto then unetLlcProtoNumber
  else if k = unetPktType then unicastDown
  else 0

theorem NoLeak.hasType [DecidableEq σ] (h : NoLeak σ dev f) (hlen : 0 < f.len ∧ f.len < 128) (hcrc : f.crc = true)
    (htype : frameTypeOk (f.byte macFrameCtrl))
    (hmode : f.Has (macFrameCtrl + 1) → addrModeOk (f.byte (macFrameCtrl + 1)))
    (hllc : f.Has llcProto → f.byte llcProto = unetLlcProtoNumber) : f.Has unetPktType := by
  by_contra hno
  have hstart := startedSys_start dev σ
  have hu80 : ∀ b : Packet, (f.load b).packet macFrameCtrl = f.byte macFrameCtrl := fun b =>
    RxFrame.load_of_has (has_of_lt (Nat.le_refl _) (by simp only [macFrameCtrl]; omega))
  have haccept : unetRadioTask dev (startedSys dev σ) (residue unicastBytes) f 0 =
      acceptDown (startedSys dev σ)
        ((f.load (residue unicastBytes)).macInput (startedSys dev σ).node) 0 := by
    unfold unetRadioTask
    rw [if_pos hlen]
    apply ieee802154PacketInput_down
    refine ⟨supported_iff.mpr ⟨?_, ?_, ?_⟩, hcrc, ?_, hstart.packetDown⟩
    · rw [hu80]
      exact htype
    · exact load_residue_holds (by decide) hmode ⟨by decide, by decide⟩
    · exact load_residue_holds (P := fun x => x = unetLlcProtoNumber) (by decide) hllc rfl
    · rw [load_residue hno (by decide)]
      rfl
  have hdrop : unetRadioTask dev (startedSys dev σ) (residue fun _ => 0xFF) f 0 =
      startedSys dev σ := by
    by_cases hh : f.Has llcProto
    · unfold unetRadioTask ieee802154PacketInput
      rw [if_pos hlen]
      split
      · have hbyte : ((f.load (residue fun _ => 0xFF)).macInput (startedSys dev σ).node).packet
            unetPktType = 0xFF := load_residue hno (by decide)
        unfold unetPacketInput
        dsimp only
        rw [hbyte, if_neg (by decide), if_neg (by decide), if_neg (by decide), if_neg (by decide),
          if_neg (by decide)]
      · rfl
    · apply unetRadioTask_of_not_supported
      intro hs
      have hproto := (supported_iff.mp hs).2.2
      rw [load_residue hh (by decide)] at hproto
      exact absurd hproto (by decide)
  have he := (h.sameEffect (startedSys dev σ) (residue unicastBytes) (residue fun _ => 0xFF) 0).down.state
  rw [haccept, hdrop, hstart.packetDown] at he
  cases he

/-- The frame gets to `unet_packet_input`, and the type of the packet is its own. -/
structure Passed (f : RxFrame) : Prop where
  len : 11 ≤ f.len ∧ f.len < 128
  crc : f.crc = true
  type : frameTypeOk (f.byte macFrameCtrl)
  mode : addrModeOk (f.byte (macFrameCtrl + 1))
  llc : f.byte llcProto = unetLlcProtoNumber

namespace Passed
variable (hp : Passed f)
include hp

theorem radioTask (s : Sys σ) (b : Packet) (tag : Nat) :
    unetRadioTask dev s b f tag = unetPacketInput dev s ((f.load b).macInput s.node) tag := by
  have hlen := hp.len
  have hbyte : ∀ k, macFrameCtrl ≤ k → k ≤ llcProto → (f.load b).packet k = f.byte k := by
    intro k h1 h2
    apply RxFrame.load_of_has (has_of_lt h1 _)
    simp only [llcProto] at h2
    omega
  have hsup : (f.load b).supported = true := by
    rw [supported_iff, hbyte _ (by decide) (by decide), hbyte _ (by decide) (by decide),
      hbyte _ (by decide) (by decide)]
    exact ⟨hp.type, hp.mode, hp.llc⟩
  unfold unetRadioTask ieee802154PacketInput
  rw [if_pos ⟨by omega, by omega⟩, if_pos ⟨hsup, hp.crc⟩]

theorem pktType (n : Node) (b : Packet) :
    ((f.load b).macInput n).packet unetPktType = f.byte unetPktType := by
  have hlen := hp.len
  exact RxFrame.load_of_has (has_of_lt (by decide) (by simp only [unetPktType]; omega))

end Passed

/-! ## Link packets -/

/-- A node with an empty table, the address `own`, and a parent called `id`. -/
def emptyTable (dev : DeviceType) (own id : U16) : Node :=
  { linkInit dev default with addr16H := hi own, addr16L := lo own, parentNeighborID := id }

theorem emptyTable_marks (dev : DeviceType) (own id : U16) :
    (emptyTable dev own id).neighborTable = 0 := by
  unfold emptyTable linkInit
  rw [linkNeighborTableInit_eq]
  rfl

theorem emptyTable_find (dev : DeviceType) (own id : U16) (p : Packet) :
    ∃ m, linkNeighborTableFind (emptyTable dev own id) p = (some 0, m) ∧
      m.addr16 = own ∧ m.neighborTable = 0 ∧ m.parentNeighborID = id ∧
      (m.neighbourhood 0).addr16b = p.linkAddr16 ∧ (m.neighbourhood 0).neighborMyRSSI = 0 := by
  have hown : (emptyTable dev own id).addr16 = own := bytesToShort_hi_lo own
  have hslot : ∀ i < neighbourhoodSize,
      ((emptyTable dev own id).neighbourhood i).addr16b = unusedAddr ∧
        ((emptyTable dev own id).neighbourhood i).neighborMyRSSI = 0 := by
    intro i hi
    have hfree : (emptyTable dev own id).neighbourhood i =
        (({ (default : Node) with
            parentIndex := noParent, distance := nodeDistanceInit dev,
            parentNeighborID := unusedAddr } : Node).neighbourhood i).freed :=
      linkNeighborTableInit_slot _ hi
    rw [hfree]
    exact ⟨rfl, rfl⟩
  have hmarks := emptyTable_marks dev own id
  have hunused : (emptyTable dev own id).findNeighbor unusedAddr = some 0 :=
    firstBelow_eq_some.mpr ⟨by decide, decide_eq_true (hslot 0 (by decide)).1, nofun⟩
  unfold linkNeighborTableFind
  cases hf : (emptyTable dev own id).findNeighbor p.linkAddr16 with
  | none =>
    rw [hunused]
    refine ⟨_, rfl, hown, hmarks, rfl, ?_, ?_⟩
    · simp only [Node.setNeighbor_self]
    · simp only [Node.setNeighbor_self]
  | some i =>
    obtain ⟨hi, ha⟩ := findNeighbor_eq_some hf
    have haddr : p.linkAddr16 = unusedAddr := ha.symm.trans (hslot i hi).1
    rw [haddr, hunused] at hf
    cases hf
    exact ⟨_, rfl, hown, hmarks, rfl, ha, (hslot 0 hi).2⟩

/-- A packet with an acceptable list marks the slot of its sender. If it does not come from the
parent, no other change of the slots follows. -/
theorem linkPacketProcess_marks (dev : DeviceType) {r m : Node} {p : Packet} {i : Nat}
    (hfind : linkNeighborTableFind r p = (some i, m))
    (hcnt : (p.packet unetCtrlMsgNbCount).toNat < neighbourhoodSize)
    (haddr : (m.neighbourhood i).addr16b = p.linkAddr16) :
    (linkPacketProcess dev r p).neighborTable = (m.markActive i).neighborTable ∧
      (m.parentNeighborID ≠ p.linkAddr16 →
        (linkPacketProcess dev r p).neighbourhood =
          ((m.setNeighbor i ((m.neighbourhood i).heard p)).learnMyRSSI i
            (p.listedRSSI (p.packet unetCtrlMsgNbCount).toNat m.addr16)).neighbourhood) := by
  have hproc := linkPacketProcess_listed dev hfind hcnt
  have hself : (m.setNeighbor i ((m.neighbourhood i).heard p)).addr16 = m.addr16 := rfl
  dsimp only at hproc
  generalize hk : (m.setNeighbor i ((m.neighbourhood i).heard p)).learnMyRSSI i
    (p.listedRSSI (p.packet unetCtrlMsgNbCount).toNat m.addr16) = k at hproc
  have hid : k.parentNeighborID = m.parentNeighborID := by
    rw [← hk, learnMyRSSI_parentNeighborID]
    rfl
  have hmarks : (k.markActive i).neighborTable = (m.markActive i).neighborTable := by
    rw [← hk]
    cases p.listedRSSI (p.packet unetCtrlMsgNbCount).toNat m.addr16 with
    | none => rfl
    | some v => rfl
  have hslot : (k.neighbourhood i).addr16b = p.linkAddr16 := by
    rw [← hk, ← haddr]
    cases p.listedRSSI (p.packet unetCtrlMsgNbCount).toNat m.addr16 with
    | none => simp [Node.learnMyRSSI, UnetNeighborhood.heard]
    | some v => simp [Node.learnMyRSSI, UnetNeighborhood.heard]
  have hmark : (k.markActive i).neighbourhood = k.neighbourhood := rfl
  have hswitch : ∀ x : Node, (linkNodeDistanceUpdate dev x i).neighborTable = x.neighborTable ∧
      (linkNodeDistanceUpdate dev x i).neighbourhood = x.neighbourhood := fun x =>
    ⟨linkParentSwitch_marks dev x, linkParentSwitch_slots dev x⟩
  obtain ⟨hreq, hkept, _⟩ := linkNeighborReq_cases dev (k.markActive i) i
  rw [hmark] at hkept
  rw [hproc]
  split_ifs with hadv hreset hreqt
  · rw [(hswitch _).1, (hswitch _).2]
    exact ⟨hmarks, fun _ => hmark⟩
  · rw [postLinkPacketTx_neighborTable, Node.postLinkPacketTx_neighbourhood, (hswitch _).1,
      (hswitch _).2]
    exact ⟨hmarks, fun _ => hmark⟩
  · rw [hreq]
    refine ⟨hmarks, fun hne => hkept ?_⟩
    rintro ⟨_, hparent⟩
    apply hne
    rw [← hid, ← hslot]
    exact hparent
  · exact ⟨hmarks, fun _ => hmark⟩

def deafSys (dev : DeviceType) (σ : Type) (own id : U16) : Sys σ :=
  { startedSys dev σ with node := emptyTable dev own id }

theorem SameEffect.node {s t : Sys σ} (h : SameEffect s t) : t.node = s.node := by
  rw [h.rest]

namespace Passed
variable (hp : Passed f) (h0 : f.byte unetPktType = broadcastLocalLink)
include hp h0

theorem link (own id : U16) (hnext : (f.load b).packet unetNextHeader = nextHeaderUnetCtrlMsg)
    (htype : ctrlTypeOk ((f.load b).packet unetCtrlMsgPacketType)) :
    (unetRadioTask dev (deafSys dev σ own id) b f 0).node =
      linkPacketProcess dev (emptyTable dev own id) ((f.load b).macInput (emptyTable dev own id)) := by
  rw [hp.radioTask]
  unfold unetPacketInput
  dsimp only
  rw [hp.pktType, if_pos h0]
  exact congrArg Sys.node (if_pos ⟨hnext, htype⟩)

theorem link_dropped (own id : U16)
    (h : ¬ ((f.load b).packet unetNextHeader = nextHeaderUnetCtrlMsg ∧
      ctrlTypeOk ((f.load b).packet unetCtrlMsgPacketType))) :
    (unetRadioTask dev (deafSys dev σ own id) b f 0).node = emptyTable dev own id := by
  rw [hp.radioTask]
  unfold unetPacketInput
  dsimp only
  rw [hp.pktType, if_pos h0]
  exact congrArg Sys.node (if_neg h)

end Passed

section
variable [DecidableEq σ] (h : NoLeak σ dev f) (hp : Passed f)
  (h0 : f.byte unetPktType = broadcastLocalLink)
include h hp h0

/-- Without a neighbour count, the previous contents decide whether the sender is marked. -/
theorem NoLeak.hasCount
    (hnext : f.Has unetNextHeader → f.byte unetNextHeader = nextHeaderUnetCtrlMsg)
    (htype : f.Has unetCtrlMsgPacketType → ctrlTypeOk (f.byte unetCtrlMsgPacketType)) :
    f.Has unetCtrlMsgNbCount := by
  by_contra hno
  have hmarked : (unetRadioTask dev (deafSys dev σ 0 0)
      (residue fun k => if k = unetNextHeader then nextHeaderUnetCtrlMsg else 0) f
      0).node.neighborTable.getLsbD 0 = true := by
    rw [hp.link h0]
    · obtain ⟨m, hfind, _, _, _, haddr, _⟩ := emptyTable_find dev 0 0
        ((f.load (residue fun k => if k = unetNextHeader then nextHeaderUnetCtrlMsg else 0)).macInput
          (emptyTable dev 0 0))
      have hcnt : ((f.load (residue fun k =>
          if k = unetNextHeader then nextHeaderUnetCtrlMsg else 0)).macInput
            (emptyTable dev 0 0)).packet unetCtrlMsgNbCount = 0 := load_residue hno (by decide)
      have hmarks := (linkPacketProcess_marks dev hfind (by rw [hcnt]; decide) haddr).1
      exact (congrArg (fun t : U16 => t.getLsbD 0) hmarks).trans (markActive_getLsbD m (by decide))
    · exact load_residue_holds (P := fun x => x = nextHeaderUnetCtrlMsg) (by decide) hnext (if_pos rfl)
    · exact load_residue_holds (by decide) htype (.inl rfl)
  have hunmarked : (unetRadioTask dev (deafSys dev σ 0 0) (residue fun _ => 0xFF) f
      0).node.neighborTable = 0 := by
    by_cases hok : (f.load (residue fun _ => 0xFF)).packet unetNextHeader = nextHeaderUnetCtrlMsg ∧
        ctrlTypeOk ((f.load (residue fun _ => 0xFF)).packet unetCtrlMsgPacketType)
    · rw [hp.link h0 _ _ hok.1 hok.2]
      obtain ⟨m, hfind, _, hmarks, _⟩ := emptyTable_find dev 0 0
        ((f.load (residue fun _ => 0xFF)).macInput (emptyTable dev 0 0))
      have hcnt : ((f.load (residue fun _ => 0xFF)).macInput (emptyTable dev 0 0)).packet
          unetCtrlMsgNbCount = 0xFF := load_residue hno (by decide)
      unfold linkPacketProcess
      rw [hfind]
      dsimp only
      rw [hcnt, if_neg (by decide)]
      exact hmarks
    · rw [hp.link_dropped h0 _ _ hok]
      exact emptyTable_marks dev 0 0
  have he := (h.sameEffect (deafSys dev σ 0 0)
    (residue fun k => if k = unetNextHeader then nextHeaderUnetCtrlMsg else 0)
    (residue fun _ => 0xFF) 0).node
  rw [← he, hunmarked] at hmarked
  exact absurd hmarked (by decide)

end

theorem exists_byte_ne (g : Nat → U8) {l : Nat} (hl : l < 256) : ∃ v : U8, ∀ j < l, g j ≠ v := by
  have hcard : ((Finset.range l).image fun j => (g j).toNat).card < (Finset.range 256).card := by
    apply Nat.lt_of_le_of_lt Finset.card_image_le
    simpa using hl
  obtain ⟨x, hx, hno⟩ := Finset.exists_mem_notMem_of_card_lt_card hcard
  have hx : x < 256 := Finset.mem_range.mp hx
  refine ⟨BitVec.ofNat 8 x, fun j hj he => hno ?_⟩
  rw [Finset.mem_image]
  refine ⟨j, Finset.mem_range.mpr hj, ?_⟩
  rw [he, BitVec.toNat_ofNat]
  exact Nat.mod_eq_of_lt hx

/-- The bytes `v` and `x` where the low address byte and the signal strength of entry `l` belong. -/
def entryBytes (l : Nat) (v x : U8) : Nat → U8 := fun k =>
  if k = unetCtrlMsgNbStart + 3 * l + 1 then v
  else if k = unetCtrlMsgNbStart + 3 * l + 2 then x
  else 0

/-- If the signal strength of the last entry is not in the frame, some node finds its own address in
this entry first. -/
theorem exists_listed {l : Nat} (hl : l < neighbourhoodSize)
    (hcnt : (f.byte unetCtrlMsgNbCount).toNat = l + 1) (hno : ¬ f.CompleteList) :
    ∃ (v : U8) (own : U16), ∀ x,
      (f.load (residue (entryBytes l v x))).listedRSSI (l + 1) own = some x := by
  unfold RxFrame.CompleteList at hno
  rw [hcnt] at hno
  push Not at hno
  obtain ⟨hshort, hnodup⟩ := hno
  -- the address of an entry, as far as the frame has it
  have hhigh : ∀ (v x : U8), ∀ j ≤ l, (f.load (residue (entryBytes l v x))).packet
      (unetCtrlMsgNbStart + 3 * j) =
        if f.Has (unetCtrlMsgNbStart + 3 * j) then f.byte (unetCtrlMsgNbStart + 3 * j) else 0 := by
    intro v x j hj
    have hzero : entryBytes l v x (unetCtrlMsgNbStart + 3 * j) = 0 := by
      unfold entryBytes
      rw [if_neg (by omega), if_neg (by omega)]
    rw [load_residue_eq _ (by simp only [unetCtrlMsgNbStart, phyPktSize]; omega), hzero]
  have hlow : ∀ (v x : U8), ∀ j < l, (f.load (residue (entryBytes l v x))).packet
      (unetCtrlMsgNbStart + 3 * j + 1) =
        if f.Has (unetCtrlMsgNbStart + 3 * j + 1) then f.byte (unetCtrlMsgNbStart + 3 * j + 1)
        else 0 := by
    intro v x j hj
    have hzero : entryBytes l v x (unetCtrlMsgNbStart + 3 * j + 1) = 0 := by
      unfold entryBytes
      rw [if_neg (by omega), if_neg (by omega)]
    rw [load_residue_eq _ (by simp only [unetCtrlMsgNbStart, phyPktSize]; omega), hzero]
  have hlast : ∀ v x : U8, (f.load (residue (entryBytes l v x))).packet
      (unetCtrlMsgNbStart + 3 * l + 1) =
        if f.Has (unetCtrlMsgNbStart + 3 * l + 1) then f.byte (unetCtrlMsgNbStart + 3 * l + 1)
        else v := by
    intro v x
    have hlow : entryBytes l v x (unetCtrlMsgNbStart + 3 * l + 1) = v := if_pos rfl
    rw [load_residue_eq _ (by simp only [unetCtrlMsgNbStart, phyPktSize]; omega), hlow]
  have hrssi : ∀ v x : U8, (f.load (residue (entryBytes l v x))).packet
      (unetCtrlMsgNbStart + 3 * l + 2) = x := by
    intro v x
    rw [load_residue (not_has_of_le (by simp only [unetCtrlMsgNbStart]; omega))
      (by simp only [unetCtrlMsgNbStart, phyPktSize]; omega)]
    unfold entryBytes
    rw [if_neg (by omega), if_pos rfl]
  obtain ⟨v, hv⟩ := exists_byte_ne (fun j => if f.Has (unetCtrlMsgNbStart + 3 * j + 1) then
    f.byte (unetCtrlMsgNbStart + 3 * j + 1) else 0) (l := l) (Nat.lt_trans hl (by decide))
  refine ⟨v, bytesToShort
    ((f.load (residue (entryBytes l v 0))).packet (unetCtrlMsgNbStart + 3 * l))
    ((f.load (residue (entryBytes l v 0))).packet (unetCtrlMsgNbStart + 3 * l + 1)), fun x => ?_⟩
  unfold Packet.listedRSSI
  rw [firstBelow_eq_some.mpr ⟨Nat.lt_succ_self l, ?_, ?_⟩]
  · exact congrArg some (hrssi v x)
  · unfold Packet.names
    rw [hi_bytesToShort, lo_bytesToShort, hhigh v x l (Nat.le_refl l),
      hhigh v 0 l (Nat.le_refl l), hlast v x, hlast v 0]
    exact decide_eq_true ⟨rfl, rfl⟩
  · intro j hj
    unfold Packet.names
    rw [hi_bytesToShort, lo_bytesToShort, hhigh v x j (Nat.le_of_lt hj), hlow v x j hj,
      hhigh v 0 l (Nat.le_refl l), hlast v 0]
    apply decide_eq_false
    rintro ⟨hh, hl⟩
    by_cases hhas : f.Has (unetCtrlMsgNbStart + 3 * l + 1)
    · -- all addresses are in the frame, and the last one does not occur before
      have hend := hhas.2
      simp only [unetCtrlMsgNbStart, macFrameCtrl] at hend
      have hin : ∀ k, unetCtrlMsgNbStart ≤ k → k ≤ unetCtrlMsgNbStart + 3 * l + 1 → f.Has k := by
        intro k h1 h2
        apply has_of_lt
        · simp only [unetCtrlMsgNbStart, macFrameCtrl] at h1 ⊢
          omega
        · simp only [unetCtrlMsgNbStart] at h2
          omega
      rw [if_pos (hin _ (by omega) (by omega)), if_pos (hin _ (by omega) (by omega))] at hh
      rw [if_pos (hin _ (by omega) (by omega)), if_pos (hin _ (by omega) (by omega))] at hl
      exact hnodup (by omega) j (by omega) ⟨hh, hl⟩
    · rw [if_neg hhas] at hl
      exact hv j hj hl

section
variable [DecidableEq σ] (h : NoLeak σ dev f) (hp : Passed f)
  (h0 : f.byte unetPktType = broadcastLocalLink)
include h hp h0

theorem NoLeak.hasList (hnext : f.byte unetNextHeader = nextHeaderUnetCtrlMsg)
    (htype : ctrlTypeOk (f.byte unetCtrlMsgPacketType)) (h35 : 35 ≤ f.len)
    (hcnt : (f.byte unetCtrlMsgNbCount).toNat < neighbourhoodSize) : f.CompleteList := by
  by_contra hno
  obtain ⟨l, hl⟩ : ∃ l, (f.byte unetCtrlMsgNbCount).toNat = l + 1 := by
    apply Nat.exists_eq_succ_of_ne_zero
    intro hzero
    exact hno (.inl (by omega))
  obtain ⟨v, own, hlisted⟩ := exists_listed (by omega) hl hno
  -- the bytes before the list are the frame's
  have hbyte : ∀ k, macFrameCtrl ≤ k → k ≤ unetCtrlMsgNbCount → ∀ b,
      (f.load b).packet k = f.byte k := by
    intro k h1 h2 b
    apply RxFrame.load_of_has (has_of_lt h1 _)
    simp only [unetCtrlMsgNbCount] at h2
    omega
  have haddr : ∀ b, (f.load b).linkAddr16 =
      bytesToShort (f.byte unetCtrlMsgAddr16H) (f.byte unetCtrlMsgAddr16L) := by
    intro b
    unfold Packet.linkAddr16
    rw [hbyte _ (by decide) (by decide), hbyte _ (by decide) (by decide)]
  generalize hfrom : bytesToShort (f.byte unetCtrlMsgAddr16H) (f.byte unetCtrlMsgAddr16L) = a at haddr
  have hrecorded : ∀ x, ((unetRadioTask dev (deafSys dev σ own (a + 1))
      (residue (entryBytes l v x)) f 0).node.neighbourhood 0).neighborMyRSSI = rssiFilter 0 x := by
    intro x
    have hctrl : ctrlTypeOk ((f.load (residue (entryBytes l v x))).packet unetCtrlMsgPacketType) := by
      rw [hbyte _ (by decide) (by decide)]
      exact htype
    rw [hp.link h0 own (a + 1) ((hbyte _ (by decide) (by decide) _).trans hnext) hctrl]
    generalize hq : (f.load (residue (entryBytes l v x))).macInput (emptyTable dev own (a + 1)) = q
    have hqcnt : (q.packet unetCtrlMsgNbCount).toNat = l + 1 := by
      rw [← hq, ← hl]
      exact congrArg BitVec.toNat (hbyte _ (by decide) (by decide) _)
    have hqa : q.linkAddr16 = a := by
      rw [← hq]
      exact haddr _
    have hqown : q.listedRSSI (l + 1) own = some x := by
      rw [← hq]
      exact hlisted x
    obtain ⟨m, hfind, hown, _, hid, hma, hmy⟩ := emptyTable_find dev own (a + 1) q
    have hne : m.parentNeighborID ≠ q.linkAddr16 := by
      rw [hid, hqa]
      intro he
      bv_omega
    rw [(linkPacketProcess_marks dev hfind (by omega) hma).2 hne, hqcnt, hown, hqown]
    simp [Node.learnMyRSSI, UnetNeighborhood.heard, hmy]
  have he := (h.sameEffect (deafSys dev σ own (a + 1)) (residue (entryBytes l v 0))
    (residue (entryBytes l v 0xFF)) 0).node
  have hzero := hrecorded 0
  rw [← he, hrecorded 0xFF] at hzero
  exact absurd hzero (by decide)

end

/-! ## Unicast packets -/

theorem Passed.stored (hp : Passed f) {fromUp : Bool}
    (htype : f.byte unetPktType = (if fromUp then unicastUp else unicastDown)) (b : Packet) :
    ((unetRadioTask dev (startedSys dev σ) b f 0).buffer fromUp).packet = (f.load b).packet := by
  have hstart := startedSys_start dev σ
  rw [hp.radioTask]
  unfold unetPacketInput
  dsimp only
  rw [hp.pktType]
  cases fromUp with
  | true =>
    have htype : f.byte unetPktType = unicastUp := htype
    rw [htype, if_neg (by decide), if_pos rfl, if_pos hstart.packetUp]
    rfl
  | false =>
    have htype : f.byte unetPktType = unicastDown := htype
    rw [htype, if_neg (by decide), if_neg (by decide), if_pos rfl, if_pos hstart.packetDown]
    rfl

theorem SameEffect.buffer {s t : Sys σ} (h : SameEffect s t) (fromUp : Bool) :
    SameUse (s.buffer fromUp) (t.buffer fromUp) := by
  cases fromUp with
  | true => exact h.up
  | false => exact h.down

section
variable [DecidableEq σ] (h : NoLeak σ dev f) (hp : Passed f) (fromUp : Bool)
  (htype : f.byte unetPktType = (if fromUp then unicastUp else unicastDown))
include h hp htype

/-- Without all of its headers and its payload, a unicast packet is stored with previous contents
in their place. -/
theorem NoLeak.hasUnicast : f.CompleteUnicast := by
  have hsame : ∀ v w : Nat → U8, SameUse
      ((unetRadioTask dev (startedSys dev σ) (residue v) f 0).buffer fromUp)
      ((unetRadioTask dev (startedSys dev σ) (residue w) f 0).buffer fromUp) := fun v w =>
    (h.sameEffect (startedSys dev σ) (residue v) (residue w) 0).buffer fromUp
  have hstored : ∀ b, ((unetRadioTask dev (startedSys dev σ) b f 0).buffer fromUp).packet =
      (f.load b).packet := fun b => hp.stored htype b
  have h30 : 30 ≤ f.len := by
    by_contra hshort
    have hno : ¬ f.Has 31 := not_has_of_le (by omega)
    have he := (hsame (fun _ => 0) fun _ => 1).header 31 (by decide) (by decide)
    rw [hstored, hstored, load_residue hno (by decide), load_residue hno (by decide)] at he
    exact absurd he (by decide)
  refine ⟨h30, fun hnext => ?_⟩
  have hnb : ∀ b, (f.load b).packet unetNextHeader = nextHeaderUnetApp := by
    intro b
    rw [RxFrame.load_of_has (has_of_lt (by decide) (by simp only [unetNextHeader]; omega))]
    exact hnext
  have hdata : ∀ (v w : Nat → U8) (j : Nat),
      ((List.range ((f.load (residue v)).packet unetAppPayloadLen).toNat).map fun k =>
          (f.load (residue v)).packet (unetAppHeaderStart + k))[j]? =
        ((List.range ((f.load (residue w)).packet unetAppPayloadLen).toNat).map fun k =>
          (f.load (residue w)).packet (unetAppHeaderStart + k))[j]? := by
    intro v w j
    have he := ((hsame v w).app (by rw [hstored, hnb])).2
    have he := congrArg Datagram.payload he
    unfold Packet.datagram at he
    dsimp only at he
    rw [hstored, hstored] at he
    rw [he]
  have h33 : 33 ≤ f.len := by
    by_contra hshort
    have hno : ¬ f.Has unetAppPayloadLen := not_has_of_le (by simp only [unetAppPayloadLen]; omega)
    have he := hdata (fun _ => 0) (fun _ => 1) 0
    rw [load_residue hno (by decide), load_residue hno (by decide)] at he
    simp at he
  refine ⟨h33, ?_⟩
  by_contra hshort
  have hlenb : ∀ b, (f.load b).packet unetAppPayloadLen = f.byte unetAppPayloadLen := fun b =>
    RxFrame.load_of_has (has_of_lt (by decide) (by simp only [unetAppPayloadLen]; omega))
  generalize hpl : (f.byte unetAppPayloadLen).toNat = l at hshort
  have hno : ¬ f.Has (unetAppHeaderStart + (l - 1)) :=
    not_has_of_le (by simp only [unetAppHeaderStart]; omega)
  have hne : unetAppHeaderStart + (l - 1) ≠ phyPktSize := by
    simp only [unetAppHeaderStart, phyPktSize]
    omega
  have he := hdata (fun _ => 0) (fun _ => 1) (l - 1)
  rw [hlenb, hlenb, hpl, List.getElem?_map, List.getElem?_map, List.getElem?_range (by omega)] at he
  simp only [Option.map_some, Option.some.injEq] at he
  rw [load_residue hno hne, load_residue hno hne] at he
  exact absurd he (by decide)

end

/-! ## Exactly the complete frames -/

/-- What a frame does is independent of the previous contents of the receive buffer if and only if
the frame contains every byte that is looked at. -/
theorem noLeak_iff [DecidableEq σ] (hlen : 0 < f.len ∧ f.len < 128) :
    NoLeak σ dev f ↔ f.Complete := by
  refine ⟨fun h => ?_, RxFrame.Complete.noLeak⟩
  intro hcrc htype
  have hdata := h.hasType hlen hcrc htype
  have hends : ∀ k, f.Has k → k < f.len + 2 := fun k hk => by
    have := hk.2
    simp only [macFrameCtrl] at this
    omega
  have h2 : 2 ≤ f.len := by
    by_contra hshort
    have hno : ∀ k, 3 ≤ k → ¬ f.Has k := fun k hk => not_has_of_le (by omega)
    exact hno unetPktType (by decide) (hdata (fun hh => absurd hh (hno _ (by decide)))
      fun hh => absurd hh (hno _ (by decide)))
  refine ⟨h2, fun hmode => ?_⟩
  have h10 : 10 ≤ f.len := by
    by_contra hshort
    have hno : ∀ k, 11 ≤ k → ¬ f.Has k := fun k hk => not_has_of_le (by omega)
    exact hno unetPktType (by decide) (hdata (fun _ => hmode) fun hh => absurd hh (hno _ (by decide)))
  refine ⟨h10, fun hllc => ?_⟩
  have h11 := hends _ (hdata (fun _ => hmode) fun _ => hllc)
  simp only [unetPktType] at h11
  have hp : Passed f := ⟨⟨by omega, hlen.2⟩, hcrc, htype, hmode, hllc⟩
  refine ⟨hp.len.1, fun h0 => ?_, ?_⟩
  · have hcount := h.hasCount hp h0
    have h14 : 14 ≤ f.len := by
      by_contra hshort
      have hno : ∀ k, 15 ≤ k → ¬ f.Has k := fun k hk => not_has_of_le (by omega)
      exact hno unetCtrlMsgNbCount (by decide) (hcount (fun hh => absurd hh (hno _ (by decide)))
        fun hh => absurd hh (hno _ (by decide)))
    refine ⟨h14, fun hnext => ?_⟩
    have h31 : 31 ≤ f.len := by
      by_contra hshort
      have hno : ∀ k, 32 ≤ k → ¬ f.Has k := fun k hk => not_has_of_le (by omega)
      exact hno unetCtrlMsgNbCount (by decide) (hcount (fun _ => hnext)
        fun hh => absurd hh (hno _ (by decide)))
    refine ⟨h31, fun hctrl => ?_⟩
    have h35 := hends _ (hcount (fun _ => hnext) fun _ => hctrl)
    simp only [unetCtrlMsgNbCount] at h35
    exact ⟨by omega, h.hasList hp h0 hnext hctrl (by omega)⟩
  · rintro (hup | hdown)
    · exact h.hasUnicast hp true hup
    · exact h.hasUnicast hp false hdown

/-- The first `len` bytes of an advertisement of node 2, which lists node 5. -/
def advertisement (len : Nat) : RxFrame where
  len := len
  data := fun k =>
    if k = 0 then 0x41 else if k = 1 then 0x88 else if k = 2 then 1
    else if k = 9 then unetLlcProtoNumber
    else if k = 12 then 1 else if k = 13 then nextHeaderUnetCtrlMsg
    else if k = 30 then neighborAdv else if k = 32 then 2 else if k = 34 then 1
    else if k = 36 then 5 else if k = 37 then 200
    else 0
  rssi := 200
  lqi := 255
  crc := true

/-- The whole advertisement has 38 bytes. -/
theorem noLeak_iff_advertisement : NoLeak (Fin 1) .router (advertisement 38) := by
  refine (noLeak_iff (by decide)).mpr ?_
  intro _ _
  refine ⟨by decide, fun _ => ⟨by decide, fun _ => ⟨by decide, fun _ => ?_, ?_⟩⟩⟩
  · exact ⟨by decide, fun _ => ⟨by decide, fun _ => ⟨by decide, fun _ => .inl (by decide)⟩⟩⟩
  · rintro (h | h)
    · exact absurd h (by decide)
    · exact absurd h (by decide)

/-- Cut off after the neighbour count, it is completed from the frame before: if that one was the whole
advertisement, node 5 takes node 2 for its parent. -/
theorem noLeak_fails :
    (0 < (advertisement 35).len ∧ (advertisement 35).len < 128) ∧
      ¬ NoLeak (Fin 1) .router (advertisement 35) := by
  refine ⟨by decide, fun h => ?_⟩
  have he := (h.sameEffect (deafSys .router (Fin 1) 5 unusedAddr)
    ((advertisement 38).load (residue fun _ => 0)) (residue fun _ => 0) 0).node
  have hparent : (unetRadioTask .router (deafSys .router (Fin 1) 5 unusedAddr)
      ((advertisement 38).load (residue fun _ => 0)) (advertisement 35) 0).node.parentIndex = 0 := by
    decide +kernel
  have hno : (unetRadioTask .router (deafSys .router (Fin 1) 5 unusedAddr) (residue fun _ => 0)
      (advertisement 35) 0).node.parentIndex = noParent := by
    decide +kernel
  rw [← he, hno] at hparent
  exact absurd hparent (by decide)

end Unet4Cooja
