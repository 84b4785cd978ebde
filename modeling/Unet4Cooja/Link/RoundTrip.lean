import Unet4Cooja.Link.Moves

/-!
# Link packets from sender to receiver

* `Received` : the receiver has the bytes of the frame;
* `linkPacketBody_lists` : a search in the list that `link_packet_create` appends finds what a search
  in the table finds;
* `linkPacket_roundTrip` : what a link packet of a sender with a free slot does at a receiver that
  has a slot for the sender;
* `linkPacket_roundTrip_fails` : the packet of a sender with a full table is dropped, and a parent
  that has lost its route is forgotten.
-/

namespace Unet4Cooja
open Lib

/-- `p` has the bytes of the frame `q`; the radio transmits `PKTINFO_SIZE` bytes from
`MAC_FRAME_CTRL` on. -/
def Received (q p : Packet) : Prop :=
  ∀ k, macFrameCtrl ≤ k → k < macFrameCtrl + q.info.size.toNat → p.packet k = q.packet k

/-! ## The neighbour list -/

/-- Entry `j` of the neighbour list of `p` names the address `a`. -/
def Packet.names (p : Packet) (a : U16) (j : Nat) : Bool :=
  p.packet (unetCtrlMsgNbStart + 3 * j) = hi a ∧ p.packet (unetCtrlMsgNbStart + 3 * j + 1) = lo a

/-- The signal strength that the first of `cnt` entries with the address `a` carries. -/
def Packet.listedRSSI (p : Packet) (cnt : Nat) (a : U16) : Option U8 :=
  (firstBelow cnt (p.names a)).map fun j => p.packet (unetCtrlMsgNbStart + 3 * j + 2)

/-- The signal strength that the first of `k` slots with the address `a` holds. -/
def slotRSSI (slots : Nat → UnetNeighborhood) (k : Nat) (a : U16) : Option U8 :=
  (firstBelow k fun i => (slots i).addr16b = a).map fun i => (slots i).neighborRSSI

theorem hi_lo_eq_iff {a b : U16} : hi a = hi b ∧ lo a = lo b ↔ a = b := by
  constructor
  · rintro ⟨hh, hl⟩
    rw [← bytesToShort_hi_lo a, hh, hl, bytesToShort_hi_lo]
  · rintro rfl
    exact ⟨rfl, rfl⟩

theorem listedRSSI_append (p : Packet) (cnt : Nat) (a : U16) (nb : UnetNeighborhood) :
    (p |>.setByte (unetCtrlMsgNbStart + 3 * cnt) (hi nb.addr16b)
       |>.setByte (unetCtrlMsgNbStart + 3 * cnt + 1) (lo nb.addr16b)
       |>.setByte (unetCtrlMsgNbStart + 3 * cnt + 2) nb.neighborRSSI).listedRSSI (cnt + 1) a =
      (p.listedRSSI cnt a).or (if nb.addr16b = a then some nb.neighborRSSI else none) := by
  have hold : ∀ j < cnt, ∀ d < 3, (p |>.setByte (unetCtrlMsgNbStart + 3 * cnt) (hi nb.addr16b)
      |>.setByte (unetCtrlMsgNbStart + 3 * cnt + 1) (lo nb.addr16b)
      |>.setByte (unetCtrlMsgNbStart + 3 * cnt + 2) nb.neighborRSSI).packet
        (unetCtrlMsgNbStart + 3 * j + d) = p.packet (unetCtrlMsgNbStart + 3 * j + d) := by
    intro j hj d hd
    rw [Packet.setByte_of_ne _ _ (by omega), Packet.setByte_of_ne _ _ (by omega),
      Packet.setByte_of_ne _ _ (by omega)]
  generalize hq : (p |>.setByte (unetCtrlMsgNbStart + 3 * cnt) (hi nb.addr16b)
      |>.setByte (unetCtrlMsgNbStart + 3 * cnt + 1) (lo nb.addr16b)
      |>.setByte (unetCtrlMsgNbStart + 3 * cnt + 2) nb.neighborRSSI) = q at hold ⊢
  have hb0 : q.packet (unetCtrlMsgNbStart + 3 * cnt) = hi nb.addr16b := by
    rw [← hq, Packet.setByte_of_ne _ _ (by omega), Packet.setByte_of_ne _ _ (by omega),
      Packet.setByte_self]
  have hb1 : q.packet (unetCtrlMsgNbStart + 3 * cnt + 1) = lo nb.addr16b := by
    rw [← hq, Packet.setByte_of_ne _ _ (by omega), Packet.setByte_self]
  have hb2 : q.packet (unetCtrlMsgNbStart + 3 * cnt + 2) = nb.neighborRSSI := by
    rw [← hq, Packet.setByte_self]
  have hnew : q.names a cnt = decide (nb.addr16b = a) := by
    unfold Packet.names
    rw [hb0, hb1]
    exact decide_eq_decide.mpr hi_lo_eq_iff
  have hfirst : firstBelow cnt (q.names a) = firstBelow cnt (p.names a) := by
    apply firstBelow_congr
    intro j hj
    unfold Packet.names
    rw [hold j hj 1 (by omega)]
    rw [show unetCtrlMsgNbStart + 3 * j = unetCtrlMsgNbStart + 3 * j + 0 from rfl,
      hold j hj 0 (by omega)]
  unfold Packet.listedRSSI
  rw [firstBelow_succ, hfirst, hnew]
  cases hf : firstBelow cnt (p.names a) with
  | some j => simp [hold j (firstBelow_eq_some.mp hf).1 2 (by omega)]
  | none =>
    by_cases ha : nb.addr16b = a
    · simp [ha, hb2]
    · simp [ha]

theorem slotRSSI_succ (slots : Nat → UnetNeighborhood) (k : Nat) (a : U16) :
    slotRSSI slots (k + 1) a =
      (slotRSSI slots k a).or (if (slots k).addr16b = a then some (slots k).neighborRSSI else none) := by
  unfold slotRSSI
  rw [firstBelow_succ]
  cases firstBelow k fun i => decide ((slots i).addr16b = a) with
  | some i => rfl
  | none =>
    by_cases ha : (slots k).addr16b = a
    · simp [ha]
    · simp [ha]

theorem listedRSSI_congr {p q : Packet} {cnt : Nat} {a : U16}
    (hb : ∀ k, 37 ≤ k → k < 37 + 3 * cnt → p.packet k = q.packet k) :
    p.listedRSSI cnt a = q.listedRSSI cnt a := by
  have hfirst : firstBelow cnt (p.names a) = firstBelow cnt (q.names a) := by
    apply firstBelow_congr
    intro j hj
    unfold Packet.names
    rw [hb (37 + 3 * j) (by omega) (by omega), hb (37 + 3 * j + 1) (by omega) (by omega)]
  unfold Packet.listedRSSI
  rw [hfirst]
  cases hf : firstBelow cnt (q.names a) with
  | none => rfl
  | some j =>
    have hj := (firstBelow_eq_some.mp hf).1
    exact congrArg some (hb (37 + 3 * j + 2) (by omega) (by omega))

/-- The list of the first `k` slots: it has an entry for each used slot, and a search for an address
finds in it what a search in the slots finds. -/
structure Lists (slots : Nat → UnetNeighborhood) (k : Nat) (s : Packet × Nat) : Prop where
  le : s.2 ≤ k
  lt : (∃ i < k, (slots i).addr16b = unusedAddr) → s.2 < k
  eq : (∀ i < k, (slots i).addr16b ≠ unusedAddr) → s.2 = k
  rssi : ∀ a, s.1.listedRSSI s.2 a = if a = unusedAddr then none else slotRSSI slots k a

theorem linkPacketAddNeighbor_lists {slots : Nat → UnetNeighborhood} {k : Nat} {s : Packet × Nat}
    (h : Lists slots k s) : Lists slots (k + 1) (linkPacketAddNeighbor slots k s) := by
  obtain ⟨p, cnt⟩ := s
  unfold linkPacketAddNeighbor
  dsimp only
  by_cases hu : (slots k).addr16b = unusedAddr
  · rw [if_neg (by simp [hu])]
    refine ⟨Nat.le_succ_of_le h.le, fun _ => Nat.lt_succ_of_le h.le, fun hall => ?_, fun a => ?_⟩
    · exact absurd hu (hall k (Nat.lt_succ_self k))
    · rw [h.rssi a, slotRSSI_succ, hu]
      by_cases ha : a = unusedAddr
      · simp [ha]
      · simp [ha, Ne.symm ha]
  · rw [if_pos hu]
    refine ⟨Nat.succ_le_succ h.le, ?_, fun hall => ?_, fun a => ?_⟩
    · rintro ⟨i, hi, hfree⟩
      have hik : i < k := by
        rcases Nat.lt_succ_iff_lt_or_eq.mp hi with hlt | rfl
        · exact hlt
        · exact absurd hfree hu
      exact Nat.succ_lt_succ (h.lt ⟨i, hik, hfree⟩)
    · exact congrArg Nat.succ (h.eq fun i hi => hall i (Nat.lt_succ_of_lt hi))
    · have hcnt := h.rssi a
      dsimp only at hcnt ⊢
      rw [listedRSSI_append p cnt a (slots k), slotRSSI_succ, hcnt]
      by_cases ha : a = unusedAddr
      · simp [ha, hu]
      · simp [ha]

theorem linkPacketList_lists (n : Node) (q : Packet) :
    Lists n.neighbourhood neighbourhoodSize
      (forRange neighbourhoodSize (linkPacketAddNeighbor n.neighbourhood) (q, 0)) := by
  apply forRange_induct
  · refine ⟨Nat.le_refl 0, ?_, fun _ => rfl, fun a => ?_⟩
    · rintro ⟨i, hi, _⟩
      exact absurd hi (Nat.not_lt_zero i)
    · exact (ite_self none).symm
  · intro i _ s h
    exact linkPacketAddNeighbor_lists h

/-- The signal strength the table of `n` holds for the address `a`, if `a` is a neighbour. -/
def Node.recordedRSSI (n : Node) (a : U16) : Option U8 :=
  if a = unusedAddr then none
  else (n.findNeighbor a).map fun i => (n.neighbourhood i).neighborRSSI

/-- What a receiver reads in a link packet of `n`. -/
structure Carries (dev : DeviceType) (n : Node) (cnt : Nat) (p : Packet) : Prop where
  addr : p.linkAddr16 = n.addr16
  distance : p.packet unetCtrlMsgDistance = n.distance
  count : (p.packet unetCtrlMsgNbCount).toNat = cnt
  type : p.packet unetCtrlMsgPacketType = (linkPacketType dev n).1
  rssi : ∀ a, p.listedRSSI cnt a = n.recordedRSSI a

theorem Carries.of_bytes {dev : DeviceType} {n : Node} {cnt : Nat} {p q : Packet}
    (h : Carries dev n cnt q) (hb : ∀ k, 32 ≤ k → k < 37 + 3 * cnt → p.packet k = q.packet k) :
    Carries dev n cnt p := by
  refine ⟨?_, ?_, ?_, ?_, fun a => ?_⟩
  · rw [← h.addr]
    unfold Packet.linkAddr16
    rw [hb 33 (by omega) (by omega), hb 34 (by omega) (by omega)]
  · rw [← h.distance]
    exact hb 35 (by omega) (by omega)
  · rw [← h.count, hb 36 (by omega) (by omega)]
  · rw [← h.type]
    exact hb 32 (by omega) (by omega)
  · rw [← h.rssi a]
    exact listedRSSI_congr fun k hk hlt => hb k (by omega) hlt

theorem linkPacketBody_lists (dev : DeviceType) (n : Node) :
    ∃ s, Lists n.neighbourhood neighbourhoodSize s ∧
      linkPacketBody dev n =
        (s.1 |>.setByte unetCtrlMsgNbCount (BitVec.ofNat 8 s.2)
           |>.setByte unetCtrlMsgPacketType (linkPacketType dev n).1,
          BitVec.ofNat 8 (s.2 * 3 + 5)) :=
  ⟨_, linkPacketList_lists n _, rfl⟩

theorem linkPacketCreate_carries (dev : DeviceType) (n : Node) :
    ∃ cnt ≤ neighbourhoodSize,
      ((∃ i < neighbourhoodSize, (n.neighbourhood i).addr16b = unusedAddr) →
        cnt < neighbourhoodSize) ∧
      ((linkPacketCreate dev n).linkPkt.info.size.toNat = 3 * cnt + 35) ∧
      Carries dev n cnt (linkPacketCreate dev n).linkPkt := by
  obtain ⟨haddr, hdist⟩ := linkPacketCreate_packet dev n
  obtain ⟨⟨q, cnt⟩, hl, hbody⟩ := linkPacketBody_lists dev n
  have hle : cnt ≤ 8 := hl.le
  have hsize : (linkPacketCreate dev n).linkPkt.info.size =
      (linkPacketBody dev n).2 + unetNwkHeaderSize + unetLlcHeaderSize + unetMacHeaderSize := rfl
  have hbyte : ∀ k, 32 ≤ k → (linkPacketCreate dev n).linkPkt.packet k =
      (linkPacketBody dev n).1.packet k := fun k hk => linkPacketCreate_body dev n hk
  rw [hbody] at hsize hbyte
  dsimp only at hsize hbyte
  refine ⟨cnt, hle, hl.lt, ?_, haddr, hdist, ?_, ?_, fun a => ?_⟩
  · have h20 : unetNwkHeaderSize.toNat = 20 := rfl
    have h1 : unetLlcHeaderSize.toNat = 1 := rfl
    have h9 : unetMacHeaderSize.toNat = 9 := rfl
    rw [hsize]
    simp only [BitVec.toNat_add, BitVec.toNat_ofNat, h20, h1, h9]
    omega
  · rw [hbyte _ (by decide), Packet.setByte_of_ne _ _ (by decide), Packet.setByte_self,
      BitVec.toNat_ofNat]
    omega
  · rw [hbyte _ (by decide), Packet.setByte_self]
  · have hq : (linkPacketCreate dev n).linkPkt.listedRSSI cnt a = q.listedRSSI cnt a := by
      apply listedRSSI_congr
      intro k hk _
      rw [hbyte k (by omega), Packet.setByte_of_ne _ _ (by simp only [unetCtrlMsgPacketType]; omega),
        Packet.setByte_of_ne _ _ (by simp only [unetCtrlMsgNbCount]; omega)]
    exact hq.trans (hl.rssi a)

/-! ## The receiver -/

/-- `idx` with the signal strength that the neighbour reports for this node, if it reports one. -/
def Node.learnMyRSSI (n : Node) (idx : Nat) : Option U8 → Node
  | none => n
  | some rssi =>
    let nb := n.neighbourhood idx
    n.setNeighbor idx
      { nb with
        neighborMyRSSI := rssiFilter nb.neighborMyRSSI rssi
        symmetric := rssiThreshold ≤ rssiFilter nb.neighborMyRSSI rssi ∧
          rssiThreshold ≤ nb.neighborRSSI }

theorem linkNeighborSymmetryUpdate_listed (r : Node) (p : Packet) (i : Nat) :
    linkNeighborSymmetryUpdate r p i =
      r.learnMyRSSI i (p.listedRSSI (p.packet unetCtrlMsgNbCount).toNat r.addr16) := by
  have hl : listedAt r p = firstBelow (p.packet unetCtrlMsgNbCount).toNat (p.names r.addr16) := by
    unfold listedAt
    apply firstBelow_congr
    intro j _
    unfold Packet.names Node.addr16
    simp only [hi_bytesToShort, lo_bytesToShort]
  unfold linkNeighborSymmetryUpdate Packet.listedRSSI
  rw [hl]
  cases firstBelow (p.packet unetCtrlMsgNbCount).toNat (p.names r.addr16) with
  | none => rfl
  | some j => rfl

/-- The sender's slot `nb` at a receiver, after a link packet of `n`: `old` is the slot that
`link_neighbor_table_find` returned, `reported` the signal strength for the receiver in the table of
`n`. -/
structure Stored (n : Node) (old : UnetNeighborhood) (reported : Option U8)
    (nb : UnetNeighborhood) : Prop where
  addr : nb.addr16b = n.addr16
  distance : nb.neighborDistance = n.distance
  myRSSI : nb.neighborMyRSSI =
    match reported with
    | some v => rssiFilter old.neighborMyRSSI v
    | none => old.neighborMyRSSI
  symmetric : nb.symmetric =
    match reported with
    | some v => decide (rssiThreshold ≤ rssiFilter old.neighborMyRSSI v ∧
        rssiThreshold ≤ nb.neighborRSSI)
    | none => old.symmetric

/-- The router `r` has the sender `n` as its parent, and `n` has lost its route. -/
def ParentLost (rdev : DeviceType) (n r : Node) : Prop :=
  rdev = .router ∧ n.distance = noRouteToBasestation ∧ r.parentNeighborID = n.addr16

/-- What the link packet of `n` does at `r`, where it finds or takes slot `i`: it is processed to the
end, and stored; only a router that loses its parent by it clears its table. -/
structure RoundTripped (rdev : DeviceType) (n r : Node) (p : Packet) (i : Nat) : Prop where
  slot : i < neighbourhoodSize ∧ (linkNeighborTableFind r p).1 = some i
  active : (linkPacketProcess rdev r p).neighborTable.getLsbD i = true
  stored : ¬ ParentLost rdev n r →
    Stored n (slotAtArrival r p i) (n.recordedRSSI r.addr16)
      ((linkPacketProcess rdev r p).neighbourhood i)
  cleared : ParentLost rdev n r →
    (linkPacketProcess rdev r p).parentIndex = noParent ∧
      ∀ j < neighbourhoodSize,
        ((linkPacketProcess rdev r p).neighbourhood j).addr16b = unusedAddr

theorem markActive_getLsbD (n : Node) {i : Nat} (hi : i < neighbourhoodSize) :
    (n.markActive i).neighborTable.getLsbD i = true := by
  have hi : i < 16 := Nat.lt_trans hi (by decide)
  show (n.neighborTable ||| BitVec.ofNat 16 (1 <<< i)).getLsbD i = true
  rw [BitVec.getLsbD_or, BitVec.getLsbD_ofNat, Nat.one_shiftLeft, Nat.testBit_two_pow_self,
    decide_eq_true hi, Bool.and_true, Bool.or_true]

theorem linkPacketType_eq_neighborReq (dev : DeviceType) {n : Node} :
    (linkPacketType dev n).1 = neighborReq ↔ n.distance = noRouteToBasestation := by
  unfold linkPacketType
  by_cases h : n.distance = noRouteToBasestation
  · rw [if_pos h]
    exact iff_of_true rfl h
  · rw [if_neg h]
    split
    · exact iff_of_false (show ¬ neighborAdvReset = neighborReq by decide) h
    · exact iff_of_false (show ¬ neighborAdv = neighborReq by decide) h

/-- Once the list is accepted, the slot of the sender is stored and marked, and the type of the
packet decides what follows. -/
theorem linkPacketProcess_listed (rdev : DeviceType) {r m : Node} {p : Packet} {i : Nat}
    (hfind : linkNeighborTableFind r p = (some i, m))
    (hcnt : (p.packet unetCtrlMsgNbCount).toNat < neighbourhoodSize) :
    linkPacketProcess rdev r p =
      let m := ((m.setNeighbor i ((m.neighbourhood i).heard p)).learnMyRSSI i
        (p.listedRSSI (p.packet unetCtrlMsgNbCount).toNat m.addr16)).markActive i
      if p.packet unetCtrlMsgPacketType = neighborAdv then linkNodeDistanceUpdate rdev m i
      else if p.packet unetCtrlMsgPacketType = neighborAdvReset then
        (linkNodeDistanceUpdate rdev m i).postLinkPacketTx
      else if p.packet unetCtrlMsgPacketType = neighborReq then linkNeighborReq rdev m i
      else m := by
  unfold linkPacketProcess
  rw [hfind]
  dsimp only
  rw [if_pos hcnt, linkNeighborSymmetryUpdate_listed]
  rfl

theorem learnMyRSSI_parentNeighborID (n : Node) (i : Nat) (reported : Option U8) :
    (n.learnMyRSSI i reported).parentNeighborID = n.parentNeighborID := by
  cases reported with
  | none => rfl
  | some v => rfl

theorem linkNeighborTableFind_none {r m : Node} {p : Packet}
    (h : linkNeighborTableFind r p = (none, m)) :
    r.findNeighbor p.linkAddr16 = none ∧ r.findNeighbor unusedAddr = none := by
  unfold linkNeighborTableFind at h
  cases hf : r.findNeighbor p.linkAddr16 with
  | some i =>
    rw [hf] at h
    cases h
  | none =>
    cases hu : r.findNeighbor unusedAddr with
    | none => exact ⟨rfl, rfl⟩
    | some i =>
      rw [hf, hu] at h
      cases h

theorem Stored.of_learn {n m : Node} {p : Packet} {i : Nat} (reported : Option U8)
    (ha : (m.neighbourhood i).addr16b = n.addr16) (hd : p.packet unetCtrlMsgDistance = n.distance) :
    Stored n (m.neighbourhood i) reported
      (((m.setNeighbor i ((m.neighbourhood i).heard p)).learnMyRSSI i reported).neighbourhood i) := by
  cases reported with
  | none =>
    unfold Node.learnMyRSSI
    rw [Node.setNeighbor_self]
    exact ⟨ha, hd, rfl, rfl⟩
  | some v =>
    unfold Node.learnMyRSSI
    dsimp only
    rw [Node.setNeighbor_self, Node.setNeighbor_self]
    exact ⟨ha, hd, rfl, rfl⟩

theorem postLinkPacketTx_neighborTable (n : Node) :
    n.postLinkPacketTx.neighborTable = n.neighborTable := rfl

theorem linkParentSwitch_marks (dev : DeviceType) (n : Node) :
    (linkParentSwitch dev n).neighborTable = n.neighborTable := by
  obtain ⟨d, idx, id, rssi, ev, he⟩ := linkParentSwitch_frame dev n
  rw [he]
  rfl

/-- A request clears the table of a router whose parent sends it, and leaves the slots otherwise. -/
theorem linkNeighborReq_cases (rdev : DeviceType) (m : Node) (i : Nat) :
    (linkNeighborReq rdev m i).neighborTable = m.neighborTable ∧
    (¬ (rdev = .router ∧ m.parentNeighborID = (m.neighbourhood i).addr16b) →
      (linkNeighborReq rdev m i).neighbourhood = m.neighbourhood) ∧
    (rdev = .router ∧ m.parentNeighborID = (m.neighbourhood i).addr16b →
      (linkNeighborReq rdev m i).parentIndex = noParent ∧
        ∀ j < neighbourhoodSize,
          ((linkNeighborReq rdev m i).neighbourhood j).addr16b = unusedAddr) := by
  cases rdev with
  | panCoordinator => exact ⟨rfl, fun _ => rfl, fun h => nomatch h.1⟩
  | router =>
    unfold linkNeighborReq
    dsimp only
    by_cases hp : m.parentNeighborID = (m.neighbourhood i).addr16b
    · rw [if_pos hp]
      have hmarks : ((m.loseParent .router).resetTables).neighborTable = m.neighborTable := by
        rw [resetTables_eq]
        rfl
      have hidx : ((m.loseParent .router).resetTables).parentIndex = noParent := by
        rw [resetTables_eq]
        rfl
      rw [if_neg (not_not.mpr hidx)]
      refine ⟨hmarks, fun hno => absurd ⟨rfl, hp⟩ hno, fun _ => ⟨hidx, fun j hj => ?_⟩⟩
      rw [resetTables_slot _ hj]
      rfl
    · rw [if_neg hp]
      refine ⟨?_, fun _ => ?_, fun h => absurd h.2 hp⟩
      · split
        · rfl
        · rfl
      · split
        · rfl
        · rfl

/-- A link packet of a node with a free slot is processed to the end by every receiver that knows the
sender or has a free slot: it stores the sender's distance, marks the slot, and uses the signal
strength for itself if and only if the sender has recorded one; a router clears its table instead if
it is the parent that has lost its route. -/
theorem linkPacket_roundTrip (sdev rdev : DeviceType) (n r : Node) (p : Packet)
    (hp : Received (linkPacketCreate sdev n).linkPkt p)
    (hfree : ∃ k < neighbourhoodSize, (n.neighbourhood k).addr16b = unusedAddr)
    (hroom : ∃ k < neighbourhoodSize, (r.neighbourhood k).addr16b = n.addr16 ∨
      (r.neighbourhood k).addr16b = unusedAddr) :
    ∃ i, RoundTripped rdev n r p i := by
  obtain ⟨cnt, _, hlt, hsize, hc⟩ := linkPacketCreate_carries sdev n
  replace hc : Carries sdev n cnt p := by
    apply hc.of_bytes
    intro k hk hlt
    exact hp k (by simp only [macFrameCtrl]; omega) (by rw [hsize]; simp only [macFrameCtrl]; omega)
  have hcnt : (p.packet unetCtrlMsgNbCount).toNat < neighbourhoodSize := by
    rw [hc.count]
    exact hlt hfree
  rcases linkNeighborTableFind_cases r p with ⟨_, hfind⟩ | ⟨i, hi, m, hfind, _, haddr, _, _, hfr⟩
  · -- neither the sender nor a free slot would be found
    obtain ⟨k, hk, hslot⟩ := hroom
    obtain ⟨hnone, hnofree⟩ := linkNeighborTableFind_none hfind
    rw [hc.addr] at hnone
    rcases hslot with hslot | hslot
    · exact absurd hslot (findNeighbor_eq_none hnone hk)
    · exact absurd hslot (findNeighbor_eq_none hnofree hk)
  · rw [hc.addr] at haddr
    have hself : m.addr16 = r.addr16 := by
      rw [hfr]
      rfl
    have hparent : m.parentNeighborID = r.parentNeighborID := by rw [hfr]
    have hat : slotAtArrival r p i = m.neighbourhood i := by rw [slotAtArrival, hfind]
    have hproc := linkPacketProcess_listed rdev hfind hcnt
    rw [hc.count, hc.rssi, hself, hc.type] at hproc
    have hstored := Stored.of_learn (n.recordedRSSI r.addr16) haddr hc.distance
    have hid := learnMyRSSI_parentNeighborID (m.setNeighbor i ((m.neighbourhood i).heard p)) i
      (n.recordedRSSI r.addr16)
    generalize (m.setNeighbor i ((m.neighbourhood i).heard p)).learnMyRSSI i
      (n.recordedRSSI r.addr16) = k at hproc hstored hid
    have hmark := markActive_getLsbD k hi
    have hid : (k.markActive i).parentNeighborID = r.parentNeighborID := hid.trans hparent
    have hka : ((k.markActive i).neighbourhood i).addr16b = n.addr16 := hstored.addr
    rw [← hat] at hstored
    have hslot : i < neighbourhoodSize ∧ (linkNeighborTableFind r p).1 = some i := by
      rw [hfind]
      exact ⟨hi, rfl⟩
    refine ⟨i, ?_⟩
    by_cases hd : n.distance = noRouteToBasestation
    · -- a request
      have htype := (linkPacketType_eq_neighborReq sdev).mpr hd
      rw [htype, if_neg (by decide), if_neg (by decide), if_pos rfl] at hproc
      obtain ⟨hmarks, hkept, hlost⟩ := linkNeighborReq_cases rdev (k.markActive i) i
      rw [hid, hka] at hkept hlost
      rw [← hproc] at hmarks hkept hlost
      refine ⟨hslot, hmarks ▸ hmark, fun hno => ?_, fun hl => hlost ⟨hl.1, hl.2.2⟩⟩
      rw [hkept fun h => hno ⟨h.1, hd, h.2⟩]
      exact hstored
    · -- an advertisement
      have hno : ¬ ParentLost rdev n r := fun h => hd h.2.1
      have hswitch : (linkPacketProcess rdev r p).neighborTable = (k.markActive i).neighborTable ∧
          (linkPacketProcess rdev r p).neighbourhood = (k.markActive i).neighbourhood := by
        have htype : (linkPacketType sdev n).1 = neighborAdv ∨
            (linkPacketType sdev n).1 = neighborAdvReset := by
          unfold linkPacketType
          rw [if_neg hd]
          split
          · exact .inr rfl
          · exact .inl rfl
        have hkeeps : ∀ x, (linkNodeDistanceUpdate rdev x i).neighborTable = x.neighborTable ∧
            (linkNodeDistanceUpdate rdev x i).neighbourhood = x.neighbourhood :=
          fun x => ⟨linkParentSwitch_marks rdev x, linkParentSwitch_slots rdev x⟩
        rcases htype with ht | ht
        · rw [hproc, ht, if_pos rfl]
          exact hkeeps (k.markActive i)
        · rw [hproc, ht, if_neg (by decide), if_pos rfl, Node.postLinkPacketTx_neighbourhood,
            postLinkPacketTx_neighborTable]
          exact hkeeps (k.markActive i)
      refine ⟨hslot, ?_, fun _ => ?_, fun hl => absurd hl hno⟩
      · rw [hswitch.1]
        exact hmark
      · rw [hswitch.2]
        exact hstored

/-- A router with the address 5 that has the first `k` slots in use; the neighbours have the
addresses from 9 on. -/
def listingNode (distance : U8) (k : Nat) : Node :=
  { (default : Node) with
    addr16L := 5
    distance := distance
    neighbourhood := fun i =>
      { (default : UnetNeighborhood) with
        addr16b := if i < k then 9 + BitVec.ofNat 16 i else unusedAddr
        neighborRSSI := 40 } }

def hearingNode : Node := linkInit .router { (default : Node) with addr16L := 9 }

theorem linkPacket_roundTrip_seven :
    ∃ i, RoundTripped .router (listingNode 2 7) hearingNode
      (linkPacketCreate .router (listingNode 2 7)).linkPkt i := by
  apply linkPacket_roundTrip .router .router (listingNode 2 7) hearingNode
  · exact fun _ _ _ => rfl
  · exact ⟨7, by decide, by decide⟩
  · exact ⟨0, by decide, .inr (by decide)⟩

/-- The receiver of a list with eight entries marks no slot; and a router that hears that its parent
has lost its route keeps no slot. -/
theorem linkPacket_roundTrip_fails :
    (¬ ∀ (sdev rdev : DeviceType) (n r : Node) (p : Packet),
      Received (linkPacketCreate sdev n).linkPkt p → n.addr16 ≠ unusedAddr → ¬ ParentLost rdev n r →
      (∃ k < neighbourhoodSize, (r.neighbourhood k).addr16b = n.addr16 ∨
        (r.neighbourhood k).addr16b = unusedAddr) →
      ∃ i < neighbourhoodSize, (linkPacketProcess rdev r p).neighborTable.getLsbD i = true ∧
        Stored n (slotAtArrival r p i) (n.recordedRSSI r.addr16)
          ((linkPacketProcess rdev r p).neighbourhood i)) ∧
    ¬ ∀ (sdev rdev : DeviceType) (n r : Node) (p : Packet),
      Received (linkPacketCreate sdev n).linkPkt p → n.addr16 ≠ unusedAddr →
      (∃ k < neighbourhoodSize, (n.neighbourhood k).addr16b = unusedAddr) →
      (∃ k < neighbourhoodSize, (r.neighbourhood k).addr16b = n.addr16 ∨
        (r.neighbourhood k).addr16b = unusedAddr) →
      ∃ i < neighbourhoodSize, (linkPacketProcess rdev r p).neighborTable.getLsbD i = true ∧
        Stored n (slotAtArrival r p i) (n.recordedRSSI r.addr16)
          ((linkPacketProcess rdev r p).neighbourhood i) := by
  refine ⟨fun h => ?_, fun h => ?_⟩
  · obtain ⟨i, _, hmark, _⟩ := h .router .router (listingNode 2 8) hearingNode
      (linkPacketCreate .router (listingNode 2 8)).linkPkt (fun _ _ _ => rfl) (by decide)
      (fun hl => absurd hl.2.1 (by decide)) ⟨0, by decide, .inr (by decide)⟩
    have hnone : (linkPacketProcess .router hearingNode
        (linkPacketCreate .router (listingNode 2 8)).linkPkt).neighborTable = 0 := by decide +kernel
    rw [hnone] at hmark
    simp at hmark
  · let child := { hearingNode with parentNeighborID := 5 }
    obtain ⟨i, hi, _, hs⟩ := h .router .router (listingNode 0xFF 1) child
      (linkPacketCreate .router (listingNode 0xFF 1)).linkPkt (fun _ _ _ => rfl) (by decide)
      ⟨1, by decide, by decide⟩ ⟨0, by decide, .inr (by decide)⟩
    have hcleared : ∀ i < neighbourhoodSize, ((linkPacketProcess .router child
        (linkPacketCreate .router (listingNode 0xFF 1)).linkPkt).neighbourhood i).addr16b ≠
          (listingNode 0xFF 1).addr16 := by decide +kernel
    exact hcleared i hi hs.addr

end Unet4Cooja
