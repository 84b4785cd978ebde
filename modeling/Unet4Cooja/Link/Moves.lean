import Unet4Cooja.Link.Invariant

/-!
# How a packet or a check moves a node in the tree

* `Moved` : a node keeps its parent, loses it, or chooses an offered one;
* `linkPacketProcess_moved`, `linkVerifyNeighbourhood_moved` : what the two calls offer, and when a
  router keeps its depth or a smaller one;
* `linkPacketProcess_slots`, `linkVerifyNeighbourhood_slots` : the table holds nothing but old
  entries and the packet's own;
* `linkPacketCreate_packet` : a link packet carries the address and the distance of its node.
-/

namespace Unet4Cooja
open Lib

/-- `n` became `n'`: it kept its parent, lost it, or chose one that was offered. If `Keeps`, then a
choice does not make it deeper. -/
inductive Moved (Offers : U16 → U8 → Prop) (Keeps : Prop) (n n' : Node) : Prop
  | kept : n'.parentIndex = n.parentIndex → n'.distance = n.distance →
      (n.parentIndex ≠ noParent → n'.parent.addr16b = n.parent.addr16b) → Moved Offers Keeps n n'
  | lost : n'.parentIndex = noParent → Moved Offers Keeps n n'
  | chose (d : U8) : n'.parentIndex ≠ noParent → n'.distance.toNat = d.toNat + 1 →
      Offers n'.parent.addr16b d →
      (Keeps → n.parentIndex ≠ noParent ∧ n'.distance ≤ n.distance) → Moved Offers Keeps n n'

/-- A symmetric slot offers its address and distance. -/
def Offers (n : Node) (a : U16) (d : U8) : Prop :=
  ∃ i < neighbourhoodSize, (n.neighbourhood i).symmetric = true ∧
    (n.neighbourhood i).addr16b = a ∧ (n.neighbourhood i).neighborDistance = d

/-- What the symmetric slots offer once `p` is stored. -/
def OffersAfter (n : Node) (p : Packet) (a : U16) (d : U8) : Prop :=
  (∃ i, (linkNeighborTableFind n p).1 = some i ∧ symmetricAfter n p i = true ∧
    a = p.linkAddr16 ∧ d = p.packet unetCtrlMsgDistance) ∨
  (a ≠ p.linkAddr16 ∧ Offers n a d)

/-- The router has a parent whose stored distance is not lost once `p` is stored. -/
def KeepsParent (n : Node) (p : Packet) : Prop :=
  n.parentIndex ≠ noParent ∧
    (if n.parent.addr16b = p.linkAddr16 then p.packet unetCtrlMsgDistance
      else n.parent.neighborDistance) ≠ noRouteToBasestation

def HasParent (n : Node) : Prop :=
  n.parentIndex ≠ noParent ∧ n.parent.symmetric = true ∧ n.distance ≠ 0xFF

section
variable {O : U16 → U8 → Prop} {K : Prop} {R : Prop} {n m n' : Node} {p : Packet} {i : Nat}

theorem Moved.of_same (h : Moved O K n m) (hs : SameKinship m n') : Moved O K n n' := by
  have hpa : n'.parent.addr16b = m.parent.addr16b := by
    rw [Node.parent, hs.parentIndex]
    exact hs.addr _
  cases h with
  | kept hi hd hp =>
    exact .kept (hs.parentIndex.trans hi) (hs.distance.trans hd) fun hne => hpa.trans (hp hne)
  | lost hi => exact .lost (hs.parentIndex.trans hi)
  | chose d hne hd ho hk =>
    rw [← hs.parentIndex] at hne
    rw [← hs.distance] at hd hk
    rw [← hpa] at ho
    exact .chose d hne hd ho hk

theorem Moved.of_start (h : Moved O K m n') (hi : m.parentIndex = n.parentIndex)
    (hd : m.distance = n.distance)
    (hpa : n.parentIndex ≠ noParent → m.parent.addr16b = n.parent.addr16b) : Moved O K n n' := by
  cases h with
  | kept hi' hd' hp =>
    refine .kept (hi'.trans hi) (hd'.trans hd) fun hne => ?_
    exact (hp (by rwa [hi])).trans (hpa hne)
  | lost hi' => exact .lost hi'
  | chose d hne hd' ho hk =>
    rw [hi, hd] at hk
    exact .chose d hne hd' ho hk

theorem Moved.of_detached (h : Moved O K m n') (hi : m.parentIndex = noParent) (hK : ¬ K) :
    Moved O K n n' := by
  cases h with
  | kept hi' _ _ => exact .lost (hi'.trans hi)
  | lost hi' => exact .lost hi'
  | chose d hne hd ho _ => exact .chose d hne hd ho fun hk => absurd hk hK

theorem moved_linkParentSwitch
    (hoff : ∀ i < neighbourhoodSize, (m.neighbourhood i).symmetric = true →
      O (m.neighbourhood i).addr16b (m.neighbourhood i).neighborDistance)
    (hkeep : K → m.parentIndex ≠ noParent ∧ m.parent.neighborDistance ≠ noRouteToBasestation) :
    Moved O K m (linkParentSwitch .router m) := by
  rcases linkParentSwitch_cases .router m with ⟨_, he⟩ | ⟨_, i, hi, d, rssi, ev, he, hs, hdep, hle⟩
  · rw [he]
    unfold Node.dropLostParent
    split
    · exact .lost rfl
    · exact .kept rfl rfl fun _ => rfl
  · have hidx := slotIndex_toNat hi
    have haddr : (linkParentSwitch .router m).parent.addr16b = (m.neighbourhood i).addr16b := by
      rw [he]
      show (m.neighbourhood (BitVec.ofNat 8 i).toNat).addr16b = _
      rw [hidx]
    refine .chose (m.neighbourhood i).neighborDistance ?_ ?_ ?_ fun hK => ?_
    · rw [he]
      exact ne_noParent_of_lt (show (BitVec.ofNat 8 i).toNat < _ by rwa [hidx])
    · rw [he]
      exact hdep
    · rw [haddr]
      exact hoff i hi hs
    · obtain ⟨hne, hnl⟩ := hkeep hK
      have hdrop : m.dropLostParent .router = m := if_neg fun hc => hnl hc.2
      rw [hdrop] at hle
      rw [he]
      exact ⟨hne, hle⟩

/-! ## Received packets -/

theorem heard_offers (hf : (linkNeighborTableFind n p).1 = some i) (hm : Heard n p i m)
    (hn : SlotsInv R n) {j : Nat} (hj : j < neighbourhoodSize)
    (hs : (m.neighbourhood j).symmetric = true) :
    OffersAfter n p (m.neighbourhood j).addr16b (m.neighbourhood j).neighborDistance := by
  by_cases hji : j = i
  · subst hji
    rw [hm.symmetric] at hs
    exact .inl ⟨j, hf, hs, hm.addr, hm.distance⟩
  · rw [hm.others j hji] at hs ⊢
    refine .inr ⟨fun ha => ?_, j, hj, hs, rfl, rfl⟩
    -- the sender has one slot only
    rcases hm.owner with ho | ⟨hnone, _⟩
    · exact hji (hn.unique j hj i hm.slot_lt (ha.trans ho.symm) (hn.eligible j hj hs).1)
    · exact findNeighbor_eq_none hnone hj ha

theorem heard_parentDistance (hn : ParentInv R n) (hm : Heard n p i m)
    (hne : n.parentIndex ≠ noParent) :
    m.parent.neighborDistance =
      if n.parent.addr16b = p.linkAddr16 then p.packet unetCtrlMsgDistance
      else n.parent.neighborDistance := by
  rw [Node.parent, hm.parentIndex]
  by_cases hi : n.parentIndex.toNat = i
  · have ha : n.parent.addr16b = p.linkAddr16 := by
      rw [← hn.heard_parent hm hne, Node.parent, hm.parentIndex, hi, hm.addr]
    rw [if_pos ha, hi, hm.distance]
  · have ha : n.parent.addr16b ≠ p.linkAddr16 := by
      intro ha
      rcases hm.owner with ho | ⟨hnone, _⟩
      · exact hi (hn.slots.unique _ (hn.index_lt hne) i hm.slot_lt (ha.trans ho.symm)
          (hn.occupied hne))
      · exact findNeighbor_eq_none hnone (hn.index_lt hne) ha
    rw [if_neg ha, hm.others _ hi, Node.parent]

theorem linkPacketProcess_moved (hn : ParentInv R n) :
    Moved (fun a d => OffersAfter n p a d ∧
        (p.packet unetCtrlMsgPacketType = neighborAdv ∨
          p.packet unetCtrlMsgPacketType = neighborAdvReset) ∧
        (p.packet unetCtrlMsgNbCount).toNat < neighbourhoodSize)
      (KeepsParent n p) n (linkPacketProcess .router n p) := by
  rcases linkPacketProcess_cases .router n p with ⟨_, he⟩ | ⟨i, m, hf, hm, hd⟩
  · rw [he]
    exact .kept rfl rfl fun _ => rfl
  · have hkeep : KeepsParent n p →
        m.parentIndex ≠ noParent ∧ m.parent.neighborDistance ≠ noRouteToBasestation := by
      rintro ⟨hne, hd⟩
      rw [hm.parentIndex, heard_parentDistance hn hm hne]
      exact ⟨hne, hd⟩
    have hkept : Moved (fun a d => OffersAfter n p a d ∧
        (p.packet unetCtrlMsgPacketType = neighborAdv ∨
          p.packet unetCtrlMsgPacketType = neighborAdvReset) ∧
        (p.packet unetCtrlMsgNbCount).toNat < neighbourhoodSize) (KeepsParent n p) n m :=
      .kept hm.parentIndex hm.node_distance (hn.heard_parent hm)
    generalize linkPacketProcess .router n p = r at hd ⊢
    cases hd with
    | tooMany _ => exact hkept
    | adv hcnt ht =>
      exact (moved_linkParentSwitch (fun j hj hs =>
        ⟨heard_offers hf hm hn.slots hj hs, .inl ht, hcnt⟩) hkeep).of_start hm.parentIndex
          hm.node_distance (hn.heard_parent hm)
    | advReset hcnt ht =>
      exact ((moved_linkParentSwitch (fun j hj hs =>
        ⟨heard_offers hf hm hn.slots hj hs, .inr ht, hcnt⟩) hkeep).of_start hm.parentIndex
          hm.node_distance (hn.heard_parent hm)).of_same (.postLinkPacketTx _)
    | req _ _ =>
      unfold linkNeighborReq
      dsimp only
      by_cases hpar : m.parentNeighborID = (m.neighbourhood i).addr16b
      · rw [if_pos hpar]
        exact .lost (by split <;> rfl)
      · rw [if_neg hpar]
        split
        · exact hkept.of_same (.postLinkPacketTx m)
        · exact hkept
    | other _ _ => exact hkept

theorem linkNeighborReq_slots (dev : DeviceType) (m : Node) (i : Nat) {k : Nat}
    (hk : k < neighbourhoodSize) :
    (linkNeighborReq dev m i).neighbourhood k = m.neighbourhood k ∨
      (linkNeighborReq dev m i).neighbourhood k = (m.neighbourhood k).freed := by
  cases dev with
  | panCoordinator => exact .inl rfl
  | router =>
    unfold linkNeighborReq
    dsimp only
    by_cases hpar : m.parentNeighborID = (m.neighbourhood i).addr16b
    · rw [if_pos hpar]
      have hfree : (m.loseParent .router).resetTables.neighbourhood k = (m.neighbourhood k).freed :=
        resetTables_slot _ hk
      exact .inr (by split <;> exact hfree)
    · rw [if_neg hpar]
      exact .inl (by split <;> rfl)

theorem Dispatched.slots {dev : DeviceType} {r : Node} (hd : Dispatched dev p i m r) {k : Nat}
    (hk : k < neighbourhoodSize) :
    r.neighbourhood k = m.neighbourhood k ∨ r.neighbourhood k = (m.neighbourhood k).freed := by
  cases hd with
  | tooMany _ => exact .inl rfl
  | adv _ _ => exact .inl (congrFun (linkParentSwitch_slots dev m) k)
  | advReset _ _ =>
    rw [Node.postLinkPacketTx_neighbourhood, linkParentSwitch_slots]
    exact .inl rfl
  | req _ _ => exact linkNeighborReq_slots dev m i hk
  | other _ _ => exact .inl rfl

theorem linkNeighborReq_addr16 (dev : DeviceType) (m : Node) (i : Nat) :
    (linkNeighborReq dev m i).addr16 = m.addr16 := by
  cases dev with
  | panCoordinator => rfl
  | router =>
    have hreset : (m.loseParent .router).resetTables.addr16 = m.addr16 := resetTables_addr16 _
    unfold linkNeighborReq
    dsimp only
    by_cases hpar : m.parentNeighborID = (m.neighbourhood i).addr16b
    · rw [if_pos hpar]
      split
      · exact hreset
      · exact hreset
    · rw [if_neg hpar]
      split <;> rfl

/-- The table after a packet: free slots, old entries and the packet's own. -/
theorem linkPacketProcess_slots (dev : DeviceType) (n : Node) (p : Packet) {k : Nat}
    (hk : k < neighbourhoodSize) :
    ((linkPacketProcess dev n p).neighbourhood k).addr16b = unusedAddr ∨
    (((linkPacketProcess dev n p).neighbourhood k).addr16b = (n.neighbourhood k).addr16b ∧
      ((linkPacketProcess dev n p).neighbourhood k).neighborDistance =
        (n.neighbourhood k).neighborDistance) ∨
    (((linkPacketProcess dev n p).neighbourhood k).addr16b = p.linkAddr16 ∧
      ((linkPacketProcess dev n p).neighbourhood k).neighborDistance =
        p.packet unetCtrlMsgDistance) := by
  rcases linkPacketProcess_cases dev n p with ⟨_, he⟩ | ⟨i, m, _, hm, hd⟩
  · rw [he]
    exact .inr (.inl ⟨rfl, rfl⟩)
  · rcases hd.slots hk with h | h
    · rw [h]
      by_cases hki : k = i
      · subst hki
        exact .inr (.inr ⟨hm.addr, hm.distance⟩)
      · rw [hm.others k hki]
        exact .inr (.inl ⟨rfl, rfl⟩)
    · rw [h]
      exact .inl rfl

theorem linkPacketProcess_addr16 (dev : DeviceType) (n : Node) (p : Packet) :
    (linkPacketProcess dev n p).addr16 = n.addr16 := by
  rcases linkPacketProcess_cases dev n p with ⟨_, he⟩ | ⟨i, m, _, hm, hd⟩
  · rw [he]
  · have hma : m.addr16 = n.addr16 := by rw [hm.frame]; rfl
    have hsw : (linkParentSwitch dev m).addr16 = m.addr16 := by
      obtain ⟨d, idx, id, rssi, ev, he⟩ := linkParentSwitch_frame dev m
      rw [he]
      rfl
    generalize linkPacketProcess dev n p = r at hd ⊢
    cases hd with
    | tooMany _ => exact hma
    | adv _ _ => exact hsw.trans hma
    | advReset _ _ => exact (Node.postLinkPacketTx_addr16 _).trans (hsw.trans hma)
    | req _ _ => exact (linkNeighborReq_addr16 dev m i).trans hma
    | other _ _ => exact hma

theorem linkPacketProcess_coordinator (hi : n.parentIndex = noParent) (hd : n.distance = 0) :
    (linkPacketProcess .panCoordinator n p).parentIndex = noParent ∧
      (linkPacketProcess .panCoordinator n p).distance = 0 := by
  rcases linkPacketProcess_cases .panCoordinator n p with ⟨_, he⟩ | ⟨i, m, _, hm, hdis⟩
  · rw [he]
    exact ⟨hi, hd⟩
  · have hmi : m.parentIndex = noParent := hm.parentIndex.trans hi
    have hmd : m.distance = 0 := hm.node_distance.trans hd
    have hdrop : m.dropLostParent .panCoordinator = m := if_neg fun hc => hc.1 hmi
    have hsw : linkParentSwitch .panCoordinator m = m := by
      rcases linkParentSwitch_cases .panCoordinator m with ⟨_, he⟩ | ⟨⟨j, _, hc⟩, _⟩
      · rw [he, hdrop]
      · -- no distance is below the coordinator's
        have hlt := hc.2.1
        rw [hdrop, Node.scanStart, hmd] at hlt
        exact absurd hlt (BitVec.not_lt_zero)
    generalize linkPacketProcess .panCoordinator n p = r at hdis ⊢
    cases hdis with
    | tooMany _ => exact ⟨hmi, hmd⟩
    | adv _ _ => rw [hsw]; exact ⟨hmi, hmd⟩
    | advReset _ _ => rw [hsw]; exact ⟨hmi, hmd⟩
    | req _ _ => exact ⟨hmi, hmd⟩
    | other _ _ => exact ⟨hmi, hmd⟩

/-! ## The periodic check -/

theorem checked_offers {reset : Bool} (hcheck : Checked n neighbourhoodSize (reset, m)) {i : Nat}
    (hi : i < neighbourhoodSize) (hs : (m.neighbourhood i).symmetric = true) :
    Offers n (m.neighbourhood i).addr16b (m.neighbourhood i).neighborDistance := by
  rcases hcheck.slots i with h | h
  · change m.neighbourhood i = _ at h
    rw [h] at hs ⊢
    exact ⟨i, hi, hs, rfl, rfl⟩
  · change m.neighbourhood i = _ at h
    rw [h] at hs
    cases hs

theorem linkVerifyNeighbourhood_moved (hn : ParentInv R n) :
    Moved (Offers n) (HasParent n) n (linkVerifyNeighbourhood .router n) := by
  obtain ⟨reset, m, hcheck, hm, hsame⟩ := linkVerifyNeighbourhood_cases hn
  refine Moved.of_same ?_ hsame
  have hsearch : ¬ HasParent n → Moved (Offers n) (HasParent n) m (linkParentSwitch .router m) :=
    fun hK => moved_linkParentSwitch (fun i hi hs => checked_offers hcheck hi hs)
      fun hk => absurd hk hK
  rcases hcheck.parent with ⟨hreset, hpi, hd, hid⟩ | ⟨hno, hd, _, hflag⟩
  · change reset = false at hreset
    change m.parentIndex = n.parentIndex at hpi
    change m.distance = n.distance at hd
    have hpa : n.parentIndex ≠ noParent → m.parent.addr16b = n.parent.addr16b := by
      intro hne
      rw [hm.parentID (by rwa [hpi]), hn.parentID hne]
      exact hid
    rw [hreset, if_neg Bool.false_ne_true]
    by_cases hff : m.distance = 0xFF
    · rw [if_pos hff]
      refine (hsearch fun hk => ?_).of_start hpi hd hpa
      exact hk.2.2 (hd.symm.trans hff)
    · rw [if_neg hff]
      exact .kept hpi hd hpa
  · change m.parentIndex = noParent at hno
    change m.distance = 0xFF at hd
    rw [if_pos hd]
    by_cases hreset : reset = true
    · rw [if_pos hreset, resetTables_eq]
      exact .lost hno
    · rw [if_neg hreset]
      have hK : ¬ HasParent n := fun hk => hreset (hflag hk.1 hk.2.1)
      exact (hsearch hK).of_detached hno hK

theorem linkVerifyNeighbor_slots (dev : DeviceType) (i k : Nat) (s : Bool × Node) :
    (linkVerifyNeighbor dev i s).2.neighbourhood k = s.2.neighbourhood k ∨
      (linkVerifyNeighbor dev i s).2.neighbourhood k = (s.2.neighbourhood k).freed := by
  obtain ⟨reset, m⟩ := s
  have hslots : (linkVerifyNeighbor dev i (reset, m)).2.neighbourhood =
      if m.isSilent i then Function.update m.neighbourhood i (m.neighbourhood i).freed
      else m.neighbourhood := by
    rw [linkVerifyNeighbor_eq]
    split_ifs <;> rfl
  rw [hslots]
  split
  · by_cases hki : k = i
    · subst hki
      exact .inr (Function.update_self ..)
    · exact .inl (Function.update_of_ne hki ..)
  · exact .inl rfl

theorem verifyLoop_frame (dev : DeviceType) (n : Node) (k : Nat) :
    (∀ j, (forRange k (linkVerifyNeighbor dev) (false, n)).2.neighbourhood j = n.neighbourhood j ∨
      (forRange k (linkVerifyNeighbor dev) (false, n)).2.neighbourhood j =
        (n.neighbourhood j).freed) ∧
    (forRange k (linkVerifyNeighbor dev) (false, n)).2.addr16 = n.addr16 := by
  refine forRange_invariant (I := fun s : Bool × Node => (∀ j, s.2.neighbourhood j =
    n.neighbourhood j ∨ s.2.neighbourhood j = (n.neighbourhood j).freed) ∧ s.2.addr16 = n.addr16)
    ⟨fun _ => .inl rfl, rfl⟩ fun i _ s hs => ⟨fun j => ?_, ?_⟩
  · rcases linkVerifyNeighbor_slots dev i j s with h | h
    · rw [h]
      exact hs.1 j
    · rw [h]
      rcases hs.1 j with hj | hj
      · exact .inr (by rw [hj])
      · exact .inr (by rw [hj]; rfl)
  · obtain ⟨reset, m⟩ := s
    rw [← hs.2, linkVerifyNeighbor_eq]
    split_ifs <;> rfl

theorem linkVerifyNeighbourhood_slots (dev : DeviceType) (n : Node) {k : Nat}
    (hk : k < neighbourhoodSize) :
    (linkVerifyNeighbourhood dev n).neighbourhood k = n.neighbourhood k ∨
      (linkVerifyNeighbourhood dev n).neighbourhood k = (n.neighbourhood k).freed := by
  have hloop := (verifyLoop_frame dev n neighbourhoodSize).1 k
  unfold linkVerifyNeighbourhood
  generalize forRange neighbourhoodSize (linkVerifyNeighbor dev) (false, n) = s at hloop ⊢
  obtain ⟨reset, m⟩ := s
  dsimp only at hloop ⊢
  split_ifs
  · rw [resetTables_slot m hk]
    rcases hloop with h | h
    · exact .inr (by rw [h])
    · exact .inr (by rw [h]; rfl)
  · rw [linkParentSwitch_slots]
    exact hloop
  · exact hloop

theorem linkVerifyNeighbourhood_addr16 (dev : DeviceType) (n : Node) :
    (linkVerifyNeighbourhood dev n).addr16 = n.addr16 := by
  have hloop := (verifyLoop_frame dev n neighbourhoodSize).2
  unfold linkVerifyNeighbourhood
  generalize forRange neighbourhoodSize (linkVerifyNeighbor dev) (false, n) = s at hloop ⊢
  obtain ⟨reset, m⟩ := s
  dsimp only at hloop ⊢
  rw [← hloop, Node.neighborTable_addr16]
  split_ifs
  · exact resetTables_addr16 m
  · obtain ⟨d, idx, id, rssi, ev, he⟩ := linkParentSwitch_frame dev m
    rw [he]
    rfl
  · rfl

theorem linkVerifyNeighbourhood_coordinator (n : Node) :
    (linkVerifyNeighbourhood .panCoordinator n).parentIndex = n.parentIndex ∧
      (linkVerifyNeighbourhood .panCoordinator n).distance = n.distance := by
  have hloop : (forRange neighbourhoodSize (linkVerifyNeighbor .panCoordinator)
        (false, n)).2.parentIndex = n.parentIndex ∧
      (forRange neighbourhoodSize (linkVerifyNeighbor .panCoordinator)
        (false, n)).2.distance = n.distance := by
    refine forRange_invariant (I := fun s : Bool × Node =>
      s.2.parentIndex = n.parentIndex ∧ s.2.distance = n.distance) ⟨rfl, rfl⟩ fun i _ s hs => ?_
    obtain ⟨reset, m⟩ := s
    have hno : ¬ m.isParentSlot .panCoordinator i := fun h => DeviceType.noConfusion h.1
    rw [linkVerifyNeighbor_eq, if_neg fun h => hno h.1]
    split
    · exact hs
    · exact hs
  unfold linkVerifyNeighbourhood
  generalize forRange neighbourhoodSize (linkVerifyNeighbor .panCoordinator) (false, n) = s
    at hloop ⊢
  obtain ⟨reset, m⟩ := s
  have hcond : ¬ (DeviceType.panCoordinator = .router ∧
      m.distance = nodeDistanceInit .panCoordinator) := fun h => DeviceType.noConfusion h.1
  dsimp only at hloop ⊢
  rw [if_neg hcond]
  exact hloop

/-! ## Link packets -/

theorem linkPacketAddNeighbor_below (slots : Nat → UnetNeighborhood) (i : Nat) (s : Packet × Nat)
    {k : Nat} (hk : k < unetCtrlMsgNbStart) :
    (linkPacketAddNeighbor slots i s).1.packet k = s.1.packet k := by
  have hne : ∀ j, unetCtrlMsgNbStart ≤ j → k ≠ j := fun j hj => (Nat.lt_of_lt_of_le hk hj).ne
  unfold linkPacketAddNeighbor
  dsimp only
  split
  · rw [Packet.setByte_of_ne _ _ (hne _ (by omega)), Packet.setByte_of_ne _ _ (hne _ (by omega)),
      Packet.setByte_of_ne _ _ (hne _ (by omega))]
  · rfl

theorem linkPacketCreate_body (dev : DeviceType) (n : Node) {k : Nat} (hk : 32 ≤ k) :
    (linkPacketCreate dev n).linkPkt.packet k = (linkPacketBody dev n).1.packet k := by
  unfold linkPacketCreate
  dsimp only
  rw [ieee802154HeaderSet_packet _ _ _ _ (by simp only [llcProto]; omega)]
  exact unetHeaderSet_packet _ _ _ _ _ _ _ hk

theorem linkPacketCreate_packet (dev : DeviceType) (n : Node) :
    (linkPacketCreate dev n).linkPkt.linkAddr16 = n.addr16 ∧
      (linkPacketCreate dev n).linkPkt.packet unetCtrlMsgDistance = n.distance := by
  have hbody : ∀ k, 32 ≤ k → (linkPacketCreate dev n).linkPkt.packet k =
      (linkPacketBody dev n).1.packet k := fun k hk => linkPacketCreate_body dev n hk
  have hloop : ∀ q k, k < unetCtrlMsgNbStart →
      (forRange neighbourhoodSize (linkPacketAddNeighbor n.neighbourhood) (q, 0)).1.packet k =
        q.packet k :=
    fun q k hk => forRange_frame (fun s : Packet × Nat => s.1.packet k)
      fun i _ s => linkPacketAddNeighbor_below n.neighbourhood i s hk
  have hbytes : (linkPacketBody dev n).1.packet unetCtrlMsgAddr16H = n.addr16H ∧
      (linkPacketBody dev n).1.packet unetCtrlMsgAddr16L = n.addr16L ∧
      (linkPacketBody dev n).1.packet unetCtrlMsgDistance = n.distance := by
    unfold linkPacketBody
    dsimp only
    refine ⟨?_, ?_, ?_⟩ <;>
      rw [Packet.setByte_of_ne _ _ (by decide), Packet.setByte_of_ne _ _ (by decide),
        hloop _ _ (by decide)] <;>
      simp
  refine ⟨?_, ?_⟩
  · rw [Packet.linkAddr16, hbody _ (by decide), hbody _ (by decide), hbytes.1, hbytes.2.1]
    rfl
  · rw [hbody _ (by decide), hbytes.2.2]

end

end Unet4Cooja
