import Unet4Cooja.Link.Spec

/-!
# What the link layer of a router keeps

* `SlotsInv` : occupied slots have different addresses and symmetric slots are occupied;
* `ParentInv` : a parent is an occupied slot with the address in `ParentNeighborID`, and a router
  without a parent has no depth.

The parameter `R` says that lost routes are refused: under it no symmetric slot advertises the
distance `ROUTE_TO_BASESTATION_LOST` and a router without a depth has no parent.
-/

namespace Unet4Cooja
open Lib

/-- The facts about slots that the choice of a parent relies on. -/
structure SlotsInv (R : Prop) (n : Node) : Prop where
  eligible : ∀ i < neighbourhoodSize, (n.neighbourhood i).symmetric = true →
    (n.neighbourhood i).addr16b ≠ unusedAddr ∧
      (R → (n.neighbourhood i).neighborDistance ≠ routeToBasestationLost)
  unique : ∀ i < neighbourhoodSize, ∀ j < neighbourhoodSize,
    (n.neighbourhood i).addr16b = (n.neighbourhood j).addr16b →
      (n.neighbourhood i).addr16b ≠ unusedAddr → i = j

structure ParentInv (R : Prop) (n : Node) : Prop where
  index_lt : n.parentIndex ≠ noParent → n.parentIndex.toNat < neighbourhoodSize
  occupied : n.parentIndex ≠ noParent → n.parent.addr16b ≠ unusedAddr
  parentID : n.parentIndex ≠ noParent → n.parent.addr16b = n.parentNeighborID
  detached : n.parentIndex = noParent → n.distance = 0xFF
  lost : R → n.distance = 0xFF → n.parentIndex = noParent
  slots : SlotsInv R n

section
variable {R : Prop} {n m : Node} {p : Packet} {i : Nat}

/-- Whether `p` may make its sender's slot symmetric. -/
def MayLink (R : Prop) (n : Node) (p : Packet) (i : Nat) : Prop :=
  symmetricAfter n p i = true →
    p.linkAddr16 ≠ unusedAddr ∧ (R → p.packet unetCtrlMsgDistance ≠ routeToBasestationLost)

/-! ## Slots -/

theorem slotIndex_toNat (hi : i < neighbourhoodSize) : (BitVec.ofNat 8 i).toNat = i := by
  have hi' : i < 8 := hi
  rw [BitVec.toNat_ofNat]
  omega

theorem ne_noParent_of_lt {idx : U8} (h : idx.toNat < neighbourhoodSize) : idx ≠ noParent := by
  rintro rfl
  exact absurd h (by decide)

namespace SlotsInv

theorem of_same (h : SlotsInv R n) (hs : SameKinship n m) : SlotsInv R m := by
  refine ⟨fun i hi => ?_, fun i hi j hj => ?_⟩
  · rw [hs.symmetric, hs.addr, hs.slotDistance]
    exact h.eligible i hi
  · rw [hs.addr, hs.addr]
    exact h.unique i hi j hj

theorem of_freed
    (h : ∀ i < neighbourhoodSize, m.neighbourhood i = (n.neighbourhood i).freed) : SlotsInv R m := by
  refine ⟨fun i hi hs => ?_, fun i hi j hj _ ho => ?_⟩
  · rw [h i hi] at hs
    cases hs
  · rw [h i hi] at ho
    exact absurd rfl ho

theorem heard (h : SlotsInv R n) (hm : Heard n p i m) (hp : MayLink R n p i) : SlotsInv R m := by
  -- an address is new to the table or already belongs to slot `i`
  have hnew : ∀ j < neighbourhoodSize, j ≠ i → p.linkAddr16 ≠ unusedAddr →
      (n.neighbourhood j).addr16b ≠ p.linkAddr16 := by
    intro j hj hji hu ha
    rcases hm.owner with ho | ⟨hnone, _⟩
    · exact hji (h.unique j hj i hm.slot_lt (ha.trans ho.symm) (ha ▸ hu))
    · exact findNeighbor_eq_none hnone hj ha
  constructor
  · intro j hj hs
    by_cases hji : j = i
    · subst hji
      rw [hm.symmetric] at hs
      rw [hm.addr, hm.distance]
      exact hp hs
    · rw [hm.others j hji] at hs ⊢
      exact h.eligible j hj hs
  · intro j hj k hk he hu
    by_cases hji : j = i
    · by_cases hki : k = i
      · exact hji.trans hki.symm
      · rw [hji, hm.addr, hm.others k hki] at he
        rw [hji, hm.addr] at hu
        exact absurd he.symm (hnew k hk hki hu)
    · by_cases hki : k = i
      · rw [hki, hm.addr, hm.others j hji] at he
        rw [hm.others j hji, he] at hu
        exact absurd he (hnew j hj hji hu)
      · rw [hm.others j hji, hm.others k hki] at he
        rw [hm.others j hji] at hu
        exact h.unique j hj k hk he hu

theorem free (h : SlotsInv R n) (i : Nat) :
    SlotsInv R (n.setNeighbor i (n.neighbourhood i).freed) := by
  constructor
  · intro j hj hs
    by_cases hji : j = i
    · subst hji
      rw [Node.setNeighbor_self] at hs
      cases hs
    · rw [n.setNeighbor_of_ne _ hji] at hs ⊢
      exact h.eligible j hj hs
  · intro j hj k hk he hu
    have hocc : ∀ l, (n.setNeighbor i (n.neighbourhood i).freed).neighbourhood l =
        (n.neighbourhood i).freed ∨
        (n.setNeighbor i (n.neighbourhood i).freed).neighbourhood l = n.neighbourhood l := by
      intro l
      by_cases hl : l = i
      · exact .inl (by rw [hl, Node.setNeighbor_self])
      · exact .inr (n.setNeighbor_of_ne _ hl)
    rcases hocc j with hj' | hj'
    · rw [hj'] at hu
      exact absurd rfl hu
    · rcases hocc k with hk' | hk'
      · rw [hk'] at he
        exact absurd he hu
      · rw [hj', hk'] at he
        rw [hj'] at hu
        exact h.unique j hj k hk he hu

end SlotsInv

/-! ## The parent -/

namespace ParentInv

theorem of_same (h : ParentInv R n) (hs : SameKinship n m) : ParentInv R m := by
  have hpa : m.parent.addr16b = n.parent.addr16b := by
    rw [Node.parent, hs.parentIndex]
    exact hs.addr _
  refine ⟨?_, ?_, ?_, ?_, ?_, h.slots.of_same hs⟩
  · rw [hs.parentIndex]; exact h.index_lt
  · rw [hs.parentIndex, hpa]; exact h.occupied
  · rw [hs.parentIndex, hpa, hs.parentNeighborID]; exact h.parentID
  · rw [hs.parentIndex, hs.distance]; exact h.detached
  · rw [hs.parentIndex, hs.distance]; exact h.lost

theorem of_noParent (hi : m.parentIndex = noParent) (hd : m.distance = 0xFF)
    (hs : SlotsInv R m) : ParentInv R m :=
  ⟨fun h => absurd hi h, fun h => absurd hi h, fun h => absurd hi h, fun _ => hd, fun _ _ => hi, hs⟩

theorem of_resetTables (hi : m.parentIndex = noParent) (hd : m.distance = 0xFF) :
    ParentInv R m.resetTables := by
  refine of_noParent ?_ ?_ (.of_freed fun i => resetTables_slot m)
  · rw [resetTables_eq]; exact hi
  · rw [resetTables_eq]; exact hd

theorem loseParent (h : ParentInv R n) : ParentInv R (n.loseParent .router) :=
  of_noParent rfl rfl ⟨h.slots.eligible, h.slots.unique⟩

theorem dropLostParent (h : ParentInv R n) : ParentInv R (n.dropLostParent .router) := by
  unfold Node.dropLostParent
  split
  · exact of_noParent rfl rfl ⟨h.slots.eligible, h.slots.unique⟩
  · exact h

theorem linkParentSwitch (h : ParentInv R n) : ParentInv R (linkParentSwitch .router n) := by
  rcases linkParentSwitch_cases .router n with ⟨_, he⟩ | ⟨_, i, hi, d, rssi, ev, he, hs, hd, _⟩
  · rw [he]
    exact h.dropLostParent
  · obtain ⟨hocc, hlost⟩ := h.slots.eligible i hi hs
    have hidx := slotIndex_toNat hi
    have hne : BitVec.ofNat 8 i ≠ noParent := ne_noParent_of_lt (by rwa [hidx])
    rw [he]
    refine ⟨fun _ => ?_, fun _ => ?_, fun _ => ?_, fun hno => absurd hno hne, fun hR hff => ?_,
      ⟨h.slots.eligible, h.slots.unique⟩⟩
    · show (BitVec.ofNat 8 i).toNat < _
      rwa [hidx]
    · show (n.neighbourhood (BitVec.ofNat 8 i).toNat).addr16b ≠ _
      rwa [hidx]
    · show (n.neighbourhood (BitVec.ofNat 8 i).toNat).addr16b = _
      rw [hidx]
      rfl
    · -- the depth 0xFF would need a neighbour at 0xFE
      change d = 0xFF at hff
      subst hff
      refine absurd (BitVec.eq_of_toNat_eq ?_) (hlost hR)
      rw [← Nat.succ_inj]
      exact hd.symm

theorem heard_parent (h : ParentInv R n) (hm : Heard n p i m) (hne : n.parentIndex ≠ noParent) :
    m.parent.addr16b = n.parent.addr16b := by
  rw [Node.parent, hm.parentIndex]
  by_cases hi : n.parentIndex.toNat = i
  · -- the parent's slot is occupied, so it was not taken for a new neighbour
    rcases hm.owner with ho | ⟨_, ho⟩
    · rw [Node.parent, hi, hm.addr, ho]
    · exact absurd (show n.parent.addr16b = unusedAddr by rwa [Node.parent, hi]) (h.occupied hne)
  · rw [hm.others _ hi, Node.parent]

theorem heard (h : ParentInv R n) (hm : Heard n p i m) (hp : MayLink R n p i) :
    ParentInv R m := by
  refine ⟨?_, ?_, ?_, ?_, ?_, h.slots.heard hm hp⟩
  · rw [hm.parentIndex]
    exact h.index_lt
  · rw [hm.parentIndex]
    exact fun hne => h.heard_parent hm hne ▸ h.occupied hne
  · rw [hm.parentIndex, hm.parentNeighborID]
    exact fun hne => h.heard_parent hm hne ▸ h.parentID hne
  · rw [hm.parentIndex, hm.node_distance]
    exact h.detached
  · rw [hm.parentIndex, hm.node_distance]
    exact h.lost

theorem linkNeighborReq (h : ParentInv R n) : ParentInv R (linkNeighborReq .router n i) := by
  have key : ParentInv R (if n.parentNeighborID = (n.neighbourhood i).addr16b then
      (n.loseParent .router).resetTables else n) := by
    split
    · exact of_resetTables rfl rfl
    · exact h
  unfold Unet4Cooja.linkNeighborReq
  dsimp only
  generalize (if n.parentNeighborID = (n.neighbourhood i).addr16b then
      (n.loseParent .router).resetTables else n) = n' at key ⊢
  split
  · exact key.of_same (.postLinkPacketTx n')
  · exact key

theorem dispatched {m' : Node} (h : ParentInv R m) (hd : Dispatched .router p i m m') :
    ParentInv R m' := by
  cases hd with
  | tooMany _ => exact h
  | adv _ _ => exact h.linkParentSwitch
  | advReset _ _ => exact h.linkParentSwitch.of_same (.postLinkPacketTx _)
  | req _ _ => exact h.linkNeighborReq
  | other _ _ => exact h

theorem linkPacketProcess (h : ParentInv R n)
    (hp : ∀ i, (linkNeighborTableFind n p).1 = some i → MayLink R n p i) :
    ParentInv R (linkPacketProcess .router n p) := by
  rcases linkPacketProcess_cases .router n p with ⟨_, he⟩ | ⟨i, m, hf, hm, hd⟩
  · rwa [he]
  · exact (h.heard hm (hp i hf)).dispatched hd

theorem free (h : ParentInv R n) (hp : n.parentIndex ≠ noParent → n.parentIndex.toNat ≠ i) :
    ParentInv R (n.setNeighbor i (n.neighbourhood i).freed).postLinkPacketTx := by
  have hpar : n.parentIndex ≠ noParent →
      (n.setNeighbor i (n.neighbourhood i).freed).parent = n.parent :=
    fun hne => n.setNeighbor_of_ne _ (hp hne)
  have hset : ParentInv R (n.setNeighbor i (n.neighbourhood i).freed) := by
    refine ⟨h.index_lt, ?_, ?_, h.detached, h.lost, h.slots.free i⟩
    · intro hne
      rw [hpar hne]
      exact h.occupied hne
    · intro hne
      rw [hpar hne]
      exact h.parentID hne
  exact hset.of_same (.postLinkPacketTx _)

theorem linkVerifyNeighbor (reset : Bool) (h : ParentInv R n) :
    ParentInv R (linkVerifyNeighbor .router i (reset, n)).2 := by
  rw [linkVerifyNeighbor_eq]
  dsimp only
  by_cases hsil : n.isSilent i
  · rw [if_pos hsil]
    by_cases hpar : n.isParentSlot .router i
    · rw [if_pos ⟨hpar, .inr hsil⟩]
      exact h.loseParent.free fun hne => absurd rfl hne
    · rw [if_neg fun hc => hpar hc.1]
      refine h.free fun hne e => hpar ⟨rfl, hsil.2, ?_⟩
      rw [← e]
      exact (h.parentID hne).symm
  · rw [if_neg hsil]
    split
    · exact h.loseParent
    · exact h

theorem verifyLoop (h : ParentInv R n) (k : Nat) :
    ParentInv R (forRange k (Unet4Cooja.linkVerifyNeighbor .router) (false, n)).2 :=
  forRange_invariant (I := fun s : Bool × Node => ParentInv R s.2) h
    fun _ _ s hs => hs.linkVerifyNeighbor s.1

end ParentInv

/-! ## The loop of the periodic check -/

/-- The check of the slots below `k` has led from `n` to `s`. -/
structure Checked (n : Node) (k : Nat) (s : Bool × Node) : Prop where
  untouched : ∀ j, k ≤ j → s.2.neighbourhood j = n.neighbourhood j
  slots : ∀ j, s.2.neighbourhood j = n.neighbourhood j ∨
    s.2.neighbourhood j = (n.neighbourhood j).freed
  parent : (s.1 = false ∧ s.2.parentIndex = n.parentIndex ∧ s.2.distance = n.distance ∧
      s.2.parentNeighborID = n.parentNeighborID) ∨
    (s.2.parentIndex = noParent ∧ s.2.distance = 0xFF ∧ s.2.parentNeighborID = unusedAddr ∧
      (n.parentIndex ≠ noParent → n.parent.symmetric = true → s.1 = true))

namespace Checked
variable {s : Bool × Node} {k : Nat}

theorem round_slots (h : Checked n k s) :
    (∀ j, k + 1 ≤ j → (linkVerifyNeighbor .router k s).2.neighbourhood j = n.neighbourhood j) ∧
    ∀ j, (linkVerifyNeighbor .router k s).2.neighbourhood j = n.neighbourhood j ∨
      (linkVerifyNeighbor .router k s).2.neighbourhood j = (n.neighbourhood j).freed := by
  obtain ⟨reset, m⟩ := s
  have hslots : (linkVerifyNeighbor .router k (reset, m)).2.neighbourhood =
      if m.isSilent k then Function.update m.neighbourhood k (m.neighbourhood k).freed
      else m.neighbourhood := by
    rw [linkVerifyNeighbor_eq]
    split_ifs <;> rfl
  rw [hslots]
  split
  · constructor
    · intro j hj
      rw [Function.update_of_ne (by omega)]
      exact h.untouched j (by omega)
    · intro j
      by_cases hjk : j = k
      · subst hjk
        rw [Function.update_self, h.untouched j le_rfl]
        exact .inr rfl
      · rw [Function.update_of_ne hjk]
        exact h.slots j
  · exact ⟨fun j hj => h.untouched j (by omega), h.slots⟩

theorem round (hn : ParentInv R n) (hk : k < neighbourhoodSize) (h : Checked n k s) :
    Checked n (k + 1) (linkVerifyNeighbor .router k s) := by
  obtain ⟨hunt, hslots⟩ := h.round_slots
  refine ⟨hunt, hslots, ?_⟩
  obtain ⟨reset, m⟩ := s
  have hmk : m.neighbourhood k = n.neighbourhood k := h.untouched k le_rfl
  rw [linkVerifyNeighbor_eq]
  by_cases hpar : m.isParentSlot .router k ∧
      ((m.neighbourhood k).symmetric = false ∨ m.isSilent k)
  · -- the parent is given up in this round
    refine .inr ?_
    rw [if_pos hpar]
    refine ⟨by split <;> rfl, by split <;> rfl, by split <;> rfl, fun hne hsym => ?_⟩
    obtain ⟨⟨_, hocc, hid⟩, hgone⟩ := hpar
    rcases h.parent with ⟨_, _, _, hmid⟩ | ⟨_, _, hmid, _⟩
    · -- its slot is the one `NODE_PARENTINDEX` names, so the reset flag is set
      have hk' : n.parentIndex.toNat = k := by
        refine hn.slots.unique _ (hn.index_lt hne) k hk ?_ (hn.occupied hne)
        rw [hmid, hmk] at hid
        exact (hn.parentID hne).trans hid
      have hs : (m.neighbourhood k).symmetric = true := by
        rw [hmk, ← hk']
        exact hsym
      rcases hgone with hf | hsil
      · rw [hs] at hf
        cases hf
      · rw [decide_eq_true ⟨⟨rfl, hocc, hid⟩, hs, hsil⟩, Bool.or_true]
    · exact absurd (hid.symm.trans hmid) hocc
  · rw [if_neg hpar]
    have hflag : ¬ (m.isParentSlot .router k ∧ (m.neighbourhood k).symmetric = true ∧
        m.isSilent k) := fun hc => hpar ⟨hc.1, .inr hc.2.2⟩
    rw [decide_eq_false hflag, Bool.or_false]
    rcases h.parent with ⟨h1, h2, h3, h4⟩ | ⟨h1, h2, h3, h4⟩
    · exact .inl ⟨h1, by split <;> exact h2, by split <;> exact h3, by split <;> exact h4⟩
    · exact .inr ⟨by split <;> exact h1, by split <;> exact h2, by split <;> exact h3, h4⟩

theorem loop (hn : ParentInv R n) :
    Checked n neighbourhoodSize
      (forRange neighbourhoodSize (linkVerifyNeighbor .router) (false, n)) :=
  forRange_induct (P := Checked n)
    ⟨fun _ _ => rfl, fun _ => .inl rfl, .inl ⟨rfl, rfl, rfl, rfl⟩⟩
    fun _ hk _ h => h.round hn hk

end Checked

theorem linkVerifyNeighbourhood_cases (h : ParentInv R n) :
    ∃ reset m, Checked n neighbourhoodSize (reset, m) ∧ ParentInv R m ∧
      SameKinship (if m.distance = 0xFF then
          if reset then m.resetTables else linkParentSwitch .router m
        else m) (linkVerifyNeighbourhood .router n) := by
  have hloop := h.verifyLoop neighbourhoodSize
  have hcheck := Checked.loop h
  unfold linkVerifyNeighbourhood
  generalize forRange neighbourhoodSize (linkVerifyNeighbor .router) (false, n) = s
    at hloop hcheck ⊢
  obtain ⟨reset, m⟩ := s
  refine ⟨reset, m, hcheck, hloop, ?_⟩
  dsimp only
  by_cases hd : m.distance = 0xFF
  · have hcond : DeviceType.router = .router ∧ m.distance = nodeDistanceInit .router := ⟨rfl, hd⟩
    rw [if_pos hd, if_pos hcond]
    exact .neighborTable _ 0
  · have hcond : ¬ (DeviceType.router = .router ∧ m.distance = nodeDistanceInit .router) :=
      fun hc => hd hc.2
    rw [if_neg hd, if_neg hcond]
    exact .neighborTable _ 0

theorem ParentInv.linkVerifyNeighbourhood (h : ParentInv R n) :
    ParentInv R (linkVerifyNeighbourhood .router n) := by
  obtain ⟨reset, m, hcheck, hm, hsame⟩ := linkVerifyNeighbourhood_cases h
  refine of_same ?_ hsame
  split
  · rename_i hd
    split
    · rename_i hreset
      rcases hcheck.parent with ⟨hf, _⟩ | ⟨hno, _⟩
      · exact Bool.noConfusion (hf.symm.trans hreset)
      · exact of_resetTables hno hd
    · exact hm.linkParentSwitch
  · exact hm

theorem ParentInv.linkNeighborTableInit (hi : m.parentIndex = noParent) (hd : m.distance = 0xFF) :
    ParentInv R (linkNeighborTableInit m) := by
  refine of_noParent ?_ ?_ (.of_freed fun i => linkNeighborTableInit_slot m)
  · rw [linkNeighborTableInit_eq]
    exact hi
  · rw [linkNeighborTableInit_eq]
    exact hd

theorem ParentInv.associationRequest (h : n.parentIndex = noParent) :
    ParentInv R (linkPacketCreateAssociationRequest .router n) := by
  unfold linkPacketCreateAssociationRequest
  dsimp only
  refine of_same ?_ (linkPacketCreate_same .router _)
  refine of_noParent ?_ rfl (.of_freed (n := { n with panId64 := fun _ => 0xFF })
    fun i hi => linkNeighborTableInit_slot _ hi)
  rw [linkNeighborTableInit_eq]
  exact h

end

end Unet4Cooja
