import Unet4Cooja.Link.Table

/-!
# What the link functions do

* `ParentScan.Candidate`, `scanParent_cases` : the scan keeps what it started with unless some
  slot is a candidate, and then it ends at a symmetric slot of smaller depth;
* `linkParentSwitch_cases` : the outcomes of a parent search;
* `Heard`, `linkPacketProcess_cases` : a processed packet first changes the slot of its sender
  alone, then its type decides;
* `linkVerifyNeighbor_cases` : one round of the periodic check.
-/

namespace Unet4Cooja
open Lib

/-! ## Table resets -/

theorem linkNeighborTableInit_eq (n : Node) :
    linkNeighborTableInit n =
      { n with
        neighbourhood := fun i =>
          if i < neighbourhoodSize then (n.neighbourhood i).freed else n.neighbourhood i } := by
  have key : ∀ k, forRange k (fun i n => n.setNeighbor i (n.neighbourhood i).freed) n =
      { n with neighbourhood := fun i =>
          if i < k then (n.neighbourhood i).freed else n.neighbourhood i } := by
    intro k
    induction k with
    | zero => rfl
    | succ k ih =>
      rw [forRange, ih, Node.setNeighbor]
      congr 1
      funext i
      rw [Function.update_apply]
      dsimp only
      rcases lt_trichotomy i k with h | rfl | h
      · rw [if_neg h.ne, if_pos h, if_pos (by omega)]
      · rw [if_pos rfl, if_neg (Nat.lt_irrefl i), if_pos (Nat.lt_succ_self i)]
      · rw [if_neg h.ne', if_neg (by omega), if_neg (by omega)]
  exact key neighbourhoodSize

theorem linkNeighborTableInit_slot (n : Node) {i : Nat} (hi : i < neighbourhoodSize) :
    (linkNeighborTableInit n).neighbourhood i = (n.neighbourhood i).freed := by
  rw [linkNeighborTableInit_eq]
  exact if_pos hi

theorem resetTables_eq (n : Node) :
    n.resetTables =
      { n with
        neighbourhood := n.resetTables.neighbourhood
        rtableUp := unetRouterUpTableClear n.rtableUp } := by
  rw [Node.resetTables, linkNeighborTableInit_eq]

theorem resetTables_addr16 (n : Node) : n.resetTables.addr16 = n.addr16 := by
  rw [Node.resetTables, linkNeighborTableInit_eq]
  rfl

theorem resetTables_slot (n : Node) {i : Nat} (hi : i < neighbourhoodSize) :
    n.resetTables.neighbourhood i = (n.neighbourhood i).freed :=
  linkNeighborTableInit_slot n hi

/-! ## The scan -/

namespace ParentScan
variable (slots : Nat → UnetNeighborhood) (s : ParentScan)

/-- Slot `i` would replace what the scan has found so far. -/
def Candidate (i : Nat) : Prop :=
  (slots i).symmetric = true ∧ (slots i).neighborDistance < s.depth ∧
    (s.depth.toNat ≠ (slots i).neighborDistance.toNat + 1 ∨
      s.parentNeighborID = (slots i).addr16b ∨
      s.parentRSSI.toNat + 5 < (slots i).neighborRSSI.toNat)

instance (i : Nat) : Decidable (s.Candidate slots i) := by unfold Candidate; infer_instance

/-- The scan that started at depth `d` has chosen slot `i`. -/
structure Chose (d : U8) (i : Nat) : Prop where
  symmetric : (slots i).symmetric = true
  depth : s.depth.toNat = (slots i).neighborDistance.toNat + 1
  depth_le : s.depth ≤ d
  idx : s.parentIdx = BitVec.ofNat 8 i
  neighborID : s.parentNeighborID = (slots i).addr16b

variable {slots s} {d : U8} {i : Nat}

theorem visit_of_not_candidate (h : ¬ s.Candidate slots i) : s.visit slots i = s := by
  unfold Candidate at h
  unfold visit
  simp only
  split_ifs with hd hs hdep hid hr
  · exact absurd ⟨hs, hd, .inr (.inl hid)⟩ h
  · exact absurd ⟨hs, hd, .inr (.inr hr)⟩ h
  · rfl
  · exact absurd ⟨hs, hd, .inl hdep⟩ h
  · rfl
  · rfl

theorem visit_of_candidate (h : s.Candidate slots i) (hd : s.depth ≤ d) :
    (s.visit slots i).Chose slots d i := by
  obtain ⟨hs, hlt, hc⟩ := h
  unfold visit
  simp only [if_pos hlt, if_pos hs]
  split_ifs with hdep hid hr
  · exact ⟨hs, hdep, hd, rfl, hid⟩
  · exact ⟨hs, hdep, hd, rfl, rfl⟩
  · exact absurd hc (by simp [hdep, hid, hr])
  · have hsum : ((slots i).neighborDistance + 1).toNat = (slots i).neighborDistance.toNat + 1 := by
      bv_omega
    exact ⟨hs, hsum, by bv_omega, rfl, rfl⟩

end ParentScan

def Node.scanStart (n : Node) : ParentScan :=
  ⟨n.distance, n.parentIndex, n.parentNeighborID, n.parentRSSI⟩

/-- Some slot is a candidate for the parent search of `n`. -/
def Node.HasCandidate (n : Node) : Prop :=
  ∃ i < neighbourhoodSize, n.scanStart.Candidate n.neighbourhood i

instance (n : Node) : Decidable n.HasCandidate := by unfold Node.HasCandidate; infer_instance

theorem scanParent_cases (n : Node) :
    (¬ n.HasCandidate ∧ n.scanParent = n.scanStart) ∨
    (n.HasCandidate ∧
      ∃ i < neighbourhoodSize, n.scanParent.Chose n.neighbourhood n.distance i) := by
  have h : ∀ k, ((∀ i < k, ¬ n.scanStart.Candidate n.neighbourhood i) ∧
        forRange k (ParentScan.visit n.neighbourhood) n.scanStart = n.scanStart) ∨
      ((∃ i < k, n.scanStart.Candidate n.neighbourhood i) ∧ ∃ i < k,
        (forRange k (ParentScan.visit n.neighbourhood) n.scanStart).Chose n.neighbourhood
          n.distance i) := by
    intro k
    induction k with
    | zero => exact .inl ⟨fun i hi => absurd hi (Nat.not_lt_zero i), rfl⟩
    | succ k ih =>
      rw [forRange]
      rcases ih with ⟨hno, he⟩ | ⟨⟨i, hi, hi'⟩, j, hj, hj'⟩
      · rw [he]
        by_cases hc : n.scanStart.Candidate n.neighbourhood k
        · exact .inr ⟨⟨k, Nat.lt_succ_self k, hc⟩, k, Nat.lt_succ_self k,
            ParentScan.visit_of_candidate hc (BitVec.le_refl _)⟩
        · refine .inl ⟨fun i hi => ?_, ParentScan.visit_of_not_candidate hc⟩
          rcases Nat.lt_succ_iff_lt_or_eq.mp hi with h | rfl
          · exact hno i h
          · exact hc
      · refine .inr ⟨⟨i, Nat.lt_succ_of_lt hi, hi'⟩, ?_⟩
        by_cases hc : (forRange k (ParentScan.visit n.neighbourhood) n.scanStart).Candidate
            n.neighbourhood k
        · exact ⟨k, Nat.lt_succ_self k, ParentScan.visit_of_candidate hc hj'.depth_le⟩
        · rw [ParentScan.visit_of_not_candidate hc]
          exact ⟨j, Nat.lt_succ_of_lt hj, hj'⟩
  rcases h neighbourhoodSize with ⟨hno, he⟩ | hsome
  · refine .inl ⟨?_, he⟩
    rintro ⟨i, hi, hc⟩
    exact hno i hi hc
  · exact .inr hsome

/-! ## The parent search -/

/-- A change of the parent variables and a post to the link task. -/
def Node.withParent (n : Node) (d idx : U8) (id : U16) (rssi : U16) (ev : Nat) : Node :=
  { n with
    distance := d
    parentIndex := idx
    parentNeighborID := id
    parentRSSI := rssi
    linkPacketTxEvent := ev }

theorem adopt_eq (n : Node) (s : ParentScan) :
    ∃ ev, n.adopt s = n.withParent s.depth s.parentIdx s.parentNeighborID s.parentRSSI ev := by
  unfold Node.adopt
  simp only
  split
  · exact ⟨_, rfl⟩
  · exact ⟨_, rfl⟩

theorem adopt_scanStart (n : Node) : n.adopt n.scanStart = n := by
  simp [Node.adopt, Node.scanStart]

theorem linkParentSwitch_frame (dev : DeviceType) (n : Node) :
    ∃ d idx id rssi ev, linkParentSwitch dev n = n.withParent d idx id rssi ev := by
  obtain ⟨ev, hev⟩ := adopt_eq (n.dropLostParent dev) (n.dropLostParent dev).scanParent
  rw [linkParentSwitch, hev]
  unfold Node.dropLostParent
  split <;> exact ⟨_, _, _, _, _, rfl⟩

theorem linkParentSwitch_slots (dev : DeviceType) (n : Node) :
    (linkParentSwitch dev n).neighbourhood = n.neighbourhood := by
  obtain ⟨d, idx, id, rssi, ev, he⟩ := linkParentSwitch_frame dev n
  rw [he]
  rfl

/-- A parent search either finds no candidate and keeps the parent variables (after a lost parent
was dropped), or ends with a symmetric neighbour of smaller depth as parent. -/
theorem linkParentSwitch_cases (dev : DeviceType) (n : Node) :
    (¬ (n.dropLostParent dev).HasCandidate ∧ linkParentSwitch dev n = n.dropLostParent dev) ∨
    ((n.dropLostParent dev).HasCandidate ∧ ∃ i < neighbourhoodSize, ∃ d rssi ev,
      linkParentSwitch dev n =
        n.withParent d (BitVec.ofNat 8 i) (n.neighbourhood i).addr16b rssi ev ∧
      (n.neighbourhood i).symmetric = true ∧
      d.toNat = (n.neighbourhood i).neighborDistance.toNat + 1 ∧
      d ≤ (n.dropLostParent dev).distance) := by
  have hslots : (n.dropLostParent dev).neighbourhood = n.neighbourhood := by
    unfold Node.dropLostParent; split <;> rfl
  rcases scanParent_cases (n.dropLostParent dev) with ⟨hno, he⟩ | ⟨hc, i, hi, h⟩
  · refine .inl ⟨hno, ?_⟩
    rw [linkParentSwitch, he, adopt_scanStart]
  · refine .inr ⟨hc, i, hi, ?_⟩
    obtain ⟨ev, hev⟩ := adopt_eq (n.dropLostParent dev) (n.dropLostParent dev).scanParent
    rw [hslots] at h
    refine ⟨(n.dropLostParent dev).scanParent.depth, (n.dropLostParent dev).scanParent.parentRSSI, ev,
      ?_, h.symmetric, h.depth, h.depth_le⟩
    rw [linkParentSwitch, hev, h.idx, h.neighborID]
    unfold Node.dropLostParent
    split <;> rfl

/-! ## The periodic check -/

/-- Slot `i` holds the neighbour this router calls its parent. -/
def Node.isParentSlot (dev : DeviceType) (n : Node) (i : Nat) : Prop :=
  dev = .router ∧ (n.neighbourhood i).addr16b ≠ unusedAddr ∧
    n.parentNeighborID = (n.neighbourhood i).addr16b

/-- Slot `i` is occupied and was silent since the last check. -/
def Node.isSilent (n : Node) (i : Nat) : Prop :=
  n.neighborTable.getLsbD i = false ∧ (n.neighbourhood i).addr16b ≠ unusedAddr

instance (dev : DeviceType) (n : Node) (i : Nat) : Decidable (n.isParentSlot dev i) := by
  unfold Node.isParentSlot; infer_instance

instance (n : Node) (i : Nat) : Decidable (n.isSilent i) := by
  unfold Node.isSilent; infer_instance

/-- One round: a parent that is silent or not symmetric is given up, a silent slot is freed, and
the reset flag is set for a symmetric parent that fell silent. -/
theorem linkVerifyNeighbor_eq (dev : DeviceType) (i : Nat) (reset : Bool) (n : Node) :
    linkVerifyNeighbor dev i (reset, n) =
      let n' :=
        if n.isParentSlot dev i ∧ ((n.neighbourhood i).symmetric = false ∨ n.isSilent i) then
          n.loseParent dev
        else n
      (reset || decide (n.isParentSlot dev i ∧ (n.neighbourhood i).symmetric = true ∧ n.isSilent i),
        if n.isSilent i then (n'.setNeighbor i (n.neighbourhood i).freed).postLinkPacketTx
        else n') := by
  unfold linkVerifyNeighbor Node.isParentSlot Node.isSilent
  by_cases hr : dev = .router
  · by_cases hu : (n.neighbourhood i).addr16b = unusedAddr
    · simp [hr, hu]
    · by_cases hp : n.parentNeighborID = (n.neighbourhood i).addr16b
      · by_cases hs : (n.neighbourhood i).symmetric = false
        · by_cases ht : n.neighborTable.getLsbD i = false
          · simp [hr, hu, Ne.symm hu, hp, hs, ht, Node.loseParent]
          · simp [hr, hu, hp, hs, ht, Node.loseParent]
        · by_cases ht : n.neighborTable.getLsbD i = false
          · simp [hr, hu, hp, hs, ht, Node.loseParent]
          · simp [hr, hu, hp, hs, ht]
      · by_cases ht : n.neighborTable.getLsbD i = false
        · simp [hr, hu, hp, ht]
        · simp [hr, hu, hp, ht]
  · by_cases ht : n.neighborTable.getLsbD i = false
    · by_cases hu : (n.neighbourhood i).addr16b = unusedAddr
      · simp [hr, ht, hu]
      · simp [hr, ht, hu]
    · simp [hr, ht]

/-! ## Received packets -/

/-- The slot of the sender after `link_neighbor_table_find`, before its new values are stored. -/
def slotAtArrival (n : Node) (p : Packet) (i : Nat) : UnetNeighborhood :=
  (linkNeighborTableFind n p).2.neighbourhood i

/-- Whether the slot `i` of `p`'s sender is symmetric once `p` has been stored in it: the two
filtered signal strengths if `p` lists this node, the old bit otherwise. -/
def symmetricAfter (n : Node) (p : Packet) (i : Nat) : Bool :=
  if (p.packet unetCtrlMsgNbCount).toNat < neighbourhoodSize then
    match listedAt n p with
    | some j =>
      rssiThreshold ≤ rssiFilter (slotAtArrival n p i).neighborMyRSSI
          (p.packet (unetCtrlMsgNbStart + 3 * j + 2)) ∧
        rssiThreshold ≤ rssiFilter (slotAtArrival n p i).neighborRSSI p.info.rssi
    | none => (slotAtArrival n p i).symmetric
  else (slotAtArrival n p i).symmetric

/-- `m` is `n` with the packet `p` stored in slot `i`. -/
structure Heard (n : Node) (p : Packet) (i : Nat) (m : Node) : Prop where
  slot_lt : i < neighbourhoodSize
  owner : (n.neighbourhood i).addr16b = p.linkAddr16 ∨
    (n.findNeighbor p.linkAddr16 = none ∧ (n.neighbourhood i).addr16b = unusedAddr)
  addr : (m.neighbourhood i).addr16b = p.linkAddr16
  distance : (m.neighbourhood i).neighborDistance = p.packet unetCtrlMsgDistance
  symmetric : (m.neighbourhood i).symmetric = symmetricAfter n p i
  lastID : (m.neighbourhood i).neighborLastID = (n.neighbourhood i).neighborLastID
  others : ∀ j, j ≠ i → m.neighbourhood j = n.neighbourhood j
  frame : m =
    { n with
      neighbourhood := m.neighbourhood
      neighborTable := m.neighborTable
      neighborLinkPacketTimeCnt := m.neighborLinkPacketTimeCnt }

inductive Dispatched (dev : DeviceType) (p : Packet) (i : Nat) (m : Node) : Node → Prop
  | tooMany : neighbourhoodSize ≤ (p.packet unetCtrlMsgNbCount).toNat → Dispatched dev p i m m
  | adv : (p.packet unetCtrlMsgNbCount).toNat < neighbourhoodSize →
      p.packet unetCtrlMsgPacketType = neighborAdv →
      Dispatched dev p i m (linkParentSwitch dev m)
  | advReset : (p.packet unetCtrlMsgNbCount).toNat < neighbourhoodSize →
      p.packet unetCtrlMsgPacketType = neighborAdvReset →
      Dispatched dev p i m (linkParentSwitch dev m).postLinkPacketTx
  | req : (p.packet unetCtrlMsgNbCount).toNat < neighbourhoodSize →
      p.packet unetCtrlMsgPacketType = neighborReq → Dispatched dev p i m (linkNeighborReq dev m i)
  | other : p.packet unetCtrlMsgPacketType ≠ neighborAdv →
      p.packet unetCtrlMsgPacketType ≠ neighborAdvReset → Dispatched dev p i m m

theorem findNeighbor_eq_some {n : Node} {a : U16} {i : Nat} (h : n.findNeighbor a = some i) :
    i < neighbourhoodSize ∧ (n.neighbourhood i).addr16b = a := by
  obtain ⟨hi, ha, _⟩ := firstBelow_eq_some.mp h
  exact ⟨hi, of_decide_eq_true ha⟩

theorem findNeighbor_eq_none {n : Node} {a : U16} (h : n.findNeighbor a = none) {i : Nat}
    (hi : i < neighbourhoodSize) : (n.neighbourhood i).addr16b ≠ a :=
  of_decide_eq_false (firstBelow_eq_none.mp h i hi)

/-- The sender's slot and its update, for a packet that finds or takes slot `i`. -/
theorem linkNeighborTableFind_cases (n : Node) (p : Packet) :
    (n.findNeighbor p.linkAddr16 = none ∧ linkNeighborTableFind n p = (none, n)) ∨
    ∃ i < neighbourhoodSize, ∃ m, linkNeighborTableFind n p = (some i, m) ∧
      ((n.neighbourhood i).addr16b = p.linkAddr16 ∨
        (n.findNeighbor p.linkAddr16 = none ∧ (n.neighbourhood i).addr16b = unusedAddr)) ∧
      (m.neighbourhood i).addr16b = p.linkAddr16 ∧
      (m.neighbourhood i).neighborLastID = (n.neighbourhood i).neighborLastID ∧
      (∀ j, j ≠ i → m.neighbourhood j = n.neighbourhood j) ∧
      m = { n with
        neighbourhood := m.neighbourhood
        neighborLinkPacketTimeCnt := m.neighborLinkPacketTimeCnt } := by
  unfold linkNeighborTableFind
  cases hf : n.findNeighbor p.linkAddr16 with
  | some i =>
    obtain ⟨hi, ha⟩ := findNeighbor_eq_some hf
    exact .inr ⟨i, hi, n, rfl, .inl ha, ha, rfl, fun _ _ => rfl, rfl⟩
  | none =>
    cases hu : n.findNeighbor unusedAddr with
    | none => exact .inl ⟨rfl, rfl⟩
    | some i =>
      obtain ⟨hi, ha⟩ := findNeighbor_eq_some hu
      refine .inr ⟨i, hi, _, rfl, .inr ⟨rfl, ha⟩, ?_, ?_, ?_, rfl⟩
      · simp [Node.setNeighbor]
      · simp [Node.setNeighbor]
      · intro j hj
        exact n.setNeighbor_of_ne _ hj

theorem linkNeighborSymmetryUpdate_eq (n : Node) (p : Packet) (i : Nat) :
    ∃ my sym, linkNeighborSymmetryUpdate n p i =
        n.setNeighbor i { n.neighbourhood i with neighborMyRSSI := my, symmetric := sym } ∧
      sym = match listedAt n p with
        | some j =>
          decide (rssiThreshold ≤ rssiFilter (n.neighbourhood i).neighborMyRSSI
              (p.packet (unetCtrlMsgNbStart + 3 * j + 2)) ∧
            rssiThreshold ≤ (n.neighbourhood i).neighborRSSI)
        | none => (n.neighbourhood i).symmetric := by
  unfold linkNeighborSymmetryUpdate
  cases listedAt n p with
  | none =>
    refine ⟨(n.neighbourhood i).neighborMyRSSI, (n.neighbourhood i).symmetric, ?_, rfl⟩
    simp [Node.setNeighbor]
  | some j => exact ⟨_, _, rfl, rfl⟩

theorem stored_slot (m : Node) (p : Packet) (i : Nat) :
    ∃ my sym, (linkNeighborSymmetryUpdate (m.setNeighbor i ((m.neighbourhood i).heard p)) p
          i).markActive i =
        (m.setNeighbor i { (m.neighbourhood i).heard p with
          neighborMyRSSI := my, symmetric := sym }).markActive i ∧
      sym = match listedAt m p with
        | some j =>
          decide (rssiThreshold ≤ rssiFilter (m.neighbourhood i).neighborMyRSSI
              (p.packet (unetCtrlMsgNbStart + 3 * j + 2)) ∧
            rssiThreshold ≤ rssiFilter (m.neighbourhood i).neighborRSSI p.info.rssi)
        | none => (m.neighbourhood i).symmetric := by
  obtain ⟨my, sym, hupd, hsym⟩ :=
    linkNeighborSymmetryUpdate_eq (m.setNeighbor i ((m.neighbourhood i).heard p)) p i
  rw [Node.setNeighbor_self] at hupd hsym
  refine ⟨my, sym, ?_, hsym⟩
  rw [hupd]
  simp [Node.setNeighbor]

section Arrival
variable {n m : Node} {p : Packet} {i : Nat}

/-- A packet that finds or takes slot `i` is stored there, whatever the rest of the slot becomes. -/
theorem heard_of_stored (nb : UnetNeighborhood) (t : U16) (hi : i < neighbourhoodSize)
    (hown : (n.neighbourhood i).addr16b = p.linkAddr16 ∨
      (n.findNeighbor p.linkAddr16 = none ∧ (n.neighbourhood i).addr16b = unusedAddr))
    (hoth : ∀ j, j ≠ i → m.neighbourhood j = n.neighbourhood j)
    (hfr : m = { n with
      neighbourhood := m.neighbourhood
      neighborLinkPacketTimeCnt := m.neighborLinkPacketTimeCnt })
    (ha : nb.addr16b = p.linkAddr16) (hd : nb.neighborDistance = p.packet unetCtrlMsgDistance)
    (hs : nb.symmetric = symmetricAfter n p i)
    (hl : nb.neighborLastID = (n.neighbourhood i).neighborLastID) :
    Heard n p i { m.setNeighbor i nb with neighborTable := t } := by
  refine ⟨hi, hown, ?_, ?_, ?_, ?_, ?_, ?_⟩
  · exact (congrArg UnetNeighborhood.addr16b (m.setNeighbor_self i nb)).trans ha
  · exact (congrArg UnetNeighborhood.neighborDistance (m.setNeighbor_self i nb)).trans hd
  · exact (congrArg UnetNeighborhood.symmetric (m.setNeighbor_self i nb)).trans hs
  · exact (congrArg UnetNeighborhood.neighborLastID (m.setNeighbor_self i nb)).trans hl
  · intro j hj
    exact (m.setNeighbor_of_ne nb hj).trans (hoth j hj)
  · rw [hfr]
    rfl

theorem dispatched_of_lt (dev : DeviceType)
    (hcnt : (p.packet unetCtrlMsgNbCount).toNat < neighbourhoodSize) :
    Dispatched dev p i m
      (if p.packet unetCtrlMsgPacketType = neighborAdv then linkNodeDistanceUpdate dev m i
      else if p.packet unetCtrlMsgPacketType = neighborAdvReset then
        (linkNodeDistanceUpdate dev m i).postLinkPacketTx
      else if p.packet unetCtrlMsgPacketType = neighborReq then linkNeighborReq dev m i
      else m) := by
  split_ifs with ha hr hq
  · exact .adv hcnt ha
  · exact .advReset hcnt hr
  · exact .req hcnt hq
  · exact .other ha hr

theorem linkPacketProcess_cases (dev : DeviceType) (n : Node) (p : Packet) :
    (n.findNeighbor p.linkAddr16 = none ∧ linkPacketProcess dev n p = n) ∨
    ∃ i m, (linkNeighborTableFind n p).1 = some i ∧ Heard n p i m ∧
      Dispatched dev p i m (linkPacketProcess dev n p) := by
  rcases linkNeighborTableFind_cases n p with ⟨hn, he⟩ | ⟨i, hi, m, he, hown, ha, hlast, hoth, hfr⟩
  · refine .inl ⟨hn, ?_⟩
    rw [linkPacketProcess, he]
  · refine .inr ⟨i, ?_⟩
    have hat : slotAtArrival n p i = m.neighbourhood i := by rw [slotAtArrival, he]
    have hlist : listedAt m p = listedAt n p := by rw [hfr]; rfl
    rw [linkPacketProcess, he]
    dsimp only
    by_cases hcnt : (p.packet unetCtrlMsgNbCount).toNat < neighbourhoodSize
    · obtain ⟨my, sym, hstored, hsym⟩ := stored_slot m p i
      have hafter : sym = symmetricAfter n p i := by
        rw [hsym, symmetricAfter, if_pos hcnt, hlist, hat]
      rw [if_pos hcnt, hstored]
      refine ⟨_, rfl, ?_, dispatched_of_lt dev hcnt⟩
      exact heard_of_stored { (m.neighbourhood i).heard p with
        neighborMyRSSI := my, symmetric := sym } _ hi hown hoth hfr ha rfl hafter hlast
    · have hafter : (m.neighbourhood i).symmetric = symmetricAfter n p i := by
        rw [symmetricAfter, if_neg hcnt, hat]
      rw [if_neg hcnt]
      refine ⟨_, rfl, ?_, .tooMany (Nat.le_of_not_lt hcnt)⟩
      exact heard_of_stored ((m.neighbourhood i).heard p) m.neighborTable hi hown hoth hfr ha rfl
        hafter hlast

end Arrival

namespace Heard
variable {n m : Node} {p : Packet} {i : Nat} (h : Heard n p i m)
include h

theorem parentIndex : m.parentIndex = n.parentIndex := by rw [h.frame]

theorem node_distance : m.distance = n.distance := by rw [h.frame]

theorem parentNeighborID : m.parentNeighborID = n.parentNeighborID := by
  rw [h.frame]

theorem parentRSSI : m.parentRSSI = n.parentRSSI := by rw [h.frame]

end Heard

/-! ## What parent choice depends on -/

/-- `m` has the parent variables of `n` and, slot by slot, the same address, distance and
symmetry. -/
structure SameKinship (n m : Node) : Prop where
  parentIndex : m.parentIndex = n.parentIndex
  parentNeighborID : m.parentNeighborID = n.parentNeighborID
  distance : m.distance = n.distance
  addr (i : Nat) : (m.neighbourhood i).addr16b = (n.neighbourhood i).addr16b
  slotDistance (i : Nat) :
    (m.neighbourhood i).neighborDistance = (n.neighbourhood i).neighborDistance
  symmetric (i : Nat) : (m.neighbourhood i).symmetric = (n.neighbourhood i).symmetric

namespace SameKinship
variable {n m k : Node}

theorem of_eq (hi : m.parentIndex = n.parentIndex) (hd : m.distance = n.distance)
    (hp : m.parentNeighborID = n.parentNeighborID) (hs : m.neighbourhood = n.neighbourhood) :
    SameKinship n m :=
  ⟨hi, hp, hd, fun _ => by rw [hs], fun _ => by rw [hs], fun _ => by rw [hs]⟩

theorem trans (h : SameKinship n m) (h' : SameKinship m k) : SameKinship n k :=
  ⟨h'.parentIndex.trans h.parentIndex, h'.parentNeighborID.trans h.parentNeighborID,
    h'.distance.trans h.distance, fun i => (h'.addr i).trans (h.addr i),
    fun i => (h'.slotDistance i).trans (h.slotDistance i),
    fun i => (h'.symmetric i).trans (h.symmetric i)⟩

theorem markActive (n : Node) (i : Nat) : SameKinship n (n.markActive i) := .of_eq rfl rfl rfl rfl

theorem postLinkPacketTx (n : Node) : SameKinship n n.postLinkPacketTx := .of_eq rfl rfl rfl rfl

theorem neighborTable (n : Node) (t : U16) : SameKinship n { n with neighborTable := t } :=
  .of_eq rfl rfl rfl rfl

theorem setNeighbor (n : Node) (i : Nat) (nb : UnetNeighborhood)
    (ha : nb.addr16b = (n.neighbourhood i).addr16b)
    (hd : nb.neighborDistance = (n.neighbourhood i).neighborDistance)
    (hs : nb.symmetric = (n.neighbourhood i).symmetric) : SameKinship n (n.setNeighbor i nb) := by
  have key : ∀ j, (n.setNeighbor i nb).neighbourhood j = if j = i then nb else n.neighbourhood j :=
    fun j => Function.update_apply ..
  refine ⟨rfl, rfl, rfl, fun j => ?_, fun j => ?_, fun j => ?_⟩ <;> rw [key] <;> split
  all_goals first | rfl | (subst_vars; assumption)

end SameKinship

theorem linkSetNeighborActivity_same (n : Node) (p : Packet) :
    SameKinship n (linkSetNeighborActivity n p) := by
  unfold linkSetNeighborActivity
  cases n.findNeighbor p.sourceAddr16 with
  | none => exact .of_eq rfl rfl rfl rfl
  | some i =>
    dsimp only
    refine SameKinship.trans (SameKinship.setNeighbor n i _ ?_ ?_ ?_) (SameKinship.markActive _ i)
    all_goals rfl

theorem linkSetNeighborSeqnum_same (n : Node) (p : Packet) :
    SameKinship n (linkSetNeighborSeqnum n p) := by
  unfold linkSetNeighborSeqnum
  cases n.findNeighbor p.sourceAddr16 with
  | none => exact .of_eq rfl rfl rfl rfl
  | some i => exact .setNeighbor n i _ rfl rfl rfl

theorem linkPacketCreate_same (dev : DeviceType) (n : Node) :
    SameKinship n (linkPacketCreate dev n) := .of_eq rfl rfl rfl rfl

end Unet4Cooja
