import Unet4Cooja.Link.ParentState
import Unet4Cooja.Link.RoundTrip

/-!
# Symmetric neighbours

* `ListsNode` : a packet names this node in its list;
* `processedSlot` : the sender's slot after an accepted packet, with `linkPacketProcess_slot`;
* `symmetric_iff_heard` : when the mark of the sender says that both hear each other.
-/

namespace Unet4Cooja
open Lib

/-- The list of `p` has an entry with the address of this node. -/
def ListsNode (n : Node) (p : Packet) : Prop :=
  ∃ j < (p.packet unetCtrlMsgNbCount).toNat,
    p.packet (unetCtrlMsgNbStart + 3 * j) = n.addr16H ∧
      p.packet (unetCtrlMsgNbStart + 3 * j + 1) = n.addr16L

instance (n : Node) (p : Packet) : Decidable (ListsNode n p) := by unfold ListsNode; infer_instance

/-- Slot `i` is symmetric exactly if `p` lists this node and both signals, as filtered, reach the threshold. -/
def SymmetricIffHeard (dev : DeviceType) (n : Node) (p : Packet) (i : Nat) : Prop :=
  ((linkPacketProcess dev n p).neighbourhood i).symmetric = true ↔
    ListsNode n p ∧ rssiThreshold ≤ ((linkPacketProcess dev n p).neighbourhood i).neighborMyRSSI ∧
      rssiThreshold ≤ ((linkPacketProcess dev n p).neighbourhood i).neighborRSSI

/-- The packet is a request of the neighbour this router calls its parent. -/
def ParentRequests (dev : DeviceType) (n : Node) (p : Packet) : Prop :=
  dev = .router ∧ p.packet unetCtrlMsgPacketType = neighborReq ∧ n.parentNeighborID = p.linkAddr16

section
variable {dev : DeviceType} {n m : Node} {p : Packet} {i : Nat}

theorem slotAtArrival_symmetric (n : Node) (p : Packet) (i : Nat) :
    (slotAtArrival n p i).symmetric = (n.neighbourhood i).symmetric := by
  unfold slotAtArrival linkNeighborTableFind
  cases n.findNeighbor p.linkAddr16 with
  | some _ => rfl
  | none =>
    cases n.findNeighbor unusedAddr with
    | none => rfl
    | some j =>
      by_cases hij : i = j
      · subst hij
        simp [Node.setNeighbor]
      · simp [Node.setNeighbor, hij]

theorem listedRSSI_eq_none :
    p.listedRSSI (p.packet unetCtrlMsgNbCount).toNat n.addr16 = none ↔ ¬ ListsNode n p := by
  unfold Packet.listedRSSI ListsNode Packet.names Node.addr16
  simp only [hi_bytesToShort, lo_bytesToShort, Option.map_eq_none_iff]
  rw [firstBelow_eq_none]
  simp only [decide_eq_false_iff_not]
  constructor
  · rintro h ⟨j, hj, hc⟩
    exact h j hj hc
  · intro h j hj hc
    exact h ⟨j, hj, hc⟩

/-- The sender's slot `nb` once the packet is stored in it. -/
def processedSlot (n : Node) (p : Packet) (nb : UnetNeighborhood) : UnetNeighborhood :=
  match p.listedRSSI (p.packet unetCtrlMsgNbCount).toNat n.addr16 with
  | none => nb.heard p
  | some rssi =>
    { nb.heard p with
      neighborMyRSSI := rssiFilter nb.neighborMyRSSI rssi
      symmetric := rssiThreshold ≤ rssiFilter nb.neighborMyRSSI rssi ∧
        rssiThreshold ≤ rssiFilter nb.neighborRSSI p.info.rssi }

theorem linkNeighborReq_freed (hp : n.parentNeighborID = (n.neighbourhood i).addr16b) {k : Nat}
    (hk : k < neighbourhoodSize) :
    (linkNeighborReq .router n i).neighbourhood k = (n.neighbourhood k).freed := by
  have hidx : ((n.loseParent .router).resetTables).parentIndex = noParent := by
    rw [resetTables_eq]
    rfl
  unfold linkNeighborReq
  dsimp only
  rw [if_pos hp, if_neg (not_not.mpr hidx), resetTables_slot _ hk]
  rfl

/-- The slot of the sender of an accepted packet is stored, and freed again if the parent is lost by it. -/
theorem linkPacketProcess_slot (dev : DeviceType) (hf : (linkNeighborTableFind n p).1 = some i)
    (hcnt : (p.packet unetCtrlMsgNbCount).toNat < neighbourhoodSize) :
    (¬ ParentRequests dev n p →
      (linkPacketProcess dev n p).neighbourhood i = processedSlot n p (slotAtArrival n p i)) ∧
    (ParentRequests dev n p →
      (linkPacketProcess dev n p).neighbourhood i = (processedSlot n p (slotAtArrival n p i)).freed) := by
  rcases linkNeighborTableFind_cases n p with ⟨_, he⟩ | ⟨j, hj, m, he, _, haddr, _, _, hfr⟩
  · rw [he] at hf
    cases hf
  · obtain rfl : j = i := by
      rw [he] at hf
      exact Option.some.inj hf
    have hat : slotAtArrival n p j = m.neighbourhood j := by rw [slotAtArrival, he]
    have hproc := linkPacketProcess_listed dev he hcnt
    have hown : m.addr16 = n.addr16 := by rw [hfr]; rfl
    have hid : m.parentNeighborID = n.parentNeighborID := by rw [hfr]
    rw [hown] at hproc
    -- the node once the packet is stored
    have hstored : ∀ k : Node, k = ((m.setNeighbor j ((m.neighbourhood j).heard p)).learnMyRSSI j
          (p.listedRSSI (p.packet unetCtrlMsgNbCount).toNat n.addr16)).markActive j →
        k.neighbourhood j = processedSlot n p (slotAtArrival n p j) ∧
          k.parentNeighborID = n.parentNeighborID := by
      intro k hk
      subst hk
      unfold processedSlot
      rw [hat]
      cases p.listedRSSI (p.packet unetCtrlMsgNbCount).toNat n.addr16 with
      | none => exact ⟨Node.setNeighbor_self .., hid⟩
      | some v =>
        unfold Node.learnMyRSSI
        dsimp only
        rw [Node.setNeighbor_self]
        exact ⟨Node.setNeighbor_self .., hid⟩
    generalize ((m.setNeighbor j ((m.neighbourhood j).heard p)).learnMyRSSI j
      (p.listedRSSI (p.packet unetCtrlMsgNbCount).toNat n.addr16)).markActive j = k at hproc hstored
    obtain ⟨hslot, hkid⟩ := hstored k rfl
    have hka : (k.neighbourhood j).addr16b = p.linkAddr16 := by
      rw [hslot, hat]
      unfold processedSlot
      cases p.listedRSSI (p.packet unetCtrlMsgNbCount).toNat n.addr16 <;> exact haddr
    rw [hproc]
    dsimp only
    unfold ParentRequests
    by_cases hreq : p.packet unetCtrlMsgPacketType = neighborReq
    · rw [hreq, if_neg (by decide), if_neg (by decide), if_pos rfl, ← hslot]
      constructor
      · intro hno
        rw [(linkNeighborReq_cases dev k j).2.1]
        rintro ⟨hr, hp⟩
        exact hno ⟨hr, rfl, hkid.symm.trans (hp.trans hka)⟩
      · rintro ⟨rfl, _, hp⟩
        exact linkNeighborReq_freed (hkid.trans (hp.trans hka.symm)) hj
    · rw [if_neg hreq]
      refine ⟨fun _ => ?_, fun h => absurd h.2.1 hreq⟩
      have hswitch : (linkNodeDistanceUpdate dev k j).neighbourhood = k.neighbourhood :=
        linkParentSwitch_slots dev k
      rw [← hslot]
      split_ifs
      · rw [hswitch]
      · rw [Node.postLinkPacketTx_neighbourhood, hswitch]
      · rfl

/-- The mark of the sender says that both hear each other, exactly if its packet lists this node, or the mark was
not set before, or the packet makes the router forget its neighbours. -/
theorem symmetric_iff_heard (dev : DeviceType) (hf : (linkNeighborTableFind n p).1 = some i)
    (hcnt : (p.packet unetCtrlMsgNbCount).toNat < neighbourhoodSize) :
    SymmetricIffHeard dev n p i ↔
      ListsNode n p ∨ (n.neighbourhood i).symmetric = false ∨ ParentRequests dev n p := by
  obtain ⟨hkept, hfreed⟩ := linkPacketProcess_slot dev hf hcnt
  have hold := slotAtArrival_symmetric n p i
  unfold SymmetricIffHeard
  by_cases hreq : ParentRequests dev n p
  · rw [hfreed hreq]
    have hnot : ¬ rssiThreshold ≤ (0 : U8) := by decide
    exact ⟨fun _ => .inr (.inr hreq), fun _ =>
      ⟨fun h => absurd h Bool.false_ne_true, fun h => absurd h.2.1 hnot⟩⟩
  · rw [hkept hreq]
    by_cases hl : ListsNode n p
    · obtain ⟨v, hv⟩ := Option.ne_none_iff_exists'.mp fun hn => listedRSSI_eq_none.mp hn hl
      unfold processedSlot
      rw [hv]
      refine ⟨fun _ => .inl hl, fun _ => ?_⟩
      dsimp only
      rw [decide_eq_true_iff]
      exact ⟨fun h => ⟨hl, h⟩, fun h => h.2⟩
    · unfold processedSlot
      rw [listedRSSI_eq_none.mpr hl]
      constructor
      · intro h
        refine .inr (.inl ?_)
        rw [← hold]
        by_contra hs
        exact hl (h.mp (Bool.not_eq_false _ ▸ hs)).1
      · intro h
        have hs := h.resolve_left hl |>.resolve_right hreq
        rw [← hold] at hs
        exact ⟨fun h => absurd (h.symm.trans hs) Bool.false_ne_true.symm, fun h => absurd h.1 hl⟩

end

theorem symmetric_iff_heard_receivedAdv : SymmetricIffHeard .router (linkInit .router default) (receivedAdv 1 0) 0 :=
  (symmetric_iff_heard .router (by decide +kernel) (by decide +kernel)).mpr (.inl (by decide +kernel))

/-- A symmetric neighbour that does not list this node any more stays symmetric. -/
theorem symmetric_iff_heard_fails :
    ¬ ∀ dev n p i, (linkNeighborTableFind n p).1 = some i →
      (p.packet unetCtrlMsgNbCount).toNat < neighbourhoodSize → SymmetricIffHeard dev n p i := by
  intro h
  have hcase := (h .router (linkPacketProcess .router (linkInit .router default) (receivedAdv 1 0))
    ((receivedAdv 1 0).setByte unetCtrlMsgNbCount 0) 0 (by decide +kernel) (by decide +kernel)).mp
      (by decide +kernel)
  exact absurd hcase.1 (by decide +kernel)

end Unet4Cooja
