import Unet4Cooja.Link.ParentState

/-!
# The depth of a router and the depth of its parent

`depthTracksParent_iff` : when an advertisement of the current parent leaves the router's depth one
above the depth stored for its parent.
-/

namespace Unet4Cooja
open Lib

/-- No parent and no depth, or one more than the depth stored for the parent. -/
def DepthTracksParent (n : Node) : Prop :=
  (n.parentIndex = noParent ∧ n.distance = 0xFF) ∨
    (n.parentIndex ≠ noParent ∧ n.distance.toNat = n.parent.neighborDistance.toNat + 1)

instance (n : Node) : Decidable (DepthTracksParent n) := by
  unfold DepthTracksParent; infer_instance

/-- The packet `p` comes from the parent, is accepted and advertises a distance. -/
structure ParentAdv (n : Node) (p : Packet) : Prop where
  sender : n.findNeighbor p.linkAddr16 = some n.parentIndex.toNat
  count : (p.packet unetCtrlMsgNbCount).toNat < neighbourhoodSize
  type : p.packet unetCtrlMsgPacketType = neighborAdv ∨
    p.packet unetCtrlMsgPacketType = neighborAdvReset

/-- The parent search that an advertisement `p` of the parent starts has something to find, or
nothing to change: the advertised distance is lost, or one below the router's, or smaller with a
symmetric parent, or some other slot is a candidate. -/
def AdvResolved (n : Node) (p : Packet) : Prop :=
  p.packet unetCtrlMsgDistance = noRouteToBasestation ∨
  n.distance.toNat = (p.packet unetCtrlMsgDistance).toNat + 1 ∨
  (p.packet unetCtrlMsgDistance < n.distance ∧ symmetricAfter n p n.parentIndex.toNat = true) ∨
  ∃ i < neighbourhoodSize, i ≠ n.parentIndex.toNat ∧ n.scanStart.Candidate n.neighbourhood i

section
variable {n m : Node} {p : Packet}

theorem depthTracksParent_post (n : Node) :
    DepthTracksParent n.postLinkPacketTx ↔ DepthTracksParent n := Iff.rfl

theorem depthTracksParent_withParent {i : Nat} {d : U8} {rssi : U16} {ev : Nat} {id : U16}
    (hi : i < neighbourhoodSize) (hd : d.toNat = (n.neighbourhood i).neighborDistance.toNat + 1) :
    DepthTracksParent (n.withParent d (BitVec.ofNat 8 i) id rssi ev) := by
  have hidx := slotIndex_toNat hi
  have hlt : (BitVec.ofNat 8 i).toNat < neighbourhoodSize := by rwa [hidx]
  refine .inr ⟨ne_noParent_of_lt hlt, ?_⟩
  show d.toNat = (n.neighbourhood (BitVec.ofNat 8 i).toNat).neighborDistance.toNat + 1
  rw [hidx, hd]

theorem depthTracksParent_switch (hpar : n.parentIndex ≠ noParent) :
    DepthTracksParent (linkParentSwitch .router n) ↔
      n.parent.neighborDistance = noRouteToBasestation ∨ n.HasCandidate ∨
        n.distance.toNat = n.parent.neighborDistance.toNat + 1 := by
  by_cases hlost : n.parent.neighborDistance = noRouteToBasestation
  · have hdrop : n.dropLostParent .router = { n with distance := 0xFF, parentIndex := noParent } :=
      if_pos ⟨hpar, hlost⟩
    refine iff_of_true ?_ (.inl hlost)
    rcases linkParentSwitch_cases .router n with ⟨_, he⟩ | ⟨_, i, hi, d, rssi, ev, he, _, hd, _⟩
    · rw [he, hdrop]
      exact .inl ⟨rfl, rfl⟩
    · rw [he]
      exact depthTracksParent_withParent hi hd
  · have hdrop : n.dropLostParent .router = n := if_neg fun h => hlost h.2
    have hcases := linkParentSwitch_cases .router n
    rw [hdrop] at hcases
    rcases hcases with ⟨hno, he⟩ | ⟨hc, i, hi, d, rssi, ev, he, _, hd, _⟩
    · rw [he]
      constructor
      · rintro (⟨h, _⟩ | ⟨_, h⟩)
        · exact absurd h hpar
        · exact .inr (.inr h)
      · rintro (h | h | h)
        · exact absurd h hlost
        · exact absurd h hno
        · exact .inr ⟨hpar, h⟩
    · rw [he]
      exact iff_of_true (depthTracksParent_withParent hi hd) (.inr (.inl hc))

/-- An advertisement of the parent is stored in the parent's slot, and a parent search follows. -/
theorem parentAdv_process (h : ParentAdv n p) :
    ∃ m, Heard n p n.parentIndex.toNat m ∧
      (DepthTracksParent (linkPacketProcess .router n p) ↔
        DepthTracksParent (linkParentSwitch .router m)) := by
  have hfind : (linkNeighborTableFind n p).1 = some n.parentIndex.toNat := by
    rw [linkNeighborTableFind, h.sender]
  rcases linkPacketProcess_cases .router n p with ⟨hn, _⟩ | ⟨i, m, hf, hm, hd⟩
  · rw [h.sender] at hn
    cases hn
  · rw [hfind] at hf
    cases hf
    refine ⟨m, hm, ?_⟩
    have hcnt := h.count
    generalize linkPacketProcess .router n p = r at hd ⊢
    cases hd with
    | tooMany hmany => exact absurd hcnt (Nat.not_lt.mpr hmany)
    | adv _ _ => rfl
    | advReset _ _ => exact depthTracksParent_post _
    | req _ hreq =>
      rcases h.type with ht | ht
      · rw [ht] at hreq; exact absurd hreq (by decide)
      · rw [ht] at hreq; exact absurd hreq (by decide)
    | other ha hr =>
      rcases h.type with ht | ht
      · exact absurd ht ha
      · exact absurd ht hr

theorem hasCandidate_heard (hm : Heard n p n.parentIndex.toNat m)
    (hne : n.distance.toNat ≠ (p.packet unetCtrlMsgDistance).toNat + 1) :
    m.HasCandidate ↔
      (p.packet unetCtrlMsgDistance < n.distance ∧ symmetricAfter n p n.parentIndex.toNat = true) ∨
      ∃ i < neighbourhoodSize, i ≠ n.parentIndex.toNat ∧
        n.scanStart.Candidate n.neighbourhood i := by
  have hstart : m.scanStart = n.scanStart := by
    rw [Node.scanStart, hm.node_distance, hm.parentIndex, hm.parentNeighborID, hm.parentRSSI]
    rfl
  have hself : n.scanStart.Candidate m.neighbourhood n.parentIndex.toNat ↔
      (p.packet unetCtrlMsgDistance < n.distance ∧
        symmetricAfter n p n.parentIndex.toNat = true) := by
    rw [ParentScan.Candidate, hm.symmetric, hm.distance]
    constructor
    · rintro ⟨hs, hlt, _⟩
      exact ⟨hlt, hs⟩
    · rintro ⟨hlt, hs⟩
      exact ⟨hs, hlt, .inl hne⟩
  have hother : ∀ i, i ≠ n.parentIndex.toNat →
      (n.scanStart.Candidate m.neighbourhood i ↔ n.scanStart.Candidate n.neighbourhood i) := by
    intro i hi
    rw [ParentScan.Candidate, ParentScan.Candidate, hm.others i hi]
  rw [Node.HasCandidate, hstart]
  constructor
  · rintro ⟨i, hi, hc⟩
    by_cases hip : i = n.parentIndex.toNat
    · subst hip
      exact .inl (hself.mp hc)
    · exact .inr ⟨i, hi, hip, (hother i hip).mp hc⟩
  · rintro (h | ⟨i, hi, hip, hc⟩)
    · exact ⟨_, hm.slot_lt, hself.mpr h⟩
    · exact ⟨i, hi, (hother i hip).mpr hc⟩

/-- The depth follows the parent exactly when the advertisement gives the search a candidate or
leaves nothing to change. -/
theorem depthTracksParent_iff (h : ParentAdv n p) :
    DepthTracksParent (linkPacketProcess .router n p) ↔ AdvResolved n p := by
  obtain ⟨m, hm, hiff⟩ := parentAdv_process h
  have hpar : m.parentIndex ≠ noParent := by
    rw [hm.parentIndex]
    exact ne_noParent_of_lt hm.slot_lt
  have hpd : m.parent.neighborDistance = p.packet unetCtrlMsgDistance := by
    rw [Node.parent, hm.parentIndex, hm.distance]
  rw [hiff, depthTracksParent_switch hpar, hpd, hm.node_distance, AdvResolved]
  by_cases hne : n.distance.toNat = (p.packet unetCtrlMsgDistance).toNat + 1
  · exact iff_of_true (.inr (.inr hne)) (.inr (.inl hne))
  · rw [hasCandidate_heard hm hne]
    simp only [hne, or_false, false_or]

end

/-- A parent of the router 0 heard at distance 0, then at distance 5. -/
theorem depthTracksParent_receivedAdv :
    ParentAdv (linkPacketProcess .router (linkInit .router default) (receivedAdv 1 0)) (receivedAdv 1 0) ∧
      (DepthTracksParent (linkPacketProcess .router
          (linkPacketProcess .router (linkInit .router default) (receivedAdv 1 0)) (receivedAdv 1 0)) ↔
        AdvResolved (linkPacketProcess .router (linkInit .router default) (receivedAdv 1 0))
          (receivedAdv 1 0)) := by
  have h : ParentAdv (linkPacketProcess .router (linkInit .router default) (receivedAdv 1 0))
      (receivedAdv 1 0) := ⟨by decide +kernel, by decide +kernel, .inl (by decide +kernel)⟩
  exact ⟨h, depthTracksParent_iff h⟩

/-- A parent that moves from depth 0 to depth 5 leaves its child at depth 1. -/
theorem depthTracksParent_fails :
    ¬ ∀ n₀ ops n p, Runs (linkStep .router) Free (linkInit .router n₀) ops n → ParentAdv n p →
      DepthTracksParent (linkPacketProcess .router n p) := by
  intro h
  have hp := h default [.process (receivedAdv 1 0)] _ (receivedAdv 1 5) (Runs.of_exec rfl)
    ⟨by decide +kernel, by decide +kernel, .inl (by decide +kernel)⟩
  exact absurd hp (by decide +kernel)

end Unet4Cooja
