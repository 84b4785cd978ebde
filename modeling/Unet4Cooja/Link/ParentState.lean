import Unet4Cooja.Lib.Runs
import Unet4Cooja.Link.Invariant

/-!
# The parent variables of a router

* `LinkOp`, `linkStep` : the calls that change the neighbour table and the parent variables;
* `ParentState` : index, address, slot and distance of the parent agree;
* `LinkOp.Sound` : the calls under which they keep agreeing (`parentState_of_runs`).
-/

namespace Unet4Cooja
open Lib

inductive LinkOp
  | process (p : Packet)
  | verify
  | activity (p : Packet)
  | seqnum (p : Packet)
  | associationRequest

def linkStep (dev : DeviceType) (n : Node) : LinkOp → Option Node
  | .process p => some (linkPacketProcess dev n p)
  | .verify => some (linkVerifyNeighbourhood dev n)
  | .activity p => some (linkSetNeighborActivity n p)
  | .seqnum p => some (linkSetNeighborSeqnum n p)
  | .associationRequest => some (linkPacketCreateAssociationRequest dev n)

/-- The four parent variables agree. -/
structure ParentState (n : Node) : Prop where
  index_lt : n.parentIndex ≠ noParent → n.parentIndex.toNat < neighbourhoodSize
  occupied : n.parentIndex ≠ noParent → n.parent.addr16b ≠ unusedAddr
  parentID : n.parentIndex ≠ noParent → n.parent.addr16b = n.parentNeighborID
  noParent_iff : n.parentIndex = noParent ↔ n.distance = 0xFF

/-- The packets and requests that keep the parent variables in agreement: a packet that leaves its
slot symmetric does not come from the address of a free slot and does not advertise a lost route,
and an association request is made without a parent. -/
def LinkOp.Sound (n : Node) : LinkOp → Prop
  | .process p => ∀ i, (linkNeighborTableFind n p).1 = some i → symmetricAfter n p i = true →
      p.linkAddr16 ≠ unusedAddr ∧ p.packet unetCtrlMsgDistance ≠ routeToBasestationLost
  | .associationRequest => n.parentIndex = noParent
  | _ => True

theorem ParentInv.toParentState {n : Node} (h : ParentInv True n) : ParentState n :=
  ⟨h.index_lt, h.occupied, h.parentID, h.detached, h.lost trivial⟩

theorem ParentInv.linkStep {n m : Node} {op : LinkOp} (h : ParentInv True n) (hok : op.Sound n)
    (hs : linkStep .router n op = some m) : ParentInv True m := by
  cases op with
  | process p =>
    cases hs
    refine h.linkPacketProcess fun i hf hsym => ?_
    exact ⟨(hok i hf hsym).1, fun _ => (hok i hf hsym).2⟩
  | verify => cases hs; exact h.linkVerifyNeighbourhood
  | activity p => cases hs; exact h.of_same (linkSetNeighborActivity_same n p)
  | seqnum p => cases hs; exact h.of_same (linkSetNeighborSeqnum_same n p)
  | associationRequest => cases hs; exact associationRequest hok

/-- The parent variables agree in every state that sound calls lead to. -/
theorem parentState_of_runs {n₀ n : Node} {ops : List LinkOp}
    (h : Runs (linkStep .router) LinkOp.Sound (linkInit .router n₀) ops n) : ParentState n :=
  (h.invariant (ParentInv.linkNeighborTableInit rfl rfl) fun _ _ _ hi hok hs =>
    hi.linkStep hok hs).toParentState

/-- A link packet of `src` whose list names the node `dst` alone, heard there with strength `rssi`. -/
def linkPacketFrom (src dst : U16) (type distance rssi : U8) : Packet :=
  (default : Packet)
    |>.setByte unetCtrlMsgPacketType type
    |>.setByte unetCtrlMsgAddr16H (hi src)
    |>.setByte unetCtrlMsgAddr16L (lo src)
    |>.setByte unetCtrlMsgDistance distance
    |>.setByte unetCtrlMsgNbCount 1
    |>.setByte unetCtrlMsgNbStart (hi dst)
    |>.setByte (unetCtrlMsgNbStart + 1) (lo dst)
    |>.setByte (unetCtrlMsgNbStart + 2) rssi

/-- An advertisement of `src` that the router 0 receives with strength 9. -/
def receivedAdv (src : U16) (distance : U8) : Packet :=
  { linkPacketFrom src 0 neighborAdv distance 9 with info := { (default : PacketInfo) with rssi := 9 } }

theorem parentState_receivedAdv :
    ∃ n, linkStep .router (linkInit .router default) (.process (receivedAdv 1 0)) = some n ∧
      n.parentIndex = 0 ∧ n.distance = 1 ∧ ParentState n := by
  refine ⟨linkPacketProcess .router (linkInit .router default) (receivedAdv 1 0), rfl, by decide +kernel,
    by decide +kernel, ?_⟩
  have hsound : (LinkOp.process (receivedAdv 1 0)).Sound (linkInit .router default) :=
    fun _ _ _ => by decide +kernel
  exact parentState_of_runs (.snoc .nil hsound rfl)

/-- An association request forgets the distance but not the parent; an advertisement from the
address of a free slot, or of a lost route, makes its sender a parent. -/
theorem parentState_fails :
    (¬ ∀ n₀ ops n, Runs (linkStep .router) Free (linkInit .router n₀) ops n → ParentState n) ∧
    ¬ ParentState (linkPacketProcess .router (linkInit .router default) (receivedAdv unusedAddr 0)) ∧
    ¬ ParentState (linkPacketProcess .router (linkInit .router default)
      (receivedAdv 1 routeToBasestationLost)) := by
  refine ⟨fun h => ?_, fun h => ?_, fun h => ?_⟩
  · have hp := h default [.process (receivedAdv 1 0), .associationRequest] _ (Runs.of_exec rfl)
    exact absurd (hp.noParent_iff.mpr (by decide +kernel)) (by decide +kernel)
  · exact h.occupied (by decide +kernel) (by decide +kernel)
  · exact absurd (h.noParent_iff.mpr (by decide +kernel)) (by decide +kernel)

end Unet4Cooja
