import Unet4Cooja.Lib.SkipZero
import Unet4Cooja.RouteTable

/-!
# The state of a node (`node.c`, `link.h`, globals of `link.c`)

`Node` holds the node parameters of `node.c`, the neighbour table and the parent variables of
`link.c`, the up-route table and the semaphore that wakes the link task.
-/

namespace Unet4Cooja
open Lib

/-- `UNET_DEVICE_TYPE`. -/
inductive DeviceType
  | panCoordinator | router
  deriving DecidableEq, Repr, Inhabited

abbrev neighbourhoodSize : Nat := 8

def noParent : U8 := 0xFF

def noRouteToBasestation : U8 := 0xFF

def routeToBasestationLost : U8 := 0xFE

def nodeDistanceInit : DeviceType → U8
  | .panCoordinator => 0
  | .router => 0xFF

def rssiThreshold : U8 := 3

/-- `unet_neighborhood_t`, with the two bits of `NeighborStatus` that the code reads. -/
structure UnetNeighborhood where
  addr16b : U16
  neighborRSSI : U8
  symmetric : Bool
  active : Bool
  neighborMyRSSI : U8
  neighborLQI : U8
  neighborLastID : U8
  neighborDistance : U8
  deriving DecidableEq, Repr, Inhabited

/-- The globals of one node that the link layer and the router use. `neighbourhood` is
`unet_neighbourhood`; its indices from `NEIGHBOURHOOD_SIZE` on stand for the memory after the
array. `linkPacketTxEvent` is the count of `Link_Packet_TX_Event`. -/
structure Node where
  addr64 : Addr64
  panId64 : Addr64
  distance : U8
  addr16H : U8
  addr16L : U8
  panid16H : U8
  panid16L : U8
  parentIndex : U8
  parentFailures : U8
  seqNum : U8
  neighbourhood : Nat → UnetNeighborhood
  parentNeighborID : U16
  parentRSSI : U16
  neighborTable : U16
  neighborLinkPacketTimeCnt : U8
  justReset : Bool
  linkResetCnt : U8
  linkPkt : Packet
  rtableUp : RTableUp
  linkPacketTxEvent : Nat
  deriving Inhabited

namespace Node

/-- The node's own 16-bit address. -/
def addr16 (n : Node) : U16 := bytesToShort n.addr16H n.addr16L

/-- `unet_neighbourhood[i] = nb`. -/
def setNeighbor (n : Node) (i : Nat) (nb : UnetNeighborhood) : Node :=
  { n with neighbourhood := Function.update n.neighbourhood i nb }

def postLinkPacketTx (n : Node) : Node :=
  { n with linkPacketTxEvent := osSemPost n.linkPacketTxEvent }

/-- The slot `NODE_PARENTINDEX` names. -/
def parent (n : Node) : UnetNeighborhood := n.neighbourhood n.parentIndex.toNat

variable (n : Node) (i j : Nat) (nb : UnetNeighborhood)

@[simp] theorem setNeighbor_self : (n.setNeighbor i nb).neighbourhood i = nb := by
  simp [setNeighbor]

@[simp] theorem setNeighbor_addr16 : (n.setNeighbor i nb).addr16 = n.addr16 := rfl

@[simp] theorem postLinkPacketTx_addr16 : n.postLinkPacketTx.addr16 = n.addr16 := rfl

theorem neighborTable_addr16 (t : U16) : { n with neighborTable := t }.addr16 = n.addr16 := rfl

@[simp] theorem postLinkPacketTx_neighbourhood :
    n.postLinkPacketTx.neighbourhood = n.neighbourhood := rfl

variable {i j} in
@[simp] theorem setNeighbor_of_ne (h : j ≠ i) :
    (n.setNeighbor i nb).neighbourhood j = n.neighbourhood j := by simp [setNeighbor, h]

end Node

def nodeSeqNumGetNext (n : Node) : U8 × Node := (bump n.seqNum, { n with seqNum := bump n.seqNum })

end Unet4Cooja
