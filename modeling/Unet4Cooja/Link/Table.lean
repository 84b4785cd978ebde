import Unet4Cooja.Ieee802154

/-!
# The neighbour table and the choice of a parent (`link.c`)

* `linkNeighborTableInit`, `linkNeighborTableFind`, `linkNeighborSymmetryUpdate` : the slots of
  `unet_neighbourhood`;
* `ParentScan`, `linkParentSwitch` : the search for a neighbour of smaller depth;
* `linkPacketProcess`, `linkVerifyNeighbourhood`, `linkSetNeighborActivity`,
  `linkSetNeighborSeqnum` : what received packets and the periodic check do to the table;
* `linkPacketCreate`, `linkPacketCreateAssociationRequest` : the link packet.
-/

namespace Unet4Cooja
open Lib

/-! ## Slots -/

/-- The free slot that `link_neighbor_table_init` and an eviction write; the link quality keeps
its old value. -/
def UnetNeighborhood.freed (nb : UnetNeighborhood) : UnetNeighborhood :=
  { nb with
    addr16b := unusedAddr
    neighborRSSI := 0
    neighborLastID := 0
    neighborMyRSSI := 0
    neighborDistance := noRouteToBasestation
    symmetric := false
    active := false }

def linkNeighborTableInit (n : Node) : Node :=
  forRange neighbourhoodSize (fun i n => n.setNeighbor i (n.neighbourhood i).freed) n

/-- A node with an initialised table, no parent and the initial distance. -/
def linkInit (dev : DeviceType) (n : Node) : Node :=
  linkNeighborTableInit
    { n with
      parentIndex := noParent
      distance := nodeDistanceInit dev
      parentNeighborID := unusedAddr }

def Packet.linkAddr16 (p : Packet) : U16 :=
  bytesToShort (p.packet unetCtrlMsgAddr16H) (p.packet unetCtrlMsgAddr16L)

/-- The first slot that holds `addr`. -/
def Node.findNeighbor (n : Node) (addr : U16) : Option Nat :=
  firstBelow neighbourhoodSize fun j => (n.neighbourhood j).addr16b = addr

/-- `link_neighbor_table_find`, with `none` for the result `NEIGHBOURHOOD_SIZE`: the slot of the
sender of `p`, or the first free slot, which then becomes the sender's. -/
def linkNeighborTableFind (n : Node) (p : Packet) : Option Nat × Node :=
  match n.findNeighbor p.linkAddr16 with
  | some i => (some i, n)
  | none =>
    match n.findNeighbor unusedAddr with
    | some i =>
      (some i,
        { n.setNeighbor i
            { n.neighbourhood i with
              addr16b := p.linkAddr16
              neighborRSSI := p.info.rssi
              neighborMyRSSI := 0 } with
          neighborLinkPacketTimeCnt := 1 })
    | none => (none, n)

/-- The running average of a signal strength: a larger value counts at once. -/
def rssiFilter (old new : U8) : U8 :=
  if old < new then new else BitVec.ofNat 8 ((old.toNat * 7 + new.toNat) >>> 3)

/-- The entry of `p`'s neighbour list that names this node, if there is one. -/
def listedAt (n : Node) (p : Packet) : Option Nat :=
  firstBelow (p.packet unetCtrlMsgNbCount).toNat fun j =>
    p.packet (unetCtrlMsgNbStart + 3 * j) = n.addr16H ∧
      p.packet (unetCtrlMsgNbStart + 3 * j + 1) = n.addr16L

def linkNeighborSymmetryUpdate (n : Node) (p : Packet) (idx : Nat) : Node :=
  match listedAt n p with
  | none => n
  | some j =>
    let nb := n.neighbourhood idx
    let myRSSI := rssiFilter nb.neighborMyRSSI (p.packet (unetCtrlMsgNbStart + 3 * j + 2))
    n.setNeighbor idx
      { nb with
        neighborMyRSSI := myRSSI
        symmetric := rssiThreshold ≤ myRSSI ∧ rssiThreshold ≤ nb.neighborRSSI }

/-- `NeighborTable | (0x01 << i)`. -/
def Node.markActive (n : Node) (i : Nat) : Node :=
  { n with neighborTable := n.neighborTable ||| (1 <<< i) }

/-! ## The parent -/

/-- The local variables of the scan in `link_parent_switch`, with the two globals it writes. -/
structure ParentScan where
  depth : U8
  parentIdx : U8
  parentNeighborID : U16
  parentRSSI : U16
  deriving DecidableEq

/-- One round of the scan, for slot `i`. The sums with 1 and 5 are computed in `int`. -/
def ParentScan.visit (slots : Nat → UnetNeighborhood) (i : Nat) (s : ParentScan) : ParentScan :=
  let nb := slots i
  if nb.neighborDistance < s.depth then
    if nb.symmetric then
      if s.depth.toNat = nb.neighborDistance.toNat + 1 then
        if s.parentNeighborID = nb.addr16b then
          { s with parentRSSI := nb.neighborRSSI.setWidth 16, parentIdx := BitVec.ofNat 8 i }
        else if s.parentRSSI.toNat + 5 < nb.neighborRSSI.toNat then
          { s with
            parentNeighborID := nb.addr16b
            parentRSSI := nb.neighborRSSI.setWidth 16
            parentIdx := BitVec.ofNat 8 i }
        else s
      else
        { depth := nb.neighborDistance + 1
          parentNeighborID := nb.addr16b
          parentRSSI := nb.neighborRSSI.setWidth 16
          parentIdx := BitVec.ofNat 8 i }
    else s
  else s

/-- The node with its parent given up because the parent has no depth any more. -/
def Node.dropLostParent (dev : DeviceType) (n : Node) : Node :=
  if n.parentIndex ≠ noParent ∧ n.parent.neighborDistance = nodeDistanceInit dev then
    { n with distance := nodeDistanceInit dev, parentIndex := noParent }
  else n

/-- The scan of `link_parent_switch` over the table. -/
def Node.scanParent (n : Node) : ParentScan :=
  forRange neighbourhoodSize (ParentScan.visit n.neighbourhood)
    { depth := n.distance
      parentIdx := n.parentIndex
      parentNeighborID := n.parentNeighborID
      parentRSSI := n.parentRSSI }

/-- What `link_parent_switch` stores after the scan. -/
def Node.adopt (n : Node) (s : ParentScan) : Node :=
  let n' :=
    { n with
      distance := s.depth
      parentIndex := s.parentIdx
      parentNeighborID := s.parentNeighborID
      parentRSSI := s.parentRSSI }
  if s.parentIdx ≠ n.parentIndex then n'.postLinkPacketTx else n'

def linkParentSwitch (dev : DeviceType) (n : Node) : Node :=
  let n := n.dropLostParent dev
  n.adopt n.scanParent

/-- `link_node_distance_update`, as built without `EXPERIMENTAL`. -/
def linkNodeDistanceUpdate (dev : DeviceType) (n : Node) (_i : Nat) : Node := linkParentSwitch dev n

/-- The assignments that end a kinship: no parent, no depth. -/
def Node.loseParent (dev : DeviceType) (n : Node) : Node :=
  { n with
    distance := nodeDistanceInit dev
    parentIndex := noParent
    parentNeighborID := unusedAddr
    parentRSSI := 0 }

/-- Both tables cleared, "in order to not associate with a former child". -/
def Node.resetTables (n : Node) : Node :=
  let n := linkNeighborTableInit n
  { n with rtableUp := unetRouterUpTableClear n.rtableUp }

/-! ## Received packets -/

/-- What `link_packet_process` writes into the sender's slot before it looks at the list. -/
def UnetNeighborhood.heard (nb : UnetNeighborhood) (p : Packet) : UnetNeighborhood :=
  { nb with
    neighborRSSI := rssiFilter nb.neighborRSSI p.info.rssi
    neighborLQI := p.info.lqi
    neighborDistance := p.packet unetCtrlMsgDistance
    active := true }

/-- The `NEIGHBOR_REQ` branch of `link_packet_process`, for a sender in slot `i`. -/
def linkNeighborReq (dev : DeviceType) (n : Node) (i : Nat) : Node :=
  match dev with
  | .panCoordinator => n.postLinkPacketTx
  | .router =>
    -- If the parent was reset, the kinship is lost.
    let n :=
      if n.parentNeighborID = (n.neighbourhood i).addr16b then (n.loseParent dev).resetTables else n
    if n.parentIndex ≠ noParent then n.postLinkPacketTx else n

def linkPacketProcess (dev : DeviceType) (n : Node) (p : Packet) : Node :=
  match linkNeighborTableFind n p with
  | (none, n) => n
  | (some i, n) =>
    let n := n.setNeighbor i ((n.neighbourhood i).heard p)
    if (p.packet unetCtrlMsgNbCount).toNat < neighbourhoodSize then
      let n := (linkNeighborSymmetryUpdate n p i).markActive i
      let type := p.packet unetCtrlMsgPacketType
      if type = neighborAdv then linkNodeDistanceUpdate dev n i
      else if type = neighborAdvReset then (linkNodeDistanceUpdate dev n i).postLinkPacketTx
      else if type = neighborReq then linkNeighborReq dev n i
      else n
    else n

def linkSetNeighborActivity (n : Node) (p : Packet) : Node :=
  match n.findNeighbor p.sourceAddr16 with
  | none => n
  | some i =>
    let nb := n.neighbourhood i
    (n.setNeighbor i
      { nb with
        neighborRSSI := rssiFilter nb.neighborRSSI p.info.rssi
        neighborLQI := p.info.lqi
        active := true }).markActive i

def linkSetNeighborSeqnum (n : Node) (p : Packet) : Node :=
  match n.findNeighbor p.sourceAddr16 with
  | none => n
  | some i => n.setNeighbor i { n.neighbourhood i with neighborLastID := p.info.seqNum }

def linkPacketIsDuplicated (n : Node) (srcAddr : U16) (seqNum : U8) : Bool :=
  match n.findNeighbor srcAddr with
  | none => false
  | some i => (n.neighbourhood i).neighborLastID = seqNum

/-! ## The periodic check -/

/-- One round of `link_verify_neighbourhood`; the flag is `reset_neighbor_table`. -/
def linkVerifyNeighbor (dev : DeviceType) (i : Nat) (s : Bool × Node) : Bool × Node :=
  let (reset, n) := s
  -- Verify if the parent node is symmetric.
  let n :=
    if dev = .router ∧ (n.neighbourhood i).addr16b ≠ unusedAddr ∧
        n.parentNeighborID = (n.neighbourhood i).addr16b ∧ (n.neighbourhood i).symmetric = false then
      n.loseParent dev
    else n
  if n.neighborTable.getLsbD i = false ∧ (n.neighbourhood i).addr16b ≠ unusedAddr then
    let isParent := dev = .router ∧ n.parentNeighborID = (n.neighbourhood i).addr16b
    let reset := if isParent then true else reset
    let n := if isParent then n.loseParent dev else n
    (reset, (n.setNeighbor i (n.neighbourhood i).freed).postLinkPacketTx)
  else (reset, n)

def linkVerifyNeighbourhood (dev : DeviceType) (n : Node) : Node :=
  let (reset, n) := forRange neighbourhoodSize (linkVerifyNeighbor dev) (false, n)
  let n :=
    if dev = .router ∧ n.distance = nodeDistanceInit dev then
      if reset then n.resetTables else linkParentSwitch dev n
    else n
  { n with neighborTable := 0 }

/-! ## Link packets -/

/-- One round of the loop that appends the neighbour table: the packet and `neighbor_cnt`. -/
def linkPacketAddNeighbor (slots : Nat → UnetNeighborhood) (i : Nat) (s : Packet × Nat) :
    Packet × Nat :=
  let (p, cnt) := s
  if (slots i).addr16b ≠ unusedAddr then
    (p |>.setByte (unetCtrlMsgNbStart + 3 * cnt) (hi (slots i).addr16b)
       |>.setByte (unetCtrlMsgNbStart + 3 * cnt + 1) (lo (slots i).addr16b)
       |>.setByte (unetCtrlMsgNbStart + 3 * cnt + 2) (slots i).neighborRSSI, cnt + 1)
  else (p, cnt)

/-- The packet type `link_packet_create` chooses, with `just_reset` and `link_reset_cnt` after it. -/
def linkPacketType (dev : DeviceType) (n : Node) : U8 × Bool × U8 :=
  if n.distance = noRouteToBasestation then (neighborReq, n.justReset, n.linkResetCnt)
  else if dev = .panCoordinator ∧ n.distance = 0 ∧ n.justReset then
    (neighborAdvReset, if 3 ≤ n.linkResetCnt + 1 then false else n.justReset, n.linkResetCnt + 1)
  else (neighborAdv, n.justReset, n.linkResetCnt)

/-- The body of the link packet: address, distance, neighbour list, count and type; with it the
payload length. -/
def linkPacketBody (dev : DeviceType) (n : Node) : Packet × U8 :=
  let p := { n.linkPkt with packet := fun k => if k < 128 then 0 else n.linkPkt.packet k }
  let p := p |>.setByte unetCtrlMsgAddr16H n.addr16H
             |>.setByte unetCtrlMsgAddr16L n.addr16L
             |>.setByte unetCtrlMsgDistance n.distance
  let (p, cnt) := forRange neighbourhoodSize (linkPacketAddNeighbor n.neighbourhood) (p, 0)
  (p |>.setByte unetCtrlMsgNbCount (BitVec.ofNat 8 cnt)
     |>.setByte unetCtrlMsgPacketType (linkPacketType dev n).1, BitVec.ofNat 8 (cnt * 3 + 5))

def linkPacketCreate (dev : DeviceType) (n : Node) : Node :=
  let (p, payloadLen) := linkPacketBody dev n
  let (_, justReset, linkResetCnt) := linkPacketType dev n
  let p := unetHeaderSet p broadcastLocalLink 1 nextHeaderUnetCtrlMsg n.addr64 n.panId64 payloadLen
  let size := payloadLen + unetNwkHeaderSize + unetLlcHeaderSize + unetMacHeaderSize
  let (seq, n) := nodeSeqNumGetNext n
  let p := { p with info := { p.info with size := size, seqNum := seq } }
  let p := ieee802154HeaderSet n (ieee802154Dest16SetBroadcast p) dataFrame false
  { n with justReset := justReset, linkResetCnt := linkResetCnt, linkPkt := p }

def linkPacketCreateAssociationRequest (dev : DeviceType) (n : Node) : Node :=
  let n := linkNeighborTableInit { n with panId64 := fun _ => 0xFF }
  linkPacketCreate dev
    { n with
      panid16H := hi broadAddr
      panid16L := lo broadAddr
      distance := noRouteToBasestation }

end Unet4Cooja
