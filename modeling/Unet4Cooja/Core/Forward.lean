import Unet4Cooja.Link.Table

/-!
# Forwarding (`unet_router.c`, `transport.c`, `trickle.c`)

* `unetRouterUp`, `unetRouterDownStart` / `unetRouterDownFinish`, `unetUpdatePacketDownDest` : the
  next hop of a packet;
* `unetPacketDownHeader`, `unetPacketUpHeader`, `unetRouterAdvFill`, `linkPacketCreateAck` : the
  headers of own packets;
* `UnetTransport`, `deliverTo` : the sockets;
* `Trickle` : the interval of a trickle timer.
-/

namespace Unet4Cooja

/-- The results `unet_router_up` and its callers use. -/
inductive RouteResult
  | packetSendOk | destinationUnreachable | hopLimitExceeded
  deriving DecidableEq, Repr

/-! ## The next hop -/

def Packet.decHopLimit (p : Packet) : Packet :=
  p.setByte unetHopLimit (p.packet unetHopLimit - 1)

/-- The end of `unet_router_up` and `unet_router_down`: destination and MAC header. -/
def setNextHop (n : Node) (p : Packet) (nextHop : U16) : Packet :=
  ieee802154HeaderSet n (ieee802154Dest16Set p nextHop) dataFrame true

theorem setNextHop_packet (n : Node) (p : Packet) (nextHop : U16) {k : Nat} (hk : llcProto ≤ k) :
    (setNextHop n p nextHop).packet k = p.packet k :=
  ieee802154HeaderSet_packet n _ _ _ hk

def unetRouterUp (n : Node) (p : Packet) : RouteResult × Node × Packet :=
  match unetRouterUpTableEntryFind n.rtableUp (p.addr64At unetDest64) with
  | none => (.destinationUnreachable, n, p)
  | some idx =>
    if p.packet unetHopLimit = 0 then (.hopLimitExceeded, n, p)
    else
      let p := p.decHopLimit
      let (seq, n) := nodeSeqNumGetNext n
      let p := { p with info := { p.info with seqNum := seq } }
      let p := setNextHop n p (unetRouterUpTableEntryGet n.rtableUp idx)
      (.packetSendOk, n, { p with state := .waitingTx })

/-- `unet_router_down` up to `packet_down.state = PACKET_IN_ROUTE`, with the parent index it has
read, or `none` where it returns `FALSE`. -/
def unetRouterDownStart (n : Node) (p : Packet) : Option U8 × Node × Packet :=
  if p.packet unetHopLimit = 0 then (none, n, p)
  else
    let p := p.decHopLimit
    if n.parentIndex = noParent then (none, n, p)
    else
      let (seq, n') := nodeSeqNumGetNext n
      (some n.parentIndex, n', { p with info := { p.info with seqNum := seq }, state := .inRoute })

def unetRouterDownFinish (n : Node) (p : Packet) (pIdx : U8) : Packet :=
  setNextHop n p (n.neighbourhood pIdx.toNat).addr16b

def linkGetParentAddr16 (n : Node) : U16 := n.parent.addr16b

def unetUpdatePacketDownDest (n : Node) (p : Packet) : Packet :=
  if n.parentIndex = noParent then p
  else
    let p := ieee802154Dest16Set p n.parent.addr16b
    p |>.setByte macDest16 p.info.dest16L
      |>.setByte (macDest16 + 1) p.info.dest16H

/-! ## Own packets -/

/-- The size of a packet with `payload_len` bytes after the network header. -/
def Packet.setSize (p : Packet) (payloadLen : U8) : Packet :=
  { p with info := { p.info with
      size := payloadLen + unetNwkHeaderSize + unetLlcHeaderSize + unetMacHeaderSize } }

def unetPacketDownHeader (n : Node) (p : Packet) (payloadLen : U8) : Packet :=
  (unetHeaderSet p unicastDown 0xFF nextHeaderUnetApp n.addr64 n.panId64 payloadLen).setSize
    payloadLen

def unetPacketUpHeader (n : Node) (p : Packet) (dest : Addr64) (payloadLen : U8) : Packet :=
  (unetHeaderSet p unicastUp 0xFF nextHeaderUnetApp n.addr64 dest payloadLen).setSize payloadLen

def unetRouterAdvFill (n : Node) (p : Packet) : Packet :=
  let p := { p with packet := fun k => if k < 128 then 0 else p.packet k }
  let p := p.setByte unetCtrlMsgPacketType routerAdv
  (unetHeaderSet p unicastDown 0xFF nextHeaderUnetCtrlMsg n.addr64 n.panId64 1).setSize 1

/-- `memcpy(ack, r, sizeof(packet_ack_t))` : the info array and the first 30 bytes. -/
def copyAck (ack r : Packet) : Packet :=
  { ack with info := r.info, packet := fun k => if k < 30 then r.packet k else ack.packet k }

def linkPacketCreateAck (n : Node) (p : Packet) : Packet :=
  let p := { p with info := { p.info with
    dest16H := p.packet (macSrc16 + 1)
    dest16L := p.packet macSrc16
    seqNum := p.packet macSeqNum } }
  let p := p.setByte unetPktType (p.packet unetPktType &&& ~~~ackReqMask)
  let p := { p with info := { p.info with
    size := unetNwkHeaderSize + unetLlcHeaderSize + unetMacHeaderSize } }
  ieee802154HeaderSet n p dataFrame true

/-! ## Sockets -/

/-- `unet_transport_t` as the tasks use it: `wakeUp` is the count of its semaphore, `packet` the
buffer its packet pointer points into. -/
structure UnetTransport where
  srcPort : U8
  wakeUp : Nat
  fromUp : Bool
  payloadSize : U8
  senderPort : U8
  senderAddress : Addr64

/-- The first socket that listens on the destination port gets the packet. -/
def deliverTo (fromUp : Bool) (r : Packet) : List UnetTransport → List UnetTransport
  | [] => []
  | c :: cs =>
    if c.srcPort = r.packet unetDestPort then
      { c with
        wakeUp := osSemPost c.wakeUp
        fromUp := fromUp
        payloadSize := r.packet unetAppPayloadLen
        senderPort := r.packet unetSourcePort
        senderAddress := r.addr64At unetSrc64 } :: cs
    else c :: deliverTo fromUp r cs

/-- The delivery part of the two ack tasks. -/
def deliver (fromUp : Bool) (r : Packet) (cs : List UnetTransport) : List UnetTransport :=
  if r.packet unetNextHeader = nextHeaderUnetApp then deliverTo fromUp r cs else cs

/-- What an application hands to `unet_send`. -/
structure SendRequest where
  destAddress : Addr64
  srcPort : U8
  dstPort : U8
  length : U8
  buffer : Nat → U8

/-- The transport header and the payload `unet_send` writes. More than 93 bytes do not fit; the model
keeps them as memory after the array, apart from the state of the packet. -/
def SendRequest.fill (d : SendRequest) (p : Packet) : Packet :=
  let p := p |>.setByte unetSourcePort d.srcPort
             |>.setByte unetDestPort d.dstPort
             |>.setByte unetAppPayloadLen d.length
  { p with packet := fun k =>
      if unetAppHeaderStart ≤ k ∧ k < unetAppHeaderStart + d.length.toNat then
        d.buffer (k - unetAppHeaderStart)
      else p.packet k }

def SendRequest.payloadLen (d : SendRequest) : U8 := d.length + 3

/-! ## Trickle timers -/

/-- The fields of `trickle_t` that decide whether a timer counts as reset. -/
structure Trickle where
  interval : Nat
  initInterval : Nat
  maxInterval : Nat
  intervalScaling : Nat
  deriving DecidableEq, Repr

def openTrickle (interval maxInterval : Nat) : Trickle := ⟨interval, interval, maxInterval, 0⟩

/-- `run_trickle`, without the random time it draws. -/
def runTrickle (t : Trickle) : Trickle :=
  { t with
    interval :=
      if t.interval < t.maxInterval >>> 1 then t.interval <<< t.intervalScaling else t.maxInterval
    intervalScaling := if t.intervalScaling < 8 then 1 else t.intervalScaling }

def resetTrickle (t : Trickle) : Trickle := { t with interval := t.initInterval }

def isTrickleReseted (t : Trickle) : Bool := t.interval = t.initInterval

end Unet4Cooja
