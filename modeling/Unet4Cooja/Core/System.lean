import Unet4Cooja.Core.Forward

/-!
# The tasks of a node (`unet_core.c`)

* `Sys` : the buffers `packet_down` and `packet_up`, the semaphore counts, the sockets, and where
  each task is in its loop;
* `ieee802154PacketInput`, `unetPacketInput` : what the radio task does with a frame;
* `downAckStep`, `downStep`, `upAckStep`, `upStep`, `linkTaskStep`, `sendStep` : one step of a task;
* `Act`, `sysStep` : the interleavings.

A step of a task is a stretch of its loop without two accesses that another task could come between
with an effect. The radio task runs at the highest network priority, so a frame is handled in one
step.
-/

namespace Unet4Cooja

/-! ## Where the tasks are -/

/-- `UNET_Router_Down_Ack_Task`. -/
inductive DownAckPc
  | wait | sendAck | checkDup | record | decide | route | routeEnd (pIdx : U8) | post
  deriving DecidableEq, Repr, Inhabited

/-- `UNET_Router_Down_Task`. -/
inductive DownPc
  | runTimer | pendRoute | woken | adv | advAcquire | advFill | advRoute | advRouteEnd (pIdx : U8)
  | claim | output | update | setWait | pendAck | acked | timedOut
  deriving DecidableEq, Repr, Inhabited

/-- `UNET_Router_Up_Ack_Task`. -/
inductive UpAckPc
  | wait | sendAck | decide | post
  deriving DecidableEq, Repr, Inhabited

/-- `UNET_Router_Up_Task`. -/
inductive UpPc
  | pendRoute | claim | output | setWait | pendAck | acked | timedOut
  deriving DecidableEq, Repr, Inhabited

/-- `UNET_Link_Task`. -/
inductive LinkPc
  | pendTx | woken | post | output
  deriving DecidableEq, Repr, Inhabited

/-- A task inside `unet_send`. -/
inductive SendPc
  | idle
  | downFill (d : SendRequest) | downHeader (len : U8) | downRoute | downRouteEnd (pIdx : U8)
  | downPost
  | upFill (d : SendRequest) | upRoute (dest : Addr64) (len : U8) | upPost

/-- What has happened to `packet_down` since it was acquired. -/
inductive Stage
  | free | acquired | filled | routed
  deriving DecidableEq, Repr, Inhabited

/-- The state of a node. The last five fields are history that no step reads: the stage of
`packet_down`, the transmissions the packets in the buffers come from, the transmission recorded
last for each sender, and the packets each direction has delivered or routed. -/
structure Sys (σ : Type) where
  node : Node
  packetDown : Packet
  packetUp : Packet
  ackDown : Packet
  ackUp : Packet
  sockets : List UnetTransport
  timerDown : Trickle
  routerDownAckRequest : Nat
  routerDownRouteRequest : Nat
  routerDownAckReceived : Nat
  routerUpAckRequest : Nat
  routerUpRouteRequest : Nat
  routerUpAckReceived : Nat
  downAck : DownAckPc
  down : DownPc
  downRetries : U8
  upAck : UpAckPc
  up : UpPc
  upRetries : U8
  link : LinkPc
  sender : σ → SendPc
  stage : Stage
  downTag : Nat
  upTag : Nat
  taken : U16 → Option Nat
  handledDown : List (U16 × Nat)
  handledUp : List (U16 × Nat)

variable {σ : Type}

def packetReleaseDown (s : Sys σ) : Sys σ :=
  { s with packetDown := { s.packetDown with state := .idle }, stage := .free }

def packetReleaseUp (s : Sys σ) : Sys σ :=
  { s with packetUp := { s.packetUp with state := .idle } }

/-! ## Received frames -/

/-- The `UNICAST_UP` branch, once `packet_up` is acquired; `tag` names the transmission the frame
belongs to. -/
def acceptUp (s : Sys σ) (p : Packet) (tag : Nat) : Sys σ :=
  { s with
    packetUp := p
    upTag := tag
    node := linkSetNeighborActivity s.node p
    routerUpAckRequest := osSemPost s.routerUpAckRequest }

/-- The `UNICAST_DOWN` branch, once `packet_down` is acquired. -/
def acceptDown (s : Sys σ) (p : Packet) (tag : Nat) : Sys σ :=
  let r := { p with state := .sendingAck }
  let n := { s.node with rtableUp :=
    unetRouterUpTableEntryAdd s.node.rtableUp r.sourceAddr16 (r.addr64At unetSrc64) }
  { s with
    packetDown := r
    stage := .filled
    downTag := tag
    node := linkSetNeighborActivity n r
    routerDownAckRequest := osSemPost s.routerDownAckRequest }

/-- The `UNICAST_ACK_UP` branch, for an ack that passes its test. -/
def acceptAckUp (s : Sys σ) : Sys σ :=
  { s with routerUpAckReceived := osSemPost s.routerUpAckReceived }

/-- The `UNICAST_ACK_DOWN` branch, for an ack that passes its tests. -/
def acceptAckDown (s : Sys σ) : Sys σ :=
  { s with
    packetDown := { s.packetDown with state := .acked }
    routerDownAckReceived := osSemPost s.routerDownAckReceived }

def unetPacketInput (dev : DeviceType) (s : Sys σ) (p : Packet) (tag : Nat) : Sys σ :=
  let type := p.packet unetPktType
  if type = broadcastLocalLink then
    if p.packet unetNextHeader = nextHeaderUnetCtrlMsg ∧
        (p.packet unetCtrlMsgPacketType = neighborReq ∨
          p.packet unetCtrlMsgPacketType &&& 0x7F = neighborAdv) then
      { s with node := linkPacketProcess dev s.node p }
    else s
  else if type = unicastUp then
    if s.packetUp.state = .idle then acceptUp s p tag else s
  else if type = unicastDown then
    if s.packetDown.state = .idle then acceptDown s p tag else s
  else if type = unicastAckUp then
    if p.info.seqNum = s.packetUp.info.seqNum ∧ s.packetUp.state = .waitingAck then acceptAckUp s
    else s
  else if type = unicastAckDown then
    if s.packetDown.state = .waitingAck ∧ p.info.seqNum = s.packetDown.info.seqNum ∧
        p.sourceAddr16 = s.packetDown.destAddr16 then acceptAckDown s
    else s
  else s

def Packet.macSource (p : Packet) : U16 :=
  bytesToShort (p.packet (macSrc16 + 1)) (p.packet macSrc16)

/-- What `ieee802154_packet_input` reads out of the MAC header. -/
def Packet.parseMac (n : Node) (p : Packet) : Packet :=
  let fc : FrameControl := ⟨p.packet macFrameCtrl, p.packet (macFrameCtrl + 1)⟩
  { p with info := { p.info with
      size := p.packet phyPktSize
      seqNum := p.packet macSeqNum
      src16H := p.packet (macSrc16 + 1)
      src16L := p.packet macSrc16
      duplicated := fc.ackRequest &&
        linkPacketIsDuplicated n p.macSource (p.packet macSeqNum) } }

/-- The frames `ieee802154_packet_input` passes on, apart from their check sum. -/
def Packet.supported (p : Packet) : Bool :=
  let fc : FrameControl := ⟨p.packet macFrameCtrl, p.packet (macFrameCtrl + 1)⟩
  fc.frameType = dataFrame ∧ fc.srcAddrMode = addr16Mode ∧ fc.dstAddrMode = addr16Mode ∧
    fc.securityEnabled = false ∧ p.packet llcProto = unetLlcProtoNumber

/-- The packet `ieee802154_packet_input` passes on: the buffer it is read from is busy. -/
def Packet.macInput (n : Node) (p : Packet) : Packet := { p.parseMac n with state := .busy }

/-- `ieee802154_packet_input` on a frame in `Radio_RX_buffer` whose check sum was right if `crc`. -/
def ieee802154PacketInput (dev : DeviceType) (s : Sys σ) (p : Packet) (tag : Nat) (crc : Bool) :
    Sys σ :=
  if p.supported ∧ crc then unetPacketInput dev s (p.macInput s.node) tag else s

/-! ## The tasks -/

/-- A pend: it takes a token, or times out if there is none. -/
def osSemPend (count : Nat) (ok : Bool) (taken timeout : Option (Sys σ)) : Option (Sys σ) :=
  if ok then if 0 < count then taken else none else if count = 0 then timeout else none

/-- One step of `UNET_Router_Down_Ack_Task`; `ok` is the result of the transmission. -/
def downAckStep (s : Sys σ) (ok : Bool) : Option (Sys σ) :=
  match s.downAck with
  | .wait =>
    osSemPend s.routerDownAckRequest ok
      (some { s with
        routerDownAckRequest := s.routerDownAckRequest - 1
        ackDown := linkPacketCreateAck s.node (copyAck s.ackDown s.packetDown)
        downAck := .sendAck })
      none
  | .sendAck =>
    some { s with
      packetDown := { s.packetDown with state := if ok then .acked else .notAcked }
      downAck := .checkDup }
  | .checkDup =>
    if s.packetDown.info.duplicated then some { packetReleaseDown s with downAck := .wait }
    else some { s with downAck := .record }
  | .record =>
    some { s with
      node := linkSetNeighborSeqnum s.node s.packetDown
      taken := Function.update s.taken s.packetDown.sourceAddr16 (some s.downTag)
      downAck := .decide }
  | .decide =>
    let s := { s with handledDown := (s.packetDown.sourceAddr16, s.downTag) :: s.handledDown }
    if s.packetDown.addr64At unetDest64 = s.node.addr64 then
      some { packetReleaseDown { s with sockets := deliver false s.packetDown s.sockets } with
        downAck := .wait }
    else some { s with downAck := .route }
  | .route =>
    match unetRouterDownStart s.node s.packetDown with
    | (none, n, p) =>
      some { packetReleaseDown { s with node := n, packetDown := p } with downAck := .wait }
    | (some pIdx, n, p) => some { s with node := n, packetDown := p, downAck := .routeEnd pIdx }
  | .routeEnd pIdx =>
    some { s with
      packetDown := unetRouterDownFinish s.node s.packetDown pIdx
      stage := .routed
      downAck := .post }
  | .post =>
    some { s with
      routerDownRouteRequest := osSemPost s.routerDownRouteRequest
      downAck := .wait }

/-- One step of `UNET_Router_Down_Task`; `ok` is the result of a transmission or of a pend. A
coordinator sends no router advertisement, and its timer never ends. -/
def downStep (dev : DeviceType) (s : Sys σ) (ok : Bool) : Option (Sys σ) :=
  match s.down with
  | .runTimer => some { s with timerDown := runTrickle s.timerDown, down := .pendRoute }
  | .pendRoute =>
    osSemPend s.routerDownRouteRequest ok
      (some { s with routerDownRouteRequest := s.routerDownRouteRequest - 1, down := .woken })
      (if dev = .router then some { s with down := .adv } else none)
  | .woken =>
    if dev = .router ∧ isTrickleReseted s.timerDown = true ∧ s.packetDown.state = .idle then
      some { s with down := .adv }
    else some { s with down := .claim }
  | .adv =>
    if routeToBasestationLost ≤ s.node.distance then some { s with down := .runTimer }
    else some { s with down := .advAcquire }
  | .advAcquire =>
    if s.packetDown.state = .idle then
      some { s with
        packetDown := { s.packetDown with state := .startRoute }
        stage := .acquired
        down := .advFill }
    else some { s with down := .runTimer }
  | .advFill =>
    some { s with
      packetDown := unetRouterAdvFill s.node s.packetDown
      stage := .filled
      down := .advRoute }
  | .advRoute =>
    -- the result of `unet_router_down` is not looked at
    match unetRouterDownStart s.node s.packetDown with
    | (none, n, p) => some { s with node := n, packetDown := p, down := .claim }
    | (some pIdx, n, p) => some { s with node := n, packetDown := p, down := .advRouteEnd pIdx }
  | .advRouteEnd pIdx =>
    some { s with
      packetDown := unetRouterDownFinish s.node s.packetDown pIdx
      stage := .routed
      down := .claim }
  | .claim =>
    some { s with
      packetDown := { s.packetDown with state := .waitingTx }
      downRetries := 30
      down := .output }
  | .output =>
    let s := { s with downRetries := if ok then s.downRetries else s.downRetries - 1 }
    if ok ∧ s.packetDown.destAddr16 ≠ linkGetParentAddr16 s.node then some { s with down := .update }
    else some { s with down := .setWait }
  | .update =>
    some { s with
      packetDown := unetUpdatePacketDownDest s.node s.packetDown
      down := .setWait }
  | .setWait =>
    some { s with packetDown := { s.packetDown with state := .waitingAck }, down := .pendAck }
  | .pendAck =>
    osSemPend s.routerDownAckReceived ok
      (some { s with routerDownAckReceived := s.routerDownAckReceived - 1, down := .acked })
      (some { s with down := .timedOut })
  | .acked =>
    some { packetReleaseDown s with
      node := { s.node with parentFailures := 0 }
      down := .runTimer }
  | .timedOut =>
    if s.downRetries = 0 then some { packetReleaseDown s with down := .runTimer }
    else some { s with down := .output }

/-- One step of `UNET_Router_Up_Ack_Task`; `ok` is the result of the transmission. -/
def upAckStep (s : Sys σ) (ok : Bool) : Option (Sys σ) :=
  match s.upAck with
  | .wait =>
    osSemPend s.routerUpAckRequest ok
      (some { s with
        routerUpAckRequest := s.routerUpAckRequest - 1
        ackUp := linkPacketCreateAck s.node (copyAck s.ackUp s.packetUp)
        upAck := .sendAck })
      none
  | .sendAck => some { s with upAck := .decide }
  | .decide =>
    let s := { s with handledUp := (s.packetUp.sourceAddr16, s.upTag) :: s.handledUp }
    if s.packetUp.addr64At unetDest64 = s.node.addr64 then
      some { packetReleaseUp { s with sockets := deliver true s.packetUp s.sockets } with
        upAck := .wait }
    else
      -- the result of `unet_router_up` is not looked at
      let (_, n, p) := unetRouterUp s.node s.packetUp
      some { s with node := n, packetUp := p, upAck := .post }
  | .post =>
    some { s with routerUpRouteRequest := osSemPost s.routerUpRouteRequest, upAck := .wait }

/-- One step of `UNET_Router_Up_Task`; `ok` is the result of a transmission or of a pend. -/
def upStep (s : Sys σ) (ok : Bool) : Option (Sys σ) :=
  match s.up with
  | .pendRoute =>
    osSemPend s.routerUpRouteRequest ok
      (some { s with routerUpRouteRequest := s.routerUpRouteRequest - 1, up := .claim })
      none
  | .claim => some { s with upRetries := 3, up := .output }
  | .output => some { s with upRetries := s.upRetries - 1, up := .setWait }
  | .setWait =>
    some { s with packetUp := { s.packetUp with state := .waitingAck }, up := .pendAck }
  | .pendAck =>
    osSemPend s.routerUpAckReceived ok
      (some { s with routerUpAckReceived := s.routerUpAckReceived - 1, up := .acked })
      (some { s with up := .timedOut })
  | .acked => some { packetReleaseUp s with up := .pendRoute }
  | .timedOut =>
    if s.upRetries = 0 then some { packetReleaseUp s with up := .pendRoute }
    else some { s with up := .output }

/-- One step of `UNET_Link_Task`; `ok` is the result of the pend. -/
def linkTaskStep (dev : DeviceType) (s : Sys σ) (ok : Bool) : Option (Sys σ) :=
  match s.link with
  | .pendTx =>
    osSemPend s.node.linkPacketTxEvent ok
      (some { s with
        node := { s.node with linkPacketTxEvent := s.node.linkPacketTxEvent - 1 }
        link := .woken })
      (some { s with link := .output })
  | .woken =>
    if s.node.distance ≠ nodeDistanceInit dev then
      some { s with timerDown := resetTrickle s.timerDown, link := .post }
    else some { s with link := .output }
  | .post =>
    some { s with
      routerDownRouteRequest := osSemPost s.routerDownRouteRequest
      link := .output }
  | .output => some { s with node := linkPacketCreate dev s.node, link := .pendTx }

section Sender
variable [DecidableEq σ]

/-- `sender` with task `i` at `pc`. -/
def Sys.setSender (s : Sys σ) (i : σ) (pc : SendPc) : Sys σ :=
  { s with sender := Function.update s.sender i pc }

/-- One step of task `i` inside `unet_send`; `d` is the request of a new call. An acquire that is
denied is a delay. -/
def sendStep (s : Sys σ) (i : σ) (d : SendRequest) : Option (Sys σ) :=
  match s.sender i with
  | .idle =>
    if s.node.panId64 = d.destAddress then
      if s.packetDown.state = .idle then
        some ({ s with
          packetDown := { s.packetDown with state := .startRoute }
          stage := .acquired }.setSender i (.downFill d))
      else none
    else
      if s.packetUp.state = .idle then
        some ({ s with
          packetUp := { s.packetUp with state := .startRoute } }.setSender i (.upFill d))
      else none
  | .downFill d =>
    some ({ s with packetDown := d.fill s.packetDown }.setSender i (.downHeader d.payloadLen))
  | .downHeader len =>
    if routeToBasestationLost ≤ s.node.distance then
      some ((packetReleaseDown s).setSender i .idle)
    else
      some ({ s with
        packetDown := unetPacketDownHeader s.node s.packetDown len
        stage := .filled }.setSender i .downRoute)
  | .downRoute =>
    match unetRouterDownStart s.node s.packetDown with
    | (none, n, p) =>
      some ((packetReleaseDown { s with node := n, packetDown := p }).setSender i .idle)
    | (some pIdx, n, p) =>
      some ({ s with node := n, packetDown := p }.setSender i (.downRouteEnd pIdx))
  | .downRouteEnd pIdx =>
    some ({ s with
      packetDown := unetRouterDownFinish s.node s.packetDown pIdx
      stage := .routed }.setSender i .downPost)
  | .downPost =>
    some ({ s with routerDownRouteRequest := osSemPost s.routerDownRouteRequest }.setSender i .idle)
  | .upFill d =>
    some ({ s with packetUp := d.fill s.packetUp }.setSender i
      (.upRoute d.destAddress d.payloadLen))
  | .upRoute dest len =>
    match unetRouterUp s.node (unetPacketUpHeader s.node s.packetUp dest len) with
    | (.packetSendOk, n, p) => some ({ s with node := n, packetUp := p }.setSender i .upPost)
    | (_, n, p) =>
      some ((packetReleaseUp { s with node := n, packetUp := p }).setSender i .idle)
  | .upPost =>
    some ({ s with routerUpRouteRequest := osSemPost s.routerUpRouteRequest }.setSender i .idle)

/-- A step of the node: a frame is received, the neighbourhood is checked, or a task goes on. -/
inductive Act (σ : Type)
  | input (p : Packet) (tag : Nat) (crc : Bool)
  | verify
  | downAck (ok : Bool)
  | down (ok : Bool)
  | upAck (ok : Bool)
  | up (ok : Bool)
  | link (ok : Bool)
  | send (i : σ) (d : SendRequest)

def sysStep (dev : DeviceType) (s : Sys σ) : Act σ → Option (Sys σ)
  | .input p tag crc => some (ieee802154PacketInput dev s p tag crc)
  | .verify => some { s with node := linkVerifyNeighbourhood dev s.node }
  | .downAck ok => downAckStep s ok
  | .down ok => downStep dev s ok
  | .upAck ok => upAckStep s ok
  | .up ok => upStep s ok
  | .link ok => linkTaskStep dev s ok
  | .send i d => sendStep s i d

end Sender

/-- A node after initialisation: empty buffers, no tokens, every task at its first pend. -/
structure SysStart (dev : DeviceType) (s : Sys σ) : Prop where
  node : ∃ n, s.node = linkInit dev n
  packetDown : s.packetDown.state = .idle
  packetUp : s.packetUp.state = .idle
  downCounts : s.routerDownAckRequest = 0 ∧ s.routerDownRouteRequest = 0 ∧
    s.routerDownAckReceived = 0
  upCounts : s.routerUpAckRequest = 0 ∧ s.routerUpRouteRequest = 0 ∧ s.routerUpAckReceived = 0
  tasks : s.downAck = .wait ∧ s.down = .runTimer ∧ s.upAck = .wait ∧ s.up = .pendRoute ∧
    s.link = .pendTx
  sender : ∀ i, s.sender i = .idle
  history : s.stage = .free ∧ s.taken = (fun _ => none) ∧ s.handledDown = [] ∧ s.handledUp = []

end Unet4Cooja
