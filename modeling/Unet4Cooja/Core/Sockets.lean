import Unet4Cooja.Core.AtMostOnce

/-!
# Sockets (`transport.c`, the delivery in `unet_core.c`)

* `delivery`, `sysStep_sockets` : the packet a step delivers, and what that does to the sockets;
* `Payload`, `sysStep_payload` : the bytes from `UNET_APP_HEADER_START` on, and the steps that write
  them;
* `AppSys`, `appStep` : a node with tasks in `unet_recv`;
* `ReadOk` : a socket with an unread packet gets no other one, and the buffer it points into is not
  written;
* `recv_of_runs` : then the packets returned are the packets delivered, in order.
-/

namespace Unet4Cooja
open Lib

variable {σ : Type}

/-- `packet_up` or `packet_down`. -/
def Sys.buffer (s : Sys σ) (fromUp : Bool) : Packet := if fromUp then s.packetUp else s.packetDown

/-! ## Delivery -/

/-- The packet a step of an ack task delivers, with the buffer it is in. -/
def delivery (s : Sys σ) : Act σ → Option (Bool × Packet)
  | .downAck _ =>
    if s.downAck = .decide ∧ s.packetDown.addr64At unetDest64 = s.node.addr64 ∧
        s.packetDown.packet unetNextHeader = nextHeaderUnetApp then some (false, s.packetDown)
    else none
  | .upAck _ =>
    if s.upAck = .decide ∧ s.packetUp.addr64At unetDest64 = s.node.addr64 ∧
        s.packetUp.packet unetNextHeader = nextHeaderUnetApp then some (true, s.packetUp)
    else none
  | _ => none

/-- The first socket that listens on the destination port of `r`. -/
def Packet.receiver (r : Packet) (cs : List UnetTransport) : Option Nat :=
  cs.findIdx? fun c => c.srcPort = r.packet unetDestPort

/-- A socket that has been handed the packet `r`. -/
def UnetTransport.hand (c : UnetTransport) (fromUp : Bool) (r : Packet) : UnetTransport :=
  { c with
    wakeUp := osSemPost c.wakeUp
    fromUp := fromUp
    payloadSize := r.packet unetAppPayloadLen
    senderPort := r.packet unetSourcePort
    senderAddress := r.addr64At unetSrc64 }

theorem deliverTo_get (fromUp : Bool) (r : Packet) (cs : List UnetTransport) (j : Nat) :
    (deliverTo fromUp r cs)[j]? =
      if r.receiver cs = some j then cs[j]?.map fun c => c.hand fromUp r else cs[j]? := by
  induction cs generalizing j with
  | nil => simp [deliverTo, Packet.receiver]
  | cons c cs ih =>
    unfold deliverTo Packet.receiver
    rw [List.findIdx?_cons]
    by_cases hc : c.srcPort = r.packet unetDestPort
    · cases j with
      | zero => simp [hc, UnetTransport.hand]
      | succ j => simp [hc]
    · cases j with
      | zero => simp [hc]
      | succ j =>
        have hj := ih j
        unfold Packet.receiver at hj
        simp only [hc, decide_false, Bool.false_eq_true, if_false, List.getElem?_cons_succ, hj,
          Option.map_eq_some_iff, Nat.add_right_cancel_iff, exists_eq_right]

theorem sysStep_sockets [DecidableEq σ] {dev : DeviceType} {s t : Sys σ} {a : Act σ}
    (hs : sysStep dev s a = some t) :
    t.sockets =
      match delivery s a with
      | some (fromUp, r) => deliverTo fromUp r s.sockets
      | none => s.sockets := by
  cases a with
  | input p tag crc =>
    rcases packetInput_eq (Option.some.inj hs) with rfl | ⟨_, _, hh⟩
    · rfl
    · cases hh <;> rfl
  | verify =>
    cases hs
    rfl
  | downAck ok =>
    unfold delivery
    have hs : downAckStep s ok = some t := hs
    unfold downAckStep at hs
    cases hpc : s.downAck with
    | wait =>
      rw [hpc] at hs
      rcases osSemPend_eq_some.mp hs with ⟨_, _, hs⟩ | ⟨_, _, hs⟩ <;> cases hs
      simp
    | checkDup => rw [hpc] at hs; dsimp only at hs; split at hs <;> cases hs <;> simp [packetReleaseDown]
    | decide =>
      rw [hpc] at hs
      dsimp only at hs
      by_cases hd : s.packetDown.addr64At unetDest64 = s.node.addr64
      · rw [if_pos hd] at hs
        cases hs
        by_cases hn : s.packetDown.packet unetNextHeader = nextHeaderUnetApp
        · simp [hd, hn, packetReleaseDown, deliver]
        · simp [hn, packetReleaseDown, deliver]
      · rw [if_neg hd] at hs
        cases hs
        simp [hd]
    | route => rw [hpc] at hs; dsimp only at hs; split at hs <;> cases hs <;> simp [packetReleaseDown]
    | _ => rw [hpc] at hs; cases hs; simp
  | upAck ok =>
    unfold delivery
    have hs : upAckStep s ok = some t := hs
    unfold upAckStep at hs
    cases hpc : s.upAck with
    | wait =>
      rw [hpc] at hs
      rcases osSemPend_eq_some.mp hs with ⟨_, _, hs⟩ | ⟨_, _, hs⟩ <;> cases hs
      simp
    | decide =>
      rw [hpc] at hs
      dsimp only at hs
      by_cases hd : s.packetUp.addr64At unetDest64 = s.node.addr64
      · rw [if_pos hd] at hs
        cases hs
        by_cases hn : s.packetUp.packet unetNextHeader = nextHeaderUnetApp
        · simp [hd, hn, packetReleaseUp, deliver]
        · simp [hn, packetReleaseUp, deliver]
      · rw [if_neg hd] at hs
        cases hs
        simp [hd]
    | _ => rw [hpc] at hs; cases hs; simp
  | down ok =>
    have hs : downStep dev s ok = some t := hs
    rw [(downStep_frame hs).2]
    rfl
  | up ok =>
    have hs : upStep s ok = some t := hs
    rw [upStep_frame hs]
    rfl
  | link ok =>
    have hs : linkTaskStep dev s ok = some t := hs
    rw [(linkTaskStep_frame hs).2]
    rfl
  | send i d =>
    have hs : sendStep s i d = some t := hs
    rw [(sendStep_frame hs).2]
    rfl

/-! ## The payload in a buffer -/

/-- The bytes from `UNET_APP_HEADER_START` on. -/
def SamePayload (p q : Packet) : Prop := ∀ k, unetAppHeaderStart ≤ k → q.packet k = p.packet k

theorem SamePayload.refl (p : Packet) : SamePayload p p := fun _ _ => rfl

theorem SamePayload.trans {p q r : Packet} (h : SamePayload p q) (h' : SamePayload q r) :
    SamePayload p r := fun k hk => (h' k hk).trans (h k hk)

theorem setNextHop_payload (n : Node) (p : Packet) (nextHop : U16) :
    SamePayload p (setNextHop n p nextHop) := by
  intro k hk
  simp only [unetAppHeaderStart] at hk
  exact ieee802154HeaderSet_packet n _ _ _ (by simp only [llcProto]; omega)

theorem setByte_payload (p : Packet) {j : Nat} (v : U8) (h : j < unetAppHeaderStart) :
    SamePayload p (p.setByte j v) := fun _ hk =>
  Packet.setByte_of_ne _ _ (Nat.ne_of_gt (Nat.lt_of_lt_of_le h hk))

theorem decHopLimit_payload (p : Packet) : SamePayload p p.decHopLimit :=
  setByte_payload p _ (by decide)

theorem unetHeaderSet_payload (p : Packet) (type hop next : U8) (src dst : Addr64) (len : U8) :
    SamePayload p (unetHeaderSet p type hop next src dst len) := by
  intro k hk
  simp only [unetAppHeaderStart] at hk
  exact unetHeaderSet_packet p type hop next src dst len (by omega)

theorem unetRouterDownStart_payload {n n' : Node} {p p' : Packet} {r : Option U8}
    (h : unetRouterDownStart n p = (r, n', p')) : SamePayload p p' := by
  unfold unetRouterDownStart at h
  split at h
  · cases h
    exact .refl p
  · split at h <;> cases h <;> exact decHopLimit_payload p

theorem unetUpdatePacketDownDest_payload (n : Node) (p : Packet) :
    SamePayload p (unetUpdatePacketDownDest n p) := by
  unfold unetUpdatePacketDownDest
  split
  · exact .refl p
  · have hinfo : SamePayload p (ieee802154Dest16Set p n.parent.addr16b) := fun _ _ => rfl
    exact (hinfo.trans (setByte_payload _ _ (by decide))).trans (setByte_payload _ _ (by decide))

theorem unetRouterUp_payload (n : Node) (p : Packet) : SamePayload p (unetRouterUp n p).2.2 := by
  unfold unetRouterUp
  split
  · exact .refl p
  · split
    · exact .refl p
    · intro k hk
      dsimp only
      rw [setNextHop_payload _ _ _ k hk]
      exact decHopLimit_payload p k hk

/-- The task is about to copy its data into the buffer. -/
def SendPc.fills (fromUp : Bool) : SendPc → Bool
  | .downFill _ => !fromUp
  | .upFill _ => fromUp
  | _ => false

/-- The frame `p` is accepted into a buffer. -/
def Accepts (fromUp : Bool) (s : Sys σ) (p : Packet) (crc : Bool) : Prop :=
  p.supported = true ∧ crc = true ∧
    p.packet unetPktType = (if fromUp then unicastUp else unicastDown) ∧
    (s.buffer fromUp).state = .idle

theorem ieee802154PacketInput_down {dev : DeviceType} {s : Sys σ} {p : Packet} {crc : Bool}
    (h : Accepts false s p crc) (tag : Nat) :
    ieee802154PacketInput dev s p tag crc = acceptDown s (p.macInput s.node) tag := by
  obtain ⟨hsup, hcrc, htype, hidle⟩ := h
  have htype : (p.macInput s.node).packet unetPktType = unicastDown := htype
  have hidle : s.packetDown.state = .idle := hidle
  unfold ieee802154PacketInput unetPacketInput
  rw [if_pos ⟨hsup, hcrc⟩]
  dsimp only
  rw [htype, if_neg (by decide), if_neg (by decide), if_pos rfl, if_pos hidle]

theorem ieee802154PacketInput_up {dev : DeviceType} {s : Sys σ} {p : Packet} {crc : Bool}
    (h : Accepts true s p crc) (tag : Nat) :
    ieee802154PacketInput dev s p tag crc = acceptUp s (p.macInput s.node) tag := by
  obtain ⟨hsup, hcrc, htype, hidle⟩ := h
  have htype : (p.macInput s.node).packet unetPktType = unicastUp := htype
  have hidle : s.packetUp.state = .idle := hidle
  unfold ieee802154PacketInput unetPacketInput
  rw [if_pos ⟨hsup, hcrc⟩]
  dsimp only
  rw [htype, if_neg (by decide), if_pos rfl, if_pos hidle]

/-- The steps that write the payload of a buffer: a packet is accepted into it, or `unet_send` or
`unet_router_adv` fills it. -/
def Overwrites (fromUp : Bool) (s : Sys σ) : Act σ → Prop
  | .input p _ crc => Accepts fromUp s p crc
  | .down _ => fromUp = false ∧ s.down = .advFill
  | .send i _ => (s.sender i).fills fromUp = true
  | _ => False

section
variable {dev : DeviceType} {s t : Sys σ} {ok : Bool}

theorem downAckStep_payload (hs : downAckStep s ok = some t) :
    SamePayload s.packetDown t.packetDown := by
  unfold downAckStep at hs
  cases hpc : s.downAck with
  | wait =>
    rw [hpc] at hs
    rcases osSemPend_eq_some.mp hs with ⟨_, _, hs⟩ | ⟨_, _, hs⟩ <;> cases hs
    exact .refl _
  | checkDup => rw [hpc] at hs; dsimp only at hs; split at hs <;> cases hs <;> exact .refl _
  | decide => rw [hpc] at hs; dsimp only at hs; split at hs <;> cases hs <;> exact .refl _
  | route =>
    rw [hpc] at hs
    dsimp only at hs
    split at hs
    all_goals
      rename_i hr
      cases hs
      exact fun k hk => unetRouterDownStart_payload hr k hk
  | routeEnd pIdx =>
    rw [hpc] at hs
    cases hs
    exact setNextHop_payload _ _ _
  | _ => rw [hpc] at hs; cases hs; exact .refl _

theorem downStep_payload (h : s.down ≠ .advFill) (hs : downStep dev s ok = some t) :
    SamePayload s.packetDown t.packetDown := by
  unfold downStep at hs
  cases hpc : s.down with
  | advFill => exact absurd hpc h
  | pendRoute =>
    rw [hpc] at hs
    rcases osSemPend_eq_some.mp hs with ⟨_, _, hs⟩ | ⟨_, _, hs⟩
    · cases hs
      exact .refl _
    · split at hs <;> cases hs
      exact .refl _
  | pendAck =>
    rw [hpc] at hs
    rcases osSemPend_eq_some.mp hs with ⟨_, _, hs⟩ | ⟨_, _, hs⟩ <;> cases hs <;> exact .refl _
  | advRoute =>
    rw [hpc] at hs
    dsimp only at hs
    split at hs
    all_goals
      rename_i hr
      cases hs
      exact fun k hk => unetRouterDownStart_payload hr k hk
  | advRouteEnd pIdx =>
    rw [hpc] at hs
    cases hs
    exact setNextHop_payload _ _ _
  | update =>
    rw [hpc] at hs
    cases hs
    exact unetUpdatePacketDownDest_payload _ _
  | woken => rw [hpc] at hs; dsimp only at hs; split at hs <;> cases hs <;> exact .refl _
  | adv => rw [hpc] at hs; dsimp only at hs; split at hs <;> cases hs <;> exact .refl _
  | advAcquire => rw [hpc] at hs; dsimp only at hs; split at hs <;> cases hs <;> exact .refl _
  | output => rw [hpc] at hs; dsimp only at hs; split at hs <;> cases hs <;> exact .refl _
  | timedOut => rw [hpc] at hs; dsimp only at hs; split at hs <;> cases hs <;> exact .refl _
  | _ => rw [hpc] at hs; cases hs; exact .refl _

theorem upAckStep_payload (hs : upAckStep s ok = some t) : SamePayload s.packetUp t.packetUp := by
  unfold upAckStep at hs
  cases hpc : s.upAck with
  | wait =>
    rw [hpc] at hs
    rcases osSemPend_eq_some.mp hs with ⟨_, _, hs⟩ | ⟨_, _, hs⟩ <;> cases hs
    exact .refl _
  | decide =>
    rw [hpc] at hs
    dsimp only at hs
    split at hs <;> cases hs
    · exact .refl _
    · exact unetRouterUp_payload _ _
  | _ => rw [hpc] at hs; cases hs; exact .refl _

theorem upStep_payload (hs : upStep s ok = some t) : SamePayload s.packetUp t.packetUp := by
  rw [upStep_frame hs]
  exact .refl s.packetUp

theorem sendStep_payload [DecidableEq σ] {i : σ} {d : SendRequest} {fromUp : Bool}
    (h : (s.sender i).fills fromUp = false) (hs : sendStep s i d = some t) :
    SamePayload (s.buffer fromUp) (t.buffer fromUp) := by
  unfold sendStep at hs
  cases hpc : s.sender i with
  | idle =>
    rw [hpc] at hs
    dsimp only at hs
    split at hs <;> split at hs <;> cases hs <;> cases fromUp <;> exact .refl _
  | downFill d' =>
    rw [hpc] at hs h
    cases hs
    cases fromUp
    · cases h
    · exact .refl _
  | upFill d' =>
    rw [hpc] at hs h
    cases hs
    cases fromUp
    · exact .refl _
    · cases h
  | downHeader len =>
    rw [hpc] at hs
    dsimp only at hs
    split at hs <;> cases hs <;> cases fromUp
    · exact .refl _
    · exact .refl _
    · exact unetHeaderSet_payload _ _ _ _ _ _ _
    · exact .refl _
  | downRoute =>
    rw [hpc] at hs
    dsimp only at hs
    split at hs
    all_goals
      rename_i hr
      cases hs
      cases fromUp
      · exact fun k hk => unetRouterDownStart_payload hr k hk
      · exact .refl _
  | downRouteEnd pIdx =>
    rw [hpc] at hs
    cases hs
    cases fromUp
    · exact setNextHop_payload _ _ _
    · exact .refl _
  | upRoute dest len =>
    rw [hpc] at hs
    dsimp only at hs
    split at hs
    all_goals
      rename_i hr
      have hroute := unetRouterUp_payload s.node (unetPacketUpHeader s.node s.packetUp dest len)
      rw [hr] at hroute
      cases hs
      cases fromUp
      · exact .refl _
      · exact fun k hk => (hroute k hk).trans (unetHeaderSet_payload _ _ _ _ _ _ _ k hk)
  | _ => rw [hpc] at hs; cases hs; cases fromUp <;> exact .refl _

theorem sysStep_payload [DecidableEq σ] {a : Act σ} {fromUp : Bool}
    (h : ¬ Overwrites fromUp s a) (hs : sysStep dev s a = some t) :
    SamePayload (s.buffer fromUp) (t.buffer fromUp) := by
  cases a with
  | input p tag crc =>
    rcases packetInput_eq (Option.some.inj hs) with rfl | ⟨hsup, hcrc, hh⟩
    · exact .refl _
    · cases hh with
      | up htype hidle =>
        cases fromUp
        · exact .refl _
        · exact absurd ⟨hsup, hcrc, htype, hidle⟩ h
      | down htype hidle =>
        cases fromUp
        · exact absurd ⟨hsup, hcrc, htype, hidle⟩ h
        · exact .refl _
      | _ => cases fromUp <;> exact .refl _
  | verify =>
    cases hs
    cases fromUp <;> exact .refl _
  | downAck ok =>
    cases fromUp
    · exact downAckStep_payload hs
    · have e : t.packetUp = s.packetUp := (downAckStep_sameUp hs).packetUp
      simp only [Sys.buffer, e]
      exact .refl _
  | down ok =>
    cases fromUp
    · exact downStep_payload (fun hpc => h ⟨rfl, hpc⟩) hs
    · have e : t.packetUp = s.packetUp := (downStep_sameUp hs).packetUp
      simp only [Sys.buffer, e]
      exact .refl _
  | upAck ok =>
    cases fromUp
    · have e : t.packetDown = s.packetDown := (upAckStep_sameDown hs).packetDown
      simp only [Sys.buffer, e]
      exact .refl _
    · exact upAckStep_payload hs
  | up ok =>
    cases fromUp
    · have e : t.packetDown = s.packetDown := (upStep_sameDown hs).packetDown
      simp only [Sys.buffer, e]
      exact .refl _
    · exact upStep_payload hs
  | link ok =>
    cases fromUp
    · have e : t.packetDown = s.packetDown := (linkTaskStep_sameDown hs).packetDown
      simp only [Sys.buffer, e]
      exact .refl _
    · have e : t.packetUp = s.packetUp := (linkTaskStep_sameUp hs).packetUp
      simp only [Sys.buffer, e]
      exact .refl _
  | send i d => exact sendStep_payload (by simpa [Overwrites] using h) hs

end

/-! ## Tasks in `unet_recv` -/

/-- What `unet_recv` leaves to its caller: the bytes it copies, and the sender. -/
structure Datagram where
  payload : List U8
  senderPort : U8
  senderAddress : Addr64
  deriving DecidableEq

def Packet.datagram (r : Packet) : Datagram where
  payload := (List.range (r.packet unetAppPayloadLen).toNat).map fun k =>
    r.packet (unetAppHeaderStart + k)
  senderPort := r.packet unetSourcePort
  senderAddress := r.addr64At unetSrc64

/-- What `unet_recv` copies from the socket `c`. -/
def Sys.recv (s : Sys σ) (c : UnetTransport) : Datagram where
  payload := (List.range c.payloadSize.toNat).map fun k =>
    (s.buffer c.fromUp).packet (unetAppHeaderStart + k)
  senderPort := c.senderPort
  senderAddress := c.senderAddress

/-- A node with tasks in `unet_recv`: `copying j` of them have taken a token of socket `j` and have
not copied yet. -/
structure AppSys (σ : Type) where
  sys : Sys σ
  copying : Nat → Nat

/-- A step of the node, the pend of `unet_recv` on a socket, or its `memcpy`. -/
inductive AppAct (σ : Type)
  | sys (a : Act σ)
  | pend (j : Nat) (ok : Bool)
  | copy (j : Nat)

def appStep [DecidableEq σ] (dev : DeviceType) (s : AppSys σ) : AppAct σ → Option (AppSys σ)
  | .sys a => (sysStep dev s.sys a).map fun t => { s with sys := t }
  | .pend j ok =>
    match s.sys.sockets[j]? with
    | none => none
    | some c =>
      if ok then
        if 0 < c.wakeUp then
          some {
            sys := { s.sys with
              sockets := s.sys.sockets.set j { c with wakeUp := c.wakeUp - 1 } }
            copying := Function.update s.copying j (s.copying j + 1) }
        else none
      else if c.wakeUp = 0 then some s else none
  | .copy j =>
    if 0 < s.copying j then
      some { s with copying := Function.update s.copying j (s.copying j - 1) }
    else none

/-- The datagrams a socket was handed, and those `unet_recv` has returned from it. -/
structure Mail where
  delivered : List Datagram
  returned : List Datagram

def Mail.watch (j : Nat) (s : AppSys σ) (m : Mail) : AppAct σ → Mail
  | .sys a =>
    match delivery s.sys a with
    | some (_, r) =>
      if r.receiver s.sys.sockets = some j then
        { m with delivered := m.delivered ++ [r.datagram] }
      else m
    | none => m
  | .pend .. => m
  | .copy i =>
    if i = j then { m with returned := m.returned ++ (s.sys.sockets[j]?.map s.sys.recv).toList }
    else m

/-- While a packet handed to socket `j` has not been returned, the socket is handed no other one, and
its payload is not overwritten. -/
def ReadOk (j : Nat) (s : AppSys σ) : AppAct σ → Prop
  | .sys a =>
    ∀ c ∈ s.sys.sockets[j]?, 0 < c.wakeUp + s.copying j →
      (∀ x ∈ delivery s.sys a, x.2.receiver s.sys.sockets ≠ some j) ∧
      (c.payloadSize ≠ 0 → ¬ Overwrites c.fromUp s.sys a)
  | _ => True

/-- Either all datagrams handed to socket `j` have been returned, or all but the last, which is what
`unet_recv` would copy. -/
def MailInv (j : Nat) (s : AppSys σ) (m : Mail) : Prop :=
  ∃ c, s.sys.sockets[j]? = some c ∧
    ((c.wakeUp + s.copying j = 0 ∧ m.delivered = m.returned) ∨
      (c.wakeUp + s.copying j = 1 ∧ m.delivered = m.returned ++ [s.sys.recv c]))

section
variable {s t : Sys σ} {c : UnetTransport}

theorem recv_of_samePayload
    (h : c.payloadSize ≠ 0 → SamePayload (s.buffer c.fromUp) (t.buffer c.fromUp)) :
    t.recv c = s.recv c := by
  unfold Sys.recv
  by_cases h0 : c.payloadSize = 0
  · simp [h0]
  · congr 1
    apply List.map_congr_left
    intro k _
    exact h h0 _ (Nat.le_add_right _ k)

theorem delivery_buffer [DecidableEq σ] {dev : DeviceType} {a : Act σ} {fromUp : Bool} {r : Packet}
    (hd : delivery s a = some (fromUp, r)) (hs : sysStep dev s a = some t) :
    r = s.buffer fromUp ∧ SamePayload r (t.buffer fromUp) := by
  have hr : r = s.buffer fromUp ∧ ¬ Overwrites fromUp s a := by
    unfold delivery at hd
    cases a with
    | downAck ok =>
      dsimp only at hd
      split at hd <;> cases hd
      exact ⟨rfl, id⟩
    | upAck ok =>
      dsimp only at hd
      split at hd <;> cases hd
      exact ⟨rfl, id⟩
    | _ => cases hd
  exact ⟨hr.1, hr.1 ▸ sysStep_payload hr.2 hs⟩

/-- `unet_recv` would now copy the packet just handed over. -/
theorem recv_hand {fromUp : Bool} {r : Packet} (h : SamePayload r (t.buffer fromUp)) :
    t.recv (c.hand fromUp r) = r.datagram := by
  unfold Sys.recv Packet.datagram UnetTransport.hand
  congr 1
  apply List.map_congr_left
  intro k _
  exact h _ (Nat.le_add_right _ k)

end

section
variable [DecidableEq σ] {dev : DeviceType} {s t : AppSys σ} {m : Mail} {j : Nat}

theorem MailInv.sys {a : Act σ} (h : MailInv j s m) (hok : ReadOk j s (.sys a)) {u : Sys σ}
    (hs : sysStep dev s.sys a = some u) : MailInv j { s with sys := u } (m.watch j s (.sys a)) := by
  obtain ⟨c, hc, hm⟩ := h
  have hsock := sysStep_sockets hs
  by_cases hd : ∃ x, delivery s.sys a = some x ∧ x.2.receiver s.sys.sockets = some j
  · obtain ⟨⟨fromUp, r⟩, hd, hr⟩ := hd
    obtain ⟨_, hpay⟩ := delivery_buffer hd hs
    -- by the guard nothing was unread
    have h0 : c.wakeUp + s.copying j = 0 := by
      by_contra hne
      exact (hok c hc (Nat.pos_of_ne_zero hne)).1 _ hd hr
    have hall : m.delivered = m.returned := by
      rcases hm with hm | hm
      · exact hm.2
      · omega
    rw [hd] at hsock
    have hj : u.sockets[j]? = some (c.hand fromUp r) := by
      rw [hsock, deliverTo_get, if_pos hr, hc]
      rfl
    refine ⟨_, hj, .inr ⟨?_, ?_⟩⟩
    · have h1 : (c.hand fromUp r).wakeUp = osSemPost c.wakeUp := rfl
      rw [h1, show c.wakeUp = 0 by omega, show s.copying j = 0 by omega]
      rfl
    · simp [Mail.watch, hd, hr, hall, recv_hand hpay]
  · have hw : m.watch j s (.sys a) = m := by
      unfold Mail.watch
      dsimp only
      split
      · rename_i r hr
        rw [if_neg fun hrec => hd ⟨_, hr, hrec⟩]
      · rfl
    have hj : u.sockets[j]? = some c := by
      rw [hsock]
      split
      · rename_i fromUp r hr
        rw [deliverTo_get, if_neg fun hrec => hd ⟨_, hr, hrec⟩, hc]
      · exact hc
    rw [hw]
    refine ⟨c, hj, hm.imp_right fun ⟨h1, hm⟩ => ⟨h1, ?_⟩⟩
    have hover := (hok c hc (by omega)).2
    rw [hm, recv_of_samePayload fun hne => sysStep_payload (hover hne) hs]

theorem MailInv.pend {i : Nat} {ok : Bool} (h : MailInv j s m)
    (hs : appStep dev s (.pend i ok) = some t) : MailInv j t m := by
  obtain ⟨c, hc, hm⟩ := h
  unfold appStep at hs
  dsimp only at hs
  split at hs
  · cases hs
  rename_i c' hc'
  split at hs
  · split at hs
    · cases hs
      by_cases hi : i = j
      · subst hi
        cases hc.symm.trans hc'
        refine ⟨{ c with wakeUp := c.wakeUp - 1 }, ?_, ?_⟩
        · have hlt : i < s.sys.sockets.length := (List.getElem?_eq_some_iff.mp hc).1
          exact List.getElem?_set_self hlt
        · -- the token goes from the semaphore to the task
          have hsum : c.wakeUp - 1 + (s.copying i + 1) = c.wakeUp + s.copying i := by omega
          simp only [Function.update_self, hsum]
          exact hm
      · refine ⟨c, ?_, ?_⟩
        · exact (List.getElem?_set_ne hi).trans hc
        · simp only [Function.update_of_ne (Ne.symm hi)]
          exact hm
    · cases hs
  · split at hs <;> cases hs
    exact ⟨c, hc, hm⟩

theorem MailInv.copy {i : Nat} (h : MailInv j s m) (hs : appStep dev s (.copy i) = some t) :
    MailInv j t (m.watch j s (.copy i)) := by
  obtain ⟨c, hc, hm⟩ := h
  unfold appStep at hs
  dsimp only at hs
  split at hs
  · rename_i hpos
    cases hs
    by_cases hi : i = j
    · subst hi
      -- the task has taken the only token
      obtain ⟨h1, hm⟩ := hm.resolve_left fun h0 => by omega
      refine ⟨c, hc, .inl ⟨?_, ?_⟩⟩
      · simp only [Function.update_self]
        omega
      · simpa [Mail.watch, hc] using hm
    · refine ⟨c, hc, ?_⟩
      simpa only [Mail.watch, if_neg hi, Function.update_of_ne (Ne.symm hi)] using hm
  · cases hs

/-- The `k`-th datagram `unet_recv` returns from a socket is the `k`-th handed to it. -/
theorem recv_of_runs {s₀ : AppSys σ} {as : List (AppAct σ)} {c₀ : UnetTransport}
    (hj : s₀.sys.sockets[j]? = some c₀) (hwake : c₀.wakeUp = 0) (hcopy : s₀.copying j = 0)
    (r : Runs (appStep dev) (ReadOk j) s₀ as s) (k : Nat) (d : Datagram)
    (hd : (observe (appStep dev) (Mail.watch j) s₀ ⟨[], []⟩ as).returned[k]? = some d) :
    (observe (appStep dev) (Mail.watch j) s₀ ⟨[], []⟩ as).delivered[k]? = some d := by
  have h0 : MailInv j s₀ ⟨[], []⟩ := ⟨c₀, hj, .inl ⟨by omega, rfl⟩⟩
  have hinv := r.observed h0 fun s m a t hm hok hs => by
    cases a with
    | sys a =>
      obtain ⟨u, hu, rfl⟩ := Option.map_eq_some_iff.mp hs
      exact hm.sys hok hu
    | pend i ok => exact hm.pend hs
    | copy i => exact hm.copy hs
  obtain ⟨c, _, ⟨_, hm⟩ | ⟨_, hm⟩⟩ := hinv
  · rw [hm]
    exact hd
  · rw [hm]
    exact List.getElem?_append_left (List.getElem?_eq_some_iff.mp hd).1 ▸ hd

end

/-! ## Two packets in a row -/

instance (fromUp : Bool) (s : Sys σ) (p : Packet) (crc : Bool) :
    Decidable (Accepts fromUp s p crc) := inferInstanceAs (Decidable (_ ∧ _))

instance (fromUp : Bool) (s : Sys σ) (a : Act σ) : Decidable (Overwrites fromUp s a) :=
  match a with
  | .input .. => inferInstanceAs (Decidable (Accepts _ _ _ _))
  | .down _ => inferInstanceAs (Decidable (_ ∧ _))
  | .send .. => inferInstanceAs (Decidable (_ = _))
  | .verify | .downAck _ | .upAck _ | .up _ | .link _ => .isFalse id

instance (j : Nat) (s : AppSys σ) (a : AppAct σ) : Decidable (ReadOk j s a) :=
  match a with
  | .sys _ => inferInstanceAs (Decidable (∀ c ∈ s.sys.sockets[j]?, _))
  | .pend .. | .copy _ => .isTrue trivial

/-- A node with a socket at the port 0 and no task in `unet_recv`. -/
def listeningApp : AppSys (Fin 1) where
  sys := listeningSys
  copying := fun _ => 0

/-- A UNICAST_UP packet from the neighbour 2 with the payload `v`. -/
def payloadFrame (v : U8) : Packet :=
  ((netFrame 2 unicastUp v).setByte unetNextHeader nextHeaderUnetApp).setByte unetAppPayloadLen 1
    |>.setByte unetAppHeaderStart v |>.setByte phyPktSize 34

/-- The packet with the payload `v` is received and delivered. -/
def deliverActs (v : U8) : List (AppAct (Fin 1)) :=
  .sys (.input (payloadFrame v) 0 true) :: List.replicate 3 (.sys (.upAck true))

/-- One call of `unet_recv` that returns `OK`. -/
def recvActs : List (AppAct (Fin 1)) := [.pend 0 true, .copy 0]

/-- The payloads delivered and returned at the first socket along a run from `listeningApp`. -/
def payloads (as : List (AppAct (Fin 1))) : List (List U8) × List (List U8) :=
  let m := observe (appStep .router) (Mail.watch 0) listeningApp ⟨[], []⟩ as
  (m.delivered.map Datagram.payload, m.returned.map Datagram.payload)

/-- Each packet is read before the next one comes. -/
theorem recv_of_runs_inTurn :
    payloads (deliverActs 7 ++ recvActs ++ deliverActs 8 ++ recvActs) = ([[7], [8]], [[7], [8]]) ∧
    ∃ s, Runs (appStep .router) (ReadOk 0) listeningApp
        (deliverActs 7 ++ recvActs ++ deliverActs 8 ++ recvActs) s ∧
      ∀ (k : Nat) (d : Datagram),
        (observe (appStep .router) (Mail.watch 0) listeningApp ⟨[], []⟩
          (deliverActs 7 ++ recvActs ++ deliverActs 8 ++ recvActs)).returned[k]? = some d →
        (observe (appStep .router) (Mail.watch 0) listeningApp ⟨[], []⟩
          (deliverActs 7 ++ recvActs ++ deliverActs 8 ++ recvActs)).delivered[k]? = some d := by
  refine ⟨by decide +kernel, ?_⟩
  have hrun : (exec (guarded (appStep .router) (ReadOk 0)) listeningApp
      (deliverActs 7 ++ recvActs ++ deliverActs 8 ++ recvActs)).isSome = true := by decide +kernel
  obtain ⟨s, hs⟩ := Option.isSome_iff_exists.mp hrun
  have r := Runs.of_exec_guarded hs
  exact ⟨s, r, fun k d => recv_of_runs rfl rfl rfl r k d⟩

/-- Two packets are delivered before the task reads: it gets the second one twice. -/
theorem recv_fails :
    ¬ ∀ (s₀ s : AppSys (Fin 1)) (as : List (AppAct (Fin 1))) (c₀ : UnetTransport),
      SysStart .router s₀.sys → s₀.sys.sockets[0]? = some c₀ → c₀.wakeUp = 0 → s₀.copying 0 = 0 →
      Runs (appStep .router) Free s₀ as s → ∀ (k : Nat) (d : Datagram),
        (observe (appStep .router) (Mail.watch 0) s₀ ⟨[], []⟩ as).returned[k]? = some d →
        (observe (appStep .router) (Mail.watch 0) s₀ ⟨[], []⟩ as).delivered[k]? = some d := by
  intro h
  let as := deliverActs 7 ++ deliverActs 8 ++ recvActs ++ recvActs
  have hpay : payloads as = ([[7], [8]], [[8], [8]]) := by decide +kernel
  have hrun : (exec (appStep .router) listeningApp as).isSome = true := by decide +kernel
  obtain ⟨s, hs⟩ := Option.isSome_iff_exists.mp hrun
  obtain ⟨hdel, hret⟩ := Prod.mk.inj hpay
  have hget : ((observe (appStep .router) (Mail.watch 0) listeningApp ⟨[], []⟩ as).returned.map
      Datagram.payload)[0]? = some [8] := by rw [hret]; rfl
  rw [List.getElem?_map, Option.map_eq_some_iff] at hget
  obtain ⟨d, hd, hp⟩ := hget
  have hk := h _ _ as _ listeningSys_start rfl rfl rfl (Runs.of_exec hs) 0 d hd
  have hfirst : ((observe (appStep .router) (Mail.watch 0) listeningApp ⟨[], []⟩ as).delivered.map
      Datagram.payload)[0]? = some [7] := by rw [hdel]; rfl
  rw [List.getElem?_map, hk, Option.map_some, hp] at hfirst
  exact absurd hfirst (by decide)

end Unet4Cooja
