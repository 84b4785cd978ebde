import Unet4Cooja.Core.System

/-!
# What a step leaves alone

* `Handled` : what `unet_packet_input` can do with a packet;
* `downAckStep_frame`, `downStep_frame`, ... : the variables a step of a task can change;
* `SameDown`, `SameUp`, `SameRecords` : nothing of the downward half, of the upward half or of what
  the ack task records has changed;
* `Owner` : who uses a buffer;
* `osSemPend_eq_some`, `unetRouterDownStart_some`, `unetRouterDownStart_none` : the ways a pend and
  `unet_router_down` can end.
-/

namespace Unet4Cooja

/-! ## Received frames -/

/-- `s` becomes the last argument when `unet_packet_input` handles `p`. -/
inductive Handled {σ : Type} (dev : DeviceType) (s : Sys σ) (p : Packet) (tag : Nat) : Sys σ → Prop
  | dropped : Handled dev s p tag s
  | link : Handled dev s p tag { s with node := linkPacketProcess dev s.node p }
  | up : p.packet unetPktType = unicastUp → s.packetUp.state = .idle →
      Handled dev s p tag (acceptUp s p tag)
  | down : p.packet unetPktType = unicastDown → s.packetDown.state = .idle →
      Handled dev s p tag (acceptDown s p tag)
  | ackUp : p.packet unetPktType = unicastAckUp → p.info.seqNum = s.packetUp.info.seqNum →
      s.packetUp.state = .waitingAck → Handled dev s p tag (acceptAckUp s)
  | ackDown : p.packet unetPktType = unicastAckDown → p.info.seqNum = s.packetDown.info.seqNum →
      p.sourceAddr16 = s.packetDown.destAddr16 → s.packetDown.state = .waitingAck →
      Handled dev s p tag (acceptAckDown s)

section
variable {σ : Type} (dev : DeviceType) (s : Sys σ) (p : Packet) (tag : Nat)

theorem unetPacketInput_handled : Handled dev s p tag (unetPacketInput dev s p tag) := by
  unfold unetPacketInput
  by_cases hlink : p.packet unetPktType = broadcastLocalLink
  · rw [if_pos hlink]
    split
    · exact .link
    · exact .dropped
  rw [if_neg hlink]
  by_cases hup : p.packet unetPktType = unicastUp
  · rw [if_pos hup]
    split
    · exact .up hup ‹_›
    · exact .dropped
  rw [if_neg hup]
  by_cases hdown : p.packet unetPktType = unicastDown
  · rw [if_pos hdown]
    split
    · exact .down hdown ‹_›
    · exact .dropped
  rw [if_neg hdown]
  by_cases hackUp : p.packet unetPktType = unicastAckUp
  · rw [if_pos hackUp]
    split
    · rename_i h
      exact .ackUp hackUp h.1 h.2
    · exact .dropped
  rw [if_neg hackUp]
  by_cases hackDown : p.packet unetPktType = unicastAckDown
  · rw [if_pos hackDown]
    split
    · rename_i h
      exact .ackDown hackDown h.2.1 h.2.2 h.1
    · exact .dropped
  rw [if_neg hackDown]
  exact .dropped

theorem ieee802154PacketInput_cases (crc : Bool) :
    ieee802154PacketInput dev s p tag crc = s ∨
      (p.supported = true ∧ crc = true ∧
        Handled dev s (p.macInput s.node) tag (ieee802154PacketInput dev s p tag crc)) := by
  unfold ieee802154PacketInput
  split
  · rename_i h
    exact .inr ⟨h.1, h.2, unetPacketInput_handled dev s _ tag⟩
  · exact .inl rfl

theorem packetInput_eq {dev : DeviceType} {s t : Sys σ} {p : Packet} {tag : Nat} {crc : Bool}
    (h : ieee802154PacketInput dev s p tag crc = t) :
    t = s ∨ (p.supported = true ∧ crc = true ∧ Handled dev s (p.macInput s.node) tag t) :=
  h ▸ ieee802154PacketInput_cases dev s p tag crc

end

theorem osSemPend_eq_some {σ : Type} {c : Nat} {ok : Bool} {a b : Option (Sys σ)} {t : Sys σ} :
    osSemPend c ok a b = some t ↔
      (ok = true ∧ 0 < c ∧ a = some t) ∨ (ok = false ∧ c = 0 ∧ b = some t) := by
  unfold osSemPend
  cases ok <;> simp

theorem unetRouterDownStart_some {n n' : Node} {p p' : Packet} {i : U8}
    (h : unetRouterDownStart n p = (some i, n', p')) : p'.state = .inRoute := by
  unfold unetRouterDownStart at h
  split at h
  · cases h
  · split at h
    · cases h
    · cases h
      rfl

theorem unetRouterDownStart_none {n n' : Node} {p p' : Packet}
    (h : unetRouterDownStart n p = (none, n', p')) :
    p.packet unetHopLimit = 0 ∨ n.parentIndex = noParent := by
  unfold unetRouterDownStart at h
  split at h
  · exact .inl ‹_›
  · split at h
    · exact .inr ‹_›
    · cases h

structure SameTables (n n' : Node) : Prop where
  neighbourhood : n'.neighbourhood = n.neighbourhood
  rtableUp : n'.rtableUp = n.rtableUp

theorem SameTables.refl (n : Node) : SameTables n n := ⟨rfl, rfl⟩

theorem unetRouterDownStart_tables {n n' : Node} {p p' : Packet} {r : Option U8}
    (h : unetRouterDownStart n p = (r, n', p')) : SameTables n n' := by
  unfold unetRouterDownStart at h
  split at h
  · cases h
    exact .refl n
  · split at h
    · cases h
      exact .refl n
    · cases h
      exact ⟨rfl, rfl⟩

theorem unetRouterAdvFill_hopLimit (n : Node) (p : Packet) :
    (unetRouterAdvFill n p).packet unetHopLimit ≠ 0 := by
  have h64 : unetHopLimit < unetDest64 := by decide
  have h64' : unetHopLimit < unetSrc64 := by decide
  simp [unetRouterAdvFill, Packet.setSize, unetHeaderSet, h64, h64']

theorem unetUpdatePacketDownDest_state (n : Node) (p : Packet) :
    (unetUpdatePacketDownDest n p).state = p.state := by
  unfold unetUpdatePacketDownDest
  split <;> rfl

theorem unetRouterUp_tables {n n' : Node} {p p' : Packet} {r : RouteResult}
    (h : unetRouterUp n p = (r, n', p')) : SameTables n n' := by
  unfold unetRouterUp at h
  split at h
  · cases h
    exact .refl n
  · split at h
    · cases h
      exact .refl n
    · cases h
      exact ⟨rfl, rfl⟩

theorem linkSetNeighborSeqnum_rtableUp (n : Node) (p : Packet) :
    (linkSetNeighborSeqnum n p).rtableUp = n.rtableUp := by
  unfold linkSetNeighborSeqnum
  split <;> rfl

theorem unetRouterUp_state (n : Node) (p : Packet) :
    (unetRouterUp n p).2.2.state = p.state ∨ (unetRouterUp n p).2.2.state = .waitingTx := by
  unfold unetRouterUp
  split
  · exact .inl rfl
  · split
    · exact .inl rfl
    · exact .inr rfl

/-! ## What a step can change -/

section
variable {σ : Type} {dev : DeviceType} {s t : Sys σ} {ok : Bool}

theorem downAckStep_frame (hs : downAckStep s ok = some t) :
    t.node.rtableUp = s.node.rtableUp ∧ t = { s with
      node := t.node
      packetDown := t.packetDown
      ackDown := t.ackDown
      sockets := t.sockets
      routerDownAckRequest := t.routerDownAckRequest
      routerDownRouteRequest := t.routerDownRouteRequest
      downAck := t.downAck
      stage := t.stage
      taken := t.taken
      handledDown := t.handledDown } := by
  unfold downAckStep at hs
  cases hpc : s.downAck with
  | wait =>
    rw [hpc] at hs
    rcases osSemPend_eq_some.mp hs with ⟨_, _, hs⟩ | ⟨_, _, hs⟩
    · cases hs
      exact ⟨rfl, rfl⟩
    · cases hs
  | checkDup => rw [hpc] at hs; dsimp only at hs; split at hs <;> cases hs <;> exact ⟨rfl, rfl⟩
  | record =>
    rw [hpc] at hs
    cases hs
    exact ⟨linkSetNeighborSeqnum_rtableUp s.node s.packetDown, rfl⟩
  | decide => rw [hpc] at hs; dsimp only at hs; split at hs <;> cases hs <;> exact ⟨rfl, rfl⟩
  | route =>
    rw [hpc] at hs
    dsimp only at hs
    split at hs
    all_goals
      rename_i hr
      cases hs
      exact ⟨(unetRouterDownStart_tables hr).rtableUp, rfl⟩
  | _ => rw [hpc] at hs; cases hs; exact ⟨rfl, rfl⟩

theorem downStep_frame (hs : downStep dev s ok = some t) :
    SameTables s.node t.node ∧ t = { s with
      node := t.node
      packetDown := t.packetDown
      timerDown := t.timerDown
      routerDownRouteRequest := t.routerDownRouteRequest
      routerDownAckReceived := t.routerDownAckReceived
      down := t.down
      downRetries := t.downRetries
      stage := t.stage } := by
  have hsame := SameTables.refl s.node
  unfold downStep at hs
  cases hpc : s.down with
  | pendRoute =>
    rw [hpc] at hs
    rcases osSemPend_eq_some.mp hs with ⟨_, _, hs⟩ | ⟨_, _, hs⟩
    · cases hs
      exact ⟨hsame, rfl⟩
    · split at hs <;> cases hs
      exact ⟨hsame, rfl⟩
  | pendAck =>
    rw [hpc] at hs
    rcases osSemPend_eq_some.mp hs with ⟨_, _, hs⟩ | ⟨_, _, hs⟩ <;> cases hs <;> exact ⟨hsame, rfl⟩
  | advRoute =>
    rw [hpc] at hs
    dsimp only at hs
    split at hs
    all_goals
      rename_i hr
      cases hs
      exact ⟨unetRouterDownStart_tables hr, rfl⟩
  | acked => rw [hpc] at hs; cases hs; exact ⟨⟨rfl, rfl⟩, rfl⟩
  | woken => rw [hpc] at hs; dsimp only at hs; split at hs <;> cases hs <;> exact ⟨hsame, rfl⟩
  | adv => rw [hpc] at hs; dsimp only at hs; split at hs <;> cases hs <;> exact ⟨hsame, rfl⟩
  | advAcquire => rw [hpc] at hs; dsimp only at hs; split at hs <;> cases hs <;> exact ⟨hsame, rfl⟩
  | output => rw [hpc] at hs; dsimp only at hs; split at hs <;> cases hs <;> exact ⟨hsame, rfl⟩
  | timedOut => rw [hpc] at hs; dsimp only at hs; split at hs <;> cases hs <;> exact ⟨hsame, rfl⟩
  | _ => rw [hpc] at hs; cases hs; exact ⟨hsame, rfl⟩

theorem upAckStep_frame (hs : upAckStep s ok = some t) :
    SameTables s.node t.node ∧ t = { s with
      node := t.node
      packetUp := t.packetUp
      ackUp := t.ackUp
      sockets := t.sockets
      routerUpAckRequest := t.routerUpAckRequest
      routerUpRouteRequest := t.routerUpRouteRequest
      upAck := t.upAck
      handledUp := t.handledUp } := by
  have hsame := SameTables.refl s.node
  unfold upAckStep at hs
  cases hpc : s.upAck with
  | wait =>
    rw [hpc] at hs
    rcases osSemPend_eq_some.mp hs with ⟨_, _, hs⟩ | ⟨_, _, hs⟩
    · cases hs
      exact ⟨hsame, rfl⟩
    · cases hs
  | decide =>
    rw [hpc] at hs
    dsimp only at hs
    split at hs
    · cases hs
      exact ⟨hsame, rfl⟩
    · cases hs
      exact ⟨unetRouterUp_tables rfl, rfl⟩
  | _ => rw [hpc] at hs; cases hs; exact ⟨hsame, rfl⟩

theorem upStep_frame (hs : upStep s ok = some t) :
    t = { s with
      packetUp := { s.packetUp with state := t.packetUp.state }
      routerUpRouteRequest := t.routerUpRouteRequest
      routerUpAckReceived := t.routerUpAckReceived
      up := t.up
      upRetries := t.upRetries } := by
  unfold upStep at hs
  cases hpc : s.up with
  | pendRoute =>
    rw [hpc] at hs
    rcases osSemPend_eq_some.mp hs with ⟨_, _, hs⟩ | ⟨_, _, hs⟩
    · cases hs
      rfl
    · cases hs
  | pendAck =>
    rw [hpc] at hs
    rcases osSemPend_eq_some.mp hs with ⟨_, _, hs⟩ | ⟨_, _, hs⟩ <;> cases hs <;> rfl
  | timedOut => rw [hpc] at hs; dsimp only at hs; split at hs <;> cases hs <;> rfl
  | _ => rw [hpc] at hs; cases hs; rfl

theorem linkTaskStep_frame (hs : linkTaskStep dev s ok = some t) :
    SameTables s.node t.node ∧ t = { s with
      node := t.node
      timerDown := t.timerDown
      routerDownRouteRequest := t.routerDownRouteRequest
      link := t.link } := by
  unfold linkTaskStep at hs
  cases hpc : s.link with
  | pendTx =>
    rw [hpc] at hs
    rcases osSemPend_eq_some.mp hs with ⟨_, _, hs⟩ | ⟨_, _, hs⟩ <;> cases hs <;>
      exact ⟨⟨rfl, rfl⟩, rfl⟩
  | woken =>
    rw [hpc] at hs
    dsimp only at hs
    split at hs <;> cases hs <;> exact ⟨⟨rfl, rfl⟩, rfl⟩
  | _ => rw [hpc] at hs; cases hs; exact ⟨⟨rfl, rfl⟩, rfl⟩

theorem sendStep_frame [DecidableEq σ] {i : σ} {d : SendRequest} (hs : sendStep s i d = some t) :
    SameTables s.node t.node ∧ t = { s with
      node := t.node
      packetDown := t.packetDown
      packetUp := t.packetUp
      routerDownRouteRequest := t.routerDownRouteRequest
      routerUpRouteRequest := t.routerUpRouteRequest
      sender := t.sender
      stage := t.stage } := by
  have hsame := SameTables.refl s.node
  unfold sendStep at hs
  cases hpc : s.sender i with
  | idle =>
    rw [hpc] at hs
    dsimp only at hs
    split at hs <;> split at hs <;> cases hs <;> exact ⟨hsame, rfl⟩
  | downHeader => rw [hpc] at hs; dsimp only at hs; split at hs <;> cases hs <;> exact ⟨hsame, rfl⟩
  | downRoute =>
    rw [hpc] at hs
    dsimp only at hs
    split at hs
    all_goals
      rename_i hr
      cases hs
      exact ⟨unetRouterDownStart_tables hr, rfl⟩
  | upRoute =>
    rw [hpc] at hs
    dsimp only at hs
    split at hs
    all_goals
      rename_i hr
      cases hs
      exact ⟨unetRouterUp_tables hr, rfl⟩
  | _ => rw [hpc] at hs; cases hs; exact ⟨hsame, rfl⟩

end

/-! ## The two halves of a node -/

section
variable {σ : Type}

structure SameDown (s t : Sys σ) : Prop where
  packetDown : t.packetDown = s.packetDown
  requests : t.routerDownAckRequest = s.routerDownAckRequest
  received : t.routerDownAckReceived = s.routerDownAckReceived
  downAck : t.downAck = s.downAck
  down : t.down = s.down
  sender : t.sender = s.sender
  stage : t.stage = s.stage
  downTag : t.downTag = s.downTag
  taken : t.taken = s.taken
  handledDown : t.handledDown = s.handledDown

structure SameUp (s t : Sys σ) : Prop where
  packetUp : t.packetUp = s.packetUp
  requests : t.routerUpAckRequest = s.routerUpAckRequest
  routeRequests : t.routerUpRouteRequest = s.routerUpRouteRequest
  received : t.routerUpAckReceived = s.routerUpAckReceived
  upAck : t.upAck = s.upAck
  up : t.up = s.up
  upRetries : t.upRetries = s.upRetries
  sender : t.sender = s.sender
  upTag : t.upTag = s.upTag
  handledUp : t.handledUp = s.handledUp

/-- Nothing of what the ack task records has changed, nor its place. -/
structure SameRecords (s t : Sys σ) : Prop where
  neighbourhood : t.node.neighbourhood = s.node.neighbourhood
  requests : t.routerDownAckRequest = s.routerDownAckRequest
  downAck : t.downAck = s.downAck
  downTag : t.downTag = s.downTag
  taken : t.taken = s.taken
  handledDown : t.handledDown = s.handledDown

variable {dev : DeviceType} {s t : Sys σ} {ok : Bool}

theorem upAckStep_sameDown (hs : upAckStep s ok = some t) : SameDown s t := by
  rw [(upAckStep_frame hs).2]
  constructor <;> rfl

theorem upStep_sameDown (hs : upStep s ok = some t) : SameDown s t := by
  rw [upStep_frame hs]
  constructor <;> rfl

theorem linkTaskStep_sameDown (hs : linkTaskStep dev s ok = some t) : SameDown s t := by
  rw [(linkTaskStep_frame hs).2]
  constructor <;> rfl

theorem SameDown.sameRecords (e : SameDown s t) (hn : t.node.neighbourhood = s.node.neighbourhood) :
    SameRecords s t := ⟨hn, e.requests, e.downAck, e.downTag, e.taken, e.handledDown⟩

theorem upAckStep_sameRecords (hs : upAckStep s ok = some t) : SameRecords s t :=
  (upAckStep_sameDown hs).sameRecords (upAckStep_frame hs).1.neighbourhood

theorem upStep_sameRecords (hs : upStep s ok = some t) : SameRecords s t := by
  apply (upStep_sameDown hs).sameRecords
  rw [upStep_frame hs]

theorem linkTaskStep_sameRecords (hs : linkTaskStep dev s ok = some t) : SameRecords s t :=
  (linkTaskStep_sameDown hs).sameRecords (linkTaskStep_frame hs).1.neighbourhood

theorem downStep_sameRecords (hs : downStep dev s ok = some t) : SameRecords s t := by
  obtain ⟨hn, e⟩ := downStep_frame hs
  refine ⟨hn.neighbourhood, ?_, ?_, ?_, ?_, ?_⟩ <;> rw [e]

theorem sendStep_sameRecords [DecidableEq σ] {i : σ} {d : SendRequest}
    (hs : sendStep s i d = some t) : SameRecords s t := by
  obtain ⟨hn, e⟩ := sendStep_frame hs
  refine ⟨hn.neighbourhood, ?_, ?_, ?_, ?_, ?_⟩ <;> rw [e]

theorem downAckStep_sameUp (hs : downAckStep s ok = some t) : SameUp s t := by
  rw [(downAckStep_frame hs).2]
  constructor <;> rfl

theorem downStep_sameUp (hs : downStep dev s ok = some t) : SameUp s t := by
  rw [(downStep_frame hs).2]
  constructor <;> rfl

theorem linkTaskStep_sameUp (hs : linkTaskStep dev s ok = some t) : SameUp s t := by
  rw [(linkTaskStep_frame hs).2]
  constructor <;> rfl

theorem downAckStep_down (hs : downAckStep s ok = some t) : t.down = s.down := by
  rw [(downAckStep_frame hs).2]

theorem sendStep_down [DecidableEq σ] {i : σ} {d : SendRequest} (hs : sendStep s i d = some t) :
    t.down = s.down := by
  rw [(sendStep_frame hs).2]

theorem upAckStep_up (hs : upAckStep s ok = some t) : t.up = s.up := by
  rw [(upAckStep_frame hs).2]

theorem sendStep_up [DecidableEq σ] {i : σ} {d : SendRequest} (hs : sendStep s i d = some t) :
    t.up = s.up := by
  rw [(sendStep_frame hs).2]

end

/-! ## The owner of a buffer -/

/-- Who uses a buffer. A received packet belongs to the ack task from its request on, a queued one to
nobody until the task that transmits it wakes up. -/
inductive Owner (σ : Type)
  | nobody | received | ackTask | sender (i : σ) | queued | advertiser | transmitter

namespace Owner
variable {σ : Type}

def requests : Owner σ → Nat
  | received => 1
  | _ => 0

def isAckTask : Owner σ → Bool
  | ackTask => true
  | _ => false

def isSender [DecidableEq σ] : Owner σ → σ → Bool
  | sender i, j => i = j
  | _, _ => false

def isAdvertiser : Owner σ → Bool
  | advertiser => true
  | _ => false

def isTransmitter : Owner σ → Bool
  | transmitter => true
  | _ => false

variable {o : Owner σ}

theorem eq_received (h : 0 < o.requests) : o = received := by
  cases o with
  | received => rfl
  | _ => cases h

theorem eq_ackTask (h : o.isAckTask = true) : o = ackTask := by
  cases o with
  | ackTask => rfl
  | _ => cases h

theorem eq_sender [DecidableEq σ] {i : σ} (h : o.isSender i = true) : o = sender i := by
  cases o with
  | sender j => rw [of_decide_eq_true h]
  | _ => cases h

theorem eq_advertiser (h : o.isAdvertiser = true) : o = advertiser := by
  cases o with
  | advertiser => rfl
  | _ => cases h

theorem eq_transmitter (h : o.isTransmitter = true) : o = transmitter := by
  cases o with
  | transmitter => rfl
  | _ => cases h

theorem isSender_update [DecidableEq σ] {o' : Owner σ} {α : Type} {f : σ → α} {uses : α → Bool}
    {i : σ} {pc : α} (h : ∀ j, uses (f j) = o.isSender j) (hi : uses pc = o'.isSender i)
    (hne : ∀ j, j ≠ i → o'.isSender j = o.isSender j) (j : σ) :
    uses (Function.update f i pc j) = o'.isSender j := by
  by_cases hj : j = i
  · subst hj
    rw [Function.update_self, hi]
  · rw [Function.update_of_ne hj, hne j hj, h]

end Owner

end Unet4Cooja
