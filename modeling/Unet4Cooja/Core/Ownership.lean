import Unet4Cooja.Core.Steps
import Unet4Cooja.Lib.Runs

/-!
# Who may use `packet_down`

* `Owned` : the one task that uses `packet_down`, and what the others are not doing;
* `WakeOk` : the steps of `UNET_Router_Down_Task` after which it has a packet to transmit;
* `Owned.step`, `downTransmits_of_runs` : under this condition on its wake-ups the task transmits and
  releases nothing but a routed packet;
* `downTransmits_fails` : a change of the parent wakes the task while `unet_send` fills the buffer.
-/

namespace Unet4Cooja
open Lib

/-! ## Owners -/

/-- The ack task handles the packet in `packet_down`. -/
def DownAckPc.handles : DownAckPc → Bool
  | .wait | .post => false
  | _ => true

/-- A task in `unet_send` fills or routes `packet_down`. -/
def SendPc.usesDown : SendPc → Bool
  | .downFill _ | .downHeader _ | .downRoute | .downRouteEnd _ => true
  | _ => false

/-- `unet_router_adv` fills or routes `packet_down`. -/
def DownPc.advertises : DownPc → Bool
  | .advFill | .advRoute | .advRouteEnd _ => true
  | _ => false

/-- `UNET_Router_Down_Task` transmits the packet in `packet_down`, or is about to release it. -/
def DownPc.transmits : DownPc → Bool
  | .claim | .output | .update | .setWait | .pendAck | .acked | .timedOut => true
  | _ => false

/-- What the ack task finds in `packet_down`. -/
def DownAckPc.Expects (p : Packet) (stage : Stage) : DownAckPc → Prop
  | .sendAck => p.state = .sendingAck ∧ stage = .filled
  | .checkDup | .record | .decide | .route =>
    (p.state = .acked ∨ p.state = .notAcked) ∧ stage = .filled
  | .routeEnd _ => p.state = .inRoute ∧ stage = .filled
  | .wait | .post => True

/-- What a task in `unet_send` finds in `packet_down`. -/
def SendPc.Expects (p : Packet) (stage : Stage) : SendPc → Prop
  | .downFill _ | .downHeader _ => p.state = .startRoute ∧ stage = .acquired
  | .downRoute => p.state = .startRoute ∧ stage = .filled
  | .downRouteEnd _ => p.state = .inRoute ∧ stage = .filled
  | _ => True

/-- What `UNET_Router_Down_Task` finds in `packet_down`. -/
def DownPc.Expects (p : Packet) (stage : Stage) : DownPc → Prop
  | .advFill => p.state = .startRoute ∧ stage = .acquired
  | .advRoute => (p.state = .startRoute ∧ p.packet unetHopLimit ≠ 0) ∧ stage = .filled
  | .advRouteEnd _ => p.state = .inRoute ∧ stage = .filled
  | .claim => p.state = .inRoute ∧ stage = .routed
  | .output | .update | .setWait =>
    (p.state = .waitingTx ∨ p.state = .waitingAck ∨ p.state = .acked) ∧ stage = .routed
  | .pendAck | .acked | .timedOut => (p.state = .waitingAck ∨ p.state = .acked) ∧ stage = .routed
  | _ => True

variable {σ : Type}

/-- What the owner of `packet_down` relies on. -/
def Owner.Holds (s : Sys σ) : Owner σ → Prop
  | nobody => s.packetDown.state = .idle
  | received => s.packetDown.state = .sendingAck ∧ s.stage = .filled
  | ackTask => s.downAck.Expects s.packetDown s.stage
  | sender i => (s.sender i).Expects s.packetDown s.stage
  | queued => s.packetDown.state = .inRoute ∧ s.stage = .routed
  | advertiser | transmitter => s.down.Expects s.packetDown s.stage

variable [DecidableEq σ] {dev : DeviceType} {s t : Sys σ} {o o' : Owner σ}

/-- `o` uses `packet_down`, and nobody else does. -/
structure Owned (o : Owner σ) (s : Sys σ) : Prop where
  requests : s.routerDownAckRequest = o.requests
  ackTask : s.downAck.handles = o.isAckTask
  sender : ∀ i, (s.sender i).usesDown = o.isSender i
  advertiser : s.down.advertises = o.isAdvertiser
  transmitter : s.down.transmits = o.isTransmitter
  holds : o.Holds s

namespace Owned

theorem eq_ackTask (h : Owned o s) (ha : s.downAck.handles = true) : o = .ackTask :=
  Owner.eq_ackTask (h.ackTask.symm.trans ha)

theorem no_request (h : Owned o s) (ho : o = .ackTask) : ¬ 0 < s.routerDownAckRequest := by
  rw [h.requests, ho]
  exact Nat.lt_irrefl 0

theorem eq_sender (h : Owned o s) {i : σ} (hi : (s.sender i).usesDown = true) : o = .sender i :=
  Owner.eq_sender ((h.sender i).symm.trans hi)

theorem eq_advertiser (h : Owned o s) (ha : s.down.advertises = true) : o = .advertiser :=
  Owner.eq_advertiser (h.advertiser.symm.trans ha)

theorem eq_transmitter (h : Owned o s) (ht : s.down.transmits = true) : o = .transmitter :=
  Owner.eq_transmitter (h.transmitter.symm.trans ht)

theorem eq_received (h : Owned o s) (hr : 0 < s.routerDownAckRequest) : o = .received :=
  Owner.eq_received (h.requests ▸ hr)

end Owned

section
variable {p : Packet} {stage : Stage}

theorem DownAckPc.Expects.busy {pc : DownAckPc} (h : pc.Expects p stage) (hpc : pc.handles = true) :
    p.state ≠ .idle ∧ p.state ≠ .waitingAck := by
  cases pc with
  | wait => cases hpc
  | post => cases hpc
  | sendAck => simp [h.1]
  | routeEnd => simp [h.1]
  | _ => rcases h.1 with h | h <;> simp [h]

theorem SendPc.Expects.busy {pc : SendPc} (h : pc.Expects p stage) (hpc : pc.usesDown = true) :
    p.state ≠ .idle ∧ p.state ≠ .waitingAck := by
  cases pc with
  | downFill => simp [h.1]
  | downHeader => simp [h.1]
  | downRoute => simp [h.1]
  | downRouteEnd => simp [h.1]
  | _ => cases hpc

theorem DownPc.Expects.busy {pc : DownPc} (h : pc.Expects p stage) (hpc : pc.advertises = true) :
    p.state ≠ .idle ∧ p.state ≠ .waitingAck := by
  cases pc with
  | advFill => simp [h.1]
  | advRoute => simp [h.1.1]
  | advRouteEnd => simp [h.1]
  | _ => cases hpc

theorem DownPc.Expects.routed {pc : DownPc} (h : pc.Expects p stage) (hpc : pc.transmits = true) :
    stage = .routed ∧ p.state ∉ [.idle, .startRoute, .sendingAck] := by
  cases pc with
  | claim => simp [h.1, h.2]
  | output => rcases h.1 with h' | h' | h' <;> simp [h', h.2]
  | update => rcases h.1 with h' | h' | h' <;> simp [h', h.2]
  | setWait => rcases h.1 with h' | h' | h' <;> simp [h', h.2]
  | pendAck => rcases h.1 with h' | h' <;> simp [h', h.2]
  | acked => rcases h.1 with h' | h' <;> simp [h', h.2]
  | timedOut => rcases h.1 with h' | h' <;> simp [h', h.2]
  | _ => cases hpc

end

namespace Owned

theorem isAckTask (h : Owned .ackTask s) : s.downAck.handles = true := h.ackTask
theorem isSender {i : σ} (h : Owned (.sender i) s) : (s.sender i).usesDown = true :=
  (h.sender i).trans (decide_eq_true rfl)

/-- Every owner but the transmitter has changed the state of a free buffer, and to something else
than a wait for an ack. -/
theorem idle_or_waiting (h : Owned o s) (ho : o ≠ .nobody) :
    s.packetDown.state ≠ .idle ∧ (o ≠ .transmitter → s.packetDown.state ≠ .waitingAck) := by
  have hh := h.holds
  cases o with
  | nobody => exact absurd rfl ho
  | received => simp [hh.1]
  | ackTask => exact ⟨(hh.busy h.ackTask).1, fun _ => (hh.busy h.ackTask).2⟩
  | sender i => exact ⟨(hh.busy h.isSender).1, fun _ => (hh.busy h.isSender).2⟩
  | queued => simp [hh.1]
  | advertiser => exact ⟨(hh.busy h.advertiser).1, fun _ => (hh.busy h.advertiser).2⟩
  | transmitter =>
    refine ⟨fun hi => (hh.routed h.transmitter).2 ?_, fun hne => absurd rfl hne⟩
    simp [hi]

theorem eq_nobody (h : Owned o s) (hi : s.packetDown.state = .idle) : o = .nobody :=
  Classical.byContradiction fun hne => (h.idle_or_waiting hne).1 hi

theorem eq_transmitter_of_waitingAck (h : Owned o s) (hw : s.packetDown.state = .waitingAck) :
    o = .transmitter := by
  by_contra hne
  refine (h.idle_or_waiting ?_).2 hne hw
  rintro rfl
  have hi : s.packetDown.state = .idle := h.holds
  rw [hi] at hw
  cases hw

theorem frame (h : Owned o s) (hp : t.packetDown = s.packetDown) (hst : t.stage = s.stage)
    (hr : t.routerDownAckRequest = s.routerDownAckRequest)
    (ha : t.downAck = s.downAck ∨ (o.isAckTask = false ∧ t.downAck.handles = false))
    (hs : ∀ i, t.sender i = s.sender i ∨ (o.isSender i = false ∧ (t.sender i).usesDown = false))
    (hd : t.down = s.down ∨ ((o.isAdvertiser = false ∧ o.isTransmitter = false) ∧
      t.down.advertises = false ∧ t.down.transmits = false)) : Owned o t := by
  refine ⟨hr.trans h.requests, ?_, fun i => ?_, ?_, ?_, ?_⟩
  · rcases ha with ha | ha
    · rw [ha, h.ackTask]
    · rw [ha.1, ha.2]
  · rcases hs i with hs | hs
    · rw [hs, h.sender]
    · rw [hs.1, hs.2]
  · rcases hd with hd | hd
    · rw [hd, h.advertiser]
    · rw [hd.1.1, hd.2.1]
  · rcases hd with hd | hd
    · rw [hd, h.transmitter]
    · rw [hd.1.2, hd.2.2]
  · have hh := h.holds
    cases o with
    | nobody => exact (congrArg Packet.state hp).trans hh
    | received => exact ⟨(congrArg Packet.state hp).trans hh.1, hst.trans hh.2⟩
    | queued => exact ⟨(congrArg Packet.state hp).trans hh.1, hst.trans hh.2⟩
    | ackTask =>
      have : t.downAck = s.downAck := ha.resolve_right fun e => nomatch e.1
      show t.downAck.Expects t.packetDown t.stage
      rw [this, hp, hst]
      exact hh
    | sender i =>
      have : t.sender i = s.sender i := (hs i).resolve_right fun e => by
        simp [Owner.isSender] at e
      show (t.sender i).Expects t.packetDown t.stage
      rw [this, hp, hst]
      exact hh
    | advertiser =>
      have : t.down = s.down := hd.resolve_right fun e => nomatch e.1.1
      show t.down.Expects t.packetDown t.stage
      rw [this, hp, hst]
      exact hh
    | transmitter =>
      have : t.down = s.down := hd.resolve_right fun e => nomatch e.1.2
      show t.down.Expects t.packetDown t.stage
      rw [this, hp, hst]
      exact hh

theorem same (h : Owned o s) (e : SameDown s t) : Owned o t :=
  h.frame e.packetDown e.stage e.requests (.inl e.downAck) (fun i => .inl (congrFun e.sender i))
    (.inl e.down)

end Owned

/-! ## Steps -/

/-- The ack task is in `unet_router_down`, between `PACKET_IN_ROUTE` and the return. -/
def DownAckPc.routing : DownAckPc → Bool
  | .routeEnd _ => true
  | _ => false

/-- A task in `unet_send` is in `unet_router_down`, between `PACKET_IN_ROUTE` and the return. -/
def SendPc.routing : SendPc → Bool
  | .downRouteEnd _ => true
  | _ => false

/-- When `UNET_Router_Down_Task` is woken, the buffer is free and an advertisement is due, or it
holds a packet whose routing has ended; and when it routes an advertisement there is a parent. -/
def WakeOk (dev : DeviceType) (s : Sys σ) : Act σ → Prop
  | .down _ =>
    (s.down = .woken →
      (dev = .router ∧ isTrickleReseted s.timerDown = true ∧ s.packetDown.state = .idle) ∨
        (s.packetDown.state = .inRoute ∧ s.downAck.routing = false ∧
          ∀ i, (s.sender i).routing = false)) ∧
    (s.down = .advRoute → s.node.parentIndex ≠ noParent)
  | _ => True

namespace Owned

theorem handled {p : Packet} {tag : Nat} (h : Owned o s) (hh : Handled dev s p tag t) :
    ∃ o', Owned o' t := by
  cases hh with
  | dropped => exact ⟨o, h⟩
  | link => exact ⟨o, h.same (by constructor <;> rfl)⟩
  | up _ _ => exact ⟨o, h.same (by constructor <;> rfl)⟩
  | ackUp _ _ _ => exact ⟨o, h.same (by constructor <;> rfl)⟩
  | down _ hidle =>
    obtain rfl := h.eq_nobody hidle
    refine ⟨.received, ?_, h.ackTask, h.sender, h.advertiser, h.transmitter, rfl, rfl⟩
    show osSemPost s.routerDownAckRequest = 1
    rw [h.requests]
    rfl
  | ackDown _ _ _ hw =>
    obtain rfl := h.eq_transmitter_of_waitingAck hw
    refine ⟨.transmitter, h.requests, h.ackTask, h.sender, h.advertiser, h.transmitter, ?_⟩
    have hh : s.down.Expects s.packetDown s.stage := h.holds
    show s.down.Expects { s.packetDown with state := .acked } s.stage
    revert hh
    cases s.down <;> simp [DownPc.Expects, hw]

theorem downAckStep {ok : Bool} (h : Owned o s) (hs : Unet4Cooja.downAckStep s ok = some t) :
    ∃ o', Owned o' t := by
  unfold Unet4Cooja.downAckStep at hs
  cases hpc : s.downAck with
  | wait =>
    rw [hpc] at hs
    rcases osSemPend_eq_some.mp hs with ⟨_, hpos, hs⟩ | ⟨_, _, hs⟩
    · cases hs
      obtain rfl := h.eq_received hpos
      refine ⟨.ackTask, ?_, rfl, h.sender, h.advertiser, h.transmitter, h.holds⟩
      show s.routerDownAckRequest - 1 = 0
      rw [h.requests]
      rfl
    · cases hs
  | post =>
    rw [hpc] at hs
    cases hs
    have hno : o.isAckTask = false := by rw [← h.ackTask, hpc]; rfl
    exact ⟨o, h.frame rfl rfl rfl (.inr ⟨hno, rfl⟩) (fun _ => .inl rfl) (.inl rfl)⟩
  | sendAck =>
    obtain rfl := h.eq_ackTask (by rw [hpc]; rfl)
    have hh : s.downAck.Expects s.packetDown s.stage := h.holds
    rw [hpc] at hs hh
    cases hs
    refine ⟨.ackTask, h.requests, rfl, h.sender, h.advertiser, h.transmitter, ?_, hh.2⟩
    cases ok <;> simp
  | checkDup =>
    obtain rfl := h.eq_ackTask (by rw [hpc]; rfl)
    have hh : s.downAck.Expects s.packetDown s.stage := h.holds
    rw [hpc] at hs hh
    dsimp only at hs
    split at hs
    · cases hs
      exact ⟨.nobody, h.requests, rfl, h.sender, h.advertiser, h.transmitter, rfl⟩
    · cases hs
      exact ⟨.ackTask, h.requests, rfl, h.sender, h.advertiser, h.transmitter, hh⟩
  | record =>
    obtain rfl := h.eq_ackTask (by rw [hpc]; rfl)
    have hh : s.downAck.Expects s.packetDown s.stage := h.holds
    rw [hpc] at hs hh
    cases hs
    exact ⟨.ackTask, h.requests, rfl, h.sender, h.advertiser, h.transmitter, hh⟩
  | decide =>
    obtain rfl := h.eq_ackTask (by rw [hpc]; rfl)
    have hh : s.downAck.Expects s.packetDown s.stage := h.holds
    rw [hpc] at hs hh
    dsimp only at hs
    split at hs
    · cases hs
      exact ⟨.nobody, h.requests, rfl, h.sender, h.advertiser, h.transmitter, rfl⟩
    · cases hs
      exact ⟨.ackTask, h.requests, rfl, h.sender, h.advertiser, h.transmitter, hh⟩
  | route =>
    obtain rfl := h.eq_ackTask (by rw [hpc]; rfl)
    have hh : s.downAck.Expects s.packetDown s.stage := h.holds
    rw [hpc] at hs hh
    dsimp only at hs
    split at hs
    · cases hs
      exact ⟨.nobody, h.requests, rfl, h.sender, h.advertiser, h.transmitter, rfl⟩
    · rename_i hr
      cases hs
      exact ⟨.ackTask, h.requests, rfl, h.sender, h.advertiser, h.transmitter,
        unetRouterDownStart_some hr, hh.2⟩
  | routeEnd pIdx =>
    obtain rfl := h.eq_ackTask (by rw [hpc]; rfl)
    have hh : s.downAck.Expects s.packetDown s.stage := h.holds
    rw [hpc] at hs hh
    cases hs
    exact ⟨.queued, h.requests, rfl, h.sender, h.advertiser, h.transmitter, hh.1, rfl⟩

theorem downOutside {pc : DownPc} (h : Owned o s) (ha : s.down.advertises = false)
    (hd : s.down.transmits = false) (hp : t.packetDown = s.packetDown) (hst : t.stage = s.stage)
    (hr : t.routerDownAckRequest = s.routerDownAckRequest) (hack : t.downAck = s.downAck)
    (hs : t.sender = s.sender) (ht : t.down = pc) (hpc : pc.advertises = false)
    (hpc' : pc.transmits = false) : Owned o t := by
  refine h.frame hp hst hr (.inl hack) (fun i => .inl (congrFun hs i)) (.inr ⟨⟨?_, ?_⟩, ?_⟩)
  · rw [← h.advertiser, ha]
  · rw [← h.transmitter, hd]
  · rw [ht]
    exact ⟨hpc, hpc'⟩

theorem eq_queued (h : Owned o s) (ha : s.down.advertises = false) (ht : s.down.transmits = false)
    (hroute : s.packetDown.state = .inRoute) (hack : s.downAck.routing = false)
    (hsend : ∀ i, (s.sender i).routing = false) : o = .queued := by
  have hh := h.holds
  cases o with
  | queued => rfl
  | nobody =>
    have hidle : s.packetDown.state = .idle := hh
    rw [hroute] at hidle
    cases hidle
  | received =>
    have hst := hh.1
    rw [hroute] at hst
    cases hst
  | ackTask =>
    have hh : s.downAck.Expects s.packetDown s.stage := hh
    have hhandles := h.isAckTask
    cases hpc : s.downAck with
    | routeEnd i => rw [hpc] at hack; cases hack
    | wait => rw [hpc] at hhandles; cases hhandles
    | post => rw [hpc] at hhandles; cases hhandles
    | _ => rw [hpc] at hh; simp [DownAckPc.Expects, hroute] at hh
  | sender i =>
    have hh : (s.sender i).Expects s.packetDown s.stage := hh
    have huses := h.isSender
    cases hpc : s.sender i with
    | downRouteEnd k => have hr := hsend i; rw [hpc] at hr; cases hr
    | downFill => rw [hpc] at hh; simp [SendPc.Expects, hroute] at hh
    | downHeader => rw [hpc] at hh; simp [SendPc.Expects, hroute] at hh
    | downRoute => rw [hpc] at hh; simp [SendPc.Expects, hroute] at hh
    | _ => rw [hpc] at huses; cases huses
  | advertiser => rw [h.advertiser] at ha; cases ha
  | transmitter => rw [h.transmitter] at ht; cases ht

theorem advertiserStep {ok : Bool} (h : Owned .advertiser s)
    (hparent : s.down = .advRoute → s.node.parentIndex ≠ noParent)
    (hs : Unet4Cooja.downStep dev s ok = some t) : Owned .advertiser t ∨ Owned .transmitter t := by
  have hadv : s.down.advertises = true := h.advertiser
  have hh : s.down.Expects s.packetDown s.stage := h.holds
  unfold Unet4Cooja.downStep at hs
  cases hpc : s.down with
  | advFill =>
    rw [hpc] at hs hh
    cases hs
    exact .inl ⟨h.requests, h.ackTask, h.sender, rfl, rfl, ⟨hh.1, unetRouterAdvFill_hopLimit _ _⟩, rfl⟩
  | advRoute =>
    have hparent := hparent hpc
    rw [hpc] at hs hh
    dsimp only at hs
    split at hs
    · rename_i hr
      rcases unetRouterDownStart_none hr with hz | hz
      · exact absurd hz hh.1.2
      · exact absurd hz hparent
    · rename_i hr
      cases hs
      exact .inl ⟨h.requests, h.ackTask, h.sender, rfl, rfl, unetRouterDownStart_some hr, hh.2⟩
  | advRouteEnd pIdx =>
    rw [hpc] at hs hh
    cases hs
    exact .inr ⟨h.requests, h.ackTask, h.sender, rfl, rfl, hh.1, rfl⟩
  | _ => rw [hpc] at hadv; cases hadv

theorem transmitterStep {ok : Bool} (h : Owned .transmitter s)
    (hs : Unet4Cooja.downStep dev s ok = some t) : Owned .transmitter t ∨ Owned .nobody t := by
  have htrans : s.down.transmits = true := h.transmitter
  have hh : s.down.Expects s.packetDown s.stage := h.holds
  unfold Unet4Cooja.downStep at hs
  cases hpc : s.down with
  | claim =>
    rw [hpc] at hs hh
    cases hs
    exact .inl ⟨h.requests, h.ackTask, h.sender, rfl, rfl, .inl rfl, hh.2⟩
  | output =>
    rw [hpc] at hs hh
    dsimp only at hs
    split at hs
    · cases hs
      exact .inl ⟨h.requests, h.ackTask, h.sender, rfl, rfl, hh⟩
    · cases hs
      exact .inl ⟨h.requests, h.ackTask, h.sender, rfl, rfl, hh⟩
  | update =>
    rw [hpc] at hs hh
    cases hs
    refine .inl ⟨h.requests, h.ackTask, h.sender, rfl, rfl, ?_, hh.2⟩
    show (unetUpdatePacketDownDest s.node s.packetDown).state = _ ∨ _
    rw [unetUpdatePacketDownDest_state]
    exact hh.1
  | setWait =>
    rw [hpc] at hs hh
    cases hs
    exact .inl ⟨h.requests, h.ackTask, h.sender, rfl, rfl, .inl rfl, hh.2⟩
  | pendAck =>
    rw [hpc] at hs hh
    rcases osSemPend_eq_some.mp hs with ⟨_, _, hs⟩ | ⟨_, _, hs⟩
    · cases hs
      exact .inl ⟨h.requests, h.ackTask, h.sender, rfl, rfl, hh⟩
    · cases hs
      exact .inl ⟨h.requests, h.ackTask, h.sender, rfl, rfl, hh⟩
  | acked =>
    rw [hpc] at hs
    cases hs
    exact .inr ⟨h.requests, h.ackTask, h.sender, rfl, rfl, rfl⟩
  | timedOut =>
    rw [hpc] at hs hh
    dsimp only at hs
    split at hs
    · cases hs
      exact .inr ⟨h.requests, h.ackTask, h.sender, rfl, rfl, rfl⟩
    · cases hs
      exact .inl ⟨h.requests, h.ackTask, h.sender, rfl, rfl, .inr hh.1, hh.2⟩
  | _ => rw [hpc] at htrans; cases htrans

theorem downStep {ok : Bool} (h : Owned o s) (hok : WakeOk dev s (.down ok))
    (hs : Unet4Cooja.downStep dev s ok = some t) : ∃ o', Owned o' t := by
  obtain ⟨hwake, hadv⟩ := hok
  by_cases ha : s.down.advertises = true
  · obtain rfl := h.eq_advertiser ha
    rcases h.advertiserStep hadv hs with h' | h'
    · exact ⟨_, h'⟩
    · exact ⟨_, h'⟩
  by_cases ht : s.down.transmits = true
  · obtain rfl := h.eq_transmitter ht
    rcases h.transmitterStep hs with h' | h'
    · exact ⟨_, h'⟩
    · exact ⟨_, h'⟩
  rw [Bool.not_eq_true] at ha ht
  unfold Unet4Cooja.downStep at hs
  cases hpc : s.down with
  | runTimer =>
    rw [hpc] at hs
    cases hs
    exact ⟨o, h.downOutside ha ht rfl rfl rfl rfl rfl rfl rfl rfl⟩
  | pendRoute =>
    rw [hpc] at hs
    rcases osSemPend_eq_some.mp hs with ⟨_, _, hs⟩ | ⟨_, _, hs⟩
    · cases hs
      exact ⟨o, h.downOutside ha ht rfl rfl rfl rfl rfl rfl rfl rfl⟩
    · split at hs
      · cases hs
        exact ⟨o, h.downOutside ha ht rfl rfl rfl rfl rfl rfl rfl rfl⟩
      · cases hs
  | woken =>
    rw [hpc] at hs
    dsimp only at hs
    split at hs
    · cases hs
      exact ⟨o, h.downOutside ha ht rfl rfl rfl rfl rfl rfl rfl rfl⟩
    · rename_i hno
      cases hs
      obtain ⟨hroute, hack, hsend⟩ := (hwake hpc).resolve_left hno
      obtain rfl := h.eq_queued ha ht hroute hack hsend
      exact ⟨.transmitter, h.requests, h.ackTask, h.sender, rfl, rfl, h.holds⟩
  | adv =>
    rw [hpc] at hs
    dsimp only at hs
    split at hs
    · cases hs
      exact ⟨o, h.downOutside ha ht rfl rfl rfl rfl rfl rfl rfl rfl⟩
    · cases hs
      exact ⟨o, h.downOutside ha ht rfl rfl rfl rfl rfl rfl rfl rfl⟩
  | advAcquire =>
    rw [hpc] at hs
    dsimp only at hs
    split at hs
    · rename_i hidle
      cases hs
      obtain rfl := h.eq_nobody hidle
      exact ⟨.advertiser, h.requests, h.ackTask, h.sender, rfl, rfl, rfl, rfl⟩
    · cases hs
      exact ⟨o, h.downOutside ha ht rfl rfl rfl rfl rfl rfl rfl rfl⟩
  | advFill => rw [hpc] at ha; cases ha
  | advRoute => rw [hpc] at ha; cases ha
  | advRouteEnd => rw [hpc] at ha; cases ha
  | _ => rw [hpc] at ht; cases ht

theorem upAckStep {ok : Bool} (h : Owned o s) (hs : Unet4Cooja.upAckStep s ok = some t) :
    Owned o t := h.same (upAckStep_sameDown hs)

theorem upStep {ok : Bool} (h : Owned o s) (hs : Unet4Cooja.upStep s ok = some t) : Owned o t :=
  h.same (upStep_sameDown hs)

theorem linkTaskStep {ok : Bool} (h : Owned o s)
    (hs : Unet4Cooja.linkTaskStep dev s ok = some t) : Owned o t :=
  h.same (linkTaskStep_sameDown hs)

theorem sendOutside {i : σ} {pc : SendPc} (h : Owned o s) (hi : (s.sender i).usesDown = false)
    (hpc : pc.usesDown = false) (hp : t.packetDown = s.packetDown) (hst : t.stage = s.stage)
    (hr : t.routerDownAckRequest = s.routerDownAckRequest) (ha : t.downAck = s.downAck)
    (hd : t.down = s.down) (hs : t.sender = Function.update s.sender i pc) : Owned o t := by
  refine h.frame hp hst hr (.inl ha) (fun j => ?_) (.inl hd)
  rw [hs]
  by_cases hj : j = i
  · subst hj
    rw [Function.update_self]
    exact .inr ⟨by rw [← h.sender, hi], hpc⟩
  · exact .inl (Function.update_of_ne hj _ _)

theorem sendInside {i : σ} {pc : SendPc} (h : Owned (.sender i) s) (hpc : pc.usesDown = true)
    (hr : t.routerDownAckRequest = s.routerDownAckRequest) (ha : t.downAck = s.downAck)
    (hd : t.down = s.down) (hs : t.sender = Function.update s.sender i pc)
    (hh : pc.Expects t.packetDown t.stage) : Owned (.sender i) t := by
  refine ⟨hr.trans h.requests, ha ▸ h.ackTask, ?_, hd ▸ h.advertiser, hd ▸ h.transmitter, ?_⟩
  · rw [hs]
    refine Owner.isSender_update h.sender ?_ fun _ _ => rfl
    rw [hpc]
    exact (decide_eq_true rfl).symm
  · show (t.sender i).Expects t.packetDown t.stage
    rw [hs, Function.update_self]
    exact hh

theorem sendEnd {i : σ} {pc : SendPc} (h : Owned (.sender i) s) (hpc : pc.usesDown = false)
    (ho : o' = .nobody ∨ o' = .queued) (hr : t.routerDownAckRequest = s.routerDownAckRequest)
    (ha : t.downAck = s.downAck) (hd : t.down = s.down)
    (hs : t.sender = Function.update s.sender i pc) (hh : o'.Holds t) : Owned o' t := by
  have hends : o'.requests = 0 ∧ o'.isAckTask = false ∧ (∀ j, o'.isSender j = false) ∧
      o'.isAdvertiser = false ∧ o'.isTransmitter = false := by
    rcases ho with rfl | rfl <;> exact ⟨rfl, rfl, fun _ => rfl, rfl, rfl⟩
  obtain ⟨h0, h1, h2, h3, h4⟩ := hends
  refine ⟨?_, ?_, fun j => ?_, ?_, ?_, hh⟩
  · rw [hr, h.requests, h0]
    rfl
  · rw [ha, h.ackTask, h1]
    rfl
  · rw [hs]
    refine Owner.isSender_update h.sender (hpc.trans (h2 i).symm) (fun j hj => ?_) j
    rw [h2]
    exact (decide_eq_false fun e => hj e.symm).symm
  · rw [hd, h.advertiser, h3]
    rfl
  · rw [hd, h.transmitter, h4]
    rfl

theorem sendStep {i : σ} {d : SendRequest} (h : Owned o s)
    (hs : Unet4Cooja.sendStep s i d = some t) : ∃ o', Owned o' t := by
  unfold Unet4Cooja.sendStep at hs
  cases hpc : s.sender i with
  | idle =>
    have hout : (s.sender i).usesDown = false := by rw [hpc]; rfl
    rw [hpc] at hs
    dsimp only at hs
    split at hs
    · split at hs
      · rename_i hidle
        cases hs
        obtain rfl := h.eq_nobody hidle
        refine ⟨.sender i, h.requests, h.ackTask, ?_, h.advertiser, h.transmitter, ?_⟩
        · refine Owner.isSender_update h.sender (decide_eq_true rfl).symm fun j hj => ?_
          exact decide_eq_false fun e => hj e.symm
        · show SendPc.Expects _ _ (Function.update s.sender i _ i)
          rw [Function.update_self]
          exact ⟨rfl, rfl⟩
      · cases hs
    · split at hs
      · cases hs
        exact ⟨o, h.sendOutside hout rfl rfl rfl rfl rfl rfl rfl⟩
      · cases hs
  | downFill d' =>
    obtain rfl := h.eq_sender (by rw [hpc]; rfl)
    have hh : (s.sender i).Expects s.packetDown s.stage := h.holds
    rw [hpc] at hs hh
    cases hs
    exact ⟨.sender i, h.sendInside rfl rfl rfl rfl rfl hh⟩
  | downHeader len =>
    obtain rfl := h.eq_sender (by rw [hpc]; rfl)
    have hh : (s.sender i).Expects s.packetDown s.stage := h.holds
    rw [hpc] at hs hh
    dsimp only at hs
    split at hs
    · cases hs
      exact ⟨.nobody, h.sendEnd rfl (.inl rfl) rfl rfl rfl rfl rfl⟩
    · cases hs
      exact ⟨.sender i, h.sendInside rfl rfl rfl rfl rfl ⟨hh.1, rfl⟩⟩
  | downRoute =>
    obtain rfl := h.eq_sender (by rw [hpc]; rfl)
    have hh : (s.sender i).Expects s.packetDown s.stage := h.holds
    rw [hpc] at hs hh
    dsimp only at hs
    split at hs
    · cases hs
      exact ⟨.nobody, h.sendEnd rfl (.inl rfl) rfl rfl rfl rfl rfl⟩
    · rename_i hr
      cases hs
      exact ⟨.sender i, h.sendInside rfl rfl rfl rfl rfl ⟨unetRouterDownStart_some hr, hh.2⟩⟩
  | downRouteEnd pIdx =>
    obtain rfl := h.eq_sender (by rw [hpc]; rfl)
    have hh : (s.sender i).Expects s.packetDown s.stage := h.holds
    rw [hpc] at hs hh
    cases hs
    exact ⟨.queued, h.sendEnd rfl (.inr rfl) rfl rfl rfl rfl ⟨hh.1, rfl⟩⟩
  | upRoute dest len =>
    have hout : (s.sender i).usesDown = false := by rw [hpc]; rfl
    rw [hpc] at hs
    dsimp only at hs
    split at hs <;> cases hs <;> exact ⟨o, h.sendOutside hout rfl rfl rfl rfl rfl rfl rfl⟩
  | _ =>
    have hout : (s.sender i).usesDown = false := by rw [hpc]; rfl
    rw [hpc] at hs
    cases hs
    exact ⟨o, h.sendOutside hout rfl rfl rfl rfl rfl rfl rfl⟩

/-- With no packet to acknowledge, the ack task can only hand over one it routed before. -/
theorem downAckStep_other {ok : Bool} (h : Owned o s) (hr : o.requests = 0)
    (ha : o.isAckTask = false) (hs : Unet4Cooja.downAckStep s ok = some t) :
    t = { s with
      routerDownRouteRequest := osSemPost s.routerDownRouteRequest
      downAck := .wait } := by
  have hidle : s.downAck.handles = false := h.ackTask.trans ha
  unfold Unet4Cooja.downAckStep at hs
  cases hpc : s.downAck with
  | wait =>
    rw [hpc] at hs
    rcases osSemPend_eq_some.mp hs with ⟨_, hpos, _⟩ | ⟨_, _, hs⟩
    · rw [h.requests, hr] at hpos
      cases hpos
    · cases hs
  | post =>
    rw [hpc] at hs
    cases hs
    rfl
  | _ => rw [hpc] at hidle; cases hidle

/-- What a task in `unet_send` leaves alone while another task owns the buffer. -/
theorem sendStep_other {i : σ} {d : SendRequest} (h : Owned o s) (ho : ∀ i, o ≠ .sender i)
    (hidle : s.packetDown.state ≠ .idle) (hs : Unet4Cooja.sendStep s i d = some t) :
    SameDown { s with sender := t.sender } t := by
  have hout : (s.sender i).usesDown = true → False := fun hu => ho i (h.eq_sender hu)
  unfold Unet4Cooja.sendStep at hs
  cases hpc : s.sender i with
  | idle =>
    rw [hpc] at hs
    dsimp only at hs
    rw [if_neg hidle] at hs
    split at hs
    · cases hs
    · split at hs <;> cases hs
      constructor <;> rfl
  | upFill => rw [hpc] at hs; cases hs; constructor <;> rfl
  | upRoute =>
    rw [hpc] at hs
    dsimp only at hs
    split at hs <;> cases hs <;> constructor <;> rfl
  | upPost => rw [hpc] at hs; cases hs; constructor <;> rfl
  | downPost => rw [hpc] at hs; cases hs; constructor <;> rfl
  | _ => rw [hpc] at hout; exact (hout rfl).elim

/-- `UNET_Router_Down_Task` leaves a packet of another owner alone. -/
theorem downStep_other {ok : Bool} (h : Owned o s) (ha : o.isAdvertiser = false)
    (ht : o.isTransmitter = false) (hidle : s.packetDown.state ≠ .idle)
    (hs : Unet4Cooja.downStep dev s ok = some t) : t.packetDown = s.packetDown := by
  have hadv : s.down.advertises = false := h.advertiser.trans ha
  have htrans : s.down.transmits = false := h.transmitter.trans ht
  unfold Unet4Cooja.downStep at hs
  cases hpc : s.down with
  | runTimer => rw [hpc] at hs; cases hs; rfl
  | pendRoute =>
    rw [hpc] at hs
    rcases osSemPend_eq_some.mp hs with ⟨_, _, hs⟩ | ⟨_, _, hs⟩
    · cases hs
      rfl
    · split at hs <;> cases hs
      rfl
  | woken => rw [hpc] at hs; dsimp only at hs; split at hs <;> cases hs <;> rfl
  | adv => rw [hpc] at hs; dsimp only at hs; split at hs <;> cases hs <;> rfl
  | advAcquire =>
    rw [hpc] at hs
    dsimp only at hs
    rw [if_neg hidle] at hs
    cases hs
    rfl
  | advFill => rw [hpc] at hadv; cases hadv
  | advRoute => rw [hpc] at hadv; cases hadv
  | advRouteEnd => rw [hpc] at hadv; cases hadv
  | _ => rw [hpc] at htrans; cases htrans

/-- A step of another task than the ack task changes nothing that it records, and no packet that it
handles or is to handle. -/
theorem otherStep {a : Act σ} (h : Owned o s) (hs : sysStep dev s a = some t)
    (hin : ∀ p tag crc, a ≠ .input p tag crc) (hver : a ≠ .verify)
    (hack : ∀ ok, a ≠ .downAck ok) :
    SameRecords s t ∧ (o = .received ∨ o = .ackTask → t.packetDown = s.packetDown) := by
  cases a with
  | input p tag crc => exact absurd rfl (hin p tag crc)
  | verify => exact absurd rfl hver
  | downAck ok => exact absurd rfl (hack ok)
  | upAck ok => exact ⟨upAckStep_sameRecords hs, fun _ => (upAckStep_sameDown hs).packetDown⟩
  | up ok => exact ⟨upStep_sameRecords hs, fun _ => (upStep_sameDown hs).packetDown⟩
  | link ok => exact ⟨linkTaskStep_sameRecords hs, fun _ => (linkTaskStep_sameDown hs).packetDown⟩
  | down ok =>
    refine ⟨downStep_sameRecords hs, ?_⟩
    rintro (rfl | rfl)
    · exact h.downStep_other rfl rfl (h.idle_or_waiting (by rintro ⟨⟩)).1 hs
    · exact h.downStep_other rfl rfl (h.idle_or_waiting (by rintro ⟨⟩)).1 hs
  | send i d =>
    refine ⟨sendStep_sameRecords hs, ?_⟩
    rintro (rfl | rfl)
    · exact (h.sendStep_other (fun _ => by rintro ⟨⟩) (h.idle_or_waiting (by rintro ⟨⟩)).1
        hs).packetDown
    · exact (h.sendStep_other (fun _ => by rintro ⟨⟩) (h.idle_or_waiting (by rintro ⟨⟩)).1
        hs).packetDown

theorem step {a : Act σ} (h : Owned o s) (hok : WakeOk dev s a)
    (hs : sysStep dev s a = some t) : ∃ o', Owned o' t := by
  cases a with
  | input p tag crc =>
    rcases packetInput_eq (Option.some.inj hs) with rfl | ⟨_, _, hh⟩
    · exact ⟨o, h⟩
    · exact h.handled hh
  | verify => cases hs; exact ⟨o, h.same (by constructor <;> rfl)⟩
  | downAck ok => exact h.downAckStep hs
  | down ok => exact h.downStep hok hs
  | upAck ok => exact ⟨o, h.upAckStep hs⟩
  | up ok => exact ⟨o, h.upStep hs⟩
  | link ok => exact ⟨o, h.linkTaskStep hs⟩
  | send i d => exact h.sendStep hs

theorem start (h : SysStart dev s) : Owned .nobody s := by
  obtain ⟨hack, hdown, _⟩ := h.tasks
  refine ⟨h.downCounts.1, ?_, fun i => ?_, ?_, ?_, h.packetDown⟩
  · rw [hack]
    rfl
  · rw [h.sender i]
    rfl
  · rw [hdown]
    rfl
  · rw [hdown]
    rfl

theorem of_runs {s₀ : Sys σ} {as : List (Act σ)} (h0 : SysStart dev s₀)
    (r : Runs (sysStep dev) (WakeOk dev) s₀ as s) : ∃ o, Owned o s :=
  r.invariant (I := fun s => ∃ o, Owned o s) ⟨_, start h0⟩ fun _ _ _ ⟨_, ho⟩ hok hs => ho.step hok hs

end Owned

/-! ## Exclusive use -/

/-- While `UNET_Router_Down_Task` transmits `packet_down` or is about to release it, the buffer has
been filled and routed since it was acquired, and nobody fills, routes or acknowledges it. -/
def DownExclusive (s : Sys σ) : Prop :=
  s.down.transmits = true →
    s.stage = .routed ∧ s.packetDown.state ∉ [.idle, .startRoute, .sendingAck] ∧
      (∀ i, (s.sender i).usesDown = false) ∧ s.downAck.handles = false ∧ s.routerDownAckRequest = 0

/-- What the task transmits and releases is a routed packet that is its own. -/
theorem downTransmits_of_runs {s₀ : Sys σ} {as : List (Act σ)} (h0 : SysStart dev s₀)
    (r : Runs (sysStep dev) (WakeOk dev) s₀ as s) : DownExclusive s := by
  obtain ⟨o, h⟩ := Owned.of_runs h0 r
  intro ht
  obtain rfl := h.eq_transmitter ht
  have hh : s.down.Expects s.packetDown s.stage := h.holds
  exact ⟨(hh.routed ht).1, (hh.routed ht).2, h.sender, h.ackTask, h.requests⟩

instance {n : Nat} (s : Sys (Fin n)) (a : Act (Fin n)) : Decidable (WakeOk dev s a) :=
  match a with
  | .down _ => inferInstanceAs (Decidable (_ ∧ _))
  | .input .. | .verify | .downAck _ | .upAck _ | .up _ | .link _ | .send .. => .isTrue trivial

/-- A node of the type `dev` that has just started, with every address zero. -/
def startedSys (dev : DeviceType) (σ : Type) : Sys σ where
  node := linkInit dev default
  packetDown := default
  packetUp := default
  ackDown := default
  ackUp := default
  sockets := []
  timerDown := openTrickle 4000 524288
  routerDownAckRequest := 0
  routerDownRouteRequest := 0
  routerDownAckReceived := 0
  routerUpAckRequest := 0
  routerUpRouteRequest := 0
  routerUpAckReceived := 0
  downAck := .wait
  down := .runTimer
  downRetries := 0
  upAck := .wait
  up := .pendRoute
  upRetries := 0
  link := .pendTx
  sender := fun _ => .idle
  stage := .free
  downTag := 0
  upTag := 0
  taken := fun _ => none
  handledDown := []
  handledUp := []

theorem startedSys_start (dev : DeviceType) (σ : Type) : SysStart dev (startedSys dev σ) where
  node := ⟨default, rfl⟩
  packetDown := rfl
  packetUp := rfl
  downCounts := ⟨rfl, rfl, rfl⟩
  upCounts := ⟨rfl, rfl, rfl⟩
  tasks := ⟨rfl, rfl, rfl, rfl, rfl⟩
  sender := fun _ => rfl
  history := ⟨rfl, rfl, rfl, rfl⟩

/-- The frame in which the coordinator, with address 1, names the node 0 as a neighbour. -/
def advFrame : Packet :=
  let p := (default : Packet)
    |>.setByte unetCtrlMsgPacketType neighborAdv
    |>.setByte unetCtrlMsgAddr16L 1
    |>.setByte unetCtrlMsgNbCount 1
    |>.setByte (unetCtrlMsgNbStart + 2) 9
    |>.setByte unetNextHeader nextHeaderUnetCtrlMsg
    |>.setByte llcProto unetLlcProtoNumber
  ieee802154HeaderSet { (default : Node) with addr16L := 1 }
    { p with info := { p.info with rssi := 9 } } dataFrame false

/-- The frame of the type `type` that the node `src` sends with the sequence number `seq`. -/
def netFrame (src type seq : U8) : Packet :=
  let p := (default : Packet) |>.setByte unetPktType type |>.setByte llcProto unetLlcProtoNumber
  ieee802154HeaderSet { (default : Node) with addr16L := src }
    { p with info := { p.info with seqNum := seq } } dataFrame true

def sendByte : SendRequest := ⟨fun _ => 0, 7, 7, 1, fun _ => 42⟩

/-- A router that has found a parent sends a packet. -/
def sendActs : List (Act (Fin 1)) :=
  [.input advFrame 0 true, .down true, .send 0 sendByte, .send 0 sendByte, .send 0 sendByte,
    .send 0 sendByte, .send 0 sendByte, .send 0 sendByte, .down true, .down true, .down true]

theorem downTransmits_sendActs :
    ∃ s : Sys (Fin 1), Runs (sysStep .router) (WakeOk .router) (startedSys .router (Fin 1)) sendActs s ∧
      s.down = .output ∧ DownExclusive s := by
  have hrun : (exec (guarded (sysStep .router) (WakeOk .router)) (startedSys .router (Fin 1))
      sendActs).map (fun s => s.down) = some .output := by decide +kernel
  obtain ⟨s, hs, hdown⟩ := Option.map_eq_some_iff.mp hrun
  have r := Runs.of_exec_guarded hs
  exact ⟨s, r, hdown, downTransmits_of_runs (startedSys_start _ _) r⟩

/-- The new parent makes the link task wake `UNET_Router_Down_Task` while `unet_send` has only
acquired the buffer. -/
theorem downTransmits_fails :
    ¬ ∀ (s₀ s : Sys (Fin 1)) (as : List (Act (Fin 1))), SysStart .router s₀ →
      Runs (sysStep .router) Free s₀ as s → DownExclusive s := by
  intro h
  have hx := h (startedSys .router (Fin 1)) _
    [.input advFrame 0 true, .down true, .send 0 sendByte, .link true, .link true, .link true,
      .down true, .down true, .down true] (startedSys_start _ _) (Runs.of_exec rfl)
  have hstage := (hx (by decide +kernel)).1
  revert hstage
  decide +kernel

end Unet4Cooja
