import Unet4Cooja.Core.Steps
import Unet4Cooja.Lib.Runs

/-!
# Who may use `packet_up`

`OwnedUp` : the one task that uses `packet_up`, and what the others are not doing. Every token of
`Router_Up_Route_Request` stands for a packet, so `OwnedUp.of_runs` needs no condition on the run.
-/

namespace Unet4Cooja
open Lib

/-- The ack task handles the packet in `packet_up`, or has not yet posted its routing. -/
def UpAckPc.handles : UpAckPc → Bool
  | .wait => false
  | _ => true

/-- A task in `unet_send` fills or routes `packet_up`, or has not yet posted its routing. -/
def SendPc.usesUp : SendPc → Bool
  | .upFill _ | .upRoute _ _ | .upPost => true
  | _ => false

/-- `UNET_Router_Up_Task` transmits the packet in `packet_up`, or is about to release it. -/
def UpPc.transmits : UpPc → Bool
  | .pendRoute => false
  | _ => true

def Owner.routeRequests {σ : Type} : Owner σ → Nat
  | queued => 1
  | _ => 0

/-- What `UNET_Router_Up_Task` finds in `packet_up`. -/
def UpPc.Expects (p : Packet) : UpPc → Prop
  | .claim => p.state ≠ .idle ∧ p.state ≠ .waitingAck
  | .pendRoute | .output | .setWait => p.state ≠ .idle
  | .pendAck | .acked | .timedOut => p.state = .waitingAck

variable {σ : Type}

/-- What the owner of `packet_up` relies on. -/
def Owner.HoldsUp (s : Sys σ) : Owner σ → Prop
  | nobody => s.packetUp.state = .idle
  | transmitter => s.up.Expects s.packetUp
  | advertiser => False
  | _ => s.packetUp.state ≠ .idle ∧ s.packetUp.state ≠ .waitingAck

variable [DecidableEq σ] {dev : DeviceType} {s t : Sys σ} {o o' : Owner σ}

/-- `o` uses `packet_up`, and nobody else does. -/
structure OwnedUp (o : Owner σ) (s : Sys σ) : Prop where
  requests : s.routerUpAckRequest = o.requests
  routeRequests : s.routerUpRouteRequest = o.routeRequests
  ackTask : s.upAck.handles = o.isAckTask
  sender : ∀ i, (s.sender i).usesUp = o.isSender i
  transmitter : s.up.transmits = o.isTransmitter
  holds : o.HoldsUp s

namespace OwnedUp

theorem eq_queued (h : OwnedUp o s) (hr : 0 < s.routerUpRouteRequest) : o = .queued := by
  rw [h.routeRequests] at hr
  cases o with
  | queued => rfl
  | _ => cases hr

theorem eq_ackTask (h : OwnedUp o s) (ha : s.upAck.handles = true) : o = .ackTask :=
  Owner.eq_ackTask (h.ackTask.symm.trans ha)

theorem no_request (h : OwnedUp o s) (ho : o = .ackTask) : ¬ 0 < s.routerUpAckRequest := by
  rw [h.requests, ho]
  exact Nat.lt_irrefl 0

theorem eq_sender (h : OwnedUp o s) {i : σ} (hi : (s.sender i).usesUp = true) : o = .sender i :=
  Owner.eq_sender ((h.sender i).symm.trans hi)

theorem eq_transmitter (h : OwnedUp o s) (ht : s.up.transmits = true) : o = .transmitter :=
  Owner.eq_transmitter (h.transmitter.symm.trans ht)

theorem eq_received (h : OwnedUp o s) (hr : 0 < s.routerUpAckRequest) : o = .received :=
  Owner.eq_received (h.requests ▸ hr)

theorem eq_nobody (h : OwnedUp o s) (hi : s.packetUp.state = .idle) : o = .nobody := by
  have hh := h.holds
  cases o with
  | nobody => rfl
  | advertiser => exact hh.elim
  | transmitter =>
    have hh : s.up.Expects s.packetUp := hh
    cases hpc : s.up <;> rw [hpc] at hh
    case claim => exact absurd hi hh.1
    case pendAck => exact absurd (hi.symm.trans hh) (by decide)
    case acked => exact absurd (hi.symm.trans hh) (by decide)
    case timedOut => exact absurd (hi.symm.trans hh) (by decide)
    all_goals exact absurd hi hh
  | _ => exact absurd hi hh.1

theorem eq_transmitter_of_waitingAck (h : OwnedUp o s) (hw : s.packetUp.state = .waitingAck) :
    o = .transmitter := by
  have hh := h.holds
  cases o with
  | nobody => exact absurd (hw.symm.trans hh) (by decide)
  | advertiser => exact hh.elim
  | transmitter => rfl
  | _ => exact absurd hw hh.2

/-- A step that touches nothing of the upward half but, for the tasks in `unet_send`, their place. -/
theorem frame (h : OwnedUp o s) (hp : t.packetUp = s.packetUp)
    (hr : t.routerUpAckRequest = s.routerUpAckRequest)
    (hrr : t.routerUpRouteRequest = s.routerUpRouteRequest) (ha : t.upAck = s.upAck)
    (hu : t.up = s.up) (hs : ∀ i, (t.sender i).usesUp = (s.sender i).usesUp) : OwnedUp o t := by
  refine ⟨hr.trans h.requests, hrr.trans h.routeRequests, ha ▸ h.ackTask,
    fun i => (hs i).trans (h.sender i), hu ▸ h.transmitter, ?_⟩
  have hh := h.holds
  cases o with
  | transmitter =>
    show t.up.Expects t.packetUp
    rw [hu, hp]
    exact hh
  | nobody => exact (congrArg Packet.state hp).trans hh
  | advertiser => exact hh
  | _ =>
    show t.packetUp.state ≠ _ ∧ t.packetUp.state ≠ _
    rw [hp]
    exact hh

theorem same (h : OwnedUp o s) (e : SameUp s t) : OwnedUp o t :=
  h.frame e.packetUp e.requests e.routeRequests e.upAck e.up fun i => by rw [e.sender]

theorem handled {p : Packet} {tag : Nat} (h : OwnedUp o s) (hb : p.state = .busy)
    (hh : Handled dev s p tag t) : ∃ o', OwnedUp o' t := by
  cases hh with
  | up _ hidle =>
    obtain rfl := h.eq_nobody hidle
    refine ⟨.received, ?_, h.routeRequests, h.ackTask, h.sender, h.transmitter, ?_⟩
    · show osSemPost s.routerUpAckRequest = 1
      rw [h.requests]
      rfl
    · show p.state ≠ _ ∧ p.state ≠ _
      simp [hb]
  | dropped => exact ⟨o, h⟩
  | _ => exact ⟨o, h.frame rfl rfl rfl rfl rfl fun _ => rfl⟩

theorem upAckStep {ok : Bool} (h : OwnedUp o s) (hs : Unet4Cooja.upAckStep s ok = some t) :
    ∃ o', OwnedUp o' t := by
  unfold Unet4Cooja.upAckStep at hs
  cases hpc : s.upAck with
  | wait =>
    rw [hpc] at hs
    rcases osSemPend_eq_some.mp hs with ⟨_, hpos, hs⟩ | ⟨_, _, hs⟩
    · cases hs
      obtain rfl := h.eq_received hpos
      refine ⟨.ackTask, ?_, h.routeRequests, rfl, h.sender, h.transmitter, h.holds⟩
      show s.routerUpAckRequest - 1 = 0
      rw [h.requests]
      rfl
    · cases hs
  | sendAck =>
    obtain rfl := h.eq_ackTask (by rw [hpc]; rfl)
    rw [hpc] at hs
    cases hs
    exact ⟨.ackTask, h.requests, h.routeRequests, rfl, h.sender, h.transmitter, h.holds⟩
  | decide =>
    obtain rfl := h.eq_ackTask (by rw [hpc]; rfl)
    have hh : s.packetUp.state ≠ .idle ∧ s.packetUp.state ≠ .waitingAck := h.holds
    rw [hpc] at hs
    dsimp only at hs
    split at hs
    · cases hs
      exact ⟨.nobody, h.requests, h.routeRequests, rfl, h.sender, h.transmitter, rfl⟩
    · cases hs
      refine ⟨.ackTask, h.requests, h.routeRequests, rfl, h.sender, h.transmitter, ?_⟩
      show (unetRouterUp s.node s.packetUp).2.2.state ≠ _ ∧ _
      rcases unetRouterUp_state s.node s.packetUp with he | he
      · rw [he]
        exact hh
      · simp [he]
  | post =>
    obtain rfl := h.eq_ackTask (by rw [hpc]; rfl)
    rw [hpc] at hs
    cases hs
    refine ⟨.queued, h.requests, ?_, rfl, h.sender, h.transmitter, h.holds⟩
    show osSemPost s.routerUpRouteRequest = 1
    rw [h.routeRequests]
    rfl

theorem upStep {ok : Bool} (h : OwnedUp o s) (hs : Unet4Cooja.upStep s ok = some t) :
    ∃ o', OwnedUp o' t := by
  unfold Unet4Cooja.upStep at hs
  cases hpc : s.up with
  | pendRoute =>
    rw [hpc] at hs
    rcases osSemPend_eq_some.mp hs with ⟨_, hpos, hs⟩ | ⟨_, _, hs⟩
    · cases hs
      obtain rfl := h.eq_queued hpos
      refine ⟨.transmitter, h.requests, ?_, h.ackTask, h.sender, rfl, h.holds⟩
      show s.routerUpRouteRequest - 1 = 0
      rw [h.routeRequests]
      rfl
    · cases hs
  | claim =>
    obtain rfl := h.eq_transmitter (by rw [hpc]; rfl)
    have hh : s.up.Expects s.packetUp := h.holds
    rw [hpc] at hs hh
    cases hs
    exact ⟨.transmitter, h.requests, h.routeRequests, h.ackTask, h.sender, rfl, hh.1⟩
  | output =>
    obtain rfl := h.eq_transmitter (by rw [hpc]; rfl)
    have hh : s.up.Expects s.packetUp := h.holds
    rw [hpc] at hs hh
    cases hs
    exact ⟨.transmitter, h.requests, h.routeRequests, h.ackTask, h.sender, rfl, hh⟩
  | setWait =>
    obtain rfl := h.eq_transmitter (by rw [hpc]; rfl)
    rw [hpc] at hs
    cases hs
    exact ⟨.transmitter, h.requests, h.routeRequests, h.ackTask, h.sender, rfl, rfl⟩
  | pendAck =>
    obtain rfl := h.eq_transmitter (by rw [hpc]; rfl)
    have hh : s.up.Expects s.packetUp := h.holds
    rw [hpc] at hs hh
    rcases osSemPend_eq_some.mp hs with ⟨_, _, hs⟩ | ⟨_, _, hs⟩ <;> cases hs <;>
      exact ⟨.transmitter, h.requests, h.routeRequests, h.ackTask, h.sender, rfl, hh⟩
  | acked =>
    obtain rfl := h.eq_transmitter (by rw [hpc]; rfl)
    rw [hpc] at hs
    cases hs
    exact ⟨.nobody, h.requests, h.routeRequests, h.ackTask, h.sender, rfl, rfl⟩
  | timedOut =>
    obtain rfl := h.eq_transmitter (by rw [hpc]; rfl)
    have hh : s.up.Expects s.packetUp := h.holds
    rw [hpc] at hs hh
    dsimp only at hs
    split at hs
    · cases hs
      exact ⟨.nobody, h.requests, h.routeRequests, h.ackTask, h.sender, rfl, rfl⟩
    · cases hs
      refine ⟨.transmitter, h.requests, h.routeRequests, h.ackTask, h.sender, rfl, ?_⟩
      show s.packetUp.state ≠ _
      rw [hh]
      decide

theorem sendOutside {i : σ} {pc : SendPc} (h : OwnedUp o s) (hi : (s.sender i).usesUp = false)
    (hpc : pc.usesUp = false) (hp : t.packetUp = s.packetUp)
    (hr : t.routerUpAckRequest = s.routerUpAckRequest)
    (hrr : t.routerUpRouteRequest = s.routerUpRouteRequest) (ha : t.upAck = s.upAck)
    (hu : t.up = s.up) (hs : t.sender = Function.update s.sender i pc) : OwnedUp o t := by
  refine h.frame hp hr hrr ha hu fun j => ?_
  rw [hs]
  by_cases hj : j = i
  · subst hj
    rw [Function.update_self, hpc, hi]
  · rw [Function.update_of_ne hj]

theorem sendStep {i : σ} {d : SendRequest} (h : OwnedUp o s)
    (hs : Unet4Cooja.sendStep s i d = some t) : ∃ o', OwnedUp o' t := by
  have hstays : ∀ {pc : SendPc}, o = .sender i → pc.usesUp = true → ∀ j,
      (Function.update s.sender i pc j).usesUp = (Owner.sender i).isSender j := by
    intro pc ho hpc j
    subst ho
    apply Owner.isSender_update h.sender _ fun _ _ => rfl
    rw [hpc]
    exact (decide_eq_true rfl).symm
  have hleaves : ∀ {pc : SendPc}, o = .sender i → pc.usesUp = false → ∀ j,
      (Function.update s.sender i pc j).usesUp = false := by
    intro pc ho hpc j
    subst ho
    show _ = (Owner.nobody : Owner σ).isSender j
    apply Owner.isSender_update h.sender hpc
    intro j hj
    exact (decide_eq_false fun e => hj e.symm).symm
  unfold Unet4Cooja.sendStep at hs
  cases hpc : s.sender i with
  | idle =>
    have hout : (s.sender i).usesUp = false := by rw [hpc]; rfl
    rw [hpc] at hs
    dsimp only at hs
    split at hs
    · split at hs <;> cases hs
      exact ⟨o, h.sendOutside hout rfl rfl rfl rfl rfl rfl rfl⟩
    · split at hs
      · rename_i hidle
        cases hs
        obtain rfl := h.eq_nobody hidle
        refine ⟨.sender i, h.requests, h.routeRequests, h.ackTask, ?_, h.transmitter, ?_⟩
        · refine Owner.isSender_update h.sender (decide_eq_true rfl).symm fun j hj => ?_
          exact decide_eq_false fun e => hj e.symm
        · show PacketState.startRoute ≠ _ ∧ PacketState.startRoute ≠ _
          simp
      · cases hs
  | upFill d' =>
    obtain rfl := h.eq_sender (by rw [hpc]; rfl)
    rw [hpc] at hs
    cases hs
    exact ⟨.sender i, h.requests, h.routeRequests, h.ackTask, hstays rfl rfl, h.transmitter, h.holds⟩
  | upRoute dest len =>
    obtain rfl := h.eq_sender (by rw [hpc]; rfl)
    have hh : s.packetUp.state ≠ .idle ∧ s.packetUp.state ≠ .waitingAck := h.holds
    rw [hpc] at hs
    dsimp only at hs
    split at hs
    · rename_i n p hr
      cases hs
      refine ⟨.sender i, h.requests, h.routeRequests, h.ackTask, hstays rfl rfl, h.transmitter, ?_⟩
      have hst := unetRouterUp_state s.node (unetPacketUpHeader s.node s.packetUp dest len)
      rw [hr] at hst
      show p.state ≠ _ ∧ p.state ≠ _
      rcases hst with he | he
      · rw [he]
        exact hh
      · rw [he]
        decide
    · cases hs
      exact ⟨.nobody, h.requests, h.routeRequests, h.ackTask, hleaves rfl rfl, h.transmitter, rfl⟩
  | upPost =>
    obtain rfl := h.eq_sender (by rw [hpc]; rfl)
    rw [hpc] at hs
    cases hs
    refine ⟨.queued, h.requests, ?_, h.ackTask, hleaves rfl rfl, h.transmitter, h.holds⟩
    show osSemPost s.routerUpRouteRequest = 1
    rw [h.routeRequests]
    rfl
  | downHeader =>
    have hout : (s.sender i).usesUp = false := by rw [hpc]; rfl
    rw [hpc] at hs
    dsimp only at hs
    split at hs <;> cases hs <;> exact ⟨o, h.sendOutside hout rfl rfl rfl rfl rfl rfl rfl⟩
  | downRoute =>
    have hout : (s.sender i).usesUp = false := by rw [hpc]; rfl
    rw [hpc] at hs
    dsimp only at hs
    split at hs <;> cases hs <;> exact ⟨o, h.sendOutside hout rfl rfl rfl rfl rfl rfl rfl⟩
  | _ =>
    have hout : (s.sender i).usesUp = false := by rw [hpc]; rfl
    rw [hpc] at hs
    cases hs
    exact ⟨o, h.sendOutside hout rfl rfl rfl rfl rfl rfl rfl⟩

theorem not_upAckStep {ok : Bool} (h : OwnedUp o s) (hr : o.requests = 0)
    (ha : o.isAckTask = false) : Unet4Cooja.upAckStep s ok ≠ some t := by
  intro hs
  have hidle : s.upAck.handles = false := h.ackTask.trans ha
  unfold Unet4Cooja.upAckStep at hs
  cases hpc : s.upAck with
  | wait =>
    rw [hpc] at hs
    rcases osSemPend_eq_some.mp hs with ⟨_, hpos, _⟩ | ⟨_, _, hs⟩
    · rw [h.requests, hr] at hpos
      cases hpos
    · cases hs
  | _ => rw [hpc] at hidle; cases hidle

/-- What a task in `unet_send` leaves alone while another task owns the buffer. -/
theorem sendStep_other {i : σ} {d : SendRequest} (h : OwnedUp o s) (ho : ∀ i, o ≠ .sender i)
    (hidle : s.packetUp.state ≠ .idle) (hs : Unet4Cooja.sendStep s i d = some t) :
    SameUp { s with sender := t.sender } t := by
  have hout : (s.sender i).usesUp = true → False := fun hu => ho i (h.eq_sender hu)
  unfold Unet4Cooja.sendStep at hs
  cases hpc : s.sender i with
  | idle =>
    rw [hpc] at hs
    dsimp only at hs
    rw [if_neg hidle] at hs
    split at hs
    · split at hs <;> cases hs
      constructor <;> rfl
    · cases hs
  | downHeader => rw [hpc] at hs; dsimp only at hs; split at hs <;> cases hs <;> constructor <;> rfl
  | downRoute => rw [hpc] at hs; dsimp only at hs; split at hs <;> cases hs <;> constructor <;> rfl
  | downFill => rw [hpc] at hs; cases hs; constructor <;> rfl
  | downRouteEnd => rw [hpc] at hs; cases hs; constructor <;> rfl
  | downPost => rw [hpc] at hs; cases hs; constructor <;> rfl
  | _ => rw [hpc] at hout; exact (hout rfl).elim

theorem step {a : Act σ} (h : OwnedUp o s) (hs : sysStep dev s a = some t) : ∃ o', OwnedUp o' t := by
  cases a with
  | input p tag crc =>
    rcases packetInput_eq (Option.some.inj hs) with rfl | ⟨_, _, hh⟩
    · exact ⟨o, h⟩
    · exact h.handled rfl hh
  | verify => cases hs; exact ⟨o, h.same (by constructor <;> rfl)⟩
  | downAck ok => exact ⟨o, h.same (downAckStep_sameUp hs)⟩
  | down ok => exact ⟨o, h.same (downStep_sameUp hs)⟩
  | upAck ok => exact h.upAckStep hs
  | up ok => exact h.upStep hs
  | link ok => exact ⟨o, h.same (linkTaskStep_sameUp hs)⟩
  | send i d => exact h.sendStep hs

theorem start (h : SysStart dev s) : OwnedUp .nobody s := by
  obtain ⟨_, _, hack, hup, _⟩ := h.tasks
  refine ⟨h.upCounts.1, h.upCounts.2.1, ?_, fun i => ?_, ?_, h.packetUp⟩
  · rw [hack]
    rfl
  · rw [h.sender i]
    rfl
  · rw [hup]
    rfl

theorem of_runs {s₀ : Sys σ} {as : List (Act σ)} {ok : Sys σ → Act σ → Prop} (h0 : SysStart dev s₀)
    (r : Runs (sysStep dev) ok s₀ as s) : ∃ o, OwnedUp o s :=
  r.invariant (I := fun s => ∃ o, OwnedUp o s) ⟨_, start h0⟩ fun _ _ _ ⟨_, ho⟩ _ hs => ho.step hs

end OwnedUp

end Unet4Cooja
