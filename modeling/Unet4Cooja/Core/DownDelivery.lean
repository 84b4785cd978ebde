import Unet4Cooja.Core.Ownership

/-!
# Acknowledged on the way down

* `DownAcks`, `DownAcks.watch` : the acks that arrived since the packet in `packet_down` was first
  transmitted;
* `DownAckOk` : no token is left in `Router_Down_Ack_Received` when a packet is taken up, or when its
  next hop changes;
* `AckedByOwn`, `ackedByOwn_of_runs` : under this condition a packet is released as routed only after
  an ack of its own;
* `ackedByOwn_fails` : a second ack for one packet releases the next one.
-/

namespace Unet4Cooja
open Lib

variable {σ : Type} {dev : DeviceType} {s t : Sys σ}

/-- Whether the packet in the buffer has been transmitted, and the sequence numbers and sources of
the acks that arrived since. -/
structure DownAcks where
  transmitted : Bool
  acks : List (U8 × U16)

def DownAcks.none : DownAcks := ⟨false, []⟩

/-- A new packet starts a new list; every `UNICAST_ACK_DOWN` after its first transmission is noted. -/
def DownAcks.watch (s : Sys σ) (m : DownAcks) : Act σ → DownAcks
  | .down _ =>
    if s.down = .claim then .none
    else if s.down = .output then { m with transmitted := true }
    else m
  | .input p _ crc =>
    if m.transmitted ∧ p.supported ∧ crc ∧ p.packet unetPktType = unicastAckDown then
      { m with acks := (p.packet macSeqNum, p.macSource) :: m.acks }
    else m
  | _ => m

/-- An ack with the sequence number of `p` and from its next hop arrived since `p` was first
transmitted. -/
def OwnAck (p : Packet) (m : DownAcks) : Prop := (p.info.seqNum, p.destAddr16) ∈ m.acks

/-- No token of an earlier ack is left when a packet is taken up, nor when its next hop changes. -/
def DownAckOk (dev : DeviceType) (s : Sys σ) (a : Act σ) : Prop :=
  WakeOk dev s a ∧
    match a with
    | .down _ =>
      (s.down = .claim → s.routerDownAckReceived = 0) ∧
      (s.down = .update → s.routerDownAckReceived = 0 ∨
        (unetUpdatePacketDownDest s.node s.packetDown).destAddr16 = s.packetDown.destAddr16)
    | _ => True

/-- What the task relies on between its first transmission and the release, with `tokens` in
`Router_Down_Ack_Received`. -/
def AckInv (p : Packet) (tokens : Nat) (m : DownAcks) : DownPc → Prop
  | .output => (p.state ≠ .waitingTx → m.transmitted = true) ∧ (0 < tokens → OwnAck p m)
  | .update | .setWait | .pendAck | .timedOut =>
    m.transmitted = true ∧ (0 < tokens → OwnAck p m)
  | .acked => m.transmitted = true ∧ OwnAck p m
  | _ => True

def AckedByOwnInv (s : Sys σ) (m : DownAcks) : Prop :=
  AckInv s.packetDown s.routerDownAckReceived m s.down

section
variable {m : DownAcks} {p : Packet} {tokens : Nat} {pc : DownPc}

theorem unetUpdatePacketDownDest_seqNum (n : Node) (p : Packet) :
    (unetUpdatePacketDownDest n p).info.seqNum = p.info.seqNum := by
  unfold unetUpdatePacketDownDest
  split <;> rfl

theorem AckInv.outside (h : pc.transmits = false) : AckInv p tokens m pc := by
  cases pc with
  | output => cases h
  | update => cases h
  | setWait => cases h
  | pendAck => cases h
  | acked => cases h
  | timedOut => cases h
  | _ => trivial

theorem AckInv.watch_input {q : Packet} {tag : Nat} {crc : Bool} (h : AckInv p tokens m pc) :
    AckInv p tokens (m.watch s (.input q tag crc)) pc := by
  have hacks : ∀ x ∈ m.acks, x ∈ (m.watch s (.input q tag crc)).acks := by
    intro x hx
    unfold DownAcks.watch
    dsimp only
    split
    · exact List.mem_cons_of_mem _ hx
    · exact hx
  have htx : (m.watch s (.input q tag crc)).transmitted = m.transmitted := by
    unfold DownAcks.watch
    dsimp only
    split <;> rfl
  cases pc with
  | output => exact ⟨fun hst => htx.trans (h.1 hst), fun hpos => hacks _ (h.2 hpos)⟩
  | update => exact ⟨htx.trans h.1, fun hpos => hacks _ (h.2 hpos)⟩
  | setWait => exact ⟨htx.trans h.1, fun hpos => hacks _ (h.2 hpos)⟩
  | pendAck => exact ⟨htx.trans h.1, fun hpos => hacks _ (h.2 hpos)⟩
  | timedOut => exact ⟨htx.trans h.1, fun hpos => hacks _ (h.2 hpos)⟩
  | acked => exact ⟨htx.trans h.1, hacks _ h.2⟩
  | _ => trivial

theorem AckInv.acked (htx : m.transmitted = true) (hown : OwnAck p m) :
    AckInv { p with state := .acked } tokens m pc := by
  cases pc with
  | output => exact ⟨fun _ => htx, fun _ => hown⟩
  | update => exact ⟨htx, fun _ => hown⟩
  | setWait => exact ⟨htx, fun _ => hown⟩
  | pendAck => exact ⟨htx, fun _ => hown⟩
  | timedOut => exact ⟨htx, fun _ => hown⟩
  | acked => exact ⟨htx, hown⟩
  | _ => trivial

theorem AckInv.transmitted (h : AckInv p tokens m pc) {stage : Stage} (he : pc.Expects p stage)
    (ht : pc.transmits = true) (hw : p.state = .waitingAck) : m.transmitted = true := by
  cases pc with
  | claim =>
    rw [he.1] at hw
    cases hw
  | output => exact h.1 (by rw [hw]; decide)
  | update => exact h.1
  | setWait => exact h.1
  | pendAck => exact h.1
  | acked => exact h.1
  | timedOut => exact h.1
  | _ => cases ht

/-! ## Steps -/

theorem AckedByOwnInv.downStep {ok : Bool} (h : AckedByOwnInv s m)
    (hok : DownAckOk dev s (.down ok)) (hs : Unet4Cooja.downStep dev s ok = some t) :
    AckedByOwnInv t (m.watch s (.down ok)) := by
  obtain ⟨_, hclaim, hupdate⟩ := hok
  unfold AckedByOwnInv at h
  unfold Unet4Cooja.downStep at hs
  cases hpc : s.down with
  | claim =>
    have h0 := hclaim hpc
    rw [hpc] at hs
    cases hs
    refine ⟨fun hne => absurd rfl hne, fun hpos => ?_⟩
    have hpos : 0 < s.routerDownAckReceived := hpos
    rw [h0] at hpos
    cases hpos
  | output =>
    rw [hpc] at hs h
    have hw : m.watch s (.down ok) = { m with transmitted := true } := by
      simp [DownAcks.watch, hpc]
    rw [hw]
    dsimp only at hs
    split at hs <;> cases hs <;> exact ⟨rfl, h.2⟩
  | update =>
    rw [hpc] at hs h
    have hw : m.watch s (.down ok) = m := by simp [DownAcks.watch, hpc]
    rw [hw]
    cases hs
    refine ⟨h.1, fun hpos => ?_⟩
    have hdest := (hupdate hpc).resolve_left (Nat.ne_of_gt hpos)
    unfold OwnAck
    rw [unetUpdatePacketDownDest_seqNum, hdest]
    exact h.2 hpos
  | setWait =>
    rw [hpc] at hs h
    have hw : m.watch s (.down ok) = m := by simp [DownAcks.watch, hpc]
    rw [hw]
    cases hs
    exact ⟨h.1, h.2⟩
  | pendAck =>
    rw [hpc] at hs h
    have hw : m.watch s (.down ok) = m := by simp [DownAcks.watch, hpc]
    rw [hw]
    rcases osSemPend_eq_some.mp hs with ⟨_, hpos, hs⟩ | ⟨_, _, hs⟩ <;> cases hs
    · exact ⟨h.1, h.2 hpos⟩
    · exact ⟨h.1, h.2⟩
  | timedOut =>
    rw [hpc] at hs h
    have hw : m.watch s (.down ok) = m := by simp [DownAcks.watch, hpc]
    rw [hw]
    dsimp only at hs
    split at hs <;> cases hs
    · trivial
    · exact ⟨fun _ => h.1, h.2⟩
  | pendRoute =>
    rw [hpc] at hs
    rcases osSemPend_eq_some.mp hs with ⟨_, _, hs⟩ | ⟨_, _, hs⟩
    · cases hs
      trivial
    · split at hs <;> cases hs
      trivial
  | woken => rw [hpc] at hs; dsimp only at hs; split at hs <;> cases hs <;> trivial
  | adv => rw [hpc] at hs; dsimp only at hs; split at hs <;> cases hs <;> trivial
  | advAcquire => rw [hpc] at hs; dsimp only at hs; split at hs <;> cases hs <;> trivial
  | advRoute => rw [hpc] at hs; dsimp only at hs; split at hs <;> cases hs <;> trivial
  | _ => rw [hpc] at hs; cases hs; trivial

variable [DecidableEq σ] {o : Owner σ}

theorem AckedByOwnInv.input {p : Packet} {tag : Nat} {crc : Bool} (h : AckedByOwnInv s m)
    (ho : Owned o s) :
    AckedByOwnInv (ieee802154PacketInput dev s p tag crc) (m.watch s (.input p tag crc)) := by
  have hwatch : AckInv s.packetDown s.routerDownAckReceived (m.watch s (.input p tag crc)) s.down :=
    h.watch_input
  generalize ht : ieee802154PacketInput dev s p tag crc = t
  rcases packetInput_eq ht with rfl | ⟨hsup, hcrc, hh⟩
  · exact hwatch
  cases hh with
  | dropped => exact hwatch
  | link => exact hwatch
  | up _ _ => exact hwatch
  | ackUp _ _ _ => exact hwatch
  | down _ hidle =>
    obtain rfl := ho.eq_nobody hidle
    exact AckInv.outside ho.transmitter
  | ackDown htype hseq hsrc hw =>
    obtain rfl := ho.eq_transmitter_of_waitingAck hw
    have hexp : s.down.Expects s.packetDown s.stage := ho.holds
    have htx : m.transmitted = true := AckInv.transmitted h hexp ho.transmitter hw
    have hm : m.watch s (.input p tag crc) =
        { m with acks := (p.packet macSeqNum, p.macSource) :: m.acks } :=
      if_pos ⟨htx, hsup, hcrc, htype⟩
    have hseq : p.packet macSeqNum = s.packetDown.info.seqNum := hseq
    have hsrc : p.macSource = s.packetDown.destAddr16 := hsrc
    rw [hm, hseq, hsrc]
    exact AckInv.acked htx List.mem_cons_self

theorem AckedByOwnInv.step {a : Act σ} (h : AckedByOwnInv s m) (ho : Owned o s)
    (hok : DownAckOk dev s a) (hs : sysStep dev s a = some t) : AckedByOwnInv t (m.watch s a) := by
  have hsame : SameDown s t → AckedByOwnInv t m := fun e => by
    unfold AckedByOwnInv
    rw [e.packetDown, e.received, e.down]
    exact h
  cases a with
  | input p tag crc => cases hs; exact h.input ho
  | verify => cases hs; exact hsame (by constructor <;> rfl)
  | upAck ok => exact hsame (upAckStep_sameDown hs)
  | up ok => exact hsame (upStep_sameDown hs)
  | link ok => exact hsame (linkTaskStep_sameDown hs)
  | down ok => exact h.downStep hok hs
  | downAck ok =>
    by_cases ht : s.down.transmits = true
    · obtain rfl := ho.eq_transmitter ht
      rw [ho.downAckStep_other rfl rfl hs]
      exact h
    · unfold AckedByOwnInv
      rw [downAckStep_down hs]
      exact AckInv.outside (Bool.eq_false_of_not_eq_true ht)
  | send i d =>
    by_cases ht : s.down.transmits = true
    · obtain rfl := ho.eq_transmitter ht
      have hne := (ho.idle_or_waiting (by rintro ⟨⟩)).1
      have e := ho.sendStep_other (fun _ => by rintro ⟨⟩) hne hs
      unfold AckedByOwnInv
      rw [e.packetDown, e.received, e.down]
      exact h
    · unfold AckedByOwnInv
      rw [sendStep_down hs]
      exact AckInv.outside (Bool.eq_false_of_not_eq_true ht)

end

/-- `UNET_Router_Down_Task` is about to release the packet as routed only if an ack with its sequence
number and from its next hop arrived after the packet was first transmitted. -/
theorem ackedByOwn_of_runs [DecidableEq σ] {s₀ : Sys σ} {as : List (Act σ)} (h0 : SysStart dev s₀)
    (r : Runs (sysStep dev) (DownAckOk dev) s₀ as s) (hs : s.down = .acked) :
    OwnAck s.packetDown (observe (sysStep dev) (fun s m => m.watch s) s₀ DownAcks.none as) := by
  have hinv : (∃ o, Owned o s) ∧
      AckedByOwnInv s (observe (sysStep dev) (fun s m => m.watch s) s₀ DownAcks.none as) :=
    r.observed (I := fun s m => (∃ o, Owned o s) ∧ AckedByOwnInv s m)
      ⟨⟨_, Owned.start h0⟩, AckInv.outside (by rw [h0.tasks.2.1]; rfl)⟩
      fun _ _ _ _ ⟨⟨_, ho⟩, hi⟩ hok hs => ⟨ho.step hok.1 hs, hi.step ho hok hs⟩
  have hack : AckInv s.packetDown _ _ s.down := hinv.2
  rw [hs] at hack
  exact hack.2

instance {n : Nat} (s : Sys (Fin n)) (a : Act (Fin n)) : Decidable (DownAckOk dev s a) :=
  match a with
  | .down _ => inferInstanceAs (Decidable (_ ∧ _ ∧ _))
  | .input .. | .verify | .downAck _ | .upAck _ | .up _ | .link _ | .send .. =>
    inferInstanceAs (Decidable (_ ∧ True))

/-- `unet_send` queues a packet, and `UNET_Router_Down_Task` takes it up and transmits it. -/
def transmitActs : List (Act (Fin 1)) :=
  List.replicate 6 (.send 0 sendByte) ++ List.replicate 5 (.down true)

theorem ackedByOwn_transmitActs :
    ∃ s : Sys (Fin 1), Runs (sysStep .router) (DownAckOk .router) (startedSys .router (Fin 1))
        ([.input advFrame 0 true, .down true] ++ transmitActs ++
          [.input (netFrame 1 unicastAckDown 1) 0 true, .down true]) s ∧
      s.down = .acked ∧
      OwnAck s.packetDown (observe (sysStep .router) (fun s m => m.watch s)
        (startedSys .router (Fin 1)) DownAcks.none
        ([.input advFrame 0 true, .down true] ++ transmitActs ++
          [.input (netFrame 1 unicastAckDown 1) 0 true, .down true])) := by
  have hrun : (exec (guarded (sysStep .router) (DownAckOk .router)) (startedSys .router (Fin 1))
      ([.input advFrame 0 true, .down true] ++ transmitActs ++
        [.input (netFrame 1 unicastAckDown 1) 0 true, .down true])).map (fun s => s.down) =
      some .acked := by decide +kernel
  obtain ⟨s, hs, hdown⟩ := Option.map_eq_some_iff.mp hrun
  have r := Runs.of_exec_guarded hs
  exact ⟨s, r, hdown, ackedByOwn_of_runs (startedSys_start _ _) r hdown⟩

/-- The first packet is acknowledged once after a timeout and once more after its second
transmission; the second packet is released by the token that is left. -/
def doubleAckActs : List (Act (Fin 1)) :=
  [.input advFrame 0 true, .down true] ++ transmitActs ++
    [.down false, .input (netFrame 1 unicastAckDown 1) 0 true, .down true, .down true, .down true,
      .input (netFrame 1 unicastAckDown 1) 0 true, .down true, .down true, .down true] ++
    transmitActs ++ [.down true]

theorem ackedByOwn_fails :
    ¬ ∀ (s₀ s : Sys (Fin 1)) (as : List (Act (Fin 1))), SysStart .router s₀ →
      Runs (sysStep .router) Free s₀ as s → s.down = .acked →
        OwnAck s.packetDown (observe (sysStep .router) (fun s m => m.watch s) s₀ DownAcks.none as) := by
  intro h
  have hrun : (exec (sysStep .router) (startedSys .router (Fin 1)) doubleAckActs).map
      (fun s => s.down) = some .acked := by decide +kernel
  obtain ⟨s, hs, hdown⟩ := Option.map_eq_some_iff.mp hrun
  have hx := h _ s doubleAckActs (startedSys_start _ _) (Runs.of_exec hs) hdown
  have hnone : (observe (sysStep .router) (fun s m => m.watch s) (startedSys .router (Fin 1))
      DownAcks.none doubleAckActs).acks = [] := by decide +kernel
  unfold OwnAck at hx
  rw [hnone] at hx
  cases hx

end Unet4Cooja
