import Unet4Cooja.Core.DownDelivery
import Unet4Cooja.Core.UpOwnership

/-!
# Acknowledged on the way up

* `UpAcks`, `UpAcks.watch` : the acks that arrived since the packet in `packet_up` was first
  transmitted, and the ack each packet left with;
* `UpAckOk` : no token is left in `Router_Up_Ack_Received` when a packet is taken up, and the acks
  that are accepted come from the packet's next hop;
* `ackedUpByOwn_of_runs` : under this condition a packet is released as routed only after an ack of
  its own, and no ack releases two packets;
* `ackedUpByOwn_fails` : an ack from any other node with the same number releases the packet.
-/

namespace Unet4Cooja
open Lib

variable {σ : Type} {dev : DeviceType} {s t : Sys σ}

/-- Whether the packet in the buffer has been transmitted, the number of frames so far, the numbers,
sequence numbers and sources of the acks since then, and the ack each released packet left with. -/
structure UpAcks where
  transmitted : Bool
  inputs : Nat
  acks : List (Nat × U8 × U16)
  leaves : List (Option Nat)

namespace UpAcks

def none : UpAcks := ⟨false, 0, [], []⟩

/-- The last ack with the sequence number of `p` and from its next hop. -/
def own (m : UpAcks) (p : Packet) : Option Nat :=
  (m.acks.find? fun x => x.2 = (p.info.seqNum, p.destAddr16)).map Prod.fst

/-- A new packet starts a new list; every `UNICAST_ACK_UP` after its first transmission is noted. -/
def watch (s : Sys σ) (m : UpAcks) : Act σ → UpAcks
  | .up _ =>
    if s.up = .claim then { m with transmitted := false, acks := [] }
    else if s.up = .output then { m with transmitted := true }
    else if s.up = .acked then
      { m with transmitted := false, acks := [], leaves := m.own s.packetUp :: m.leaves }
    else m
  | .input p _ crc =>
    { m with
      inputs := m.inputs + 1
      acks :=
        if m.transmitted ∧ p.supported ∧ crc ∧ p.packet unetPktType = unicastAckUp then
          (m.inputs, p.packet macSeqNum, p.macSource) :: m.acks
        else m.acks }
  | _ => m

/-- Every packet left with an ack, each with another one, and before those in the list. -/
structure Fresh (m : UpAcks) : Prop where
  acks : ∀ x ∈ m.acks, x.1 < m.inputs
  leaves : ∀ k ∈ m.leaves, ∃ j, k = some j ∧ j < m.inputs ∧ ∀ x ∈ m.acks, j < x.1
  nodup : m.leaves.Nodup

end UpAcks

/-- No token of an earlier ack is left when a packet is taken up, and an ack that
`unet_packet_input` accepts for the packet in `packet_up` comes from its next hop. -/
def UpAckOk (s : Sys σ) : Act σ → Prop
  | .up _ => s.up = .claim → s.routerUpAckReceived = 0
  | .input p _ crc =>
    p.supported = true → crc = true → p.packet unetPktType = unicastAckUp →
      p.packet macSeqNum = s.packetUp.info.seqNum → s.packetUp.state = .waitingAck →
        p.macSource = s.packetUp.destAddr16
  | _ => True

/-- What `UNET_Router_Up_Task` relies on between its first transmission and the release, with
`tokens` in `Router_Up_Ack_Received`. -/
def UpAckInv (p : Packet) (tokens : Nat) (m : UpAcks) : UpPc → Prop
  | .output =>
    (p.state = .waitingAck → m.transmitted = true) ∧ (0 < tokens → (m.own p).isSome = true)
  | .setWait | .pendAck | .timedOut =>
    m.transmitted = true ∧ (0 < tokens → (m.own p).isSome = true)
  | .acked => m.transmitted = true ∧ (m.own p).isSome = true
  | _ => True

section
variable {m : UpAcks} {p : Packet} {tokens : Nat} {pc : UpPc}

theorem UpAcks.own_some {k : Nat} (h : m.own p = some k) :
    (k, p.info.seqNum, p.destAddr16) ∈ m.acks := by
  unfold UpAcks.own at h
  obtain ⟨x, hx, rfl⟩ := Option.map_eq_some_iff.mp h
  have hmem := List.mem_of_find?_eq_some hx
  have heq : x.2 = (p.info.seqNum, p.destAddr16) := by simpa using List.find?_some hx
  rwa [← heq]

theorem UpAcks.own_isSome : (m.own p).isSome = true ↔
    ∃ k, (k, p.info.seqNum, p.destAddr16) ∈ m.acks := by
  constructor
  · intro h
    obtain ⟨k, hk⟩ := Option.isSome_iff_exists.mp h
    exact ⟨k, UpAcks.own_some hk⟩
  · rintro ⟨k, hk⟩
    unfold UpAcks.own
    simp only [Option.isSome_map, List.find?_isSome]
    exact ⟨_, hk, by simp⟩

theorem UpAckInv.watch_input {q : Packet} {tag : Nat} {crc : Bool} (h : UpAckInv p tokens m pc) :
    UpAckInv p tokens (m.watch s (.input q tag crc)) pc := by
  have hown : (m.own p).isSome = true → ((m.watch s (.input q tag crc)).own p).isSome = true := by
    simp only [UpAcks.own_isSome]
    rintro ⟨k, hk⟩
    refine ⟨k, ?_⟩
    show _ ∈ ite _ _ _
    split
    · exact List.mem_cons_of_mem _ hk
    · exact hk
  cases pc with
  | output => exact ⟨h.1, fun hpos => hown (h.2 hpos)⟩
  | setWait => exact ⟨h.1, fun hpos => hown (h.2 hpos)⟩
  | pendAck => exact ⟨h.1, fun hpos => hown (h.2 hpos)⟩
  | timedOut => exact ⟨h.1, fun hpos => hown (h.2 hpos)⟩
  | acked => exact ⟨h.1, hown h.2⟩
  | _ => trivial

theorem UpAckInv.transmitted (h : UpAckInv p tokens m pc) (he : pc.Expects p)
    (ht : pc.transmits = true) (hw : p.state = .waitingAck) : m.transmitted = true := by
  cases pc with
  | pendRoute => cases ht
  | claim => exact absurd hw he.2
  | output => exact h.1 hw
  | setWait => exact h.1
  | pendAck => exact h.1
  | acked => exact h.1
  | timedOut => exact h.1

theorem UpAckInv.of_own (htx : m.transmitted = true) (hown : (m.own p).isSome = true) :
    UpAckInv p tokens m pc := by
  cases pc with
  | output => exact ⟨fun _ => htx, fun _ => hown⟩
  | setWait => exact ⟨htx, fun _ => hown⟩
  | pendAck => exact ⟨htx, fun _ => hown⟩
  | timedOut => exact ⟨htx, fun _ => hown⟩
  | acked => exact ⟨htx, hown⟩
  | _ => trivial

theorem UpAckInv.outside (h : pc.transmits = false) : UpAckInv p tokens m pc := by
  cases pc with
  | pendRoute => trivial
  | _ => cases h

/-! ## Steps -/

theorem UpAcks.Fresh.input {q : Packet} {tag : Nat} {crc : Bool} (h : m.Fresh) :
    (m.watch s (.input q tag crc)).Fresh := by
  have hacks : ∀ x ∈ (m.watch s (.input q tag crc)).acks, x.1 = m.inputs ∨ x ∈ m.acks := by
    intro x hx
    have hx : x ∈ ite _ _ _ := hx
    split at hx
    · rcases List.mem_cons.mp hx with rfl | hx
      · exact .inl rfl
      · exact .inr hx
    · exact .inr hx
  refine ⟨fun x hx => ?_, fun k hk => ?_, h.nodup⟩
  · show x.1 < m.inputs + 1
    rcases hacks x hx with he | hx
    · omega
    · have := h.acks x hx
      omega
  · obtain ⟨j, hj, hlt, hbefore⟩ := h.leaves k hk
    refine ⟨j, hj, Nat.lt_succ_of_lt hlt, fun x hx => ?_⟩
    rcases hacks x hx with he | hx
    · omega
    · exact hbefore x hx

theorem UpAcks.Fresh.leave (h : m.Fresh) (hown : (m.own p).isSome = true) :
    UpAcks.Fresh { m with transmitted := false, acks := [], leaves := m.own p :: m.leaves } := by
  obtain ⟨k, hk⟩ := Option.isSome_iff_exists.mp hown
  have hmem := UpAcks.own_some hk
  refine ⟨by simp, fun x hx => ?_, ?_⟩
  · rcases List.mem_cons.mp hx with rfl | hx
    · exact ⟨k, hk, h.acks _ hmem, by simp⟩
    · obtain ⟨j, hj, hlt, _⟩ := h.leaves x hx
      exact ⟨j, hj, hlt, by simp⟩
  · refine List.nodup_cons.mpr ⟨fun hx => ?_, h.nodup⟩
    obtain ⟨j, hj, _, hbefore⟩ := h.leaves _ hx
    have hlt := hbefore _ hmem
    rw [hk] at hj
    cases hj
    exact Nat.lt_irrefl _ hlt

structure AckedUpInv (s : Sys σ) (m : UpAcks) : Prop where
  task : UpAckInv s.packetUp s.routerUpAckReceived m s.up
  fresh : m.Fresh

variable [DecidableEq σ] {o : Owner σ}

theorem AckedUpInv.upStep {ok : Bool} (h : AckedUpInv s m) (ho : OwnedUp o s)
    (hok : UpAckOk s (.up ok)) (hs : Unet4Cooja.upStep s ok = some t) : AckedUpInv t (m.watch s (.up ok)) := by
  obtain ⟨htask, hfresh⟩ := h
  unfold Unet4Cooja.upStep at hs
  cases hpc : s.up with
  | pendRoute =>
    rw [hpc] at hs
    have hw : m.watch s (.up ok) = m := by simp [UpAcks.watch, hpc]
    rw [hw]
    rcases osSemPend_eq_some.mp hs with ⟨_, _, hs⟩ | ⟨_, _, hs⟩ <;> cases hs
    exact ⟨trivial, hfresh⟩
  | claim =>
    have h0 := hok hpc
    obtain rfl := ho.eq_transmitter (by rw [hpc]; rfl)
    have hexp : s.up.Expects s.packetUp := ho.holds
    rw [hpc] at hs hexp
    have hw : m.watch s (.up ok) = { m with transmitted := false, acks := [] } := by
      simp [UpAcks.watch, hpc]
    rw [hw]
    cases hs
    refine ⟨⟨fun hst => absurd hst hexp.2, fun hpos => ?_⟩, ?_⟩
    · have hpos : 0 < s.routerUpAckReceived := hpos
      rw [h0] at hpos
      cases hpos
    · refine ⟨by simp, fun k hk => ?_, hfresh.nodup⟩
      obtain ⟨j, hj, hlt, _⟩ := hfresh.leaves k hk
      exact ⟨j, hj, hlt, by simp⟩
  | output =>
    rw [hpc] at hs htask
    have hw : m.watch s (.up ok) = { m with transmitted := true } := by simp [UpAcks.watch, hpc]
    rw [hw]
    cases hs
    exact ⟨⟨rfl, htask.2⟩, hfresh.acks, hfresh.leaves, hfresh.nodup⟩
  | setWait =>
    rw [hpc] at hs htask
    have hw : m.watch s (.up ok) = m := by simp [UpAcks.watch, hpc]
    rw [hw]
    cases hs
    exact ⟨⟨htask.1, htask.2⟩, hfresh⟩
  | pendAck =>
    rw [hpc] at hs htask
    have hw : m.watch s (.up ok) = m := by simp [UpAcks.watch, hpc]
    rw [hw]
    rcases osSemPend_eq_some.mp hs with ⟨_, hpos, hs⟩ | ⟨_, _, hs⟩ <;> cases hs
    · exact ⟨⟨htask.1, htask.2 hpos⟩, hfresh⟩
    · exact ⟨⟨htask.1, htask.2⟩, hfresh⟩
  | acked =>
    rw [hpc] at hs htask
    have hw : m.watch s (.up ok) =
        { m with transmitted := false, acks := [], leaves := m.own s.packetUp :: m.leaves } := by
      simp [UpAcks.watch, hpc]
    rw [hw]
    cases hs
    exact ⟨trivial, hfresh.leave htask.2⟩
  | timedOut =>
    rw [hpc] at hs htask
    have hw : m.watch s (.up ok) = m := by simp [UpAcks.watch, hpc]
    rw [hw]
    dsimp only at hs
    split at hs <;> cases hs
    · exact ⟨trivial, hfresh⟩
    · exact ⟨⟨fun _ => htask.1, htask.2⟩, hfresh⟩

theorem AckedUpInv.input {p : Packet} {tag : Nat} {crc : Bool} (h : AckedUpInv s m)
    (ho : OwnedUp o s) (hok : UpAckOk s (.input p tag crc)) :
    AckedUpInv (ieee802154PacketInput dev s p tag crc) (m.watch s (.input p tag crc)) := by
  have hfresh : (m.watch s (.input p tag crc)).Fresh := h.fresh.input
  have hwatch : UpAckInv s.packetUp s.routerUpAckReceived (m.watch s (.input p tag crc)) s.up :=
    h.task.watch_input
  generalize ht : ieee802154PacketInput dev s p tag crc = t
  rcases packetInput_eq ht with rfl | ⟨hsup, hcrc, hh⟩
  · exact ⟨hwatch, hfresh⟩
  refine ⟨?_, hfresh⟩
  cases hh with
  | up _ hidle =>
    obtain rfl := ho.eq_nobody hidle
    exact UpAckInv.outside ho.transmitter
  | ackUp htype hseq hw =>
    obtain rfl := ho.eq_transmitter_of_waitingAck hw
    have hexp : s.up.Expects s.packetUp := ho.holds
    have htx : m.transmitted = true := h.task.transmitted hexp ho.transmitter hw
    have hseq : p.packet macSeqNum = s.packetUp.info.seqNum := hseq
    have hsrc := hok hsup hcrc htype hseq hw
    refine UpAckInv.of_own htx (UpAcks.own_isSome.mpr ⟨m.inputs, ?_⟩)
    show _ ∈ ite _ _ _
    rw [if_pos ⟨htx, hsup, hcrc, htype⟩, hseq, hsrc]
    exact List.mem_cons_self
  | _ => exact hwatch

theorem AckedUpInv.step {a : Act σ} (h : AckedUpInv s m) (ho : OwnedUp o s) (hok : UpAckOk s a)
    (hs : sysStep dev s a = some t) : AckedUpInv t (m.watch s a) := by
  have hsame : SameUp s t → AckedUpInv t m := by
    intro e
    refine ⟨?_, h.fresh⟩
    rw [e.packetUp, e.received, e.up]
    exact h.task
  cases a with
  | input p tag crc => cases hs; exact h.input ho hok
  | verify => cases hs; exact hsame (by constructor <;> rfl)
  | downAck ok => exact hsame (downAckStep_sameUp hs)
  | down ok => exact hsame (downStep_sameUp hs)
  | link ok => exact hsame (linkTaskStep_sameUp hs)
  | up ok => exact h.upStep ho hok hs
  | upAck ok =>
    by_cases ht : s.up.transmits = true
    · obtain rfl := ho.eq_transmitter ht
      exact absurd hs (ho.not_upAckStep rfl rfl)
    · refine ⟨?_, h.fresh⟩
      rw [upAckStep_up hs]
      exact UpAckInv.outside (Bool.eq_false_of_not_eq_true ht)
  | send i d =>
    by_cases ht : s.up.transmits = true
    · obtain rfl := ho.eq_transmitter ht
      have hidle : s.packetUp.state ≠ .idle := fun hi => by
        cases ho.eq_nobody hi
      have e := ho.sendStep_other (fun _ => by rintro ⟨⟩) hidle hs
      refine ⟨?_, h.fresh⟩
      rw [e.packetUp, e.received, e.up]
      exact h.task
    · refine ⟨?_, h.fresh⟩
      rw [sendStep_up hs]
      exact UpAckInv.outside (Bool.eq_false_of_not_eq_true ht)

end

/-- In the state `s` reached by a run, with what the observer noted: `UNET_Router_Up_Task` is about to
release the packet as routed only if an ack with its sequence number and from its next hop arrived
after the packet was first transmitted, and every packet released so far had an ack of its own. -/
def AckedUpByOwn (s : Sys σ) (m : UpAcks) : Prop :=
  (s.up = .acked → ∃ k, (k, s.packetUp.info.seqNum, s.packetUp.destAddr16) ∈ m.acks) ∧
    none ∉ m.leaves ∧ m.leaves.Nodup

theorem ackedUpByOwn_of_runs [DecidableEq σ] {s₀ : Sys σ} {as : List (Act σ)} (h0 : SysStart dev s₀)
    (r : Runs (sysStep dev) UpAckOk s₀ as s) :
    AckedUpByOwn s (observe (sysStep dev) (fun s m => m.watch s) s₀ UpAcks.none as) := by
  have hstart : AckedUpInv s₀ UpAcks.none := by
    refine ⟨?_, ?_⟩
    · rw [h0.tasks.2.2.2.1]
      trivial
    · refine ⟨?_, ?_, List.nodup_nil⟩ <;> intro x hx <;> cases hx
  have hinv : (∃ o, OwnedUp o s) ∧
      AckedUpInv s (observe (sysStep dev) (fun s m => m.watch s) s₀ UpAcks.none as) :=
    r.observed (I := fun s m => (∃ o, OwnedUp o s) ∧ AckedUpInv s m) ⟨⟨_, OwnedUp.start h0⟩, hstart⟩
      fun _ _ _ _ ⟨⟨_, ho⟩, hi⟩ hok hs => ⟨ho.step hs, hi.step ho hok hs⟩
  obtain ⟨_, htask, hfresh⟩ := hinv
  refine ⟨fun hs => ?_, fun hx => ?_, hfresh.nodup⟩
  · rw [hs] at htask
    exact UpAcks.own_isSome.mp htask.2
  · obtain ⟨_, hj, _⟩ := hfresh.leaves _ hx
    cases hj

instance {n : Nat} (s : Sys (Fin n)) (a : Act (Fin n)) : Decidable (UpAckOk s a) :=
  match a with
  | .up _ => inferInstanceAs (Decidable (_ → _))
  | .input .. => inferInstanceAs (Decidable (_ → _))
  | .verify | .downAck _ | .down _ | .link _ | .upAck _ | .send .. => .isTrue trivial

/-- A packet of the node with the address 5, from the neighbour 2: it makes a route. -/
def routeFrame : Packet := (netFrame 2 unicastDown 7).setByte unetSrc64 5

def sendUp : SendRequest := { sendByte with destAddress := fun i => if i = 0 then 5 else 0 }

/-- `unet_send` queues a packet for the neighbour 2, and `UNET_Router_Up_Task` transmits it; then an
acknowledgment of `src` arrives. -/
def upActs (src : U8) : List (Act (Fin 1)) :=
  [.input routeFrame 0 true] ++ List.replicate 4 (.send 0 sendUp) ++ List.replicate 4 (.up true) ++
    [.input (netFrame src unicastAckUp 1) 0 true, .up true]

theorem ackedUpByOwn_upActs :
    ∃ s : Sys (Fin 1), Runs (sysStep .router) UpAckOk (startedSys .router (Fin 1)) (upActs 2) s ∧
      s.up = .acked ∧
      AckedUpByOwn s (observe (sysStep .router) (fun s m => m.watch s) (startedSys .router (Fin 1))
        UpAcks.none (upActs 2)) := by
  have hrun : (exec (guarded (sysStep .router) UpAckOk) (startedSys .router (Fin 1))
      (upActs 2)).map (fun s => s.up) = some .acked := by decide +kernel
  obtain ⟨s, hs, hup⟩ := Option.map_eq_some_iff.mp hrun
  have r := Runs.of_exec_guarded hs
  exact ⟨s, r, hup, ackedUpByOwn_of_runs (startedSys_start _ _) r⟩

/-- The neighbour 3 acknowledges a packet it has not been sent. -/
theorem ackedUpByOwn_fails :
    ¬ ∀ (s₀ s : Sys (Fin 1)) (as : List (Act (Fin 1))), SysStart .router s₀ →
      Runs (sysStep .router) Free s₀ as s →
        AckedUpByOwn s (observe (sysStep .router) (fun s m => m.watch s) s₀ UpAcks.none as) := by
  intro h
  have hrun : (exec (sysStep .router) (startedSys .router (Fin 1)) (upActs 3)).map
      (fun s => (s.up, s.packetUp.destAddr16)) = some (.acked, 2) := by decide +kernel
  obtain ⟨s, hs, hst⟩ := Option.map_eq_some_iff.mp hrun
  obtain ⟨hup, hdest⟩ := Prod.mk.inj hst
  obtain ⟨k, hk⟩ := (h _ s (upActs 3) (startedSys_start _ _) (Runs.of_exec hs)).1 hup
  have hacks : (observe (sysStep .router) (fun s m => m.watch s) (startedSys .router (Fin 1))
      UpAcks.none (upActs 3)).acks = [(1, 1, 3)] := by decide +kernel
  rw [hacks, hdest] at hk
  simp at hk

end Unet4Cooja
