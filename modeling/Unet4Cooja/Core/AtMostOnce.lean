import Unet4Cooja.Core.Records
import Unet4Cooja.Core.UpOwnership

/-!
# Copies of one packet

The neighbour `b` transmits its packet `k` again and again until it is acknowledged.

* `CopyOk` : a copy of a `UNICAST_DOWN` packet that was handled is accepted only as a frame that
  requests a MAC acknowledgment, and while the slot of `b` shows its number; no copy of a
  `UNICAST_UP` packet that was handled is accepted;
* `atMostOnce_of_runs` : then each packet is delivered or routed at most once;
* `copyOk_of_kept` : the slot shows the number as long as `b` keeps it;
* `atMostOnce_fails` : no test of the upward half drops a copy, and none of the downward half if the
  sender has no slot.
-/

namespace Unet4Cooja
open Lib

/-- The acknowledgment request bit of the MAC header. -/
def Packet.ackRequest (p : Packet) : Bool :=
  (⟨p.packet macFrameCtrl, p.packet (macFrameCtrl + 1)⟩ : FrameControl).ackRequest

variable {σ : Type}

/-- A frame that is accepted as a copy of packet `k` of `b`, although that packet was handled, can be
told from a new one. -/
def CopyOk (b : U16) (k : Nat) (s : Sys σ) : Act σ → Prop
  | .input p tag crc =>
    p.supported = true → crc = true → p.macSource = b → tag = k →
      (p.packet unetPktType = unicastDown → s.packetDown.state = .idle → (b, k) ∈ s.handledDown →
        p.ackRequest = true ∧ ∃ i, s.node.findNeighbor b = some i ∧
          (s.node.neighbourhood i).neighborLastID = p.packet macSeqNum) ∧
      (p.packet unetPktType = unicastUp → s.packetUp.state = .idle → (b, k) ∉ s.handledUp)
  | _ => True

/-- Packet `k` of `b` was handled at most once, and not yet if the ack task is about to handle it. -/
structure OnceInv (b : U16) (k : Nat) (s : Sys σ) : Prop where
  once : s.handledDown.count (b, k) ≤ 1
  flagged : Unchecked s → s.packetDown.sourceAddr16 = b → s.downTag = k → (b, k) ∈ s.handledDown →
    s.packetDown.info.duplicated = true
  fresh : s.downAck = .record ∨ s.downAck = .decide → s.packetDown.sourceAddr16 = b →
    s.downTag = k → (b, k) ∉ s.handledDown

/-- The same for the upward half, where a packet is checked when it is accepted. -/
structure OnceUpInv (b : U16) (k : Nat) (s : Sys σ) : Prop where
  once : s.handledUp.count (b, k) ≤ 1
  fresh : 0 < s.routerUpAckRequest ∨ s.upAck = .sendAck ∨ s.upAck = .decide →
    s.packetUp.sourceAddr16 = b → s.upTag = k → (b, k) ∉ s.handledUp

structure SameHandled (s t : Sys σ) : Prop where
  requests : t.routerUpAckRequest = s.routerUpAckRequest
  upAck : t.upAck = s.upAck
  upTag : t.upTag = s.upTag
  handledUp : t.handledUp = s.handledUp

theorem upStep_sameHandled {s t : Sys σ} {ok : Bool} (hs : upStep s ok = some t) :
    SameHandled s t ∧ t.packetUp.info = s.packetUp.info := by
  rw [upStep_frame hs]
  exact ⟨by constructor <;> rfl, rfl⟩

theorem sendStep_sameHandled [DecidableEq σ] {s t : Sys σ} {i : σ} {d : SendRequest}
    (hs : sendStep s i d = some t) : SameHandled s t := by
  rw [(sendStep_frame hs).2]
  constructor <;> rfl

theorem count_handled {l : List (U16 × Nat)} {b b' : U16} {k k' : Nat} (h : l.count (b, k) ≤ 1)
    (hfresh : b' = b → k' = k → (b, k) ∉ l) : ((b', k') :: l).count (b, k) ≤ 1 := by
  rw [List.count_cons]
  by_cases he : (b', k') = (b, k)
  · obtain ⟨hb, hk⟩ := Prod.mk.inj he
    rw [List.count_eq_zero.mpr (hfresh hb hk)]
    simp [he]
  · simpa [he] using h

namespace OnceInv
variable {b : U16} {k : Nat} {dev : DeviceType} {s t : Sys σ}

theorem quiet (h : OnceInv b k s) (hh : t.handledDown = s.handledDown)
    (hchk : Unchecked t → Unchecked s ∧ t.packetDown.info = s.packetDown.info ∧
      t.downTag = s.downTag)
    (hfresh : t.downAck = .record ∨ t.downAck = .decide →
      (s.downAck = .record ∨ s.downAck = .decide) ∧ t.packetDown.info = s.packetDown.info ∧
        t.downTag = s.downTag) : OnceInv b k t := by
  have hsrc : t.packetDown.info = s.packetDown.info →
      t.packetDown.sourceAddr16 = s.packetDown.sourceAddr16 := by
    intro hinfo
    unfold Packet.sourceAddr16
    rw [hinfo]
  refine ⟨?_, fun hu hb hk hmem => ?_, fun hpc hb hk => ?_⟩
  · rw [hh]
    exact h.once
  · obtain ⟨hus, hinfo, htag⟩ := hchk hu
    rw [hsrc hinfo] at hb
    rw [htag] at hk
    rw [hh] at hmem
    rw [hinfo]
    exact h.flagged hus hb hk hmem
  · obtain ⟨hpcs, hinfo, htag⟩ := hfresh hpc
    rw [hsrc hinfo] at hb
    rw [htag] at hk
    rw [hh]
    exact h.fresh hpcs hb hk

theorem input {p : Packet} {tag : Nat} {crc : Bool} [DecidableEq σ] {o : Owner σ}
    (h : OnceInv b k s) (ho : Owned o s) (hok : CopyOk b k s (.input p tag crc)) :
    OnceInv b k (ieee802154PacketInput dev s p tag crc) := by
  generalize ht : ieee802154PacketInput dev s p tag crc = t
  rcases packetInput_eq ht with rfl | ⟨hsup, hcrc, hh⟩
  · exact h
  cases hh with
  | down htype hidle =>
    refine ⟨h.once, fun _ hb hk hmem => ?_, fun hpc => ?_⟩
    · obtain ⟨hack, hslot⟩ := (hok hsup hcrc hb hk).1 htype hidle hmem
      have hb : p.macSource = b := hb
      show (p.ackRequest && linkPacketIsDuplicated s.node p.macSource (p.packet macSeqNum)) = true
      rw [hack, Bool.true_and, hb]
      exact linkPacketIsDuplicated_iff.mpr hslot
    · -- the ack task owns no buffer that is free
      obtain rfl := ho.eq_nobody hidle
      have hno : s.downAck.handles = false := ho.ackTask
      have hpc : s.downAck = .record ∨ s.downAck = .decide := hpc
      rcases hpc with hpc | hpc
      all_goals
        rw [hpc] at hno
        cases hno
  | _ => exact h.quiet rfl (fun hu => ⟨hu, rfl, rfl⟩) fun hpc => ⟨hpc, rfl, rfl⟩

theorem downAckStep {ok : Bool} [DecidableEq σ] {o : Owner σ} (h : OnceInv b k s) (ho : Owned o s)
    (hs : Unet4Cooja.downAckStep s ok = some t) : OnceInv b k t := by
  -- past the check, with no packet received meanwhile
  have hdone : ∀ {u : Sys σ}, o = .ackTask → u.routerDownAckRequest = s.routerDownAckRequest →
      u.downAck.unchecked = false → ¬ Unchecked u := by
    rintro u hack hr hpc (hpos | hpc')
    · exact ho.no_request hack (hr ▸ hpos)
    · rw [hpc] at hpc'
      cases hpc'
  unfold Unet4Cooja.downAckStep at hs
  cases hpc : s.downAck with
  | wait =>
    rw [hpc] at hs
    rcases osSemPend_eq_some.mp hs with ⟨_, hpos, hs⟩ | ⟨_, _, hs⟩
    · cases hs
      exact h.quiet rfl (fun _ => ⟨.inl hpos, rfl, rfl⟩) (by simp)
    · cases hs
  | sendAck =>
    rw [hpc] at hs
    cases hs
    refine h.quiet rfl (fun _ => ⟨.inr ?_, rfl, rfl⟩) (by simp)
    rw [hpc]
    rfl
  | checkDup =>
    have hack := ho.eq_ackTask (by rw [hpc]; rfl)
    have hun : Unchecked s := .inr (by rw [hpc]; rfl)
    rw [hpc] at hs
    dsimp only at hs
    split at hs
    · cases hs
      exact h.quiet rfl (fun hu => absurd hu (hdone hack rfl rfl)) (by simp)
    · rename_i hdup
      cases hs
      refine ⟨h.once, fun hu => absurd hu (hdone hack rfl rfl), fun _ hb hk hmem => ?_⟩
      exact hdup (h.flagged hun hb hk hmem)
  | record =>
    have hack := ho.eq_ackTask (by rw [hpc]; rfl)
    rw [hpc] at hs
    cases hs
    exact h.quiet rfl (fun hu => absurd hu (hdone hack rfl rfl)) fun _ => ⟨.inl hpc, rfl, rfl⟩
  | decide =>
    have hack := ho.eq_ackTask (by rw [hpc]; rfl)
    have honce : ((s.packetDown.sourceAddr16, s.downTag) :: s.handledDown).count (b, k) ≤ 1 :=
      count_handled h.once (h.fresh (.inr hpc))
    rw [hpc] at hs
    dsimp only at hs
    split at hs
    · cases hs
      exact ⟨honce, fun hu => absurd hu (hdone hack rfl rfl), by simp⟩
    · cases hs
      exact ⟨honce, fun hu => absurd hu (hdone hack rfl rfl), by simp⟩
  | route =>
    have hack := ho.eq_ackTask (by rw [hpc]; rfl)
    rw [hpc] at hs
    dsimp only at hs
    split at hs
    all_goals
      cases hs
      exact h.quiet rfl (fun hu => absurd hu (hdone hack rfl rfl)) (by simp)
  | routeEnd pIdx =>
    have hack := ho.eq_ackTask (by rw [hpc]; rfl)
    rw [hpc] at hs
    cases hs
    exact h.quiet rfl (fun hu => absurd hu (hdone hack rfl rfl)) (by simp)
  | post =>
    rw [hpc] at hs
    cases hs
    refine h.quiet rfl (fun hu => ⟨.inl ?_, rfl, rfl⟩) (by simp)
    exact hu.resolve_right (by simp [DownAckPc.unchecked])

theorem step {a : Act σ} [DecidableEq σ] {o : Owner σ} (h : OnceInv b k s) (ho : Owned o s)
    (hok : CopyOk b k s a) (hs : sysStep dev s a = some t) : OnceInv b k t := by
  cases a with
  | input p tag crc =>
    cases hs
    exact h.input ho hok
  | verify =>
    cases hs
    exact h.quiet rfl (fun hu => ⟨hu, rfl, rfl⟩) fun hpc => ⟨hpc, rfl, rfl⟩
  | downAck ok => exact h.downAckStep ho hs
  | _ =>
    obtain ⟨e, hp⟩ := ho.otherStep hs nofun nofun nofun
    apply h.quiet e.handledDown
    · intro hu
      have hus : Unchecked s := by
        unfold Unchecked at hu ⊢
        rwa [e.requests, e.downAck] at hu
      rw [hp (RecordInv.owner_of_unrecorded ho (RecordInv.Unchecked.unrecorded hus))]
      exact ⟨hus, rfl, e.downTag⟩
    · intro hpc
      rw [e.downAck] at hpc
      have hack : o = .ackTask := by
        apply ho.eq_ackTask
        rcases hpc with hpc | hpc
        · rw [hpc]
          rfl
        · rw [hpc]
          rfl
      rw [hp (.inr hack)]
      exact ⟨hpc, rfl, e.downTag⟩

theorem start (h : SysStart dev s) : OnceInv b k s := by
  obtain ⟨_, _, hdown, _⟩ := h.history
  obtain ⟨hack, _⟩ := h.tasks
  refine ⟨?_, fun _ _ _ hmem => ?_, fun hpc => ?_⟩
  · rw [hdown]
    exact Nat.zero_le 1
  · rw [hdown] at hmem
    cases hmem
  · rw [hack] at hpc
    rcases hpc with ⟨⟨⟩⟩ | ⟨⟨⟩⟩

end OnceInv

namespace OnceUpInv
variable {b : U16} {k : Nat} {dev : DeviceType} {s t : Sys σ}

/-- The packet in `packet_up` has been accepted, and is still to be handled. -/
def Waiting (s : Sys σ) : Prop :=
  0 < s.routerUpAckRequest ∨ s.upAck = .sendAck ∨ s.upAck = .decide

theorem quiet (h : OnceUpInv b k s) (hh : t.handledUp = s.handledUp)
    (hfresh : Waiting t → Waiting s ∧ t.packetUp.info = s.packetUp.info ∧ t.upTag = s.upTag) :
    OnceUpInv b k t := by
  refine ⟨?_, fun hw hb hk => ?_⟩
  · rw [hh]
    exact h.once
  · obtain ⟨hws, hinfo, htag⟩ := hfresh hw
    unfold Packet.sourceAddr16 at hb
    rw [hinfo] at hb
    rw [htag] at hk
    rw [hh]
    exact h.fresh hws hb hk

theorem other (h : OnceUpInv b k s) (e : SameHandled s t)
    (hp : Waiting s → t.packetUp.info = s.packetUp.info) : OnceUpInv b k t := by
  apply h.quiet e.handledUp
  intro hw
  have hws : Waiting s := by
    unfold Waiting at hw ⊢
    rwa [e.requests, e.upAck] at hw
  exact ⟨hws, hp hws, e.upTag⟩

theorem same (h : OnceUpInv b k s) (e : SameUp s t) : OnceUpInv b k t := by
  apply h.other ⟨e.requests, e.upAck, e.upTag, e.handledUp⟩
  intro _
  rw [e.packetUp]

theorem input {p : Packet} {tag : Nat} {crc : Bool} (h : OnceUpInv b k s)
    (hok : CopyOk b k s (.input p tag crc)) :
    OnceUpInv b k (ieee802154PacketInput dev s p tag crc) := by
  generalize ht : ieee802154PacketInput dev s p tag crc = t
  rcases packetInput_eq ht with rfl | ⟨hsup, hcrc, hh⟩
  · exact h
  cases hh with
  | up htype hidle => exact ⟨h.once, fun _ hb hk => (hok hsup hcrc hb hk).2 htype hidle⟩
  | _ => exact h.quiet rfl fun hw => ⟨hw, rfl, rfl⟩

theorem start (h : SysStart dev s) : OnceUpInv b k s := by
  obtain ⟨_, _, _, hup⟩ := h.history
  refine ⟨?_, fun _ _ _ hmem => ?_⟩
  · rw [hup]
    exact Nat.zero_le 1
  · rw [hup] at hmem
    cases hmem

variable [DecidableEq σ] {o : Owner σ}

theorem owner_of_waiting (ho : OwnedUp o s) (hw : Waiting s) : o = .received ∨ o = .ackTask := by
  rcases hw with hpos | hpc | hpc
  · exact .inl (ho.eq_received hpos)
  · exact .inr (ho.eq_ackTask (by rw [hpc]; rfl))
  · exact .inr (ho.eq_ackTask (by rw [hpc]; rfl))

theorem not_waiting (ho : OwnedUp o s) (hack : o = .ackTask) {u : Sys σ}
    (hr : u.routerUpAckRequest = s.routerUpAckRequest) (h1 : u.upAck ≠ .sendAck) (h2 : u.upAck ≠ .decide) :
    ¬ Waiting u := by
  rintro (hpos | hpc | hpc)
  · exact ho.no_request hack (hr ▸ hpos)
  · exact h1 hpc
  · exact h2 hpc

theorem upAckStep {ok : Bool} (h : OnceUpInv b k s) (ho : OwnedUp o s)
    (hs : Unet4Cooja.upAckStep s ok = some t) : OnceUpInv b k t := by
  unfold Unet4Cooja.upAckStep at hs
  cases hpc : s.upAck with
  | wait =>
    rw [hpc] at hs
    rcases osSemPend_eq_some.mp hs with ⟨_, hpos, hs⟩ | ⟨_, _, hs⟩
    · cases hs
      exact h.quiet rfl fun _ => ⟨.inl hpos, rfl, rfl⟩
    · cases hs
  | sendAck =>
    rw [hpc] at hs
    cases hs
    exact h.quiet rfl fun _ => ⟨.inr (.inl hpc), rfl, rfl⟩
  | decide =>
    have hack := ho.eq_ackTask (by rw [hpc]; rfl)
    have honce : ((s.packetUp.sourceAddr16, s.upTag) :: s.handledUp).count (b, k) ≤ 1 :=
      count_handled h.once (h.fresh (.inr (.inr hpc)))
    rw [hpc] at hs
    dsimp only at hs
    split at hs
    all_goals
      cases hs
      exact ⟨honce, fun hw => absurd hw (not_waiting ho hack rfl (by simp) (by simp))⟩
  | post =>
    have hack := ho.eq_ackTask (by rw [hpc]; rfl)
    rw [hpc] at hs
    cases hs
    exact h.quiet rfl fun hw => absurd hw (not_waiting ho hack rfl (by simp) (by simp))

theorem step {a : Act σ} (h : OnceUpInv b k s) (ho : OwnedUp o s)
    (hok : CopyOk b k s a) (hs : sysStep dev s a = some t) : OnceUpInv b k t := by
  cases a with
  | input p tag crc =>
    cases hs
    exact h.input hok
  | verify =>
    cases hs
    exact h.same (by constructor <;> rfl)
  | downAck ok => exact h.same (downAckStep_sameUp hs)
  | down ok => exact h.same (downStep_sameUp hs)
  | link ok => exact h.same (linkTaskStep_sameUp hs)
  | upAck ok => exact h.upAckStep ho hs
  | up ok => exact h.other (upStep_sameHandled hs).1 fun _ => (upStep_sameHandled hs).2
  | send i d =>
    apply h.other (sendStep_sameHandled hs)
    intro hw
    -- the packet of the ack task is not free, and no task in `unet_send` owns it
    rcases owner_of_waiting ho hw with rfl | rfl
    · rw [(ho.sendStep_other nofun ho.holds.1 hs).packetUp]
    · rw [(ho.sendStep_other nofun ho.holds.1 hs).packetUp]

end OnceUpInv

/-! ## Runs -/

/-- While the neighbour keeps its slot, the slot shows the number of the packet recorded last, so a
copy of that packet with the acknowledgment request bit is told from a new packet. -/
theorem copyOk_of_kept {s : Sys σ} {f : Nat → U8} {b : U16} {k : Nat} {p : Packet} {crc : Bool}
    (h : RecordInv f b s) (hnum : NumberedBy f b s (.input p k crc)) (hlast : s.taken b = some k)
    (hack : p.ackRequest = true)
    (hkept : ∃ i, s.node.findNeighbor b = some i ∧ (s.node.neighbourhood i).neighborLastID ≠ 0)
    (hdown : p.packet unetPktType = unicastDown) : CopyOk b k s (.input p k crc) := by
  intro hsup hcrc hb _
  refine ⟨fun htype hidle _ => ⟨hack, ?_⟩, fun htype => ?_⟩
  · obtain ⟨i, hfind, hne⟩ := hkept
    obtain ⟨hi, ha⟩ := findNeighbor_eq_some hfind
    obtain ⟨k', hk', hid⟩ := (h.last i hi ha).resolve_left hne
    rw [hlast] at hk'
    cases hk'
    exact ⟨i, hfind, hid.trans (hnum hsup hcrc htype hidle hb).symm⟩
  · rw [hdown] at htype
    exact absurd htype (by decide)

variable [DecidableEq σ] {dev : DeviceType} {s₀ s : Sys σ} {as : List (Act σ)}

/-- Every copy of packet `k` of the neighbour `b` together is delivered or routed at most once, in
either direction. -/
theorem atMostOnce_of_runs (b : U16) (k : Nat) (h0 : SysStart dev s₀)
    (r : Runs (sysStep dev) (fun s a => WakeOk dev s a ∧ CopyOk b k s a) s₀ as s) :
    s.handledDown.count (b, k) ≤ 1 ∧ s.handledUp.count (b, k) ≤ 1 := by
  obtain ⟨⟨_, _⟩, ⟨_, _⟩, hdown, hup⟩ := r.invariant
    (I := fun s => (∃ o, Owned o s) ∧ (∃ o, OwnedUp o s) ∧ OnceInv b k s ∧ OnceUpInv b k s)
    ⟨⟨_, Owned.start h0⟩, ⟨_, OwnedUp.start h0⟩, .start h0, .start h0⟩
    fun _ _ _ ⟨⟨_, ho⟩, ⟨_, hou⟩, hdown, hup⟩ hok hs =>
      ⟨ho.step hok.1 hs, hou.step hs, hdown.step ho hok.2 hs, hup.step hou hok.2 hs⟩
  exact ⟨hdown.once, hup.once⟩

instance {n : Nat} (b : U16) (k : Nat) (s : Sys (Fin n)) (a : Act (Fin n)) :
    Decidable (CopyOk b k s a) :=
  match a with
  | .input p _ _ =>
    have : Decidable (∃ i, s.node.findNeighbor b = some i ∧
        (s.node.neighbourhood i).neighborLastID = p.packet macSeqNum) :=
      decidable_of_iff _ linkPacketIsDuplicated_iff
    inferInstanceAs (Decidable (_ → _))
  | .verify | .downAck _ | .down _ | .link _ | .upAck _ | .up _ | .send .. => .isTrue trivial

/-- The neighbour 1 sends its first packet twice, and the second copy is dropped. -/
theorem atMostOnce_copyActs :
    ∃ s : Sys (Fin 1), s.handledDown = [(1, 0)] ∧
      s.handledDown.count (1, 0) ≤ 1 ∧ s.handledUp.count (1, 0) ≤ 1 := by
  have hrun : (exec (guarded (sysStep .router) (fun s a => WakeOk .router s a ∧ CopyOk 1 0 s a))
      (startedSys .router (Fin 1)) (sameNumberActs 0 ++ [.downAck true])).map
        (fun s => s.handledDown) = some [(1, 0)] := by decide +kernel
  obtain ⟨s, hs, hdown⟩ := Option.map_eq_some_iff.mp hrun
  exact ⟨s, hdown, atMostOnce_of_runs 1 0 (startedSys_start _ _) (Runs.of_exec_guarded hs)⟩

def listeningSys : Sys (Fin 1) :=
  { startedSys .router (Fin 1) with sockets := [⟨0, 0, false, 0, 0, fun _ => 0⟩] }

theorem listeningSys_start : SysStart .router listeningSys :=
  let h := startedSys_start .router (Fin 1)
  { node := h.node, packetDown := h.packetDown, packetUp := h.packetUp, downCounts := h.downCounts,
    upCounts := h.upCounts, tasks := h.tasks, sender := h.sender, history := h.history }

/-- The node 2, which is no neighbour, transmits a frame of the type `type` twice, and the ack task
handles each copy in `n` steps `a`. -/
def copyTwice (type : U8) (a : Act (Fin 1)) (n : Nat) : List (Act (Fin 1)) :=
  let p := (netFrame 2 type 1).setByte unetNextHeader nextHeaderUnetApp
  let once := .input p 0 true :: List.replicate n a
  once ++ once

theorem copyTwice_delivered :
    ((exec (guarded (sysStep .router) (WakeOk .router)) listeningSys
      (copyTwice unicastUp (.upAck true) 3)).map fun s =>
        (s.handledUp, s.sockets.map UnetTransport.wakeUp)) = some ([(2, 0), (2, 0)], [2]) ∧
    ((exec (guarded (sysStep .router) (WakeOk .router)) listeningSys
      (copyTwice unicastDown (.downAck true) 5)).map fun s =>
        (s.handledDown, s.sockets.map UnetTransport.wakeUp)) = some ([(2, 0), (2, 0)], [2]) := by
  constructor <;> decide +kernel

/-- A second copy is delivered again: of every packet in the upward direction, and in the downward
direction if the sender has no slot. -/
theorem atMostOnce_fails :
    (¬ ∀ (b : U16) (s₀ s : Sys (Fin 1)) (as : List (Act (Fin 1))), SysStart .router s₀ →
      Runs (sysStep .router) (WakeOk .router) s₀ as s → s.handledUp.count (b, 0) ≤ 1) ∧
    ¬ ∀ (b : U16) (s₀ s : Sys (Fin 1)) (as : List (Act (Fin 1))), SysStart .router s₀ →
      Runs (sysStep .router) (WakeOk .router) s₀ as s → s.handledDown.count (b, 0) ≤ 1 := by
  obtain ⟨hup, hdown⟩ := copyTwice_delivered
  refine ⟨fun h => ?_, fun h => ?_⟩
  · obtain ⟨s, hs, hst⟩ := Option.map_eq_some_iff.mp hup
    have hcount := h 2 _ s _ listeningSys_start (Runs.of_exec_guarded hs)
    rw [(Prod.mk.inj hst).1] at hcount
    revert hcount
    decide
  · obtain ⟨s, hs, hst⟩ := Option.map_eq_some_iff.mp hdown
    have hcount := h 2 _ s _ listeningSys_start (Runs.of_exec_guarded hs)
    rw [(Prod.mk.inj hst).1] at hcount
    revert hcount
    decide

end Unet4Cooja
