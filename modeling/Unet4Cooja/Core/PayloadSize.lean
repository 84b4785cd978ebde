import Unet4Cooja.Core.Sockets

/-!
# The size of a delivered payload

* `Frames` : the frames accepted last into the two buffers;
* `Undelivered`, `FrameInv` : until the ack task has decided on a packet, the buffer holds the bytes
  of that frame;
* `deliveredPayload_of_runs` : what a socket is handed is the datagram of that frame, and its
  `payload_size` is a size the frame carried exactly if the length byte of the frame is;
* `deliveredPayload_fails` : the length byte 255.
-/

namespace Unet4Cooja
open Lib

variable {σ : Type}

/-- The number of bytes a frame carries from `UNET_APP_HEADER_START` on. The `PHY_PKT_SIZE` bytes of
a frame start at `MAC_FRAME_CTRL`. -/
def Packet.carried (p : Packet) : Nat :=
  macFrameCtrl + (p.packet phyPktSize).toNat - unetAppHeaderStart

/-- `n` bytes from `UNET_APP_HEADER_START` on are bytes of the frame `p`, inside the array. -/
def Packet.Carries (p : Packet) (n : U8) : Prop :=
  n.toNat ≤ p.carried ∧ unetAppHeaderStart + n.toNat ≤ maxPacketSize

/-- The frames accepted last into `packet_down` and `packet_up`. -/
structure Frames where
  down : Packet
  up : Packet

def Frames.last (m : Frames) (fromUp : Bool) : Packet := if fromUp then m.up else m.down

def Frames.watch (s : Sys σ) (m : Frames) : Act σ → Frames
  | .input p _ crc =>
    { down := if Accepts false s p crc then p else m.down
      up := if Accepts true s p crc then p else m.up }
  | _ => m

/-! ## The downward direction -/

/-- The ack task has not yet decided on the packet in `packet_down`. -/
def DownAckPc.undecided : DownAckPc → Bool
  | .sendAck | .checkDup | .record | .decide => true
  | _ => false

/-- `packet_down` holds a received packet that is still to be delivered or routed. -/
def Undecided (s : Sys σ) : Prop := 0 < s.routerDownAckRequest ∨ s.downAck.undecided = true

/-- Until then it holds the bytes of the frame `p`. -/
def FrameInv (s : Sys σ) (p : Packet) : Prop := Undecided s → s.packetDown.packet = p.packet

/-- The same for `packet_up`. -/
def FrameUpInv (s : Sys σ) (p : Packet) : Prop :=
  OnceUpInv.Waiting s → s.packetUp.packet = p.packet

section
variable {dev : DeviceType} {s t : Sys σ} {p : Packet}

/-- A step after which the ack task is still to decide only on what it was to decide on before. -/
theorem FrameInv.quiet (h : FrameInv s p)
    (hu : Undecided t → Undecided s ∧ t.packetDown.packet = s.packetDown.packet) : FrameInv t p := by
  intro ht
  obtain ⟨hs, hp⟩ := hu ht
  rw [hp]
  exact h hs

theorem FrameUpInv.quiet (h : FrameUpInv s p)
    (hu : OnceUpInv.Waiting t → OnceUpInv.Waiting s ∧ t.packetUp.packet = s.packetUp.packet) :
    FrameUpInv t p := by
  intro ht
  obtain ⟨hs, hp⟩ := hu ht
  rw [hp]
  exact h hs

theorem FrameInv.input {q : Packet} {tag : Nat} {crc : Bool} (h : FrameInv s p) :
    FrameInv (ieee802154PacketInput dev s q tag crc) (if Accepts false s q crc then q else p) := by
  by_cases hacc : Accepts false s q crc
  · rw [if_pos hacc]
    rw [ieee802154PacketInput_down hacc]
    intro _
    rfl
  · rw [if_neg hacc]
    generalize ht : ieee802154PacketInput dev s q tag crc = t
    rcases packetInput_eq ht with rfl | ⟨hsup, hcrc, hh⟩
    · exact h
    · cases hh with
      | down htype hidle => exact absurd ⟨hsup, hcrc, htype, hidle⟩ hacc
      | _ => exact h.quiet fun hu => ⟨hu, rfl⟩

theorem FrameUpInv.input {q : Packet} {tag : Nat} {crc : Bool} (h : FrameUpInv s p) :
    FrameUpInv (ieee802154PacketInput dev s q tag crc) (if Accepts true s q crc then q else p) := by
  by_cases hacc : Accepts true s q crc
  · rw [if_pos hacc]
    rw [ieee802154PacketInput_up hacc]
    intro _
    rfl
  · rw [if_neg hacc]
    generalize ht : ieee802154PacketInput dev s q tag crc = t
    rcases packetInput_eq ht with rfl | ⟨hsup, hcrc, hh⟩
    · exact h
    · cases hh with
      | up htype hidle => exact absurd ⟨hsup, hcrc, htype, hidle⟩ hacc
      | _ => exact h.quiet fun hu => ⟨hu, rfl⟩

theorem FrameUpInv.same (h : FrameUpInv s p) (e : SameUp s t) : FrameUpInv t p := by
  apply h.quiet
  intro hw
  unfold OnceUpInv.Waiting at hw ⊢
  rw [e.requests, e.upAck] at hw
  rw [e.packetUp]
  exact ⟨hw, rfl⟩

theorem upStep_packet {ok : Bool} (hs : upStep s ok = some t) :
    t.packetUp.packet = s.packetUp.packet := by
  rw [upStep_frame hs]

variable [DecidableEq σ] {o : Owner σ}

theorem owner_of_undecided (ho : Owned o s) (hu : Undecided s) : o = .received ∨ o = .ackTask := by
  rcases hu with hpos | hpc
  · exact .inl (ho.eq_received hpos)
  · apply Or.inr
    apply ho.eq_ackTask
    cases hack : s.downAck with
    | wait => rw [hack] at hpc; cases hpc
    | post => rw [hack] at hpc; cases hpc
    | _ => rfl

theorem FrameInv.downAckStep {ok : Bool} (h : FrameInv s p) (ho : Owned o s)
    (hs : Unet4Cooja.downAckStep s ok = some t) : FrameInv t p := by
  -- the ack task has decided, and nothing was received meanwhile
  have hdone : ∀ {u : Sys σ}, o = .ackTask → u.routerDownAckRequest = s.routerDownAckRequest →
      u.downAck.undecided = false → ¬ Undecided u := by
    rintro u hack hr hpc (hpos | hpc')
    · exact ho.no_request hack (hr ▸ hpos)
    · rw [hpc] at hpc'
      cases hpc'
  unfold Unet4Cooja.downAckStep at hs
  cases hpc : s.downAck with
  | wait =>
    rw [hpc] at hs
    rcases osSemPend_eq_some.mp hs with ⟨_, hpos, hs⟩ | ⟨_, _, hs⟩
    · cases hs
      exact h.quiet fun _ => ⟨.inl hpos, rfl⟩
    · cases hs
  | sendAck =>
    rw [hpc] at hs
    cases hs
    exact h.quiet fun _ => ⟨.inr (by rw [hpc]; rfl), rfl⟩
  | checkDup =>
    have hun : Undecided s := .inr (by rw [hpc]; rfl)
    rw [hpc] at hs
    dsimp only at hs
    split at hs <;> cases hs <;> exact h.quiet fun _ => ⟨hun, rfl⟩
  | record =>
    rw [hpc] at hs
    cases hs
    exact h.quiet fun _ => ⟨.inr (by rw [hpc]; rfl), rfl⟩
  | decide =>
    have hack := ho.eq_ackTask (by rw [hpc]; rfl)
    rw [hpc] at hs
    dsimp only at hs
    split at hs <;> cases hs <;> exact fun hu => absurd hu (hdone hack rfl rfl)
  | route =>
    have hack := ho.eq_ackTask (by rw [hpc]; rfl)
    rw [hpc] at hs
    dsimp only at hs
    split at hs <;> cases hs <;> exact fun hu => absurd hu (hdone hack rfl rfl)
  | routeEnd pIdx =>
    have hack := ho.eq_ackTask (by rw [hpc]; rfl)
    rw [hpc] at hs
    cases hs
    exact fun hu => absurd hu (hdone hack rfl rfl)
  | post =>
    rw [hpc] at hs
    cases hs
    exact h.quiet fun hu => ⟨.inl (hu.resolve_right (by simp [DownAckPc.undecided])), rfl⟩

theorem FrameInv.step {a : Act σ} {m : Frames} (h : FrameInv s m.down) (ho : Owned o s)
    (hs : sysStep dev s a = some t) : FrameInv t (m.watch s a).down := by
  cases a with
  | input q tag crc =>
    cases hs
    exact h.input
  | verify =>
    cases hs
    exact h
  | downAck ok => exact h.downAckStep ho hs
  | _ =>
    obtain ⟨e, hp⟩ := ho.otherStep hs nofun nofun nofun
    apply h.quiet
    intro hu
    have hus : Undecided s := by
      unfold Undecided at hu ⊢
      rwa [e.requests, e.downAck] at hu
    rw [hp (owner_of_undecided ho hus)]
    exact ⟨hus, rfl⟩

theorem FrameUpInv.upAckStep {ok : Bool} (h : FrameUpInv s p) (ho : OwnedUp o s)
    (hs : Unet4Cooja.upAckStep s ok = some t) : FrameUpInv t p := by
  unfold Unet4Cooja.upAckStep at hs
  cases hpc : s.upAck with
  | wait =>
    rw [hpc] at hs
    rcases osSemPend_eq_some.mp hs with ⟨_, hpos, hs⟩ | ⟨_, _, hs⟩
    · cases hs
      exact h.quiet fun _ => ⟨.inl hpos, rfl⟩
    · cases hs
  | sendAck =>
    rw [hpc] at hs
    cases hs
    exact h.quiet fun _ => ⟨.inr (.inl hpc), rfl⟩
  | decide =>
    have hack := ho.eq_ackTask (by rw [hpc]; rfl)
    rw [hpc] at hs
    dsimp only at hs
    split at hs <;> cases hs <;>
      exact fun hw => absurd hw (OnceUpInv.not_waiting ho hack rfl (by simp) (by simp))
  | post =>
    have hack := ho.eq_ackTask (by rw [hpc]; rfl)
    rw [hpc] at hs
    cases hs
    exact fun hw => absurd hw (OnceUpInv.not_waiting ho hack rfl (by simp) (by simp))

theorem FrameUpInv.step {a : Act σ} {m : Frames} (h : FrameUpInv s m.up) (ho : OwnedUp o s)
    (hs : sysStep dev s a = some t) : FrameUpInv t (m.watch s a).up := by
  -- a step of another task than the ack task
  have hother : SameHandled s t →
      (OnceUpInv.Waiting s → t.packetUp.packet = s.packetUp.packet) → FrameUpInv t m.up := by
    intro e hp
    apply h.quiet
    intro hw
    unfold OnceUpInv.Waiting at hw hp ⊢
    rw [e.requests, e.upAck] at hw
    exact ⟨hw, hp hw⟩
  cases a with
  | input q tag crc =>
    cases hs
    exact h.input
  | verify =>
    cases hs
    exact h
  | downAck ok => exact h.same (downAckStep_sameUp hs)
  | down ok => exact h.same (downStep_sameUp hs)
  | link ok => exact h.same (linkTaskStep_sameUp hs)
  | upAck ok => exact h.upAckStep ho hs
  | up ok => exact hother (upStep_sameHandled hs).1 fun _ => upStep_packet hs
  | send i d =>
    apply hother (sendStep_sameHandled hs)
    intro hw
    rcases OnceUpInv.owner_of_waiting ho hw with rfl | rfl
    · rw [(ho.sendStep_other nofun ho.holds.1 hs).packetUp]
    · rw [(ho.sendStep_other nofun ho.holds.1 hs).packetUp]

end

/-! ## Runs -/

theorem datagram_congr {q p : Packet} (h : q.packet = p.packet) : q.datagram = p.datagram := by
  unfold Packet.datagram Packet.addr64At
  rw [h]

theorem delivery_undecided {s : Sys σ} {a : Act σ} {fromUp : Bool} {q : Packet}
    (hd : delivery s a = some (fromUp, q)) :
    (fromUp = false ∧ Undecided s ∧ q = s.packetDown) ∨
      (fromUp = true ∧ OnceUpInv.Waiting s ∧ q = s.packetUp) := by
  unfold delivery at hd
  cases a with
  | downAck ok =>
    dsimp only at hd
    split at hd <;> cases hd
    rename_i hpc
    exact .inl ⟨rfl, .inr (by rw [hpc.1]; rfl), rfl⟩
  | upAck ok =>
    dsimp only at hd
    split at hd <;> cases hd
    rename_i hpc
    exact .inr ⟨rfl, .inr (.inr hpc.1), rfl⟩
  | _ => cases hd

variable [DecidableEq σ] {dev : DeviceType} {s₀ s t : Sys σ} {as : List (Act σ)}

theorem delivery_frame {fromUp : Bool} {a : Act σ} {q : Packet} (h0 : SysStart dev s₀)
    (r : Runs (sysStep dev) (fun s a => fromUp = false → WakeOk dev s a) s₀ as s)
    (hd : delivery s a = some (fromUp, q)) :
    q.packet = ((observe (sysStep dev) Frames.watch s₀ ⟨default, default⟩ as).last fromUp).packet := by
  rcases delivery_undecided hd with ⟨rfl, hu, rfl⟩ | ⟨rfl, hw, rfl⟩
  · have hstart : FrameInv s₀ (default : Packet) := by
      rintro (hpos | hpc)
      · rw [h0.downCounts.1] at hpos
        cases hpos
      · rw [h0.tasks.1] at hpc
        cases hpc
    have hstart : (∃ o, Owned o s₀) ∧ FrameInv s₀ default := ⟨⟨_, Owned.start h0⟩, hstart⟩
    exact (r.observed (I := fun s (m : Frames) => (∃ o, Owned o s) ∧ FrameInv s m.down)
      (m := Frames.mk default default) hstart fun s m a t ⟨⟨_, ho⟩, h⟩ hok hs =>
        ⟨ho.step (hok rfl) hs, h.step ho hs⟩).2 hu
  · have hstart : FrameUpInv s₀ (default : Packet) := by
      rintro (hpos | hpc | hpc)
      · rw [h0.upCounts.1] at hpos
        cases hpos
      · rw [h0.tasks.2.2.1] at hpc
        cases hpc
      · rw [h0.tasks.2.2.1] at hpc
        cases hpc
    have hstart : (∃ o, OwnedUp o s₀) ∧ FrameUpInv s₀ default := ⟨⟨_, OwnedUp.start h0⟩, hstart⟩
    exact (r.observed (I := fun s (m : Frames) => (∃ o, OwnedUp o s) ∧ FrameUpInv s m.up)
      (m := Frames.mk default default) hstart fun s m a t ⟨⟨_, ho⟩, h⟩ _ hs =>
        ⟨ho.step hs, h.step ho hs⟩).2 hw

/-- What a socket is handed is the datagram of the frame accepted last, and `unet_recv` copies
bytes of that frame only, exactly if the length byte of the frame is a size it carries. -/
theorem deliveredPayload_of_runs {fromUp : Bool} {a : Act σ} {q : Packet} {j : Nat}
    (h0 : SysStart dev s₀)
    (r : Runs (sysStep dev) (fun s a => fromUp = false → WakeOk dev s a) s₀ as s)
    (hd : delivery s a = some (fromUp, q)) (hj : q.receiver s.sockets = some j)
    (hs : sysStep dev s a = some t) :
    ∃ c, t.sockets[j]? = some c ∧
      let p := (observe (sysStep dev) Frames.watch s₀ ⟨default, default⟩ as).last fromUp
      t.recv c = p.datagram ∧
        (p.Carries c.payloadSize ↔ p.Carries (p.packet unetAppPayloadLen)) := by
  have hframe := delivery_frame h0 r hd
  have hlt : j < s.sockets.length := (List.findIdx?_eq_some_iff_findIdx_eq.mp hj).1
  refine ⟨s.sockets[j].hand fromUp q, ?_, ?_, ?_⟩
  · rw [sysStep_sockets hs, hd]
    dsimp only
    rw [deliverTo_get, if_pos hj, List.getElem?_eq_getElem hlt]
    rfl
  · rw [recv_hand (delivery_buffer hd hs).2]
    exact datagram_congr hframe
  · rw [← hframe]
    rfl

instance (p : Packet) (n : U8) : Decidable (p.Carries n) := inferInstanceAs (Decidable (_ ∧ _))

/-- A UNICAST_DOWN packet of `size` bytes for the node itself, with the length byte `len`, is received
and the ack task comes to its decision. -/
def lengthActs (size len : U8) : List (Act (Fin 1)) :=
  let p := ((netFrame 2 unicastDown 1).setByte unetNextHeader nextHeaderUnetApp).setByte
    unetAppPayloadLen len
  .input (p.setByte phyPktSize size) 0 true :: List.replicate 4 (.downAck true)

/-- The ack task is about to deliver `packet_down` to the first socket. -/
def Delivering (s : Sys (Fin 1)) : Prop :=
  (s.downAck = .decide ∧ s.packetDown.addr64At unetDest64 = s.node.addr64 ∧
      s.packetDown.packet unetNextHeader = nextHeaderUnetApp) ∧
    s.packetDown.receiver s.sockets = some 0

instance (s : Sys (Fin 1)) : Decidable (Delivering s) := inferInstanceAs (Decidable (_ ∧ _))

theorem Delivering.delivery {s : Sys (Fin 1)} (h : Delivering s) :
    delivery s (.downAck true) = some (false, s.packetDown) := if_pos h.1

theorem Delivering.step {s : Sys (Fin 1)} (h : Delivering s) :
    ∃ t, sysStep .router s (.downAck true) = some t := by
  have hstep : (downAckStep s true).isSome = true := by
    unfold downAckStep
    rw [h.1.1]
    dsimp only
    rw [if_pos h.1.2.1]
    rfl
  exact Option.isSome_iff_exists.mp hstep

/-- The frame the observer has noted along `lengthActs`. -/
def lengthFrame (size len : U8) : Packet :=
  (observe (sysStep .router) Frames.watch listeningSys ⟨default, default⟩
    (lengthActs size len)).last false

/-- A frame of 37 bytes carries the 4 bytes its length byte says. -/
theorem deliveredPayload_of_runs_four :
    ∃ (s t : Sys (Fin 1)) (c : UnetTransport),
      Runs (sysStep .router) (WakeOk .router) listeningSys (lengthActs 37 4) s ∧
      delivery s (.downAck true) = some (false, s.packetDown) ∧
      sysStep .router s (.downAck true) = some t ∧ t.sockets[0]? = some c ∧
      t.recv c = (lengthFrame 37 4).datagram ∧ (lengthFrame 37 4).Carries c.payloadSize := by
  have hrun : (exec (guarded (sysStep .router) (WakeOk .router)) listeningSys
      (lengthActs 37 4)).map (fun s => decide (Delivering s)) = some true := by decide +kernel
  obtain ⟨s, hs, hdel⟩ := Option.map_eq_some_iff.mp hrun
  have hdel := of_decide_eq_true hdel
  have r := Runs.of_exec_guarded hs
  obtain ⟨t, ht⟩ := hdel.step
  obtain ⟨c, hc, hrecv, hiff⟩ := deliveredPayload_of_runs listeningSys_start
    (r.mono fun _ _ h (_ : false = false) => h) hdel.delivery hdel.2 ht
  have hcarries : (lengthFrame 37 4).Carries ((lengthFrame 37 4).packet unetAppPayloadLen) := by
    decide +kernel
  exact ⟨s, t, c, r, hdel.delivery, ht, hc, hrecv, hiff.mpr hcarries⟩

/-- The same frame with the length byte 255: the socket records 255 bytes of payload. -/
theorem deliveredPayload_fails :
    ¬ ∀ (s₀ s t : Sys (Fin 1)) (as : List (Act (Fin 1))) (a : Act (Fin 1)) (fromUp : Bool)
      (q : Packet) (j : Nat) (c : UnetTransport), SysStart .router s₀ →
      Runs (sysStep .router) (WakeOk .router) s₀ as s → delivery s a = some (fromUp, q) →
      q.receiver s.sockets = some j → sysStep .router s a = some t → t.sockets[j]? = some c →
      ((observe (sysStep .router) Frames.watch s₀ ⟨default, default⟩ as).last fromUp).Carries
        c.payloadSize := by
  intro h
  have hrun : (exec (guarded (sysStep .router) (WakeOk .router)) listeningSys
      (lengthActs 37 255)).map (fun s => decide (Delivering s ∧
        (s.sockets[0]?.map fun c => (c.hand false s.packetDown).payloadSize) = some 255)) =
      some true := by decide +kernel
  obtain ⟨s, hs, hdel⟩ := Option.map_eq_some_iff.mp hrun
  obtain ⟨hdel, hsize⟩ := of_decide_eq_true hdel
  obtain ⟨t, ht⟩ := hdel.step
  have hsock : t.sockets[0]? = s.sockets[0]?.map fun c => c.hand false s.packetDown := by
    rw [sysStep_sockets ht, hdel.delivery]
    dsimp only
    rw [deliverTo_get, if_pos hdel.2]
  obtain ⟨c, hc, hsize⟩ := Option.map_eq_some_iff.mp hsize
  rw [hc] at hsock
  have hcarries := h _ s t _ _ _ _ _ _ listeningSys_start (Runs.of_exec_guarded hs) hdel.delivery
    hdel.2 ht hsock
  rw [hsize] at hcarries
  revert hcarries
  show ¬ (lengthFrame 37 255).Carries 255
  decide +kernel

end Unet4Cooja
