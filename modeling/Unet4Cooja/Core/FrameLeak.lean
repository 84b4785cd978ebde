import Unet4Cooja.Core.RadioTask

/-!
# Two receptions of one frame

* `SameEffect.downAckStep`, `SameEffect.upAckStep`, `SameEffect.runs` : the ack tasks cannot tell
  apart states that differ in bytes nobody uses;
* `NoLeak` : the effect of a frame, and what sockets get of it, does not depend on the previous
  contents of the receive buffer;
* `RxFrame.Complete.noLeak` : this holds of every complete frame.
-/

namespace Unet4Cooja
open Lib

variable {σ : Type}

/-! ## The ack tasks -/

namespace SameUse
variable {p q : Packet} (h : SameUse p q)
include h

theorem sourceAddr16 : q.sourceAddr16 = p.sourceAddr16 := by
  unfold Packet.sourceAddr16
  rw [h.info]

theorem dest64 : q.addr64At unetDest64 = p.addr64At unetDest64 := by
  funext j
  exact h.header _ (by simp only [phyPktSize, unetDest64]; omega) (by simp only [unetDest64]; omega)

theorem withState (st : PacketState) : SameUse { p with state := st } { q with state := st } :=
  ⟨h.info, rfl, h.sent, h.header, h.app⟩

theorem withInfo (i : PacketInfo) (hi : i.size = p.info.size) :
    SameUse { p with info := i } { q with info := i } :=
  ⟨rfl, h.state, hi ▸ h.sent, h.header, h.app⟩

theorem setByte {k : Nat} (v : U8) (hk : k < unetNextHeader) :
    SameUse (p.setByte k v) (q.setByte k v) := by
  have hkeep : ∀ (r : Packet) (j : Nat), unetNextHeader ≤ j → (r.setByte k v).packet j = r.packet j :=
    fun r j hj => Packet.setByte_of_ne r v (Nat.ne_of_gt (Nat.lt_of_lt_of_le hk hj))
  have hdata : ∀ r : Packet, (r.setByte k v).datagram = r.datagram := by
    intro r
    unfold Packet.datagram
    rw [hkeep r _ (by decide), hkeep r _ (by decide)]
    congr 1
    · apply List.map_congr_left
      intro j _
      exact hkeep r _ (by simp only [unetNextHeader, unetAppHeaderStart]; omega)
    · funext j
      exact hkeep r _ (by simp only [unetNextHeader, unetSrc64]; omega)
  refine ⟨h.info, h.state, fun j h1 hj => ?_, fun j h1 hj => ?_, fun hnext => ?_⟩
  · simp only [Packet.setByte_packet]
    split
    · rfl
    · exact h.sent j h1 hj
  · simp only [Packet.setByte_packet]
    split
    · rfl
    · exact h.header j h1 hj
  · rw [hkeep p _ (Nat.le_refl _)] at hnext
    rw [hkeep q _ (by decide), hkeep p _ (by decide), hdata, hdata]
    exact h.app hnext

theorem headerSet (n : Node) (type : U8) (ackReq : Bool) :
    SameUse (ieee802154HeaderSet n p type ackReq) (ieee802154HeaderSet n q type ackReq) := by
  unfold ieee802154HeaderSet
  rw [h.info]
  repeat' apply SameUse.setByte _ _ (by decide)
  exact h

theorem nextHop (n : Node) (a : U16) : SameUse (setNextHop n p a) (setNextHop n q a) := by
  unfold setNextHop ieee802154Dest16Set
  rw [h.info]
  have hinfo := h.withInfo { p.info with dest16H := hi a, dest16L := lo a } rfl
  exact hinfo.headerSet n _ _

theorem decHopLimit : SameUse p.decHopLimit q.decHopLimit := by
  unfold Packet.decHopLimit
  rw [h.header unetHopLimit (by decide) (by decide)]
  exact h.setByte _ (by decide)

theorem deliver (fromUp : Bool) (cs : List UnetTransport) :
    Unet4Cooja.deliver fromUp q cs = Unet4Cooja.deliver fromUp p cs := by
  unfold Unet4Cooja.deliver
  rw [h.header unetNextHeader (by decide) (by decide)]
  split
  · rename_i hnext
    obtain ⟨hport, hdata⟩ := h.app hnext
    have hlen := congrArg (fun d => d.payload.length) hdata
    simp only [Packet.datagram, List.length_map, List.length_range] at hlen
    have hlen : q.packet unetAppPayloadLen = p.packet unetAppPayloadLen := BitVec.eq_of_toNat_eq hlen
    have hsource : q.packet unetSourcePort = p.packet unetSourcePort :=
      congrArg Datagram.senderPort hdata
    have haddr : q.addr64At unetSrc64 = p.addr64At unetSrc64 := congrArg Datagram.senderAddress hdata
    induction cs with
    | nil => rfl
    | cons c cs ih =>
      simp only [deliverTo]
      rw [hport, hlen, hsource, haddr, ih]
  · rfl

theorem receiver (cs : List UnetTransport) (hnext : p.packet unetNextHeader = nextHeaderUnetApp) :
    q.receiver cs = p.receiver cs := by
  unfold Packet.receiver
  rw [(h.app hnext).1]

theorem routerUp (n : Node) : (unetRouterUp n q).1 = (unetRouterUp n p).1 ∧
    (unetRouterUp n q).2.1 = (unetRouterUp n p).2.1 ∧
    SameUse (unetRouterUp n p).2.2 (unetRouterUp n q).2.2 := by
  unfold unetRouterUp
  rw [h.dest64, h.header unetHopLimit (by decide) (by decide)]
  cases unetRouterUpTableEntryFind n.rtableUp (p.addr64At unetDest64) with
  | none => exact ⟨rfl, rfl, h⟩
  | some idx =>
    dsimp only
    split
    · exact ⟨rfl, rfl, h⟩
    · refine ⟨rfl, rfl, ?_⟩
      have hseq := h.decHopLimit.withInfo
        { p.decHopLimit.info with seqNum := (nodeSeqNumGetNext n).1 } rfl
      rw [h.decHopLimit.info]
      exact (hseq.nextHop _ _).withState _

theorem routerDownStart (n : Node) : (unetRouterDownStart n q).1 = (unetRouterDownStart n p).1 ∧
    (unetRouterDownStart n q).2.1 = (unetRouterDownStart n p).2.1 ∧
    SameUse (unetRouterDownStart n p).2.2 (unetRouterDownStart n q).2.2 := by
  unfold unetRouterDownStart
  rw [h.header unetHopLimit (by decide) (by decide)]
  split
  · exact ⟨rfl, rfl, h⟩
  · dsimp only
    split
    · exact ⟨rfl, rfl, h.decHopLimit⟩
    · have hseq := h.decHopLimit.withInfo
        { p.decHopLimit.info with seqNum := (nodeSeqNumGetNext n).1 } rfl
      rw [h.decHopLimit.info]
      exact ⟨rfl, rfl, hseq.withState _⟩

end SameUse

theorem headerSet_update (n : Node) (p : Packet) (v : U8) (type : U8) (ackReq : Bool) :
    ieee802154HeaderSet n (p.setByte macHeaderSize v) type ackReq =
      ieee802154HeaderSet n p type ackReq := by
  unfold ieee802154HeaderSet Packet.setByte
  simp only [Packet.mk.injEq, true_and, and_true]
  funext k
  by_cases hk : k = macHeaderSize
  · simp [hk]
  · simp [Function.update_apply, hk]

theorem linkPacketCreateAck_update (n : Node) (r : Packet) (v : U8) :
    linkPacketCreateAck n (r.setByte macHeaderSize v) = linkPacketCreateAck n r := by
  have hkeep : ∀ k, k ≠ macHeaderSize → (r.setByte macHeaderSize v).packet k = r.packet k :=
    fun k hk => Packet.setByte_of_ne _ _ hk
  have hheader : ∀ (i : PacketInfo) (w : U8),
      ieee802154HeaderSet n ⟨i, Function.update (r.setByte macHeaderSize v).packet unetPktType w,
          r.state⟩ dataFrame true =
        ieee802154HeaderSet n ⟨i, Function.update r.packet unetPktType w, r.state⟩ dataFrame true := by
    intro i w
    unfold Packet.setByte
    dsimp only
    rw [Function.update_comm (by decide)]
    exact headerSet_update n ⟨i, Function.update r.packet unetPktType w, r.state⟩ v _ _
  unfold linkPacketCreateAck
  dsimp only
  rw [hkeep _ (by decide), hkeep _ (by decide), hkeep _ (by decide), hkeep _ (by decide)]
  exact hheader _ _

theorem SameUse.createAck {p q : Packet} (h : SameUse p q) (n : Node) (ack : Packet) :
    linkPacketCreateAck n (copyAck ack q) = linkPacketCreateAck n (copyAck ack p) := by
  have hcopy : copyAck ack q = (copyAck ack p).setByte macHeaderSize (q.packet macHeaderSize) := by
    unfold copyAck Packet.setByte
    simp only [Packet.mk.injEq, h.info, true_and, and_true]
    funext k
    by_cases hk : k = macHeaderSize
    · simp [hk]
    · rw [Function.update_of_ne hk]
      split
      · exact h.header k (Nat.pos_of_ne_zero hk) (by omega)
      · rfl
  rw [hcopy, linkPacketCreateAck_update]

namespace SameEffect
variable {s t u : Sys σ} {ok : Bool}

theorem eq_with (h : SameEffect s t) :
    ∃ q q', t = { s with packetDown := q, packetUp := q' } ∧ SameUse s.packetDown q ∧
      SameUse s.packetUp q' :=
  ⟨t.packetDown, t.packetUp, h.rest, h.down, h.up⟩

theorem downAckStep (h : SameEffect s t) (hs : Unet4Cooja.downAckStep s ok = some u) :
    ∃ v, Unet4Cooja.downAckStep t ok = some v ∧ SameEffect u v := by
  obtain ⟨q, q', rfl, hd, hu⟩ := h.eq_with
  have hsrc := hd.sourceAddr16
  unfold Unet4Cooja.downAckStep at hs ⊢
  cases hpc : s.downAck with
  | wait =>
    rw [hpc] at hs
    obtain ⟨rfl, hpos, hs⟩ | ⟨_, _, hs⟩ := osSemPend_eq_some.mp hs
    · cases hs
      refine ⟨_, osSemPend_eq_some.mpr (.inl ⟨rfl, hpos, rfl⟩), hd, hu, ?_⟩
      dsimp only
      rw [hd.createAck]
    · cases hs
  | sendAck =>
    rw [hpc] at hs
    cases hs
    exact ⟨_, rfl, hd.withState _, hu, rfl⟩
  | checkDup =>
    rw [hpc] at hs
    dsimp only at hs ⊢
    rw [hd.info]
    split at hs
    · rename_i hdup
      cases hs
      rw [if_pos hdup]
      exact ⟨_, rfl, hd.withState _, hu, rfl⟩
    · rename_i hdup
      cases hs
      rw [if_neg hdup]
      exact ⟨_, rfl, hd, hu, rfl⟩
  | record =>
    rw [hpc] at hs
    cases hs
    have hseq : linkSetNeighborSeqnum s.node q = linkSetNeighborSeqnum s.node s.packetDown := by
      unfold linkSetNeighborSeqnum
      rw [hsrc, hd.info]
    refine ⟨_, rfl, hd, hu, ?_⟩
    dsimp only
    rw [hseq, hsrc]
  | decide =>
    rw [hpc] at hs
    dsimp only at hs ⊢
    rw [hd.dest64, hsrc, hd.deliver]
    split at hs
    · rename_i hown
      cases hs
      rw [if_pos hown]
      exact ⟨_, rfl, hd.withState _, hu, rfl⟩
    · rename_i hown
      cases hs
      rw [if_neg hown]
      exact ⟨_, rfl, hd, hu, rfl⟩
  | route =>
    rw [hpc] at hs
    dsimp only at hs ⊢
    obtain ⟨hres, hnode, hpkt⟩ := hd.routerDownStart s.node
    cases hp : unetRouterDownStart s.node s.packetDown with
    | mk r x =>
      cases hq : unetRouterDownStart s.node q with
      | mk r' y =>
        rw [hp, hq] at hres hnode hpkt
        obtain ⟨n, p⟩ := x
        obtain ⟨n', p'⟩ := y
        obtain rfl : r' = r := hres
        obtain rfl : n' = n := hnode
        rw [hp] at hs
        cases r' with
        | none =>
          cases hs
          exact ⟨_, rfl, hpkt.withState _, hu, rfl⟩
        | some pIdx =>
          cases hs
          exact ⟨_, rfl, hpkt, hu, rfl⟩
  | routeEnd pIdx =>
    rw [hpc] at hs
    cases hs
    exact ⟨_, rfl, hd.nextHop _ _, hu, rfl⟩
  | post =>
    rw [hpc] at hs
    cases hs
    exact ⟨_, rfl, hd, hu, rfl⟩

theorem upAckStep (h : SameEffect s t) (hs : Unet4Cooja.upAckStep s ok = some u) :
    ∃ v, Unet4Cooja.upAckStep t ok = some v ∧ SameEffect u v := by
  obtain ⟨q, q', rfl, hd, hu⟩ := h.eq_with
  unfold Unet4Cooja.upAckStep at hs ⊢
  cases hpc : s.upAck with
  | wait =>
    rw [hpc] at hs
    obtain ⟨rfl, hpos, hs⟩ | ⟨_, _, hs⟩ := osSemPend_eq_some.mp hs
    · cases hs
      refine ⟨_, osSemPend_eq_some.mpr (.inl ⟨rfl, hpos, rfl⟩), hd, hu, ?_⟩
      dsimp only
      rw [hu.createAck]
    · cases hs
  | sendAck =>
    rw [hpc] at hs
    cases hs
    exact ⟨_, rfl, hd, hu, rfl⟩
  | decide =>
    rw [hpc] at hs
    dsimp only at hs ⊢
    rw [hu.dest64, hu.sourceAddr16, hu.deliver]
    split at hs
    · rename_i hown
      cases hs
      rw [if_pos hown]
      exact ⟨_, rfl, hd, hu.withState _, rfl⟩
    · rename_i hown
      cases hs
      rw [if_neg hown]
      obtain ⟨_, hnode, hpkt⟩ := hu.routerUp s.node
      refine ⟨_, rfl, hd, hpkt, ?_⟩
      dsimp only
      rw [hnode]
  | post =>
    rw [hpc] at hs
    cases hs
    exact ⟨_, rfl, hd, hu, rfl⟩

end SameEffect

/-! ## No leak -/

/-- What a step hands to a socket: the buffer it comes from, the socket, and the data. -/
def handedOver (s : Sys σ) (a : Act σ) : Option (Bool × Option Nat × Datagram) :=
  (delivery s a).map fun d => (d.1, d.2.receiver s.sockets, d.2.datagram)

/-- A step of one of the two ack tasks, which deliver or route what has been accepted. -/
def Act.ofAckTask : Act σ → Prop
  | .downAck _ | .upAck _ => True
  | _ => False

/-- The frame `f` has the same effect and the same payload of it is delivered, whatever the receive
buffer contained before. -/
def NoLeak (σ : Type) [DecidableEq σ] (dev : DeviceType) (f : RxFrame) : Prop :=
  ∀ (s : Sys σ) (b c : Packet) (tag : Nat) (as : List (Act σ)) (t : Sys σ),
    (∀ a ∈ as, a.ofAckTask) → Runs (sysStep dev) Free (unetRadioTask dev s b f tag) as t →
      ∃ u, Runs (sysStep dev) Free (unetRadioTask dev s c f tag) as u ∧ SameEffect t u ∧
        ∀ a, handedOver u a = handedOver t a

theorem SameEffect.handedOver {s t : Sys σ} (h : SameEffect s t) (a : Act σ) :
    Unet4Cooja.handedOver t a = Unet4Cooja.handedOver s a := by
  obtain ⟨q, q', rfl, hd, hu⟩ := h.eq_with
  unfold Unet4Cooja.handedOver delivery
  cases a with
  | downAck ok =>
    dsimp only
    rw [hd.dest64, hd.header unetNextHeader (by decide) (by decide)]
    split
    · rename_i hto
      simp only [Option.map_some, hd.receiver _ hto.2.2, (hd.app hto.2.2).2]
    · rfl
  | upAck ok =>
    dsimp only
    rw [hu.dest64, hu.header unetNextHeader (by decide) (by decide)]
    split
    · rename_i hto
      simp only [Option.map_some, hu.receiver _ hto.2.2, (hu.app hto.2.2).2]
    · rfl
  | _ => rfl

theorem SameEffect.runs [DecidableEq σ] {dev : DeviceType} {s t u : Sys σ} {as : List (Act σ)}
    (h : SameEffect s t) (hack : ∀ a ∈ as, a.ofAckTask) (r : Runs (sysStep dev) Free s as u) :
    ∃ v, Runs (sysStep dev) Free t as v ∧ SameEffect u v := by
  induction r with
  | nil => exact ⟨t, .nil, h⟩
  | @snoc as u w a _ _ hs ih =>
    obtain ⟨v, rv, hv⟩ := ih fun a ha => hack a (List.mem_append_left _ ha)
    have ha := hack a (List.mem_append_right _ (List.mem_singleton_self a))
    have hstep : ∃ x, sysStep dev v a = some x ∧ SameEffect w x := by
      cases a with
      | downAck ok => exact hv.downAckStep hs
      | upAck ok => exact hv.upAckStep hs
      | _ => exact ha.elim
    obtain ⟨x, hx, he⟩ := hstep
    exact ⟨x, .snoc rv trivial hx, he⟩

theorem RxFrame.Complete.noLeak [DecidableEq σ] {dev : DeviceType} {f : RxFrame} (h : f.Complete) :
    NoLeak σ dev f := by
  intro s b c tag as t hack r
  obtain ⟨u, ru, he⟩ := (sameEffect_of_complete h s b c tag).runs hack r
  exact ⟨u, ru, he, he.handedOver⟩

theorem NoLeak.sameEffect [DecidableEq σ] {dev : DeviceType} {f : RxFrame} (h : NoLeak σ dev f)
    (s : Sys σ) (b c : Packet) (tag : Nat) :
    SameEffect (unetRadioTask dev s b f tag) (unetRadioTask dev s c f tag) := by
  obtain ⟨u, ru, he, _⟩ := h s b c tag [] _ (fun a ha => nomatch ha) .nil
  have hu := exec_of_runs ru
  cases hu
  exact he

end Unet4Cooja
