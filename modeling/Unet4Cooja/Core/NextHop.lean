import Unet4Cooja.Core.Forward

/-!
# A routing decision that fails (`unet_router.c`)

* `unetRouterDown` : the two halves of `unet_router_down` in one;
* `Untouched`, `SentTo` : what a failed and a successful decision leave behind;
* `UpDecides`, `DownDecides` : a failed decision changes nothing, a successful one sends the packet on;
* `unetRouterUp_decides`, `unetRouterDown_decides` : the first router does so in every state, the second
  unless it takes a hop and then finds no parent;
* `decides_iff`, `decides_fails` : both routers.
-/

namespace Unet4Cooja
open Lib

/-- `unet_router_down`. The result is `none` where `link_neighbor_table_addr16_get` never returns: its
`REQUIRE_FOREVER` wants an index of the table. -/
def unetRouterDown (n : Node) (p : Packet) : Option Bool × Node × Packet :=
  match unetRouterDownStart n p with
  | (none, n, p) => (some false, n, p)
  | (some pIdx, n, p) =>
    if pIdx.toNat < neighbourhoodSize then (some true, n, unetRouterDownFinish n p pIdx)
    else (none, n, p)

/-- The decision has changed nothing in the packet and has taken no sequence number. -/
structure Untouched (n : Node) (p : Packet) (n' : Node) (p' : Packet) : Prop where
  packet : p'.packet = p.packet
  info : p'.info = p.info
  state : p'.state = p.state
  seqNum : n'.seqNum = n.seqNum

/-- The packet has one hop less, and a MAC header with a new sequence number and the next hop. -/
structure SentTo (nextHop : U16) (n : Node) (p : Packet) (n' : Node) (p' : Packet) : Prop where
  hopLimit : (p'.packet unetHopLimit).toNat + 1 = (p.packet unetHopLimit).toNat
  taken : n'.seqNum = (nodeSeqNumGetNext n).1
  fresh : n'.seqNum ≠ n.seqNum
  seqNum : p'.packet macSeqNum = n'.seqNum
  dest16 : bytesToShort (p'.packet (macDest16 + 1)) (p'.packet macDest16) = nextHop

/-- `unet_router_up` fails without a trace, or sends the packet to the next hop of the entry of its
destination. -/
def UpDecides (n : Node) (p : Packet) : Prop :=
  ∀ r n' p', unetRouterUp n p = (r, n', p') →
    if r = .packetSendOk then
      ∃ e, unetRouterUpTableEntryFind n.rtableUp (p.addr64At unetDest64) = some e ∧
        SentTo (unetRouterUpTableEntryGet n.rtableUp e) n p n' p'
    else Untouched n p n' p'

/-- `unet_router_down` fails without a trace, or sends the packet to the parent. -/
def DownDecides (n : Node) (p : Packet) : Prop :=
  ∀ r n' p', unetRouterDown n p = (some r, n', p') →
    if r = true then SentTo (linkGetParentAddr16 n) n p n' p' else Untouched n p n' p'

section
variable {n : Node} {p : Packet}

theorem decHopLimit_toNat (h : p.packet unetHopLimit ≠ 0) :
    (p.decHopLimit.packet unetHopLimit).toNat + 1 = (p.packet unetHopLimit).toNat := by
  unfold Packet.decHopLimit
  rw [Packet.setByte_self]
  bv_omega

theorem bump_ne (c : U8) : bump c ≠ c := by
  unfold bump
  split <;> bv_omega

theorem setNextHop_macSeqNum (n : Node) (p : Packet) (nextHop : U16) :
    (setNextHop n p nextHop).packet macSeqNum = p.info.seqNum := rfl

theorem setNextHop_macDest16 (n : Node) (p : Packet) (nextHop : U16) :
    bytesToShort ((setNextHop n p nextHop).packet (macDest16 + 1))
      ((setNextHop n p nextHop).packet macDest16) = nextHop :=
  bytesToShort_hi_lo nextHop

theorem Untouched.refl (n : Node) (p : Packet) : Untouched n p n p := ⟨rfl, rfl, rfl, rfl⟩

/-- Both routers send a packet this way: one hop less, the next sequence number, the MAC header. -/
theorem SentTo.of_setNextHop {n' : Node} {p' q : Packet} {nextHop : U16}
    (hhop : p.packet unetHopLimit ≠ 0) (hpacket : q.packet = p.decHopLimit.packet)
    (hseq : q.info.seqNum = (nodeSeqNumGetNext n).1) (hn : n'.seqNum = (nodeSeqNumGetNext n).1)
    (hp' : p'.packet = (setNextHop n' q nextHop).packet) : SentTo nextHop n p n' p' where
  hopLimit := by
    rw [hp', setNextHop_packet _ _ _ (by decide), hpacket]
    exact decHopLimit_toNat hhop
  taken := hn
  fresh := by
    rw [hn]
    exact bump_ne n.seqNum
  seqNum := by
    rw [hp', setNextHop_macSeqNum, hseq, hn]
  dest16 := by
    rw [hp']
    exact setNextHop_macDest16 n' q nextHop

theorem unetRouterUp_decides (n : Node) (p : Packet) : UpDecides n p := by
  intro r n' p' h
  unfold unetRouterUp at h
  split at h
  · cases h
    exact Untouched.refl n p
  · rename_i e he
    by_cases hhop : p.packet unetHopLimit = 0
    · rw [if_pos hhop] at h
      cases h
      exact Untouched.refl n p
    · rw [if_neg hhop] at h
      cases h
      refine ⟨e, he, ?_⟩
      apply SentTo.of_setNextHop
        (q := { p.decHopLimit with info := { p.decHopLimit.info with seqNum := bump n.seqNum } }) hhop
      · rfl
      · rfl
      · rfl
      · rfl

/-! ## `unet_router_down` -/

theorem unetRouterDown_used (h : p.packet unetHopLimit = 0) :
    unetRouterDown n p = (some false, n, p) := by
  unfold unetRouterDown unetRouterDownStart
  rw [if_pos h]

theorem unetRouterDown_noParent (h : p.packet unetHopLimit ≠ 0) (hp : n.parentIndex = noParent) :
    unetRouterDown n p = (some false, n, p.decHopLimit) := by
  unfold unetRouterDown unetRouterDownStart
  rw [if_neg h]
  dsimp only
  rw [if_pos hp]

/-- The packet `unet_router_down` has taken a hop and a sequence number for. -/
def downTaken (n : Node) (p : Packet) : Packet :=
  { p.decHopLimit with
    info := { p.decHopLimit.info with seqNum := (nodeSeqNumGetNext n).1 }, state := .inRoute }

theorem unetRouterDown_parent (h : p.packet unetHopLimit ≠ 0) (hp : n.parentIndex ≠ noParent) :
    unetRouterDown n p =
      if n.parentIndex.toNat < neighbourhoodSize then
        (some true, (nodeSeqNumGetNext n).2,
          unetRouterDownFinish (nodeSeqNumGetNext n).2 (downTaken n p) n.parentIndex)
      else (none, (nodeSeqNumGetNext n).2, downTaken n p) := by
  unfold unetRouterDown unetRouterDownStart
  rw [if_neg h]
  dsimp only
  rw [if_neg hp]
  rfl

theorem unetRouterDown_sent (h : p.packet unetHopLimit ≠ 0) (hp : n.parentIndex ≠ noParent)
    {r : Bool} {n' : Node} {p' : Packet} (hr : unetRouterDown n p = (some r, n', p')) :
    r = true ∧ SentTo (linkGetParentAddr16 n) n p n' p' := by
  rw [unetRouterDown_parent h hp] at hr
  split at hr
  · cases hr
    refine ⟨rfl, ?_⟩
    apply SentTo.of_setNextHop (q := downTaken n p) h
    · rfl
    · rfl
    · rfl
    · rfl
  · cases hr

theorem not_untouched_decHopLimit (h : p.packet unetHopLimit ≠ 0) :
    ¬Untouched n p n p.decHopLimit := by
  intro hu
  have hdec := decHopLimit_toNat h
  rw [hu.packet] at hdec
  omega

theorem unetRouterDown_decides :
    DownDecides n p ↔ p.packet unetHopLimit = 0 ∨ n.parentIndex ≠ noParent := by
  constructor
  · intro hd
    by_contra hc
    obtain ⟨hhop, hpar⟩ := not_or.mp hc
    have hu := hd false n p.decHopLimit (unetRouterDown_noParent hhop (not_not.mp hpar))
    rw [if_neg Bool.false_ne_true] at hu
    exact not_untouched_decHopLimit hhop hu
  · intro hc r n' p' hr
    by_cases hhop : p.packet unetHopLimit = 0
    · rw [unetRouterDown_used hhop] at hr
      cases hr
      exact Untouched.refl n p
    · obtain ⟨rfl, hsent⟩ := unetRouterDown_sent hhop (hc.resolve_left hhop) hr
      exact hsent

end

/-- Failed decisions change nothing and successful ones send the packet on, exactly unless
`packet_down` has a hop left and the node no parent. -/
theorem decides_iff (n : Node) (up down : Packet) :
    UpDecides n up ∧ DownDecides n down ↔
      down.packet unetHopLimit = 0 ∨ n.parentIndex ≠ noParent := by
  rw [unetRouterDown_decides]
  exact and_iff_right (unetRouterUp_decides n up)

/-- A node without a parent and a packet with five hops left. -/
theorem decides_fails :
    ¬∀ (n : Node) (up down : Packet), UpDecides n up ∧ DownDecides n down := by
  intro h
  have hd := (h { (default : Node) with parentIndex := noParent } default
    { (default : Packet) with packet := fun _ => 5 }).2
  rcases unetRouterDown_decides.mp hd with hhop | hpar
  · revert hhop
    decide
  · exact hpar rfl

end Unet4Cooja
