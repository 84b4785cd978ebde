import Unet4Cooja.Core.Routes

/-!
# The reverse path

* `Learnt` : a router that has accepted a packet of a source, and kept the entry since;
* `reversePath` : a packet to the source goes back along the routers that accepted its packet;
* `reversePath_fails` : an entry that is only updated is as old as before.
-/

namespace Unet4Cooja
open Lib

/-! ## A router that knows the source -/

section
variable {σ : Type} [DecidableEq σ]

/-- The step accepts no packet of `S` and does not clear the table. -/
def RouteKept (dev : DeviceType) (S : Addr64) (s : Sys σ) (a : Act σ) : Prop :=
  (∀ p tag crc, a = .input p tag crc → Accepts false s p crc → p.addr64At unetSrc64 ≠ S) ∧
    ∀ t, sysStep dev s a = some t → t.node.rtableUp ≠ unetRouterUpTableClear s.node.rtableUp

/-- What an observer that counts the inserted sources notes. -/
def countInserts (s : Sys σ) (c : Nat) : Act σ → Nat
  | .input p _ crc =>
    if Accepts false s p crc ∧
        unetRouterUpTableEntryFind s.node.rtableUp (p.addr64At unetSrc64) = none then c + 1
    else c
  | _ => c

/-- `s` is a state of a router that has accepted a UNICAST_DOWN packet of `S` from the neighbour
`prev`, and none since, has not cleared its table since, and has inserted as many new sources as
`room` allows in the table after the acceptance. -/
def Learnt (dev : DeviceType) (room : RTableUp → Nat) (S : Addr64) (prev : U16) (s : Sys σ) : Prop :=
  ∃ (s₀ s₁ : Sys σ) (before after : List (Act σ)) (p : Packet) (tag : Nat),
    SysStart dev s₀ ∧ s₀.node.rtableUp.entryIndex = 0 ∧
    Runs (sysStep dev) Free s₀ before s₁ ∧
    Accepts false s₁ p true ∧ p.addr64At unetSrc64 = S ∧ p.macSource = prev ∧
    Runs (sysStep dev) (RouteKept dev S) (ieee802154PacketInput dev s₁ p tag true) after s ∧
    observe (sysStep dev) countInserts (ieee802154PacketInput dev s₁ p tag true) 0 after ≤
      room (ieee802154PacketInput dev s₁ p tag true).node.rtableUp

variable {dev : DeviceType} {s t : Sys σ} {a : Act σ} {S : Addr64} {h : U16}

theorem KeptOrCleared.index_lt {t u : RTableUp} (hk : KeptOrCleared t u)
    (ht : t.entryIndex < rtableUpEntriesMaxNum) : u.entryIndex < rtableUpEntriesMaxNum := by
  rcases hk with rfl | rfl
  · exact ht
  · rw [clear_index]
    decide

theorem sysStep_index_lt (hs : sysStep dev s a = some t)
    (ht : s.node.rtableUp.entryIndex < rtableUpEntriesMaxNum) :
    t.node.rtableUp.entryIndex < rtableUpEntriesMaxNum := by
  by_cases hin : ∃ p tag crc, a = .input p tag crc
  · obtain ⟨p, tag, crc, rfl⟩ := hin
    cases hs
    obtain ⟨hadd, hkept⟩ := input_routes dev s p tag crc
    by_cases hacc : Accepts false s p crc
    · rw [hadd hacc]
      exact entryAdd_index_lt ht
    · exact (hkept hacc).index_lt ht
  · simp only [not_exists] at hin
    exact (otherStep_routes hs hin).1.index_lt ht

/-- With `c` insertions since `room` was left, the entry of `S` still names `h`. -/
def RouteInv (S : Addr64) (h : U16) (room : Nat) (s : Sys σ) (c : Nat) : Prop :=
  c ≤ room → s.node.rtableUp.entryIndex < rtableUpEntriesMaxNum ∧
    (∃ e, s.node.rtableUp.Maps S e h) ∧ s.node.rtableUp.room S + c = room

theorem RouteInv.step {room c : Nat} (hinv : RouteInv S h room s c) (hok : RouteKept dev S s a)
    (hs : sysStep dev s a = some t) : RouteInv S h room t (countInserts s c a) := by
  have hkept : KeptOrCleared s.node.rtableUp t.node.rtableUp → RouteInv S h room t c := by
    rintro (he | he)
    · unfold RouteInv
      rwa [he]
    · exact absurd he (hok.2 t hs)
  by_cases hin : ∃ p tag crc, a = .input p tag crc
  · obtain ⟨p, tag, crc, rfl⟩ := hin
    cases hs
    obtain ⟨hadd, hno⟩ := input_routes dev s p tag crc
    by_cases hacc : Accepts false s p crc
    · have hne := hok.1 p tag crc rfl hacc
      intro hc
      rw [hadd hacc]
      cases hf : unetRouterUpTableEntryFind s.node.rtableUp (p.addr64At unetSrc64) with
      | none =>
        simp only [countInserts, hacc, hf, and_self, if_true] at hc ⊢
        obtain ⟨ht, ⟨e, hm⟩, hroom⟩ := hinv (by omega)
        obtain ⟨hm', hroom'⟩ := room_of_insert hm p.macSource hne hf (by omega)
        exact ⟨entryAdd_index_lt ht, ⟨e, hm'⟩, by omega⟩
      | some i =>
        simp only [countInserts, hacc, hf, reduceCtorEq, and_false, if_false] at hc ⊢
        obtain ⟨ht, ⟨e, hm⟩, hroom⟩ := hinv hc
        have hm' := hm.entryAdd p.macSource hne fun hnone => by simp [hf] at hnone
        refine ⟨entryAdd_index_lt ht, ⟨e, hm'⟩, ?_⟩
        rw [← hroom, room_of_find hm'.find, room_of_find hm.find, entryAdd_found hf]
    · simp only [countInserts, hacc, false_and, if_false]
      exact hkept (hno hacc)
  · simp only [not_exists] at hin
    have hc : countInserts s c a = c := by
      cases a with
      | input p tag crc => exact absurd rfl (hin p tag crc)
      | _ => rfl
    rw [hc]
    exact hkept (otherStep_routes hs hin).1

theorem Learnt.maps {prev : U16} (hl : Learnt dev (RTableUp.room S) S prev s) :
    ∃ e, s.node.rtableUp.Maps S e prev := by
  obtain ⟨s₀, s₁, before, after, p, tag, _, hidx, hbefore, hacc, rfl, rfl, hafter, hcount⟩ := hl
  have hlt : s₁.node.rtableUp.entryIndex < rtableUpEntriesMaxNum := by
    apply hbefore.invariant (I := fun s => s.node.rtableUp.entryIndex < rtableUpEntriesMaxNum)
    · rw [hidx]
      decide
    · intro _ _ _ ht _ hs
      exact sysStep_index_lt hs ht
  have hadd := (input_routes dev s₁ p tag true).1 hacc
  have hstart : RouteInv (p.addr64At unetSrc64) p.macSource
      ((ieee802154PacketInput dev s₁ p tag true).node.rtableUp.room (p.addr64At unetSrc64))
      (ieee802154PacketInput dev s₁ p tag true) 0 := by
    intro _
    rw [hadd]
    exact ⟨entryAdd_index_lt hlt, entryAdd_maps hlt, rfl⟩
  have hinv := hafter.observed hstart fun s c a t hi hok hs => hi.step hok hs
  exact (hinv hcount).2.1

end

/-! ## The way back -/

/-- With an entry for its destination and a hop limit left, a packet is sent to the entry's next
hop. -/
theorem unetRouterUp_of_maps {n : Node} {p : Packet} {e : Nat} {h : U16}
    (hm : n.rtableUp.Maps (p.addr64At unetDest64) e h) (hhop : p.packet unetHopLimit ≠ 0) :
    (unetRouterUp n p).1 = .packetSendOk ∧ (unetRouterUp n p).2.2.destAddr16 = h ∧
      (unetRouterUp n p).2.2.packet unetHopLimit = p.packet unetHopLimit - 1 ∧
      (unetRouterUp n p).2.2.addr64At unetDest64 = p.addr64At unetDest64 := by
  unfold unetRouterUp
  rw [hm.find]
  dsimp only
  rw [if_neg hhop]
  refine ⟨rfl, ?_, ?_, ?_⟩
  · rw [← hm.nextHop]
    exact bytesToShort_hi_lo _
  · rw [setNextHop_packet _ _ _ (by decide)]
    exact Packet.setByte_self p unetHopLimit _
  · funext i
    have hi : llcProto ≤ unetDest64 + i := by simp only [llcProto, unetDest64]; omega
    unfold Packet.addr64At
    rw [setNextHop_packet _ _ _ hi]
    exact Packet.setByte_of_ne _ _ (by simp only [unetHopLimit, unetDest64]; omega)

/-- A packet to `S` started at router `k` is sent to router `k - 1`, and so on to router 1 and to
`S` itself: `hop i` is the address of router `i`, and `hop 0` that of `S`. Router `i` gets the bytes
router `i + 1` transmits. -/
theorem reversePath {σ : Type} [DecidableEq σ] {k : Nat} {dev : Nat → DeviceType} {S : Addr64}
    {hop : Nat → U16} {R : Nat → Sys σ} {q : Nat → Packet}
    (hlearnt : ∀ i < k, Learnt (dev (i + 1)) (RTableUp.room S) S (hop i) (R (i + 1)))
    (hdest : (q k).addr64At unetDest64 = S) (hlimit : k ≤ ((q k).packet unetHopLimit).toNat)
    (hnext : ∀ i < k, (q i).packet = (unetRouterUp (R (i + 1)).node (q (i + 1))).2.2.packet) :
    ∀ i < k, (unetRouterUp (R (i + 1)).node (q (i + 1))).1 = .packetSendOk ∧
      (unetRouterUp (R (i + 1)).node (q (i + 1))).2.2.destAddr16 = hop i := by
  -- `d` hops after its start the packet still has its destination and a hop limit for the rest
  have hway : ∀ d i, i + d = k →
      (q i).addr64At unetDest64 = S ∧ i ≤ ((q i).packet unetHopLimit).toNat := by
    intro d
    induction d with
    | zero =>
      rintro i rfl
      exact ⟨hdest, hlimit⟩
    | succ d ih =>
      intro i hi
      obtain ⟨hS, hle⟩ := ih (i + 1) (by omega)
      obtain ⟨e, hm⟩ := (hlearnt i (by omega)).maps
      have hpos : (q (i + 1)).packet unetHopLimit ≠ 0 := by
        intro hz
        rw [hz] at hle
        exact absurd hle (by simp)
      obtain ⟨_, _, hhop, hdst⟩ := unetRouterUp_of_maps (hS ▸ hm) hpos
      have hbytes := hnext i (by omega)
      constructor
      · rw [← hS, ← hdst]
        funext j
        exact congrFun hbytes (unetDest64 + j)
      · rw [hbytes, hhop]
        bv_omega
  intro i hi
  obtain ⟨hS, hle⟩ := hway (k - (i + 1)) (i + 1) (by omega)
  obtain ⟨e, hm⟩ := (hlearnt i hi).maps
  have hpos : (q (i + 1)).packet unetHopLimit ≠ 0 := by
    intro hz
    rw [hz] at hle
    exact absurd hle (by simp)
  obtain ⟨hres, hto, _⟩ := unetRouterUp_of_maps (hS ▸ hm) hpos
  exact ⟨hres, hto⟩

/-! ## Routers on the way -/

/-- The frame of 33 bytes in which the neighbour `prev` passes on a packet of `src` for the node with
the address 0. -/
def sourceFrame (prev : U8) (src : Addr64) : Packet :=
  let p := (default : Packet) |>.setByte unetPktType unicastDown
    |>.setByte llcProto unetLlcProtoNumber |>.setAddr64 unetSrc64 src
  ieee802154HeaderSet { (default : Node) with addr16L := prev }
    { p with info := { p.info with size := 33 } } dataFrame false

section
variable (prev : U8) (src : Addr64)

theorem sourceFrame_byte {k : Nat} (hk : llcProto ≤ k) : (sourceFrame prev src).packet k =
    (((default : Packet).setByte unetPktType unicastDown).setByte llcProto
      unetLlcProtoNumber |>.setAddr64 unetSrc64 src).packet k :=
  ieee802154HeaderSet_packet _ _ _ _ hk

theorem sourceFrame_supported : (sourceFrame prev src).supported = true := by
  have hllc : (sourceFrame prev src).packet llcProto = unetLlcProtoNumber := by
    rw [sourceFrame_byte prev src (Nat.le_refl _), Packet.setAddr64_of_lt _ _ (by decide),
      Packet.setByte_self]
  have h0 : (sourceFrame prev src).packet macFrameCtrl = 0x41 := rfl
  have h1 : (sourceFrame prev src).packet (macFrameCtrl + 1) = 0x88 := rfl
  unfold Packet.supported
  rw [hllc, h0, h1]
  decide

theorem sourceFrame_type : (sourceFrame prev src).packet unetPktType = unicastDown := by
  rw [sourceFrame_byte prev src (by decide), Packet.setAddr64_of_lt _ _ (by decide),
    Packet.setByte_of_ne _ _ (by decide), Packet.setByte_self]

theorem sourceFrame_src : (sourceFrame prev src).addr64At unetSrc64 = src := by
  funext i
  unfold Packet.addr64At
  rw [sourceFrame_byte prev src (by simp only [llcProto, unetSrc64]; omega)]
  simp [Packet.setAddr64]

theorem sourceFrame_dest : (sourceFrame prev src).addr64At unetDest64 = fun _ => 0 := by
  funext i
  unfold Packet.addr64At
  rw [sourceFrame_byte prev src (by simp only [llcProto, unetDest64]; omega),
    Packet.setAddr64_of_ge _ _ (by simp only [unetSrc64, unetDest64]; omega),
    Packet.setByte_of_ne _ _ (by simp only [llcProto, unetDest64]; omega),
    Packet.setByte_of_ne _ _ (by simp only [unetPktType, unetDest64]; omega)]
  rfl

theorem sourceFrame_duplicated (n : Node) :
    ((sourceFrame prev src).macInput n).info.duplicated = false := by
  have hfc : (sourceFrame prev src).packet macFrameCtrl = 0x41 := rfl
  have h0 : (sourceFrame prev src).ackRequest = false := by
    unfold Packet.ackRequest FrameControl.ackRequest
    rw [hfc]
    show BitVec.getLsbD (0x41 : U8) 5 = false
    decide
  exact Bool.and_eq_false_imp.mpr fun h => absurd (h.symm.trans h0) (by decide)

theorem sourceFrame_macSource : (sourceFrame prev src).macSource = bytesToShort 0 prev := rfl

end

/-- The node 0 has no packet in `packet_down`, and the ack task waits for one. -/
structure Ready (s : Sys (Fin 1)) : Prop where
  idle : s.packetDown.state = .idle
  waits : s.downAck = .wait
  requests : s.routerDownAckRequest = 0
  addr64 : s.node.addr64 = fun _ => 0

structure AcceptedOwn (s : Sys (Fin 1)) : Prop where
  waits : s.downAck = .wait
  requests : s.routerDownAckRequest = 1
  fresh : s.packetDown.info.duplicated = false
  own : s.packetDown.addr64At unetDest64 = fun _ => 0
  addr64 : s.node.addr64 = fun _ => 0

namespace Ready
variable {s : Sys (Fin 1)} (h : Ready s) (dev : DeviceType) (prev : U8) (src : Addr64)
include h

theorem accepts : Accepts false s (sourceFrame prev src) true :=
  ⟨sourceFrame_supported prev src, rfl, sourceFrame_type prev src, h.idle⟩

theorem received (tag : Nat) :
    AcceptedOwn (ieee802154PacketInput dev s (sourceFrame prev src) tag true) := by
  rw [ieee802154PacketInput_down (h.accepts prev src)]
  refine ⟨h.waits, ?_, sourceFrame_duplicated prev src s.node, sourceFrame_dest prev src, ?_⟩
  · show osSemPost s.routerDownAckRequest = 1
    rw [h.requests]
    rfl
  · show (linkSetNeighborActivity _ _).addr64 = _
    unfold linkSetNeighborActivity
    split <;> exact h.addr64

end Ready

theorem AcceptedOwn.acked {s : Sys (Fin 1)} (h : AcceptedOwn s) (dev : DeviceType) :
    ∃ t, exec (sysStep dev) s (List.replicate 5 (.downAck true)) = some t ∧ Ready t ∧
      t.node.rtableUp = s.node.rtableUp := by
  obtain ⟨s₁, h₁, pc₁, r₁, p₁, n₁⟩ : ∃ s₁, downAckStep s true = some s₁ ∧ s₁.downAck = .sendAck ∧
      s₁.routerDownAckRequest = 0 ∧ s₁.packetDown = s.packetDown ∧ s₁.node = s.node := by
    unfold downAckStep
    rw [h.waits, h.requests]
    exact ⟨_, rfl, rfl, rfl, rfl, rfl⟩
  obtain ⟨s₂, h₂, pc₂, r₂, i₂, p₂, n₂⟩ : ∃ s₂, downAckStep s₁ true = some s₂ ∧
      s₂.downAck = .checkDup ∧ s₂.routerDownAckRequest = 0 ∧
      s₂.packetDown.info = s.packetDown.info ∧
      s₂.packetDown.packet = s.packetDown.packet ∧ s₂.node = s.node := by
    unfold downAckStep
    rw [pc₁]
    exact ⟨_, rfl, rfl, r₁, by rw [← p₁], by rw [← p₁], n₁⟩
  obtain ⟨s₃, h₃, pc₃, r₃, p₃, n₃⟩ : ∃ s₃, downAckStep s₂ true = some s₃ ∧ s₃.downAck = .record ∧
      s₃.routerDownAckRequest = 0 ∧ s₃.packetDown.packet = s.packetDown.packet ∧
      s₃.node = s.node := by
    unfold downAckStep
    rw [pc₂]
    dsimp only
    rw [i₂, h.fresh]
    exact ⟨_, rfl, rfl, r₂, p₂, n₂⟩
  obtain ⟨s₄, h₄, pc₄, r₄, p₄, n₄⟩ : ∃ s₄, downAckStep s₃ true = some s₄ ∧ s₄.downAck = .decide ∧
      s₄.routerDownAckRequest = 0 ∧ s₄.packetDown.packet = s.packetDown.packet ∧
      s₄.node.addr64 = s.node.addr64 := by
    unfold downAckStep
    rw [pc₃]
    refine ⟨_, rfl, rfl, r₃, p₃, ?_⟩
    show (linkSetNeighborSeqnum _ _).addr64 = _
    unfold linkSetNeighborSeqnum
    rw [n₃]
    split <;> rfl
  have hown : s₄.packetDown.addr64At unetDest64 = s₄.node.addr64 := by
    rw [n₄, h.addr64, ← h.own]
    unfold Packet.addr64At
    rw [p₄]
  obtain ⟨t, ht, ready⟩ : ∃ t, downAckStep s₄ true = some t ∧ Ready t := by
    unfold downAckStep
    rw [pc₄]
    dsimp only
    rw [if_pos hown]
    exact ⟨_, rfl, rfl, rfl, r₄, n₄.trans h.addr64⟩
  refine ⟨t, ?_, ready, ?_⟩
  on_goal 2 => rw [downAckStep_routes ht, downAckStep_routes h₄, downAckStep_routes h₃,
    downAckStep_routes h₂, downAckStep_routes h₁]
  simp [List.replicate, exec, sysStep, h₁, h₂, h₃, h₄, ht]

theorem AcceptedOwn.acked_runs {s : Sys (Fin 1)} (h : AcceptedOwn s) (dev : DeviceType) (S : Addr64)
    (hne : s.node.rtableUp ≠ unetRouterUpTableClear s.node.rtableUp) :
    ∃ t, Runs (sysStep dev) (RouteKept dev S) s (List.replicate 5 (.downAck true)) t ∧ Ready t ∧
      t.node.rtableUp = s.node.rtableUp := by
  obtain ⟨t, ht, ready, he⟩ := h.acked dev
  refine ⟨t, ((Runs.of_exec ht).guarded_of (I := fun u => u.node.rtableUp = s.node.rtableUp)
    (A := fun a => a = .downAck true) rfl (fun a ha => List.eq_of_mem_replicate ha) ?_).2, ready, he⟩
  rintro u _ v hu rfl hs
  have hv := downAckStep_routes (s := u) (t := v) hs
  refine ⟨hv.trans hu, nofun, fun w hw => ?_⟩
  rw [downAckStep_routes (s := u) (t := w) hw, hu]
  exact hne

def nthSource (n : Nat) : Addr64 := fun _ => BitVec.ofNat 8 (n + 1)

theorem nthSource_ne_zero {n : Nat} (hn : n < 255) : nthSource n ≠ fun _ => 0 := by
  intro h
  have h0 : BitVec.ofNat 8 (n + 1) = 0 := congrFun h 0
  bv_omega

theorem nthSource_inj {m n : Nat} (hm : m < 255) (hn : n < 255) (h : nthSource m = nthSource n) :
    m = n := by
  have h0 := congrArg BitVec.toNat (congrFun h 0)
  simp only [nthSource, BitVec.toNat_ofNat] at h0
  omega

/-- The first `n` sources have been inserted into the empty table. -/
structure Filled (n : Nat) (t : RTableUp) : Prop where
  index : t.entryIndex = n % rtableUpEntriesMaxNum
  dest : ∀ k < rtableUpEntriesMaxNum,
    (t.table k).destAddr64 = if k < n then nthSource k else fun _ => 0

namespace Filled
variable {n m : Nat} {t : RTableUp} (h : Filled n t)
include h

theorem find_new (hm : n ≤ m) (hlt : m < 255) :
    unetRouterUpTableEntryFind t (nthSource m) = none := by
  rw [entryFind_eq_none]
  intro k hk
  rw [h.dest k hk]
  split
  · intro he
    have := nthSource_inj (by omega) hlt he
    omega
  · exact (nthSource_ne_zero hlt).symm

theorem insert (hn : n < rtableUpEntriesMaxNum) (nextHop : U16) :
    Filled (n + 1) (unetRouterUpTableEntryAdd t nextHop (nthSource n)) := by
  have hnew := h.find_new (Nat.le_refl n) (Nat.lt_trans hn (by decide))
  rw [entryAdd_new hnew]
  have hi : t.entryIndex = n := by rw [h.index, Nat.mod_eq_of_lt hn]
  refine ⟨by rw [hi], fun k hk => ?_⟩
  rw [hi]
  by_cases hkn : k = n
  · simp [hkn]
  · have hlt : k < n + 1 ↔ k < n := by omega
    simp only [Function.update_of_ne hkn, hlt]
    exact h.dest k hk

end Filled

theorem ready_startedSys : Ready (startedSys .router (Fin 1)) := ⟨rfl, rfl, rfl, rfl⟩

theorem filled_runs {n : Nat} (hn : n ≤ rtableUpEntriesMaxNum) :
    ∃ as s, Runs (sysStep .router) Free (startedSys .router (Fin 1)) as s ∧ Ready s ∧
      Filled n s.node.rtableUp := by
  induction n with
  | zero => exact ⟨[], _, .nil, ready_startedSys, rfl, fun _ _ => rfl⟩
  | succ n ih =>
    obtain ⟨as, s, r, ready, hfilled⟩ := ih (Nat.le_of_succ_le hn)
    have hacc := ready.accepts 2 (nthSource n)
    have hadd := (input_routes .router s (sourceFrame 2 (nthSource n)) 0 true).1 hacc
    rw [sourceFrame_src] at hadd
    obtain ⟨t, ht, ready', hkept⟩ := (ready.received .router 2 (nthSource n) 0).acked .router
    have r' := (Runs.snoc (a := .input (sourceFrame 2 (nthSource n)) 0 true) r trivial rfl).trans
      (Runs.of_exec ht)
    refine ⟨_, t, r', ready', ?_⟩
    rw [hkept, hadd]
    exact hfilled.insert hn _

theorem RTableUp.Maps.not_clear {t u : RTableUp} {S : Addr64} {e : Nat} {h : U16}
    (hm : t.Maps S e h) (hS : S ≠ fun _ => 0) : t ≠ unetRouterUpTableClear u := by
  rintro rfl
  obtain ⟨he, hdest, _⟩ := entryFind_eq_some.mp hm.find
  rw [unetRouterUpTableClear_table he] at hdest
  exact hS hdest.symm

/-- With `n` sources in its table a router accepts a packet of the first one from `prev`, and then
one of the source `m`. -/
theorem learnt_run {n m : Nat} (hn : n ≤ rtableUpEntriesMaxNum) (hm : 0 < m) (hlt : m < 255) (prev : U8)
    (room : RTableUp → Nat) (hroom : ∀ t, Filled n t →
      6 ≤ room (unetRouterUpTableEntryAdd t (bytesToShort 0 prev) (nthSource 0))) :
    ∃ (t : RTableUp) (s : Sys (Fin 1)), Filled n t ∧ Learnt .router room (nthSource 0) (bytesToShort 0 prev) s ∧
      s.node.rtableUp = unetRouterUpTableEntryAdd
        (unetRouterUpTableEntryAdd t (bytesToShort 0 prev) (nthSource 0)) (bytesToShort 0 2)
        (nthSource m) := by
  obtain ⟨before, s₁, r₁, ready, hfilled⟩ := filled_runs hn
  have hadd := (input_routes .router s₁ (sourceFrame prev (nthSource 0)) 0 true).1
    (ready.accepts prev (nthSource 0))
  rw [sourceFrame_src, sourceFrame_macSource] at hadd
  have hidx : s₁.node.rtableUp.entryIndex < rtableUpEntriesMaxNum := by
    rw [hfilled.index]
    exact Nat.mod_lt _ (by decide)
  obtain ⟨_, hmaps⟩ := entryAdd_maps (S := nthSource 0) (h := bytesToShort 0 prev) hidx
  have hacc := ready.received .router prev (nthSource 0) 0
  generalize ht : ieee802154PacketInput .router s₁ (sourceFrame prev (nthSource 0)) 0 true = t
    at hadd hacc
  obtain ⟨s₂, r₂, ready₂, he⟩ := hacc.acked_runs .router (nthSource 0)
    (hadd ▸ hmaps.not_clear (nthSource_ne_zero (by decide)))
  have hadd₂ := (input_routes .router s₂ (sourceFrame 2 (nthSource m)) 1 true).1
    (ready₂.accepts 2 (nthSource m))
  rw [sourceFrame_src, sourceFrame_macSource, he, hadd] at hadd₂
  have hidx₂ : (unetRouterUpTableEntryAdd s₁.node.rtableUp (bytesToShort 0 prev)
      (nthSource 0)).entryIndex < rtableUpEntriesMaxNum := entryAdd_index_lt hidx
  obtain ⟨_, hmaps₂⟩ := entryAdd_maps (S := nthSource m) (h := bytesToShort 0 2) hidx₂
  have hkept : RouteKept .router (nthSource 0) s₂ (.input (sourceFrame 2 (nthSource m)) 1 true) := by
    refine ⟨fun p tag crc hp _ => ?_, fun u hu => ?_⟩
    · cases hp
      rw [sourceFrame_src]
      intro h0
      exact absurd (nthSource_inj hlt (by decide) h0) (Nat.ne_of_gt hm)
    · cases hu
      rw [hadd₂]
      exact hmaps₂.not_clear (nthSource_ne_zero hlt)
  refine ⟨s₁.node.rtableUp, _, hfilled, ?_, hadd₂⟩
  let after : List (Act (Fin 1)) :=
    List.replicate 5 (.downAck true) ++ [.input (sourceFrame 2 (nthSource m)) 1 true]
  refine ⟨_, s₁, before, after, sourceFrame prev (nthSource 0), 0, startedSys_start _ _, rfl, r₁,
    ready.accepts prev _, sourceFrame_src .., sourceFrame_macSource .., ?_, ?_⟩
  · rw [ht]
    exact .snoc r₂ hkept rfl
  · rw [ht, hadd]
    refine Nat.le_trans (observe_le_length (fun s c a => ?_) t 0 _) (hroom _ hfilled)
    unfold countInserts
    cases a with
    | input p tag crc =>
      dsimp only
      split <;> omega
    | _ => exact Nat.le_succ c

/-- The packet a router with the state `s` makes of `q`. -/
def passedOn (s : Sys (Fin 1)) (q : Packet) : Packet := (unetRouterUp s.node q).2.2

/-- A packet of the application for the first source, with the hop limit 2. -/
def upPacket : Packet :=
  ((default : Packet).setAddr64 unetDest64 (nthSource 0)).setByte unetHopLimit 2

theorem upPacket_dest : upPacket.addr64At unetDest64 = nthSource 0 := by
  funext i
  have hi : (unetDest64 + i : Nat) ≠ unetHopLimit := by simp only [unetHopLimit, unetDest64]; omega
  unfold upPacket Packet.addr64At
  rw [Packet.setByte_of_ne _ _ hi]
  simp [Packet.setAddr64]

/-- Two routers learn the source 5, and a packet for it goes back over both. -/
theorem reversePath_two :
    ∃ R : Nat → Sys (Fin 1), ∃ q : Nat → Packet, q 2 = upPacket ∧
      (q 1).packet = (unetRouterUp (R 2).node (q 2)).2.2.packet ∧
      (unetRouterUp (R 2).node (q 2)).2.2.destAddr16 = 1 ∧
      (unetRouterUp (R 1).node (q 1)).2.2.destAddr16 = 5 := by
  have hroom : ∀ (prev : U8) (t : RTableUp), Filled 0 t →
      6 ≤ (unetRouterUpTableEntryAdd t (bytesToShort 0 prev) (nthSource 0)).room (nthSource 0) := by
    intro prev t hfilled
    have hidx : t.entryIndex < rtableUpEntriesMaxNum := by rw [hfilled.index]; decide
    rw [room_of_new hidx (hfilled.find_new (Nat.le_refl 0) (by decide))]
    decide
  obtain ⟨_, s₁, _, h₁, _⟩ := learnt_run (Nat.zero_le _) Nat.one_pos (by decide) 5 _ (hroom 5)
  obtain ⟨_, s₂, _, h₂, _⟩ := learnt_run (Nat.zero_le _) Nat.one_pos (by decide) 1 _ (hroom 1)
  let R : Nat → Sys (Fin 1) := fun i => if i = 1 then s₁ else s₂
  let q : Nat → Packet := fun i =>
    if i = 2 then upPacket
    else if i = 1 then passedOn s₂ upPacket else passedOn s₁ (passedOn s₂ upPacket)
  let hop : Nat → U16 := fun i => if i = 0 then bytesToShort 0 5 else bytesToShort 0 1
  have hpath := @reversePath (Fin 1) _ 2 (fun _ => .router) (nthSource 0) hop R q
    (fun i hi => by
      obtain rfl | rfl : i = 0 ∨ i = 1 := by omega
      · exact h₁
      · exact h₂)
    upPacket_dest (show 2 ≤ (upPacket.packet unetHopLimit).toNat by decide) (fun i hi => by
      obtain rfl | rfl : i = 0 ∨ i = 1 := by omega
      · rfl
      · rfl)
  exact ⟨R, q, rfl, rfl, (hpath 1 (by decide)).2, (hpath 0 (by decide)).2⟩

/-- The first of 100 sources keeps the oldest entry although a packet of it has just been accepted,
so the next new source overwrites it. -/
theorem reversePath_fails :
    ¬ ∀ (k : Nat) (dev : Nat → DeviceType) (S : Addr64) (hop : Nat → U16) (R : Nat → Sys (Fin 1))
      (q : Nat → Packet), S ≠ (fun _ => 0) →
      (∀ i < k, Learnt (dev (i + 1)) (fun _ => 99) S (hop i) (R (i + 1))) →
      (q k).addr64At unetDest64 = S → k ≤ ((q k).packet unetHopLimit).toNat →
      (∀ i < k, (q i).packet = (unetRouterUp (R (i + 1)).node (q (i + 1))).2.2.packet) →
      ∀ i < k, (unetRouterUp (R (i + 1)).node (q (i + 1))).1 = .packetSendOk ∧
        (unetRouterUp (R (i + 1)).node (q (i + 1))).2.2.destAddr16 = hop i := by
  intro h
  obtain ⟨t, s, hfilled, hl, hs⟩ := learnt_run (n := 100) (m := 100) (Nat.le_refl _)
    (by decide) (by decide) 5 (fun _ => 99) fun _ _ => by decide
  have hsend := h 1 (fun _ => .router) (nthSource 0) (fun _ => bytesToShort 0 5) (fun _ => s)
    (fun i => if i = 1 then upPacket else passedOn s upPacket) (nthSource_ne_zero (by decide))
    (fun _ _ => hl) upPacket_dest (show 1 ≤ (upPacket.packet unetHopLimit).toNat by decide)
    (fun i hi => by
      obtain rfl : i = 0 := by omega
      rfl) 0 (by decide)
  have hsend : (unetRouterUp s.node upPacket).1 = .packetSendOk := hsend.1
  -- the entry of the first source is at index 0, where the next one is inserted
  have hnone : unetRouterUpTableEntryFind s.node.rtableUp (nthSource 0) = none := by
    have hfirst : unetRouterUpTableEntryFind t (nthSource 0) = some 0 := by
      rw [entryFind_eq_some]
      refine ⟨by decide, ?_, by simp⟩
      rw [hfilled.dest 0 (by decide)]
      rfl
    have hlast := hfilled.find_new (m := 100) (Nat.le_refl _) (by decide)
    rw [hs, entryAdd_found hfirst, entryAdd_new]
    · rw [entryFind_eq_none]
      intro k hk he
      have hidx : t.entryIndex = 0 := hfilled.index
      simp only [hidx] at he
      by_cases hk0 : k = 0
      · subst hk0
        rw [Function.update_self] at he
        exact absurd (nthSource_inj (by decide) (by decide) he) (by decide)
      · rw [Function.update_of_ne hk0, Function.update_of_ne hk0, hfilled.dest k hk,
          if_pos hk] at he
        exact hk0 (nthSource_inj (Nat.lt_trans hk (by decide)) (by decide) he)
    · rw [entryFind_eq_none] at hlast ⊢
      simpa only [entryUpdate_dest] using hlast
  unfold unetRouterUp at hsend
  rw [upPacket_dest, hnone] at hsend
  cases hsend

end Unet4Cooja
