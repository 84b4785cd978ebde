import Unet4Cooja.Core.Sockets
import Unet4Cooja.Core.UpRouting

/-!
# What becomes of a route

* `RTableUp.Maps`, `RTableUp.room` : the entry of a destination, and how many new sources can be
  inserted before it is overwritten;
* `input_routes`, `otherStep_routes` : the steps that change the table.
-/

namespace Unet4Cooja
open Lib

/-! ## Entries and their age -/

section
variable {t : RTableUp} {S dest : Addr64} {e : Nat} {h nextHop : U16}

/-- The entry of `S` is entry `e`, with the next hop `h`. -/
structure RTableUp.Maps (t : RTableUp) (S : Addr64) (e : Nat) (h : U16) : Prop where
  find : unetRouterUpTableEntryFind t S = some e
  nextHop : unetRouterUpTableEntryGet t e = h

/-- The number of insertions that leave the entry of `S` alone. The next one is at `entry_index`. -/
def RTableUp.room (S : Addr64) (t : RTableUp) : Nat :=
  match unetRouterUpTableEntryFind t S with
  | some e => (e + rtableUpEntriesMaxNum - t.entryIndex) % rtableUpEntriesMaxNum
  | none => 0

theorem room_of_find (hf : unetRouterUpTableEntryFind t S = some e) :
    t.room S = (e + rtableUpEntriesMaxNum - t.entryIndex) % rtableUpEntriesMaxNum := by
  simp [RTableUp.room, hf]

theorem entryUpdate_dest (k : Nat) : ((Function.update t.table e
    { t.table e with nextHop := nextHop }) k).destAddr64 = (t.table k).destAddr64 := by
  by_cases hk : k = e
  · simp [hk]
  · simp [hk]

theorem entryAdd_index_lt (ht : t.entryIndex < rtableUpEntriesMaxNum) :
    (unetRouterUpTableEntryAdd t nextHop dest).entryIndex < rtableUpEntriesMaxNum := by
  cases hf : unetRouterUpTableEntryFind t dest with
  | some i =>
    rw [entryAdd_found hf]
    exact ht
  | none =>
    rw [entryAdd_new hf]
    exact Nat.mod_lt _ (by decide)

theorem entryAdd_maps (ht : t.entryIndex < rtableUpEntriesMaxNum) :
    ∃ e, (unetRouterUpTableEntryAdd t h S).Maps S e h := by
  cases hf : unetRouterUpTableEntryFind t S with
  | some i =>
    rw [entryAdd_found hf]
    refine ⟨i, ?_, by simp [unetRouterUpTableEntryGet]⟩
    rw [entryFind_eq_some] at hf ⊢
    simpa [entryUpdate_dest] using hf
  | none =>
    rw [entryAdd_new hf]
    rw [entryFind_eq_none] at hf
    refine ⟨t.entryIndex, ?_, by simp [unetRouterUpTableEntryGet]⟩
    rw [entryFind_eq_some]
    refine ⟨ht, by simp, fun j hj => ?_⟩
    simpa [Nat.ne_of_lt hj] using hf j (by omega)

theorem RTableUp.Maps.entryAdd (hm : t.Maps S e h) (nextHop : U16) (hne : dest ≠ S)
    (hidx : unetRouterUpTableEntryFind t dest = none → t.entryIndex ≠ e) :
    (unetRouterUpTableEntryAdd t nextHop dest).Maps S e h := by
  have hfind := entryFind_eq_some.mp hm.find
  cases hf : unetRouterUpTableEntryFind t dest with
  | some i =>
    have hie : e ≠ i := by
      rintro rfl
      exact hne ((entryFind_eq_some.mp hf).2.1.symm.trans hfind.2.1)
    rw [entryAdd_found hf]
    refine ⟨?_, ?_⟩
    · rw [entryFind_eq_some]
      simpa [entryUpdate_dest] using hfind
    · simpa [unetRouterUpTableEntryGet, hie] using hm.nextHop
  | none =>
    have hie := Ne.symm (hidx hf)
    rw [entryAdd_new hf]
    refine ⟨?_, ?_⟩
    · rw [entryFind_eq_some]
      refine ⟨hfind.1, by simpa [hie] using hfind.2.1, fun j hj => ?_⟩
      by_cases hji : j = t.entryIndex
      · simpa [hji] using hne
      · simpa [hji] using hfind.2.2 j hj
    · simpa [unetRouterUpTableEntryGet, hie] using hm.nextHop

theorem room_of_new (ht : t.entryIndex < rtableUpEntriesMaxNum)
    (hf : unetRouterUpTableEntryFind t S = none) :
    (unetRouterUpTableEntryAdd t h S).room S = rtableUpEntriesMaxNum - 1 := by
  obtain ⟨e, hm⟩ := entryAdd_maps (S := S) (h := h) ht
  have he : e = t.entryIndex := by
    have hfind := entryFind_eq_some.mp hm.find
    rw [entryAdd_new hf] at hfind
    by_contra hne
    have hdest := hfind.2.1
    simp only [Function.update_of_ne hne] at hdest
    exact entryFind_eq_none.mp hf e hfind.1 hdest
  rw [room_of_find hm.find, he, entryAdd_new hf]
  simp only [rtableUpEntriesMaxNum] at ht ⊢
  omega

theorem room_of_insert (hm : t.Maps S e h) (nextHop : U16)
    (hne : dest ≠ S) (hf : unetRouterUpTableEntryFind t dest = none) (hroom : 0 < t.room S) :
    (unetRouterUpTableEntryAdd t nextHop dest).Maps S e h ∧
      (unetRouterUpTableEntryAdd t nextHop dest).room S + 1 = t.room S := by
  have he := (entryFind_eq_some.mp hm.find).1
  rw [room_of_find hm.find] at hroom ⊢
  have hidx : t.entryIndex ≠ e := by
    intro hie
    simp [hie] at hroom
  have hm' := hm.entryAdd nextHop hne fun _ => hidx
  refine ⟨hm', ?_⟩
  rw [room_of_find hm'.find, entryAdd_new hf]
  simp only [rtableUpEntriesMaxNum] at he hroom ⊢
  omega

end

/-! ## The steps that change the table -/

def KeptOrCleared (t u : RTableUp) : Prop := u = t ∨ u = unetRouterUpTableClear t

section
variable {dev : DeviceType} (n : Node) (p : Packet)

theorem linkSetNeighborActivity_routes : (linkSetNeighborActivity n p).rtableUp = n.rtableUp := by
  unfold linkSetNeighborActivity
  split <;> rfl

theorem postLinkPacketTx_routes : n.postLinkPacketTx.rtableUp = n.rtableUp := rfl

theorem linkParentSwitch_routes (dev : DeviceType) :
    (linkParentSwitch dev n).rtableUp = n.rtableUp := by
  obtain ⟨d, idx, id, rssi, ev, he⟩ := linkParentSwitch_frame dev n
  rw [he]
  rfl

theorem resetTables_routes : n.resetTables.rtableUp = unetRouterUpTableClear n.rtableUp := by
  rw [resetTables_eq]

theorem linkNeighborReq_routes (dev : DeviceType) (i : Nat) :
    KeptOrCleared n.rtableUp (linkNeighborReq dev n i).rtableUp := by
  cases dev with
  | panCoordinator => exact .inl rfl
  | router =>
    unfold linkNeighborReq
    dsimp only
    by_cases hpar : n.parentNeighborID = (n.neighbourhood i).addr16b
    · rw [if_pos hpar]
      right
      split <;> exact resetTables_routes (n.loseParent .router)
    · rw [if_neg hpar]
      left
      split <;> rfl

theorem linkPacketProcess_routes (dev : DeviceType) :
    KeptOrCleared n.rtableUp (linkPacketProcess dev n p).rtableUp := by
  rcases linkPacketProcess_cases dev n p with ⟨_, he⟩ | ⟨i, m, _, hm, hd⟩
  · rw [he]
    exact .inl rfl
  · have hm : m.rtableUp = n.rtableUp := by rw [hm.frame]
    rw [← hm]
    generalize linkPacketProcess dev n p = r at hd ⊢
    cases hd with
    | tooMany _ => exact .inl rfl
    | adv _ _ => exact .inl (linkParentSwitch_routes m dev)
    | advReset _ _ => exact .inl ((postLinkPacketTx_routes _).trans (linkParentSwitch_routes m dev))
    | req _ _ => exact linkNeighborReq_routes m dev i
    | other _ _ => exact .inl rfl

theorem linkVerifyNeighbourhood_routes (dev : DeviceType) :
    KeptOrCleared n.rtableUp (linkVerifyNeighbourhood dev n).rtableUp := by
  have hclean : ∀ r : Node, { r with neighborTable := 0 }.rtableUp = r.rtableUp := fun _ => rfl
  have hloop : (forRange neighbourhoodSize (linkVerifyNeighbor dev) (false, n)).2.rtableUp =
      n.rtableUp := by
    apply forRange_frame fun s : Bool × Node => s.2.rtableUp
    intro i _ s
    obtain ⟨reset, m⟩ := s
    rw [linkVerifyNeighbor_eq]
    split_ifs <;> rfl
  unfold linkVerifyNeighbourhood
  generalize forRange neighbourhoodSize (linkVerifyNeighbor dev) (false, n) = s at hloop ⊢
  obtain ⟨reset, m⟩ := s
  dsimp only at hloop
  dsimp only
  rw [← hloop, hclean]
  split_ifs
  · exact .inr (resetTables_routes m)
  · exact .inl (linkParentSwitch_routes m dev)
  · exact .inl rfl

end

section
variable {σ : Type} {dev : DeviceType} {s t : Sys σ}

/-- An accepted UNICAST_DOWN packet adds the route to its source, and no other frame adds one. -/
theorem input_routes (dev : DeviceType) (s : Sys σ) (p : Packet) (tag : Nat) (crc : Bool) :
    (Accepts false s p crc → (ieee802154PacketInput dev s p tag crc).node.rtableUp =
      unetRouterUpTableEntryAdd s.node.rtableUp p.macSource (p.addr64At unetSrc64)) ∧
    (¬ Accepts false s p crc →
      KeptOrCleared s.node.rtableUp (ieee802154PacketInput dev s p tag crc).node.rtableUp) := by
  refine ⟨fun hacc => ?_, fun hno => ?_⟩
  · rw [ieee802154PacketInput_down hacc]
    exact linkSetNeighborActivity_routes _ _
  · generalize ht : ieee802154PacketInput dev s p tag crc = t
    rcases packetInput_eq ht with rfl | ⟨hsup, hcrc, hh⟩
    · exact .inl rfl
    · cases hh with
      | down htype hidle => exact absurd ⟨hsup, hcrc, htype, hidle⟩ hno
      | up _ _ => exact .inl (linkSetNeighborActivity_routes s.node (p.macInput s.node))
      | link => exact linkPacketProcess_routes s.node _ dev
      | _ => exact .inl rfl

variable {ok : Bool}

theorem downAckStep_routes (hs : downAckStep s ok = some t) : t.node.rtableUp = s.node.rtableUp :=
  (downAckStep_frame hs).1

theorem otherStep_routes [DecidableEq σ] {a : Act σ} (hs : sysStep dev s a = some t)
    (hin : ∀ p tag crc, a ≠ .input p tag crc) :
    KeptOrCleared s.node.rtableUp t.node.rtableUp ∧
      (a ≠ .verify → t.node.rtableUp = s.node.rtableUp) := by
  have hkept : t.node.rtableUp = s.node.rtableUp →
      KeptOrCleared s.node.rtableUp t.node.rtableUp ∧
        (a ≠ .verify → t.node.rtableUp = s.node.rtableUp) := fun h => ⟨.inl h, fun _ => h⟩
  cases a with
  | input p tag crc => exact absurd rfl (hin p tag crc)
  | verify =>
    cases hs
    exact ⟨linkVerifyNeighbourhood_routes s.node dev, fun h => absurd rfl h⟩
  | downAck ok => exact hkept (downAckStep_routes hs)
  | down ok => exact hkept (downStep_frame hs).1.rtableUp
  | upAck ok => exact hkept (upAckStep_frame hs).1.rtableUp
  | up ok =>
    apply hkept
    rw [upStep_frame hs]
  | link ok => exact hkept (linkTaskStep_frame hs).1.rtableUp
  | send i d => exact hkept (sendStep_frame hs).1.rtableUp

end

end Unet4Cooja
