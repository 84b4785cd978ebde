import Unet4Cooja.Link.LastId
import Unet4Cooja.Link.ParentState

/-!
# What the slots of the neighbour table hold

* `linkStep_uniqueSlots` : whatever is received, no neighbour gets a second slot;
* `FreeSlotsBlank` : a free slot has no distance and no mark;
* `LinkOp.Addressed` : the calls that leave the free slots alone (`slots_of_runs`).
-/

namespace Unet4Cooja
open Lib

/-- Every free slot has no distance, is not symmetric and not active. -/
def FreeSlotsBlank (n : Node) : Prop :=
  ∀ i < neighbourhoodSize, (n.neighbourhood i).addr16b = unusedAddr →
    (n.neighbourhood i).neighborDistance = noRouteToBasestation ∧
      (n.neighbourhood i).symmetric = false ∧ (n.neighbourhood i).active = false

/-- A packet that comes from the mark of a free slot does not find one. -/
def LinkOp.Addressed (n : Node) : LinkOp → Prop
  | .process p => p.linkAddr16 = unusedAddr → n.findNeighbor unusedAddr = none
  | .activity p => p.sourceAddr16 = unusedAddr → n.findNeighbor unusedAddr = none
  | _ => True

section
variable {dev : DeviceType} {n m : Node} {op : LinkOp} {p : Packet} {i : Nat}

/-! ## Different addresses -/

theorem UniqueSlots.of_freed (hu : UniqueSlots n) (h : ∀ j < neighbourhoodSize,
    m.neighbourhood j = n.neighbourhood j ∨ m.neighbourhood j = (n.neighbourhood j).freed) :
    UniqueSlots m := by
  refine hu.of_addr fun j hj => ?_
  rcases h j hj with he | he
  · exact .inl (by rw [he])
  · exact .inr (by rw [he]; rfl)

theorem linkPacketProcess_uniqueSlots (dev : DeviceType) (p : Packet) (hu : UniqueSlots n) :
    UniqueSlots (linkPacketProcess dev n p) := by
  rcases linkPacketProcess_cases dev n p with ⟨_, he⟩ | ⟨i, m, _, hm, hd⟩
  · rwa [he]
  · have hum := hm.uniqueSlots hu
    exact hum.of_freed fun j hj => hd.slots hj

theorem associationRequest_slot (dev : DeviceType) (n : Node) (hi : i < neighbourhoodSize) :
    (linkPacketCreateAssociationRequest dev n).neighbourhood i = (n.neighbourhood i).freed := by
  have hcreate : ∀ m : Node, (linkPacketCreate dev m).neighbourhood = m.neighbourhood := fun _ => rfl
  unfold linkPacketCreateAssociationRequest
  dsimp only
  rw [hcreate]
  exact linkNeighborTableInit_slot _ hi

theorem linkStep_uniqueSlots (hu : UniqueSlots n) (hs : linkStep dev n op = some m) : UniqueSlots m := by
  cases op with
  | process p =>
    cases hs
    exact linkPacketProcess_uniqueSlots dev p hu
  | verify =>
    cases hs
    exact hu.of_freed fun j hj => linkVerifyNeighbourhood_slots dev n hj
  | activity p =>
    cases hs
    exact hu.of_addr fun j _ => .inl ((linkSetNeighborActivity_same n p).addr j)
  | seqnum p =>
    cases hs
    exact hu.of_addr fun j _ => .inl ((linkSetNeighborSeqnum_same n p).addr j)
  | associationRequest =>
    cases hs
    exact hu.of_freed fun j hj => .inr (associationRequest_slot dev n hj)

theorem uniqueSlots_of_runs {n₀ : Node} {ok : Node → LinkOp → Prop} {ops : List LinkOp}
    (r : Runs (linkStep dev) ok (linkInit dev n₀) ops n) : UniqueSlots n :=
  r.invariant (linkInit_uniqueSlots dev n₀) fun _ _ _ hu _ hs => linkStep_uniqueSlots hu hs

/-! ## Free slots -/

theorem FreeSlotsBlank.of_slots (hb : FreeSlotsBlank n) (h : ∀ j < neighbourhoodSize,
    m.neighbourhood j = n.neighbourhood j ∨ m.neighbourhood j = (n.neighbourhood j).freed ∨
      (m.neighbourhood j).addr16b ≠ unusedAddr) : FreeSlotsBlank m := by
  intro j hj ha
  rcases h j hj with he | he | hne
  · rw [he] at ha ⊢
    exact hb j hj ha
  · rw [he]
    exact ⟨rfl, rfl, rfl⟩
  · exact absurd ha hne

theorem linkInit_freeSlotsBlank (dev : DeviceType) (n : Node) : FreeSlotsBlank (linkInit dev n) := by
  intro i hi _
  unfold linkInit
  rw [linkNeighborTableInit_slot _ hi]
  exact ⟨rfl, rfl, rfl⟩

theorem Heard.addressed (hm : Heard n p i m) (hok : (LinkOp.process p).Addressed n) :
    p.linkAddr16 ≠ unusedAddr := by
  intro ha
  have hnone := hok ha
  rcases hm.owner with ho | ⟨_, ho⟩
  · exact findNeighbor_eq_none hnone hm.slot_lt (ho.trans ha)
  · exact findNeighbor_eq_none hnone hm.slot_lt ho

theorem linkPacketProcess_freeSlotsBlank (dev : DeviceType) (hb : FreeSlotsBlank n)
    (hok : (LinkOp.process p).Addressed n) : FreeSlotsBlank (linkPacketProcess dev n p) := by
  rcases linkPacketProcess_cases dev n p with ⟨_, he⟩ | ⟨i, m, _, hm, hd⟩
  · rwa [he]
  · have hbm : FreeSlotsBlank m := by
      refine hb.of_slots fun j _ => ?_
      by_cases hji : j = i
      · rw [hji, hm.addr]
        exact .inr (.inr (hm.addressed hok))
      · exact .inl (hm.others j hji)
    apply hbm.of_slots
    intro j hj
    rcases hd.slots hj with he | he
    · exact .inl he
    · exact .inr (.inl he)

theorem linkSetNeighborActivity_freeSlotsBlank (hb : FreeSlotsBlank n)
    (hok : (LinkOp.activity p).Addressed n) : FreeSlotsBlank (linkSetNeighborActivity n p) := by
  unfold linkSetNeighborActivity
  cases hf : n.findNeighbor p.sourceAddr16 with
  | none => exact hb
  | some i =>
    obtain ⟨hi, ha⟩ := findNeighbor_eq_some hf
    refine hb.of_slots fun j _ => ?_
    by_cases hji : j = i
    · refine .inr (.inr ?_)
      intro hun
      have hsrc : p.sourceAddr16 = unusedAddr := by
        rw [← ha, ← hun, hji]
        simp [Node.markActive]
      exact findNeighbor_eq_none (hok hsrc) hi (ha.trans hsrc)
    · exact .inl (by simp [Node.markActive, hji])

theorem linkSetNeighborSeqnum_freeSlotsBlank (p : Packet) (hb : FreeSlotsBlank n) :
    FreeSlotsBlank (linkSetNeighborSeqnum n p) := by
  intro j hj ha
  unfold linkSetNeighborSeqnum at ha ⊢
  cases hf : n.findNeighbor p.sourceAddr16 with
  | none =>
    rw [hf] at ha
    exact hb j hj ha
  | some i =>
    rw [hf] at ha
    by_cases hji : j = i
    · subst hji
      simp only [Node.setNeighbor_self] at ha ⊢
      exact hb j hj ha
    · simp only [Node.setNeighbor_of_ne _ _ hji] at ha ⊢
      exact hb j hj ha

theorem linkStep_freeSlotsBlank (hb : FreeSlotsBlank n) (hok : op.Addressed n)
    (hs : linkStep dev n op = some m) : FreeSlotsBlank m := by
  cases op with
  | process p =>
    cases hs
    exact linkPacketProcess_freeSlotsBlank dev hb hok
  | verify =>
    cases hs
    refine hb.of_slots fun j hj => ?_
    rcases linkVerifyNeighbourhood_slots dev n hj with he | he
    · exact .inl he
    · exact .inr (.inl he)
  | activity p =>
    cases hs
    exact linkSetNeighborActivity_freeSlotsBlank hb hok
  | seqnum p =>
    cases hs
    exact linkSetNeighborSeqnum_freeSlotsBlank p hb
  | associationRequest =>
    cases hs
    exact hb.of_slots fun j hj => .inr (.inl (associationRequest_slot dev n hj))

/-- No neighbour has two slots and the free slots are blank, in every state that addressed calls lead to. -/
theorem slots_of_runs {n₀ : Node} {ops : List LinkOp}
    (r : Runs (linkStep dev) LinkOp.Addressed (linkInit dev n₀) ops n) :
    UniqueSlots n ∧ FreeSlotsBlank n :=
  ⟨uniqueSlots_of_runs r, r.invariant (linkInit_freeSlotsBlank dev n₀) fun _ _ _ hb hok hs =>
    linkStep_freeSlotsBlank hb hok hs⟩

end

theorem slots_of_runs_receivedAdv :
    ∃ n, linkStep .router (linkInit .router default) (.process (receivedAdv 1 0)) = some n ∧
      (n.neighbourhood 0).addr16b = 1 ∧ UniqueSlots n ∧ FreeSlotsBlank n := by
  refine ⟨linkPacketProcess .router (linkInit .router default) (receivedAdv 1 0), rfl, by decide +kernel, ?_⟩
  have hok : (LinkOp.process (receivedAdv 1 0)).Addressed (linkInit .router default) :=
    fun h => absurd h (by decide +kernel)
  have r : Runs (linkStep .router) LinkOp.Addressed (linkInit .router default)
      ([] ++ [.process (receivedAdv 1 0)])
      (linkPacketProcess .router (linkInit .router default) (receivedAdv 1 0)) := .snoc .nil hok rfl
  exact slots_of_runs r

/-- An advertisement from the mark of a free slot gives a free slot a distance. -/
theorem slots_of_runs_fails :
    ¬ ∀ n₀ ops n, Runs (linkStep .router) Free (linkInit .router n₀) ops n →
      UniqueSlots n ∧ FreeSlotsBlank n := by
  intro h
  obtain ⟨_, hb⟩ := h default [.process (receivedAdv unusedAddr 0)] _ (Runs.of_exec rfl)
  exact absurd (hb 0 (by decide) (by decide +kernel)).1 (by decide +kernel)

end Unet4Cooja
