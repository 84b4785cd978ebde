import Unet4Cooja.Link.Moves

/-!
# The last sequence number in a slot

* `FreeSlotsClear`, `UniqueSlots` : a free slot shows the sequence number 0, which no packet carries,
  and no neighbour has two slots (`UniqueSlots.of_addr`, `Heard.uniqueSlots`);
* `KeepsLast` : a change of the table that records no sequence number;
* `linkPacketProcess_keepsLast`, `linkVerifyNeighbourhood_keepsLast`,
  `linkSetNeighborActivity_keepsLast` : the changes that do not;
* `linkSetNeighborSeqnum_slot` : the one that does.
-/

namespace Unet4Cooja
open Lib

/-- Every free slot shows the sequence number 0. -/
def FreeSlotsClear (n : Node) : Prop :=
  ∀ i < neighbourhoodSize, (n.neighbourhood i).addr16b = unusedAddr →
    (n.neighbourhood i).neighborLastID = 0

def UniqueSlots (n : Node) : Prop :=
  ∀ i < neighbourhoodSize, ∀ j < neighbourhoodSize,
    (n.neighbourhood i).addr16b = (n.neighbourhood j).addr16b →
      (n.neighbourhood i).addr16b ≠ unusedAddr → i = j

/-- Slot by slot, `m` shows 0 or what `n` shows for the same neighbour; and no neighbour gets a
second slot. -/
structure KeepsLast (n m : Node) : Prop where
  last : ∀ i < neighbourhoodSize, (m.neighbourhood i).neighborLastID = 0 ∨
    ((m.neighbourhood i).addr16b = (n.neighbourhood i).addr16b ∧
      (m.neighbourhood i).neighborLastID = (n.neighbourhood i).neighborLastID)
  unique : UniqueSlots n → UniqueSlots m

section
variable {n m : Node} {p : Packet} {i : Nat}

theorem UniqueSlots.of_addr (hu : UniqueSlots n) (h : ∀ j < neighbourhoodSize,
    (m.neighbourhood j).addr16b = (n.neighbourhood j).addr16b ∨
      (m.neighbourhood j).addr16b = unusedAddr) : UniqueSlots m := by
  intro i hi j hj he hne
  have hi' := (h i hi).resolve_right hne
  have hj' := (h j hj).resolve_right (he ▸ hne)
  apply hu i hi j hj
  · rw [← hi', ← hj', he]
  · rwa [← hi']

theorem Heard.uniqueSlots (hm : Heard n p i m) (hu : UniqueSlots n) : UniqueSlots m := by
  have hother : ∀ l, l ≠ i → l < neighbourhoodSize →
      (m.neighbourhood l).addr16b = p.linkAddr16 → p.linkAddr16 ≠ unusedAddr → False := by
    intro l hl hlt hla hla'
    rw [hm.others l hl] at hla
    rcases hm.owner with ho | ⟨hnone, _⟩
    · exact hl (hu l hlt i hm.slot_lt (hla.trans ho.symm) (by rwa [hla]))
    · exact findNeighbor_eq_none hnone hlt hla
  intro j hj k hk he hne
  by_cases hji : j = i
  · by_cases hki : k = i
    · rw [hji, hki]
    · rw [hji, hm.addr] at he hne
      exact (hother k hki hk he.symm hne).elim
  · by_cases hki : k = i
    · rw [hki, hm.addr] at he
      exact (hother j hji hj he (he ▸ hne)).elim
    · rw [hm.others j hji, hm.others k hki] at he
      rw [hm.others j hji] at hne
      exact hu j hj k hk he hne

theorem KeepsLast.of_eq (h : m.neighbourhood = n.neighbourhood) : KeepsLast n m := by
  refine ⟨fun i _ => ?_, fun hu => ?_⟩
  · rw [h]
    exact .inr ⟨rfl, rfl⟩
  · unfold UniqueSlots
    rw [h]
    exact hu

theorem KeepsLast.of_freed (h : ∀ j < neighbourhoodSize, m.neighbourhood j = n.neighbourhood j ∨
    m.neighbourhood j = (n.neighbourhood j).freed) : KeepsLast n m := by
  refine ⟨fun j hj => ?_, fun hu => hu.of_addr fun j hj => ?_⟩
  · rcases h j hj with he | he
    · rw [he]
      exact .inr ⟨rfl, rfl⟩
    · rw [he]
      exact .inl rfl
  · rcases h j hj with he | he
    · rw [he]
      exact .inl rfl
    · rw [he]
      exact .inr rfl

theorem KeepsLast.trans {k : Node} (h : KeepsLast n m) (h' : KeepsLast m k) : KeepsLast n k := by
  refine ⟨fun i hi => ?_, fun hu => h'.unique (h.unique hu)⟩
  rcases h'.last i hi with h0 | ⟨ha, hl⟩
  · exact .inl h0
  · rcases h.last i hi with h0 | ⟨ha', hl'⟩
    · exact .inl (hl.trans h0)
    · exact .inr ⟨ha.trans ha', hl.trans hl'⟩

theorem FreeSlotsClear.of_keeps (h : FreeSlotsClear n) (hk : KeepsLast n m) : FreeSlotsClear m := by
  intro i hi ha
  rcases hk.last i hi with h0 | ⟨haddr, hlast⟩
  · exact h0
  · rw [hlast]
    apply h i hi
    rw [← haddr, ha]

theorem linkInit_slot (dev : DeviceType) (n : Node) (hi : i < neighbourhoodSize) :
    ((linkInit dev n).neighbourhood i).addr16b = unusedAddr ∧
      ((linkInit dev n).neighbourhood i).neighborLastID = 0 := by
  unfold linkInit
  rw [linkNeighborTableInit_slot _ hi]
  exact ⟨rfl, rfl⟩

theorem linkInit_freeSlotsClear (dev : DeviceType) (n : Node) : FreeSlotsClear (linkInit dev n) :=
  fun _ hi _ => (linkInit_slot dev n hi).2

theorem linkInit_uniqueSlots (dev : DeviceType) (n : Node) : UniqueSlots (linkInit dev n) :=
  fun _ hi _ _ _ hne => absurd (linkInit_slot dev n hi).1 hne

theorem Heard.keepsLast (hn : FreeSlotsClear n) (hm : Heard n p i m) : KeepsLast n m := by
  refine ⟨fun j hj => ?_, hm.uniqueSlots⟩
  by_cases hji : j = i
  · subst hji
    rcases hm.owner with ho | ⟨_, ho⟩
    · exact .inr ⟨hm.addr.trans ho.symm, hm.lastID⟩
    · -- a slot that was free shows 0
      exact .inl (hm.lastID.trans (hn j hj ho))
  · rw [hm.others j hji]
    exact .inr ⟨rfl, rfl⟩

theorem linkPacketProcess_keepsLast (dev : DeviceType) (hn : FreeSlotsClear n) :
    KeepsLast n (linkPacketProcess dev n p) := by
  rcases linkPacketProcess_cases dev n p with ⟨_, he⟩ | ⟨i, m, _, hm, hd⟩
  · rw [he]
    exact .of_eq rfl
  · have hkeep := hm.keepsLast hn
    apply hkeep.trans
    exact .of_freed fun j hj => hd.slots hj

theorem linkVerifyNeighbourhood_keepsLast (dev : DeviceType) (n : Node) :
    KeepsLast n (linkVerifyNeighbourhood dev n) :=
  .of_freed fun _ hj => linkVerifyNeighbourhood_slots dev n hj

theorem linkSetNeighborActivity_keepsLast (n : Node) (p : Packet) :
    KeepsLast n (linkSetNeighborActivity n p) := by
  have hslot : ∀ j, ((linkSetNeighborActivity n p).neighbourhood j).addr16b =
        (n.neighbourhood j).addr16b ∧
      ((linkSetNeighborActivity n p).neighbourhood j).neighborLastID =
        (n.neighbourhood j).neighborLastID := by
    intro j
    unfold linkSetNeighborActivity
    cases n.findNeighbor p.sourceAddr16 with
    | none => exact ⟨rfl, rfl⟩
    | some i =>
      by_cases hji : j = i
      · subst hji
        simp [Node.markActive]
      · simp [Node.markActive, hji]
  exact ⟨fun j _ => .inr (hslot j), fun hu => hu.of_addr fun j _ => .inl (hslot j).1⟩

theorem linkSetNeighborSeqnum_slot (hu : UniqueSlots n) (hne : p.sourceAddr16 ≠ unusedAddr)
    (hi : i < neighbourhoodSize) :
    (linkSetNeighborSeqnum n p).neighbourhood i =
      if (n.neighbourhood i).addr16b = p.sourceAddr16 then
        { n.neighbourhood i with neighborLastID := p.info.seqNum }
      else n.neighbourhood i := by
  unfold linkSetNeighborSeqnum
  cases hf : n.findNeighbor p.sourceAddr16 with
  | none => rw [if_neg (findNeighbor_eq_none hf hi)]
  | some j =>
    obtain ⟨hj, ha⟩ := findNeighbor_eq_some hf
    by_cases hij : i = j
    · subst hij
      rw [if_pos ha]
      exact Function.update_self ..
    · have hno : (n.neighbourhood i).addr16b ≠ p.sourceAddr16 := by
        intro he
        apply hij
        apply hu i hi j hj (he.trans ha.symm)
        rwa [he]
      rw [if_neg hno]
      exact Function.update_of_ne hij ..

theorem linkSetNeighborSeqnum_addr (n : Node) (p : Packet) (i : Nat) :
    ((linkSetNeighborSeqnum n p).neighbourhood i).addr16b = (n.neighbourhood i).addr16b :=
  (linkSetNeighborSeqnum_same n p).addr i

theorem linkPacketIsDuplicated_iff {a : U16} {seq : U8} :
    linkPacketIsDuplicated n a seq = true ↔
      ∃ i, n.findNeighbor a = some i ∧ (n.neighbourhood i).neighborLastID = seq := by
  unfold linkPacketIsDuplicated
  cases n.findNeighbor a with
  | none => simp
  | some i => simp

end

end Unet4Cooja
