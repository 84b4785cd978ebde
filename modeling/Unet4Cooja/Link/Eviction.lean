import Unet4Cooja.Link.Slots
import Unet4Cooja.Link.Symmetry

/-!
# A parent that falls silent

* `VerifiedBelow`, `verifyLoop_verified` : the loop of `link_verify_neighbourhood` in closed form;
* `TablesReset`, `SilentParent`, `NothingToReset` : both tables as at the start, and when a check leaves
  them so;
* `tablesReset_verify` : a check that frees the parent's slot resets them if and only if a symmetric parent was
  silent or nothing is left to reset;
* `silentParent_of_runs`, `tablesReset_of_runs` : the same for every state of a router; while its calls are regular,
  a silent parent is symmetric.
-/

namespace Unet4Cooja
open Lib

/-- Both tables are in their initial state, and the node has no parent and no depth. -/
structure TablesReset (n : Node) : Prop where
  slots : ∀ i < neighbourhoodSize, n.neighbourhood i = (n.neighbourhood i).freed
  routes : unetRouterUpTableClear n.rtableUp = n.rtableUp
  parentIndex : n.parentIndex = noParent
  distance : n.distance = 0xFF

/-- A symmetric neighbour that the router calls its parent was silent since the last check. -/
def SilentParent (n : Node) : Prop :=
  ∃ k < neighbourhoodSize, n.isParentSlot .router k ∧ (n.neighbourhood k).symmetric = true ∧ n.isSilent k

/-- The check gives up the parent in one of the slots below `k`. -/
def LosesParent (n : Node) (k : Nat) : Prop :=
  ∃ j < k, n.isParentSlot .router j ∧ ((n.neighbourhood j).symmetric = false ∨ n.isSilent j)

/-- Every slot is free or about to be freed, there are no routes, and no depth will be left. -/
structure NothingToReset (n : Node) : Prop where
  slots : ∀ i < neighbourhoodSize, n.isSilent i ∨ n.neighbourhood i = (n.neighbourhood i).freed
  routes : unetRouterUpTableClear n.rtableUp = n.rtableUp
  distance : n.distance = 0xFF ∨ LosesParent n neighbourhoodSize

section
variable {n m : Node} {i j k : Nat} {s : Bool × Node}

/-! ## The loop -/

/-- The state `s` of the loop after the rounds of the slots below `k`. -/
structure VerifiedBelow (n : Node) (k : Nat) (s : Bool × Node) : Prop where
  reset : s.1 = true ↔ ∃ j < k, n.isParentSlot .router j ∧ (n.neighbourhood j).symmetric = true ∧ n.isSilent j
  slots : ∀ j, s.2.neighbourhood j =
    if j < k ∧ n.isSilent j then (n.neighbourhood j).freed else n.neighbourhood j
  lost : LosesParent n k →
    s.2.parentIndex = noParent ∧ s.2.distance = 0xFF ∧ s.2.parentNeighborID = unusedAddr
  kept : ¬ LosesParent n k → s.2.parentIndex = n.parentIndex ∧ s.2.distance = n.distance ∧
    s.2.parentNeighborID = n.parentNeighborID
  neighborTable : s.2.neighborTable = n.neighborTable
  routes : s.2.rtableUp = n.rtableUp

theorem losesParent_succ :
    LosesParent n (k + 1) ↔ LosesParent n k ∨
      (n.isParentSlot .router k ∧ ((n.neighbourhood k).symmetric = false ∨ n.isSilent k)) := by
  unfold LosesParent
  constructor
  · rintro ⟨j, hj, h⟩
    rcases Nat.lt_succ_iff_lt_or_eq.mp hj with hlt | rfl
    · exact .inl ⟨j, hlt, h⟩
    · exact .inr h
  · rintro (⟨j, hj, h⟩ | h)
    · exact ⟨j, Nat.lt_succ_of_lt hj, h⟩
    · exact ⟨k, Nat.lt_succ_self k, h⟩

theorem not_losesParent_of_isParentSlot (hu : UniqueSlots n) (hk : k < neighbourhoodSize)
    (hp : n.isParentSlot .router k) : ¬ LosesParent n k := by
  rintro ⟨j, hj, hpj, _⟩
  have hjk := hu j (lt_trans hj hk) k hk (hpj.2.2.symm.trans hp.2.2) hpj.2.1
  exact hj.ne hjk

namespace VerifiedBelow

theorem slot (h : VerifiedBelow n k s) : s.2.neighbourhood k = n.neighbourhood k := by
  rw [h.slots, if_neg fun hc => Nat.lt_irrefl k hc.1]

theorem isSilent_iff (h : VerifiedBelow n k s) : s.2.isSilent k ↔ n.isSilent k := by
  unfold Node.isSilent
  rw [h.slot, h.neighborTable]

theorem isParentSlot_iff (hu : UniqueSlots n) (hk : k < neighbourhoodSize) (h : VerifiedBelow n k s) :
    s.2.isParentSlot .router k ↔ n.isParentSlot .router k := by
  by_cases hl : LosesParent n k
  · constructor
    · intro hp
      have hid := hp.2.2
      rw [(h.lost hl).2.2] at hid
      exact absurd hid.symm hp.2.1
    · intro hp
      exact absurd hl (not_losesParent_of_isParentSlot hu hk hp)
  · unfold Node.isParentSlot
    rw [h.slot, (h.kept hl).2.2]

theorem round (hu : UniqueSlots n) (hk : k < neighbourhoodSize) (h : VerifiedBelow n k s) :
    VerifiedBelow n (k + 1) (linkVerifyNeighbor .router k s) := by
  have hsil := h.isSilent_iff
  have hpar := h.isParentSlot_iff hu hk
  have hslot := h.slot
  obtain ⟨reset, m⟩ := s
  rw [linkVerifyNeighbor_eq]
  dsimp only at hsil hpar hslot ⊢
  simp only [hsil, hpar, hslot]
  refine ⟨?_, fun j => ?_, fun hl => ?_, fun hl => ?_, ?_, ?_⟩ <;> dsimp only
  · have hreset := h.reset
    dsimp only at hreset
    rw [Bool.or_eq_true, decide_eq_true_iff, hreset]
    constructor
    · rintro (⟨j, hj, hc⟩ | hc)
      · exact ⟨j, Nat.lt_succ_of_lt hj, hc⟩
      · exact ⟨k, Nat.lt_succ_self k, hc⟩
    · rintro ⟨j, hj, hc⟩
      rcases Nat.lt_succ_iff_lt_or_eq.mp hj with hlt | rfl
      · exact .inl ⟨j, hlt, hc⟩
      · exact .inr hc
  · have hold := h.slots j
    dsimp only at hold
    by_cases hs : n.isSilent k
    · rw [if_pos hs]
      by_cases hjk : j = k
      · subst hjk
        have hc : j < j + 1 ∧ n.isSilent j := ⟨Nat.lt_succ_self j, hs⟩
        rw [if_pos hc, Node.postLinkPacketTx_neighbourhood]
        exact Node.setNeighbor_self ..
      · have hiff : (j < k + 1 ∧ n.isSilent j) ↔ (j < k ∧ n.isSilent j) := by
          constructor <;> rintro ⟨h1, h2⟩ <;> exact ⟨by omega, h2⟩
        rw [Node.postLinkPacketTx_neighbourhood, Node.setNeighbor_of_ne _ _ hjk, if_congr hiff rfl rfl, ← hold]
        split_ifs <;> rfl
    · rw [if_neg hs]
      have hiff : (j < k + 1 ∧ n.isSilent j) ↔ (j < k ∧ n.isSilent j) := by
        constructor
        · rintro ⟨h1, h2⟩
          have hne : j ≠ k := fun he => hs (he ▸ h2)
          exact ⟨by omega, h2⟩
        · rintro ⟨h1, h2⟩
          exact ⟨by omega, h2⟩
      rw [if_congr hiff rfl rfl, ← hold]
      split_ifs <;> rfl
  · by_cases hnow : n.isParentSlot .router k ∧ ((n.neighbourhood k).symmetric = false ∨ n.isSilent k)
    · rw [if_pos hnow]
      split_ifs <;> exact ⟨rfl, rfl, rfl⟩
    · rw [if_neg hnow]
      have hlost := h.lost ((losesParent_succ.mp hl).resolve_right hnow)
      split_ifs <;> exact hlost
  · rw [losesParent_succ, not_or] at hl
    have hkept := h.kept hl.1
    rw [if_neg hl.2]
    split_ifs <;> exact hkept
  · have htable := h.neighborTable
    split_ifs <;> exact htable
  · have hroutes := h.routes
    split_ifs <;> exact hroutes

end VerifiedBelow

theorem verifyLoop_verified (hu : UniqueSlots n) :
    VerifiedBelow n neighbourhoodSize
      (forRange neighbourhoodSize (linkVerifyNeighbor .router) (false, n)) := by
  have hzero : ∀ {q : Nat → Prop}, ¬ ∃ j < 0, q j := fun ⟨j, hj, _⟩ => absurd hj (Nat.not_lt_zero j)
  refine forRange_induct (P := VerifiedBelow n) ?_ fun k hk s h => h.round hu hk
  refine ⟨⟨fun h => absurd h Bool.false_ne_true, fun h => absurd h hzero⟩, fun j => ?_, fun h => absurd h hzero,
    fun _ => ⟨rfl, rfl, rfl⟩, rfl, rfl⟩
  rw [if_neg fun h => Nat.not_lt_zero j h.1]

/-! ## The check -/

theorem clear_clear (t : RTableUp) :
    unetRouterUpTableClear (unetRouterUpTableClear t) = unetRouterUpTableClear t := by
  rw [unetRouterUpTableClear_eq t, unetRouterUpTableClear_eq]
  congr 1
  funext i
  dsimp only
  split <;> rfl

theorem tablesReset_resetTables (hi : n.parentIndex = noParent) (hd : n.distance = 0xFF) :
    TablesReset n.resetTables := by
  have heq := resetTables_eq n
  refine ⟨fun i hslot => ?_, ?_, ?_, ?_⟩
  · rw [resetTables_slot n hslot]
    rfl
  · rw [heq]
    exact clear_clear n.rtableUp
  · rw [heq]
    exact hi
  · rw [heq]
    exact hd

theorem TablesReset.of_eq (h : TablesReset n) (hs : m.neighbourhood = n.neighbourhood)
    (hr : m.rtableUp = n.rtableUp) (hi : m.parentIndex = n.parentIndex) (hd : m.distance = n.distance) :
    TablesReset m := by
  refine ⟨?_, ?_, hi.trans h.parentIndex, hd.trans h.distance⟩
  · rw [hs]
    exact h.slots
  · rw [hr]
    exact h.routes

theorem tablesReset_neighborTable (t : U16) : TablesReset { n with neighborTable := t } ↔ TablesReset n :=
  ⟨fun h => h.of_eq rfl rfl rfl rfl, fun h => h.of_eq rfl rfl rfl rfl⟩

/-- A parent search in an empty table drops a parent whose slot was freed, and finds none. -/
theorem tablesReset_switch (hfree : n.parentIndex = noParent ∨ n.parent.neighborDistance = 0xFF)
    (hd : n.distance = 0xFF) : TablesReset (linkParentSwitch .router n) ↔
      (∀ i < neighbourhoodSize, n.neighbourhood i = (n.neighbourhood i).freed) ∧
        unetRouterUpTableClear n.rtableUp = n.rtableUp := by
  obtain ⟨d, idx, id, rssi, ev, he⟩ := linkParentSwitch_frame .router n
  have hslots := linkParentSwitch_slots .router n
  have hroutes : (linkParentSwitch .router n).rtableUp = n.rtableUp := by
    rw [he]
    rfl
  constructor
  · intro h
    have hs := h.slots
    have hr := h.routes
    rw [hslots] at hs
    rw [hroutes] at hr
    exact ⟨hs, hr⟩
  · rintro ⟨hs, hr⟩
    have hdrop : (n.dropLostParent .router).parentIndex = noParent ∧
        (n.dropLostParent .router).distance = 0xFF := by
      unfold Node.dropLostParent
      split
      · exact ⟨rfl, rfl⟩
      · rename_i hnot
        refine ⟨?_, hd⟩
        by_contra hne
        exact hnot ⟨hne, hfree.resolve_left hne⟩
    have hkept : linkParentSwitch .router n = n.dropLostParent .router := by
      rcases linkParentSwitch_cases .router n with ⟨_, hk⟩ | ⟨_, i, hi, _, _, _, _, hsym, _⟩
      · exact hk
      · -- a free slot is not symmetric
        rw [hs i hi] at hsym
        exact absurd hsym Bool.false_ne_true
    refine ⟨?_, ?_, ?_, ?_⟩
    · rw [hslots]
      exact hs
    · rw [hroutes]
      exact hr
    · rw [hkept]
      exact hdrop.1
    · rw [hkept]
      exact hdrop.2

theorem linkVerifyNeighbourhood_loop (n : Node) :
    linkVerifyNeighbourhood .router n =
      let s := forRange neighbourhoodSize (linkVerifyNeighbor .router) (false, n)
      { (if s.2.distance = 0xFF then
          if s.1 then s.2.resetTables else linkParentSwitch .router s.2
        else s.2) with neighborTable := 0 } := by
  unfold linkVerifyNeighbourhood
  generalize forRange neighbourhoodSize (linkVerifyNeighbor .router) (false, n) = s
  obtain ⟨reset, m⟩ := s
  dsimp only
  by_cases hd : m.distance = 0xFF
  · have hcond : DeviceType.router = .router ∧ m.distance = nodeDistanceInit .router := ⟨rfl, hd⟩
    rw [if_pos hd, if_pos hcond]
  · have hcond : ¬ (DeviceType.router = .router ∧ m.distance = nodeDistanceInit .router) :=
      fun hc => hd hc.2
    rw [if_neg hd, if_neg hcond]

/-- A check that frees the parent's slot resets both tables exactly if a symmetric parent fell silent, or
nothing is left to reset. -/
theorem tablesReset_verify (hu : UniqueSlots n) (hp : n.isSilent n.parentIndex.toNat)
    (hlt : n.parentIndex.toNat < neighbourhoodSize) :
    TablesReset (linkVerifyNeighbourhood .router n) ↔ SilentParent n ∨ NothingToReset n := by
  have hloop := verifyLoop_verified hu
  rw [linkVerifyNeighbourhood_loop]
  generalize forRange neighbourhoodSize (linkVerifyNeighbor .router) (false, n) = s at hloop ⊢
  obtain ⟨reset, m⟩ := s
  dsimp only
  rw [tablesReset_neighborTable]
  have hreset : reset = true ↔ SilentParent n := hloop.reset
  have hslots : (∀ i < neighbourhoodSize, m.neighbourhood i = (m.neighbourhood i).freed) ↔
      ∀ i < neighbourhoodSize, n.isSilent i ∨ n.neighbourhood i = (n.neighbourhood i).freed := by
    refine forall_congr' fun i => forall_congr' fun hi => ?_
    rw [hloop.slots]
    by_cases hs : n.isSilent i
    · rw [if_pos ⟨hi, hs⟩]
      exact ⟨fun _ => .inl hs, fun _ => rfl⟩
    · rw [if_neg fun hc => hs hc.2]
      exact ⟨.inr, fun h => h.resolve_left hs⟩
  have hdist : m.distance = 0xFF ↔ n.distance = 0xFF ∨ LosesParent n neighbourhoodSize := by
    by_cases hl : LosesParent n neighbourhoodSize
    · exact ⟨fun _ => .inr hl, fun _ => (hloop.lost hl).2.1⟩
    · have hkept := (hloop.kept hl).2.1
      dsimp only at hkept
      rw [hkept]
      exact ⟨.inl, fun h => h.resolve_right hl⟩
  have hfree : m.parentIndex = noParent ∨ m.parent.neighborDistance = 0xFF := by
    by_cases hl : LosesParent n neighbourhoodSize
    · exact .inl (hloop.lost hl).1
    · refine .inr ?_
      have hkept := (hloop.kept hl).1
      dsimp only at hkept
      rw [Node.parent, hkept, hloop.slots, if_pos ⟨hlt, hp⟩]
      rfl
  by_cases hr : reset = true
  · have hsp := hreset.mp hr
    have hl : LosesParent n neighbourhoodSize := by
      obtain ⟨k, hk, hpar, _, hsil⟩ := hsp
      exact ⟨k, hk, hpar, .inr hsil⟩
    obtain ⟨hi, hd, _⟩ := hloop.lost hl
    rw [if_pos hd, if_pos hr]
    exact ⟨fun _ => .inl hsp, fun _ => tablesReset_resetTables hi hd⟩
  · have hsp : ¬ SilentParent n := fun h => hr (hreset.mpr h)
    by_cases hd : m.distance = 0xFF
    · rw [if_pos hd, if_neg hr, tablesReset_switch hfree hd, hslots]
      have hroutes := hloop.routes
      dsimp only at hroutes
      rw [hroutes]
      constructor
      · rintro ⟨hs, hc⟩
        exact .inr ⟨hs, hc, hdist.mp hd⟩
      · rintro (h | h)
        · exact absurd h hsp
        · exact ⟨h.slots, h.routes⟩
    · rw [if_neg hd]
      constructor
      · intro h
        exact absurd h.distance hd
      · rintro (h | h)
        · exact absurd h hsp
        · exact absurd (hdist.mpr h.distance) hd

/-! ## A parent that was heard -/

/-- The parent is symmetric, or marked in `t`. -/
def HeardIn (t : U16) (n : Node) : Prop :=
  n.parentIndex ≠ noParent → n.parent.symmetric = true ∨ t.getLsbD n.parentIndex.toNat = true

/-- The parent is symmetric, or was active since the last check. -/
def ParentHeard (n : Node) : Prop := HeardIn n.neighborTable n

/-- A packet that comes from the mark of a free slot finds none, and an association request is made without a
parent. -/
def LinkOp.Regular (n : Node) : LinkOp → Prop
  | .associationRequest => n.parentIndex = noParent
  | op => op.Addressed n

variable {dev : DeviceType} {p : Packet} {op : LinkOp}

theorem markActive_or (n : Node) (i k : Nat) (h : n.neighborTable.getLsbD k = true) :
    (n.markActive i).neighborTable.getLsbD k = true := by
  show (n.neighborTable ||| BitVec.ofNat 16 (1 <<< i)).getLsbD k = true
  rw [BitVec.getLsbD_or, h, Bool.true_or]

/-- A packet marks the slot of its sender if its list is accepted, and takes no mark away. -/
theorem linkPacketProcess_keepsMarks (dev : DeviceType) (n : Node) (p : Packet) :
    (∀ k, n.neighborTable.getLsbD k = true → (linkPacketProcess dev n p).neighborTable.getLsbD k = true) ∧
      ∀ i, (linkNeighborTableFind n p).1 = some i →
        (p.packet unetCtrlMsgNbCount).toNat < neighbourhoodSize →
          (linkPacketProcess dev n p).neighborTable.getLsbD i = true := by
  rcases linkNeighborTableFind_cases n p with ⟨_, he⟩ | ⟨i, hi, m, he, _, _, _, _, hfr⟩
  · unfold linkPacketProcess
    rw [he]
    exact ⟨fun _ h => h, fun _ h => nomatch h⟩
  · have hmarks : m.neighborTable = n.neighborTable := by rw [hfr]
    by_cases hcnt : (p.packet unetCtrlMsgNbCount).toNat < neighbourhoodSize
    · have hproc := linkPacketProcess_listed dev he hcnt
      have hstored : ∀ k : Node, (linkPacketProcess dev n p).neighborTable = k.neighborTable →
          k.neighborTable = ((m.setNeighbor i ((m.neighbourhood i).heard p)).markActive i).neighborTable →
          (∀ k, n.neighborTable.getLsbD k = true →
            (linkPacketProcess dev n p).neighborTable.getLsbD k = true) ∧
          ∀ j, (linkNeighborTableFind n p).1 = some j →
            (p.packet unetCtrlMsgNbCount).toNat < neighbourhoodSize →
              (linkPacketProcess dev n p).neighborTable.getLsbD j = true := by
        intro k hk hk'
        rw [hk, hk', he]
        refine ⟨fun l hl => markActive_or _ i l (by rwa [← hmarks] at hl), fun j hj _ => ?_⟩
        rw [← Option.some.inj hj]
        exact markActive_getLsbD _ hi
      refine hstored (((m.setNeighbor i ((m.neighbourhood i).heard p)).learnMyRSSI i
        (p.listedRSSI (p.packet unetCtrlMsgNbCount).toNat m.addr16)).markActive i) ?_ ?_
      · rw [hproc]
        dsimp only
        split_ifs
        · exact linkParentSwitch_marks dev _
        · rw [postLinkPacketTx_neighborTable]
          exact linkParentSwitch_marks dev _
        · exact (linkNeighborReq_cases dev _ i).1
        · rfl
      · cases p.listedRSSI (p.packet unetCtrlMsgNbCount).toNat m.addr16 <;> rfl
    · have hproc : linkPacketProcess dev n p = m.setNeighbor i ((m.neighbourhood i).heard p) := by
        unfold linkPacketProcess
        rw [he]
        exact if_neg hcnt
      refine ⟨fun k hk => ?_, fun _ _ h => absurd h hcnt⟩
      rw [hproc]
      rwa [← hmarks] at hk

theorem HeardIn.postLinkPacketTx {t : U16} (h : HeardIn t n) : HeardIn t n.postLinkPacketTx := h

theorem HeardIn.neighborTable {t : U16} (h : HeardIn t n) (u : U16) :
    HeardIn t { n with neighborTable := u } := h

theorem HeardIn.linkParentSwitch {t : U16} (h : HeardIn t n) : HeardIn t (linkParentSwitch .router n) := by
  intro hne
  rcases linkParentSwitch_cases .router n with ⟨_, he⟩ | ⟨_, i, hi, _, _, _, he, hsym, _⟩
  · rw [he] at hne ⊢
    unfold Node.dropLostParent at hne ⊢
    split at hne
    · exact absurd rfl hne
    · rename_i hkeep
      rw [if_neg hkeep]
      exact h hne
  · rw [he]
    left
    show (n.neighbourhood (BitVec.ofNat 8 i).toNat).symmetric = true
    rwa [slotIndex_toNat hi]

theorem ParentHeard.linkPacketProcess (h : ParentHeard n) :
    ParentHeard (linkPacketProcess .router n p) := by
  obtain ⟨hold, hnew⟩ := linkPacketProcess_keepsMarks .router n p
  rcases linkPacketProcess_cases .router n p with ⟨_, he⟩ | ⟨i, m, hf, hm, hd⟩
  · rwa [he]
  · unfold ParentHeard
    generalize hT : (Unet4Cooja.linkPacketProcess .router n p).neighborTable = t at hold hnew ⊢
    -- the stored packet, with the marks of the end
    have hstored : HeardIn t m := by
      intro hne
      unfold Node.parent
      rw [hm.parentIndex] at hne ⊢
      by_cases hi : n.parentIndex.toNat = i
      · by_cases hcnt : (p.packet unetCtrlMsgNbCount).toNat < neighbourhoodSize
        · rw [hi]
          exact .inr (hnew i hf hcnt)
        · rw [hi, hm.symmetric, symmetricAfter, if_neg hcnt, slotAtArrival_symmetric, ← hi]
          exact (h hne).imp_right (hold _)
      · rw [hm.others _ hi]
        exact (h hne).imp_right (hold _)
    generalize Unet4Cooja.linkPacketProcess .router n p = r at hd hT ⊢
    cases hd with
    | tooMany _ => exact hstored
    | adv _ _ => exact hstored.linkParentSwitch
    | advReset _ _ => exact hstored.linkParentSwitch.postLinkPacketTx
    | req _ _ =>
      unfold linkNeighborReq
      dsimp only
      by_cases hp : m.parentNeighborID = (m.neighbourhood i).addr16b
      · have hidx : ((m.loseParent .router).resetTables).parentIndex = noParent := by
          rw [resetTables_eq]
          rfl
        rw [if_pos hp, if_neg (not_not.mpr hidx)]
        exact fun hne => absurd hidx hne
      · rw [if_neg hp]
        split
        · exact hstored.postLinkPacketTx
        · exact hstored
    | other _ _ => exact hstored

theorem parent_of_not_losesParent (h : ParentInv False n) (hne : n.parentIndex ≠ noParent)
    (hl : ¬ LosesParent n neighbourhoodSize) :
    n.parent.symmetric = true ∧ ¬ n.isSilent n.parentIndex.toNat := by
  have hpar : n.isParentSlot .router n.parentIndex.toNat := ⟨rfl, h.occupied hne, (h.parentID hne).symm⟩
  constructor
  · by_contra hs
    exact hl ⟨_, h.index_lt hne, hpar, .inl (Bool.not_eq_true _ ▸ hs)⟩
  · intro hs
    exact hl ⟨_, h.index_lt hne, hpar, .inr hs⟩

theorem ParentHeard.linkVerifyNeighbourhood (h : ParentInv False n) :
    ParentHeard (linkVerifyNeighbourhood .router n) := by
  have hloop := verifyLoop_verified h.slots.unique
  rw [linkVerifyNeighbourhood_loop]
  generalize forRange neighbourhoodSize (linkVerifyNeighbor .router) (false, n) = s at hloop ⊢
  obtain ⟨reset, m⟩ := s
  dsimp only
  have hm : HeardIn 0 m := by
    intro hne
    left
    have hl : ¬ LosesParent n neighbourhoodSize := fun hl => hne (hloop.lost hl).1
    have hidx := (hloop.kept hl).1
    dsimp only at hidx
    rw [hidx] at hne
    obtain ⟨hsym, hsil⟩ := parent_of_not_losesParent h hne hl
    rw [Node.parent, hidx, hloop.slots, if_neg fun hc => hsil hc.2]
    exact hsym
  refine HeardIn.neighborTable ?_ 0
  by_cases hd : m.distance = 0xFF
  · rw [if_pos hd]
    by_cases hr : reset = true
    · have hidx : m.parentIndex = noParent := by
        obtain ⟨k, hk, hpar, _, hsil⟩ := hloop.reset.mp hr
        exact (hloop.lost ⟨k, hk, hpar, .inr hsil⟩).1
      rw [if_pos hr, resetTables_eq]
      exact fun hne => absurd hidx hne
    · rw [if_neg hr]
      exact hm.linkParentSwitch
  · rw [if_neg hd]
    exact hm

theorem addressed_of_find (hf : (linkNeighborTableFind n p).1 = some i)
    (hok : (LinkOp.process p).Addressed n) : p.linkAddr16 ≠ unusedAddr := by
  intro ha
  have hnone := hok ha
  rcases linkNeighborTableFind_cases n p with ⟨_, he⟩ | ⟨j, hj, _, _, ho, _⟩
  · rw [he] at hf
    cases hf
  · rcases ho with ho | ⟨_, ho⟩
    · exact findNeighbor_eq_none hnone hj (ho.trans ha)
    · exact findNeighbor_eq_none hnone hj ho

theorem linkStep_regular (hp : ParentInv False n) (hh : ParentHeard n) (hok : op.Regular n)
    (hs : linkStep .router n op = some m) : ParentInv False m ∧ ParentHeard m := by
  cases op with
  | process p =>
    cases hs
    exact ⟨hp.linkPacketProcess fun i hf _ => ⟨addressed_of_find hf hok, False.elim⟩, hh.linkPacketProcess⟩
  | verify =>
    cases hs
    exact ⟨hp.linkVerifyNeighbourhood, ParentHeard.linkVerifyNeighbourhood hp⟩
  | activity p =>
    cases hs
    have hsame := linkSetNeighborActivity_same n p
    refine ⟨hp.of_same hsame, fun hne => ?_⟩
    unfold Node.parent
    rw [hsame.symmetric, hsame.parentIndex]
    rw [hsame.parentIndex] at hne
    refine (hh hne).imp_right fun hm => ?_
    unfold linkSetNeighborActivity
    cases n.findNeighbor p.sourceAddr16 with
    | none => exact hm
    | some i => exact markActive_or (n.setNeighbor i _) i _ hm
  | seqnum p =>
    cases hs
    have hsame := linkSetNeighborSeqnum_same n p
    refine ⟨hp.of_same hsame, fun hne => ?_⟩
    unfold Node.parent
    rw [hsame.symmetric, hsame.parentIndex]
    rw [hsame.parentIndex] at hne
    refine (hh hne).imp_right fun hm => ?_
    unfold linkSetNeighborSeqnum
    cases n.findNeighbor p.sourceAddr16 <;> exact hm
  | associationRequest =>
    cases hs
    refine ⟨.associationRequest hok, fun hne => ?_⟩
    have hidx : (linkPacketCreateAssociationRequest .router n).parentIndex = n.parentIndex := by
      have hcreate : ∀ m : Node, (linkPacketCreate .router m).parentIndex = m.parentIndex := fun _ => rfl
      unfold linkPacketCreateAssociationRequest
      dsimp only
      rw [hcreate, linkNeighborTableInit_eq]
    exact absurd (hidx.trans hok) hne

theorem silentParent_of_runs {n₀ : Node} {ops : List LinkOp}
    (r : Runs (linkStep .router) LinkOp.Regular (linkInit .router n₀) ops n)
    (hlt : n.parentIndex.toNat < neighbourhoodSize) (hsil : n.isSilent n.parentIndex.toNat) :
    SilentParent n := by
  have h0 : ParentInv False (linkInit .router n₀) ∧ ParentHeard (linkInit .router n₀) := by
    refine ⟨.linkNeighborTableInit rfl rfl, fun hne => ?_⟩
    have hidx : (linkInit .router n₀).parentIndex = noParent := by
      unfold linkInit
      rw [linkNeighborTableInit_eq]
    exact absurd hidx hne
  obtain ⟨hp, hh⟩ := r.invariant (I := fun n => ParentInv False n ∧ ParentHeard n) h0
    fun _ _ _ hi hok hs => linkStep_regular hi.1 hi.2 hok hs
  have hne : n.parentIndex ≠ noParent := ne_noParent_of_lt hlt
  have hsym : n.parent.symmetric = true :=
    (hh hne).resolve_right fun hm => absurd (hsil.1.symm.trans hm) Bool.false_ne_true
  exact ⟨_, hlt, ⟨rfl, hsil.2, (hp.parentID hne).symm⟩, hsym, hsil⟩

/-- In every state of a router, a check that frees the parent's slot resets both tables exactly if a symmetric
parent fell silent or nothing is left to reset; while the calls are regular it always does. -/
theorem tablesReset_of_runs {n₀ : Node} {ops : List LinkOp}
    (r : Runs (linkStep .router) Free (linkInit .router n₀) ops n)
    (hlt : n.parentIndex.toNat < neighbourhoodSize) (hsil : n.isSilent n.parentIndex.toNat) :
    (TablesReset (linkVerifyNeighbourhood .router n) ↔ SilentParent n ∨ NothingToReset n) ∧
      (Runs (linkStep .router) LinkOp.Regular (linkInit .router n₀) ops n →
        TablesReset (linkVerifyNeighbourhood .router n)) := by
  have hiff := tablesReset_verify (uniqueSlots_of_runs r) hsil hlt
  exact ⟨hiff, fun hr => hiff.mpr (.inl (silentParent_of_runs hr hlt hsil))⟩

end

/-- A parent that is heard once, and not any more until the second check. -/
def silentParentOps : List LinkOp := [.process (receivedAdv 1 0), .verify]

theorem tablesReset_silentParentOps :
    ∃ n, exec (linkStep .router) (linkInit .router default) silentParentOps = some n ∧ n.parentIndex = 0 ∧
      TablesReset (linkVerifyNeighbourhood .router n) := by
  obtain ⟨n, hn⟩ : ∃ n, exec (linkStep .router) (linkInit .router default) silentParentOps = some n :=
    ⟨_, rfl⟩
  have hobs : (exec (linkStep .router) (linkInit .router default) silentParentOps).map
      (fun n => (n.parentIndex, n.neighborTable, (n.neighbourhood 0).addr16b,
        (n.neighbourhood 0).symmetric, n.parentNeighborID)) = some (0, 0, 1, true, 1) := by decide +kernel
  rw [hn] at hobs
  simp only [Option.map_some, Option.some.injEq, Prod.mk.injEq] at hobs
  obtain ⟨hidx, htable, haddr, hsym, hid⟩ := hobs
  have hslot : n.isSilent n.parentIndex.toNat := by
    rw [hidx]
    refine ⟨by rw [htable]; rfl, ?_⟩
    show (n.neighbourhood 0).addr16b ≠ unusedAddr
    rw [haddr]
    decide
  have hlt : n.parentIndex.toNat < neighbourhoodSize := by
    rw [hidx]
    decide
  refine ⟨n, hn, hidx, (tablesReset_of_runs (Runs.of_exec hn) hlt hslot).1.mpr (.inl ⟨0, by decide, ?_⟩)⟩
  refine ⟨⟨rfl, ?_, ?_⟩, hsym, by rwa [hidx] at hslot⟩
  · rw [haddr]
    decide
  · rw [haddr, hid]

/-- A packet of `src` with a list of eight entries, which is stored but not marked. -/
def longListFrom (src : U16) (distance : U8) : Packet :=
  (linkPacketFrom src 0 neighborAdv distance 9).setByte unetCtrlMsgNbCount 8

/-- The mark of a free slot becomes the parent, and then its slot is taken by the neighbour 2. -/
def takenSlotOps : List LinkOp := [.process (receivedAdv unusedAddr 0), .verify, .process (longListFrom 2 0)]

/-- After an association request the parent 1 is stored again, but neither marked nor symmetric; the neighbour 2
is a former child. -/
def strangerOps : List LinkOp :=
  [.process (receivedAdv 1 0), .verify, .associationRequest, .process (longListFrom 1 0),
    .process ((receivedAdv 2 2).setByte unetCtrlMsgPacketType routerAdv)]

/-- The parent is evicted without a reset if `ParentNeighborID` does not name its slot, or was cleared in the
same round; in the second case the router takes a former child as its parent. -/
theorem tablesReset_fails :
    (¬ ∀ n₀ ops n, Runs (linkStep .router) Free (linkInit .router n₀) ops n →
      n.parentIndex.toNat < neighbourhoodSize → n.isSilent n.parentIndex.toNat →
        TablesReset (linkVerifyNeighbourhood .router n)) ∧
    (exec (linkStep .router) (linkInit .router default) strangerOps).map (fun n =>
      (n.parent.addr16b, n.parentNeighborID, decide (n.isSilent n.parentIndex.toNat),
        (linkVerifyNeighbourhood .router n).parent.addr16b)) = some (1, 1, true, 2) := by
  constructor
  · intro h
    obtain ⟨n, hn⟩ : ∃ n, exec (linkStep .router) (linkInit .router default) takenSlotOps = some n :=
      ⟨_, rfl⟩
    have hobs : (exec (linkStep .router) (linkInit .router default) takenSlotOps).map
        (fun n => (n.parentIndex, decide (n.isSilent 0), (linkVerifyNeighbourhood .router n).parentIndex)) =
          some (0, true, 0) := by decide +kernel
    rw [hn] at hobs
    simp only [Option.map_some, Option.some.injEq, Prod.mk.injEq, decide_eq_true_eq] at hobs
    obtain ⟨hidx, hsil, hleft⟩ := hobs
    have hreset := h default takenSlotOps n (Runs.of_exec hn) (by rw [hidx]; decide) (by rw [hidx]; exact hsil)
    rw [hreset.parentIndex] at hleft
    exact absurd hleft (by decide)
  · decide +kernel

end Unet4Cooja
