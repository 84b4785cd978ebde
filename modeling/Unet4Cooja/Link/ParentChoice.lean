import Mathlib.Data.Finset.Max
import Mathlib.Logic.Relation
import Unet4Cooja.Link.ParentState

/-!
# Which neighbour becomes the parent

* `linkParentSwitch_optimal` : after a parent search no symmetric neighbour offers a smaller depth, and a
  depth that fell comes from the parent;
* `Nearest`, `Displaces`, `FirstEntry`, `NextEntry` : the symmetric neighbours of least distance, and how the
  scan goes from one to the next;
* `scanParent_path` : where the scan ends;
* `prefersBetterLink_iff` : when no other of these neighbours has the better link;
  `settlesOnBetterLink_of_fresh` : it is so if the parent's signal has not fallen since it was stored.
-/

namespace Unet4Cooja
open Lib

/-! ## The least depth -/

/-- The depth in force when the scan of `link_parent_switch` starts. -/
def Node.depthAtScan (dev : DeviceType) (n : Node) : U8 :=
  if n.parentIndex ≠ noParent ∧ n.parent.neighborDistance = nodeDistanceInit dev then nodeDistanceInit dev
  else n.distance

theorem dropLostParent_distance (dev : DeviceType) (n : Node) :
    (n.dropLostParent dev).distance = n.depthAtScan dev := by
  unfold Node.dropLostParent Node.depthAtScan
  split <;> rfl

theorem dropLostParent_slots (dev : DeviceType) (n : Node) :
    (n.dropLostParent dev).neighbourhood = n.neighbourhood := by
  unfold Node.dropLostParent
  split <;> rfl

namespace ParentScan
variable {slots : Nat → UnetNeighborhood} {s : ParentScan} {i : Nat}

theorem visit_depth_le (slots : Nat → UnetNeighborhood) (s : ParentScan) (i : Nat) :
    (s.visit slots i).depth ≤ s.depth := by
  by_cases hc : s.Candidate slots i
  · exact (visit_of_candidate hc (BitVec.le_refl _)).depth_le
  · rw [visit_of_not_candidate hc]
    exact BitVec.le_refl _

/-- After the round of a symmetric slot the depth is at most one more than the slot's. -/
theorem visit_depth_symmetric (hs : (slots i).symmetric = true) :
    (s.visit slots i).depth.toNat ≤ (slots i).neighborDistance.toNat + 1 := by
  by_cases hc : s.Candidate slots i
  · exact (visit_of_candidate hc (BitVec.le_refl _)).depth.le
  · rw [visit_of_not_candidate hc]
    unfold Candidate at hc
    by_cases hlt : (slots i).neighborDistance < s.depth
    · have hdep : s.depth.toNat = (slots i).neighborDistance.toNat + 1 := by
        by_contra hne
        exact hc ⟨hs, hlt, .inl hne⟩
      exact hdep.le
    · exact Nat.le_succ_of_le (Nat.le_of_not_lt hlt)

end ParentScan

theorem scanParent_depth (n : Node) {j : Nat} (hj : j < neighbourhoodSize)
    (hs : (n.neighbourhood j).symmetric = true) :
    n.scanParent.depth.toNat ≤ (n.neighbourhood j).neighborDistance.toNat + 1 := by
  have h : ∀ k, j < k → (forRange k (ParentScan.visit n.neighbourhood) n.scanStart).depth.toNat ≤
      (n.neighbourhood j).neighborDistance.toNat + 1 := by
    intro k
    induction k with
    | zero => exact fun hk => absurd hk (Nat.not_lt_zero j)
    | succ k ih =>
      intro hk
      rw [forRange]
      rcases Nat.lt_succ_iff_lt_or_eq.mp hk with hlt | rfl
      · exact le_trans (ParentScan.visit_depth_le n.neighbourhood _ k) (ih hlt)
      · exact ParentScan.visit_depth_symmetric hs
  exact h neighbourhoodSize hj

theorem adopt_distance (n : Node) (s : ParentScan) : (n.adopt s).distance = s.depth := by
  obtain ⟨ev, hev⟩ := adopt_eq n s
  rw [hev]
  rfl

theorem linkParentSwitch_optimal (dev : DeviceType) (n : Node) :
    (∀ j < neighbourhoodSize, ((linkParentSwitch dev n).neighbourhood j).symmetric = true →
      (linkParentSwitch dev n).distance.toNat ≤
        ((linkParentSwitch dev n).neighbourhood j).neighborDistance.toNat + 1) ∧
    ((linkParentSwitch dev n).distance < n.depthAtScan dev →
      (linkParentSwitch dev n).parentIndex.toNat < neighbourhoodSize ∧
      (linkParentSwitch dev n).parent.symmetric = true ∧
      (linkParentSwitch dev n).parent.neighborDistance.toNat + 1 =
        (linkParentSwitch dev n).distance.toNat) := by
  refine ⟨fun j hj hs => ?_, fun hlt => ?_⟩
  · rw [linkParentSwitch_slots] at hs ⊢
    rw [linkParentSwitch, adopt_distance]
    rw [← dropLostParent_slots dev n] at hs ⊢
    exact scanParent_depth _ hj hs
  · rcases linkParentSwitch_cases dev n with ⟨_, he⟩ | ⟨_, i, hi, d, rssi, ev, he, hsym, hd, _⟩
    · -- without a candidate the depth stays
      rw [he, dropLostParent_distance] at hlt
      exact absurd hlt (BitVec.lt_irrefl _)
    · rw [he]
      have hpar : (BitVec.ofNat 8 i).toNat = i := slotIndex_toNat hi
      refine ⟨hpar.trans_lt hi, ?_, ?_⟩
      · unfold Node.parent Node.withParent
        dsimp only
        rw [hpar]
        exact hsym
      · unfold Node.parent Node.withParent
        dsimp only
        rw [hpar]
        exact hd.symm

/-! ## The better link -/

namespace Node
variable (n : Node)

/-- Slot `i` is symmetric and nearer than the node's depth, and no symmetric slot is nearer. -/
def Nearest (i : Nat) : Prop :=
  i < neighbourhoodSize ∧ (n.neighbourhood i).symmetric = true ∧
    (n.neighbourhood i).neighborDistance < n.distance ∧
    ∀ j < neighbourhoodSize, (n.neighbourhood j).symmetric = true →
      (n.neighbourhood i).neighborDistance ≤ (n.neighbourhood j).neighborDistance

/-- Slot `j` has the address of slot `i`, or a link that is better by more than 5. -/
def Displaces (i j : Nat) : Prop :=
  (n.neighbourhood i).addr16b = (n.neighbourhood j).addr16b ∨
    (n.neighbourhood i).neighborRSSI.toNat + 5 < (n.neighbourhood j).neighborRSSI.toNat

/-- The first nearest slot that is a candidate against the depth, the parent's address and the signal strength
that were stored for the parent. -/
def FirstEntry (f : Nat) : Prop :=
  n.Nearest f ∧ n.scanStart.Candidate n.neighbourhood f ∧
    ∀ j < f, n.Nearest j → ¬ n.scanStart.Candidate n.neighbourhood j

/-- `j` is the first nearest slot behind `i` that displaces it. -/
def NextEntry (i j : Nat) : Prop :=
  i < j ∧ n.Nearest j ∧ n.Displaces i j ∧ ∀ k, i < k → k < j → n.Nearest k → ¬ n.Displaces i k

/-- The path of `NextEntry` from `f` ends at `e`. -/
def EndsAt (f e : Nat) : Prop :=
  Relation.ReflTransGen n.NextEntry f e ∧ ∀ j, e < j → n.Nearest j → ¬ n.Displaces e j

/-- No other symmetric neighbour at the parent's distance has a link that is better by more than 5. -/
def PrefersBetterLink : Prop :=
  n.parentIndex ≠ noParent → ∀ j < neighbourhoodSize, j ≠ n.parentIndex.toNat →
    (n.neighbourhood j).symmetric = true →
    (n.neighbourhood j).neighborDistance = n.parent.neighborDistance →
      (n.neighbourhood j).neighborRSSI.toNat ≤ n.parent.neighborRSSI.toNat + 5

/-- Without a candidate the node keeps a parent that has the better link; with one, no nearest slot has a link
better by more than 5 than the slot at which the path from the first entry ends. -/
def SettlesOnBetterLink : Prop :=
  (¬ n.HasCandidate → n.PrefersBetterLink) ∧
    ∀ f e, n.FirstEntry f → n.EndsAt f e → ∀ j, n.Nearest j →
      (n.neighbourhood j).neighborRSSI.toNat ≤ (n.neighbourhood e).neighborRSSI.toNat + 5

end Node

namespace ParentScan
variable {slots : Nat → UnetNeighborhood} {s : ParentScan} {i : Nat}

/-- The variables of the scan once it has taken slot `i`. -/
def entry (slots : Nat → UnetNeighborhood) (i : Nat) : ParentScan where
  depth := (slots i).neighborDistance + 1
  parentIdx := BitVec.ofNat 8 i
  parentNeighborID := (slots i).addr16b
  parentRSSI := (slots i).neighborRSSI.setWidth 16

theorem visit_eq_entry (h : s.Candidate slots i) : s.visit slots i = entry slots i := by
  obtain ⟨hs, hlt, hc⟩ := h
  unfold visit
  simp only [if_pos hlt, if_pos hs]
  split_ifs with hdep hid hr
  · have hd : s.depth = (slots i).neighborDistance + 1 := by bv_omega
    rw [entry, ← hd, ← hid]
  · have hd : s.depth = (slots i).neighborDistance + 1 := by bv_omega
    rw [entry, ← hd]
  · exact absurd hc (by simp [hdep, hid, hr])
  · rfl

end ParentScan

section
variable {n : Node} {f e i j k : Nat}

theorem Node.Nearest.same_distance (hi : n.Nearest i) (hj : n.Nearest j) :
    (n.neighbourhood i).neighborDistance = (n.neighbourhood j).neighborDistance :=
  BitVec.le_antisymm (hi.2.2.2 j hj.1 hj.2.1) (hj.2.2.2 i hi.1 hi.2.1)

theorem Node.Nearest.of_le (hi : n.Nearest i) (hj : j < neighbourhoodSize)
    (hs : (n.neighbourhood j).symmetric = true)
    (hle : (n.neighbourhood j).neighborDistance ≤ (n.neighbourhood i).neighborDistance) : n.Nearest j :=
  ⟨hj, hs, Nat.lt_of_le_of_lt hle hi.2.2.1, fun l hl hls => BitVec.le_trans hle (hi.2.2.2 l hl hls)⟩

theorem exists_nearest (h : n.HasCandidate) : ∃ i, n.Nearest i := by
  obtain ⟨c, hc, hsym, hlt, _⟩ := h
  obtain ⟨i, hi, hmin⟩ := Finset.exists_min_image
    ((Finset.range neighbourhoodSize).filter fun i => (n.neighbourhood i).symmetric = true)
    (fun i => (n.neighbourhood i).neighborDistance.toNat)
    ⟨c, Finset.mem_filter.mpr ⟨Finset.mem_range.mpr hc, hsym⟩⟩
  obtain ⟨hi, his⟩ := Finset.mem_filter.mp hi
  have hle : ∀ j < neighbourhoodSize, (n.neighbourhood j).symmetric = true →
      (n.neighbourhood i).neighborDistance ≤ (n.neighbourhood j).neighborDistance := fun j hj hjs =>
    hmin j (Finset.mem_filter.mpr ⟨Finset.mem_range.mpr hj, hjs⟩)
  exact ⟨i, Finset.mem_range.mp hi, his, Nat.lt_of_le_of_lt (hle c hc hsym) hlt, hle⟩

theorem candidate_entry (he : n.Nearest e) (hk : k < neighbourhoodSize) :
    (ParentScan.entry n.neighbourhood e).Candidate n.neighbourhood k ↔ n.Nearest k ∧ n.Displaces e k := by
  have hlt := he.2.2.1
  have hd : ((n.neighbourhood e).neighborDistance + 1).toNat =
      (n.neighbourhood e).neighborDistance.toNat + 1 := by bv_omega
  have hr : ((n.neighbourhood e).neighborRSSI.setWidth 16).toNat =
      (n.neighbourhood e).neighborRSSI.toNat := by bv_omega
  unfold ParentScan.Candidate ParentScan.entry Node.Displaces
  dsimp only
  rw [hd, hr]
  constructor
  · rintro ⟨hs, hlt', hc⟩
    have hle : (n.neighbourhood k).neighborDistance ≤ (n.neighbourhood e).neighborDistance := by
      bv_omega
    have hn : n.Nearest k := he.of_le hk hs hle
    rw [he.same_distance hn] at hc
    exact ⟨hn, hc.resolve_left fun h => h rfl⟩
  · rintro ⟨hn, hc⟩
    have heq := he.same_distance hn
    exact ⟨hn.2.1, by bv_omega, .inr hc⟩

/-- While no nearest slot was taken, the scan is where it started or still above the least depth. -/
def Node.Above (n : Node) (i : Nat) (s : ParentScan) : Prop :=
  s = n.scanStart ∨
    ((n.neighbourhood i).neighborDistance.toNat + 1 < s.depth.toNat ∧ s.depth ≤ n.distance)

/-- Above the least depth, the scan takes a nearest slot exactly if it is a candidate at the start. -/
theorem candidate_above {s : ParentScan} (hi : n.Nearest i) (h : n.Above i s) (hk : n.Nearest k) :
    s.Candidate n.neighbourhood k ↔ n.scanStart.Candidate n.neighbourhood k := by
  have heq := hi.same_distance hk
  rcases h with rfl | ⟨hgt, hle⟩
  · exact Iff.rfl
  · rw [heq] at hgt
    have hlt : (n.neighbourhood k).neighborDistance < s.depth := by bv_omega
    have hne : s.depth.toNat ≠ (n.neighbourhood k).neighborDistance.toNat + 1 := hgt.ne'
    have hne' : n.distance.toNat ≠ (n.neighbourhood k).neighborDistance.toNat + 1 := by bv_omega
    constructor
    · intro _
      exact ⟨hk.2.1, hk.2.2.1, .inl hne'⟩
    · intro _
      exact ⟨hk.2.1, hlt, .inl hne⟩

/-- A slot that is taken but not nearest leaves the scan above the least depth. -/
theorem above_entry {s : ParentScan} (hi : n.Nearest i) (h : n.Above i s) (hk : k < neighbourhoodSize)
    (hc : s.Candidate n.neighbourhood k) (hn : ¬ n.Nearest k) :
    n.Above i (ParentScan.entry n.neighbourhood k) := by
  have hd : s.depth ≤ n.distance := by
    rcases h with rfl | ⟨_, hle⟩
    · exact BitVec.le_refl _
    · exact hle
  have hlt := hc.2.1
  have hgt : (n.neighbourhood i).neighborDistance < (n.neighbourhood k).neighborDistance := by
    by_contra hle
    exact hn (hi.of_le hk hc.1 (BitVec.not_lt.mp hle))
  refine .inr ?_
  unfold ParentScan.entry
  constructor <;> bv_omega

/-- Where the scan is before round `k`, if there is a nearest slot `i`. -/
def Node.Scanned (n : Node) (i k : Nat) (s : ParentScan) : Prop :=
  (n.Above i s ∧ ∀ j < k, n.Nearest j → ¬ n.scanStart.Candidate n.neighbourhood j) ∨
    ∃ f e, n.FirstEntry f ∧ Relation.ReflTransGen n.NextEntry f e ∧ n.Nearest e ∧ e < k ∧
      (∀ j, e < j → j < k → n.Nearest j → ¬ n.Displaces e j) ∧ s = ParentScan.entry n.neighbourhood e

theorem Node.Scanned.visit {s : ParentScan} (hi : n.Nearest i) (hk : k < neighbourhoodSize)
    (h : n.Scanned i k s) : n.Scanned i (k + 1) (s.visit n.neighbourhood k) := by
  rcases h with ⟨habove, hno⟩ | ⟨f, e, hf, hpath, he, hek, hno, rfl⟩
  · by_cases hn : n.Nearest k
    · by_cases hc : s.Candidate n.neighbourhood k
      · -- the first nearest slot that is taken
        have hfirst : n.FirstEntry k := ⟨hn, (candidate_above hi habove hn).mp hc, hno⟩
        rw [ParentScan.visit_eq_entry hc]
        exact .inr ⟨k, k, hfirst, .refl, hn, Nat.lt_succ_self k, fun j hj hj' => by omega, rfl⟩
      · rw [ParentScan.visit_of_not_candidate hc]
        refine .inl ⟨habove, fun j hj hjn => ?_⟩
        rcases Nat.lt_succ_iff_lt_or_eq.mp hj with hlt | rfl
        · exact hno j hlt hjn
        · rwa [← candidate_above hi habove hjn]
    · have hno' : ∀ j < k + 1, n.Nearest j → ¬ n.scanStart.Candidate n.neighbourhood j := by
        intro j hj hjn
        rcases Nat.lt_succ_iff_lt_or_eq.mp hj with hlt | rfl
        · exact hno j hlt hjn
        · exact absurd hjn hn
      refine .inl ⟨?_, hno'⟩
      by_cases hc : s.Candidate n.neighbourhood k
      · rw [ParentScan.visit_eq_entry hc]
        exact above_entry hi habove hk hc hn
      · rw [ParentScan.visit_of_not_candidate hc]
        exact habove
  · refine .inr ?_
    by_cases hc : (ParentScan.entry n.neighbourhood e).Candidate n.neighbourhood k
    · -- the path goes on
      obtain ⟨hn, hdis⟩ := (candidate_entry he hk).mp hc
      rw [ParentScan.visit_eq_entry hc]
      exact ⟨f, k, hf, hpath.tail ⟨hek, hn, hdis, hno⟩, hn, Nat.lt_succ_self k,
        fun j hj hj' => by omega, rfl⟩
    · rw [ParentScan.visit_of_not_candidate hc]
      refine ⟨f, e, hf, hpath, he, Nat.lt_succ_of_lt hek, fun j hj hj' hjn hdis => ?_, rfl⟩
      rcases Nat.lt_succ_iff_lt_or_eq.mp hj' with hlt | rfl
      · exact hno j hj hlt hjn hdis
      · exact hc ((candidate_entry he hk).mpr ⟨hjn, hdis⟩)

theorem scanParent_path (h : n.HasCandidate) :
    ∃ f e, n.FirstEntry f ∧ n.EndsAt f e ∧ n.Nearest e ∧
      n.scanParent = ParentScan.entry n.neighbourhood e := by
  obtain ⟨i, hi⟩ := exists_nearest h
  have hscan : n.Scanned i neighbourhoodSize n.scanParent :=
    forRange_induct (P := n.Scanned i) (.inl ⟨.inl rfl, fun j hj => absurd hj (Nat.not_lt_zero j)⟩)
      fun k hk s hs => hs.visit hi hk
  rcases hscan with ⟨_, hno⟩ | ⟨f, e, hf, hpath, he, _, hlast, hs⟩
  · -- a candidate that is not nearest makes every nearest slot a candidate
    exfalso
    obtain ⟨c, hc, hcand⟩ := h
    have hcn : ¬ n.Nearest c := fun hn => hno c hc hn hcand
    have hlt : (n.neighbourhood c).neighborDistance < n.distance := hcand.2.1
    have hgt : (n.neighbourhood i).neighborDistance < (n.neighbourhood c).neighborDistance := by
      by_contra hle
      exact hcn (hi.of_le hc hcand.1 (BitVec.not_lt.mp hle))
    have hne : n.distance.toNat ≠ (n.neighbourhood i).neighborDistance.toNat + 1 := by bv_omega
    exact hno i hi.1 hi ⟨hi.2.1, hi.2.2.1, .inl hne⟩
  · exact ⟨f, e, hf, ⟨hpath, fun j hj hjn => hlast j hj hjn.1 hjn⟩, he, hs⟩

theorem firstEntry_unique {f' : Nat} (h : n.FirstEntry f) (h' : n.FirstEntry f') : f = f' := by
  rcases lt_trichotomy f f' with hlt | rfl | hgt
  · exact absurd h.2.1 (h'.2.2 f hlt h.1)
  · rfl
  · exact absurd h'.2.1 (h.2.2 f' hgt h'.1)

theorem nextEntry_rightUnique (n : Node) : Relator.RightUnique n.NextEntry := by
  intro i j j' h h'
  rcases lt_trichotomy j j' with hlt | rfl | hgt
  · exact absurd h.2.2.1 (h'.2.2.2 j h.1 hlt h.2.1)
  · rfl
  · exact absurd h'.2.2.1 (h.2.2.2 j' h'.1 hgt h'.2.1)

theorem eq_of_endsAt {e' : Nat} (h : n.EndsAt f e) (hp : Relation.ReflTransGen n.NextEntry e e') :
    e = e' := by
  rcases hp.cases_head with he | ⟨j, hj, _⟩
  · exact he
  · exact absurd hj.2.2.1 (h.2 j hj.1 hj.2.1)

theorem endsAt_unique {e' : Nat} (h : n.EndsAt f e) (h' : n.EndsAt f e') : e = e' := by
  rcases Relation.ReflTransGen.total_of_right_unique (nextEntry_rightUnique n) h.1 h'.1 with hp | hp
  · exact eq_of_endsAt h hp
  · exact (eq_of_endsAt h' hp).symm

theorem prefersBetterLink_nearest {m : Node} (he : n.Nearest e) (hi : m.parentIndex = BitVec.ofNat 8 e)
    (hs : m.neighbourhood = n.neighbourhood) :
    m.PrefersBetterLink ↔ ∀ j, n.Nearest j →
      (n.neighbourhood j).neighborRSSI.toNat ≤ (n.neighbourhood e).neighborRSSI.toNat + 5 := by
  have hidx : m.parentIndex.toNat = e := by
    rw [hi]
    exact slotIndex_toNat he.1
  have hne : m.parentIndex ≠ noParent := ne_noParent_of_lt (hidx.trans_lt he.1)
  unfold Node.PrefersBetterLink Node.parent
  rw [hidx, hs]
  constructor
  · intro h j hj
    by_cases hje : j = e
    · rw [hje]
      exact Nat.le_add_right _ 5
    · exact h hne j hj.1 hje hj.2.1 (hj.same_distance he)
  · intro h _ j hj _ hsym hdist
    exact h j (he.of_le hj hsym (hdist ▸ BitVec.le_refl _))

/-- After a parent search no other symmetric neighbour at the parent's distance has a link better by more than 5,
exactly if the search settles on the better link. -/
theorem prefersBetterLink_iff (dev : DeviceType) (n : Node) :
    (linkParentSwitch dev n).PrefersBetterLink ↔ (n.dropLostParent dev).SettlesOnBetterLink := by
  have hsw : linkParentSwitch dev n = (n.dropLostParent dev).adopt (n.dropLostParent dev).scanParent := rfl
  rw [hsw]
  generalize n.dropLostParent dev = m
  by_cases hc : m.HasCandidate
  · obtain ⟨f, e, hf, hend, he, hscan⟩ := scanParent_path hc
    obtain ⟨ev, hev⟩ := adopt_eq m m.scanParent
    rw [hev, hscan]
    have hparent := prefersBetterLink_nearest (m := m.withParent (ParentScan.entry m.neighbourhood e).depth
      (ParentScan.entry m.neighbourhood e).parentIdx (ParentScan.entry m.neighbourhood e).parentNeighborID
      (ParentScan.entry m.neighbourhood e).parentRSSI ev) he rfl rfl
    rw [hparent]
    constructor
    · intro h
      refine ⟨fun hno => absurd hc hno, fun f' e' hf' hend' => ?_⟩
      rw [firstEntry_unique hf' hf] at hend'
      rw [endsAt_unique hend' hend]
      exact h
    · intro h
      exact h.2 f e hf hend
  · rcases scanParent_cases m with ⟨_, hscan⟩ | ⟨hsome, _⟩
    · rw [hscan, adopt_scanStart]
      constructor
      · intro h
        exact ⟨fun _ => h, fun f _ hf => absurd ⟨f, hf.1.1, hf.2.1⟩ hc⟩
      · intro h
        exact h.1 hc
    · exact absurd hsome hc

/-- Along a path between slots of different neighbours the link gets better, and no nearest slot passed on the way
has a link better by more than 5 than the last. -/
theorem path_links (hu : ∀ i j, n.Nearest i → n.Nearest j →
      (n.neighbourhood i).addr16b = (n.neighbourhood j).addr16b → i = j)
    (hf : n.Nearest f) (hp : Relation.ReflTransGen n.NextEntry f e) :
    n.Nearest e ∧ (n.neighbourhood f).neighborRSSI.toNat ≤ (n.neighbourhood e).neighborRSSI.toNat ∧
      ∀ j, n.Nearest j → f ≤ j → j ≤ e →
        (n.neighbourhood j).neighborRSSI.toNat ≤ (n.neighbourhood e).neighborRSSI.toNat + 5 := by
  induction hp with
  | refl =>
    refine ⟨hf, le_rfl, fun j _ hfj hjf => ?_⟩
    rw [le_antisymm hjf hfj]
    exact Nat.le_add_right _ 5
  | @tail e e' _ hnext ih =>
    obtain ⟨hlt, hn', hdis, hno⟩ := hnext
    obtain ⟨hn, hfe, hpassed⟩ := ih
    have hbetter : (n.neighbourhood e).neighborRSSI.toNat + 5 < (n.neighbourhood e').neighborRSSI.toNat :=
      hdis.resolve_left fun ha => hlt.ne (hu e e' hn hn' ha)
    refine ⟨hn', by omega, fun j hj hfj hje' => ?_⟩
    rcases le_or_gt j e with hje | hej
    · have := hpassed j hj hfj hje
      omega
    · rcases Nat.lt_or_eq_of_le hje' with hjlt | rfl
      · have hle := not_or.mp (hno j hej hjlt hj)
        omega
      · omega

/-- The search settles on the better link if the nearest slots belong to different neighbours and the parent's
signal has not fallen since it was stored. -/
theorem settlesOnBetterLink_of_fresh (hc : n.HasCandidate)
    (hu : ∀ i j, n.Nearest i → n.Nearest j →
      (n.neighbourhood i).addr16b = (n.neighbourhood j).addr16b → i = j)
    (hfresh : ∀ i, n.Nearest i → n.parentNeighborID = (n.neighbourhood i).addr16b →
      n.parentRSSI.toNat ≤ (n.neighbourhood i).neighborRSSI.toNat) : n.SettlesOnBetterLink := by
  refine ⟨fun hno => absurd hc hno, fun f e hf hend j hj => ?_⟩
  obtain ⟨he, hfe, hpassed⟩ := path_links hu hf.1 hend.1
  rcases lt_or_ge j f with hjf | hfj
  · -- a slot that was passed over against the stored signal
    have hno := hf.2.2 j hjf hj
    have hcand := hf.2.1.2.2
    unfold ParentScan.Candidate at hno
    have hpass : n.distance.toNat = (n.neighbourhood j).neighborDistance.toNat + 1 ∧
        (n.neighbourhood j).neighborRSSI.toNat ≤ n.parentRSSI.toNat + 5 := by
      constructor
      · by_contra hne
        exact hno ⟨hj.2.1, hj.2.2.1, .inl hne⟩
      · by_contra hlt
        exact hno ⟨hj.2.1, hj.2.2.1, .inr (.inr (Nat.lt_of_not_le hlt))⟩
    have hstored : n.parentRSSI.toNat ≤ (n.neighbourhood f).neighborRSSI.toNat := by
      rcases hcand with hne | hid | hlt
      · rw [← hj.same_distance hf.1] at hne
        exact absurd hpass.1 hne
      · exact hfresh f hf.1 hid
      · have hlt' : n.parentRSSI.toNat + 5 < (n.neighbourhood f).neighborRSSI.toNat := hlt
        omega
    omega
  · rcases le_or_gt j e with hje | hej
    · exact hpassed j hj hfj hje
    · have hle := not_or.mp (hend.2 j hej hj)
      omega

end

/-- The parent 2 of a router in slot 1, whose signal fell from 100 to 40 since it was stored, and the neighbour 3
in slot 0, both at distance 0. -/
def fadedParent : Node :=
  { (default : Node) with
    distance := 1
    parentIndex := 1
    parentNeighborID := 2
    parentRSSI := 100
    neighbourhood := fun i =>
      match i with
      | 0 => { (default : UnetNeighborhood) with addr16b := 3, neighborRSSI := 100, symmetric := true }
      | 1 => { (default : UnetNeighborhood) with addr16b := 2, neighborRSSI := 40, symmetric := true }
      | _ => default }

/-- The neighbour in the slot before the parent's is compared with the signal the parent used to have. -/
theorem prefersBetterLink_fails : ¬ ∀ dev n, (linkParentSwitch dev n).PrefersBetterLink := by
  intro h
  have hle := h .router fadedParent (by decide +kernel) 0 (by decide) (by decide +kernel) (by decide +kernel)
    (by decide +kernel)
  exact absurd hle (by decide +kernel)

end Unet4Cooja
