import Unet4Cooja.Lib.Runs

/-!
# Distance vectors with feasible choices

* `View` : a forest of nodes with depths, and the depths of each node that are known elsewhere;
* `View.Step` : one node moves. It keeps or lowers its depth, gives up its parent, or makes a
  feasible choice: a new depth that is at most every known depth of the node and below the depth of
  every child it has;
* `View.Inv` : an attached node is not deeper than it is known to be, and children are deeper;
  `View.Inv.step` keeps it and `View.Inv.no_cycle` reads it.
-/

namespace Lib

/-- What a distance vector protocol knows about its nodes. -/
structure View (ι : Type*) where
  up : ι → ι → Prop
  attached : ι → Prop
  depth : ι → Nat
  known : ι → Nat → Prop

namespace View
variable {ι : Type*} {v w : View ι} {x : ι}

/-- A known depth of a node is an upper bound of its depth, and depth falls towards the root. -/
structure Inv (v : View ι) : Prop where
  attached_of_up : ∀ i j, v.up i j → v.attached i
  bound : ∀ j d, v.attached j → v.known j d → v.depth j ≤ d
  fall : ∀ i j, v.up i j → v.attached j → v.depth j < v.depth i

/-- The depth `d` is feasible for `x`: nothing known about `x` promises a smaller one. -/
def Feasible (v : View ι) (x : ι) (d : Nat) : Prop :=
  (∀ e, v.known x e → d ≤ e) ∧ ∀ i, v.up i x → d < v.depth i

/-- `x` moves and every other node stays. -/
structure Step (x : ι) (v w : View ι) : Prop where
  others_up : ∀ i j, i ≠ x → w.up i j → v.up i j
  others_attached : ∀ i, i ≠ x → (w.attached i ↔ v.attached i)
  others_depth : ∀ i, i ≠ x → w.depth i = v.depth i
  known : ∀ j d, w.known j d → v.known j d ∨ (j = x ∧ d = w.depth x)
  attached : w.attached x → (v.attached x ∧ w.depth x ≤ v.depth x) ∨ v.Feasible x (w.depth x)
  attached_of_up : ∀ j, w.up x j → w.attached x
  up : ∀ j, w.up x j →
    (v.up x j ∧ w.depth x = v.depth x) ∨ ∃ d, v.known j d ∧ d < w.depth x

theorem Inv.step (h : Inv v) (hs : Step x v w) : Inv w := by
  have hbound : ∀ d, w.attached x → v.known x d → w.depth x ≤ d := by
    intro d ha hk
    rcases hs.attached ha with ⟨hv, hle⟩ | hf
    · exact Nat.le_trans hle (h.bound x d hv hk)
    · exact hf.1 d hk
  refine ⟨fun i j hu => ?_, fun j d ha hk => ?_, fun i j hu ha => ?_⟩
  · by_cases hi : i = x
    · rw [hi] at hu ⊢
      exact hs.attached_of_up j hu
    · exact (hs.others_attached i hi).mpr (h.attached_of_up i j (hs.others_up i j hi hu))
  · by_cases hj : j = x
    · subst hj
      rcases hs.known j d hk with hv | ⟨_, rfl⟩
      · exact hbound d ha hv
      · exact Nat.le_refl _
    · rw [hs.others_depth j hj]
      rcases hs.known j d hk with hv | ⟨he, _⟩
      · exact h.bound j d ((hs.others_attached j hj).mp ha) hv
      · exact absurd he hj
  · by_cases hi : i = x
    · subst hi
      by_cases hj : j = i
      · -- a node never becomes its own parent
        subst hj
        rcases hs.up j hu with ⟨hv, hd⟩ | ⟨d, hk, hlt⟩
        · rcases hs.attached ha with ⟨hva, _⟩ | hf
          · exact absurd (h.fall j j hv hva) (Nat.lt_irrefl _)
          · have := hf.2 j hv
            omega
        · exact absurd (hbound d ha hk) (Nat.not_le.mpr hlt)
      · rw [hs.others_depth j hj]
        have hva := (hs.others_attached j hj).mp ha
        rcases hs.up j hu with ⟨hv, hd⟩ | ⟨d, hk, hlt⟩
        · rw [hd]
          exact h.fall i j hv hva
        · exact Nat.lt_of_le_of_lt (h.bound j d hva hk) hlt
    · have hv := hs.others_up i j hi hu
      rw [hs.others_depth i hi]
      by_cases hj : j = x
      · subst hj
        rcases hs.attached ha with ⟨hva, hle⟩ | hf
        · exact Nat.lt_of_le_of_lt hle (h.fall i j hv hva)
        · exact hf.2 i hv
      · rw [hs.others_depth j hj]
        exact h.fall i j hv ((hs.others_attached j hj).mp ha)

theorem Inv.no_cycle (h : Inv v) (i : ι) : ¬ Relation.TransGen v.up i i :=
  no_cycle_of_rank v.depth (fun i j hu ⟨k, hk⟩ => h.fall i j hu (h.attached_of_up j k hk)) i

end View

end Lib
