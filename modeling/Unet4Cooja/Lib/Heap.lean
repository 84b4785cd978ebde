import Mathlib.Data.Multiset.Count
import Mathlib.Data.Multiset.Range
import Mathlib.Order.Basic

/-!
# Binary heaps in arrays from index 1 on

* `bag a n` : the entries `a 1`, …, `a n` with their multiplicities;
* `siftUp`, `siftDown` : the two loops that restore the order, for a comparison `less`;
* `Ordered key a n` : no entry has a smaller key than its parent, so the root has the least key
  (`Ordered.root_le`);
* `siftUp_bag`, `siftDown_bag` : both loops only rearrange the entries;
* `siftUp_ordered`, `siftDown_ordered` : they restore the order, if the number of rounds is not
  smaller than the number of entries they may pass;
* `siftUp_root_of_less`, `siftUp_root_of_not_less` : which entry is the root afterwards;
* `Ordered.append`, `Ordered.dropRoot`, `Ordered.decrease`, `Ordered.changeRoot` : what the loops
  start from.
-/

namespace Lib

variable {α : Type*}

/-! ## Entries -/

/-- The entries `a 1`, …, `a n`. -/
def bag (a : Nat → α) (n : Nat) : Multiset α := (Multiset.range n).map fun k => a (k + 1)

section Bag
variable {a b : Nat → α} {n i j k : Nat} {x : α}

@[simp] theorem bag_zero (a : Nat → α) : bag a 0 = 0 := rfl

theorem bag_succ (a : Nat → α) (n : Nat) : bag a (n + 1) = a (n + 1) ::ₘ bag a n := by
  unfold bag
  rw [Multiset.range_succ, Multiset.map_cons]

theorem bag_congr (h : ∀ k, 1 ≤ k → k ≤ n → a k = b k) : bag a n = bag b n := by
  apply Multiset.map_congr rfl
  intro k hk
  have hk := Multiset.mem_range.mp hk
  exact h (k + 1) (by omega) (by omega)

theorem mem_bag : x ∈ bag a n ↔ ∃ k, 1 ≤ k ∧ k ≤ n ∧ a k = x := by
  unfold bag
  simp only [Multiset.mem_map, Multiset.mem_range]
  constructor
  · rintro ⟨k, hk, he⟩
    exact ⟨k + 1, by omega, by omega, he⟩
  · rintro ⟨k, h1, hk, he⟩
    refine ⟨k - 1, by omega, ?_⟩
    rw [Nat.sub_add_cancel h1]
    exact he

theorem mem_bag_self (h1 : 1 ≤ k) (hk : k ≤ n) : a k ∈ bag a n := mem_bag.mpr ⟨k, h1, hk, rfl⟩

theorem bag_update_of_lt (h : n < i) : bag (Function.update a i x) n = bag a n := by
  apply bag_congr
  intro k _ hk
  exact Function.update_of_ne (by omega) _ _

theorem bag_update (h1 : 1 ≤ i) (hi : i ≤ n) :
    a i ::ₘ bag (Function.update a i x) n = x ::ₘ bag a n := by
  induction n with
  | zero => omega
  | succ n ih =>
    rw [bag_succ, bag_succ]
    rcases Nat.lt_or_ge n i with hlt | hge
    · obtain rfl : i = n + 1 := by omega
      rw [Function.update_self, bag_update_of_lt (Nat.lt_succ_self n), Multiset.cons_swap]
    · rw [Function.update_of_ne (by omega), Multiset.cons_swap, ih hge, Multiset.cons_swap]

end Bag

/-- The entries `i` and `j` change places. -/
def exchange (a : Nat → α) (i j : Nat) : Nat → α :=
  Function.update (Function.update a i (a j)) j (a i)

section Exchange
variable (a : Nat → α) {n i j k : Nat}

theorem exchange_left (i j : Nat) : exchange a i j i = a j := by
  unfold exchange
  by_cases h : i = j
  · rw [h, Function.update_self]
  · rw [Function.update_of_ne h, Function.update_self]

theorem exchange_right (i j : Nat) : exchange a i j j = a i := Function.update_self _ _ _

theorem exchange_of_ne (hi : k ≠ i) (hj : k ≠ j) : exchange a i j k = a k := by
  unfold exchange
  rw [Function.update_of_ne hj, Function.update_of_ne hi]

theorem bag_exchange (hi : 1 ≤ i ∧ i ≤ n) (hj : 1 ≤ j ∧ j ≤ n) : bag (exchange a i j) n = bag a n := by
  have hself : Function.update a i (a j) j = a j := by
    by_cases h : j = i
    · rw [h, Function.update_self]
    · rw [Function.update_of_ne h]
  have hsecond := bag_update (a := Function.update a i (a j)) (x := a i) hj.1 hj.2
  have hfirst := bag_update (a := a) (x := a j) hi.1 hi.2
  rw [hself, hfirst] at hsecond
  exact (Multiset.cons_inj_right (a j)).mp hsecond

end Exchange

/-! ## The two loops -/

/-- The entry `i` rises while it is less than its parent, in at most `fuel` rounds. -/
def siftUp (less : α → α → Bool) : Nat → (Nat → α) → Nat → Nat → α
  | 0, a, _ => a
  | fuel + 1, a, i =>
    if 1 < i ∧ less (a i) (a (i / 2)) = true then siftUp less fuel (exchange a (i / 2) i) (i / 2)
    else a

/-- The lesser child of `i` in an array of `n` entries; `2 * i` if there is at most one. -/
def lesserChild (less : α → α → Bool) (a : Nat → α) (i n : Nat) : Nat :=
  if 2 * i + 1 ≤ n ∧ less (a (2 * i + 1)) (a (2 * i)) = true then 2 * i + 1 else 2 * i

/-- The entry `i` sinks while its lesser child is less, in at most `fuel` rounds. -/
def siftDown (less : α → α → Bool) : Nat → (Nat → α) → Nat → Nat → Nat → α
  | 0, a, _, _ => a
  | fuel + 1, a, i, n =>
    let son := lesserChild less a i n
    if son ≤ n ∧ less (a son) (a i) = true then siftDown less fuel (exchange a son i) son n else a

section Entries
variable (less : α → α → Bool) {n : Nat}

theorem lesserChild_eq (a : Nat → α) (i n : Nat) :
    lesserChild less a i n = 2 * i ∨ lesserChild less a i n = 2 * i + 1 := by
  unfold lesserChild
  split
  · exact .inr rfl
  · exact .inl rfl

theorem siftUp_bag (fuel : Nat) (a : Nat → α) {i : Nat} (hi : i ≤ n) :
    bag (siftUp less fuel a i) n = bag a n := by
  induction fuel generalizing a i with
  | zero => rfl
  | succ fuel ih =>
    unfold siftUp
    split
    · rename_i h
      rw [ih _ (by omega), bag_exchange a ⟨by omega, by omega⟩ ⟨by omega, hi⟩]
    · rfl

theorem siftUp_of_lt (fuel : Nat) (a : Nat → α) {i k : Nat} (hk : k = 0 ∨ i < k) :
    siftUp less fuel a i k = a k := by
  induction fuel generalizing a i with
  | zero => rfl
  | succ fuel ih =>
    unfold siftUp
    split
    · rename_i h
      rw [ih _ (by omega), exchange_of_ne a (by omega) (by omega)]
    · rfl

theorem siftDown_bag (fuel : Nat) (a : Nat → α) {i : Nat} (hi : 1 ≤ i) :
    bag (siftDown less fuel a i n) n = bag a n := by
  induction fuel generalizing a i with
  | zero => rfl
  | succ fuel ih =>
    unfold siftDown
    have hson := lesserChild_eq less a i n
    dsimp only
    generalize lesserChild less a i n = son at hson
    split
    · rename_i h
      rw [ih _ (by omega), bag_exchange a ⟨by omega, by omega⟩ ⟨by omega, by omega⟩]
    · rfl

theorem siftDown_of_lt (fuel : Nat) (a : Nat → α) {i k : Nat} (hi : 1 ≤ i) (hk : k = 0 ∨ n < k) :
    siftDown less fuel a i n k = a k := by
  induction fuel generalizing a i with
  | zero => rfl
  | succ fuel ih =>
    unfold siftDown
    have hson := lesserChild_eq less a i n
    dsimp only
    generalize lesserChild less a i n = son at hson
    split
    · rename_i h
      rw [ih _ (by omega), exchange_of_ne a (by omega) (by omega)]
    · rfl

end Entries

/-! ## Order -/

section Order
variable {κ : Type*} [LinearOrder κ] (key : α → κ)

/-- No entry has a smaller key than its parent. -/
def Ordered (a : Nat → α) (n : Nat) : Prop := ∀ i, 2 ≤ i → i ≤ n → key (a (i / 2)) ≤ key (a i)

/-- Between the entries, `less` compares the keys. -/
def Compares (less : α → α → Bool) (a : Nat → α) (n : Nat) : Prop :=
  ∀ x ∈ bag a n, ∀ y ∈ bag a n, less x y = true ↔ key x < key y

/-- The order is broken between the entry `i` and its parent only. -/
structure UpOrdered (a : Nat → α) (n i : Nat) : Prop where
  pairs : ∀ j, 2 ≤ j → j ≤ n → j ≠ i → key (a (j / 2)) ≤ key (a j)
  grand : 2 ≤ i → ∀ j, j ≤ n → j / 2 = i → key (a (i / 2)) ≤ key (a j)

/-- The order is broken between the entry `i` and its children only. -/
structure DownOrdered (a : Nat → α) (n i : Nat) : Prop where
  pairs : ∀ j, 2 ≤ j → j ≤ n → j / 2 ≠ i → key (a (j / 2)) ≤ key (a j)
  grand : 2 ≤ i → ∀ j, j ≤ n → j / 2 = i → key (a (i / 2)) ≤ key (a j)

variable {key} {less : α → α → Bool} {a b : Nat → α} {n i : Nat} {x : α}

theorem Ordered.root_le_entry (h : Ordered key a n) (h1 : 1 ≤ i) (hi : i ≤ n) :
    key (a 1) ≤ key (a i) := by
  induction i using Nat.strongRecOn with
  | _ i ih =>
    rcases Nat.lt_or_ge i 2 with hlt | hge
    · obtain rfl : i = 1 := by omega
      exact le_rfl
    · exact (ih (i / 2) (by omega) (by omega) (by omega)).trans (h i hge hi)

theorem Ordered.root_le (h : Ordered key a n) (hx : x ∈ bag a n) : key (a 1) ≤ key x := by
  obtain ⟨k, h1, hk, rfl⟩ := mem_bag.mp hx
  exact h.root_le_entry h1 hk

theorem Ordered.congr {key' : α → κ} (h : Ordered key a n)
    (he : ∀ k, 1 ≤ k → k ≤ n → key' (b k) = key (a k)) : Ordered key' b n := by
  intro i h2 hi
  rw [he _ (by omega) (by omega), he _ (by omega) hi]
  exact h i h2 hi

theorem Compares.iff (h : Compares key less a n) {j : Nat} (hi : 1 ≤ i ∧ i ≤ n) (hj : 1 ≤ j ∧ j ≤ n) :
    less (a i) (a j) = true ↔ key (a i) < key (a j) :=
  h _ (mem_bag_self hi.1 hi.2) _ (mem_bag_self hj.1 hj.2)

theorem Compares.of_bag (h : Compares key less a n) (he : bag b n = bag a n) :
    Compares key less b n := by
  unfold Compares
  rw [he]
  exact h

theorem UpOrdered.exchange (h : UpOrdered key a n i) (hi : 2 ≤ i)
    (hlt : key (a i) < key (a (i / 2))) : UpOrdered key (exchange a (i / 2) i) n (i / 2) := by
  refine ⟨fun j h2 hj hne => ?_, fun h4 j hj hji => ?_⟩
  · by_cases hji : j = i
    · rw [hji, exchange_left, exchange_right]
      exact hlt.le
    · rw [exchange_of_ne a hne hji]
      by_cases hparent : j / 2 = i
      · rw [hparent, exchange_right]
        exact h.grand hi j hj hparent
      · by_cases hsibling : j / 2 = i / 2
        · rw [hsibling, exchange_left]
          have hpair := h.pairs j h2 hj hji
          rw [hsibling] at hpair
          exact hlt.le.trans hpair
        · rw [exchange_of_ne a hsibling hparent]
          exact h.pairs j h2 hj hji
  · have hup := h.pairs (i / 2) h4 (by omega) (by omega)
    rw [exchange_of_ne a (by omega) (by omega)]
    by_cases he : j = i
    · rw [he, exchange_right]
      exact hup
    · rw [exchange_of_ne a (by omega) he]
      have hpair := h.pairs j (by omega) hj he
      rw [hji] at hpair
      exact hup.trans hpair

theorem siftUp_ordered {fuel : Nat} (h : UpOrdered key a n i) (hc : Compares key less a n)
    (h1 : 1 ≤ i) (hi : i ≤ n) (hf : i ≤ fuel) : Ordered key (siftUp less fuel a i) n := by
  induction fuel generalizing a i with
  | zero => omega
  | succ fuel ih =>
    unfold siftUp
    split
    · rename_i hup
      have hlt := (hc.iff ⟨h1, hi⟩ ⟨by omega, by omega⟩).mp hup.2
      apply ih (h.exchange hup.1 hlt) _ (by omega) (by omega) (by omega)
      exact hc.of_bag (bag_exchange a ⟨by omega, by omega⟩ ⟨h1, hi⟩)
    · rename_i hstop
      intro j h2 hj
      by_cases he : j = i
      · rw [he]
        apply le_of_not_gt
        intro hlt
        exact hstop ⟨by omega, (hc.iff ⟨h1, hi⟩ ⟨by omega, by omega⟩).mpr hlt⟩
      · exact h.pairs j h2 hj he

theorem siftUp_root_of_less {fuel : Nat} (h1 : 1 ≤ i) (hf : i ≤ fuel)
    (hless : ∀ k, 1 ≤ k → k < i → less (a i) (a k) = true) : siftUp less fuel a i 1 = a i := by
  induction fuel generalizing a i with
  | zero => omega
  | succ fuel ih =>
    unfold siftUp
    split
    · rename_i hup
      rw [ih (by omega) (by omega), exchange_left]
      intro k hk hlt
      rw [exchange_left, exchange_of_ne a (by omega) (by omega)]
      exact hless k hk (by omega)
    · rename_i hstop
      rcases Nat.lt_or_ge 1 i with h2 | h2
      · exact absurd ⟨h2, hless _ (by omega) (by omega)⟩ hstop
      · rw [show i = 1 by omega]

theorem siftUp_root_of_not_less {fuel : Nat} (hi : 2 ≤ i) (hless : less (a i) (a 1) = false) :
    siftUp less fuel a i 1 = a 1 := by
  induction fuel generalizing a i with
  | zero => rfl
  | succ fuel ih =>
    unfold siftUp
    split
    · rename_i hup
      have h4 : 2 ≤ i / 2 := by
        by_contra hlt
        rw [show i / 2 = 1 by omega, hless] at hup
        exact Bool.false_ne_true hup.2
      rw [ih h4, exchange_of_ne a (by omega) (by omega)]
      rw [exchange_left, exchange_of_ne a (by omega) (by omega)]
      exact hless
    · rfl

theorem lesserChild_le (hc : Compares key less a n) (h1 : 1 ≤ i) {j : Nat} (hj : j ≤ n)
    (hji : j / 2 = i) : lesserChild less a i n ≤ n ∧ key (a (lesserChild less a i n)) ≤ key (a j) := by
  have hcase : j = 2 * i ∨ j = 2 * i + 1 := by omega
  unfold lesserChild
  split
  · rename_i hr
    have hlt := (hc.iff ⟨by omega, hr.1⟩ ⟨by omega, by omega⟩).mp hr.2
    refine ⟨hr.1, ?_⟩
    rcases hcase with rfl | rfl
    · exact hlt.le
    · exact le_rfl
  · rename_i hl
    refine ⟨by omega, ?_⟩
    rcases hcase with rfl | rfl
    · exact le_rfl
    · apply le_of_not_gt
      intro hlt
      exact hl ⟨hj, (hc.iff ⟨by omega, hj⟩ ⟨by omega, by omega⟩).mpr hlt⟩

theorem DownOrdered.exchange (h : DownOrdered key a n i) {son : Nat}
    (hson : son / 2 = i) (hmin : ∀ j, j ≤ n → j / 2 = i → key (a son) ≤ key (a j)) (hn : son ≤ n)
    (hlt : key (a son) < key (a i)) : DownOrdered key (exchange a son i) n son := by
  refine ⟨fun j h2 hj hne => ?_, fun h2 j hj hjs => ?_⟩
  · by_cases hchild : j / 2 = i
    · rw [hchild, exchange_right]
      by_cases he : j = son
      · rw [he, exchange_left]
        exact hlt.le
      · rw [exchange_of_ne a he (by omega)]
        exact hmin j hj hchild
    · rw [exchange_of_ne a hne hchild]
      by_cases he : j = i
      · rw [he, exchange_right]
        exact h.grand (he ▸ h2) son hn hson
      · rw [exchange_of_ne a (by omega) he]
        exact h.pairs j h2 hj hchild
  · rw [hson, exchange_right, exchange_of_ne a (by omega) (by omega)]
    have hpair := h.pairs j (by omega) hj (by omega)
    rwa [hjs] at hpair

theorem siftDown_ordered {fuel : Nat} (h : DownOrdered key a n i) (hc : Compares key less a n)
    (h1 : 1 ≤ i) (hf : n < i + fuel) : Ordered key (siftDown less fuel a i n) n := by
  induction fuel generalizing a i with
  | zero => exact fun j h2 hj => h.pairs j h2 hj (by omega)
  | succ fuel ih =>
    unfold siftDown
    have hmin := fun j (hj : j ≤ n) (hji : j / 2 = i) => lesserChild_le hc h1 hj hji
    have hson := lesserChild_eq less a i n
    dsimp only
    generalize lesserChild less a i n = son at hmin hson
    split
    · rename_i hdown
      have hlt := (hc.iff ⟨by omega, hdown.1⟩ ⟨h1, by omega⟩).mp hdown.2
      apply ih (h.exchange (by omega) (fun j hj hji => (hmin j hj hji).2) hdown.1 hlt) _
        (by omega) (by omega)
      exact hc.of_bag (bag_exchange a ⟨by omega, hdown.1⟩ ⟨h1, by omega⟩)
    · rename_i hstop
      intro j h2 hj
      by_cases hchild : j / 2 = i
      · obtain ⟨hle, hkey⟩ := hmin j hj hchild
        rw [hchild]
        refine le_trans (le_of_not_gt fun hlt => hstop ⟨hle, ?_⟩) hkey
        exact (hc.iff ⟨by omega, hle⟩ ⟨h1, by omega⟩).mpr hlt
      · exact h.pairs j h2 hj hchild

/-! ## Insertion, removal, new keys -/

/-- The last entry replaces the root, and `nil` the last entry. -/
def dropRoot (nil : α) (a : Nat → α) (n : Nat) : Nat → α :=
  Function.update (Function.update a 1 (a n)) n nil

theorem bag_append : bag (Function.update a (n + 1) x) (n + 1) = x ::ₘ bag a n := by
  rw [bag_succ, Function.update_self, bag_update_of_lt (Nat.lt_succ_self n)]

theorem bag_dropRoot (nil : α) (h1 : 1 ≤ n) : a 1 ::ₘ bag (dropRoot nil a n) (n - 1) = bag a n := by
  obtain ⟨m, rfl⟩ : ∃ m, n = m + 1 := ⟨n - 1, by omega⟩
  unfold dropRoot
  rw [Nat.add_sub_cancel, bag_update_of_lt (Nat.lt_succ_self m), bag_succ]
  rcases Nat.eq_zero_or_pos m with rfl | hm
  · rfl
  · exact bag_update (Nat.le_refl 1) hm

theorem Ordered.append (h : Ordered key a n) (x : α) :
    UpOrdered key (Function.update a (n + 1) x) (n + 1) (n + 1) := by
  refine ⟨fun j h2 hj hne => ?_, fun _ j hj hji => by omega⟩
  rw [Function.update_of_ne (by omega), Function.update_of_ne hne]
  exact h j h2 (by omega)

theorem Ordered.dropRoot (h : Ordered key a n) (nil : α) :
    DownOrdered key (Lib.dropRoot nil a n) (n - 1) 1 := by
  refine ⟨fun j h2 hj hne => ?_, fun h2 => by omega⟩
  unfold Lib.dropRoot
  rw [Function.update_of_ne (by omega), Function.update_of_ne (by omega),
    Function.update_of_ne (by omega), Function.update_of_ne (by omega)]
  exact h j h2 (by omega)

theorem Ordered.decrease {key' : α → κ} (h : Ordered key a n) (hi : 1 ≤ i ∧ i ≤ n)
    (hkey : key' (a i) ≤ key (a i))
    (hsame : ∀ k, 1 ≤ k → k ≤ n → k ≠ i → key' (a k) = key (a k)) : UpOrdered key' a n i := by
  have hle : ∀ k, 1 ≤ k → k ≤ n → key' (a k) ≤ key (a k) := by
    intro k h1 hk
    by_cases he : k = i
    · rw [he]
      exact hkey
    · exact (hsame k h1 hk he).le
  refine ⟨fun j h2 hj hne => ?_, fun h2 j hj hji => ?_⟩
  · rw [hsame j (by omega) hj hne]
    exact (hle (j / 2) (by omega) (by omega)).trans (h j h2 hj)
  · rw [hsame j (by omega) hj (by omega), hsame (i / 2) (by omega) (by omega) (by omega)]
    have hpair := h j (by omega) hj
    rw [hji] at hpair
    exact (h i h2 hi.2).trans hpair

theorem Ordered.changeRoot {key' : α → κ} (h : Ordered key a n)
    (hsame : ∀ k, 2 ≤ k → k ≤ n → key' (a k) = key (a k)) : DownOrdered key' a n 1 := by
  refine ⟨fun j h2 hj hne => ?_, fun h2 => by omega⟩
  rw [hsame j h2 hj, hsame (j / 2) (by omega) (by omega)]
  exact h j h2 hj

end Order

end Lib
