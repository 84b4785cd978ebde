import Unet4Cooja.Lib.Chain
import Unet4Cooja.Lib.Numerals
import Unet4Cooja.Lib.Returns
import Mathlib.Data.Fintype.Card

/-!
# Linked lists (`list.c`)

The lists of a mote share the pointers of their elements: `*list` of each list, and `next` of each element. A walk
along pointers takes `fuel` rounds at most.

* `Lists`, `listHead`, `listAdd`, `listRemove`, ... : the functions;
* `Represents` : each list has certain elements, and no element is in two lists;
* `removeFrom_eq`, `listAdd_eq`, ... : what a function does to the elements;
* `ListCall`, `calls_eq` : calls for any of the lists, in any order.
-/

namespace Unet4Cooja.Contiki
open Lib

/-- `*list` for each list, and `next` of each element. -/
structure Lists (κ ν : Type*) where
  head : κ → Option ν
  next : ν → Option ν

section
variable {κ ν : Type*} [DecidableEq κ] [DecidableEq ν] (fuel : Nat) (s : Lists κ ν) (list : κ) (item : ν)

namespace Lists

def setHead (o : Option ν) : Lists κ ν := { s with head := Function.update s.head list o }

def setNext (o : Option ν) : Lists κ ν := { s with next := Function.update s.next item o }

omit [DecidableEq κ] in
@[simp] theorem setNext_self (o : Option ν) : (s.setNext item o).next item = o := Function.update_self _ _ _

end Lists

def listInit : Lists κ ν := s.setHead list none

def listHead : Option ν := s.head list

def listTail : Option (Option ν) :=
  match s.head list with
  | none => some none
  | some l => (whileLoop (fun l => (s.next l).isSome) (fun l => (s.next l).getD l) fuel l).map some

/-- What the loop of `list_remove` does when it has found the item behind `r`. -/
def unlink (r : Option ν) : Lists κ ν :=
  let s :=
    match r with
    | none => s.setHead list (s.next item)
    | some r => s.setNext r (s.next item)
  s.setNext item none

/-- The loop of `list_remove`. -/
def removeFrom : Nat → Option ν → Option ν → Option (Lists κ ν)
  | _, _, none => some s
  | 0, _, some _ => none
  | fuel + 1, r, some l => if l = item then some (unlink s list item r) else removeFrom fuel (some l) (s.next l)

def listRemove : Option (Lists κ ν) := removeFrom s list item fuel none (s.head list)

def listAdd : Option (Lists κ ν) :=
  (listRemove fuel s list item).bind fun s =>
    let s := s.setNext item none
    (listTail fuel s list).map fun
      | none => s.setHead list (some item)
      | some l => s.setNext l (some item)

def listPush : Option (Lists κ ν) :=
  (listRemove fuel s list item).map fun s =>
    (s.setNext item (s.head list)).setHead list (some item)

def listChop : Option (Option ν × Lists κ ν) :=
  match s.head list with
  | none => some (none, s)
  | some first =>
    if s.next first = none then some (some first, s.setHead list none)
    else
      (whileLoop (fun l => ((s.next l).bind s.next).isSome) (fun l => (s.next l).getD l) fuel first).map fun l =>
        (s.next l, s.setNext l none)

def listPop : Option ν × Lists κ ν :=
  match s.head list with
  | none => (none, s)
  | some l => (some l, s.setHead list (s.next l))

/-- The loop of `list_length`. -/
def lengthFrom : Nat → Nat → Option ν → Option Nat
  | _, n, none => some n
  | 0, _, some _ => none
  | fuel + 1, n, some l => lengthFrom fuel (n + 1) (s.next l)

def listLength : Option Nat := lengthFrom s fuel 0 (s.head list)

def listInsert (previtem : Option ν) : Option (Lists κ ν) :=
  match previtem with
  | none => listPush fuel s list item
  | some prev =>
    let s := s.setNext item (s.next prev)
    some (s.setNext prev (some item))

def listItemNext (item : Option ν) : Option ν := item.bind s.next

end

/-! ## The elements -/

section
variable {κ ν : Type*}

/-- The lists have the elements `elems`, each in one list at most and once. -/
structure Represents (s : Lists κ ν) (elems : κ → List ν) : Prop where
  chain : ∀ k, Chain s.next (s.head k) (elems k) none
  nodup : ∀ k, (elems k).Nodup
  apart : ∀ j k, j ≠ k → ∀ x ∈ elems j, x ∉ elems k

/-- No list but `list` has the item. -/
def Elsewhere (elems : κ → List ν) (list : κ) (item : ν) : Prop := ∀ k, k ≠ list → item ∉ elems k

variable {s t : Lists κ ν} {elems : κ → List ν} {k : κ} {x y : ν} {xs ys : List ν} {fuel : Nat} {o r : Option ν}

theorem Represents.length_le [Fintype ν] (h : Represents s elems) (k : κ) :
    (elems k).length ≤ Fintype.card ν := (h.nodup k).length_le_card

theorem Represents.ne_of_mem (h : Represents s elems) {j : κ} (hj : j ≠ k) (hy : y ∈ elems j) (hx : x ∈ elems k) :
    y ≠ x := fun e => h.apart j k hj y hy (e ▸ hx)

theorem lengthFrom_eq {n : Nat} (hc : Chain s.next o xs none) (hf : xs.length ≤ fuel) :
    lengthFrom s fuel n o = some (n + xs.length) := by
  induction xs generalizing fuel o n with
  | nil =>
    obtain rfl : o = none := hc
    cases fuel <;> rfl
  | cons x xs ih =>
    obtain ⟨rfl, hrest⟩ := hc
    obtain ⟨k, rfl⟩ : ∃ k, fuel = k + 1 := ⟨fuel - 1, by rw [List.length_cons] at hf; omega⟩
    rw [lengthFrom, ih hrest (by rw [List.length_cons] at hf; omega), List.length_cons, Nat.add_assoc,
      Nat.add_comm 1]

variable [DecidableEq ν]

theorem Represents.setNext (h : Represents s elems) (hx : ∀ k, x ∉ elems k) : Represents (s.setNext x o) elems where
  chain := fun k => (h.chain k).update (hx k) o
  nodup := h.nodup
  apart := h.apart

variable [DecidableEq κ]

omit [DecidableEq ν] in
theorem Represents.change (h : Represents s elems) (hchain : Chain t.next (t.head k) xs none) (hnodup : xs.Nodup)
    (hapart : ∀ x ∈ xs, ∀ j, j ≠ k → x ∉ elems j) (hhead : ∀ j, j ≠ k → t.head j = s.head j)
    (hnext : ∀ j, j ≠ k → ∀ x ∈ elems j, t.next x = s.next x) : Represents t (Function.update elems k xs) where
  chain := by
    intro j
    by_cases hj : j = k
    · subst hj
      rwa [Function.update_self]
    · rw [Function.update_of_ne hj, hhead j hj]
      exact (h.chain j).congr (hnext j hj)
  nodup := by
    intro j
    by_cases hj : j = k
    · subst hj
      rwa [Function.update_self]
    · rw [Function.update_of_ne hj]
      exact h.nodup j
  apart := by
    intro i j hij x hx
    by_cases hi : i = k
    · subst hi
      rw [Function.update_self] at hx
      rw [Function.update_of_ne hij.symm]
      exact hapart x hx j hij.symm
    · rw [Function.update_of_ne hi] at hx
      by_cases hj : j = k
      · subst hj
        rw [Function.update_self]
        exact fun hmem => hapart x hmem i hij hx
      · rw [Function.update_of_ne hj]
        exact h.apart i j hij x hx

theorem removeFrom_notMem (hc : Chain s.next o xs none) (hx : x ∉ xs) (hf : xs.length ≤ fuel) :
    removeFrom s k x fuel r o = some s := by
  induction xs generalizing fuel r o with
  | nil =>
    obtain rfl : o = none := hc
    cases fuel <;> rfl
  | cons y ys ih =>
    obtain ⟨rfl, hrest⟩ := hc
    obtain ⟨n, rfl⟩ : ∃ n, fuel = n + 1 := ⟨fuel - 1, by rw [List.length_cons] at hf; omega⟩
    rw [removeFrom, if_neg (List.ne_of_not_mem_cons hx).symm]
    exact ih hrest (List.not_mem_of_not_mem_cons hx) (by rw [List.length_cons] at hf; omega)

theorem removeFrom_mem (hc : Chain s.next o (xs ++ x :: ys) none) (hx : x ∉ xs) (hf : xs.length < fuel) :
    removeFrom s k x fuel r o = some (unlink s k x (DList.last r xs)) := by
  induction xs generalizing fuel r o with
  | nil =>
    obtain ⟨rfl, -⟩ := hc
    obtain ⟨n, rfl⟩ : ∃ n, fuel = n + 1 := ⟨fuel - 1, by rw [List.length_nil] at hf; omega⟩
    rw [removeFrom, if_pos rfl]
    rfl
  | cons y zs ih =>
    obtain ⟨rfl, hrest⟩ := hc
    obtain ⟨n, rfl⟩ : ∃ n, fuel = n + 1 := ⟨fuel - 1, by rw [List.length_cons] at hf; omega⟩
    rw [removeFrom, if_neg (List.ne_of_not_mem_cons hx).symm]
    exact ih hrest (List.not_mem_of_not_mem_cons hx) (by rw [List.length_cons] at hf; omega)

/-! ### Each function -/

theorem Represents.unlink (h : Represents s elems) (hk : elems k = xs ++ x :: ys) :
    Represents (unlink s k x (DList.last none xs)) (Function.update elems k (xs ++ ys)) := by
  have hchain := h.chain k
  have hnodup := h.nodup k
  have hmem : ∀ y, y ∈ elems k ↔ y = x ∨ y ∈ xs ++ ys := by
    intro y
    rw [hk, List.mem_append, List.mem_append, List.mem_cons]
    exact or_left_comm
  rw [hk] at hchain hnodup
  obtain ⟨hx, hrest⟩ := List.nodup_cons.mp (List.nodup_middle.mp hnodup)
  have hapart : ∀ y ∈ xs ++ ys, ∀ j, j ≠ k → y ∉ elems j :=
    fun y hy j hj => h.apart k j hj.symm y ((hmem y).mpr (Or.inr hy))
  have hxk : x ∈ elems k := (hmem x).mpr (Or.inl rfl)
  rcases List.eq_nil_or_concat' xs with rfl | ⟨zs, z, rfl⟩
  · obtain ⟨-, hys⟩ := hchain
    apply h.change ?_ hrest hapart
    · exact fun j hj => Function.update_of_ne hj _ _
    · exact fun j hj y hy => Function.update_of_ne (h.ne_of_mem hj hy hxk) _ _
    · show Chain (Function.update s.next x none) (Function.update s.head k (s.next x) k) ys none
      rw [Function.update_self]
      exact hys.update hx none
  · obtain ⟨q, hzs, rfl, hys⟩ := chain_append.mp hchain
    have hzk : z ∈ elems k := (hmem z).mpr (Or.inr (by simp))
    have hz : z ∉ zs ++ ys := by
      rw [List.append_assoc] at hrest
      exact (List.nodup_cons.mp (List.nodup_middle.mp hrest)).1
    have hx' : x ∉ zs ++ [z] := fun hmem => hx (List.mem_append_left _ hmem)
    apply h.change ?_ hrest hapart
    · intro j hj
      rw [DList.last_concat]
      rfl
    · intro j hj y hy
      rw [DList.last_concat]
      show Function.update (Function.update s.next z (s.next x)) x none y = _
      rw [Function.update_of_ne (h.ne_of_mem hj hy hxk), Function.update_of_ne (h.ne_of_mem hj hy hzk)]
    · rw [DList.last_concat]
      show Chain (Function.update (Function.update s.next z (s.next x)) x none) (s.head k) _ none
      refine chain_append.mpr ⟨s.next x, ?_, ?_⟩
      · exact (hzs.relink fun hmem => hz (List.mem_append_left _ hmem)).update hx' none
      · apply Chain.update _ (fun hmem => hx (List.mem_append_right _ hmem))
        exact hys.update (fun hmem => hz (List.mem_append_right _ hmem)) _

omit [DecidableEq ν] in
theorem Represents.update_self (h : Represents s elems) : Represents s (Function.update elems k (elems k)) := by
  rwa [Function.update_eq_self]

theorem listRemove_eq (h : Represents s elems) (hf : (elems k).length ≤ fuel) :
    ∃ t, listRemove fuel s k x = some t ∧ Represents t (Function.update elems k ((elems k).erase x)) := by
  by_cases hx : x ∈ elems k
  · obtain ⟨xs, ys, hxs, hk, herase⟩ := List.exists_erase_eq hx
    refine ⟨_, ?_, herase ▸ h.unlink hk⟩
    have hchain := h.chain k
    rw [hk] at hchain hf
    rw [List.length_append, List.length_cons] at hf
    exact removeFrom_mem hchain hxs (by omega)
  · rw [List.erase_of_not_mem hx]
    exact ⟨s, removeFrom_notMem (h.chain k) hx hf, h.update_self⟩

theorem listRemove_next (h : Represents s elems) (hf : (elems k).length ≤ fuel) (hx : x ∈ elems k)
    (ht : listRemove fuel s k x = some t) : t.next x = none := by
  obtain ⟨xs, ys, hxs, hk, -⟩ := List.exists_erase_eq hx
  have hchain := h.chain k
  rw [hk] at hchain hf
  rw [List.length_append, List.length_cons] at hf
  have hrun : listRemove fuel s k x = _ := removeFrom_mem hchain hxs (by omega)
  rw [hrun] at ht
  obtain rfl := Option.some.inj ht
  exact Lists.setNext_self _ _ _

omit [DecidableEq ν] [DecidableEq κ] in
theorem listTail_eq (h : Represents s elems) (hf : (elems k).length ≤ fuel) :
    listTail fuel s k = some (elems k).getLast? := by
  have hchain := h.chain k
  unfold listTail
  cases hk : elems k with
  | nil =>
    rw [hk] at hchain
    rw [show s.head k = none from hchain]
    rfl
  | cons x xs =>
    rw [hk] at hchain hf
    obtain ⟨hhead, hxs⟩ := hchain
    rw [hhead]
    dsimp only
    rw [whileLoop_last hxs (by rw [List.length_cons] at hf; omega), List.getLast?_cons]
    rfl

theorem Represents.concat (h : Represents s elems) (hx : ∀ j, x ∉ elems j) (hnull : s.next x = none) :
    Represents (match (elems k).getLast? with
      | none => s.setHead k (some x)
      | some l => s.setNext l (some x)) (Function.update elems k (elems k ++ [x])) := by
  have hchain := h.chain k
  have hnodup : (elems k ++ [x]).Nodup := by
    rw [List.nodup_middle, List.append_nil]
    exact List.nodup_cons.mpr ⟨hx k, h.nodup k⟩
  have hapart : ∀ y ∈ elems k ++ [x], ∀ j, j ≠ k → y ∉ elems j := by
    intro y hy j hj
    rcases List.mem_append.mp hy with hy | hy
    · exact h.apart k j hj.symm y hy
    · rw [List.mem_singleton.mp hy]
      exact hx j
  rcases List.eq_nil_or_concat' (elems k) with hk | ⟨zs, z, hk⟩
  · rw [hk] at hnodup hapart ⊢
    apply h.change ?_ hnodup hapart
    · exact fun j hj => Function.update_of_ne hj _ _
    · exact fun _ _ _ _ => rfl
    · show Chain s.next (Function.update s.head k (some x) k) [x] none
      rw [Function.update_self]
      exact ⟨rfl, hnull⟩
  · have hzk : z ∈ elems k := by simp [hk]
    have hxz : x ≠ z := fun e => hx k (e ▸ hzk)
    have hzs : z ∉ zs := by
      have hkn := h.nodup k
      rw [hk, List.nodup_middle, List.append_nil] at hkn
      exact (List.nodup_cons.mp hkn).1
    rw [hk] at hchain hnodup hapart ⊢
    rw [List.getLast?_concat]
    apply h.change ?_ hnodup hapart
    · exact fun _ _ => rfl
    · exact fun j hj y hy => Function.update_of_ne (h.ne_of_mem hj hy hzk) _ _
    · show Chain (Function.update s.next z (some x)) (s.head k) _ none
      refine chain_append.mpr ⟨some x, hchain.relink hzs, rfl, ?_⟩
      rw [Function.update_of_ne hxz]
      exact hnull

theorem notMem_erase (h : Represents s elems) (hx : Elsewhere elems k x) (j : κ) :
    x ∉ Function.update elems k ((elems k).erase x) j := by
  by_cases hj : j = k
  · subst hj
    rw [Function.update_self]
    exact (h.nodup j).not_mem_erase
  · rw [Function.update_of_ne hj]
    exact hx j hj

theorem listAdd_eq (h : Represents s elems) (hx : Elsewhere elems k x) (hf : (elems k).length ≤ fuel) :
    ∃ t, listAdd fuel s k x = some t ∧ Represents t (Function.update elems k ((elems k).erase x ++ [x])) := by
  obtain ⟨t, ht, hrep⟩ := listRemove_eq (x := x) h hf
  have hnot := notMem_erase h hx
  have hrep' : Represents (t.setNext x none) _ := hrep.setNext hnot
  have hlen : (Function.update elems k ((elems k).erase x) k).length ≤ fuel := by
    rw [Function.update_self]
    exact Nat.le_trans List.length_erase_le hf
  have htail := listTail_eq hrep' hlen
  have hconcat := hrep'.concat (k := k) hnot (Lists.setNext_self t x none)
  rw [Function.update_idem] at hconcat
  refine ⟨_, ?_, by rwa [Function.update_self] at hconcat⟩
  unfold listAdd
  rw [ht, Option.bind_some]
  dsimp only
  rw [htail, Option.map_some, Function.update_self]

theorem Represents.cons (h : Represents s elems) (hx : ∀ j, x ∉ elems j) :
    Represents ((s.setNext x (s.head k)).setHead k (some x)) (Function.update elems k (x :: elems k)) := by
  apply h.change ?_ (List.nodup_cons.mpr ⟨hx k, h.nodup k⟩)
  · intro y hy j hj
    rcases List.mem_cons.mp hy with rfl | hy
    · exact hx j
    · exact h.apart k j hj.symm y hy
  · exact fun j hj => Function.update_of_ne hj _ _
  · exact fun j _ y hy => Function.update_of_ne (ne_of_mem_of_not_mem hy (hx j)) _ _
  · show Chain (Function.update s.next x (s.head k)) (Function.update s.head k (some x) k) _ none
    rw [Function.update_self]
    refine ⟨rfl, ?_⟩
    rw [Function.update_self]
    exact (h.chain k).update (hx k) _

theorem listPush_eq (h : Represents s elems) (hx : Elsewhere elems k x) (hf : (elems k).length ≤ fuel) :
    ∃ t, listPush fuel s k x = some t ∧ Represents t (Function.update elems k (x :: (elems k).erase x)) := by
  obtain ⟨t, ht, hrep⟩ := listRemove_eq (x := x) h hf
  have hcons := hrep.cons (k := k) (notMem_erase h hx)
  rw [Function.update_idem, Function.update_self] at hcons
  refine ⟨_, ?_, hcons⟩
  unfold listPush
  rw [ht, Option.map_some]

omit [DecidableEq ν] in
theorem listPop_eq (h : Represents s elems) :
    (listPop s k).1 = (elems k).head? ∧ Represents (listPop s k).2 (Function.update elems k (elems k).tail) := by
  have hchain := h.chain k
  unfold listPop
  cases hk : elems k with
  | nil =>
    rw [hk] at hchain
    rw [show s.head k = none from hchain]
    refine ⟨rfl, ?_⟩
    have hself := h.update_self (k := k)
    rwa [hk] at hself
  | cons x xs =>
    have hnodup := h.nodup k
    rw [hk] at hchain hnodup
    obtain ⟨hhead, hxs⟩ := hchain
    rw [hhead]
    refine ⟨rfl, ?_⟩
    apply h.change ?_ (List.nodup_cons.mp hnodup).2
    · intro y hy j hj
      exact h.apart k j hj.symm y (hk ▸ List.mem_cons_of_mem x hy)
    · exact fun j hj => Function.update_of_ne hj _ _
    · exact fun _ _ _ _ => rfl
    · show Chain s.next (Function.update s.head k (s.next x) k) xs none
      rwa [Function.update_self]

theorem listChop_eq (h : Represents s elems) (hf : (elems k).length ≤ fuel) :
    ∃ t, listChop fuel s k = some ((elems k).getLast?, t) ∧
      Represents t (Function.update elems k (elems k).dropLast) := by
  have hchain := h.chain k
  have hnodup := h.nodup k
  have hapart : ∀ y ∈ (elems k).dropLast, ∀ j, j ≠ k → y ∉ elems j :=
    fun y hy j hj => h.apart k j hj.symm y (List.mem_of_mem_dropLast hy)
  have hself := h.update_self (k := k)
  unfold listChop
  rcases List.eq_nil_or_concat' (elems k) with hk | ⟨zs, y, hk⟩
  · rw [hk] at hchain hself ⊢
    rw [show s.head k = none from hchain]
    exact ⟨s, rfl, hself⟩
  · rw [hk, List.dropLast_concat] at hapart
    rw [hk] at hchain hnodup hf ⊢
    rw [List.getLast?_concat, List.dropLast_concat]
    have hnodup' := (List.nodup_append.mp hnodup).1
    rcases List.eq_nil_or_concat' zs with rfl | ⟨ws, l, rfl⟩
    · obtain ⟨hhead, hnull⟩ := hchain
      rw [hhead]
      dsimp only
      rw [if_pos (show s.next y = none from hnull)]
      refine ⟨_, rfl, ?_⟩
      apply h.change ?_ hnodup' hapart
      · exact fun j hj => Function.update_of_ne hj _ _
      · exact fun _ _ _ _ => rfl
      · exact Function.update_self _ _ _
    · obtain ⟨o, hfront, rfl, hnull⟩ := chain_append.mp hchain
      have hl : l ∉ ws := by
        rw [List.nodup_middle, List.append_nil] at hnodup'
        exact (List.nodup_cons.mp hnodup').1
      have hlk : l ∈ elems k := by simp [hk]
      obtain ⟨first, rest, hcons⟩ := List.exists_cons_of_ne_nil (by simp : ws ++ [l] ≠ [])
      have hlast : rest.getLast?.getD first = l := by
        have hboth := congrArg List.getLast? hcons
        rw [List.getLast?_concat, List.getLast?_cons] at hboth
        exact (Option.some.inj hboth).symm
      rw [hcons] at hchain hf
      obtain ⟨hhead, hrest⟩ := hchain
      have hmore : s.next first ≠ none := by
        intro hnone
        rw [hnone] at hrest
        cases rest <;> cases hrest.1
      rw [hhead]
      dsimp only
      rw [if_neg hmore, whileLoop_beforeLast hrest (by simp at hf; omega), Option.map_some, hlast]
      refine ⟨_, by rw [(chain_concat.mp hfront).2], ?_⟩
      apply h.change ?_ hnodup' hapart
      · exact fun _ _ => rfl
      · exact fun j hj x hx => Function.update_of_ne (h.ne_of_mem hj hx hlk) _ _
      · exact hfront.relink hl

omit [DecidableEq ν] in
theorem listInit_eq (h : Represents s elems) : Represents (listInit s k) (Function.update elems k []) := by
  apply h.change ?_ List.nodup_nil
  · exact fun _ hy => absurd hy List.not_mem_nil
  · exact fun j hj => Function.update_of_ne hj _ _
  · exact fun _ _ _ _ => rfl
  · exact Function.update_self _ _ _

theorem Represents.insert (h : Represents s elems) (hk : elems k = xs ++ y :: ys) (hx : ∀ j, x ∉ elems j) :
    Represents ((s.setNext x (s.next y)).setNext y (some x)) (Function.update elems k (xs ++ y :: x :: ys)) := by
  have hchain := h.chain k
  have hnodup := h.nodup k
  have hyk : y ∈ elems k := by simp [hk]
  have hxk := hx k
  rw [hk] at hchain hnodup hxk
  have hyx : x ≠ y := fun e => hxk (by simp [e])
  obtain ⟨hy, hrest⟩ := List.nodup_cons.mp (List.nodup_middle.mp hnodup)
  obtain ⟨o, hxs, rfl, hys⟩ := chain_append.mp hchain
  have hyxs : y ∉ xs := fun hmem => hy (List.mem_append_left _ hmem)
  have hyys : y ∉ ys := fun hmem => hy (List.mem_append_right _ hmem)
  have hxxs : x ∉ xs := fun hmem => hxk (List.mem_append_left _ hmem)
  have hxys : x ∉ ys := fun hmem => hxk (List.mem_append_right _ (List.mem_cons_of_mem _ hmem))
  apply h.change ?_
  · rw [show xs ++ y :: x :: ys = (xs ++ [y]) ++ x :: ys by simp, List.nodup_middle, List.nodup_cons]
    rw [show xs ++ [y] ++ ys = xs ++ y :: ys by simp]
    exact ⟨hxk, hnodup⟩
  · intro z hz j hj
    by_cases hzx : z = x
    · rw [hzx]
      exact hx j
    · refine h.apart k j hj.symm z ?_
      rw [hk]
      simpa [hzx] using hz
  · exact fun _ _ => rfl
  · intro j hj z hz
    show Function.update (Function.update s.next x (s.next y)) y (some x) z = _
    rw [Function.update_of_ne (h.ne_of_mem hj hz hyk), Function.update_of_ne (ne_of_mem_of_not_mem hz (hx j))]
  · show Chain (Function.update (Function.update s.next x (s.next y)) y (some x)) (s.head k) _ none
    refine chain_append.mpr ⟨some y, (hxs.update hxxs _).update hyxs _, rfl, ?_⟩
    rw [Function.update_self]
    refine ⟨rfl, ?_⟩
    rw [Function.update_of_ne hyx, Function.update_self]
    exact (hys.update hxys _).update hyys _

omit [DecidableEq ν] [DecidableEq κ] in
theorem listItemNext_eq (h : Represents s elems) (hk : elems k = xs ++ x :: ys) :
    listItemNext s (some x) = ys.head? := by
  have hchain := h.chain k
  rw [hk] at hchain
  obtain ⟨o, -, rfl, hys⟩ := chain_append.mp hchain
  show s.next x = _
  cases ys with
  | nil => exact hys
  | cons y ys => exact hys.1

end

/-! ## Calls -/

section
variable {κ ν : Type*}

inductive ListCall (κ ν : Type*)
  | init (list : κ)
  | head (list : κ)
  | tail (list : κ)
  | length (list : κ)
  | add (list : κ) (item : ν)
  | push (list : κ) (item : ν)
  | insert (list : κ) (previtem : Option ν) (item : ν)
  | remove (list : κ) (item : ν)
  | pop (list : κ)
  | chop (list : κ)

inductive ListReturn (ν : Type*)
  | void
  | item (o : Option ν)
  | number (n : Nat)
deriving DecidableEq

variable [DecidableEq κ] [DecidableEq ν]

def ListCall.run (fuel : Nat) (s : Lists κ ν) : ListCall κ ν → Option (ListReturn ν × Lists κ ν)
  | .init k => some (.void, listInit s k)
  | .head k => some (.item (listHead s k), s)
  | .tail k => (listTail fuel s k).map fun o => (.item o, s)
  | .length k => (listLength fuel s k).map fun n => (.number n, s)
  | .add k x => (listAdd fuel s k x).map fun s => (.void, s)
  | .push k x => (listPush fuel s k x).map fun s => (.void, s)
  | .insert k p x => (listInsert fuel s k x p).map fun s => (.void, s)
  | .remove k x => (listRemove fuel s k x).map fun s => (.void, s)
  | .pop k => some (.item (listPop s k).1, (listPop s k).2)
  | .chop k => (listChop fuel s k).map fun r => (.item r.1, r.2)

def insertAfter (y x : ν) : List ν → List ν
  | [] => []
  | z :: zs => if z = y then z :: x :: zs else z :: insertAfter y x zs

def ListCall.apply (elems : κ → List ν) : ListCall κ ν → ListReturn ν × (κ → List ν)
  | .init k => (.void, Function.update elems k [])
  | .head k => (.item (elems k).head?, elems)
  | .tail k => (.item (elems k).getLast?, elems)
  | .length k => (.number (elems k).length, elems)
  | .add k x => (.void, Function.update elems k ((elems k).erase x ++ [x]))
  | .push k x | .insert k none x => (.void, Function.update elems k (x :: (elems k).erase x))
  | .insert k (some y) x => (.void, Function.update elems k (insertAfter y x (elems k)))
  | .remove k x => (.void, Function.update elems k ((elems k).erase x))
  | .pop k => (.item (elems k).head?, Function.update elems k (elems k).tail)
  | .chop k => (.item (elems k).getLast?, Function.update elems k (elems k).dropLast)

/-- An item that is put into a list is in no other one; `list_insert` behind an element does not take it out of its
own list either. -/
def ListCall.Allowed (elems : κ → List ν) : ListCall κ ν → Prop
  | .add k x | .push k x | .insert k none x => Elsewhere elems k x
  | .insert k (some y) x => y ∈ elems k ∧ ∀ j, x ∉ elems j
  | _ => True

instance [Fintype κ] (elems : κ → List ν) (k : κ) (x : ν) : Decidable (Elsewhere elems k x) :=
  inferInstanceAs (Decidable (∀ j, j ≠ k → x ∉ elems j))

instance ListCall.Allowed.decidable [Fintype κ] (elems : κ → List ν) :
    ∀ c : ListCall κ ν, Decidable (c.Allowed elems)
  | .add k x | .push k x | .insert k none x => inferInstanceAs (Decidable (Elsewhere elems k x))
  | .insert k (some y) x => inferInstanceAs (Decidable (y ∈ elems k ∧ ∀ j, x ∉ elems j))
  | .init _ | .head _ | .tail _ | .length _ | .remove .. | .pop _ | .chop _ => isTrue trivial

variable {s : Lists κ ν} {elems : κ → List ν} {fuel : Nat}

theorem insertAfter_append {x y : ν} {xs ys : List ν} (hy : y ∉ xs) :
    insertAfter y x (xs ++ y :: ys) = xs ++ y :: x :: ys := by
  induction xs with
  | nil => exact if_pos rfl
  | cons z zs ih =>
    rw [List.cons_append, insertAfter, if_neg (List.ne_of_not_mem_cons hy).symm,
      ih (List.not_mem_of_not_mem_cons hy)]
    rfl

theorem ListCall.run_eq (h : Represents s elems) (hf : ∀ k, (elems k).length ≤ fuel) (c : ListCall κ ν)
    (hc : c.Allowed elems) :
    ∃ t, c.run fuel s = some ((c.apply elems).1, t) ∧ Represents t (c.apply elems).2 := by
  cases c with
  | init k => exact ⟨_, rfl, listInit_eq h⟩
  | head k =>
    refine ⟨s, ?_, h⟩
    have hchain := h.chain k
    show some (ListReturn.item (s.head k), s) = some (.item (elems k).head?, s)
    cases hk : elems k with
    | nil =>
      rw [hk] at hchain
      rw [show s.head k = none from hchain]
      rfl
    | cons x xs =>
      rw [hk] at hchain
      rw [hchain.1]
      rfl
  | tail k =>
    refine ⟨s, ?_, h⟩
    rw [ListCall.run, listTail_eq h (hf k)]
    rfl
  | length k =>
    refine ⟨s, ?_, h⟩
    rw [ListCall.run, listLength, lengthFrom_eq (h.chain k) (hf k), Nat.zero_add]
    rfl
  | add k x =>
    obtain ⟨t, ht, hrep⟩ := listAdd_eq h hc (hf k)
    exact ⟨t, by rw [ListCall.run, ht]; rfl, hrep⟩
  | push k x =>
    obtain ⟨t, ht, hrep⟩ := listPush_eq h hc (hf k)
    exact ⟨t, by rw [ListCall.run, ht]; rfl, hrep⟩
  | insert k p x =>
    cases p with
    | none =>
      obtain ⟨t, ht, hrep⟩ := listPush_eq h hc (hf k)
      exact ⟨t, by rw [ListCall.run, listInsert, ht]; rfl, hrep⟩
    | some y =>
      obtain ⟨hy, hx⟩ := hc
      obtain ⟨xs, ys, hyxs, hk, -⟩ := List.exists_erase_eq hy
      have hrep := h.insert hk hx
      rw [← insertAfter_append hyxs, ← hk] at hrep
      exact ⟨_, rfl, hrep⟩
  | remove k x =>
    obtain ⟨t, ht, hrep⟩ := listRemove_eq (x := x) h (hf k)
    exact ⟨t, by rw [ListCall.run, ht]; rfl, hrep⟩
  | pop k =>
    obtain ⟨hreturn, hrep⟩ := listPop_eq (k := k) h
    exact ⟨_, by rw [ListCall.run, hreturn]; rfl, hrep⟩
  | chop k =>
    obtain ⟨t, ht, hrep⟩ := listChop_eq h (hf k)
    exact ⟨t, by rw [ListCall.run, ht]; rfl, hrep⟩

omit [DecidableEq κ] [DecidableEq ν] in
theorem represents_start (next : ν → Option ν) : Represents (⟨fun _ => none, next⟩ : Lists κ ν) fun _ => [] where
  chain := fun _ => rfl
  nodup := fun _ => List.nodup_nil
  apart := fun _ _ _ _ hx => absurd hx List.not_mem_nil

/-- Calls for lists that are empty at first, in any order, whatever the pointers of the items are: they return, and
what they return are the values of the elements. -/
theorem lists_of_calls [Fintype ν] (next : ν → Option ν) {calls : List (ListCall κ ν)}
    (hall : AllAllowed ListCall.Allowed ListCall.apply (fun _ => []) calls) :
    ∃ t, callAll (ListCall.run (Fintype.card ν)) ⟨fun _ => none, next⟩ calls =
        some ((applyAll ListCall.apply (fun _ => []) calls).1, t) ∧
      Represents t (applyAll ListCall.apply (fun _ => []) calls).2 :=
  callAll_of_simulation (fun _ _ c h hc => c.run_eq h h.length_le hc) (represents_start next) hall

end

def twoLists : List (ListCall (Fin 2) (Fin 4)) :=
  [.add 0 1, .push 0 2, .add 1 3, .insert 0 (some 2) 0, .add 0 2, .chop 0, .remove 1 3, .push 0 3, .pop 0, .length 0]

theorem lists_of_calls_twoLists :
    ∃ t, callAll (ListCall.run 4) ⟨fun _ => none, some⟩ twoLists =
        some ([.void, .void, .void, .void, .void, .item (some 2), .void, .void, .item (some 3), .number 2], t) ∧
      Represents t fun k => if k = 0 then [0, 1] else [] := by
  obtain ⟨t, hrun, hrep⟩ := lists_of_calls some (by decide : AllAllowed _ _ _ twoLists)
  have hreturns : (applyAll ListCall.apply (fun _ => []) twoLists).1 =
      [.void, .void, .void, .void, .void, .item (some 2), .void, .void, .item (some 3), .number 2] := by decide
  have helems : (applyAll ListCall.apply (fun _ => []) twoLists).2 = fun k => if k = 0 then [0, 1] else [] := by
    decide
  rw [hreturns] at hrun
  rw [helems] at hrep
  exact ⟨t, hrun, hrep⟩

end Unet4Cooja.Contiki
