import Mathlib.Data.List.Nodup
import Mathlib.Logic.Function.Basic

/-!
# Doubly linked lists

Nodes with a pointer to the next and one to the previous node, and pointers to the first and the last one.

* `append`, `remove` : a node is put at the end, and taken out; a write through a null pointer is dropped;
* `Linked` : a segment of the list; `linked_append` cuts it in two;
* `Represents` : the pointers are those of a list without repetitions; `Represents.append`,
  `Represents.remove`, `Represents.next_remove`;
* `Follows` : the nodes one comes to by pointers; `Represents.follows_next`, `Represents.follows_prev` : forwards
  and backwards.
-/

namespace Lib

/-- The pointers. -/
structure DList (ν : Type*) where
  head : Option ν
  tail : Option ν
  next : ν → Option ν
  prev : ν → Option ν

namespace DList

variable {ν : Type*}

/-- No node. -/
def empty : DList ν := ⟨none, none, fun _ => none, fun _ => none⟩

section
variable [DecidableEq ν] (l : DList ν) (x : ν)

def setNext (o v : Option ν) : DList ν :=
  match o with
  | some y => { l with next := Function.update l.next y v }
  | none => l

def setPrev (o v : Option ν) : DList ν :=
  match o with
  | some y => { l with prev := Function.update l.prev y v }
  | none => l

/-- `x` is put at the end. -/
def append : DList ν :=
  match l.tail with
  | some y =>
    let l := (l.setNext (some y) (some x)).setPrev (some x) (some y)
    { l with tail := some x }.setNext (some x) none
  | none => ({ l with tail := some x, head := some x }.setNext (some x) none).setPrev (some x) none

/-- `x` is taken out. -/
def remove : DList ν :=
  if l.head = some x then
    if l.tail = some x then { l with tail := none, head := none }
    else { l with head := l.next x }.setPrev (l.next x) none
  else if l.tail = some x then { l with tail := l.prev x }.setNext (l.prev x) none
  else
    let l := l.setPrev (l.next x) (l.prev x)
    l.setNext (l.prev x) (l.next x)

end

/-! ## Segments -/

/-- The first node of `xs`, or what comes behind. -/
def first : List ν → Option ν → Option ν
  | [], q => q
  | x :: _, _ => some x

/-- The last node of `xs`, or what comes before. -/
def last (p : Option ν) : List ν → Option ν
  | [] => p
  | x :: xs => last (some x) xs

/-- The nodes `xs` are linked, between `p` and `q`. -/
def Linked (next prev : ν → Option ν) (p : Option ν) : List ν → Option ν → Prop
  | [], _ => True
  | x :: xs, q => prev x = p ∧ next x = first xs q ∧ Linked next prev (some x) xs q

variable {next prev next' prev' : ν → Option ν} {p q : Option ν} {xs ys : List ν} {x y : ν}

theorem first_append : first (xs ++ ys) q = first xs (first ys q) := by
  cases xs <;> rfl

theorem last_append : last p (xs ++ ys) = last (last p xs) ys := by
  induction xs generalizing p with
  | nil => rfl
  | cons x xs ih => exact ih

theorem last_concat : last p (xs ++ [y]) = some y := last_append

theorem linked_append :
    Linked next prev p (xs ++ ys) q ↔
      Linked next prev p xs (first ys q) ∧ Linked next prev (last p xs) ys q := by
  induction xs generalizing p with
  | nil => exact (and_iff_right trivial).symm
  | cons x xs ih =>
    simp only [List.cons_append, Linked, first_append, ih, last, and_assoc]

theorem Linked.congr (h : Linked next prev p xs q)
    (heq : ∀ x ∈ xs, next' x = next x ∧ prev' x = prev x) : Linked next' prev' p xs q := by
  induction xs generalizing p with
  | nil => trivial
  | cons x xs ih =>
    obtain ⟨hn, hp⟩ := heq x List.mem_cons_self
    exact ⟨hp.trans h.1, hn.trans h.2.1, ih h.2.2 fun y hy => heq y (List.mem_cons_of_mem x hy)⟩

/-! ## Lists -/

/-- The pointers are those of the list `xs`. -/
structure Represents (l : DList ν) (xs : List ν) : Prop where
  nodup : xs.Nodup
  head : l.head = first xs none
  tail : l.tail = last none xs
  linked : Linked l.next l.prev none xs none

theorem represents_empty : Represents (empty : DList ν) [] := ⟨List.nodup_nil, rfl, rfl, trivial⟩

variable [DecidableEq ν] {l : DList ν}

theorem Linked.setLast (h : Linked next prev p (xs ++ [y]) q) (hy : y ∉ xs) (q' : Option ν) :
    Linked (Function.update next y q') prev p (xs ++ [y]) q' := by
  rw [linked_append] at h ⊢
  refine ⟨h.1.congr fun z hz => ⟨Function.update_of_ne ?_ _ _, rfl⟩, h.2.1, Function.update_self _ _ _, trivial⟩
  rintro rfl
  exact hy hz

theorem Linked.setFirst (h : Linked next prev p (y :: ys) q) (hy : y ∉ ys) (p' : Option ν) :
    Linked next (Function.update prev y p') p' (y :: ys) q := by
  refine ⟨Function.update_self _ _ _, h.2.1, h.2.2.congr fun z hz => ⟨rfl, Function.update_of_ne ?_ _ _⟩⟩
  rintro rfl
  exact hy hz

theorem Linked.update_next (h : Linked next prev p xs q) (hy : y ∉ xs) (v : Option ν) :
    Linked (Function.update next y v) prev p xs q := by
  refine h.congr fun z hz => ⟨Function.update_of_ne ?_ _ _, rfl⟩
  rintro rfl
  exact hy hz

theorem Linked.update_prev (h : Linked next prev p xs q) (hy : y ∉ xs) (v : Option ν) :
    Linked next (Function.update prev y v) p xs q := by
  refine h.congr fun z hz => ⟨rfl, Function.update_of_ne ?_ _ _⟩
  rintro rfl
  exact hy hz

theorem Represents.append (h : l.Represents xs) (hx : x ∉ xs) : (l.append x).Represents (xs ++ [x]) := by
  have hnodup : (xs ++ [x]).Nodup := by
    rw [← List.concat_eq_append, List.nodup_concat]
    exact ⟨hx, h.nodup⟩
  rcases List.eq_nil_or_concat xs with rfl | ⟨ys, y, rfl⟩
  · have htail : l.tail = none := h.tail
    simp only [DList.append, htail]
    exact ⟨hnodup, rfl, rfl, Function.update_self _ _ _, Function.update_self _ _ _, trivial⟩
  · rw [List.concat_eq_append] at *
    have htail : l.tail = some y := h.tail.trans last_concat
    have hxy : x ≠ y := fun e => hx (by simp [e])
    have hy : y ∉ ys := by
      have hn := h.nodup
      rw [← List.concat_eq_append, List.nodup_concat] at hn
      exact hn.1
    simp only [DList.append, htail]
    refine ⟨hnodup, ?_, last_concat.symm, ?_⟩
    · rw [first_append]
      exact h.head.trans (by cases ys <;> rfl)
    · rw [linked_append]
      refine ⟨((h.linked.setLast hy (some x)).update_prev hx _).update_next hx _, ?_, ?_, trivial⟩
      · rw [last_concat]
        exact Function.update_self _ _ _
      · exact Function.update_self _ _ _

omit [DecidableEq ν] in
theorem Represents.around (h : l.Represents (xs ++ x :: ys)) :
    l.prev x = last none xs ∧ l.next x = first ys none := by
  have hl := (linked_append.mp h.linked).2
  exact ⟨hl.1, hl.2.1⟩

omit [DecidableEq ν] in
theorem Represents.head_eq (h : l.Represents (xs ++ x :: ys)) : l.head = some x ↔ xs = [] := by
  rw [h.head, first_append]
  cases xs with
  | nil => simp [first]
  | cons w ws =>
    have hne : w ≠ x := by
      rintro rfl
      simpa using h.nodup
    simp [first, hne]

omit [DecidableEq ν] in
theorem Represents.tail_eq (h : l.Represents (xs ++ x :: ys)) : l.tail = some x ↔ ys = [] := by
  rw [h.tail, last_append]
  rcases List.eq_nil_or_concat ys with rfl | ⟨zs, z, rfl⟩
  · simp [last]
  · rw [List.concat_eq_append] at h ⊢
    have hne : z ≠ x := by
      rintro rfl
      have hn := (List.nodup_append.mp h.nodup).2.1
      simp at hn
    have he : last (last none xs) (x :: zs ++ [z]) = some z := last_concat
    rw [← List.cons_append, he]
    simp [hne]

theorem Represents.remove (h : l.Represents (xs ++ x :: ys)) : (l.remove x).Represents (xs ++ ys) := by
  have hnodup : (xs ++ ys).Nodup := by
    have hn := h.nodup
    rw [List.nodup_middle, List.nodup_cons] at hn
    exact hn.2
  obtain ⟨hprev, hnext⟩ := h.around
  obtain ⟨hxs, _, hys⟩ := linked_append.mp h.linked
  have hys := hys.2
  unfold DList.remove
  simp only [h.head_eq, h.tail_eq]
  rcases List.eq_nil_or_concat xs with rfl | ⟨ws, w, rfl⟩
  · rw [if_pos rfl]
    cases ys with
    | nil =>
      rw [if_pos rfl]
      exact ⟨List.nodup_nil, rfl, rfl, trivial⟩
    | cons y ys =>
      rw [if_neg (List.cons_ne_nil _ _), hnext]
      have hy := (List.nodup_cons.mp hnodup).1
      exact ⟨hnodup, rfl, h.tail, hys.setFirst hy none⟩
  · rw [List.concat_eq_append] at *
    rw [if_neg (by simp)]
    have hlast : last none (ws ++ [w]) = some w := last_concat
    have hw : w ∉ ws := by
      have hn := (List.nodup_append.mp hnodup).1
      rw [← List.concat_eq_append, List.nodup_concat] at hn
      exact hn.1
    have hhead : l.head = first (ws ++ [w]) none := by
      rw [h.head]
      cases ws <;> rfl
    cases ys with
    | nil =>
      rw [if_pos rfl, hprev, hlast, List.append_nil]
      exact ⟨by simpa using hnodup, hhead, hlast.symm, hxs.setLast hw none⟩
    | cons y ys =>
      rw [if_neg (List.cons_ne_nil _ _), hprev, hnext, hlast]
      have hy := (List.nodup_cons.mp (List.nodup_append.mp hnodup).2.1).1
      have hdisj := (List.nodup_append.mp hnodup).2.2
      have hywx : y ∉ ws ++ [w] := fun hm => hdisj y hm y List.mem_cons_self rfl
      have hwys : w ∉ y :: ys := fun hm => hdisj w (by simp) w hm rfl
      have hxy : x ≠ y := by
        rintro rfl
        have hn := (List.nodup_append.mp h.nodup).2.1
        simp at hn
      -- the pointers of `x` itself are not written
      have hprev' : (l.setPrev (some y) (some w)).prev x = some w :=
        (Function.update_of_ne hxy _ _).trans (hprev.trans hlast)
      have hnext' : (l.setPrev (some y) (some w)).next x = some y := hnext
      show Represents ((l.setPrev (some y) (some w)).setNext ((l.setPrev (some y) (some w)).prev x)
        ((l.setPrev (some y) (some w)).next x)) _
      rw [hprev', hnext']
      have hxs' : Linked l.next l.prev none (ws ++ [w]) (some x) := hxs
      refine ⟨hnodup, ?_, ?_, ?_⟩
      · rw [first_append]
        exact hhead.trans (by cases ws <;> rfl)
      · rw [last_append]
        exact h.tail.trans last_append
      · rw [linked_append]
        constructor
        · exact (hxs'.setLast hw (some y)).update_prev hywx _
        · rw [hlast]
          exact (hys.setFirst hy (some w)).update_next hwys _

theorem setNext_next_of_ne {o v : Option ν} (h : o ≠ some x) : (l.setNext o v).next x = l.next x := by
  cases o with
  | none => rfl
  | some y => exact Function.update_of_ne (fun e => h (congrArg some e.symm)) _ _

theorem setPrev_next {o v : Option ν} : (l.setPrev o v).next = l.next := by
  cases o <;> rfl

theorem setPrev_prev_self (o : Option ν) : (l.setPrev o (l.prev x)).prev x = l.prev x := by
  cases o with
  | none => rfl
  | some y =>
    rcases eq_or_ne x y with rfl | hne
    · exact Function.update_self _ _ _
    · exact Function.update_of_ne hne _ _

omit [DecidableEq ν] in
theorem Represents.ne_last (h : l.Represents (xs ++ x :: ys)) : last none xs ≠ some x := by
  rcases List.eq_nil_or_concat xs with rfl | ⟨ws, w, rfl⟩
  · exact fun e => nomatch e
  · rw [List.concat_eq_append] at h ⊢
    rw [last_concat]
    rintro e
    cases e
    have hn := h.nodup
    rw [List.nodup_middle, List.nodup_cons] at hn
    exact hn.1 (by simp)

theorem Represents.next_remove (h : l.Represents (xs ++ x :: ys)) : (l.remove x).next x = first ys none := by
  obtain ⟨hprev, hnext⟩ := h.around
  have hne : l.prev x ≠ some x := hprev ▸ h.ne_last
  unfold DList.remove
  split
  · split
    · exact hnext
    · cases l.next x <;> exact hnext
  · split
    · exact (setNext_next_of_ne (l := { l with tail := l.prev x }) hne).trans hnext
    · dsimp only
      rw [setNext_next_of_ne (by rwa [setPrev_prev_self]), setPrev_next]
      exact hnext

/-! ## Following the pointers -/

/-- The pointers `next` lead from `o` to the nodes `xs` one after the other, and then to a null pointer. -/
def Follows (next : ν → Option ν) : Option ν → List ν → Prop
  | o, [] => o = none
  | o, x :: xs => o = some x ∧ Follows next (next x) xs

omit [DecidableEq ν] in
theorem Linked.follows_next (h : Linked next prev p xs none) : Follows next (first xs none) xs := by
  induction xs generalizing p with
  | nil => rfl
  | cons x xs ih =>
    refine ⟨rfl, ?_⟩
    rw [h.2.1]
    exact ih h.2.2

omit [DecidableEq ν] in
theorem Linked.follows_prev (h : Linked next prev p xs q) (hp : Follows prev p ys) :
    Follows prev (last p xs) (xs.reverse ++ ys) := by
  induction xs generalizing p ys with
  | nil => exact hp
  | cons x xs ih =>
    rw [List.reverse_cons, List.append_assoc]
    apply ih h.2.2
    refine ⟨rfl, ?_⟩
    rw [h.1]
    exact hp

omit [DecidableEq ν] in
theorem Represents.follows_next (h : l.Represents xs) : Follows l.next l.head xs := by
  rw [h.head]
  exact h.linked.follows_next

omit [DecidableEq ν] in
theorem Represents.follows_prev (h : l.Represents xs) : Follows l.prev l.tail xs.reverse := by
  have hnil : Follows l.prev none [] := rfl
  have hall := h.linked.follows_prev hnil
  rw [h.tail]
  rwa [List.append_nil] at hall

omit [DecidableEq ν] in
theorem Follows.eq_none_iff {o : Option ν} (h : Follows next o xs) : o = none ↔ xs = [] := by
  cases xs with
  | nil => exact iff_of_true h rfl
  | cons x xs =>
    rw [h.1]
    exact iff_of_false (fun e => nomatch e) (List.cons_ne_nil x xs)

omit [DecidableEq ν] in
theorem represents_nil (hhead : l.head = none) (htail : l.tail = none) : l.Represents [] :=
  ⟨List.nodup_nil, hhead, htail, trivial⟩

end DList

end Lib
