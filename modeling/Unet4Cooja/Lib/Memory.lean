import Mathlib.Logic.Function.Basic
import Mathlib.Data.List.Basic

/-!
# Memory

Cells that are read and written in runs, and an output that only grows.

* `slice` : the run of cells that starts at an address; `store` : write a run;
* `store_of_lt`, `store_of_ge` : the cells outside keep their contents;
* `Holds` : the cells from an address on are a given list (`holds_append`, `holds_store`);
* `store_piece` : a piece of a text that is stored where it belongs;
* `Frame` : what a memory keeps outside an interval;
* `Out`, `Out.put`, `Out.copy` : an output is a memory and the place of the next write; copying from
  outside is writing what was there (`Out.Apart.copy_put`).
-/

namespace Lib

section Memory
variable {α : Type*}

/-- The `n` cells from `i` on. -/
def slice (m : Nat → α) (i : Nat) : Nat → List α
  | 0 => []
  | n + 1 => m i :: slice m (i + 1) n

/-- Write a list from `i` on. -/
def store (m : Nat → α) (i : Nat) : List α → Nat → α
  | [] => m
  | x :: xs => store (Function.update m i x) (i + 1) xs

variable {m m' : Nat → α} {i j k n : Nat} {xs ys : List α} {x : α}

@[simp] theorem length_slice (m : Nat → α) (i n : Nat) : (slice m i n).length = n := by
  induction n generalizing i with
  | zero => rfl
  | succ n ih => simp [slice, ih]

theorem slice_add (m : Nat → α) (i n k : Nat) : slice m i (n + k) = slice m i n ++ slice m (i + n) k := by
  induction n generalizing i with
  | zero => simp [slice]
  | succ n ih =>
    rw [show n + 1 + k = n + k + 1 by omega, show i + (n + 1) = i + 1 + n by omega]
    simp [slice, ih]

theorem take_slice (m : Nat → α) (i n k : Nat) : (slice m i n).take k = slice m i (min k n) := by
  rcases Nat.le_total k n with h | h
  · obtain ⟨d, rfl⟩ := Nat.exists_eq_add_of_le h
    rw [slice_add, Nat.min_eq_left h, List.take_left' (length_slice m i k)]
  · rw [Nat.min_eq_right h, List.take_of_length_le (by rw [length_slice]; exact h)]

theorem slice_eq_cons : slice m i n = x :: xs ↔ ∃ k, n = k + 1 ∧ m i = x ∧ slice m (i + 1) k = xs := by
  cases n with
  | zero => simp [slice]
  | succ n => simp [slice]

theorem slice_eq_nil : slice m i n = [] ↔ n = 0 := by
  cases n with
  | zero => simp [slice]
  | succ n => simp [slice]

theorem slice_congr (h : ∀ k, i ≤ k → k < i + n → m k = m' k) : slice m i n = slice m' i n := by
  induction n generalizing i with
  | zero => rfl
  | succ n ih =>
    unfold slice
    rw [h i (Nat.le_refl i) (by omega), ih fun k hk hn => h k (by omega) (by omega)]

theorem getElem?_slice (m : Nat → α) (i : Nat) (h : k < n) : (slice m i n)[k]? = some (m (i + k)) := by
  induction n generalizing i k with
  | zero => omega
  | succ n ih =>
    cases k with
    | zero => rfl
    | succ k =>
      rw [show i + (k + 1) = i + 1 + k by omega]
      exact ih (i + 1) (by omega)

theorem store_of_lt (xs : List α) (h : k < i) : store m i xs k = m k := by
  induction xs generalizing m i with
  | nil => rfl
  | cons x xs ih =>
    unfold store
    rw [ih (by omega), Function.update_of_ne (by omega)]

theorem store_of_ge (xs : List α) (h : i + xs.length ≤ k) : store m i xs k = m k := by
  induction xs generalizing m i with
  | nil => rfl
  | cons x xs ih =>
    rw [List.length_cons] at h
    unfold store
    rw [ih (by omega), Function.update_of_ne (by omega)]

theorem store_append (m : Nat → α) (i : Nat) (xs ys : List α) :
    store m i (xs ++ ys) = store (store m i xs) (i + xs.length) ys := by
  induction xs generalizing m i with
  | nil => rfl
  | cons x xs ih =>
    rw [List.cons_append, List.length_cons, show i + (xs.length + 1) = i + 1 + xs.length by omega]
    exact ih _ _

theorem slice_store_of_ge (xs : List α) (h : i + xs.length ≤ j) :
    slice (store m i xs) j n = slice m j n :=
  slice_congr fun _ hk _ => store_of_ge xs (by omega)

theorem slice_store (m : Nat → α) (i : Nat) (xs : List α) : slice (store m i xs) i xs.length = xs := by
  induction xs generalizing m i with
  | nil => rfl
  | cons x xs ih =>
    rw [List.length_cons, slice, store, store_of_lt xs (Nat.lt_succ_self i), Function.update_self, ih]

/-! ## What the cells hold -/

/-- The cells from `i` on are `xs`. -/
def Holds (m : Nat → α) (i : Nat) (xs : List α) : Prop := slice m i xs.length = xs

theorem holds_nil (m : Nat → α) (i : Nat) : Holds m i [] := rfl

theorem holds_append : Holds m i (xs ++ ys) ↔ Holds m i xs ∧ Holds m (i + xs.length) ys := by
  unfold Holds
  rw [List.length_append, slice_add]
  constructor
  · exact fun h => List.append_inj h (length_slice m i xs.length)
  · rintro ⟨hx, hy⟩
    rw [hx, hy]

theorem holds_cons : Holds m i (x :: xs) ↔ m i = x ∧ Holds m (i + 1) xs := by
  unfold Holds
  rw [List.length_cons, slice, List.cons.injEq]

theorem holds_store (m : Nat → α) (i : Nat) (xs : List α) : Holds (store m i xs) i xs := slice_store m i xs

theorem holds_store_iff (m : Nat → α) (i : Nat) (h : xs.length = ys.length) : Holds (store m i xs) i ys ↔ xs = ys := by
  unfold Holds
  rw [← h, slice_store]

theorem Holds.congr (h : Holds m i xs) (hm : ∀ k, i ≤ k → k < i + xs.length → m k = m' k) :
    Holds m' i xs := (slice_congr hm).symm.trans h

/-! ## A text that is stored in pieces -/

theorem store_getElem? (m : Nat → α) (i : Nat) (h : xs[j]? = some x) : store m i xs (i + j) = x := by
  have hj : j < xs.length := (List.getElem?_eq_some_iff.mp h).1
  have hstored := getElem?_slice (store m i xs) i hj
  rw [slice_store, h] at hstored
  exact (Option.some.inj hstored).symm

/-- Storing the piece of at most `n` cells from `k` on, where the text starts at `i`. -/
theorem store_piece (m : Nat → α) (i k n : Nat) (h : xs[j]? = some x) :
    store m (i + k) ((xs.drop k).take n) (i + j) = if k ≤ j ∧ j < k + n then x else m (i + j) := by
  split
  · rename_i hpiece
    obtain ⟨d, rfl⟩ := Nat.exists_eq_add_of_le hpiece.1
    rw [← Nat.add_assoc]
    apply store_getElem?
    rw [List.getElem?_take, if_pos (by omega), List.getElem?_drop]
    exact h
  · rename_i hpiece
    by_cases hk : j < k
    · exact store_of_lt _ (by omega)
    · apply store_of_ge
      have hlen : ((xs.drop k).take n).length ≤ n := List.length_take_le _ _
      omega

theorem holds_of_getElem? (h : ∀ j x, xs[j]? = some x → m (i + j) = x) : Holds m i xs := by
  induction xs generalizing i with
  | nil => rfl
  | cons x xs ih =>
    rw [holds_cons]
    refine ⟨h 0 x rfl, ih fun j y hy => ?_⟩
    rw [Nat.add_right_comm]
    exact h (j + 1) y hy

/-! ## What writing leaves alone -/

/-- The cells before `lo` and from `hi` on are those of `m`. -/
def Frame (m m' : Nat → α) (lo hi : Nat) : Prop := ∀ k, k < lo ∨ hi ≤ k → m' k = m k

variable {m'' : Nat → α} {lo hi lo' hi' : Nat}

theorem Frame.refl (m : Nat → α) (lo hi : Nat) : Frame m m lo hi := fun _ _ => rfl

theorem Frame.mono (h : Frame m m' lo hi) (hlo : lo' ≤ lo) (hhi : hi ≤ hi') : Frame m m' lo' hi' :=
  fun k hk => h k (by omega)

theorem Frame.trans (h : Frame m m' lo hi) (h' : Frame m' m'' lo hi) : Frame m m'' lo hi :=
  fun k hk => (h' k hk).trans (h k hk)

theorem frame_update (m : Nat → α) (i : Nat) (x : α) : Frame m (Function.update m i x) i (i + 1) :=
  fun k hk => Function.update_of_ne (by omega) x m

theorem frame_store (m : Nat → α) (i : Nat) (xs : List α) : Frame m (store m i xs) i (i + xs.length) := by
  intro k hk
  rcases hk with hk | hk
  · exact store_of_lt xs hk
  · exact store_of_ge xs hk

theorem Frame.slice_eq (h : Frame m m' lo hi) (hout : i + n ≤ lo ∨ hi ≤ i) : slice m' i n = slice m i n :=
  slice_congr fun k hk hn => h k (by omega)

end Memory

/-! ## Output that grows -/

/-- A memory and the place of the next write. -/
structure Out (α : Type*) where
  mem : Nat → α
  pos : Nat

namespace Out
variable {α : Type*} (o : Out α)

def put (xs : List α) : Out α := ⟨store o.mem o.pos xs, o.pos + xs.length⟩

/-- `memcpy` from `src`. -/
def copy (src n : Nat) : Out α := o.put (slice o.mem src n)

@[simp] theorem put_nil : o.put [] = o := rfl

theorem put_put (xs ys : List α) : (o.put xs).put ys = o.put (xs ++ ys) := by
  simp [put, store_append, Nat.add_assoc]

@[simp] theorem put_pos (xs : List α) : (o.put xs).pos = o.pos + xs.length := rfl

/-- The run of `n` cells at `src` is not in the `len` cells from `pos` on. -/
def Apart (src n len : Nat) : Prop := src + n ≤ o.pos ∨ o.pos + len ≤ src

variable {o} {src n len : Nat}

theorem Apart.mono (h : o.Apart src n len) {n' len' : Nat} (hn : n' ≤ n) (hlen : len' ≤ len) :
    o.Apart src n' len' := by
  unfold Apart at h ⊢
  omega

theorem Apart.sub (h : o.Apart src n len) {src' n' : Nat} (hsrc : src ≤ src') (hn : src' + n' ≤ src + n) :
    o.Apart src' n' len := by
  unfold Apart at h ⊢
  omega

theorem Apart.put (h : o.Apart src n len) {xs : List α} (hxs : xs.length ≤ len) :
    (o.put xs).Apart src n (len - xs.length) := by
  unfold Apart at h ⊢
  rw [put_pos]
  omega

theorem Apart.mem_put (h : o.Apart src n len) {xs : List α} (hxs : xs.length ≤ len) {k : Nat} (hk : k < n) :
    (o.put xs).mem (src + k) = o.mem (src + k) := by
  unfold Apart at h
  rcases h with h | h
  · exact store_of_lt xs (by omega)
  · exact store_of_ge xs (by omega)

theorem Apart.slice_put (h : o.Apart src n len) {xs : List α} (hxs : xs.length ≤ len) :
    slice (o.put xs).mem src n = slice o.mem src n := by
  apply slice_congr
  intro k hk hn
  obtain ⟨d, rfl⟩ := Nat.exists_eq_add_of_le hk
  exact h.mem_put hxs (by omega)

theorem Apart.copy_put (h : o.Apart src n len) {xs : List α} (hxs : xs.length ≤ len) :
    (o.put xs).copy src n = o.put (xs ++ slice o.mem src n) := by
  rw [copy, h.slice_put hxs, put_put]

end Out

end Lib
