import Unet4Cooja.Lib.DList
import Unet4Cooja.Lib.While

/-!
# Chains

Nodes with a pointer to the next node. Many chains may share one memory.

* `Chain` : the nodes that one comes to by pointers, and the pointer behind the last of them;
  `chain_append` cuts a chain in two, `Chain.congr` says that only the pointers of its nodes count;
* `Chain.relink`, `Chain.unlink` : the last pointer is redirected, a node is taken out;
* `whileLoop_last`, `whileLoop_beforeLast` : loops that walk to the end of a chain.
-/

namespace Lib

variable {ν : Type*}

/-- From the pointer `o` one comes to the nodes `xs`, and then to the pointer `q`. -/
def Chain (next : ν → Option ν) : Option ν → List ν → Option ν → Prop
  | o, [], q => o = q
  | o, x :: xs, q => o = some x ∧ Chain next (next x) xs q

section
variable {next next' : ν → Option ν} {o q q' : Option ν} {xs ys : List ν} {x y : ν}

theorem chain_append : Chain next o (xs ++ ys) q ↔ ∃ r, Chain next o xs r ∧ Chain next r ys q := by
  induction xs generalizing o with
  | nil =>
    constructor
    · exact fun h => ⟨o, rfl, h⟩
    · rintro ⟨r, rfl, h⟩
      exact h
  | cons x xs ih => simp only [List.cons_append, Chain, ih, and_assoc, exists_and_left]

theorem chain_concat : Chain next o (xs ++ [x]) q ↔ Chain next o xs (some x) ∧ next x = q := by
  simp [chain_append, Chain]

theorem Chain.congr (h : Chain next o xs q) (heq : ∀ x ∈ xs, next' x = next x) : Chain next' o xs q := by
  induction xs generalizing o with
  | nil => exact h
  | cons x xs ih =>
    refine ⟨h.1, ?_⟩
    rw [heq x List.mem_cons_self]
    exact ih h.2 fun y hy => heq y (List.mem_cons_of_mem x hy)

theorem Chain.unique (h : Chain next o xs none) (h' : Chain next o ys none) : xs = ys := by
  induction xs generalizing o ys with
  | nil =>
    obtain rfl : o = none := h
    cases ys with
    | nil => rfl
    | cons y ys => cases h'.1
  | cons x xs ih =>
    obtain ⟨rfl, hx⟩ := h
    cases ys with
    | nil => cases h'
    | cons y ys =>
      obtain ⟨heq, hy⟩ := h'
      obtain rfl := Option.some.inj heq
      rw [ih hx hy]

variable [DecidableEq ν]

theorem Chain.update (h : Chain next o xs q) (hx : x ∉ xs) (v : Option ν) :
    Chain (Function.update next x v) o xs q := by
  apply h.congr
  intro y hy
  exact Function.update_of_ne (ne_of_mem_of_not_mem hy hx) v next

theorem Chain.relink (h : Chain next o (xs ++ [x]) q) (hx : x ∉ xs) :
    Chain (Function.update next x q') o (xs ++ [x]) q' := by
  rw [chain_concat] at h ⊢
  exact ⟨h.1.update hx q', Function.update_self x q' next⟩

end

/-! ## Walking -/

section
variable {next : ν → Option ν} {q : Option ν} {xs : List ν} {x y : ν} {fuel : Nat}

theorem whileLoop_last (h : Chain next (next x) xs none) (hf : xs.length ≤ fuel) :
    whileLoop (fun l => (next l).isSome) (fun l => (next l).getD l) fuel x = some (xs.getLast?.getD x) := by
  induction xs generalizing x fuel with
  | nil =>
    apply whileLoop_exit
    rw [show next x = none from h]
    rfl
  | cons y xs ih =>
    obtain ⟨hy, hrest⟩ := h
    obtain ⟨k, rfl⟩ : ∃ k, fuel = k + 1 := ⟨fuel - 1, by rw [List.length_cons] at hf; omega⟩
    rw [whileLoop_round (by rw [hy]; rfl)]
    show whileLoop _ _ k ((next x).getD x) = _
    rw [hy, Option.getD_some, ih hrest (by rw [List.length_cons] at hf; omega)]
    cases xs <;> rfl

/-- `for (l = x; l->next->next != NULL; l = l->next);`, where `x` is not the last node. -/
theorem whileLoop_beforeLast (h : Chain next (next x) (xs ++ [y]) none) (hf : xs.length ≤ fuel) :
    whileLoop (fun l => ((next l).bind next).isSome) (fun l => (next l).getD l) fuel x =
      some (xs.getLast?.getD x) := by
  induction xs generalizing x fuel with
  | nil =>
    obtain ⟨hy, hnull⟩ := h
    apply whileLoop_exit
    rw [hy, Option.bind_some, show next y = none from hnull]
    rfl
  | cons z xs ih =>
    obtain ⟨hz, hrest⟩ := h
    obtain ⟨k, rfl⟩ : ∃ k, fuel = k + 1 := ⟨fuel - 1, by rw [List.length_cons] at hf; omega⟩
    have hnext : (next z).isSome := by
      cases xs with
      | nil => rw [show next z = some y from hrest.1]; rfl
      | cons w xs => rw [show next z = some w from hrest.1]; rfl
    rw [whileLoop_round (by rw [hz]; exact hnext)]
    show whileLoop _ _ k ((next x).getD x) = _
    rw [hz, Option.getD_some, ih hrest (by rw [List.length_cons] at hf; omega)]
    cases xs <;> rfl

end

end Lib
