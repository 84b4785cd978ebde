import Mathlib.Data.List.Basic
import Mathlib.Data.Nat.ModEq
import Mathlib.Logic.Function.Basic

/-!
# Ring buffers

A ring of `size` slots with an index for the next write and one for the next read, both of which may
stand behind the last slot and wrap around only when they are used.

* `slot` : the slot an index stands for; `Holds` : the slots from the read index on hold a list;
* `Holds.write`, `Holds.read`, `holds_nil` : the operations on the list.
-/

namespace Lib.Ring

variable {α : Type*} {size : Nat} {buf : Nat → α} {inp out : Nat} {xs : List α}

/-- The slot for the index `i`. -/
def slot (size i : Nat) : Nat := if i = size then 0 else i

theorem slot_eq_mod {i : Nat} (h : i ≤ size) : slot size i = i % size := by
  unfold slot
  split
  · rename_i hi
    rw [hi, Nat.mod_self]
  · exact (Nat.mod_eq_of_lt (by omega)).symm

theorem slot_lt {i : Nat} (h : i ≤ size) (hpos : 0 < size) : slot size i < size := by
  unfold slot
  split <;> omega

/-- The slots from `out` on hold `xs`, and `inp` is behind them. -/
structure Holds (size : Nat) (buf : Nat → α) (inp out : Nat) (xs : List α) : Prop where
  inp_le : inp ≤ size
  out_le : out ≤ size
  fits : xs.length ≤ size
  behind : inp ≡ out + xs.length [MOD size]
  holds : ∀ i (h : i < xs.length), buf ((out + i) % size) = xs.get ⟨i, h⟩

theorem holds_nil (buf : Nat → α) {i : Nat} (h : i ≤ size) : Holds size buf i i [] where
  inp_le := h
  out_le := h
  fits := Nat.zero_le _
  behind := rfl
  holds _ h := absurd h (Nat.not_lt_zero _)

theorem add_mod_inj {a i j : Nat} (hi : i < size) (hj : j < size) (h : (a + i) % size = (a + j) % size) :
    i = j := by
  have h : a + i ≡ a + j [MOD size] := h
  have h := Nat.ModEq.add_left_cancel' a h
  unfold Nat.ModEq at h
  rwa [Nat.mod_eq_of_lt hi, Nat.mod_eq_of_lt hj] at h

theorem Holds.write (h : Holds size buf inp out xs) (hspace : xs.length < size) (x : α) :
    Holds size (Function.update buf (slot size inp) x) (slot size inp + 1) out (xs ++ [x]) := by
  have hslot := slot_eq_mod h.inp_le
  have hlt := slot_lt h.inp_le (by omega)
  have hmod : slot size inp = (out + xs.length) % size := hslot.trans h.behind
  refine ⟨hlt, h.out_le, ?_, ?_, fun i hi => ?_⟩
  · rw [List.length_append, List.length_singleton]
    exact hspace
  · have hb : slot size inp ≡ out + xs.length [MOD size] := by
      rw [hmod]
      exact Nat.mod_modEq _ _
    rw [List.length_append, List.length_singleton, ← Nat.add_assoc]
    exact hb.add_right 1
  · rw [List.length_append, List.length_singleton] at hi
    rw [hmod]
    by_cases hlast : i = xs.length
    · subst hlast
      simp
    · have hi : i < xs.length := by omega
      have hne : (out + i) % size ≠ (out + xs.length) % size := fun he =>
        hlast (add_mod_inj (by omega) hspace he)
      rw [Function.update_of_ne hne, h.holds i hi]
      simp [List.getElem_append_left hi]

theorem Holds.read {x : α} (h : Holds size buf inp out (x :: xs)) :
    buf (slot size out) = x ∧ Holds size buf inp (slot size out + 1) xs := by
  have hfits : xs.length + 1 ≤ size := h.fits
  have hslot := slot_eq_mod h.out_le
  have hlt := slot_lt h.out_le (by omega)
  have hout : slot size out ≡ out [MOD size] := by
    rw [hslot]
    exact Nat.mod_modEq _ _
  refine ⟨?_, h.inp_le, hlt, by omega, ?_, fun i hi => ?_⟩
  · rw [hslot]
    exact h.holds 0 (Nat.zero_lt_succ _)
  · have hb := h.behind
    rw [List.length_cons, Nat.add_comm xs.length 1, ← Nat.add_assoc] at hb
    exact hb.trans ((hout.symm.add_right 1).add_right xs.length)
  · have hi' : i + 1 < (x :: xs).length := Nat.succ_lt_succ hi
    have hget := h.holds (i + 1) hi'
    have hsame : (slot size out + 1 + i) % size = (out + (i + 1)) % size := by
      rw [Nat.add_assoc, Nat.add_comm 1 i]
      exact hout.add_right (i + 1)
    rw [hsame, hget]
    rfl

theorem Holds.read_pos (h : Holds size buf inp out xs) (hpos : 0 < xs.length) :
    ∃ ys, xs = buf (slot size out) :: ys ∧ Holds size buf inp (slot size out + 1) ys := by
  cases xs with
  | nil => exact absurd hpos (Nat.lt_irrefl 0)
  | cons x ys =>
    obtain ⟨hx, h⟩ := h.read
    exact ⟨ys, by rw [hx], h⟩

end Lib.Ring
