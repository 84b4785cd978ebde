import Mathlib.Data.BitVec
import Mathlib.Logic.Function.Iterate

/-!
# Checksum registers

* `shiftUp`, `shiftDown` : one shift of a register with feedback, most and least significant bit first;
* `shiftDown_reverse` : the two are mirror images;
* `shiftUp_xor` : a shift is linear in exclusive or, and a register whose upper bits are clear only moves
  (`iterate_shiftUp_low`), so `k` shifts are one table lookup (`iterate_shiftUp_table`);
* `crcReflected` : the bit-serial checksum of a list of words, least significant bit first;
* `crcTable`, `crcTable_reverse` : what a table of the other bit order computes from mirrored words.
-/

namespace Lib

section Shifts
variable {w : Nat} (poly : BitVec w)

/-- A shift towards the most significant bit. -/
def shiftUp (reg : BitVec w) : BitVec w := if reg.msb then (reg <<< 1) ^^^ poly else reg <<< 1

/-- A shift towards the least significant bit. -/
def shiftDown (reg : BitVec w) : BitVec w := if reg.getLsbD 0 then (reg >>> 1) ^^^ poly else reg >>> 1

variable {poly} {a b reg : BitVec w}

theorem reverse_xor (a b : BitVec w) : (a ^^^ b).reverse = a.reverse ^^^ b.reverse := by
  ext i hi
  simp [BitVec.getElem_reverse]

theorem reverse_shiftLeft_one (a : BitVec w) : (a <<< 1).reverse = a.reverse >>> 1 := by
  ext i hi
  simp [BitVec.getElem_reverse, BitVec.getMsbD_shiftLeft, BitVec.getLsbD_reverse, Nat.add_comm]

theorem shiftDown_reverse (poly reg : BitVec w) : shiftDown poly.reverse reg.reverse = (shiftUp poly reg).reverse := by
  unfold shiftDown shiftUp
  rw [BitVec.getLsbD_reverse, ← BitVec.msb_eq_getMsbD_zero]
  split
  · rw [reverse_xor, reverse_shiftLeft_one]
  · rw [reverse_shiftLeft_one]

theorem iterate_shiftDown_reverse (poly reg : BitVec w) (n : Nat) :
    (shiftDown poly.reverse)^[n] reg.reverse = ((shiftUp poly)^[n] reg).reverse := by
  induction n generalizing reg with
  | zero => rfl
  | succ n ih => rw [Function.iterate_succ_apply, Function.iterate_succ_apply, shiftDown_reverse, ih]

theorem xor_cancel_right (a b p : BitVec w) : (a ^^^ p) ^^^ (b ^^^ p) = a ^^^ b := by
  rw [BitVec.xor_assoc, BitVec.xor_comm b p, ← BitVec.xor_assoc p p b, BitVec.xor_self, BitVec.zero_xor]

theorem shiftUp_xor (poly a b : BitVec w) : shiftUp poly (a ^^^ b) = shiftUp poly a ^^^ shiftUp poly b := by
  unfold shiftUp
  rw [BitVec.msb_xor, BitVec.shiftLeft_xor_distrib]
  cases a.msb <;> cases b.msb
  · rfl
  · exact (BitVec.xor_assoc _ _ _)
  · simp only [Bool.xor_false, if_true, Bool.false_eq_true, if_false]
    ac_rfl
  · exact (xor_cancel_right _ _ _).symm

theorem iterate_shiftUp_xor (poly a b : BitVec w) (n : Nat) :
    (shiftUp poly)^[n] (a ^^^ b) = (shiftUp poly)^[n] a ^^^ (shiftUp poly)^[n] b := by
  induction n generalizing a b with
  | zero => rfl
  | succ n ih => rw [Function.iterate_succ_apply, shiftUp_xor, ih]; rfl

/-- A register whose `n` upper bits are clear only moves up through `n` shifts. -/
theorem iterate_shiftUp_low (poly : BitVec w) {n : Nat} {a : BitVec w} (h : ∀ i < n, a.getMsbD i = false) :
    (shiftUp poly)^[n] a = a <<< n := by
  induction n generalizing a with
  | zero => simp
  | succ n ih =>
    have hstep : shiftUp poly a = a <<< 1 := by
      have hmsb := h 0 (Nat.succ_pos n)
      unfold shiftUp
      rw [BitVec.msb_eq_getMsbD_zero, hmsb]
      rfl
    rw [Function.iterate_succ_apply, hstep, ih, ← BitVec.shiftLeft_add, Nat.add_comm]
    intro i hi
    rw [BitVec.getMsbD_shiftLeft]
    exact h _ (by omega)

theorem split_upper (k : Nat) (hk : k ≤ w) (reg : BitVec w) :
    reg = ((reg >>> (w - k)) <<< (w - k)) ^^^ ((reg <<< k) >>> k) := by
  ext i hi
  by_cases h : i < w - k
  · simp [h, show k + i < w by omega]
  · have hback : w - k + (i - (w - k)) = i := by omega
    simp [h, hback, show ¬ k + i < w by omega, hi]

theorem iterate_shiftUp_table (poly : BitVec w) {k : Nat} (hk : k ≤ w) (reg : BitVec w) :
    (shiftUp poly)^[k] reg = (shiftUp poly)^[k] ((reg >>> (w - k)) <<< (w - k)) ^^^ (reg <<< k) := by
  have hlow : (shiftUp poly)^[k] ((reg <<< k) >>> k) = reg <<< k := by
    rw [iterate_shiftUp_low]
    · ext i hi
      by_cases h : i < k
      · simp [h]
      · have hback : k + (i - k) = i := by omega
        simp [h, hback, hi]
    · intro i hi
      simp [BitVec.getMsbD_ushiftRight, hi]
  calc (shiftUp poly)^[k] reg
      = (shiftUp poly)^[k] (((reg >>> (w - k)) <<< (w - k)) ^^^ ((reg <<< k) >>> k)) := by
        rw [← split_upper k hk reg]
    _ = (shiftUp poly)^[k] ((reg >>> (w - k)) <<< (w - k)) ^^^ (shiftUp poly)^[k] ((reg <<< k) >>> k) :=
        iterate_shiftUp_xor _ _ _ _
    _ = _ := by rw [hlow]

end Shifts

section Words
variable {w k : Nat} (poly : BitVec w) (table : BitVec k → BitVec w)

/-- One word into a register that shifts down, bit by bit. -/
def crcWord (reg : BitVec w) (x : BitVec k) : BitVec w := (shiftDown poly)^[k] (reg ^^^ x.setWidth w)

/-- The bit-serial checksum of the words, each from its least significant bit on. -/
def crcReflected (reg : BitVec w) (data : List (BitVec k)) : BitVec w := data.foldl (crcWord poly) reg

/-- One word into a register that shifts up, with a table. -/
def tableWord (reg : BitVec w) (x : BitVec k) : BitVec w :=
  (reg <<< k) ^^^ table ((reg >>> (w - k)).setWidth k ^^^ x)

/-- The checksum by table of the words, each mirrored before it is used. -/
def crcTable (reg : BitVec w) (data : List (BitVec k)) : BitVec w :=
  data.foldl (fun reg x => tableWord table reg x.reverse) reg

/-- The table holds what `k` shifts make of a word in the upper bits. -/
def IsTable : Prop := ∀ i, table i = (shiftUp poly)^[k] (i.setWidth w <<< (w - k))

variable {poly table}

/-- A word in the lower bits is the mirror image of its mirror image in the upper bits. -/
theorem setWidth_eq_reverse (hk : k ≤ w) (x : BitVec k) :
    x.setWidth w = (x.reverse.setWidth w <<< (w - k)).reverse := by
  ext i hi
  rw [BitVec.getElem_reverse, BitVec.getMsbD_shiftLeft, BitVec.getMsbD_eq_getLsbD]
  by_cases h : i < k
  · have hpos : w - 1 - (i + (w - k)) = k - 1 - i := by omega
    have hback : k - 1 - (k - 1 - i) = i := by omega
    rw [hpos, BitVec.getLsbD_setWidth, BitVec.getLsbD_reverse, BitVec.getMsbD_eq_getLsbD, hback]
    simp [show k - 1 - i < w by omega, show i + (w - k) < w by omega, show k - 1 - i < k by omega]
  · simp [show ¬ i + (w - k) < w by omega, BitVec.getLsbD_of_ge x i (by omega)]

theorem upper_xor (hk : k ≤ w) (reg : BitVec w) (x : BitVec k) :
    ((reg ^^^ (x.setWidth w <<< (w - k))) >>> (w - k)) <<< (w - k) =
      ((reg >>> (w - k)).setWidth k ^^^ x).setWidth w <<< (w - k) := by
  ext i hi
  by_cases h : i < w - k
  · simp [h]
  · have hback : w - k + (i - (w - k)) = i := by omega
    simp [h, hback, hi]
    omega

theorem lower_xor (hk : k ≤ w) (reg : BitVec w) (x : BitVec k) :
    (reg ^^^ (x.setWidth w <<< (w - k))) <<< k = reg <<< k := by
  ext i hi
  by_cases h : i < k
  · simp [h]
  · have hlow : i - k < w - k := by omega
    simp [h, hlow]

theorem tableWord_eq (ht : IsTable poly table) (hk : k ≤ w) (reg : BitVec w) (x : BitVec k) :
    tableWord table reg x = (shiftUp poly)^[k] (reg ^^^ (x.setWidth w <<< (w - k))) := by
  rw [iterate_shiftUp_table poly hk, upper_xor hk, lower_xor hk, ← ht, BitVec.xor_comm]
  rfl

theorem tableWord_reverse (ht : IsTable poly table) (hk : k ≤ w) (reg : BitVec w) (x : BitVec k) :
    (tableWord table reg x.reverse).reverse = crcWord poly.reverse reg.reverse x := by
  unfold crcWord
  rw [tableWord_eq ht hk, setWidth_eq_reverse hk x, ← reverse_xor, iterate_shiftDown_reverse]

theorem crcTable_reverse (ht : IsTable poly table) (hk : k ≤ w) (reg : BitVec w) (data : List (BitVec k)) :
    (crcTable table reg data).reverse = crcReflected poly.reverse reg.reverse data := by
  induction data generalizing reg with
  | nil => rfl
  | cons x data ih =>
    have hword := tableWord_reverse ht hk reg x
    calc (crcTable table reg (x :: data)).reverse
        = (crcTable table (tableWord table reg x.reverse) data).reverse := rfl
      _ = crcReflected poly.reverse (tableWord table reg x.reverse).reverse data := ih _
      _ = crcReflected poly.reverse reg.reverse (x :: data) := by rw [hword]; rfl

end Words

end Lib
