import Unet4Cooja.Lib.Draws
import Unet4Cooja.Lib.Lcg
import Unet4Cooja.Packet

/-!
# Random numbers (`random.c`)

* `randomGet` : the generator; its state is the variable `next`;
* `randomGet_uniform` : how often a number comes in a period.
-/

namespace Unet4Cooja
open Lib Function

def randomFactor : U32 := 1103515245

def randomSummand : U32 := 12345

/-- What `random_get` returns, if it stores `next`; `RANDOM_RAND_MAX` is 65535. -/
def randomOutput (next : U32) : U16 := ((next >>> 16) &&& 65535).setWidth 16

def randomGet (next : U32) : U16 × U32 :=
  let next := next * randomFactor + randomSummand
  (randomOutput next, next)

theorem randomOutput_toNat (next : U32) : (randomOutput next).toNat = next.toNat / 2 ^ 16 := by
  have hlt := next.isLt
  have hmask : (65535 : U32).toNat = 2 ^ 16 - 1 := rfl
  unfold randomOutput
  rw [BitVec.toNat_setWidth, BitVec.toNat_and, hmask, Nat.and_two_pow_sub_one_eq_mod, BitVec.toNat_ushiftRight,
    Nat.shiftRight_eq_div_pow]
  omega

/-- A state, as its output, and the bits that the output does not have. -/
def randomParts (next : U32) : U16 × BitVec 16 := (randomOutput next, next.setWidth 16)

theorem bijective_randomParts : Bijective randomParts := by
  rw [Nat.bijective_iff_injective_and_card, Nat.card_prod, card_bitVec, card_bitVec, ← Nat.pow_add]
  refine ⟨fun x y h => ?_, rfl⟩
  obtain ⟨hout, hlow⟩ := Prod.mk.inj h
  have ho := congrArg BitVec.toNat hout
  have hl := congrArg BitVec.toNat hlow
  rw [randomOutput_toNat, randomOutput_toNat] at ho
  rw [BitVec.toNat_setWidth, BitVec.toNat_setWidth] at hl
  apply BitVec.eq_of_toNat_eq
  omega

theorem randomGet_state (next : U32) : (randomGet next).2 = lcg randomFactor randomSummand next := rfl

theorem randomGet_output (next : U32) : (randomGet next).1 = randomOutput (lcg randomFactor randomSummand next) := rfl

theorem after_randomGet (next : U32) (n : Nat) :
    after randomGet n next = (lcg randomFactor randomSummand)^[n] next := by
  induction n generalizing next with
  | zero => rfl
  | succ n ih => rw [after_succ, ih, iterate_succ_apply, randomGet_state]

theorem values_randomGet (next : U32) (n : Nat) :
    values randomGet n next = (List.range n).map fun i =>
      randomOutput ((lcg randomFactor randomSummand)^[i] (lcg randomFactor randomSummand next)) := by
  rw [values_eq_map]
  apply List.map_congr_left
  intro i _
  rw [after_randomGet, randomGet_output, ← iterate_succ_apply' (lcg randomFactor randomSummand), iterate_succ_apply]

/-- From every seed on, each number comes as often as every other in each period. -/
theorem randomGet_uniform (next : U32) (v : U16) : (values randomGet (2 ^ 32) next).count v = 2 ^ 16 := by
  have hstates := count_iterate_lcg (by decide : randomFactor.toNat % 4 = 1)
    (by decide : randomSummand.toNat % 2 = 1) (lcg randomFactor randomSummand next) fun s => randomOutput s = v
  have hcard : Nat.card {s // randomOutput s = v} = Nat.card {w : U16 // w = v} * Nat.card (BitVec 16) :=
    card_of_bijective bijective_randomParts (· = v)
  rw [hcard, Nat.card_unique, Nat.one_mul, card_bitVec] at hstates
  rw [values_randomGet, ← hstates, List.count_eq_countP, List.countP_map]
  apply List.countP_congr
  intro n _
  rw [comp_apply, beq_iff_eq, decide_eq_true_iff]

end Unet4Cooja
