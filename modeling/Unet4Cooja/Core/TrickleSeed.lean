import Unet4Cooja.Lib.While
import Unet4Cooja.Packet

/-!
# The seed of the random numbers (`trickle.c`)

* `SeedLoop`, `FormSeed` : `form_seed`; `addrSeed` : the seed that `open_trickle` derives from the node address;
* `SeedLoop.iterate_seed` : a round shifts the seed by two bits, so it leaves the 16 bits within 8 rounds;
* `formSeed_iff` : the loop ends after 16 rounds, with one value for all seeds;
* `formSeed_seedsApart_iff` : no two different seeds are kept apart.
-/

namespace Unet4Cooja
open Lib

/-- The local variables of `form_seed`. -/
@[ext]
structure SeedLoop where
  i : Nat
  seed : U16

namespace SeedLoop
variable (s : SeedLoop)

/-- The condition of the loop. -/
def again : Bool := s.i < 16 ∨ (s.seed = 0x0000 ∨ s.seed = 0x8003)

/-- The body of the loop. -/
def round : SeedLoop :=
  let seed := (s.seed <<< 1) ||| BitVec.ofNat 16 s.i
  let seed := seed <<< 1
  { i := s.i + 1, seed := seed }

end SeedLoop

/-- `form_seed(seed)` ends, with `v` in `trickle_seed`. -/
def FormSeed (seed v : U16) : Prop := ∃ i, Ends SeedLoop.again SeedLoop.round ⟨0, seed⟩ ⟨i, v⟩

/-- The seed that `open_trickle` passes to `form_seed` for the node address `addr`. -/
def addrSeed (addr : U8 × U8) : U16 := (addr.1.setWidth 16 <<< 1) ||| addr.2.setWidth 16

/-! ## The rounds -/

/-- The value of `trickle_seed` after `form_seed`. -/
def formedSeed : U16 := 0x77FE

namespace SeedLoop

theorem iterate_i (n : Nat) (s : SeedLoop) : (round^[n] s).i = s.i + n := by
  induction n with
  | zero => rfl
  | succ n ih =>
    rw [Function.iterate_succ_apply']
    show (round^[n] s).i + 1 = _
    rw [ih, Nat.add_assoc]

/-- After `n` rounds the seed stands `2 * n` bits further left, beside bits that do not depend on it. -/
theorem iterate_seed (n : Nat) (seed : U16) :
    (round^[n] ⟨0, seed⟩).seed = seed <<< (2 * n) ||| (round^[n] ⟨0, 0⟩).seed := by
  induction n with
  | zero =>
    show seed = seed <<< 0 ||| 0#16
    rw [BitVec.shiftLeft_zero, BitVec.or_zero]
  | succ n ih =>
    rw [Function.iterate_succ_apply', Function.iterate_succ_apply']
    simp only [round, iterate_i, ih, BitVec.shiftLeft_or_distrib, ← BitVec.shiftLeft_add, BitVec.or_assoc]
    rw [Nat.mul_succ]

theorem iterate_sixteen (seed : U16) : round^[16] ⟨0, seed⟩ = ⟨16, formedSeed⟩ := by
  have hi : (round^[16] ⟨0, seed⟩).i = 16 := iterate_i 16 ⟨0, seed⟩
  have hzero : (round^[16] ⟨0, 0⟩).seed = formedSeed := rfl
  have hseed : (round^[16] ⟨0, seed⟩).seed = formedSeed := by
    rw [iterate_seed, hzero, BitVec.shiftLeft_eq_zero (by decide), BitVec.zero_or]
  exact SeedLoop.ext hi hseed

end SeedLoop

theorem formSeed_iff {seed v : U16} : FormSeed seed v ↔ v = formedSeed := by
  have hends : Ends SeedLoop.again SeedLoop.round ⟨0, seed⟩ ⟨16, formedSeed⟩ := by
    have hout : (SeedLoop.round^[16] ⟨0, seed⟩).again = false := by
      rw [SeedLoop.iterate_sixteen]
      rfl
    rw [← SeedLoop.iterate_sixteen seed]
    refine ends_iterate (fun k hk => ?_) hout
    have hlt : (SeedLoop.round^[k] ⟨0, seed⟩).i < 16 := by
      rw [SeedLoop.iterate_i]
      show 0 + k < 16
      omega
    exact decide_eq_true (.inl hlt)
  constructor
  · rintro ⟨i, h⟩
    exact congrArg SeedLoop.seed (h.unique hends)
  · rintro rfl
    exact ⟨16, hends⟩

theorem FormSeed.unique {seed seed' v v' : U16} (h : FormSeed seed v) (h' : FormSeed seed' v') : v = v' :=
  (formSeed_iff.mp h).trans (formSeed_iff.mp h').symm

/-! ## Different seeds -/

/-- `form_seed` ends for both seeds, with values that are not zero, and with different ones if the seeds differ. -/
def SeedsApart (seed seed' : U16) : Prop :=
  ∃ v v', FormSeed seed v ∧ v ≠ 0 ∧ FormSeed seed' v' ∧ v' ≠ 0 ∧ (seed ≠ seed' → v ≠ v')

theorem formedSeed_ne_zero : formedSeed ≠ 0 := by decide

/-- `form_seed` ends with a value that is not zero for every seed, and keeps two seeds apart only if they are
equal. -/
theorem formSeed_seedsApart_iff (seed seed' : U16) :
    (∃ v, FormSeed seed v ∧ v ≠ 0) ∧ (SeedsApart seed seed' ↔ seed = seed') := by
  refine ⟨⟨formedSeed, formSeed_iff.mpr rfl, formedSeed_ne_zero⟩, ?_, ?_⟩
  · rintro ⟨v, v', hv, -, hv', -, hapart⟩
    by_contra hne
    exact hapart hne (hv.unique hv')
  · rintro rfl
    have hv : FormSeed seed formedSeed := formSeed_iff.mpr rfl
    exact ⟨formedSeed, formedSeed, hv, formedSeed_ne_zero, hv, formedSeed_ne_zero, fun hne => absurd rfl hne⟩

/-- The seeds of the nodes `00:01` and `00:02`. -/
theorem addrSeeds_not_apart : ¬ SeedsApart (addrSeed (0, 1)) (addrSeed (0, 2)) := by
  rintro ⟨v, v', hv, -, hv', -, hapart⟩
  exact hapart (by decide) (hv.unique hv')

end Unet4Cooja
