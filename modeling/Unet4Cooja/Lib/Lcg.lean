import Mathlib.Data.BitVec
import Mathlib.Dynamics.PeriodicPts.Defs
import Mathlib.NumberTheory.Multiplicity
import Mathlib.SetTheory.Cardinal.Finite

/-!
# Linear congruential generators

* `lcg a c` : the step `x ↦ x * a + c` on numbers of `w` bits; `iterate_lcg` : several steps at once;
* `isPeriodicPt_lcg_iff` : with `a % 4 = 1` and `c` odd, the state comes back after the multiples of `2 ^ w` steps;
* `bijective_iterate_lcg` : so a period goes through every state once;
* `count_iterate_lcg` : how often a period has a property is how many states have it;
* `card_of_bijective` : how many, if the property is one of a part of the bits.
-/

namespace Lib
open Finset Function

section Lcg
variable {w n : Nat} {a c : BitVec w}

/-- One step of the generator. -/
def lcg (a c x : BitVec w) : BitVec w := x * a + c

theorem iterate_lcg (a c x : BitVec w) (n : Nat) :
    (lcg a c)^[n] x = x * a ^ n + c * ∑ i ∈ range n, a ^ i := by
  induction n with
  | zero => simp
  | succ n ih =>
    rw [iterate_succ_apply', ih, geom_sum_succ]
    show (x * a ^ n + c * ∑ i ∈ range n, a ^ i) * a + c = _
    ring

theorem natCast_eq_zero_iff (n : Nat) : (n : BitVec w) = 0 ↔ 2 ^ w ∣ n := by
  rw [BitVec.toNat_inj.symm, BitVec.natCast_eq_ofNat, BitVec.toNat_ofNat, Nat.dvd_iff_mod_eq_zero]
  rfl

theorem two_pow_dvd_geom_sum_iff {A : Nat} (hA : A % 4 = 1) (k n : Nat) :
    2 ^ k ∣ ∑ i ∈ range n, A ^ i ↔ 2 ^ k ∣ n := by
  have hdiv : (4 : ℤ) ∣ A - 1 := by omega
  have hodd : ¬ (2 : ℤ) ∣ A := by omega
  by_cases hone : A = 1
  · simp [hone]
  · have hfinite : emultiplicity (2 : ℤ) (A - 1) ≠ ⊤ := by
      rw [← finiteMultiplicity_iff_emultiplicity_ne_top, Int.finiteMultiplicity_iff]
      exact ⟨by decide, by omega⟩
    have hgeom : (∑ i ∈ range n, (A : ℤ) ^ i) * (A - 1) = A ^ n - 1 ^ n := by
      rw [geom_sum_mul, one_pow]
    have hlift := Int.two_pow_sub_pow' n hdiv hodd
    rw [← hgeom, emultiplicity_mul Int.prime_two, add_comm] at hlift
    have hsum : emultiplicity (2 : ℤ) (∑ i ∈ range n, (A : ℤ) ^ i) = emultiplicity (2 : ℤ) n :=
      ENat.add_right_injective_of_ne_top hfinite hlift
    have hcast : ((∑ i ∈ range n, A ^ i : ℕ) : ℤ) = ∑ i ∈ range n, (A : ℤ) ^ i := by push_cast; rfl
    rw [← Int.natCast_dvd_natCast, ← Int.natCast_dvd_natCast, hcast, Nat.cast_pow, Nat.cast_ofNat,
      pow_dvd_iff_le_emultiplicity, pow_dvd_iff_le_emultiplicity, hsum]

theorem natCast_toNat (x : BitVec w) : (x.toNat : BitVec w) = x := by
  rw [BitVec.natCast_eq_ofNat, BitVec.ofNat_toNat, BitVec.setWidth_eq]

theorem iterate_lcg_eq_add (x : BitVec w) (n : Nat) {b : Nat} (hb : a.toNat = b + 1) :
    (lcg a c)^[n] x = x + ((x.toNat * b + c.toNat) * ∑ i ∈ range n, a.toNat ^ i : ℕ) := by
  have hgeom := geom_sum_mul_add (b : BitVec w) n
  have ha : a = b + 1 := by
    rw [← natCast_toNat a, hb, Nat.cast_add, Nat.cast_one]
  rw [iterate_lcg]
  push_cast
  rw [natCast_toNat, natCast_toNat, natCast_toNat, ha, ← hgeom]
  ring

theorem isPeriodicPt_lcg_iff (ha : a.toNat % 4 = 1) (hc : c.toNat % 2 = 1) (x : BitVec w) :
    IsPeriodicPt (lcg a c) n x ↔ 2 ^ w ∣ n := by
  obtain ⟨b, hb⟩ : ∃ b, a.toNat = b + 1 := ⟨a.toNat - 1, by omega⟩
  have hodd : (x.toNat * b + c.toNat) % 2 = 1 := by
    have hb2 : b % 2 = 0 := by omega
    rw [Nat.add_mod, Nat.mul_mod, hb2, hc]
    rfl
  have hcoprime : Nat.Coprime (2 ^ w) (x.toNat * b + c.toNat) :=
    Nat.Coprime.pow_left w (Nat.coprime_two_left.mpr (Nat.odd_iff.mpr hodd))
  unfold IsPeriodicPt IsFixedPt
  rw [iterate_lcg_eq_add x n hb, add_eq_left, natCast_eq_zero_iff, hcoprime.dvd_mul_left,
    two_pow_dvd_geom_sum_iff ha]

theorem minimalPeriod_lcg (ha : a.toNat % 4 = 1) (hc : c.toNat % 2 = 1) (x : BitVec w) :
    minimalPeriod (lcg a c) x = 2 ^ w := by
  apply Nat.dvd_antisymm
  · exact ((isPeriodicPt_lcg_iff ha hc x).mpr (Nat.dvd_refl _)).minimalPeriod_dvd
  · exact (isPeriodicPt_lcg_iff ha hc x).mp (isPeriodicPt_minimalPeriod _ _)

instance finite_bitVec (w : Nat) : Finite (BitVec w) := Finite.of_equiv _ BitVec.equivFin.symm.toEquiv

theorem card_bitVec (w : Nat) : Nat.card (BitVec w) = 2 ^ w := by
  rw [Nat.card_congr BitVec.equivFin.toEquiv, Nat.card_fin]

theorem card_of_bijective {α β γ : Type*} {f : α → β × γ} (hf : Bijective f) (p : β → Prop) :
    Nat.card {a // p (f a).1} = Nat.card {b // p b} * Nat.card γ := by
  have hpairs : {a // p (f a).1} ≃ {b // p b} × γ :=
    ((Equiv.ofBijective f hf).subtypeEquiv fun a => Iff.rfl).trans (Equiv.prodSubtypeFstEquivSubtypeProd (p := p))
  rw [Nat.card_congr hpairs, Nat.card_prod]

theorem bijective_iterate_lcg (ha : a.toNat % 4 = 1) (hc : c.toNat % 2 = 1) (x : BitVec w) :
    Bijective fun n : Fin (2 ^ w) => (lcg a c)^[n] x := by
  rw [Nat.bijective_iff_injective_and_card, Nat.card_fin, card_bitVec]
  refine ⟨fun i j h => ?_, rfl⟩
  apply Fin.ext
  apply iterate_injOn_Iio_minimalPeriod _ _ h
  · rw [minimalPeriod_lcg ha hc]
    exact i.isLt
  · rw [minimalPeriod_lcg ha hc]
    exact j.isLt

theorem exists_iterate_lcg (ha : a.toNat % 4 = 1) (hc : c.toNat % 2 = 1) (x y : BitVec w) :
    ∃ n < 2 ^ w, (lcg a c)^[n] x = y := by
  obtain ⟨n, h⟩ := (bijective_iterate_lcg ha hc x).surjective y
  exact ⟨n, n.isLt, h⟩

theorem count_iterate_lcg (ha : a.toNat % 4 = 1) (hc : c.toNat % 2 = 1) (x : BitVec w) (p : BitVec w → Prop)
    [DecidablePred p] :
    (List.range (2 ^ w)).countP (fun n => p ((lcg a c)^[n] x)) = Nat.card {y // p y} := by
  have hcount : (List.range (2 ^ w)).countP (fun n => p ((lcg a c)^[n] x)) =
      Nat.card {n : Fin (2 ^ w) // p ((lcg a c)^[n] x)} := by
    rw [Nat.card_eq_fintype_card, Fintype.card_subtype, ← List.map_coe_finRange_eq_range, List.countP_map,
      List.countP_eq_length_filter]
    rfl
  rw [hcount]
  exact Nat.card_congr ((Equiv.ofBijective _ (bijective_iterate_lcg ha hc x)).subtypeEquiv fun n => Iff.rfl)

end Lcg

end Lib
