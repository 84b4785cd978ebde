import Unet4Cooja.Brtos.Timer
import Unet4Cooja.Lib.Draws
import Unet4Cooja.Lib.Lcg
import Unet4Cooja.Packet
import Mathlib.Data.Int.CardIntervalMod

/-!
# Random numbers (`pcg_basic.c`)

* `Pcg32Random`, `pcg32RandomR`, `pcg32SrandomR` : the generator and its seeds;
* `Boundedrand`, `BoundedrandAll` : calls of `pcg32_boundedrand_r`;
* `bijective_parts` : a state is its output, with 32 more bits;
* `card_output` : so every output belongs to as many states;
* `Seeded` : the states after calls in any order;
* `random_uniform`, `boundedrand_uniform` : how often a number comes in a period;
* `boundedrand_returns` : the loop of `pcg32_boundedrand_r` ends.
-/

namespace Unet4Cooja
open Lib Function

/-- `pcg32_random_t`. -/
structure Pcg32Random where
  state : U64
  inc : U64
  deriving DecidableEq, Repr

def pcg32Initializer : Pcg32Random := ⟨0x853c49e6748fea9b, 0xda3e39cb94b95bdb⟩

def pcg32Factor : U64 := 6364136223846793005

def xorshifted (oldstate : U64) : U32 := (((oldstate >>> 18) ^^^ oldstate) >>> 27).setWidth 32

def rot (oldstate : U64) : U32 := (oldstate >>> 59).setWidth 32

def pcg32Output (oldstate : U64) : U32 :=
  (xorshifted oldstate >>> rot oldstate) ||| (xorshifted oldstate <<< ((-rot oldstate) &&& 31))

def pcg32RandomR (rng : Pcg32Random) : U32 × Pcg32Random :=
  (pcg32Output rng.state, { rng with state := rng.state * pcg32Factor + rng.inc })

def pcg32SrandomR (rng : Pcg32Random) (initstate initseq : U64) : Pcg32Random :=
  let rng := { rng with state := 0 }
  let rng := { rng with inc := (initseq <<< 1) ||| 1 }
  let rng := (pcg32RandomR rng).2
  let rng := { rng with state := rng.state + initstate }
  (pcg32RandomR rng).2

/-- `threshold` in `pcg32_boundedrand_r`. -/
def threshold (bound : U32) : U32 := -bound % bound

/-- The test that ends the loop. -/
def aboveThreshold (bound r : U32) : Bool := threshold bound ≤ r

/-- `pcg32_boundedrand_r` returns `v`, and leaves the generator in the state `rng'`. -/
def Boundedrand (rng : Pcg32Random) (bound v : U32) (rng' : Pcg32Random) : Prop :=
  ∃ r, Draws pcg32RandomR (aboveThreshold bound) rng r rng' ∧ v = r % bound

/-! ## States and outputs -/

theorem eq_zero_of_ushiftRight {w k : Nat} {x : BitVec w} (hk : 0 < k) (h : x >>> k = x) : x = 0 := by
  apply BitVec.eq_of_toNat_eq
  have hdiv := congrArg BitVec.toNat h
  rw [BitVec.toNat_ushiftRight, Nat.shiftRight_eq_div_pow] at hdiv
  by_contra hne
  have hpos : 0 < x.toNat := Nat.pos_of_ne_zero hne
  have := Nat.div_lt_self hpos (Nat.one_lt_two_pow (Nat.pos_iff_ne_zero.mp hk))
  omega

theorem xorshift_injective {w k : Nat} (hk : 0 < k) : Injective fun x : BitVec w => (x >>> k) ^^^ x := by
  intro x y h
  have hsame : (x >>> k) ^^^ x = (y >>> k) ^^^ y := h
  have hshift : (x ^^^ y) >>> k = x ^^^ y := by
    rw [BitVec.ushiftRight_xor_distrib]
    apply BitVec.eq_of_getLsbD_eq
    intro i _
    have hbit := congrArg (BitVec.getLsbD · i) hsame
    simp only [BitVec.getLsbD_xor] at hbit ⊢
    have hswap : ∀ p q r s : Bool, (p ^^ q) = (r ^^ s) → (p ^^ r) = (q ^^ s) := by decide
    exact hswap _ _ _ _ hbit
  exact BitVec.xor_eq_zero_iff.mp (eq_zero_of_ushiftRight hk hshift)

theorem neg_and_toNat {k : U32} (hk : k.toNat < 32) : ((-k) &&& 31).toNat = (32 - k.toNat) % 32 := by
  have hmask : (31 : U32).toNat = 2 ^ 5 - 1 := rfl
  rw [BitVec.toNat_and, hmask, Nat.and_two_pow_sub_one_eq_mod, BitVec.toNat_neg]
  omega

theorem getLsbD_rotated (x : U32) {k i : Nat} (hk : k < 32) (hi : i < 32) :
    (x >>> k ||| x <<< ((32 - k) % 32)).getLsbD ((i + (32 - k)) % 32) = x.getLsbD i := by
  rw [BitVec.getLsbD_or, BitVec.getLsbD_ushiftRight, BitVec.getLsbD_shiftLeft]
  rcases Nat.lt_or_ge i k with hik | hik
  · have hj : (i + (32 - k)) % 32 = i + (32 - k) := by omega
    have ht : (32 - k) % 32 = 32 - k := by omega
    have hout : x.getLsbD (k + (i + (32 - k))) = false := BitVec.getLsbD_of_ge x _ (by omega)
    rw [hj, ht, hout, Nat.add_sub_cancel]
    have hlt : i + (32 - k) < 32 := by omega
    simp [hlt]
  · have hj : (i + (32 - k)) % 32 = i - k := by omega
    have hin : k + (i - k) = i := by omega
    rw [hj, hin]
    rcases Nat.eq_zero_or_pos k with rfl | hpos
    · simp
    · have hlt : i - k < (32 - k) % 32 := by omega
      simp [hlt]

theorem rot_toNat (s : U64) : (rot s).toNat = s.toNat / 2 ^ 59 := by
  have hlt := s.isLt
  unfold rot
  rw [BitVec.toNat_setWidth, BitVec.toNat_ushiftRight, Nat.shiftRight_eq_div_pow]
  omega

theorem xorshifted_eq_of_output {s s' : U64} (hrot : rot s = rot s') (h : pcg32Output s = pcg32Output s') :
    xorshifted s = xorshifted s' := by
  have hlt : (rot s').toNat < 32 := by
    have hs := s'.isLt
    rw [rot_toNat]
    omega
  unfold pcg32Output at h
  rw [hrot] at h
  have hsame : xorshifted s >>> (rot s').toNat ||| xorshifted s <<< ((-rot s') &&& 31).toNat =
    xorshifted s' >>> (rot s').toNat ||| xorshifted s' <<< ((-rot s') &&& 31).toNat := h
  rw [neg_and_toNat hlt] at hsame
  apply BitVec.eq_of_getLsbD_eq
  intro i hi
  rw [← getLsbD_rotated _ hlt hi, hsame, getLsbD_rotated _ hlt hi]

def mixed (s : U64) : U64 := (s >>> 18) ^^^ s

/-- A state, as its output, and the bits that the output does not have. -/
def parts (s : U64) : U32 × BitVec 5 × BitVec 27 := (pcg32Output s, (rot s).setWidth 5, (mixed s).setWidth 27)

theorem mixed_toNat_div (s : U64) : (mixed s).toNat / 2 ^ 59 = s.toNat / 2 ^ 59 := by
  have htop : mixed s >>> 59 = s >>> 59 := by
    unfold mixed
    rw [BitVec.ushiftRight_xor_distrib, ← BitVec.shiftRight_add, BitVec.ushiftRight_eq_zero (by decide),
      BitVec.zero_xor]
  have hdiv := congrArg BitVec.toNat htop
  rwa [BitVec.toNat_ushiftRight, BitVec.toNat_ushiftRight, Nat.shiftRight_eq_div_pow,
    Nat.shiftRight_eq_div_pow] at hdiv

theorem xorshifted_toNat (s : U64) : (xorshifted s).toNat = (mixed s).toNat / 2 ^ 27 % 2 ^ 32 := by
  unfold xorshifted mixed
  rw [BitVec.toNat_setWidth, BitVec.toNat_ushiftRight, Nat.shiftRight_eq_div_pow]

theorem parts_injective : Injective parts := by
  intro s s' h
  obtain ⟨hout, hrest⟩ := Prod.mk.inj h
  obtain ⟨hrot, hlow⟩ := Prod.mk.inj hrest
  have htop : s.toNat / 2 ^ 59 = s'.toNat / 2 ^ 59 := by
    have hnat := congrArg BitVec.toNat hrot
    rw [BitVec.toNat_setWidth, BitVec.toNat_setWidth, rot_toNat, rot_toNat] at hnat
    have hs := s.isLt
    have hs' := s'.isLt
    omega
  have hmiddle : xorshifted s = xorshifted s' := by
    apply xorshifted_eq_of_output _ hout
    apply BitVec.eq_of_toNat_eq
    rw [rot_toNat, rot_toNat, htop]
  have hmixed : mixed s = mixed s' := by
    apply BitVec.eq_of_toNat_eq
    have hm := congrArg BitVec.toNat hmiddle
    have hl := congrArg BitVec.toNat hlow
    rw [xorshifted_toNat, xorshifted_toNat] at hm
    rw [BitVec.toNat_setWidth, BitVec.toNat_setWidth] at hl
    have htop' := mixed_toNat_div s
    have htop'' := mixed_toNat_div s'
    omega
  exact xorshift_injective (by decide : 0 < 18) hmixed

theorem bijective_parts : Bijective parts := by
  rw [Nat.bijective_iff_injective_and_card, Nat.card_prod, Nat.card_prod]
  simp only [card_bitVec]
  exact ⟨parts_injective, rfl⟩

theorem card_output (p : U32 → Prop) : Nat.card {s // p (pcg32Output s)} = Nat.card {v // p v} * 2 ^ 32 := by
  have hrest : Nat.card (BitVec 5 × BitVec 27) = 2 ^ 32 := by
    rw [Nat.card_prod, card_bitVec, card_bitVec, ← Nat.pow_add]
  rw [← hrest]
  exact card_of_bijective bijective_parts p

/-! ## Calls in any order -/

section
variable {rng rng' : Pcg32Random} {bound v : U32}

def Pcg32Random.Odd (rng : Pcg32Random) : Prop := rng.inc.toNat % 2 = 1

theorem pcg32RandomR_state (rng : Pcg32Random) :
    (pcg32RandomR rng).2 = ⟨lcg pcg32Factor rng.inc rng.state, rng.inc⟩ := rfl

theorem Pcg32Random.mk_inc (state inc : U64) : (Pcg32Random.mk state inc).inc = inc := rfl

theorem pcg32RandomR_inc (rng : Pcg32Random) : (pcg32RandomR rng).2.inc = rng.inc :=
  (congrArg Pcg32Random.inc (pcg32RandomR_state rng)).trans (Pcg32Random.mk_inc _ _)

theorem Pcg32Random.Odd.of_inc_eq (hodd : rng.Odd) (h : rng'.inc = rng.inc) : rng'.Odd := by
  unfold Pcg32Random.Odd
  rw [h]
  exact hodd

/-- The states of the generator after calls in any order. -/
inductive Seeded : Pcg32Random → Prop
  | initial : Seeded pcg32Initializer
  | srandom {rng : Pcg32Random} (h : Seeded rng) (initstate initseq : U64) :
      Seeded (pcg32SrandomR rng initstate initseq)
  | random {rng : Pcg32Random} (h : Seeded rng) : Seeded (pcg32RandomR rng).2
  | boundedrand {rng rng' : Pcg32Random} {bound v : U32} (h : Seeded rng) (hr : Boundedrand rng bound v rng') :
      Seeded rng'

theorem Pcg32Random.Odd.boundedrand (hodd : rng.Odd) (h : Boundedrand rng bound v rng') : rng'.Odd := by
  obtain ⟨r, hd, -⟩ := h
  have hinc : rng'.inc = rng.inc :=
    @Draws.keeps _ _ _ _ _ _ _ (fun s => s.inc = rng.inc) (fun s hs => (pcg32RandomR_inc s).trans hs) rfl hd
  exact hodd.of_inc_eq hinc

theorem odd_srandom (rng : Pcg32Random) (initstate initseq : U64) : (pcg32SrandomR rng initstate initseq).Odd := by
  show ((initseq <<< 1) ||| 1).toNat % 2 = 1
  rw [BitVec.toNat_or, Nat.or_mod_two_eq_one]
  exact Or.inr rfl

theorem Seeded.odd (h : Seeded rng) : rng.Odd := by
  induction h with
  | initial =>
    unfold Pcg32Random.Odd
    decide
  | srandom _ initstate initseq _ => exact odd_srandom _ initstate initseq
  | random _ ih => exact ih.of_inc_eq (pcg32RandomR_inc _)
  | boundedrand _ hr ih => exact ih.boundedrand hr

end

/-! ## Periods -/

section
variable {rng : Pcg32Random}

theorem after_pcg32RandomR (rng : Pcg32Random) (n : Nat) :
    after pcg32RandomR n rng = ⟨(lcg pcg32Factor rng.inc)^[n] rng.state, rng.inc⟩ := by
  induction n generalizing rng with
  | zero => rfl
  | succ n ih =>
    rw [after_succ, ih, iterate_succ_apply, pcg32RandomR_state]

theorem values_pcg32RandomR (rng : Pcg32Random) (n : Nat) :
    values pcg32RandomR n rng =
      (List.range n).map fun i => pcg32Output ((lcg pcg32Factor rng.inc)^[i] rng.state) := by
  rw [values_eq_map]
  simp only [after_pcg32RandomR]
  rfl

theorem countP_values (hodd : rng.Odd) (p : U32 → Prop) [DecidablePred p] :
    (values pcg32RandomR (2 ^ 64) rng).countP (fun v => p v) = Nat.card {v // p v} * 2 ^ 32 := by
  have hstates := count_iterate_lcg (by decide : pcg32Factor.toNat % 4 = 1) hodd rng.state
    fun s => p (pcg32Output s)
  rw [values_pcg32RandomR, List.countP_map, ← card_output, ← hstates]
  simp only [Function.comp_def]

/-- In each period every number comes as often as every other. -/
theorem random_uniform (hodd : rng.Odd) (v : U32) : (values pcg32RandomR (2 ^ 64) rng).count v = 2 ^ 32 := by
  have hcount := countP_values hodd (· = v)
  rw [Nat.card_unique, Nat.one_mul] at hcount
  rw [← hcount, List.count_eq_countP]
  apply List.countP_congr
  intro x _
  rw [beq_iff_eq, decide_eq_true_iff]

theorem random_uniform_initial : (values pcg32RandomR (2 ^ 64) pcg32Initializer).count 7 = 2 ^ 32 :=
  random_uniform Seeded.initial.odd 7

end

/-! ## Numbers below a bound -/

section
variable {rng rng' : Pcg32Random} {bound v : U32}

theorem umod_lt_bound (hbound : bound ≠ 0) (r : U32) : r % bound < bound := by
  have hpos : 0 < bound.toNat := Nat.pos_of_ne_zero fun h => hbound (BitVec.eq_of_toNat_eq h)
  rw [BitVec.lt_def, BitVec.toNat_umod]
  exact Nat.mod_lt _ hpos

theorem threshold_toNat (hbound : bound ≠ 0) : (threshold bound).toNat = 2 ^ 32 % bound.toNat := by
  have hlt := bound.isLt
  have hpos : 0 < bound.toNat := Nat.pos_of_ne_zero fun h => hbound (BitVec.eq_of_toNat_eq h)
  have hsmall : (2 ^ 32 - bound.toNat) % 2 ^ 32 = 2 ^ 32 - bound.toNat := Nat.mod_eq_of_lt (by omega)
  unfold threshold
  rw [BitVec.toNat_umod, BitVec.toNat_neg, hsmall, Nat.mod_eq_sub_mod (Nat.le_of_lt hlt)]

theorem card_residue (t b q v : Nat) (hb : 0 < b) :
    ((Finset.Ico t (t + b * q)).filter fun n => n ≡ v [MOD b]).card = q := by
  have hrat : (b : ℚ) ≠ 0 := Nat.cast_ne_zero.mpr (Nat.pos_iff_ne_zero.mp hb)
  have hceil : ⌈(((t + b * q : ℕ) : ℚ) - v) / b⌉ = ⌈((t : ℚ) - v) / b⌉ + q := by
    rw [← Int.ceil_add_natCast]
    congr 1
    push_cast
    field_simp
    ring
  have hcard := Nat.Ico_filter_modEq_card t (t + b * q) hb v
  rw [hceil] at hcard
  omega

theorem card_accepted (hbound : bound ≠ 0) (hv : v < bound) :
    Nat.card {r : U32 // aboveThreshold bound r = true ∧ r % bound = v} = 2 ^ 32 / bound.toNat := by
  have hpos : 0 < bound.toNat := Nat.pos_of_ne_zero fun h => hbound (BitVec.eq_of_toNat_eq h)
  have ht := threshold_toNat hbound
  have hsum : 2 ^ 32 % bound.toNat + bound.toNat * (2 ^ 32 / bound.toNat) = 2 ^ 32 := Nat.mod_add_div _ _
  have hmem : ∀ r : U32, (aboveThreshold bound r = true ∧ r % bound = v) ↔
      r.toNat ∈ (Finset.Ico (2 ^ 32 % bound.toNat) (2 ^ 32)).filter fun n => n ≡ v.toNat [MOD bound.toNat] := by
    intro r
    have hr := r.isLt
    have hvb : v.toNat % bound.toNat = v.toNat := Nat.mod_eq_of_lt hv
    rw [Finset.mem_filter, Finset.mem_Ico]
    unfold aboveThreshold Nat.ModEq
    rw [decide_eq_true_iff, BitVec.le_def, ht, hvb, ← BitVec.toNat_inj, BitVec.toNat_umod]
    simp only [hr, and_true]
  have hequiv : {r : U32 // aboveThreshold bound r = true ∧ r % bound = v} ≃
      ((Finset.Ico (2 ^ 32 % bound.toNat) (2 ^ 32)).filter fun n => n ≡ v.toNat [MOD bound.toNat]) :=
    { toFun := fun r => ⟨r.val.toNat, (hmem r.val).mp r.property⟩
      invFun := fun n => ⟨BitVec.ofNat 32 n.val, by
        have hn := n.property
        rw [Finset.mem_filter, Finset.mem_Ico] at hn
        rw [hmem, BitVec.toNat_ofNat, Nat.mod_eq_of_lt hn.1.2]
        exact n.property⟩
      left_inv := fun r => Subtype.ext (by
        show BitVec.ofNat 32 r.val.toNat = r.val
        rw [BitVec.ofNat_toNat, BitVec.setWidth_eq])
      right_inv := fun n => Subtype.ext (by
        have hn := n.property
        rw [Finset.mem_filter, Finset.mem_Ico] at hn
        exact Nat.mod_eq_of_lt hn.1.2) }
  have hcard := card_residue (2 ^ 32 % bound.toNat) bound.toNat (2 ^ 32 / bound.toNat) v.toNat hpos
  rw [hsum] at hcard
  rw [Nat.card_congr hequiv, Nat.card_eq_fintype_card, Fintype.card_coe, hcard]

/-- Calls of `pcg32_boundedrand_r` with one bound. -/
def BoundedrandAll (bound : U32) : Pcg32Random → List U32 → Pcg32Random → Prop
  | rng, [], rng' => rng = rng'
  | rng, v :: vs, rng' => ∃ next, Boundedrand rng bound v next ∧ BoundedrandAll bound next vs rng'

theorem boundedrandAll_map {rs : List U32} (h : DrawsAll pcg32RandomR (aboveThreshold bound) rng rs rng') :
    BoundedrandAll bound rng (rs.map (· % bound)) rng' := by
  induction rs generalizing rng with
  | nil => exact h
  | cons r rs ih =>
    obtain ⟨next, hd, hrest⟩ := h
    exact ⟨next, ⟨r, hd, rfl⟩, ih hrest⟩

/-- While the generator goes through a period, the calls return every number below the bound as often as every
other: the numbers of the period that are not below the threshold, reduced. -/
theorem boundedrand_uniform (hodd : rng.Odd) (hbound : bound ≠ 0) :
    ∃ vs rng', vs = ((values pcg32RandomR (2 ^ 64) rng).filter (aboveThreshold bound)).map (· % bound) ∧
      BoundedrandAll bound rng vs rng' ∧ (∀ v ∈ vs, v < bound) ∧
      ∀ v < bound, vs.count v = 2 ^ 32 / bound.toNat * 2 ^ 32 := by
  obtain ⟨rng', hd⟩ := drawsAll_values pcg32RandomR (aboveThreshold bound) (2 ^ 64) rng
  refine ⟨_, rng', rfl, boundedrandAll_map hd, ?_, ?_⟩
  · intro v hv
    obtain ⟨r, -, rfl⟩ := List.mem_map.mp hv
    exact umod_lt_bound hbound r
  · intro v hv
    have hcount := countP_values hodd fun r => aboveThreshold bound r = true ∧ r % bound = v
    rw [card_accepted hbound hv] at hcount
    rw [← hcount, List.count_eq_countP, List.countP_map, List.countP_filter]
    apply List.countP_congr
    intro r _
    simp [and_comm]

theorem boundedrand_uniform_initial : ∃ vs rng',
    vs = ((values pcg32RandomR (2 ^ 64) pcg32Initializer).filter (aboveThreshold 3)).map (· % 3) ∧
      BoundedrandAll 3 pcg32Initializer vs rng' ∧ (∀ v ∈ vs, v < 3) ∧
      ∀ v < 3, vs.count v = 2 ^ 32 / (3 : U32).toNat * 2 ^ 32 :=
  boundedrand_uniform Seeded.initial.odd (by decide)

/-- After calls in any order the loop of `pcg32_boundedrand_r` ends, with one number, which is below the bound. -/
theorem boundedrand_returns (h : Seeded rng) (hbound : bound ≠ 0) :
    ∃ v rng', Boundedrand rng bound v rng' ∧ v < bound ∧
      ∀ v' rng'', Boundedrand rng bound v' rng'' → v' = v ∧ rng'' = rng' := by
  -- the state that has the threshold as its output is reached within a period
  obtain ⟨s, hs⟩ := bijective_parts.surjective (threshold bound, 0, 0)
  have hout : pcg32Output s = threshold bound := congrArg Prod.fst hs
  obtain ⟨n, -, hn⟩ := exists_iterate_lcg (by decide : pcg32Factor.toNat % 4 = 1) h.odd rng.state s
  have haccept : aboveThreshold bound (pcg32RandomR (after pcg32RandomR n rng)).1 = true := by
    rw [after_pcg32RandomR, hn]
    show aboveThreshold bound (pcg32Output s) = true
    rw [hout]
    exact decide_eq_true (BitVec.le_refl _)
  obtain ⟨r, rng', hd⟩ := exists_draws haccept
  refine ⟨r % bound, rng', ⟨r, hd, rfl⟩, umod_lt_bound hbound r, ?_⟩
  rintro v' rng'' ⟨r', hd', rfl⟩
  obtain ⟨rfl, rfl⟩ := hd'.unique hd
  exact ⟨rfl, rfl⟩

/-- The generator of the node with the address `00:02`, seeded by `open_trickle`. -/
theorem boundedrand_returns_seeded : ∃ v rng', Boundedrand (pcg32SrandomR pcg32Initializer 0x77FE 2) 1000 v rng' ∧
    v < 1000 ∧ ∀ v' rng'', Boundedrand (pcg32SrandomR pcg32Initializer 0x77FE 2) 1000 v' rng'' →
      v' = v ∧ rng'' = rng' :=
  boundedrand_returns (Seeded.initial.srandom 0x77FE 2) (by decide)

end

end Unet4Cooja
