import Unet4Cooja.Lib.Positional
import Unet4Cooja.Stdio.Print

/-!
# What the helpers of `print` put

* `PrintState.emit` : the state after a text has been put and counted;
* `Emits f text` : a helper puts the text and returns its length; `Emits.put` is its use in `print`;
* `decimal`, `signedDecimal` : canonical numerals; `emits_xtoa` : what `xtoa` puts;
* `hexWidthText`, `hexText` : what the two loops for hexadecimal digits put.
-/

namespace Unet4Cooja
open Lib

def PrintState.emit (s : PrintState) (text : List U8) : PrintState :=
  { s with size := s.size + BitVec.ofNat 16 text.length, bytes := s.bytes ++ text }

/-- The helper puts `text` and returns its length. -/
def Emits (f : List U8 → U16 × List U8) (text : List U8) : Prop :=
  ∀ bytes, f bytes = (BitVec.ofNat 16 text.length, bytes ++ text)

def digitChar (d : Nat) : U8 := BitVec.ofNat 8 (48 + d)

def decimal (n : Nat) : List U8 := (numeral 10 n).map digitChar

/-- The canonical decimal numeral, with `-` exactly before negative numbers. -/
def signedDecimal (i : Int) : List U8 := if i < 0 then ascii '-' :: decimal i.natAbs else decimal i.natAbs

def hexChar (c : U8) (d : Nat) : U8 := (if c = ascii 'X' then upperHex else hex).getD d 0

def hexWidthText (c : U8) (i : U16) : Nat → List U8
  | 0 => []
  | k + 1 => hexChar c ((i.sshiftRight (k * 4)).toNat % 16) :: hexWidthText c i k

/-- The digits that are put without a width: the last one of a negative number, all others from the last one on. -/
def hexText (c : U8) (i : U16) : List U8 :=
  if i.slt 0 then [hexChar c (i.toNat % 16)] else (numeral 16 i.toNat).reverse.map (hexChar c)

section
variable {out : Bool} {c : U8} {s : PrintState} {f : List U8 → U16 × List U8} {text : List U8} {k : Nat}

/-! ## Texts one after the other -/

theorem count_succ (size : U16) (n : Nat) : size + 1 + BitVec.ofNat 16 n = size + BitVec.ofNat 16 (n + 1) := by
  rw [BitVec.ofNat_add, BitVec.add_assoc]
  exact congrArg (size + ·) (BitVec.add_comm _ _)

theorem emit_emit (s : PrintState) (xs ys : List U8) : (s.emit xs).emit ys = s.emit (xs ++ ys) := by
  unfold PrintState.emit
  rw [List.length_append, BitVec.ofNat_add, BitVec.add_assoc, List.append_assoc]

theorem emit_nil (s : PrintState) : s.emit [] = s := by
  unfold PrintState.emit
  rw [List.append_nil]
  show { s with size := s.size + 0#16 } = s
  rw [BitVec.add_zero]

theorem Emits.put (h : Emits f text) (s : PrintState) : s.put f = s.emit text := by
  unfold PrintState.put PrintState.emit
  rw [h s.bytes]

theorem emits_putc (out : Bool) (c : U8) : Emits (putc out c) [c] := by
  intro bytes
  unfold putc putchar
  split <;> rfl

theorem putstringLoop_eq (xs : List U8) (width : U16) (bytes : List U8) :
    putstringLoop out xs (width, bytes) = (width + BitVec.ofNat 16 xs.length, bytes ++ xs) := by
  induction xs generalizing width bytes with
  | nil =>
    show (width, bytes) = (width + 0#16, bytes ++ [])
    rw [BitVec.add_zero, List.append_nil]
  | cons x xs ih =>
    unfold putstringLoop
    rw [emits_putc out x bytes]
    dsimp only
    rw [ih, List.length_cons, count_succ, List.append_assoc]
    rfl

theorem emits_putstring (out : Bool) (s : CString) : Emits (putstring out s) s.bytes := by
  intro bytes
  unfold putstring
  rw [putstringLoop_eq, zero_add]

theorem countedLoop_eq (chars : Nat → U8) (n k : Nat) (s : PrintState) :
    countedLoop out chars n k s = s.emit ((List.range' k n).map chars) := by
  induction n generalizing k s with
  | zero => exact (emit_nil s).symm
  | succ n ih =>
    unfold countedLoop
    rw [ih, (emits_putc out (chars k)).put, emit_emit, List.range'_succ, List.map_cons]
    rfl

/-! ## Decimal digits -/

def powers : Nat → List U32
  | 0 => [1]
  | k + 1 => BitVec.ofNat 32 (10 ^ (k + 1)) :: powers k

theorem dv_eq : dv = powers 9 := by decide

theorem dv_drop : dv.drop 5 = powers 4 := by decide

theorem toNat_power (hk : k ≤ 9) : (BitVec.ofNat 32 (10 ^ k)).toNat = 10 ^ k := by
  rw [BitVec.toNat_ofNat, Nat.mod_eq_of_lt]
  exact Nat.lt_of_le_of_lt (Nat.pow_le_pow_right (by decide) hk) (by decide)

theorem xtoaDigit_eq (d : U32) (hd : 0 < d.toNat) (n : Nat) (c : U8) (x : U32) (hn : x.toNat / d.toNat ≤ n) :
    xtoaDigit d n c x = (c + BitVec.ofNat 8 (x.toNat / d.toNat), x % d) := by
  induction n generalizing c x with
  | zero =>
    have hlt : x.toNat < d.toNat := (Nat.div_eq_zero_iff_lt hd).mp (Nat.le_zero.mp hn)
    have hmod : x % d = x := BitVec.umod_eq_of_lt (BitVec.lt_def.mpr hlt)
    unfold xtoaDigit
    rw [Nat.div_eq_of_lt hlt, hmod]
    show (c, x) = (c + 0#8, x)
    rw [BitVec.add_zero]
  | succ n ih =>
    unfold xtoaDigit
    by_cases hle : d ≤ x
    · have hnat : d.toNat ≤ x.toNat := hle
      have hsub : (x - d).toNat = x.toNat - d.toNat := BitVec.toNat_sub_of_le hle
      have hdiv : x.toNat / d.toNat = (x.toNat - d.toNat) / d.toNat + 1 := Nat.div_eq_sub_div hd hnat
      have hmod : (x - d) % d = x % d := by
        apply BitVec.eq_of_toNat_eq
        rw [BitVec.toNat_umod, BitVec.toNat_umod, hsub, ← Nat.mod_eq_sub_mod hnat]
      rw [if_pos hle, ih (c + 1) (x - d) (by rw [hsub]; omega), hsub, hmod, hdiv, Nat.add_comm, BitVec.ofNat_add,
        BitVec.add_assoc]
      rfl
    · have hlt : x.toNat < d.toNat := Nat.lt_of_not_le hle
      rw [if_neg hle, Nat.div_eq_of_lt hlt, BitVec.umod_eq_of_lt (BitVec.lt_def.mpr hlt)]
      show (c, x) = (c + 0#8, x)
      rw [BitVec.add_zero]

theorem ascii_zero_add (d : Nat) : ascii '0' + BitVec.ofNat 8 d = digitChar d := by
  unfold digitChar
  rw [BitVec.ofNat_add]
  rfl

theorem power_and_one (hk : k ≤ 9) : BitVec.ofNat 32 (10 ^ k) &&& 1 = 0 ↔ k ≠ 0 := by
  have hand : (BitVec.ofNat 32 (10 ^ k) &&& 1).toNat = 10 ^ k % 2 := by
    rw [BitVec.toNat_and, toNat_power hk]
    exact Nat.and_one_is_mod _
  have hzero : BitVec.ofNat 32 (10 ^ k) &&& 1 = 0 ↔ 10 ^ k % 2 = 0 := by
    rw [← hand]
    exact ⟨fun h => by rw [h]; rfl, fun h => BitVec.eq_of_toNat_eq h⟩
  rw [hzero]
  cases k with
  | zero => decide
  | succ k =>
    refine iff_of_true ?_ (Nat.succ_ne_zero k)
    rw [Nat.pow_succ]
    omega

theorem xtoaLoop_power (out : Bool) (hk : k ≤ 9) (dp : List U32) (x : U32) (size : U16) (bytes : List U8) :
    xtoaLoop out (BitVec.ofNat 32 (10 ^ k) :: dp) x (size, bytes) =
      if k ≠ 0 then
        xtoaLoop out dp (x % BitVec.ofNat 32 (10 ^ k)) (size + 1, bytes ++ [digitChar (x.toNat / 10 ^ k)])
      else (size + 1, bytes ++ [digitChar (x.toNat / 10 ^ k)]) := by
  have hpos : 0 < (BitVec.ofNat 32 (10 ^ k)).toNat := by
    rw [toNat_power hk]
    exact Nat.pow_pos (by decide)
  rw [xtoaLoop, xtoaDigit_eq _ hpos _ _ _ (Nat.div_le_self _ _), toNat_power hk, ascii_zero_add]
  dsimp only
  rw [emits_putc out _ bytes]
  simp only [power_and_one hk]
  rfl

theorem xtoaLoop_eq (hk : k ≤ 9) (x : U32) (hx : x.toNat < 10 ^ (k + 1)) (size : U16) (bytes : List U8) :
    xtoaLoop out (powers k) x (size, bytes) =
      (size + BitVec.ofNat 16 (k + 1), bytes ++ (lastDigits 10 x.toNat (k + 1)).map digitChar) := by
  induction k generalizing x size bytes with
  | zero =>
    have hround := xtoaLoop_power out hk [] x size bytes
    rw [if_neg (not_not_intro rfl)] at hround
    refine hround.trans ?_
    have hdigit : x.toNat % 10 = x.toNat := Nat.mod_eq_of_lt hx
    rw [lastDigits, Nat.pow_zero, Nat.div_one, hdigit]
    rfl
  | succ k ih =>
    have hround := xtoaLoop_power out hk (powers k) x size bytes
    rw [if_pos (Nat.succ_ne_zero k)] at hround
    have hmod : (x % BitVec.ofNat 32 (10 ^ (k + 1))).toNat = x.toNat % 10 ^ (k + 1) := by
      rw [BitVec.toNat_umod, toNat_power hk]
    have hlow : x.toNat % 10 ^ (k + 1) < 10 ^ (k + 1) := Nat.mod_lt _ (Nat.pow_pos (by decide))
    have hhigh : x.toNat / 10 ^ (k + 1) < 10 := Nat.div_lt_of_lt_mul (by rwa [← Nat.pow_succ])
    refine hround.trans ?_
    have hdigits : lastDigits 10 x.toNat (k + 1 + 1) = x.toNat / 10 ^ (k + 1) :: lastDigits 10 x.toNat (k + 1) := by
      rw [lastDigits, Nat.mod_eq_of_lt hhigh]
    rw [ih (by omega) _ (by rw [hmod]; exact hlow), hmod, lastDigits_mod (Nat.le_refl _), hdigits, List.map_cons,
      count_succ, List.append_assoc]
    rfl

theorem dropWhile_powers (hk : k ≤ 9) (x : U32) (hpos : 0 < x.toNat) (hx : x.toNat < 10 ^ (k + 1)) :
    ∃ j ≤ k, (powers k).dropWhile (fun d => x < d) = powers j ∧ 10 ^ j ≤ x.toNat ∧ x.toNat < 10 ^ (j + 1) := by
  induction k with
  | zero =>
    refine ⟨0, Nat.le_refl 0, ?_, hpos, hx⟩
    have hstop : ¬ x < 1 := fun h => absurd (BitVec.lt_def.mp h) (Nat.not_lt.mpr hpos)
    unfold powers
    rw [List.dropWhile_cons_of_neg (by simpa using hstop)]
  | succ k ih =>
    by_cases hlt : x < BitVec.ofNat 32 (10 ^ (k + 1))
    · have hnat : x.toNat < 10 ^ (k + 1) := by
        rw [← toNat_power hk]
        exact hlt
      obtain ⟨j, hj, hdrop, hlow, hhigh⟩ := ih (by omega) hnat
      refine ⟨j, by omega, ?_, hlow, hhigh⟩
      rw [powers, List.dropWhile_cons_of_pos (by simpa using hlt), hdrop]
    · refine ⟨k + 1, Nat.le_refl _, ?_, ?_, hx⟩
      · rw [powers, List.dropWhile_cons_of_neg (by simpa using hlt)]
      · rw [← toNat_power hk]
        exact Nat.le_of_not_lt hlt

theorem emits_xtoa (out : Bool) (hk : k ≤ 9) (x : U32) (hx : x.toNat < 10 ^ (k + 1)) :
    Emits (xtoa out x (powers k)) (decimal x.toNat) := by
  intro bytes
  unfold xtoa decimal
  by_cases hzero : x = 0
  · rw [if_neg (not_not_intro hzero), hzero]
    exact emits_putc out _ bytes
  · have hpos : 0 < x.toNat := Nat.pos_of_ne_zero fun h => hzero (BitVec.eq_of_toNat_eq h)
    obtain ⟨j, hj, hdrop, hlow, hhigh⟩ := dropWhile_powers hk x hpos hx
    rw [if_pos hzero, hdrop, xtoaLoop_eq (by omega) x hhigh, ← lastDigits_eq_numeral (by decide) hlow hhigh,
      List.length_map, length_lastDigits, zero_add]

theorem emits_xtoa_long (out : Bool) (x : U32) : Emits (xtoa out x dv) (decimal x.toNat) := by
  rw [dv_eq]
  exact emits_xtoa out (by decide) x (Nat.lt_of_lt_of_le x.isLt (by decide))

theorem emits_xtoa_int (out : Bool) (x : U16) : Emits (xtoa out (x.setWidth 32) (dv.drop 5)) (decimal x.toNat) := by
  have hnat : (x.setWidth 32).toNat = x.toNat := BitVec.toNat_setWidth_of_le (by decide)
  rw [dv_drop, ← hnat]
  exact emits_xtoa out (by decide) _ (by rw [hnat]; exact Nat.lt_of_lt_of_le x.isLt (by decide))

/-! ## Hexadecimal digits -/

theorem emits_puth (out : Bool) (n : U16) (c : U8) : Emits (puth out n c) [hexChar c (n.toNat % 16)] := by
  intro bytes
  have hlow : (n &&& 15).toNat = n.toNat % 16 := Nat.and_two_pow_sub_one_eq_mod n.toNat 4
  unfold puth hexChar
  dsimp only
  rw [emits_putc out _ bytes, hlow]
  rfl

theorem hexWidthLoop_eq (i : U16) (c : U8) (width : Nat) (s : PrintState) :
    hexWidthLoop out i c width s = s.emit (hexWidthText c i width) := by
  induction width generalizing s with
  | zero => exact (emit_nil s).symm
  | succ width ih =>
    unfold hexWidthLoop
    rw [ih, (emits_puth out _ c).put, emit_emit]
    rfl

section
variable {i : U16}

theorem slt_zero_iff (i : U16) : i.slt 0 = true ↔ 2 ^ 15 ≤ i.toNat := by
  have hmsb : i.slt 0 = i.msb := BitVec.slt_zero_eq_msb
  rw [hmsb, BitVec.msb_eq_decide, decide_eq_true_eq]

theorem zero_slt_iff (i : U16) : (0 : U16).slt i = true ↔ 0 < i.toNat ∧ i.toNat < 2 ^ 15 := by
  rw [BitVec.slt_iff_toInt_lt]
  show 0 < i.toInt ↔ _
  rw [BitVec.toInt_eq_toNat_cond]
  have := i.isLt
  split <;> omega

theorem srem_sdiv_of_lt (h : i.toNat < 2 ^ 15) :
    (i.srem 16).toNat = i.toNat % 16 ∧ (i.sdiv 16).toNat = i.toNat / 16 := by
  have hmsb : i.msb = false := by
    rw [BitVec.msb_eq_decide, decide_eq_false_iff_not]
    omega
  have hsixteen : (16 : U16).msb = false := by decide
  constructor
  · rw [BitVec.srem_eq, hmsb, hsixteen]
    exact BitVec.toNat_umod
  · rw [BitVec.sdiv_eq, hmsb, hsixteen]
    exact BitVec.toNat_udiv

theorem srem_sdiv_of_ge (h : 2 ^ 15 ≤ i.toNat) :
    (i.srem 16).toNat % 16 = i.toNat % 16 ∧ ((0 : U16).slt (i.sdiv 16)) = false := by
  have hmsb : i.msb = true := by
    rw [BitVec.msb_eq_decide, decide_eq_true_eq]
    exact h
  have hsixteen : (16 : U16).msb = false := by decide
  have hlt := i.isLt
  have hneg : (-i).toNat = 2 ^ 16 - i.toNat := by
    rw [BitVec.toNat_neg, Nat.mod_eq_of_lt (by omega)]
  constructor
  · rw [BitVec.srem_eq, hmsb, hsixteen]
    show (-(-i % 16)).toNat % 16 = _
    rw [BitVec.toNat_neg, BitVec.toNat_umod, hneg]
    show (2 ^ 16 - (2 ^ 16 - i.toNat) % 16) % 2 ^ 16 % 16 = _
    omega
  · rw [BitVec.sdiv_eq, hmsb, hsixteen, Bool.eq_false_iff, ne_eq, zero_slt_iff]
    show ¬ (0 < (-(-i / 16)).toNat ∧ (-(-i / 16)).toNat < 2 ^ 15)
    rw [BitVec.toNat_neg, BitVec.toNat_udiv, hneg]
    show ¬ (0 < (2 ^ 16 - (2 ^ 16 - i.toNat) / 16) % 2 ^ 16 ∧ (2 ^ 16 - (2 ^ 16 - i.toNat) / 16) % 2 ^ 16 < 2 ^ 15)
    omega

theorem hexLoop_nonneg {n : Nat} (hn : 0 < n) (h : i.toNat < 2 ^ 15) (hi : i.toNat < 16 ^ n) (s : PrintState) :
    hexLoop out c n i s = s.emit ((numeral 16 i.toNat).reverse.map (hexChar c)) := by
  induction n generalizing i s with
  | zero => exact absurd hn (Nat.lt_irrefl 0)
  | succ n ih =>
    obtain ⟨hrem, hdiv⟩ := srem_sdiv_of_lt h
    unfold hexLoop
    dsimp only
    rw [(emits_puth out _ c).put, hrem, Nat.mod_mod]
    by_cases hlast : i.toNat < 16
    · have hstop : ¬ (0 : U16).slt (i.sdiv 16) = true := by
        rw [zero_slt_iff, hdiv, Nat.div_eq_of_lt hlast]
        exact fun hc => Nat.lt_irrefl 0 hc.1
      rw [if_neg hstop, numeral_of_lt hlast, Nat.mod_eq_of_lt hlast]
      rfl
    · have hmore : (0 : U16).slt (i.sdiv 16) = true := by
        rw [zero_slt_iff, hdiv]
        omega
      have hquotient : (i.sdiv 16).toNat < 16 ^ n := by
        rw [hdiv]
        exact Nat.div_lt_of_lt_mul (by rwa [← Nat.pow_succ'])
      have hpos : 0 < n := by
        by_contra hzero
        rw [Nat.eq_zero_of_not_pos hzero, hdiv] at hquotient
        omega
      rw [if_pos hmore, ih hpos (by rw [hdiv]; omega) hquotient, emit_emit, hdiv,
        numeral_of_ge (b := 16) (by decide) (Nat.le_of_not_lt hlast), List.reverse_append, List.map_append]
      rfl

theorem hexLoop_eq (i : U16) (s : PrintState) : hexLoop out c 4 i s = s.emit (hexText c i) := by
  unfold hexText
  by_cases h : i.toNat < 2 ^ 15
  · have hsign : ¬ i.slt 0 = true := by
      rw [slt_zero_iff]
      omega
    rw [if_neg hsign, hexLoop_nonneg (by decide) h (Nat.lt_of_lt_of_le h (by decide))]
  · have hle : 2 ^ 15 ≤ i.toNat := Nat.le_of_not_lt h
    obtain ⟨hrem, hstop⟩ := srem_sdiv_of_ge hle
    rw [if_pos ((slt_zero_iff i).mpr hle), hexLoop, hstop, (emits_puth out _ c).put, hrem]
    rfl

theorem sshiftRight_toNat (i : U16) (k : Nat) :
    (i.sshiftRight k).toNat =
      if 2 ^ 15 ≤ i.toNat then 2 ^ 16 - 1 - (2 ^ 16 - 1 - i.toNat) / 2 ^ k else i.toNat / 2 ^ k := by
  have hmsb : i.msb = decide (2 ^ 15 ≤ i.toNat) := BitVec.msb_eq_decide i
  split
  · rename_i h
    rw [BitVec.sshiftRight_eq_of_msb_true (by rw [hmsb, decide_eq_true h]), BitVec.toNat_not, BitVec.toNat_ushiftRight,
      BitVec.toNat_not, Nat.shiftRight_eq_div_pow]
  · rename_i h
    rw [BitVec.sshiftRight_eq_of_msb_false (by rw [hmsb, decide_eq_false h]), BitVec.toNat_ushiftRight,
      Nat.shiftRight_eq_div_pow]

theorem hexWidthText_eq (c : U8) (i : U16) {width : Nat} (h : width ≤ 4) :
    hexWidthText c i width = (lastDigits 16 i.toNat width).map (hexChar c) := by
  induction width with
  | zero => rfl
  | succ width ih =>
    have hshift : (i.sshiftRight (width * 4)).toNat % 16 = i.toNat / 16 ^ width % 16 := by
      have hlt := i.isLt
      rw [sshiftRight_toNat]
      obtain rfl | rfl | rfl | rfl : width = 0 ∨ width = 1 ∨ width = 2 ∨ width = 3 := by omega
      all_goals
        split <;> omega
    rw [hexWidthText, ih (by omega), lastDigits, List.map_cons, hshift]

end

end

end Unet4Cooja
