import Unet4Cooja.Stdio.Format

/-!
# Hexadecimal output

* `hexRead` : the value of a text of hexadecimal digits;
* `HexText` : the digits of a number, the most significant first, with zeros in front up to the width;
* `HexWritten` : `%x` and `%X` put this text, wherever they stand in a format;
* `hexWritten_iff` : with a width the number must have no more digits, without one it must be below 32768 and the same
  backwards.
-/

namespace Unet4Cooja
open Lib

def hexLetter (upper : Bool) : U8 := if upper then ascii 'X' else ascii 'x'

def hexDigitValue (c : U8) : Nat :=
  if ascii '0' ≤ c ∧ c ≤ ascii '9' then (c - ascii '0').toNat
  else if ascii 'a' ≤ c ∧ c ≤ ascii 'f' then (c - ascii 'a').toNat + 10
  else if ascii 'A' ≤ c ∧ c ≤ ascii 'F' then (c - ascii 'A').toNat + 10
  else 0

/-- The number a text of hexadecimal digits means. -/
def hexRead (text : List U8) : Nat := Nat.ofDigits 16 (text.map hexDigitValue).reverse

/-- The digits of `n` with zeros in front up to the width, which mean `n`. -/
structure HexText (upper : Bool) (width n : Nat) (text : List U8) : Prop where
  digits : text = (padded 16 width n).map (hexChar (hexLetter upper))
  read : hexRead text = n

def hexConversion (upper : Bool) (ds : Digits) : FormatItem :=
  .conversion ds (hexLetter upper) (by cases upper <;> decide)

/-- Between the texts of the other items `print` puts the hexadecimal text of the argument. -/
def HexWritten (out : Bool) (args : Nat → VaArg) (before : List FormatItem) (upper : Bool) (ds : Digits)
    (after : List FormatItem) : Prop :=
  ∃ s text, print out args (itemsBytes (before ++ hexConversion upper ds :: after) ++ [0]) = some s ∧
    s.bytes = itemsText args 0 before ++ text ++ itemsText args (itemsCount before + 1) after ++ [0] ∧
    HexText upper ds.width.toNat (args (itemsCount before)).int.toNat text

section
variable {upper : Bool} {width n : Nat} {i : U16} {text : List U8}

theorem hexDigitValue_hexChar : ∀ upper, ∀ d < 16, hexDigitValue (hexChar (hexLetter upper) d) = d := by decide

theorem map_hexDigitValue (upper : Bool) {ds : List Nat} (h : ∀ d ∈ ds, d < 16) :
    (ds.map (hexChar (hexLetter upper))).map hexDigitValue = ds := by
  rw [List.map_map]
  conv_rhs => rw [← List.map_id ds]
  exact List.map_congr_left fun d hd => hexDigitValue_hexChar upper d (h d hd)

theorem lt_of_mem_padded {d : Nat} (h : d ∈ padded 16 width n) : d < 16 := by
  rcases List.mem_append.mp h with h | h
  · rw [List.eq_of_mem_replicate h]
    decide
  · exact lt_base_of_mem_numeral (by decide) h

theorem hexText_iff (upper : Bool) (width n : Nat) (text : List U8) :
    HexText upper width n text ↔ text = (padded 16 width n).map (hexChar (hexLetter upper)) := by
  refine ⟨fun h => h.digits, fun h => ⟨h, ?_⟩⟩
  unfold hexRead
  rw [h, map_hexDigitValue upper fun d => lt_of_mem_padded, ofDigits_padded]

theorem lastDigits_hexText_iff (hw : 0 < width) :
    HexText upper width n ((lastDigits 16 n width).map (hexChar (hexLetter upper))) ↔ n < 16 ^ width := by
  rw [hexText_iff]
  constructor
  · intro h
    have hlen := congrArg List.length h
    rw [List.length_map, List.length_map, length_lastDigits, length_padded] at hlen
    exact (length_numeral_le_iff (by decide) hw).mp (by omega)
  · intro h
    rw [lastDigits_eq_padded (by decide) hw h]

/-- Without a width they are right if and only if the number is not negative and the same backwards. -/
theorem hexText_without_width_iff (upper : Bool) (i : U16) :
    HexText upper 0 i.toNat (hexText (hexLetter upper) i) ↔
      i.toNat < 2 ^ 15 ∧ (numeral 16 i.toNat).reverse = numeral 16 i.toNat := by
  rw [hexText_iff, padded_of_le (Nat.zero_le _)]
  unfold hexText
  by_cases hneg : i.slt 0 = true
  · have hle := (slt_zero_iff i).mp hneg
    rw [if_pos hneg]
    refine iff_of_false (fun h => ?_) fun h => absurd h.1 (Nat.not_lt.mpr hle)
    have hlen := congrArg List.length h
    rw [List.length_map] at hlen
    have hsmall : i.toNat < 16 ^ 1 := (length_numeral_le_iff (by decide) (by decide)).mp hlen.symm.le
    omega
  · have hlt : i.toNat < 2 ^ 15 := by
      rw [slt_zero_iff] at hneg
      exact Nat.lt_of_not_le hneg
    have hdigit {d : Nat} (h : d ∈ numeral 16 i.toNat) : d < 16 := lt_base_of_mem_numeral (by decide) h
    rw [if_neg hneg]
    constructor
    · intro h
      have hdigits := congrArg (List.map hexDigitValue) h
      rw [map_hexDigitValue upper fun d hd => hdigit (List.mem_reverse.mp hd),
        map_hexDigitValue upper fun d => hdigit] at hdigits
      exact ⟨hlt, hdigits⟩
    · intro h
      rw [h.2]

/-- What `%x` and `%X` put is right if and only if the width has room for all digits, or there is no width and the
number is below 32768 and the same backwards. -/
theorem hexWritten_iff (out : Bool) (args : Nat → VaArg) (before : List FormatItem) (upper : Bool) (ds : Digits)
    (after : List FormatItem) (hwidth : ds.width.toNat ≤ 4) :
    HexWritten out args before upper ds after ↔
      (0 < ds.width.toNat ∧ (args (itemsCount before)).int.toNat < 16 ^ ds.width.toNat) ∨
        (ds.width.toNat = 0 ∧ (args (itemsCount before)).int.toNat < 2 ^ 15 ∧
          (numeral 16 (args (itemsCount before)).int.toNat).reverse =
            numeral 16 (args (itemsCount before)).int.toNat) := by
  have hargs : convArgs (hexLetter upper) = 1 := by cases upper <;> rfl
  have hletter : hexLetter upper = ascii 'x' ∨ hexLetter upper = ascii 'X' := by cases upper <;> decide
  obtain ⟨s, hs, hbytes⟩ := print_conversion out args before after ds (hexLetter upper) (by cases upper <;> decide)
  rw [hargs] at hbytes
  -- the text between the others is that of the conversion
  have htext : HexWritten out args before upper ds after ↔ HexText upper ds.width.toNat
      (args (itemsCount before)).int.toNat (convText (hexLetter upper) ds.width (args (itemsCount before))) := by
    constructor
    · rintro ⟨t, text, ht, htb, h⟩
      obtain rfl := Option.some.inj (hs.symm.trans ht)
      rw [hbytes] at htb
      have hmiddle := List.append_cancel_left (List.append_cancel_right (List.append_cancel_right htb))
      rwa [hmiddle]
    · exact fun h => ⟨s, _, hs, hbytes, h⟩
  rw [htext]
  unfold convText
  rw [if_pos hletter]
  by_cases hw : 0 < ds.width.toNat
  · have hslt : (0 : U16).slt ds.width = true := (zero_slt_iff ds.width).mpr ⟨hw, by omega⟩
    rw [if_pos hslt, hexWidthText_eq _ _ hwidth, lastDigits_hexText_iff hw]
    simp only [hw, true_and, Nat.ne_of_gt hw, false_and, or_false]
  · have hzero : ds.width.toNat = 0 := Nat.eq_zero_of_not_pos hw
    have hslt : ¬ (0 : U16).slt ds.width = true := fun h => hw ((zero_slt_iff ds.width).mp h).1
    rw [if_neg hslt, hzero, hexText_without_width_iff]
    simp only [Nat.lt_irrefl, false_and, true_and, false_or]

end

def noDigits : Digits := ⟨[], fun _ h => absurd h List.not_mem_nil⟩

def oneArg (int : U16) : Nat → VaArg := fun n => { noArgs n with int := if n = 0 then int else 0 }

theorem hexWritten_iff_palindrome : HexWritten true (oneArg 0x1221) [] false noDigits [] :=
  (hexWritten_iff true (oneArg 0x1221) [] false noDigits [] (by decide)).mpr
    (Or.inr ⟨rfl, by decide, by decide +kernel⟩)

/-- `%x` of 18 is `21`. -/
theorem hexWritten_fails : ¬ ∀ (out : Bool) (args : Nat → VaArg) (before : List FormatItem) (upper : Bool) (ds : Digits)
    (after : List FormatItem), ds.width.toNat ≤ 4 → HexWritten out args before upper ds after := by
  intro h
  obtain ⟨s, text, hs, hbytes, htext⟩ := h true (oneArg 0x12) [] false noDigits [] (by decide)
  have hput : print true (oneArg 0x12) [ascii '%', ascii 'x', 0] = some ⟨3, [ascii '2', ascii '1', 0], 1⟩ := by
    decide +kernel
  obtain rfl := Option.some.inj (hput.symm.trans hs)
  have hread : hexRead text = 0x12 := htext.read
  have hmiddle : [ascii '2', ascii '1'] = text := by
    have hend : [ascii '2', ascii '1'] ++ [0] = text ++ [0] := by simpa [itemsText] using hbytes
    exact List.append_cancel_right hend
  rw [← hmiddle] at hread
  exact absurd hread (by decide)

end Unet4Cooja
