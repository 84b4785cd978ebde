import Unet4Cooja.Stdio.Format

/-!
# Decimal output and the size

* `DecimalText` : the canonical numeral of an integer;
* `DecimalLetter` : the decimal conversions, with the value each of them is to put;
* `Counted` : `size` counts the bytes; every step of `print` keeps it;
* `decimalOutput` : each decimal conversion puts the canonical numeral of its argument, and `print` returns how many
  bytes it has put.
-/

namespace Unet4Cooja
open Lib

/-- The decimal digits of `i`, the most significant first, without superfluous zeros, and `-` before them exactly if `i`
is negative. -/
def DecimalText (i : Int) (text : List U8) : Prop :=
  ∃ digits : List Nat, text = (if i < 0 then [ascii '-'] else []) ++ digits.map digitChar ∧ digits ≠ [] ∧
    (∀ d ∈ digits, d < 10) ∧ Nat.ofDigits 10 digits.reverse = i.natAbs ∧ (digits.head? = some 0 → digits = [0])

/-- `%d`, `%i` and `%u` of an `int`, `%l` and `%n` of a `long`. -/
inductive DecimalLetter
  | d | i | u | l | n

namespace DecimalLetter

def letter : DecimalLetter → U8
  | d => ascii 'd'
  | i => ascii 'i'
  | u => ascii 'u'
  | l => ascii 'l'
  | n => ascii 'n'

def value (a : VaArg) : DecimalLetter → Int
  | d | i => a.int.toInt
  | u => a.int.toNat
  | l => a.long.toInt
  | n => a.long.toNat

theorem letter_ok (x : DecimalLetter) : x.letter ≠ 0 ∧ x.letter ≠ ascii '.' ∧ ¬ IsDigit x.letter := by
  cases x <;> decide

theorem convArgs_letter (x : DecimalLetter) : convArgs x.letter = 1 := by cases x <;> rfl

end DecimalLetter

/-- What `print` does with decimal conversions and with its size. -/
structure DecimalOutput (out : Bool) (args : Nat → VaArg) : Prop where
  numeral : ∀ before (ds : Digits) (x : DecimalLetter) after, ∃ s text,
    print out args (itemsBytes (before ++ .conversion ds x.letter x.letter_ok :: after) ++ [0]) = some s ∧
      s.bytes = itemsText args 0 before ++ text ++ itemsText args (itemsCount before + 1) after ++ [0] ∧
      DecimalText (x.value (args (itemsCount before))) text
  size : ∀ memory s, print out args memory = some s → s.bytes.length ≤ 32767 → s.size.toInt = s.bytes.length
  returns : ∀ (format : CString) rest, ¬ CutPrecision format.bytes →
    (print out args (format.bytes ++ 0 :: rest)).isSome

/-- `size` counts the bytes. -/
def PrintState.Counted (s : PrintState) : Prop := s.size = BitVec.ofNat 16 s.bytes.length

section
variable {out : Bool} {args : Nat → VaArg} {s t : PrintState}

/-! ## Numerals -/

theorem decimalText_numeral (i : Int) :
    DecimalText i ((if i < 0 then [ascii '-'] else []) ++ decimal i.natAbs) := by
  refine ⟨numeral 10 i.natAbs, rfl, numeral_ne_nil _ _, fun d => lt_base_of_mem_numeral (by decide),
    ofDigits_numeral _ _, fun hzero => ?_⟩
  rcases Nat.eq_zero_or_pos i.natAbs with hn | hn
  · rw [hn]
    rfl
  · exact absurd hzero (head_numeral_ne_zero hn)

theorem decimalText_signedDecimal (i : Int) : DecimalText i (signedDecimal i) := by
  have h := decimalText_numeral i
  unfold signedDecimal
  split
  · rename_i hneg
    rwa [if_pos hneg] at h
  · rename_i hneg
    rwa [if_neg hneg] at h

theorem decimalText_decimal (n : Nat) : DecimalText n (decimal n) := by
  have h := decimalText_numeral n
  rwa [if_neg (Int.not_lt.mpr (Int.natCast_nonneg n)), Int.natAbs_natCast] at h

theorem decimalText_convText (x : DecimalLetter) (width : U16) (a : VaArg) :
    DecimalText (x.value a) (convText x.letter width a) := by
  cases x with
  | d => exact decimalText_signedDecimal _
  | i => exact decimalText_signedDecimal _
  | u => exact decimalText_decimal _
  | l => exact decimalText_signedDecimal _
  | n => exact decimalText_decimal _

/-! ## The size -/

theorem counted_emit (h : s.Counted) (text : List U8) : (s.emit text).Counted := by
  unfold PrintState.Counted PrintState.emit at *
  dsimp only
  rw [h, List.length_append, BitVec.ofNat_add]

theorem counted_printSwitch (h : s.Counted) (c : U8) (width : U16) : (printSwitch out args c width s).Counted := by
  rw [printSwitch_eq]
  exact counted_emit h _

theorem counted_printPrecision (h : s.Counted) {format rest : List U8}
    (hread : printPrecision out args format s = some (rest, t)) : t.Counted := by
  unfold printPrecision at hread
  split at hread
  · exact nomatch hread
  · split at hread
    · split at hread
      · exact nomatch hread
      · split at hread
        · obtain rfl := (Prod.mk.inj (Option.some.inj hread)).2
          rw [countedLoop_eq]
          exact counted_emit h _
        · obtain rfl := (Prod.mk.inj (Option.some.inj hread)).2
          exact h
    · obtain rfl := (Prod.mk.inj (Option.some.inj hread)).2
      exact h

theorem counted_printConversion (h : s.Counted) {format : List U8} {rest : Option (List U8)}
    (hread : printConversion out args format s = some (rest, t)) : t.Counted := by
  unfold printConversion at hread
  obtain ⟨format, -, hread⟩ := Option.bind_eq_some_iff.mp hread
  obtain ⟨⟨width, format⟩, -, hread⟩ := Option.bind_eq_some_iff.mp hread
  dsimp only at hread
  split at hread
  · exact nomatch hread
  · split at hread
    · obtain ⟨⟨format, u⟩, hpoint, hread⟩ := Option.bind_eq_some_iff.mp hread
      obtain rfl := (Prod.mk.inj (Option.some.inj hread)).2
      exact counted_printPrecision h hpoint
    · split at hread
      · obtain rfl := (Prod.mk.inj (Option.some.inj hread)).2
        exact h
      · obtain rfl := (Prod.mk.inj (Option.some.inj hread)).2
        exact counted_printSwitch h _ _

theorem counted_printLoop (h : s.Counted) {n : Nat} {format : List U8} (hrun : printLoop out args n format s = some t) :
    t.Counted := by
  induction n generalizing format s with
  | zero => cases format <;> cases hrun
  | succ n ih =>
    cases format with
    | nil => cases hrun
    | cons c format =>
      rw [printLoop] at hrun
      split at hrun
      · exact Option.some.inj hrun ▸ h
      · split at hrun
        · split at hrun
          · cases hrun
          · rename_i hread
            exact Option.some.inj hrun ▸ counted_printConversion h hread
          · rename_i hread
            exact ih (counted_printConversion h hread) hrun
        · rw [(emits_putc out c).put] at hrun
          exact ih (counted_emit h _) hrun

theorem counted_print {memory : List U8} (hrun : print out args memory = some t) : t.Counted := by
  obtain ⟨s, hs, rfl⟩ := Option.map_eq_some_iff.mp hrun
  have hstart : PrintState.Counted ⟨0, [], 0⟩ := rfl
  rw [(emits_putc out 0).put]
  exact counted_emit (counted_printLoop hstart hs) _

theorem counted_size_toInt (h : s.Counted) (hlen : s.bytes.length ≤ 32767) : s.size.toInt = s.bytes.length := by
  have hnat : (BitVec.ofNat 16 s.bytes.length).toNat = s.bytes.length := by
    rw [BitVec.toNat_ofNat, Nat.mod_eq_of_lt (by omega)]
  rw [h, BitVec.toInt_eq_toNat_cond, hnat, if_pos (by omega)]

/-! ## The result -/

/-- In every format the decimal conversions put canonical numerals, and the size that is returned is the number of
bytes. -/
theorem decimalOutput (out : Bool) (args : Nat → VaArg) : DecimalOutput out args where
  numeral before ds x after := by
    obtain ⟨s, hs, hbytes⟩ := print_conversion out args before after ds x.letter x.letter_ok
    rw [x.convArgs_letter] at hbytes
    exact ⟨s, _, hs, hbytes, decimalText_convText x ds.width _⟩
  size memory s hrun hlen := counted_size_toInt (counted_print hrun) hlen
  returns format rest hcut := by
    obtain ⟨items, e, hformat, he⟩ := exists_items_of_not_cut format hcut
    rw [hformat, List.append_assoc, print_complete out args items he rest]
    rfl

end

end Unet4Cooja
