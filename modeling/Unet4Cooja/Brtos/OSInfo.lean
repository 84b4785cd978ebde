import Unet4Cooja.Lib.ForRange
import Unet4Cooja.Stdio.Decimal

/-!
# Decimal numbers in the reports of the kernel (`OSInfo.c`)

* `CharBuffer` : a buffer of the caller, with the indices that have been written;
* `printDecimal` : the function, which returns an index into the buffer;
* `InfoCall` : the three callers, with the size of their array and the values they print;
* `NumeralReturned`, `InfoCall.Inside` : what is returned, and where it is written;
* `printsDecimals_iff` : the numeral is right for all values but -32768, and only `OSUptimeInfo` has too small an array.
-/

namespace Unet4Cooja
open Lib

/-- The memory behind `buff`, and where `PrintDecimal` has written. -/
structure CharBuffer where
  bytes : Nat → U8
  written : List Nat

def CharBuffer.store (b : CharBuffer) (i : Nat) (c : U8) : CharBuffer :=
  { bytes := Function.update b.bytes i c, written := b.written ++ [i] }

/-- The loop over the digits, with what `i` is after it. -/
def printDigits : Nat → U16 → CharBuffer → Nat × CharBuffer
  | 0, _, b => (0, b)
  | i + 1, val, b =>
    let backup := val
    let val := val.sdiv 10
    let b := b.store (i + 1) ((backup - val * 10).setWidth 8 + ascii '0')
    if val = 0 then (i, b) else printDigits i val b

/-- The spaces and the NUL that are written first. -/
def CharBuffer.fill (b : CharBuffer) : CharBuffer :=
  (forRange 6 (fun i b => b.store i (ascii ' ')) b).store 6 0

def printDecimal (val : U16) (b : CharBuffer) : Nat × CharBuffer :=
  let b := b.fill
  let s := if val.slt 0 then ascii '-' else ascii ' '
  let val := if val.slt 0 then -val else val
  let (i, b) := printDigits 5 val b
  let b := b.store i s
  (if b.bytes i = ascii '-' then i else i + 1, b)

/-! ## The callers -/

/-- `HEAP_SIZE`. -/
abbrev infoHeapSize : U16 := 2 * 4096

abbrev queueHeapSize : U16 := 128

/-- An installed task in the list: its number, its priority and `VirtualStack`. -/
structure TaskRow where
  j : U8
  prio : U8
  virtualStack : U16

inductive InfoCall
  | osTaskList (tasks : List TaskRow)
  | osAvailableMemory (iStackAddress iQueueAddress : U16)
  | osUptimeInfo (rtcDay rtcHour rtcMinute rtcSecond : U8)

namespace InfoCall

def strSize : InfoCall → Nat
  | osTaskList _ => 9
  | osAvailableMemory _ _ => 8
  | osUptimeInfo _ _ _ _ => 6

/-- The values `PrintDecimal` is called with. -/
def values : InfoCall → List U16
  | osTaskList tasks => tasks.flatMap fun t =>
    (if t.j < 10 then [] else [t.j.setWidth 16]) ++ [t.prio.setWidth 16, t.virtualStack]
  | osAvailableMemory iStackAddress iQueueAddress =>
    [iStackAddress * 4, infoHeapSize, iQueueAddress * 4, queueHeapSize]
  | osUptimeInfo rtcDay rtcHour rtcMinute rtcSecond =>
    (if 0 < rtcDay then [rtcDay.setWidth 16] else []) ++
      [rtcHour.setWidth 16, rtcMinute.setWidth 16, rtcSecond.setWidth 16]

def run (call : InfoCall) (b : CharBuffer) : CharBuffer := call.values.foldl (fun b val => (printDecimal val b).2) b

/-- All that is written lies in the array. -/
def Inside (call : InfoCall) (bytes : Nat → U8) : Prop := ∀ i ∈ (call.run ⟨bytes, []⟩).written, i < call.strSize

/-- The call is `OSUptimeInfo`. -/
def IsUptime : InfoCall → Prop
  | osUptimeInfo _ _ _ _ => True
  | osTaskList _ | osAvailableMemory _ _ => False

end InfoCall

structure StringAt (bytes : Nat → U8) (p : Nat) (text : List U8) : Prop where
  chars : ∀ k (h : k < text.length), bytes (p + k) = text[k]
  ends : bytes (p + text.length) = 0

/-- What `PrintDecimal` returns points to the canonical numeral of the value. -/
def NumeralReturned (val : U16) (b : CharBuffer) : Prop :=
  ∃ text, DecimalText val.toInt text ∧ StringAt (printDecimal val b).2.bytes (printDecimal val b).1 text

section
variable {b : CharBuffer} {val : U16} {i n : Nat}

/-! ## Where is written -/

/-- What has been written stays written, and what is new is up to the index `n`. -/
structure WritesUpTo (n : Nat) (b b' : CharBuffer) : Prop where
  kept : ∀ p ∈ b.written, p ∈ b'.written
  upTo : ∀ p ∈ b'.written, p ∈ b.written ∨ p ≤ n

theorem WritesUpTo.refl (n : Nat) (b : CharBuffer) : WritesUpTo n b b := ⟨fun _ h => h, fun _ h => Or.inl h⟩

theorem WritesUpTo.trans {b' b'' : CharBuffer} (h : WritesUpTo n b b') (h' : WritesUpTo n b' b'') :
    WritesUpTo n b b'' where
  kept p hp := h'.kept p (h.kept p hp)
  upTo p hp := (h'.upTo p hp).elim (h.upTo p) Or.inr

theorem WritesUpTo.store (b : CharBuffer) (c : U8) (h : i ≤ n) : WritesUpTo n b (b.store i c) where
  kept _ hp := List.mem_append_left _ hp
  upTo p hp := by
    rcases List.mem_append.mp hp with hp | hp
    · exact Or.inl hp
    · rw [List.mem_singleton.mp hp]
      exact Or.inr h

theorem mem_written_store (b : CharBuffer) (i : Nat) (c : U8) : i ∈ (b.store i c).written :=
  List.mem_append_right _ (List.mem_singleton_self i)

theorem printDigits_written (hi : i ≤ n) (val : U16) (b : CharBuffer) :
    (printDigits i val b).1 ≤ i ∧ WritesUpTo n b (printDigits i val b).2 := by
  induction i generalizing val b with
  | zero => exact ⟨Nat.le_refl 0, .refl n b⟩
  | succ i ih =>
    unfold printDigits
    dsimp only
    split
    · exact ⟨Nat.le_succ i, .store b _ hi⟩
    · obtain ⟨hle, hw⟩ := ih (by omega) (val.sdiv 10)
        (b.store (i + 1) ((val - val.sdiv 10 * 10).setWidth 8 + ascii '0'))
      exact ⟨by omega, (WritesUpTo.store b _ hi).trans hw⟩

theorem fill_written (b : CharBuffer) : 6 ∈ b.fill.written ∧ WritesUpTo 6 b b.fill := by
  have hspaces : WritesUpTo 6 b (forRange 6 (fun i b => b.store i (ascii ' ')) b) :=
    forRange_invariant (.refl 6 b) fun i hi t ht => ht.trans (.store t _ (Nat.le_of_lt hi))
  exact ⟨mem_written_store _ 6 0, hspaces.trans (.store _ 0 (Nat.le_refl 6))⟩

theorem printDecimal_written (val : U16) (b : CharBuffer) :
    6 ∈ (printDecimal val b).2.written ∧ WritesUpTo 6 b (printDecimal val b).2 := by
  obtain ⟨hsix, hfill⟩ := fill_written b
  obtain ⟨hle, hdigits⟩ := printDigits_written (n := 6) (by decide : 5 ≤ 6) (if val.slt 0 then -val else val) b.fill
  have hlast : WritesUpTo 6 b.fill (printDecimal val b).2 := hdigits.trans (.store _ _ (Nat.le_trans hle (by decide)))
  exact ⟨hlast.kept 6 hsix, hfill.trans hlast⟩

theorem run_written (values : List U16) (b : CharBuffer) :
    (values ≠ [] → 6 ∈ (values.foldl (fun b val => (printDecimal val b).2) b).written) ∧
      WritesUpTo 6 b (values.foldl (fun b val => (printDecimal val b).2) b) := by
  induction values generalizing b with
  | nil => exact ⟨fun h => absurd rfl h, .refl 6 b⟩
  | cons val values ih =>
    obtain ⟨hsix, hw⟩ := printDecimal_written val b
    obtain ⟨-, hrest⟩ := ih (printDecimal val b).2
    exact ⟨fun _ => hrest.kept 6 hsix, hw.trans hrest⟩

theorem inside_of_seven_le (call : InfoCall) (bytes : Nat → U8) (h : 7 ≤ call.strSize) : call.Inside bytes := by
  obtain ⟨-, hw⟩ := run_written call.values ⟨bytes, []⟩
  intro i hi
  have hle : i ≤ 6 := (hw.upTo i hi).resolve_left List.not_mem_nil
  omega

theorem inside_iff (call : InfoCall) (bytes : Nat → U8) : call.Inside bytes ↔ ¬ call.IsUptime := by
  cases call with
  | osTaskList tasks => exact iff_of_true (inside_of_seven_le (.osTaskList tasks) bytes (Nat.le_add_left 7 2)) id
  | osAvailableMemory iStackAddress iQueueAddress =>
    exact iff_of_true (inside_of_seven_le (.osAvailableMemory _ _) bytes (Nat.le_add_left 7 1)) id
  | osUptimeInfo rtcDay rtcHour rtcMinute rtcSecond =>
    refine iff_of_false (fun h => ?_) fun h => h trivial
    obtain ⟨hsix, -⟩ := run_written (InfoCall.osUptimeInfo rtcDay rtcHour rtcMinute rtcSecond).values ⟨bytes, []⟩
    have hin := h 6 (hsix (List.append_ne_nil_of_right_ne_nil _ (List.cons_ne_nil _ _)))
    exact absurd hin (Nat.lt_irrefl 6)

/-! ## The numeral -/

theorem digit_sdiv (h : val.toNat < 2 ^ 15) :
    (val.sdiv 10).toNat = val.toNat / 10 ∧
      (val - val.sdiv 10 * 10).setWidth 8 + ascii '0' = digitChar (val.toNat % 10) := by
  have hmsb : val.msb = false := by
    rw [BitVec.msb_eq_decide, decide_eq_false_iff_not]
    omega
  have hten : (10 : U16).msb = false := by decide
  have hdiv : val.sdiv 10 = val / 10 := by
    rw [BitVec.sdiv_eq, hmsb, hten]
    rfl
  have hquotient : (val / 10).toNat = val.toNat / 10 := BitVec.toNat_udiv
  have hdigit : val - val / 10 * 10 = BitVec.ofNat 16 (val.toNat % 10) := by
    apply BitVec.eq_of_toNat_eq
    rw [BitVec.toNat_sub, BitVec.toNat_mul, hquotient, BitVec.toNat_ofNat]
    show (2 ^ 16 - val.toNat / 10 * 10 % 2 ^ 16 + val.toNat) % 2 ^ 16 = _
    omega
  rw [hdiv, hdigit]
  refine ⟨hquotient, ?_⟩
  unfold digitChar
  apply BitVec.eq_of_toNat_eq
  rw [BitVec.toNat_add, BitVec.toNat_setWidth, BitVec.toNat_ofNat, BitVec.toNat_ofNat]
  show (val.toNat % 10 % 2 ^ 16 % 2 ^ 8 + 48) % 2 ^ 8 = _
  omega

theorem printDigits_numeral (hi : 0 < i) (val : U16) (b : CharBuffer) (hval : val.toNat < 2 ^ 15) (hn : val.toNat < 10 ^ i) :
    (printDigits i val b).1 + (numeral 10 val.toNat).length = i ∧
      (∀ k (h : k < (numeral 10 val.toNat).length),
        (printDigits i val b).2.bytes ((printDigits i val b).1 + 1 + k) = digitChar (numeral 10 val.toNat)[k]) ∧
      ∀ p, i < p → (printDigits i val b).2.bytes p = b.bytes p := by
  induction i generalizing val b with
  | zero => exact absurd hi (Nat.lt_irrefl 0)
  | succ i ih =>
    obtain ⟨hdiv, hdigit⟩ := digit_sdiv hval
    have hzero : val.sdiv 10 = 0 ↔ val.toNat < 10 := by
      rw [← BitVec.toNat_inj, hdiv]
      show val.toNat / 10 = 0 ↔ _
      omega
    unfold printDigits
    dsimp only
    rw [hdigit]
    by_cases hlast : val.toNat < 10
    · rw [if_pos (hzero.mpr hlast), numeral_of_lt hlast, Nat.mod_eq_of_lt hlast]
      refine ⟨rfl, fun k hk => ?_, fun p hp => Function.update_of_ne (Nat.ne_of_gt hp) _ _⟩
      obtain rfl : k = 0 := Nat.lt_one_iff.mp hk
      exact Function.update_self _ _ _
    · have hmore : val.toNat / 10 < 10 ^ i := Nat.div_lt_of_lt_mul (by rwa [← Nat.pow_succ'])
      have hpos : 0 < i := by
        by_contra hc
        rw [Nat.eq_zero_of_not_pos hc] at hmore
        omega
      obtain ⟨hlen, hchars, hframe⟩ := ih hpos (val.sdiv 10) (b.store (i + 1) (digitChar (val.toNat % 10)))
        (by rw [hdiv]; omega) (by rw [hdiv]; exact hmore)
      rw [hdiv] at hlen hchars
      rw [if_neg (mt hzero.mp hlast)]
      simp only [numeral_of_ge (by decide : 1 < 10) (Nat.le_of_not_lt hlast), List.length_append, List.length_singleton]
      refine ⟨by omega, fun k hk => ?_, fun p hp => ?_⟩
      · by_cases hk' : k < (numeral 10 (val.toNat / 10)).length
        · rw [hchars k hk', List.getElem_append_left hk']
        · -- the last digit is the one of this round
          obtain rfl : k = (numeral 10 (val.toNat / 10)).length := by omega
          rw [List.getElem_append_right (Nat.le_refl _), hframe _ (by omega)]
          simp only [Nat.sub_self, List.getElem_cons_zero]
          rw [show (printDigits i (val.sdiv 10) (b.store (i + 1) (digitChar (val.toNat % 10)))).1 + 1 +
            (numeral 10 (val.toNat / 10)).length = i + 1 by omega]
          exact Function.update_self _ _ _
      · rw [hframe p (by omega)]
        exact Function.update_of_ne (Nat.ne_of_gt hp) _ _

theorem store_bytes (b : CharBuffer) (i : Nat) (c : U8) : (b.store i c).bytes = Function.update b.bytes i c := rfl

theorem fill_six (b : CharBuffer) : b.fill.bytes 6 = 0 := by
  unfold CharBuffer.fill
  rw [store_bytes, Function.update_self]

theorem printDecimal_string (val : U16) (b : CharBuffer) (h : val.toInt.natAbs < 2 ^ 15) :
    StringAt (printDecimal val b).2.bytes (printDecimal val b).1 (signedDecimal val.toInt) := by
  obtain ⟨n, hn⟩ : ∃ n, n = if val.slt 0 then -val else val := ⟨_, rfl⟩
  have habs : n.toNat = val.toInt.natAbs := by
    rw [natAbs_toInt, hn]
    split <;> rfl
  obtain ⟨hlen, hchars, hframe⟩ :=
    printDigits_numeral (by decide : 0 < 5) n b.fill (by omega) (by omega)
  have hend : (printDigits 5 n b.fill).2.bytes 6 = 0 := (hframe 6 (by decide)).trans (fill_six b)
  rw [habs] at hlen hchars
  unfold printDecimal signedDecimal decimal
  dsimp only
  rw [← hn]
  generalize printDigits 5 n b.fill = r at hlen hchars hend
  obtain ⟨j, b'⟩ := r
  dsimp only at hlen hchars hend
  have hself (s : U8) : (b'.store j s).bytes j = s := Function.update_self _ _ _
  have hother (s : U8) (p : Nat) (hp : p ≠ j) : (b'.store j s).bytes p = b'.bytes p := Function.update_of_ne hp _ _
  rw [hself]
  by_cases hneg : val.slt 0 = true
  · rw [if_pos hneg, if_pos rfl, if_pos ((slt_zero_iff_toInt val).mp hneg)]
    refine ⟨fun k hk => ?_, ?_⟩
    · cases k with
      | zero => exact hself _
      | succ k =>
        rw [List.length_cons, List.length_map] at hk
        rw [hother _ _ (by omega), List.getElem_cons_succ, List.getElem_map, ← hchars k (by omega)]
        congr 1
        omega
    · rw [List.length_cons, List.length_map, hother _ _ (by omega)]
      rw [show j + ((numeral 10 val.toInt.natAbs).length + 1) = 6 by omega]
      exact hend
  · have hspace : ¬ ascii ' ' = ascii '-' := by decide
    rw [if_neg hneg, if_neg hspace, if_neg (mt (slt_zero_iff_toInt val).mpr hneg)]
    refine ⟨fun k hk => ?_, ?_⟩
    · rw [List.length_map] at hk
      rw [hother _ _ (by omega), List.getElem_map, hchars k hk]
    · rw [List.length_map, hother _ _ (by omega)]
      rw [show j + 1 + (numeral 10 val.toInt.natAbs).length = 6 by omega]
      exact hend

/-- The negative of -32768 is itself, and the signs of its remainders spoil the digits: the second byte is `-` too. -/
theorem printDecimal_minimum (b : CharBuffer) :
    (printDecimal 0x8000 b).1 = 0 ∧ (printDecimal 0x8000 b).2.bytes 1 = ascii '-' := by
  constructor <;> rfl

theorem digitChar_ne_minus {d : Nat} (h : d < 10) : digitChar d ≠ ascii '-' := by
  have hall : ∀ d < 10, digitChar d ≠ ascii '-' := by decide
  exact hall d h

theorem numeralReturned_iff (val : U16) (b : CharBuffer) : NumeralReturned val b ↔ val ≠ 0x8000 := by
  constructor
  · rintro ⟨text, ⟨digits, htext, hne, hdigits, -⟩, hstring⟩ rfl
    obtain ⟨hptr, hbyte⟩ := printDecimal_minimum b
    obtain ⟨d, ds, rfl⟩ := List.exists_cons_of_ne_nil hne
    have hneg : (0x8000 : U16).toInt < 0 := by decide
    rw [if_pos hneg] at htext
    have hlen : 1 < text.length := by
      rw [htext]
      exact Nat.lt_add_of_pos_left (Nat.succ_pos _)
    have hchar := hstring.chars 1 hlen
    rw [hptr] at hchar
    have hdigit : text[1] = digitChar d := by simp [htext]
    exact digitChar_ne_minus (hdigits d List.mem_cons_self) (hdigit.symm.trans (hchar.symm.trans hbyte))
  · intro hne
    refine ⟨_, decimalText_signedDecimal val.toInt, printDecimal_string val b ?_⟩
    have hnat : val.toNat ≠ 2 ^ 15 := fun h => hne (BitVec.eq_of_toNat_eq h)
    have hlt := val.isLt
    rw [BitVec.toInt_eq_toNat_cond]
    split <;> omega

/-- `PrintDecimal` returns the canonical numeral of every value but -32768, and writes inside the array in every report
but `OSUptimeInfo`. -/
theorem printsDecimals_iff (b : CharBuffer) :
    (∀ val, NumeralReturned val b ↔ val ≠ 0x8000) ∧ ∀ call : InfoCall, call.Inside b.bytes ↔ ¬ call.IsUptime :=
  ⟨fun val => numeralReturned_iff val b, fun call => inside_iff call b.bytes⟩

end

def zeroBuffer : CharBuffer := ⟨fun _ => 0, []⟩

/-- After an hour of up time the byte behind the array is written. -/
theorem printsDecimals_fails : ¬ ∀ b : CharBuffer, (∀ val, NumeralReturned val b) ∧
    ∀ call : InfoCall, call.Inside b.bytes := by
  intro h
  have hin := (h zeroBuffer).2 (.osUptimeInfo 0 1 0 0) 6 (by decide +kernel)
  exact absurd hin (by decide)

end Unet4Cooja
