import Unet4Cooja.Stdio.Text

/-!
# The format of `print`

* `FormatItem` : a byte of the format, or a whole conversion; `FormatItem.text` is what it puts;
* `FormatEnd` : how a format ends behind its last item; `exists_items` : every format is items and such an end;
* `printLoop_items` : `print` puts the texts of the items one after the other;
* `staysInside_iff` : the terminator is not passed if and only if the format does not end within a precision.
-/

namespace Unet4Cooja

/-! ## Conversions -/

def argLetters : List U8 := "xXscdiulnp".toList.map ascii

def convText (c : U8) (width : U16) (a : VaArg) : List U8 :=
  if c = ascii 'x' ∨ c = ascii 'X' then
    if (0 : U16).slt width then hexWidthText c a.int width.toNat else hexText c a.int
  else if c = ascii 's' then a.string.bytes
  else if c = ascii 'c' then [a.int.setWidth 8]
  else if c = ascii 'd' then signedDecimal a.int.toInt
  else if c = ascii 'i' ∨ c = ascii 'u' then
    if c = ascii 'i' then signedDecimal a.int.toInt else decimal a.int.toNat
  else if c = ascii 'l' ∨ c = ascii 'n' then
    if c = ascii 'l' then signedDecimal a.long.toInt else decimal a.long.toNat
  else if c = ascii 'p' then decimal a.long.toNat
  else [c]

def convArgs (c : U8) : Nat := if c ∈ argLetters then 1 else 0

section
variable {out : Bool} {args : Nat → VaArg} {c : U8} {s : PrintState}

theorem natAbs_toInt {w : Nat} (i : BitVec w) : i.toInt.natAbs = if i.slt 0 then (-i).toNat else i.toNat := by
  have hlt := i.isLt
  have hsign : i.slt 0 = decide (2 ^ w ≤ 2 * i.toNat) := by
    have hmsb : i.slt 0 = i.msb := BitVec.slt_zero_eq_msb
    rw [hmsb, BitVec.msb_eq_decide]
    cases w with
    | zero => simp [BitVec.eq_nil i]
    | succ w =>
      have hpow : 2 ^ (w + 1) = 2 * 2 ^ w := Nat.pow_succ'
      rw [Nat.add_sub_cancel, hpow]
      simp
  rw [BitVec.toInt_eq_toNat_cond, hsign]
  by_cases h : 2 ^ w ≤ 2 * i.toNat
  · rw [if_neg (Nat.not_lt.mpr h), if_pos (decide_eq_true h), BitVec.toNat_neg,
      Nat.mod_eq_of_lt (Nat.sub_lt (Nat.two_pow_pos w) (by have := Nat.two_pow_pos w; omega))]
    omega
  · rw [if_pos (Nat.lt_of_not_le h), if_neg (by simpa using h)]
    omega

theorem slt_zero_iff_toInt {w : Nat} (i : BitVec w) : i.slt 0 = true ↔ i.toInt < 0 := by
  rw [BitVec.slt_iff_toInt_lt]
  show _ < (0#w).toInt ↔ _
  rw [BitVec.toInt_zero]

theorem putSign_put {w : Nat} (i : BitVec w) (s : PrintState) {f : BitVec w → List U8 → U16 × List U8}
    (hf : ∀ i, Emits (f i) (decimal i.toNat)) (signed : Bool) :
    (putSign out signed i s).2.put (f (putSign out signed i s).1) =
      s.emit (if signed then signedDecimal i.toInt else decimal i.toNat) := by
  unfold putSign signedDecimal
  cases signed with
  | false =>
    rw [if_neg (fun h => Bool.false_ne_true h.1), if_neg Bool.false_ne_true]
    exact (hf i).put s
  | true =>
    have habs := natAbs_toInt i
    rw [if_pos rfl]
    by_cases hneg : i.slt 0 = true
    · rw [if_pos hneg] at habs
      rw [if_pos ⟨rfl, hneg⟩, if_pos ((slt_zero_iff_toInt i).mp hneg), habs, (hf _).put, (emits_putc out _).put,
        emit_emit]
      rfl
    · rw [if_neg hneg] at habs
      rw [if_neg fun h => hneg h.2, if_neg fun h => hneg ((slt_zero_iff_toInt i).mpr h), habs]
      exact (hf i).put s

theorem printSwitch_eq (out : Bool) (args : Nat → VaArg) (c : U8) (width : U16) (s : PrintState) :
    printSwitch out args c width s = (s.skip (convArgs c)).emit (convText c width (args s.next)) := by
  have hint (signed : Bool) (i : U16) (s : PrintState) :
      (putSign out signed i s).2.put (xtoa out ((putSign out signed i s).1.setWidth 32) (dv.drop 5)) =
        s.emit (if signed then signedDecimal i.toInt else decimal i.toNat) :=
    putSign_put i s (fun i => emits_xtoa_int out i) signed
  have hlong (signed : Bool) (i : U32) (s : PrintState) :
      (putSign out signed i s).2.put (xtoa out (putSign out signed i s).1 dv) =
        s.emit (if signed then signedDecimal i.toInt else decimal i.toNat) :=
    putSign_put i s (fun i => emits_xtoa_long out i) signed
  unfold printSwitch convText
  by_cases hx : c = ascii 'x' ∨ c = ascii 'X'
  · have hargs : convArgs c = 1 := by rcases hx with rfl | rfl <;> rfl
    simp only [if_pos hx, hargs]
    split
    · exact hexWidthLoop_eq _ _ _ _
    · exact hexLoop_eq _ _
  · simp only [if_neg hx]
    by_cases hs : c = ascii 's'
    · have hargs : convArgs c = 1 := by rw [hs]; rfl
      simp only [if_pos hs, hargs]
      exact (emits_putstring out _).put _
    · simp only [if_neg hs]
      by_cases hc : c = ascii 'c'
      · have hargs : convArgs c = 1 := by rw [hc]; rfl
        simp only [if_pos hc, hargs]
        exact (emits_putc out _).put _
      · simp only [if_neg hc]
        by_cases hd : c = ascii 'd'
        · have hargs : convArgs c = 1 := by rw [hd]; rfl
          simp only [if_pos hd, hargs, hint]
          rfl
        · simp only [if_neg hd]
          by_cases hi : c = ascii 'i' ∨ c = ascii 'u'
          · have hargs : convArgs c = 1 := by rcases hi with rfl | rfl <;> rfl
            simp only [if_pos hi, hargs, hint, decide_eq_true_eq]
          · simp only [if_neg hi]
            by_cases hl : c = ascii 'l' ∨ c = ascii 'n'
            · have hargs : convArgs c = 1 := by rcases hl with rfl | rfl <;> rfl
              simp only [if_pos hl, hargs, hlong, decide_eq_true_eq]
            · simp only [if_neg hl]
              by_cases hp : c = ascii 'p'
              · have hargs : convArgs c = 1 := by rw [hp]; rfl
                have hsigned : ¬ c = ascii 'l' := fun h => hl (Or.inl h)
                simp only [if_pos hp, hargs, hlong, hsigned, decide_false, Bool.false_eq_true, ↓reduceIte]
              · have hargs : convArgs c = 0 := by
                  unfold convArgs argLetters
                  rw [if_neg]
                  simp only [not_or] at hx hi hl
                  show c ∉ [ascii 'x', ascii 'X', ascii 's', ascii 'c', ascii 'd', ascii 'i', ascii 'u', ascii 'l',
                    ascii 'n', ascii 'p']
                  simp only [List.mem_cons, List.not_mem_nil, hx, hs, hc, hd, hi, hl, hp, or_self, not_false_eq_true]
                simp only [if_neg hp, hargs]
                exact (emits_putc out c).put s

end

/-! ## Items -/

/-- `'0'` to `'9'`. -/
def IsDigit (c : U8) : Prop := ascii '0' ≤ c ∧ c ≤ ascii '9'

instance (c : U8) : Decidable (IsDigit c) := inferInstanceAs (Decidable (_ ∧ _))

/-- The digits of a conversion. -/
abbrev Digits := { ds : List U8 // ∀ d ∈ ds, IsDigit d }

def Digits.width (ds : Digits) : U16 :=
  ds.val.foldl (fun width d => width * 10 + (d - ascii '0').setWidth 16) 0

/-- A byte of the format outside of conversions; a conversion `%5x`; `%5.x`, which `print` skips; `%5.*s`. -/
inductive FormatItem
  | byte (c : U8) (h : c ≠ 0 ∧ c ≠ ascii '%')
  | conversion (ds : Digits) (c : U8) (h : c ≠ 0 ∧ c ≠ ascii '.' ∧ ¬ IsDigit c)
  | point (ds : Digits) (c : U8) (h : c ≠ 0 ∧ c ≠ ascii '*')
  | counted (ds : Digits) (c : U8) (h : c ≠ 0)

/-- What is behind the last item: nothing, a `%` with digits, or such a `%` with `.` or `.*`. -/
inductive FormatEnd
  | complete
  | percent (ds : Digits)
  | point (ds : Digits)
  | star (ds : Digits)

namespace FormatItem

def bytes : FormatItem → List U8
  | byte c _ => [c]
  | conversion ds c _ => ascii '%' :: (ds.val ++ [c])
  | point ds c _ => ascii '%' :: (ds.val ++ [ascii '.', c])
  | counted ds c _ => ascii '%' :: (ds.val ++ [ascii '.', ascii '*', c])

/-- How many arguments the item reads. -/
def count : FormatItem → Nat
  | byte _ _ | point _ _ _ => 0
  | conversion _ c _ => convArgs c
  | counted _ c _ => if c = ascii 's' then 2 else 0

def text (args : Nat → VaArg) (n : Nat) : FormatItem → List U8
  | byte c _ => [c]
  | conversion ds c _ => convText c ds.width (args n)
  | point _ _ _ => []
  | counted _ c _ =>
    if c = ascii 's' then (List.range (args n).int.toNat).map (args (n + 1)).string.chars else []

end FormatItem

def FormatEnd.bytes : FormatEnd → List U8
  | complete => []
  | percent ds => ascii '%' :: ds.val
  | point ds => ascii '%' :: (ds.val ++ [ascii '.'])
  | star ds => ascii '%' :: (ds.val ++ [ascii '.', ascii '*'])

def itemsBytes (items : List FormatItem) : List U8 := items.flatMap FormatItem.bytes

/-- How many arguments the items read. -/
def itemsCount (items : List FormatItem) : Nat := (items.map FormatItem.count).sum

/-- What the items put, with the arguments from the `n`-th on. -/
def itemsText (args : Nat → VaArg) : Nat → List FormatItem → List U8
  | _, [] => []
  | n, item :: items => item.text args n ++ itemsText args (n + item.count) items

/-- The format ends within a precision. -/
def CutPrecision (format : List U8) : Prop :=
  ∃ items ds, format = itemsBytes items ++ (FormatEnd.point ds).bytes ∨
    format = itemsBytes items ++ (FormatEnd.star ds).bytes

/-- No byte behind the terminator is read. -/
def StaysInside (out : Bool) (args : Nat → VaArg) (format : CString) : Prop :=
  (print out args (format.bytes ++ [0])).isSome

section
variable {out : Bool} {args : Nat → VaArg} {c : U8} {s : PrintState} {rest : List U8} {n : Nat}

theorem itemsText_append (args : Nat → VaArg) (n : Nat) (xs ys : List FormatItem) :
    itemsText args n (xs ++ ys) = itemsText args n xs ++ itemsText args (n + itemsCount xs) ys := by
  induction xs generalizing n with
  | nil => rfl
  | cons x xs ih =>
    have hcount : itemsCount (x :: xs) = x.count + itemsCount xs := List.sum_cons
    rw [List.cons_append, itemsText, itemsText, ih, hcount, List.append_assoc, Nat.add_assoc]

/-! ## One item -/

theorem readWidth_digits (width : U16) {ds : List U8} (hds : ∀ d ∈ ds, IsDigit d) (hc : ¬ IsDigit c) :
    readWidth width (ds ++ c :: rest) =
      some (ds.foldl (fun width d => width * 10 + (d - ascii '0').setWidth 16) width, c :: rest) := by
  induction ds generalizing width with
  | nil => exact if_neg hc
  | cons d ds ih =>
    have hd : ascii '0' ≤ d ∧ d ≤ ascii '9' := hds d List.mem_cons_self
    rw [List.cons_append, readWidth, if_pos hd, ih _ fun x hx => hds x (List.mem_cons_of_mem d hx), List.foldl_cons]

theorem skipZeros_readWidth (ds : Digits) (hc : ¬ IsDigit c) :
    (skipZeros (ds.val ++ c :: rest)).bind (readWidth 0) = some (ds.width, c :: rest) := by
  obtain ⟨ds, hds⟩ := ds
  unfold Digits.width
  dsimp only
  induction ds with
  | nil =>
    have hzero : ¬ c = ascii '0' := by
      rintro rfl
      exact hc (by decide)
    rw [List.nil_append, skipZeros, if_neg hzero]
    exact readWidth_digits 0 (fun d hd => absurd hd List.not_mem_nil) hc
  | cons d ds ih =>
    rw [List.cons_append, skipZeros]
    split
    · rename_i hzero
      rw [ih fun x hx => hds x (List.mem_cons_of_mem d hx), List.foldl_cons, hzero]
      rfl
    · exact readWidth_digits 0 hds hc

theorem printConversion_digits (ds : Digits) (hc : ¬ IsDigit c) :
    printConversion out args (ds.val ++ c :: rest) s =
      if c = ascii '.' then
        (printPrecision out args rest s).map fun p => (some p.1, p.2)
      else if c = 0 then some (none, s)
      else some (some rest, printSwitch out args c ds.width s) := by
  obtain ⟨format, hskip, hread⟩ := Option.bind_eq_some_iff.mp (skipZeros_readWidth ds hc)
  unfold printConversion
  rw [hskip, Option.bind_eq_bind, Option.bind_some, hread, Option.bind_eq_bind, Option.bind_some]
  dsimp only
  split
  · cases printPrecision out args rest s <;> rfl
  · split <;> rfl

theorem printLoop_some {format : List U8} {t : PrintState} (n : Nat)
    (h : printConversion out args format s = some (some rest, t)) :
    printLoop out args (n + 1) (ascii '%' :: format) s = printLoop out args n rest t := by
  have hne : ¬ ascii '%' = 0 := by decide
  rw [printLoop, if_neg hne, if_pos rfl, h]

theorem printLoop_goto_end {format : List U8} {t : PrintState} (n : Nat)
    (h : printConversion out args format s = some (none, t)) :
    printLoop out args (n + 1) (ascii '%' :: format) s = some t := by
  have hne : ¬ ascii '%' = 0 := by decide
  rw [printLoop, if_neg hne, if_pos rfl, h]

theorem printConversion_point (ds : Digits) (rest : List U8) (s : PrintState) :
    printConversion out args (ds.val ++ ascii '.' :: rest) s =
      (printPrecision out args rest s).map fun p => (some p.1, p.2) := by
  have hc : ¬ IsDigit (ascii '.') := by decide
  rw [printConversion_digits ds hc, if_pos rfl]

theorem skip_zero (s : PrintState) : s.skip 0 = s := rfl

theorem printLoop_item (n : Nat) (item : FormatItem) (rest : List U8) (s : PrintState) :
    printLoop out args (n + 1) (item.bytes ++ rest) s =
      printLoop out args n rest ((s.skip item.count).emit (item.text args s.next)) := by
  cases item with
  | byte c h =>
    show printLoop out args (n + 1) (c :: rest) s = _
    rw [printLoop, if_neg h.1, if_neg h.2, (emits_putc out c).put]
    rfl
  | conversion ds c h =>
    apply printLoop_some
    rw [List.append_eq, List.append_assoc, List.singleton_append, printConversion_digits ds h.2.2, if_neg h.2.1, if_neg h.1,
      printSwitch_eq]
    rfl
  | point ds c h =>
    apply printLoop_some
    rw [List.append_eq, List.append_assoc]
    refine (printConversion_point ds (c :: rest) s).trans ?_
    show (if c = ascii '*' then _ else some (rest, s)).map _ = some (some rest, (s.skip 0).emit [])
    rw [if_neg h.2, skip_zero, emit_nil]
    rfl
  | counted ds c h =>
    apply printLoop_some
    rw [List.append_eq, List.append_assoc]
    refine (printConversion_point ds (ascii '*' :: c :: rest) s).trans ?_
    unfold printPrecision FormatItem.count FormatItem.text
    dsimp only
    rw [if_pos rfl]
    split
    · rw [countedLoop_eq, List.range_eq_range']
      rfl
    · rw [skip_zero, emit_nil]
      rfl

theorem printLoop_items (n : Nat) (items : List FormatItem) (rest : List U8) (s : PrintState) :
    printLoop out args (items.length + n) (itemsBytes items ++ rest) s =
      printLoop out args n rest ((s.skip (itemsCount items)).emit (itemsText args s.next items)) := by
  induction items generalizing s with
  | nil =>
    show printLoop out args (0 + n) rest s = printLoop out args n rest ((s.skip 0).emit [])
    rw [Nat.zero_add, skip_zero, emit_nil]
  | cons item items ih =>
    have hbytes : itemsBytes (item :: items) ++ rest = item.bytes ++ (itemsBytes items ++ rest) := by
      unfold itemsBytes
      rw [List.flatMap_cons, List.append_assoc]
    have hcount : itemsCount (item :: items) = item.count + itemsCount items := List.sum_cons
    rw [hbytes, List.length_cons, Nat.add_right_comm, printLoop_item, ih, itemsText, hcount, ← emit_emit]
    congr 1
    unfold PrintState.skip PrintState.emit
    simp only [Nat.add_assoc]

/-! ## The end of a format -/

theorem exists_digits (format : List U8) :
    ∃ (ds : Digits) (rest : List U8), format = ds.val ++ rest ∧ ∀ c ∈ rest.head?, ¬ IsDigit c := by
  induction format with
  | nil => exact ⟨⟨[], fun d hd => absurd hd List.not_mem_nil⟩, [], rfl, fun c hc => nomatch hc⟩
  | cons c format ih =>
    by_cases hc : IsDigit c
    · obtain ⟨⟨ds, hds⟩, rest, hformat, hrest⟩ := ih
      refine ⟨⟨c :: ds, fun d hd => ?_⟩, rest, by rw [hformat]; rfl, hrest⟩
      rcases List.mem_cons.mp hd with rfl | hd
      · exact hc
      · exact hds d hd
    · refine ⟨⟨[], fun d hd => absurd hd List.not_mem_nil⟩, c :: format, rfl, fun x hx => ?_⟩
      rwa [← Option.some.inj hx]

theorem exists_item (format : List U8) (h : (0 : U8) ∉ format) :
    (∃ e, format = FormatEnd.bytes e) ∨ ∃ item rest, format = FormatItem.bytes item ++ rest := by
  cases format with
  | nil => exact Or.inl ⟨.complete, rfl⟩
  | cons c format =>
    obtain ⟨hc, hformat⟩ : c ≠ 0 ∧ (0 : U8) ∉ format := by
      rw [List.mem_cons, not_or] at h
      exact ⟨Ne.symm h.1, h.2⟩
    by_cases hpercent : c = ascii '%'
    · obtain ⟨ds, rest, rfl, hhead⟩ := exists_digits format
      subst hpercent
      have hrest : (0 : U8) ∉ rest := fun hm => hformat (List.mem_append_right _ hm)
      cases rest with
      | nil => exact Or.inl ⟨.percent ds, by rw [List.append_nil]; rfl⟩
      | cons x rest =>
        rw [List.mem_cons, not_or] at hrest
        by_cases hpoint : x = ascii '.'
        · subst hpoint
          cases rest with
          | nil => exact Or.inl ⟨.point ds, rfl⟩
          | cons y rest =>
            rw [List.mem_cons, not_or] at hrest
            by_cases hstar : y = ascii '*'
            · subst hstar
              cases rest with
              | nil => exact Or.inl ⟨.star ds, rfl⟩
              | cons z rest =>
                rw [List.mem_cons, not_or] at hrest
                exact Or.inr ⟨.counted ds z (Ne.symm hrest.2.2.1), rest, by simp [FormatItem.bytes]⟩
            · exact Or.inr ⟨.point ds y ⟨Ne.symm hrest.2.1, hstar⟩, rest, by simp [FormatItem.bytes]⟩
        · exact Or.inr ⟨.conversion ds x ⟨Ne.symm hrest.1, hpoint, hhead x rfl⟩, rest, by simp [FormatItem.bytes]⟩
    · exact Or.inr ⟨.byte c ⟨hc, hpercent⟩, format, rfl⟩

theorem FormatItem.length_bytes_pos (item : FormatItem) : 0 < item.bytes.length := by
  cases item <;> exact Nat.succ_pos _

theorem exists_items (format : List U8) (h : (0 : U8) ∉ format) :
    ∃ items e, format = itemsBytes items ++ FormatEnd.bytes e := by
  induction hlen : format.length using Nat.strong_induction_on generalizing format with
  | h n ih =>
    rcases exists_item format h with ⟨e, he⟩ | ⟨item, rest, hformat⟩
    · exact ⟨[], e, he⟩
    · have hlt : rest.length < n := by
        rw [← hlen, hformat, List.length_append]
        have := item.length_bytes_pos
        omega
      obtain ⟨items, e, he⟩ := ih _ hlt rest (fun hm => h (by rw [hformat]; exact List.mem_append_right _ hm)) rfl
      refine ⟨item :: items, e, ?_⟩
      unfold itemsBytes
      rw [hformat, he, List.flatMap_cons, List.append_assoc]
      rfl

theorem length_le_itemsBytes (items : List FormatItem) : items.length ≤ (itemsBytes items).length := by
  induction items with
  | nil => exact Nat.le_refl 0
  | cons item items ih =>
    unfold itemsBytes
    rw [List.flatMap_cons, List.length_append, List.length_cons]
    have hpos := item.length_bytes_pos
    unfold itemsBytes at ih
    omega

theorem print_items (out : Bool) (args : Nat → VaArg) (items : List FormatItem) (rest : List U8) :
    ∃ n, rest.length ≤ n ∧ print out args (itemsBytes items ++ rest) =
      (printLoop out args n rest ⟨BitVec.ofNat 16 (itemsText args 0 items).length, itemsText args 0 items,
        itemsCount items⟩).map fun s => s.put (putc out 0) := by
  have hle := length_le_itemsBytes items
  refine ⟨(itemsBytes items).length - items.length + rest.length, Nat.le_add_left _ _, ?_⟩
  have hrounds : (itemsBytes items ++ rest).length =
      items.length + ((itemsBytes items).length - items.length + rest.length) := by
    rw [List.length_append]
    omega
  unfold print
  rw [hrounds, printLoop_items]
  unfold PrintState.skip PrintState.emit
  dsimp only
  rw [zero_add, zero_add, List.nil_append]

theorem printLoop_complete {e : FormatEnd} (he : e = .complete ∨ ∃ ds, e = .percent ds) (hn : 0 < n) (s : PrintState)
    (rest : List U8) : printLoop out args n (e.bytes ++ 0 :: rest) s = some s := by
  obtain ⟨n, rfl⟩ := Nat.exists_eq_succ_of_ne_zero (Nat.ne_of_gt hn)
  rcases he with rfl | ⟨ds, rfl⟩
  · rfl
  · have hzero : ¬ IsDigit 0 := by decide
    refine printLoop_goto_end n ?_
    rw [List.append_eq, printConversion_digits ds hzero]
    rfl

/-- `print` puts the texts of the items and a NUL, and returns how many bytes these are. -/
theorem print_complete (out : Bool) (args : Nat → VaArg) (items : List FormatItem) {e : FormatEnd}
    (he : e = .complete ∨ ∃ ds, e = .percent ds) (rest : List U8) :
    print out args (itemsBytes items ++ (e.bytes ++ 0 :: rest)) =
      some ⟨BitVec.ofNat 16 ((itemsText args 0 items).length + 1), itemsText args 0 items ++ [0],
        itemsCount items⟩ := by
  obtain ⟨n, hn, hprint⟩ := print_items out args items (e.bytes ++ 0 :: rest)
  have hpos : 0 < n := by
    rw [List.length_append, List.length_cons] at hn
    omega
  rw [hprint, printLoop_complete he hpos, Option.map_some, (emits_putc out 0).put, BitVec.ofNat_add]
  rfl

/-- Where a conversion stands among other items, its text stands among theirs. -/
theorem print_conversion (out : Bool) (args : Nat → VaArg) (before after : List FormatItem) (ds : Digits) (c : U8)
    (h : c ≠ 0 ∧ c ≠ ascii '.' ∧ ¬ IsDigit c) :
    ∃ s, print out args (itemsBytes (before ++ .conversion ds c h :: after) ++ [0]) = some s ∧
      s.bytes = itemsText args 0 before ++ convText c ds.width (args (itemsCount before)) ++
        itemsText args (itemsCount before + convArgs c) after ++ [0] := by
  refine ⟨_, print_complete out args _ (e := .complete) (Or.inl rfl) [], ?_⟩
  dsimp only
  rw [itemsText_append, itemsText, Nat.zero_add, ← List.append_assoc]
  rfl

/-- Within a precision the terminator is taken for the byte after `.` or `*`, and the next byte is read. -/
theorem printLoop_cut {e : FormatEnd} {ds : Digits} (he : e = .point ds ∨ e = .star ds) (s : PrintState) :
    printLoop out args n (e.bytes ++ [0]) s = none := by
  cases n with
  | zero => rcases he with rfl | rfl <;> rfl
  | succ n =>
    have hread : ∃ format, e.bytes ++ [0] = ascii '%' :: format ∧
        printConversion out args format s = some (some [], s) := by
      rcases he with rfl | rfl
      · exact ⟨ds.val ++ [ascii '.', 0], by simp [FormatEnd.bytes], printConversion_point ds [0] s⟩
      · exact ⟨ds.val ++ [ascii '.', ascii '*', 0], by simp [FormatEnd.bytes],
          printConversion_point ds [ascii '*', 0] s⟩
    obtain ⟨format, hformat, hread⟩ := hread
    rw [hformat, printLoop_some n hread]
    cases n <;> rfl

theorem CString.zero_not_mem (format : CString) : (0 : U8) ∉ format.bytes := by
  unfold CString.bytes
  intro hm
  obtain ⟨k, hk, he⟩ := List.mem_map.mp hm
  exact format.before k (List.mem_range.mp hk) he

theorem exists_items_of_not_cut (format : CString) (h : ¬ CutPrecision format.bytes) :
    ∃ items e, format.bytes = itemsBytes items ++ FormatEnd.bytes e ∧ (e = .complete ∨ ∃ ds, e = .percent ds) := by
  obtain ⟨items, e, hformat⟩ := exists_items format.bytes format.zero_not_mem
  refine ⟨items, e, hformat, ?_⟩
  cases e with
  | complete => exact Or.inl rfl
  | percent ds => exact Or.inr ⟨ds, rfl⟩
  | point ds => exact absurd ⟨items, ds, Or.inl hformat⟩ h
  | star ds => exact absurd ⟨items, ds, Or.inr hformat⟩ h

/-- `print` stays inside the format if and only if it does not end within a precision. -/
theorem staysInside_iff (out : Bool) (args : Nat → VaArg) (format : CString) :
    StaysInside out args format ↔ ¬ CutPrecision format.bytes := by
  unfold StaysInside
  constructor
  · rintro hsome ⟨items, ds, hcut⟩
    have hend : ∃ e, (e = FormatEnd.point ds ∨ e = FormatEnd.star ds) ∧ format.bytes = itemsBytes items ++ e.bytes := by
      rcases hcut with h | h
      · exact ⟨_, Or.inl rfl, h⟩
      · exact ⟨_, Or.inr rfl, h⟩
    obtain ⟨e, he, hformat⟩ := hend
    obtain ⟨n, -, hprint⟩ := print_items out args items (e.bytes ++ [0])
    rw [hformat, List.append_assoc, hprint, printLoop_cut he] at hsome
    exact absurd hsome Bool.false_ne_true
  · intro hcut
    obtain ⟨items, e, hformat, he⟩ := exists_items_of_not_cut format hcut
    rw [hformat, List.append_assoc, print_complete out args items he []]
    rfl

end

def percentPoint : CString where
  chars k := if k = 0 then ascii '%' else if k = 1 then ascii '.' else 0
  strlen := 2
  ends := rfl
  before := by decide

def noArgs : Nat → VaArg := fun _ => ⟨0, 0, ⟨fun _ => 0, 0, rfl, by decide⟩⟩

/-- After `%.` the terminator is passed. -/
theorem staysInside_fails : ¬ ∀ (out : Bool) (args : Nat → VaArg) (format : CString), StaysInside out args format := by
  intro h
  have hnone : print false noArgs (percentPoint.bytes ++ [0]) = none := by decide +kernel
  have hsome := h false noArgs percentPoint
  unfold StaysInside at hsome
  rw [hnone] at hsome
  exact absurd hsome Bool.false_ne_true

end Unet4Cooja
