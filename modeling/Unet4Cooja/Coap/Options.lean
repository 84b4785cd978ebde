import Unet4Cooja.Lib.Memory
import Unet4Cooja.Lib.Positional
import Unet4Cooja.Packet

/-!
# CoAP options (`er-coap.c`)

Pointers to `unsigned int` also reach into `option_length` and `length`, so deltas and lengths have 16 bits.

* `coapSetOptionHeader`, `readOptionHeader` : the header of an option as the serializer writes it and as
  the loop of the parser reads it (`readOptionHeader_of_holds`);
* `coapSerializeIntOption`, `coapParseIntOption` : integers, as few bytes as possible
  (`intBytes_digits`, `parseInt_intBytes`, `intBytes_shortest`);
* `Block.value`, `Block.parse` : the value of Block1 and Block2 (`Block.parse_value`).
-/

namespace Unet4Cooja.Coap
open Lib

abbrev Mem := Nat → U8

/-! ## Headers -/

def coapOptionNibble (value : U16) : U8 :=
  if value < 13 then lo value else if value ≤ 0xFF + 13 then 13 else 14

/-- What the loop of `coap_set_option_header` writes for `*x`. -/
def optionExtension (x : U16) : List U8 :=
  if 268 < x then [hi (x - 269), lo (x - 269)] else if 12 < x then [lo (x - 13)] else []

def coapSetOptionHeader (delta length : U16) : List U8 :=
  (coapOptionNibble delta <<< 4 ||| coapOptionNibble length) ::
    (optionExtension delta ++ optionExtension length)

/-- What the loop of `coap_parse_message` makes of `*x`, with `current_option` after it. -/
def readExtension (m : Mem) (x : U16) (current : Nat) : U16 × Nat :=
  if x = 13 then (x + (m current).setWidth 16, current + 1)
  else if x = 14 then
    (x + (255 : U16) + ((m current).setWidth 16 <<< 8) + (m (current + 1)).setWidth 16, current + 2)
  else (x, current)

/-- `option_delta`, `option_length` and `current_option` after the header of an option. -/
def readOptionHeader (m : Mem) (current : Nat) : U16 × U16 × Nat :=
  let delta := readExtension m ((m current >>> 4).setWidth 16) (current + 1)
  let length := readExtension m ((m current &&& 0x0F).setWidth 16) delta.2
  (delta.1, length.1, length.2)

section
variable {m : Mem} {i : Nat} {x delta length : U16}

theorem coapOptionNibble_lt (x : U16) : coapOptionNibble x < 15 := by
  unfold coapOptionNibble lo
  split
  · bv_omega
  · split <;> decide

theorem nibbles_toNat {a b : U8} (ha : a < 16) (hb : b < 16) :
    (a <<< 4 ||| b).toNat = 16 * a.toNat + b.toNat := by
  have ha' : a.toNat < 16 := ha
  have hb' : b.toNat < 2 ^ 4 := hb
  rw [BitVec.toNat_or, BitVec.toNat_shiftLeft, Nat.shiftLeft_eq, Nat.mod_eq_of_lt (by omega),
    ← Nat.shiftLeft_eq, ← Nat.shiftLeft_add_eq_or_of_lt hb', Nat.shiftLeft_eq]
  omega

theorem high_nibble {a b : U8} (ha : a < 16) (hb : b < 16) : (a <<< 4 ||| b) >>> 4 = a := by
  apply BitVec.eq_of_toNat_eq
  have hb' : b.toNat < 16 := hb
  rw [BitVec.toNat_ushiftRight, nibbles_toNat ha hb, Nat.shiftRight_eq_div_pow]
  omega

theorem low_nibble {a b : U8} (ha : a < 16) (hb : b < 16) : (a <<< 4 ||| b) &&& 0x0F = b := by
  apply BitVec.eq_of_toNat_eq
  have hb' : b.toNat < 16 := hb
  rw [BitVec.toNat_and, nibbles_toNat ha hb]
  show (16 * a.toNat + b.toNat) &&& (2 ^ 4 - 1) = b.toNat
  rw [Nat.and_two_pow_sub_one_eq_mod]
  omega

theorem readExtension_of_holds (h : Holds m i (optionExtension x)) :
    readExtension m ((coapOptionNibble x).setWidth 16) i = (x, i + (optionExtension x).length) := by
  unfold coapOptionNibble
  by_cases hsmall : x < 13
  · have hlong : ¬ 268 < x := by bv_omega
    have hmiddle : ¬ 12 < x := by bv_omega
    rw [if_pos hsmall]
    unfold optionExtension readExtension lo
    rw [if_neg hlong, if_neg hmiddle, if_neg (by bv_omega), if_neg (by bv_omega)]
    refine Prod.ext ?_ rfl
    show (x.setWidth 8).setWidth 16 = x
    bv_omega
  · rw [if_neg hsmall]
    by_cases hbyte : x ≤ 0xFF + 13
    · have hlong : ¬ 268 < x := by bv_omega
      have hmiddle : 12 < x := by bv_omega
      rw [if_pos hbyte]
      unfold optionExtension at h ⊢
      rw [if_neg hlong, if_pos hmiddle] at h ⊢
      have hread : m i = lo (x - 13) := (holds_cons.mp h).1
      unfold readExtension
      rw [if_pos (by decide), hread]
      refine Prod.ext ?_ rfl
      show (13 : U8).setWidth 16 + (lo (x - 13)).setWidth 16 = x
      unfold lo
      bv_omega
    · have hlong : 268 < x := by bv_omega
      rw [if_neg hbyte]
      unfold optionExtension at h ⊢
      rw [if_pos hlong] at h ⊢
      obtain ⟨hhigh, hrest⟩ := holds_cons.mp h
      have hlow : m (i + 1) = lo (x - 269) := (holds_cons.mp hrest).1
      unfold readExtension
      rw [if_neg (by decide), if_pos (by decide), hhigh, hlow]
      refine Prod.ext ?_ rfl
      have hvalue : ((hi (x - 269)).setWidth 16 <<< 8) + (lo (x - 269)).setWidth 16 = x - 269 :=
        bytesToShort_hi_lo (x - 269)
      show (14 : U8).setWidth 16 + (255 : U16) + ((hi (x - 269)).setWidth 16 <<< 8) +
        (lo (x - 269)).setWidth 16 = x
      rw [BitVec.add_assoc, hvalue, BitVec.add_comm]
      exact BitVec.sub_add_cancel x 269

theorem readOptionHeader_of_holds (h : Holds m i (coapSetOptionHeader delta length)) :
    readOptionHeader m i = (delta, length, i + (coapSetOptionHeader delta length).length) := by
  obtain ⟨hbyte, hrest⟩ := holds_cons.mp h
  obtain ⟨hdelta, hlength⟩ := holds_append.mp hrest
  have hd : coapOptionNibble delta < 16 := by have := coapOptionNibble_lt delta; bv_omega
  have hl : coapOptionNibble length < 16 := by have := coapOptionNibble_lt length; bv_omega
  unfold readOptionHeader
  simp only [hbyte, high_nibble hd hl, low_nibble hd hl, readExtension_of_holds hdelta,
    readExtension_of_holds hlength]
  refine Prod.ext rfl (Prod.ext rfl ?_)
  simp only [coapSetOptionHeader, List.length_cons, List.length_append]
  omega

theorem marker_iff : ∀ b : U8, b &&& 0xF0 = 0xF0 ↔ b >>> 4 = 15 := by decide

theorem header_not_marker (h : Holds m i (coapSetOptionHeader delta length)) : m i &&& 0xF0 ≠ 0xF0 := by
  have hbyte : m i = coapOptionNibble delta <<< 4 ||| coapOptionNibble length := (holds_cons.mp h).1
  have hd := coapOptionNibble_lt delta
  have hl := coapOptionNibble_lt length
  rw [ne_eq, marker_iff, hbyte, high_nibble (by bv_omega) (by bv_omega)]
  bv_omega

end

/-! ## Integers -/

/-- The bytes that `coap_serialize_int_option` writes after the header. -/
def intBytes (value : U32) : List U8 :=
  (if 0xFF000000 &&& value ≠ 0 then [(value >>> 24).setWidth 8] else []) ++
  (if 0xFFFF0000 &&& value ≠ 0 then [(value >>> 16).setWidth 8] else []) ++
  (if 0xFFFFFF00 &&& value ≠ 0 then [(value >>> 8).setWidth 8] else []) ++
  (if 0xFFFFFFFF &&& value ≠ 0 then [value.setWidth 8] else [])

def intLength (value : U32) : U16 :=
  (if 0xFF000000 &&& value ≠ 0 then 1 else 0) + (if 0xFFFF0000 &&& value ≠ 0 then 1 else 0) +
  (if 0xFFFFFF00 &&& value ≠ 0 then 1 else 0) + (if 0xFFFFFFFF &&& value ≠ 0 then 1 else 0)

def coapSerializeIntOption (number current : U16) (value : U32) : List U8 :=
  coapSetOptionHeader (number - current) (intLength value) ++ intBytes value

/-- The loop of `coap_parse_int_option` on the bytes it reads. -/
def parseInt (bytes : List U8) : U32 := bytes.foldl (fun var b => (var <<< 8) ||| b.setWidth 32) 0

def coapParseIntOption (m : Mem) (bytes : Nat) (length : U16) : U32 :=
  parseInt (slice m bytes length.toNat)

section
variable {value : U32} {bytes : List U8}

theorem mask_ne_zero_iff (k : Nat) (value : U32) :
    (BitVec.allOnes 32 <<< k) &&& value ≠ 0 ↔ 2 ^ k ≤ value.toNat := by
  rw [not_iff_comm, Nat.not_le]
  constructor
  · intro h
    apply BitVec.eq_of_getLsbD_eq
    intro i hi
    by_cases hk : i < k
    · simp [hk]
    · have hbit : value.getLsbD i = false :=
        Nat.testBit_lt_two_pow (Nat.lt_of_lt_of_le h (Nat.pow_le_pow_right (by decide) (by omega)))
      simp [hbit]
  · intro h
    apply Nat.lt_pow_two_of_testBit
    intro i hi
    by_cases h32 : i < 32
    · have hbit := congrArg (fun x => x.getLsbD i) h
      simp only [BitVec.getLsbD_and, BitVec.getLsbD_shiftLeft, BitVec.getLsbD_allOnes] at hbit
      have hone : i - k < 32 := by omega
      show value.getLsbD i = false
      simpa [h32, Nat.not_lt.mpr hi, hone] using hbit
    · exact Nat.testBit_lt_two_pow
        (Nat.lt_of_lt_of_le value.isLt (Nat.pow_le_pow_right (by decide) (by omega)))

theorem intBytes_digits (h : value ≠ 0) : (intBytes value).map BitVec.toNat = numeral 256 value.toNat := by
  have h3 : (0xFF000000 : U32) &&& value ≠ 0 ↔ 2 ^ 24 ≤ value.toNat := mask_ne_zero_iff 24 value
  have h2 : (0xFFFF0000 : U32) &&& value ≠ 0 ↔ 2 ^ 16 ≤ value.toNat := mask_ne_zero_iff 16 value
  have h1 : (0xFFFFFF00 : U32) &&& value ≠ 0 ↔ 2 ^ 8 ≤ value.toNat := mask_ne_zero_iff 8 value
  have h0 : (0xFFFFFFFF : U32) &&& value ≠ 0 ↔ 2 ^ 0 ≤ value.toNat := mask_ne_zero_iff 0 value
  have hlt := value.isLt
  have hpos : 2 ^ 0 ≤ value.toNat := by bv_omega
  unfold intBytes
  simp only [h3, h2, h1, h0]
  by_cases b3 : 2 ^ 24 ≤ value.toNat
  · rw [← lastDigits_eq_numeral (b := 256) (k := 3) (by decide) b3 hlt, if_pos b3, if_pos (by omega), if_pos (by omega),
      if_pos hpos]
    simp [lastDigits, Nat.shiftRight_eq_div_pow]
  · rw [if_neg b3]
    by_cases b2 : 2 ^ 16 ≤ value.toNat
    · rw [← lastDigits_eq_numeral (b := 256) (k := 2) (by decide) b2 (by omega), if_pos b2, if_pos (by omega), if_pos hpos]
      simp [lastDigits, Nat.shiftRight_eq_div_pow]
    · rw [if_neg b2]
      by_cases b1 : 2 ^ 8 ≤ value.toNat
      · rw [← lastDigits_eq_numeral (b := 256) (k := 1) (by decide) b1 (by omega), if_pos b1, if_pos hpos]
        simp [lastDigits, Nat.shiftRight_eq_div_pow]
      · rw [← lastDigits_eq_numeral (b := 256) (k := 0) (by decide) hpos (by omega), if_neg b1, if_pos hpos]
        simp [lastDigits]

theorem intBytes_zero : intBytes 0 = [] := rfl

theorem intLength_toNat (value : U32) : (intLength value).toNat = (intBytes value).length := by
  unfold intLength intBytes
  split <;> split <;> split <;> split <;> rfl

theorem length_intBytes_le (value : U32) : (intBytes value).length ≤ 4 := by
  unfold intBytes
  split <;> split <;> split <;> split <;> simp

theorem parseInt_append (bytes : List U8) (b : U8) :
    parseInt (bytes ++ [b]) = (parseInt bytes <<< 8) ||| b.setWidth 32 := List.foldl_concat ..

theorem parseInt_toNat (bytes : List U8) :
    (parseInt bytes).toNat = Nat.ofDigits 256 (bytes.map BitVec.toNat).reverse % 2 ^ 32 := by
  induction bytes using List.reverseRecOn with
  | nil => rfl
  | append_singleton bytes b ih =>
    have hdisjoint : (parseInt bytes <<< 8) &&& b.setWidth 32 = 0 := by
      apply BitVec.eq_of_getLsbD_eq
      intro i hi
      by_cases h8 : i < 8
      · simp [h8]
      · simp [BitVec.getLsbD_of_ge b i (by omega)]
    rw [parseInt_append, ← BitVec.add_eq_or_of_and_eq_zero _ _ hdisjoint, BitVec.toNat_add,
      BitVec.toNat_shiftLeft, ih, List.map_append, List.reverse_append]
    simp only [List.map_cons, List.map_nil, List.reverse_cons, List.reverse_nil, List.nil_append,
      List.cons_append, Nat.ofDigits_cons, Nat.shiftLeft_eq, BitVec.toNat_setWidth]
    omega

theorem parseInt_intBytes (value : U32) : parseInt (intBytes value) = value := by
  by_cases h : value = 0
  · rw [h]
    rfl
  · apply BitVec.eq_of_toNat_eq
    rw [parseInt_toNat, intBytes_digits h, ofDigits_numeral]
    exact Nat.mod_eq_of_lt value.isLt

theorem intBytes_shortest (h : parseInt bytes = value) : (intBytes value).length ≤ bytes.length := by
  by_cases hvalue : value = 0
  · rw [hvalue, intBytes_zero]
    exact Nat.zero_le _
  · have hlt : Nat.ofDigits 256 (bytes.map BitVec.toNat).reverse < 256 ^ bytes.length := by
      have hdigits : ∀ d ∈ (bytes.map BitVec.toNat).reverse, d < 256 := by
        intro d hd
        obtain ⟨b, _, rfl⟩ := List.mem_map.mp (List.mem_reverse.mp hd)
        exact b.isLt
      simpa using Nat.ofDigits_lt_base_pow_length (by decide) hdigits
    have hle : value.toNat ≤ Nat.ofDigits 256 (bytes.map BitVec.toNat).reverse := by
      rw [← h, parseInt_toNat]
      exact Nat.mod_le _ _
    have hpos : 0 < bytes.length := by
      rw [List.length_pos_iff]
      rintro rfl
      exact hvalue h.symm
    rw [← List.length_map BitVec.toNat, intBytes_digits hvalue]
    exact (length_numeral_le_iff (by decide) hpos).mpr (Nat.lt_of_le_of_lt hle hlt)

end

/-! ## Blocks -/

/-- The rounds of the loop of `coap_log_2`. -/
def halvings : Nat → U16 → U16
  | 0, _ => 0
  | fuel + 1, value => if value >>> 1 = 0 then 1 else halvings fuel (value >>> 1) + 1

def coapLog2 (value : U16) : U16 :=
  let result := halvings 16 value
  if result ≠ 0 then result - 1 else result

structure Block where
  num : U32
  more : U8
  size : U16
  offset : U32
deriving DecidableEq

/-- `block` in `COAP_SERIALIZE_BLOCK_OPTION`. -/
def Block.value (b : Block) : U32 :=
  (b.num <<< 4 ||| if b.more ≠ 0 then 0x8 else 0) ||| (0xF &&& (coapLog2 (b.size / 16)).setWidth 32)

/-- The cases of Block1 and Block2 in `coap_parse_message`. -/
def Block.parse (value : U32) : Block where
  num := value >>> 4
  more := ((value &&& 0x08) >>> 3).setWidth 8
  size := (16 : U16) <<< (value &&& 0x07).toNat
  offset := (value &&& 0xFFFFFFF0) <<< (value &&& 0x07)

section
variable {b : Block}

theorem halvings_toNat {fuel : Nat} {value : U16} (hf : fuel ≤ 16) (h : value.toNat < 2 ^ fuel)
    (hpos : 0 < fuel) : (halvings fuel value).toNat = Nat.log2 value.toNat + 1 := by
  induction fuel generalizing value with
  | zero => omega
  | succ fuel ih =>
    have hhalf : (value >>> 1).toNat = value.toNat / 2 := by
      rw [BitVec.toNat_ushiftRight, Nat.shiftRight_eq_div_pow]
    unfold halvings
    split
    · rename_i hzero
      have hsmall : value.toNat / 2 = 0 := by rw [← hhalf, hzero]; rfl
      rw [Nat.log2_def, if_neg (by omega)]
      rfl
    · rename_i hzero
      have hbig : value.toNat / 2 ≠ 0 := by
        rw [← hhalf]
        exact fun h => hzero (BitVec.eq_of_toNat_eq h)
      have hlt : value.toNat / 2 < 2 ^ fuel := by omega
      have hfuel : 0 < fuel := by
        by_contra hf0
        rw [Nat.eq_zero_of_not_pos hf0] at hlt
        omega
      have hlog : Nat.log2 (value.toNat / 2) < fuel := (Nat.log2_lt hbig).mpr hlt
      have hround : (halvings fuel (value >>> 1)).toNat = Nat.log2 (value.toNat / 2) + 1 := by
        rw [ih (by omega) (by rw [hhalf]; exact hlt) hfuel, hhalf]
      rw [Nat.log2_def value.toNat, if_pos (by omega), BitVec.toNat_add, hround]
      exact Nat.mod_eq_of_lt (by have : (1 : U16).toNat = 1 := rfl; omega)

theorem coapLog2_toNat (value : U16) : (coapLog2 value).toNat = Nat.log2 value.toNat := by
  have hrounds : (halvings 16 value).toNat = Nat.log2 value.toNat + 1 :=
    halvings_toNat (Nat.le_refl 16) value.isLt (by decide)
  unfold coapLog2
  dsimp only
  rw [if_pos (by bv_omega)]
  bv_omega

/-- `size / 16` as a power of two. -/
def Block.exponent (b : Block) : Nat := Nat.log2 (b.size.toNat / 16)

def Block.received (b : Block) : Block where
  num := b.num
  more := if b.more ≠ 0 then 1 else 0
  size := (16 : U16) <<< b.exponent
  offset := b.num <<< 4 <<< b.exponent

theorem Block.exponent_lt (h : b.size.toNat < 4096) : b.exponent < 8 := by
  unfold Block.exponent
  by_cases hzero : b.size.toNat / 16 = 0
  · rw [hzero]
    decide
  · exact (Nat.log2_lt hzero).mpr (by omega)

theorem Block.value_toNat (hnum : b.num.toNat < 2 ^ 28) (hsize : b.size.toNat < 4096) :
    b.value.toNat = 16 * b.num.toNat + 8 * (if b.more ≠ 0 then 1 else 0) + b.exponent := by
  have hexp := b.exponent_lt hsize
  have hlog : (0xF &&& (coapLog2 (b.size / 16)).setWidth 32 : U32).toNat = b.exponent := by
    rw [BitVec.toNat_and, BitVec.toNat_setWidth, coapLog2_toNat, BitVec.toNat_udiv]
    show (2 ^ 4 - 1) &&& (b.exponent % 2 ^ 32) = b.exponent
    rw [Nat.and_comm, Nat.and_two_pow_sub_one_eq_mod, Nat.mod_eq_of_lt (by omega), Nat.mod_eq_of_lt (by omega)]
  have hmore : (if b.more ≠ 0 then 0x8 else 0 : U32).toNat = 8 * (if b.more ≠ 0 then 1 else 0) := by
    split <;> rfl
  have hnum' : (b.num <<< 4 : U32).toNat = b.num.toNat <<< 4 := by
    rw [BitVec.toNat_shiftLeft, Nat.shiftLeft_eq, Nat.mod_eq_of_lt (by omega)]
  unfold Block.value
  rw [BitVec.toNat_or, BitVec.toNat_or, hlog, hmore, hnum']
  generalize hbit : (if b.more ≠ 0 then 1 else 0 : Nat) = bit
  have hbit' : bit ≤ 1 := by rw [← hbit]; split <;> decide
  have hhigh : b.num.toNat <<< 4 ||| 8 * bit = (2 * b.num.toNat + bit) <<< 3 := by
    rw [← Nat.shiftLeft_add_eq_or_of_lt (by omega), Nat.shiftLeft_eq, Nat.shiftLeft_eq]
    omega
  rw [hhigh, ← Nat.shiftLeft_add_eq_or_of_lt (by omega : b.exponent < 2 ^ 3), Nat.shiftLeft_eq]
  omega

theorem mask_eq_shifts (value : U32) : value &&& (0xFFFFFFF0 : U32) = value >>> 4 <<< 4 := by
  have hmask : (0xFFFFFFF0 : U32) = BitVec.allOnes 32 <<< 4 := by decide
  rw [hmask]
  apply BitVec.eq_of_getLsbD_eq
  intro i hi
  simp only [BitVec.getLsbD_and, BitVec.getLsbD_shiftLeft, BitVec.getLsbD_allOnes, BitVec.getLsbD_ushiftRight]
  by_cases h4 : i < 4
  · simp [h4]
  · simp [h4, hi, show i - 4 < 32 by omega, show 4 + (i - 4) = i by omega]

/-- The number survives up to 28 bits, the size as the power of two it is rounded down to. -/
theorem Block.parse_value (hnum : b.num.toNat < 2 ^ 28) (hsize : b.size.toNat < 4096) :
    Block.parse b.value = b.received := by
  have hexp := b.exponent_lt hsize
  have hvalue := value_toNat hnum hsize
  generalize hbit : (if b.more ≠ 0 then 1 else 0 : Nat) = bit at hvalue
  have hbit' : bit ≤ 1 := by rw [← hbit]; split <;> decide
  have hexponent : (b.value &&& 0x07).toNat = b.exponent := by
    rw [BitVec.toNat_and, hvalue]
    show (16 * b.num.toNat + 8 * bit + b.exponent) &&& (2 ^ 3 - 1) = b.exponent
    rw [Nat.and_two_pow_sub_one_eq_mod]
    omega
  have hmore : ((b.value &&& 0x08) >>> 3).toNat = bit := by
    rw [BitVec.ushiftRight_and_distrib, BitVec.toNat_and, BitVec.toNat_ushiftRight, hvalue,
      Nat.shiftRight_eq_div_pow]
    show ((16 * b.num.toNat + 8 * bit + b.exponent) / 2 ^ 3) &&& (2 ^ 1 - 1) = bit
    rw [Nat.and_two_pow_sub_one_eq_mod]
    omega
  have hnumber : b.value >>> 4 = b.num := by
    apply BitVec.eq_of_toNat_eq
    rw [BitVec.toNat_ushiftRight, hvalue, Nat.shiftRight_eq_div_pow]
    omega
  have hoffset : b.value &&& (0xFFFFFFF0 : U32) = b.num <<< 4 := by rw [mask_eq_shifts, hnumber]
  have hmore8 : ((b.value &&& 0x08) >>> 3).setWidth 8 = if b.more ≠ 0 then 1 else 0 := by
    apply BitVec.eq_of_toNat_eq
    rw [BitVec.toNat_setWidth, hmore, ← hbit]
    split <;> rfl
  unfold parse received
  rw [hnumber, hmore8, hoffset, BitVec.shiftLeft_eq', hexponent]

end

end Unet4Cooja.Coap
