import Unet4Cooja.Coap.ParseRead

/-!
# Serializing (`coap_serialize_message`)

* `coapSerializeArrayOption`, `serializeOption`, `coapSerializeMessage` : the serializer, which writes into the
  memory that it reads strings from;
* `splitText` : the parts of a path or a query;
* `Message.encode` : the bytes of a message;
* `serializeOptions_eq`, `serialize_eq` : the serializer writes them, if it does not overwrite what it reads.
-/

namespace Unet4Cooja.Coap
open Lib

/-! ## The serializer -/

/-- The loop of `coap_serialize_array_option`; `fuel` bounds the number of rounds. -/
def splitParts (number : U16) (array length : Nat) (splitChar : U8) :
    Nat → Nat → Nat → U16 → Out U8 → Out U8
  | 0, _, _, _, o => o
  | fuel + 1, j, start, current, o =>
    if length + 1 < j then o
    else if o.mem (array + j) = splitChar ∨ j = length then
      let o := o.put (coapSetOptionHeader (number - current) (BitVec.ofNat 16 (j - start)))
      -- the byte after the splitter is not looked at
      splitParts number array length splitChar fuel (j + 2) (j + 1) number (o.copy (array + start) (j - start))
    else splitParts number array length splitChar fuel (j + 1) start current o

def coapSerializeArrayOption (number current : U16) (array length : Nat) (splitChar : U8) (o : Out U8) : Out U8 :=
  if splitChar ≠ 0 then splitParts number array length splitChar (length + 2) 0 0 current o
  else (o.put (coapSetOptionHeader (number - current) (BitVec.ofNat 16 length))).copy array length

/-- `option` and `current_number`. -/
structure SerializeState where
  out : Out U8
  current : U16

section
variable (p : CoapPacket) (k : CoapOption)

/-- `COAP_SERIALIZE_INT_OPTION`. -/
def serializeIntOption (value : U32) (s : SerializeState) : SerializeState :=
  if p.isOption k then ⟨s.out.put (coapSerializeIntOption k.number s.current value), k.number⟩ else s

/-- `COAP_SERIALIZE_BYTE_OPTION`; the array is a field of the packet. -/
def serializeByteOption (field : Tag) (s : SerializeState) : SerializeState :=
  if p.isOption k then
    ⟨s.out.put (coapSetOptionHeader (k.number - s.current) (field.len.setWidth 16) ++ field.value), k.number⟩
  else s

/-- `COAP_SERIALIZE_STRING_OPTION`. -/
def serializeStringOption (field : Text) (splitter : U8) (s : SerializeState) : SerializeState :=
  if p.isOption k then
    ⟨coapSerializeArrayOption k.number s.current field.ptr field.len splitter s.out, k.number⟩
  else s

/-- `COAP_SERIALIZE_BLOCK_OPTION`. -/
def serializeBlockOption (field : Block) (s : SerializeState) : SerializeState :=
  serializeIntOption p k field.value s

/-- The macro for an option; that for If-None-Match has a difference that is zero. -/
def serializeOption (s : SerializeState) : SerializeState :=
  match k with
  | .ifMatch => serializeByteOption p .ifMatch p.ifMatch s
  | .uriHost => serializeStringOption p .uriHost p.uriHost 0 s
  | .etag => serializeByteOption p .etag p.etag s
  | .ifNoneMatch => serializeIntOption p .ifNoneMatch ((p.contentFormat - p.contentFormat).setWidth 32) s
  | .observe => serializeIntOption p .observe p.observe s
  | .uriPort => serializeIntOption p .uriPort (p.uriPort.setWidth 32) s
  | .locationPath => serializeStringOption p .locationPath p.locationPath 0x2F s
  | .uriPath => serializeStringOption p .uriPath p.uriPath 0x2F s
  | .contentFormat => serializeIntOption p .contentFormat (p.contentFormat.setWidth 32) s
  | .maxAge => serializeIntOption p .maxAge p.maxAge s
  | .uriQuery => serializeStringOption p .uriQuery p.uriQuery 0x26 s
  | .accept => serializeIntOption p .accept (p.accept.setWidth 32) s
  | .locationQuery => serializeStringOption p .locationQuery p.locationQuery 0x26 s
  | .block2 => serializeBlockOption p .block2 p.block2 s
  | .block1 => serializeBlockOption p .block1 p.block1 s
  | .size2 => serializeIntOption p .size2 p.size2 s
  | .proxyUri => serializeStringOption p .proxyUri p.proxyUri 0 s
  | .proxyScheme => serializeStringOption p .proxyScheme p.proxyScheme 0 s
  | .size1 => serializeIntOption p .size1 p.size1 s

end

/-- The first four bytes; the version is 1. -/
def headerBytes (type tokenLen code : U8) (mid : U16) : List U8 :=
  [(0xC0 &&& (1 : U8) <<< 6) ||| (0x30 &&& type <<< 4) ||| (0x0F &&& tokenLen), code, hi mid, lo mid]

/-- The options, in the order of the macros, which is that of the numbers. -/
def serializeOptions (p : CoapPacket) (s : SerializeState) : SerializeState :=
  CoapOption.all.foldl (fun s k => serializeOption p k s) s

/-- What `coap_serialize_message` returns, with what it leaves in the packet, in the memory and in
`coap_error_message`. -/
structure Serialized where
  size : Nat
  packet : CoapPacket
  mem : Mem
  errorMessage : Option String

/-- The header, the token and the options. -/
def serializeHeader (p : CoapPacket) (m : Mem) (buffer : Nat) : Out U8 :=
  let o := Out.put ⟨m, buffer⟩ (headerBytes p.type p.tokenLen p.code p.mid)
  let o := o.put (slice p.token 0 p.tokenLen.toNat)
  (serializeOptions p ⟨o, 0⟩).out

def coapSerializeMessage (p : CoapPacket) (m : Mem) (buffer : Nat) : Serialized :=
  let packet := { p with buffer := some buffer, version := 1 }
  if p.code = 0 then ⟨4, packet, (Out.put ⟨m, buffer⟩ (headerBytes p.type p.tokenLen p.code p.mid)).mem, none⟩
  else
    let o := serializeHeader p m buffer
    if BitVec.ofNat 16 (o.pos - buffer) ≤ BitVec.ofNat 16 coapMaxHeaderSize then
      let o := if p.payloadLen ≠ 0 then o.put [0xFF] else o
      ⟨o.pos - buffer + p.payloadLen.toNat, packet, (o.copy (p.payload.getD 0) p.payloadLen.toNat).mem, none⟩
    else
      ⟨0, { packet with buffer := none }, o.mem, some "Serialized header exceeds COAP_MAX_HEADER_SIZE"⟩

/-! ## The bytes of a message -/

/-- The parts of a path or a query, of which `part` has been read. The byte after a splitter is not looked at,
and nothing is written after a splitter at the end. -/
def splitFrom (splitter : U8) (part : List U8) : List U8 → List (List U8)
  | [] => [part]
  | [x] => if x = splitter then [part] else [part ++ [x]]
  | x :: y :: ys =>
    if x = splitter then part :: splitFrom splitter [y] ys else splitFrom splitter (part ++ [x]) (y :: ys)

def splitText (splitter : U8) (text : List U8) : List (List U8) := splitFrom splitter [] text

/-- The values of the occurrences that say `value`. -/
def CoapOption.parts (k : CoapOption) : OptionValue → List (List U8)
  | .int value => [intBytes value]
  | .block block => [intBytes block.value]
  | .bytes text => k.separator.elim [text] fun c => splitText c text
  | .flag => [[]]

/-- Options after the number `current`. -/
def encodeOptions : U16 → List (U16 × List U8) → List U8
  | _, [] => []
  | current, (number, value) :: os =>
    coapSetOptionHeader (number - current) (BitVec.ofNat 16 value.length) ++ value ++ encodeOptions number os

def lastNumber : U16 → List (U16 × List U8) → U16
  | current, [] => current
  | _, (number, _) :: os => lastNumber number os

namespace Message
variable (msg : Message)

def optionsOf (k : CoapOption) : List (U16 × List U8) :=
  (msg.options k).elim [] fun value => (k.parts value).map fun part => (k.number, part)

def optionList : List (U16 × List U8) := CoapOption.all.flatMap msg.optionsOf

def header : List U8 :=
  headerBytes msg.type (BitVec.ofNat 8 msg.token.length) msg.code msg.mid ++ msg.token ++
    encodeOptions 0 msg.optionList

def encode : List U8 := msg.header ++ if msg.payload = [] then [] else 0xFF :: msg.payload

end Message

/-! ## Parts -/

section
variable {splitter : U8} {part text acc : List U8}

theorem joinText_append (acc part xs : List U8) :
    joinText splitter acc (part ++ xs) = joinText splitter acc part ++ xs := by
  unfold joinText
  split <;> simp

theorem joinText_of_ne_nil (hacc : acc ≠ []) (part : List U8) :
    joinText splitter acc part = acc ++ splitter :: part := if_neg hacc

theorem joinText_ne_nil (hpart : part ≠ []) : joinText splitter acc part ≠ [] := by
  unfold joinText
  split
  · exact hpart
  · simp

theorem foldl_joinText_splitFrom (hpart : part ≠ []) (hlast : text.getLast? ≠ some splitter) :
    (splitFrom splitter part text).foldl (joinText splitter) acc = joinText splitter acc (part ++ text) := by
  fun_induction splitFrom splitter part text generalizing acc with
  | case1 part => rw [List.append_nil]; rfl
  | case2 part => exact absurd rfl hlast
  | case3 part x hx => rfl
  | case4 part y ys ih =>
    have hys : ys.getLast? ≠ some splitter := by
      cases ys with
      | nil => exact nofun
      | cons z zs => exact hlast
    calc (part :: splitFrom splitter [y] ys).foldl (joinText splitter) acc
        = joinText splitter (joinText splitter acc part) ([y] ++ ys) := ih (List.cons_ne_nil y []) hys
      _ = joinText splitter acc part ++ splitter :: y :: ys := joinText_of_ne_nil (joinText_ne_nil hpart) _
      _ = joinText splitter acc (part ++ splitter :: y :: ys) := (joinText_append acc part _).symm
  | case5 part x y ys hx ih =>
    rw [ih (by simp) hlast, List.append_assoc]
    rfl

theorem splitFrom_ne_nil (splitter : U8) (part text : List U8) : splitFrom splitter part text ≠ [] := by
  fun_induction splitFrom splitter part text <;> simp_all

theorem foldl_joinText_splitText (hfirst : text.head? ≠ some splitter) (hlast : text.getLast? ≠ some splitter) :
    (splitText splitter text).foldl (joinText splitter) [] = text := by
  unfold splitText
  cases text with
  | nil => rfl
  | cons x xs =>
    have hx : x ≠ splitter := fun e => hfirst (congrArg some e)
    cases xs with
    | nil =>
      rw [splitFrom, if_neg hx]
      rfl
    | cons y ys =>
      have hrest : (y :: ys).getLast? ≠ some splitter := hlast
      rw [splitFrom, if_neg hx, List.nil_append, foldl_joinText_splitFrom (List.cons_ne_nil x []) hrest]
      rfl

/-! ## The loop over a string -/

theorem encodeOptions_append (current : U16) (os os' : List (U16 × List U8)) :
    encodeOptions current (os ++ os') = encodeOptions current os ++ encodeOptions (lastNumber current os) os' := by
  induction os generalizing current with
  | nil => rfl
  | cons o os ih =>
    rw [List.cons_append, encodeOptions, encodeOptions, ih, lastNumber]
    simp only [List.append_assoc]

theorem encodeOptions_cons (current number : U16) (value : List U8) (os : List (U16 × List U8)) :
    encodeOptions current ((number, value) :: os) =
      encodeOptions current [(number, value)] ++ encodeOptions number os :=
  encodeOptions_append current [(number, value)] os

variable {number current : U16} {array length start j fuel n : Nat} {o : Out U8}

theorem splitParts_done (h : length + 1 < j) (fuel : Nat) :
    splitParts number array length splitter fuel j start current o = o := by
  cases fuel with
  | zero => rfl
  | succ fuel => exact if_pos h

theorem splitParts_skip (h : j < length) (hx : o.mem (array + j) ≠ splitter) (fuel : Nat) :
    splitParts number array length splitter (fuel + 1) j start current o =
      splitParts number array length splitter fuel (j + 1) start current o := by
  rw [splitParts, if_neg (by omega), if_neg (by rintro (e | e); exacts [hx e, by omega])]

theorem splitParts_part (h : j ≤ length) (hx : o.mem (array + j) = splitter ∨ j = length) (fuel : Nat)
    (hj : start ≤ j) (hpart : slice o.mem (array + start) (j - start) = part)
    (hap : o.Apart array length (encodeOptions current [(number, part)]).length) :
    splitParts number array length splitter (fuel + 1) j start current o =
      splitParts number array length splitter fuel (j + 2) (j + 1) number
        (o.put (encodeOptions current [(number, part)])) := by
  have hlen : part.length = j - start := by rw [← hpart, length_slice]
  have hheader : (coapSetOptionHeader (number - current) (BitVec.ofNat 16 (j - start))).length ≤
      (encodeOptions current [(number, part)]).length := by
    rw [encodeOptions, encodeOptions, ← hlen]
    simp only [List.length_append]
    omega
  have hcopy := (hap.sub (Nat.le_add_right array start) (by omega : array + start + (j - start) ≤ array + length)).copy_put
    hheader
  rw [splitParts, if_neg (by omega), if_pos hx]
  dsimp only
  rw [hcopy, hpart, ← hlen, encodeOptions, encodeOptions, List.append_nil]

theorem slice_snoc_of {m : Mem} {x : U8} (hpart : slice m (array + start) (j - start) = part) (hj : start ≤ j)
    (hx : m (array + j) = x) : slice m (array + start) (j + 1 - start) = part ++ [x] := by
  rw [show j + 1 - start = j - start + 1 by omega, slice_add, hpart,
    show array + start + (j - start) = array + j by omega, slice, slice, hx]

theorem splitParts_eq (hfuel : length + 2 ≤ j + fuel) (hj : start ≤ j) (hlen : j ≤ length)
    (hpart : slice o.mem (array + start) (j - start) = part) (htext : slice o.mem (array + j) (length - j) = text)
    (hlast : text.getLast? ≠ some splitter)
    (hap : o.Apart array length (encodeOptions current ((splitFrom splitter part text).map (number, ·))).length) :
    splitParts number array length splitter fuel j start current o =
      o.put (encodeOptions current ((splitFrom splitter part text).map (number, ·))) := by
  fun_induction splitFrom splitter part text generalizing fuel j start current o with
  | case1 part =>
    have hend : j = length := by
      have := slice_eq_nil.mp htext
      omega
    obtain ⟨fuel, rfl⟩ : ∃ f, fuel = f + 1 := ⟨fuel - 1, by omega⟩
    rw [splitParts_part hlen (Or.inr hend) fuel hj hpart hap, splitParts_done (by omega)]
    rfl
  | case2 part => exact absurd rfl hlast
  | case3 part x hx =>
    obtain ⟨k, hk, hbyte, hrest⟩ := slice_eq_cons.mp htext
    have hend : k = 0 := slice_eq_nil.mp hrest
    obtain ⟨fuel, rfl⟩ : ∃ f, fuel = f + 2 := ⟨fuel - 2, by omega⟩
    rw [splitParts_skip (by omega) (by rwa [hbyte]), splitParts_part (by omega) (Or.inr (by omega)) fuel
      (by omega) (slice_snoc_of hpart hj hbyte) hap, splitParts_done (by omega)]
    rfl
  | case4 part y ys ih =>
    obtain ⟨k, hk, hbyte, hrest⟩ := slice_eq_cons.mp htext
    obtain ⟨k', rfl, hnext, hrest'⟩ := slice_eq_cons.mp hrest
    obtain ⟨fuel, rfl⟩ : ∃ f, fuel = f + 1 := ⟨fuel - 1, by omega⟩
    have hys : ys.getLast? ≠ some splitter := by
      cases ys with
      | nil => exact nofun
      | cons z zs => exact hlast
    rw [List.map_cons, encodeOptions_cons, List.length_append] at hap
    have hapPart := hap.mono (Nat.le_refl _) (Nat.le_add_right _ _)
    have hnext' : slice (o.put (encodeOptions current [(number, part)])).mem (array + (j + 1)) (j + 2 - (j + 1)) =
        [y] := by
      rw [(hapPart.sub (Nat.le_add_right _ _) (by omega)).slice_put (Nat.le_refl _),
        show j + 2 - (j + 1) = 1 by omega, slice, slice, ← hnext, Nat.add_assoc]
    have hys' : slice (o.put (encodeOptions current [(number, part)])).mem (array + (j + 2)) (length - (j + 2)) =
        ys := by
      rw [(hapPart.sub (Nat.le_add_right _ _) (by omega)).slice_put (Nat.le_refl _), ← hrest']
      congr 1
      omega
    have hapRest := hap.put (Nat.le_add_right (encodeOptions current [(number, part)]).length _)
    rw [Nat.add_sub_cancel_left] at hapRest
    rw [splitParts_part (by omega) (Or.inl hbyte) fuel hj hpart hapPart,
      ih (by omega) (by omega) (by omega) hnext' hys' hys hapRest, Out.put_put, List.map_cons]
    exact congrArg o.put (encodeOptions_cons ..).symm
  | case5 part x y ys hx ih =>
    obtain ⟨k, hk, hbyte, hrest⟩ := slice_eq_cons.mp htext
    obtain ⟨fuel, rfl⟩ : ∃ f, fuel = f + 1 := ⟨fuel - 1, by omega⟩
    rw [splitParts_skip (by omega) (by rwa [hbyte])]
    apply ih (by omega) (by omega) (by omega) (slice_snoc_of hpart hj hbyte) _ hlast hap
    rw [← hrest]
    congr 1
    omega

end

/-! ## The options of a packet -/

section
variable {p : CoapPacket} {k : CoapOption} {m : Mem} {s : SerializeState}

theorem optionsOf_unset (h : ¬ p.isOption k) : (p.message m).optionsOf k = [] := by
  show (if p.isOption k then some (p.value m k) else none).elim [] _ = []
  rw [if_neg h]
  rfl

theorem optionsOf_set (h : p.isOption k) :
    (p.message m).optionsOf k = (k.parts (p.value m k)).map (k.number, ·) := by
  show (if p.isOption k then some (p.value m k) else none).elim [] _ = _
  rw [if_pos h]
  rfl

theorem serializeOption_unset (h : ¬ p.isOption k) : serializeOption p k s = s := by
  cases k <;> exact if_neg h

def SerializeState.write (s : SerializeState) (os : List (U16 × List U8)) : SerializeState :=
  ⟨s.out.put (encodeOptions s.current os), lastNumber s.current os⟩

theorem SerializeState.write_mk (o : Out U8) (current : U16) (os : List (U16 × List U8)) :
    SerializeState.write ⟨o, current⟩ os = ⟨o.put (encodeOptions current os), lastNumber current os⟩ := rfl

theorem serializeInt_eq (number current : U16) (value : U32) :
    coapSerializeIntOption number current value = encodeOptions current [(number, intBytes value)] := by
  have hlen : intLength value = BitVec.ofNat 16 (intBytes value).length := by
    apply BitVec.eq_of_toNat_eq
    rw [intLength_toNat, BitVec.toNat_ofNat]
    exact (Nat.mod_eq_of_lt (Nat.lt_of_le_of_lt (length_intBytes_le value) (by decide))).symm
  unfold coapSerializeIntOption
  rw [hlen, encodeOptions, encodeOptions, List.append_nil]

theorem serializeIntOption_set (h : p.isOption k) (value : U32) :
    serializeIntOption p k value s = s.write [(k.number, intBytes value)] := by
  unfold serializeIntOption
  rw [if_pos h, serializeInt_eq]
  rfl

theorem serializeByteOption_set (h : p.isOption k) (field : Tag) :
    serializeByteOption p k field s = s.write [(k.number, field.value)] := by
  have hlen : field.len.setWidth 16 = BitVec.ofNat 16 field.value.length := by
    apply BitVec.eq_of_toNat_eq
    rw [Tag.value, length_slice, BitVec.toNat_setWidth, BitVec.toNat_ofNat]
  unfold serializeByteOption
  rw [if_pos h, hlen]
  unfold SerializeState.write
  rw [encodeOptions, encodeOptions, List.append_nil]
  rfl

theorem lastNumber_map {number current : U16} {values : List (List U8)} (h : values ≠ []) :
    lastNumber current (values.map (number, ·)) = number := by
  induction values generalizing current with
  | nil => exact absurd rfl h
  | cons v vs ih =>
    cases vs with
    | nil => rfl
    | cons v' vs => exact @ih number (List.cons_ne_nil v' vs)

theorem serializeStringOption_set (h : p.isOption k) {field : Text} {splitter : Option U8}
    (hzero : splitter ≠ some 0) (hlast : ∀ c, splitter = some c → (field.value s.out.mem).getLast? ≠ some c)
    (hap : s.out.Apart field.ptr field.len (encodeOptions s.current
      ((splitter.elim [field.value s.out.mem] fun c => splitText c (field.value s.out.mem)).map
        (k.number, ·))).length) :
    serializeStringOption p k field (splitter.getD 0) s =
      s.write ((splitter.elim [field.value s.out.mem] fun c => splitText c (field.value s.out.mem)).map
        (k.number, ·)) := by
  unfold serializeStringOption coapSerializeArrayOption
  rw [if_pos h]
  cases splitter with
  | none =>
    have hlen : (field.value s.out.mem).length = field.len := length_slice ..
    have hbytes : encodeOptions s.current [(k.number, field.value s.out.mem)] =
        coapSetOptionHeader (k.number - s.current) (BitVec.ofNat 16 field.len) ++ field.value s.out.mem := by
      rw [encodeOptions, encodeOptions, List.append_nil, hlen]
    show SerializeState.mk (if (0 : U8) ≠ 0 then _ else _) _ = s.write [(k.number, field.value s.out.mem)]
    have hap' : s.out.Apart field.ptr field.len
        (encodeOptions s.current [(k.number, field.value s.out.mem)]).length := hap
    rw [if_neg (by decide), hap'.copy_put (by rw [hbytes, List.length_append]; exact Nat.le_add_right _ _)]
    unfold SerializeState.write
    rw [hbytes]
    rfl
  | some c =>
    have hc : c ≠ 0 := fun e => hzero (congrArg some e)
    have hrun : splitParts k.number field.ptr field.len c (field.len + 2) 0 0 s.current s.out =
        s.out.put (encodeOptions s.current ((splitText c (field.value s.out.mem)).map (k.number, ·))) :=
      splitParts_eq (Nat.le_add_left _ 0) (Nat.le_refl 0) (Nat.zero_le _) rfl rfl (hlast c rfl) hap
    have hnumber : lastNumber s.current ((splitText c (field.value s.out.mem)).map (k.number, ·)) = k.number :=
      lastNumber_map (splitFrom_ne_nil c [] _)
    show SerializeState.mk (if c ≠ 0 then _ else _) _ = s.write _
    rw [if_pos hc]
    show SerializeState.mk (splitParts k.number field.ptr field.len c _ 0 0 s.current s.out) _ = _
    rw [hrun]
    show _ = s.write ((splitText c (field.value s.out.mem)).map (k.number, ·))
    unfold SerializeState.write
    rw [hnumber]

/-- Where the strings of a packet must not be, and what they must not end with. -/
structure Readable (p : CoapPacket) (m : Mem) (buffer n : Nat) : Prop where
  apart : ∀ k, p.isOption k → (Out.mk m buffer).Apart (p.text k).ptr (p.text k).len n
  last : ∀ k c, p.isOption k → k.separator = some c → ((p.text k).value m).getLast? ≠ some c

theorem serializeOption_set (h : p.isOption k) {μ : Mem} (hsame : (p.text k).value s.out.mem = (p.text k).value μ)
    (hlast : ∀ c, k.separator = some c → ((p.text k).value μ).getLast? ≠ some c)
    (hap : s.out.Apart (p.text k).ptr (p.text k).len (encodeOptions s.current ((p.message μ).optionsOf k)).length) :
    serializeOption p k s = s.write ((p.message μ).optionsOf k) := by
  rw [optionsOf_set h] at hap ⊢
  have hzero : k.separator ≠ some 0 := by cases k <;> decide
  have hstring := serializeStringOption_set (s := s) h hzero (hsame ▸ hlast)
  rw [hsame] at hstring
  cases k
  case uriHost | proxyUri | proxyScheme | uriPath | uriQuery | locationPath | locationQuery => exact hstring hap
  case ifMatch | etag => exact serializeByteOption_set h _
  case ifNoneMatch =>
    show serializeIntOption p .ifNoneMatch ((p.contentFormat - p.contentFormat).setWidth 32) s = _
    rw [serializeIntOption_set h, BitVec.sub_self]
    rfl
  all_goals exact serializeIntOption_set h _

theorem lastNumber_append (current : U16) (os os' : List (U16 × List U8)) :
    lastNumber current (os ++ os') = lastNumber (lastNumber current os) os' := by
  induction os generalizing current with
  | nil => rfl
  | cons o os ih => exact ih o.1

theorem SerializeState.write_append (s : SerializeState) (os os' : List (U16 × List U8)) :
    s.write (os ++ os') = (s.write os).write os' := by
  unfold SerializeState.write
  rw [encodeOptions_append, lastNumber_append, Out.put_put]

theorem foldl_serializeOption {buffer n : Nat} (hr : Readable p m buffer n) (ks : List CoapOption) (xs : List U8)
    (current : U16)
    (hn : xs.length + (encodeOptions current (ks.flatMap (p.message m).optionsOf)).length ≤ n) :
    ks.foldl (fun s k => serializeOption p k s) ⟨(Out.mk m buffer).put xs, current⟩ =
      SerializeState.write ⟨(Out.mk m buffer).put xs, current⟩ (ks.flatMap (p.message m).optionsOf) := by
  induction ks generalizing xs current with
  | nil => rfl
  | cons k ks ih =>
    rw [List.flatMap_cons] at hn ⊢
    rw [encodeOptions_append, List.length_append] at hn
    have hone : serializeOption p k ⟨(Out.mk m buffer).put xs, current⟩ =
        SerializeState.write ⟨(Out.mk m buffer).put xs, current⟩ ((p.message m).optionsOf k) := by
      by_cases h : p.isOption k
      · have hap := hr.apart k h
        have hput := (hap.put (by omega : xs.length ≤ n)).mono (Nat.le_refl _)
          (by omega : (encodeOptions current ((p.message m).optionsOf k)).length ≤ n - xs.length)
        exact serializeOption_set h (hap.slice_put (by omega)) (fun c hc => hr.last k c h hc) hput
      · rw [serializeOption_unset h, optionsOf_unset h]
        rfl
    rw [List.foldl_cons, hone, SerializeState.write_append, SerializeState.write_mk, Out.put_put]
    exact ih _ _ (by rw [List.length_append]; omega)

/-! ## The message -/

variable {buffer : Nat}

theorem serializeHeader_eq (hr : Readable p m buffer (p.message m).header.length) :
    serializeHeader p m buffer = (Out.mk m buffer).put (p.message m).header := by
  have hlen : BitVec.ofNat 8 (slice p.token 0 p.tokenLen.toNat).length = p.tokenLen := by
    rw [length_slice, BitVec.ofNat_toNat, BitVec.setWidth_eq]
  have hheader : (p.message m).header = headerBytes p.type p.tokenLen p.code p.mid ++
      slice p.token 0 p.tokenLen.toNat ++ encodeOptions 0 (p.message m).optionList := by
    show headerBytes p.type (BitVec.ofNat 8 (slice p.token 0 p.tokenLen.toNat).length) p.code p.mid ++ _ ++ _ = _
    rw [hlen]
    rfl
  rw [hheader, List.length_append] at hr
  unfold serializeHeader serializeOptions
  dsimp only
  rw [Out.put_put, foldl_serializeOption hr CoapOption.all _ 0 (Nat.le_refl _), SerializeState.write_mk,
    Out.put_put, hheader]
  rfl

theorem header_le_iff (h : (p.message m).header.length < 2 ^ 16) :
    BitVec.ofNat 16 (((Out.mk m buffer).put (p.message m).header).pos - buffer) ≤
        BitVec.ofNat 16 coapMaxHeaderSize ↔ (p.message m).header.length ≤ coapMaxHeaderSize := by
  rw [Out.put_pos, Nat.add_sub_cancel_left, BitVec.le_def, BitVec.toNat_ofNat, Nat.mod_eq_of_lt h]
  rfl

theorem serialize_long (hcode : p.code ≠ 0) (hr : Readable p m buffer (p.message m).header.length)
    (hlong : coapMaxHeaderSize < (p.message m).header.length) (h16 : (p.message m).header.length < 2 ^ 16) :
    coapSerializeMessage p m buffer = ⟨0, { p with buffer := none, version := 1 }, store m buffer (p.message m).header,
      some "Serialized header exceeds COAP_MAX_HEADER_SIZE"⟩ := by
  unfold coapSerializeMessage
  dsimp only
  rw [if_neg hcode, serializeHeader_eq hr, if_neg ((header_le_iff h16).not.mpr (Nat.not_le.mpr hlong))]
  rfl

theorem payload_eq (hnull : p.payload = none → p.payloadLen = 0) :
    (p.message m).payload = slice m (p.payload.getD 0) p.payloadLen.toNat := by
  show p.payload.elim [] (fun payload => slice m payload p.payloadLen.toNat) = _
  cases hp : p.payload with
  | none =>
    rw [hnull hp]
    rfl
  | some payload => rfl

theorem serialize_short (hcode : p.code ≠ 0) (hr : Readable p m buffer (p.message m).header.length)
    (hshort : (p.message m).header.length ≤ coapMaxHeaderSize) :
    coapSerializeMessage p m buffer =
      let front := (p.message m).header ++ if p.payloadLen ≠ 0 then [0xFF] else []
      ⟨front.length + p.payloadLen.toNat, { p with buffer := some buffer, version := 1 },
        (((Out.mk m buffer).put front).copy (p.payload.getD 0) p.payloadLen.toNat).mem, none⟩ := by
  have h16 : (p.message m).header.length < 2 ^ 16 := Nat.lt_of_le_of_lt hshort (by decide)
  unfold coapSerializeMessage
  dsimp only
  rw [if_neg hcode, serializeHeader_eq hr, if_pos ((header_le_iff h16).mpr hshort)]
  by_cases hlen : p.payloadLen ≠ 0
  · rw [if_pos hlen, if_pos hlen, Out.put_put, Out.put_pos, Nat.add_sub_cancel_left]
  · rw [if_neg hlen, if_neg hlen, List.append_nil, Out.put_pos, Nat.add_sub_cancel_left]

/-- A message is written as its bytes, if the header is short enough and no byte is read after it has been
overwritten. -/
theorem serialize_eq (hcode : p.code ≠ 0) (hr : Readable p m buffer (p.message m).header.length)
    (hshort : (p.message m).header.length ≤ coapMaxHeaderSize) (hnull : p.payload = none → p.payloadLen = 0)
    (hpayload : (Out.mk m buffer).Apart (p.payload.getD 0) p.payloadLen.toNat
      ((p.message m).header.length + 1)) :
    coapSerializeMessage p m buffer =
      ⟨(p.message m).encode.length, { p with buffer := some buffer, version := 1 },
        store m buffer (p.message m).encode, none⟩ := by
  have hbytes := payload_eq (m := m) hnull
  have hmarker : (if p.payloadLen ≠ 0 then [0xFF] else [] : List U8).length ≤ 1 := by split <;> simp
  have hencode : (p.message m).encode = (p.message m).header ++ (if p.payloadLen ≠ 0 then [0xFF] else []) ++
      slice m (p.payload.getD 0) p.payloadLen.toNat := by
    unfold Message.encode
    rw [hbytes, List.append_assoc]
    congr 1
    by_cases hlen : p.payloadLen = 0
    · rw [hlen, if_neg (not_not.mpr rfl)]
      rfl
    · have hpos : p.payloadLen.toNat ≠ 0 := fun e => hlen (BitVec.eq_of_toNat_eq e)
      rw [if_neg (mt slice_eq_nil.mp hpos), if_pos hlen]
      rfl
  rw [serialize_short hcode hr hshort]
  dsimp only
  rw [hpayload.copy_put (by rw [List.length_append]; omega), hencode]
  simp only [List.length_append, length_slice]
  rfl

/-- A payload that a resource has written behind the space for the header, into the same buffer: the marker
behind a header of full size overwrites its first byte. -/
theorem serialize_in_place (hcode : p.code ≠ 0) (hr : Readable p m buffer (p.message m).header.length)
    (hshort : (p.message m).header.length ≤ coapMaxHeaderSize)
    (hpayload : p.payload = some (buffer + coapMaxHeaderSize)) (hlen : p.payloadLen ≠ 0) :
    Holds (coapSerializeMessage p m buffer).mem buffer (p.message m).encode ↔
      (p.message m).header.length ≠ coapMaxHeaderSize ∨ m (buffer + coapMaxHeaderSize) = 0xFF := by
  have hnull : p.payload = none → p.payloadLen = 0 := fun e => by
    rw [hpayload] at e
    cases e
  have hgetD : p.payload.getD 0 = buffer + coapMaxHeaderSize := by rw [hpayload]; rfl
  have hbytes := payload_eq (m := m) hnull
  obtain ⟨k, hk⟩ : ∃ k, p.payloadLen.toNat = k + 1 :=
    Nat.exists_eq_succ_of_ne_zero fun e => hlen (BitVec.eq_of_toNat_eq e)
  rw [hgetD] at hbytes
  by_cases hfull : (p.message m).header.length = coapMaxHeaderSize
  · have hfront : ((p.message m).header ++ [0xFF]).length = coapMaxHeaderSize + 1 := by
      rw [List.length_append, hfull]
      rfl
    have hencode : (p.message m).encode = (p.message m).header ++ [0xFF] ++
        m (buffer + coapMaxHeaderSize) :: slice m (buffer + coapMaxHeaderSize + 1) k := by
      unfold Message.encode
      rw [hbytes, hk, if_neg (mt slice_eq_nil.mp (Nat.succ_ne_zero k)), List.append_assoc]
      rfl
    have hmoved : slice ((Out.mk m buffer).put ((p.message m).header ++ [0xFF])).mem (buffer + coapMaxHeaderSize)
        (k + 1) = 0xFF :: slice m (buffer + coapMaxHeaderSize + 1) k := by
      have hmarker : store m buffer ((p.message m).header ++ [0xFF]) (buffer + coapMaxHeaderSize) = 0xFF := by
        rw [store_append, hfull]
        exact Function.update_self _ _ _
      rw [slice]
      congr 1
      exact slice_store_of_ge _ (by rw [hfront]; exact Nat.le_refl _)
    rw [serialize_short hcode hr hshort, if_pos hlen, hgetD, hk]
    dsimp only
    rw [Out.copy, hmoved, Out.put_put, hencode]
    show Holds (store m buffer _) buffer _ ↔ _
    rw [holds_store_iff m buffer (by simp only [List.length_append, List.length_cons]), List.append_cancel_left_eq,
      List.cons.injEq, eq_comm, or_iff_right (not_not.mpr hfull)]
    exact and_iff_left rfl
  · have hap : (Out.mk m buffer).Apart (p.payload.getD 0) p.payloadLen.toNat
        ((p.message m).header.length + 1) := by
      rw [hgetD]
      have hlt : (p.message m).header.length < coapMaxHeaderSize := Nat.lt_of_le_of_ne hshort hfull
      exact Or.inr (Nat.add_le_add_left hlt buffer)
    rw [serialize_eq hcode hr hshort hnull hap]
    exact iff_of_true (holds_store _ _ _) (Or.inl hfull)

end

/-- A response with a path of 56 bytes, so that its header has 62. -/
def fullHeader : CoapPacket :=
  CoapPacket.setOption { CoapPacket.zero with code := 69, uriPath := ⟨1000, 56⟩, payload := some 62, payloadLen := 3 } 11

theorem readable_of_path {p : CoapPacket} {m : Mem} {buffer n : Nat} (honly : ∀ k, p.isOption k → k = .uriPath)
    (hapart : (Out.mk m buffer).Apart p.uriPath.ptr p.uriPath.len n) (hlast : (p.uriPath.value m).getLast? ≠ some 0x2F) :
    Readable p m buffer n where
  apart := by
    intro k hk
    obtain rfl := honly k hk
    exact hapart
  last := by
    intro k c hk hc
    obtain rfl := honly k hk
    obtain rfl := Option.some.inj hc
    exact hlast

theorem serialize_in_place_full :
    ¬Holds (coapSerializeMessage fullHeader (fun _ => 0x61) 0).mem 0 (fullHeader.message fun _ => 0x61).encode := by
  have hlen : (fullHeader.message fun _ => 0x61).header.length = 62 := by decide +kernel
  have hreadable : Readable fullHeader (fun _ => 0x61) 0 (fullHeader.message fun _ => 0x61).header.length := by
    apply readable_of_path
    · intro k
      cases k <;> decide
    · rw [hlen]
      exact Or.inr (by decide)
    · decide
  rw [serialize_in_place (by decide) hreadable (Nat.le_of_eq hlen) rfl (by decide)]
  rintro (hshort | hmarker)
  · exact hshort hlen
  · exact absurd hmarker (by decide)

end Unet4Cooja.Coap
