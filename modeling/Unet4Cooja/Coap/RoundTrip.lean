import Unet4Cooja.Coap.Received
import Unet4Cooja.Coap.Serialize

/-!
# A message that is sent is received

* `located`, `scan_encode` : the parser finds the options that the serializer has written;
* `occurrences_located` : with their values;
* `CoapOption.Fits`, `Message.Fits` : values that a field of the receiver holds;
* `foldl_absorb_parts` : the parts of an option say what the option says;
* `parse_encode`, `round_trip` : the receiver reads what the sender means.
-/

namespace Unet4Cooja.Coap
open Lib

/-! ## The options of an encoded message -/

/-- Options that are written from `i` on, after the number `current`. -/
def located : Nat → U16 → List (U16 × List U8) → List OptionAt
  | _, _, [] => []
  | i, current, (number, value) :: os =>
    let start := i + (coapSetOptionHeader (number - current) (BitVec.ofNat 16 value.length)).length
    ⟨number, start, BitVec.ofNat 16 value.length⟩ :: located (start + value.length) number os

section
variable {m : Mem} {i stop fuel : Nat} {current : U16} {os : List (U16 × List U8)}

theorem length_encodeOptions (current : U16) (os : List (U16 × List U8)) :
    os.length ≤ (encodeOptions current os).length := by
  induction os generalizing current with
  | nil => exact Nat.zero_le _
  | cons o os ih =>
    rw [encodeOptions, List.length_append, List.length_append, List.length_cons, coapSetOptionHeader,
      List.length_cons]
    have := ih o.1
    omega

theorem scan_encode (h : Holds m i (encodeOptions current os)) (hlen : ∀ o ∈ os, o.2.length < 2 ^ 16)
    (hstop : i + (encodeOptions current os).length ≤ stop) :
    scan m stop (os.length + fuel) i current =
      (located i current os ++
          (scan m stop fuel (i + (encodeOptions current os).length) (lastNumber current os)).1,
        (scan m stop fuel (i + (encodeOptions current os).length) (lastNumber current os)).2) := by
  induction os generalizing i current with
  | nil => rw [List.length_nil, Nat.zero_add]; rfl
  | cons o os ih =>
    obtain ⟨number, value⟩ := o
    rw [encodeOptions] at h hstop ⊢
    obtain ⟨hoption, hrest⟩ := holds_append.mp h
    obtain ⟨hheader, hvalue⟩ := holds_append.mp hoption
    have hread := readOptionHeader_of_holds hheader
    have hvaluelen : (BitVec.ofNat 16 value.length).toNat = value.length := by
      rw [BitVec.toNat_ofNat, Nat.mod_eq_of_lt (hlen _ List.mem_cons_self)]
    have hoptionAt : optionAt m i current =
        ⟨number, i + (coapSetOptionHeader (number - current) (BitVec.ofNat 16 value.length)).length,
          BitVec.ofNat 16 value.length⟩ := by
      unfold optionAt
      rw [hread]
      dsimp only
      rw [BitVec.add_comm, BitVec.sub_add_cancel]
    have hbefore : i < stop := by
      rw [coapSetOptionHeader] at hstop
      simp only [List.length_append, List.length_cons] at hstop
      omega
    have hnext : (optionAt m i current).stop =
        i + (coapSetOptionHeader (number - current) (BitVec.ofNat 16 value.length) ++ value).length := by
      rw [hoptionAt, OptionAt.stop, hvaluelen, List.length_append]
      exact Nat.add_assoc _ _ _
    rw [List.length_append] at hstop
    rw [List.length_cons, Nat.add_right_comm, scan_succ hbefore (header_not_marker hheader), hnext,
      show (optionAt m i current).number = number by rw [hoptionAt],
      ih hrest (fun o ho => hlen o (List.mem_cons_of_mem _ ho)) (by omega), hoptionAt, located, lastNumber]
    simp only [List.length_append, ← Nat.add_assoc]
    rfl

theorem occurrences_located (h : Holds m i (encodeOptions current os)) (hlen : ∀ o ∈ os, o.2.length < 2 ^ 16)
    (k : CoapOption) :
    occurrences m (located i current os) k = (os.filter fun o => o.1 = k.number).map Prod.snd := by
  induction os generalizing i current with
  | nil => rfl
  | cons o os ih =>
    obtain ⟨number, value⟩ := o
    rw [encodeOptions] at h
    obtain ⟨hoption, hrest⟩ := holds_append.mp h
    have hvalue : slice m _ value.length = value := (holds_append.mp hoption).2
    have hvaluelen : (BitVec.ofNat 16 value.length).toNat = value.length := by
      rw [BitVec.toNat_ofNat, Nat.mod_eq_of_lt (hlen _ List.mem_cons_self)]
    rw [List.length_append, ← Nat.add_assoc] at hrest
    have hih := ih hrest fun o ho => hlen o (List.mem_cons_of_mem _ ho)
    unfold occurrences at hih ⊢
    rw [located]
    by_cases hk : number = k.number
    · rw [List.filter_cons_of_pos (by simpa using hk), List.filter_cons_of_pos (by simpa using hk), List.map_cons,
        List.map_cons, hih, hvaluelen, hvalue]
    · rw [List.filter_cons_of_neg (by simpa using hk), List.filter_cons_of_neg (by simpa using hk), hih]

theorem located_numbers (i : Nat) (current : U16) (os : List (U16 × List U8)) :
    (located i current os).map OptionAt.number = os.map Prod.fst := by
  induction os generalizing i current with
  | nil => rfl
  | cons o os ih => rw [located, List.map_cons, List.map_cons, ih]

theorem located_stop_le (hlen : ∀ o ∈ os, o.2.length < 2 ^ 16) {o : OptionAt} (ho : o ∈ located i current os) :
    o.stop ≤ i + (encodeOptions current os).length := by
  induction os generalizing i current with
  | nil => cases ho
  | cons o' os ih =>
    obtain ⟨number, value⟩ := o'
    have hvaluelen : (BitVec.ofNat 16 value.length).toNat = value.length := by
      rw [BitVec.toNat_ofNat, Nat.mod_eq_of_lt (hlen _ List.mem_cons_self)]
    rw [encodeOptions, List.length_append, List.length_append]
    rw [located] at ho
    rcases List.mem_cons.mp ho with rfl | ho
    · show _ + (BitVec.ofNat 16 value.length).toNat ≤ _
      rw [hvaluelen]
      show i + _ + value.length ≤ _
      omega
    · have hrest := ih (fun o ho => hlen o (List.mem_cons_of_mem _ ho)) ho
      omega

end

/-! ## The options of a message -/

theorem flatMap_eq_of_unique {α β : Type*} {f : α → List β} {l : List α} {a : α} (hn : l.Nodup) (ha : a ∈ l)
    (hf : ∀ b ∈ l, b ≠ a → f b = []) : l.flatMap f = f a := by
  induction l with
  | nil => cases ha
  | cons b l ih =>
    have hb := List.nodup_cons.mp hn
    rw [List.flatMap_cons]
    rcases List.mem_cons.mp ha with rfl | hal
    · have hrest : l.flatMap f = [] := by
        rw [List.flatMap_eq_nil_iff]
        exact fun c hc => hf c (List.mem_cons_of_mem _ hc) fun e => hb.1 (e ▸ hc)
      rw [hrest, List.append_nil]
    · rw [hf b List.mem_cons_self fun e => hb.1 (e ▸ hal), List.nil_append]
      exact ih hb.2 hal fun c hc => hf c (List.mem_cons_of_mem _ hc)

theorem CoapOption.mem_all (k : CoapOption) : k ∈ CoapOption.all := by cases k <;> decide

theorem CoapOption.nodup_all : CoapOption.all.Nodup := by decide

section
variable {msg : Message} {k : CoapOption}

theorem number_of_mem_optionsOf {o : U16 × List U8} (h : o ∈ msg.optionsOf k) : o.1 = k.number := by
  unfold Message.optionsOf at h
  cases hk : msg.options k with
  | none =>
    rw [hk] at h
    cases h
  | some value =>
    rw [hk] at h
    obtain ⟨part, -, rfl⟩ := List.mem_map.mp h
    rfl

theorem some_of_mem_optionsOf {o : U16 × List U8} (h : o ∈ msg.optionsOf k) :
    ∃ value, msg.options k = some value := by
  unfold Message.optionsOf at h
  cases hk : msg.options k with
  | none =>
    rw [hk] at h
    cases h
  | some value => exact ⟨value, rfl⟩

theorem filter_optionList (msg : Message) (k : CoapOption) :
    (msg.optionList.filter fun o => o.1 = k.number) = msg.optionsOf k := by
  have hself : (msg.optionsOf k).filter (fun o => o.1 = k.number) = msg.optionsOf k := by
    rw [List.filter_eq_self]
    exact fun o ho => decide_eq_true (number_of_mem_optionsOf ho)
  unfold Message.optionList
  rw [List.filter_flatMap, flatMap_eq_of_unique CoapOption.nodup_all k.mem_all, hself]
  intro j _ hj
  rw [List.filter_eq_nil_iff]
  intro o ho
  rw [number_of_mem_optionsOf ho]
  simpa using fun e => hj (CoapOption.number_inj e)

theorem ordered_optionList (msg : Message) : (msg.optionList.map Prod.fst).Pairwise (· ≤ ·) := by
  unfold Message.optionList
  rw [List.pairwise_map, List.pairwise_flatMap]
  constructor
  · intro k _
    apply List.pairwise_of_forall_mem_list
    intro a ha b hb
    rw [number_of_mem_optionsOf ha, number_of_mem_optionsOf hb]
    exact BitVec.le_refl _
  · have hall : CoapOption.all.Pairwise fun j k => j.number ≤ k.number := by decide
    refine hall.imp fun hjk a ha b hb => ?_
    rwa [number_of_mem_optionsOf ha, number_of_mem_optionsOf hb]

end

/-! ## Values that are received -/

/-- The values of an option that the field of a receiver holds; a packet with a proxy option is refused. -/
def CoapOption.Fits (k : CoapOption) : OptionValue → Prop
  | .int value =>
    match k with
    | .observe | .maxAge | .size2 | .size1 => True
    | .uriPort | .contentFormat | .accept => value.toNat < 2 ^ 16
    | _ => False
  | .block block => (k = .block1 ∨ k = .block2) ∧ block.num.toNat < 2 ^ 28 ∧ block.size.toNat < 4096
  | .bytes text =>
    match k with
    | .ifMatch | .etag => text.length ≤ coapEtagLen
    | .uriHost => text.length < 2 ^ 16
    | .locationPath | .uriPath | .uriQuery | .locationQuery =>
      text.length < 2 ^ 16 ∧ ∀ c, k.separator = some c → text.head? ≠ some c ∧ text.getLast? ≠ some c
    | _ => False
  | .flag => k = .ifNoneMatch

/-- The size of a block comes rounded down, and its offset is computed. -/
def OptionValue.received : OptionValue → OptionValue
  | .block b => .block b.received
  | value => value

section
variable {k : CoapOption} {value : OptionValue} {m : Mem}

theorem length_of_mem_splitFrom {splitter : U8} {part text v : List U8} (hv : v ∈ splitFrom splitter part text) :
    v.length ≤ part.length + text.length := by
  fun_induction splitFrom splitter part text with
  | case1 part =>
    rw [List.mem_singleton.mp hv]
    exact Nat.le_add_right _ _
  | case2 part =>
    rw [List.mem_singleton.mp hv]
    exact Nat.le_add_right _ _
  | case3 part x hx => rw [List.mem_singleton.mp hv, List.length_append]
  | case4 part y ys ih =>
    rcases List.mem_cons.mp hv with rfl | hv
    · exact Nat.le_add_right _ _
    · have := ih hv
      simp only [List.length_cons, List.length_nil] at this ⊢
      omega
  | case5 part x y ys hx ih =>
    have := ih hv
    simp only [List.length_cons, List.length_append, List.length_nil] at this ⊢
    omega

theorem CoapOption.Fits.not_proxy (h : k.Fits value) : k ≠ .proxyUri ∧ k ≠ .proxyScheme := by
  constructor
  · rintro rfl
    cases value with
    | block b => exact absurd h.1 (by decide)
    | flag => cases h
    | int value => exact h
    | bytes text => exact h
  · rintro rfl
    cases value with
    | block b => exact absurd h.1 (by decide)
    | flag => cases h
    | int value => exact h
    | bytes text => exact h

theorem CoapOption.Fits.length_lt {text : List U8} (h : k.Fits (.bytes text)) : text.length < 2 ^ 16 := by
  cases k
  case ifMatch | etag => exact Nat.lt_of_le_of_lt h (by decide)
  case uriHost => exact h
  case locationPath | uriPath | uriQuery | locationQuery => exact h.1
  all_goals exact h.elim

theorem length_of_mem_parts (hfits : k.Fits value) {v : List U8} (hv : v ∈ k.parts value) : v.length < 2 ^ 16 := by
  cases value with
  | int value =>
    rw [List.mem_singleton.mp hv]
    exact Nat.lt_of_le_of_lt (length_intBytes_le value) (by decide)
  | block b =>
    rw [List.mem_singleton.mp hv]
    exact Nat.lt_of_le_of_lt (length_intBytes_le b.value) (by decide)
  | flag =>
    rw [List.mem_singleton.mp hv]
    decide
  | bytes text =>
    have hlt := hfits.length_lt
    unfold CoapOption.parts at hv
    cases hsep : k.separator with
    | none =>
      rw [hsep] at hv
      rwa [List.mem_singleton.mp hv]
    | some c =>
      rw [hsep] at hv
      have hle := length_of_mem_splitFrom hv
      rw [List.length_nil, Nat.zero_add] at hle
      exact Nat.lt_of_le_of_lt hle hlt

theorem parts_ne_nil (k : CoapOption) (value : OptionValue) : k.parts value ≠ [] := by
  cases value with
  | int value => exact List.cons_ne_nil _ _
  | block b => exact List.cons_ne_nil _ _
  | flag => exact List.cons_ne_nil _ _
  | bytes text =>
    unfold CoapOption.parts
    cases k.separator with
    | none => exact List.cons_ne_nil _ _
    | some c => exact splitFrom_ne_nil c [] text

theorem foldl_absorb_text {c : U8} (hk : k.separator = some c) (parts : List (List U8)) (acc : List U8) :
    parts.foldl (absorb k) (.bytes acc) = .bytes (parts.foldl (joinText c) acc) := by
  induction parts generalizing acc with
  | nil => rfl
  | cons part parts ih =>
    have hone : absorb k (.bytes acc) part = .bytes (joinText c acc part) := by
      cases k <;> cases hk <;> rfl
    rw [List.foldl_cons, List.foldl_cons, hone, ih]

theorem setWidth_of_lt {v : U32} (h : v.toNat < 2 ^ 16) : (v.setWidth 16).setWidth 32 = v := by
  apply BitVec.eq_of_toNat_eq
  rw [BitVec.toNat_setWidth, BitVec.toNat_setWidth, Nat.mod_eq_of_lt h, Nat.mod_eq_of_lt (by omega)]

theorem foldl_absorb_parts (hfits : k.Fits value) :
    (k.parts value).foldl (absorb k) (CoapPacket.zero.value m k) = value.received := by
  cases value with
  | int value =>
    cases k
    case observe | maxAge | size2 | size1 => exact congrArg OptionValue.int (parseInt_intBytes value)
    case uriPort | contentFormat | accept =>
      show OptionValue.int (((parseInt (intBytes value)).setWidth 16).setWidth 32) = _
      rw [parseInt_intBytes, setWidth_of_lt hfits]
      rfl
    all_goals exact hfits.elim
  | block b =>
    obtain ⟨hk, hnum, hsize⟩ := hfits
    have hblock : Block.parse (parseInt (intBytes b.value)) = b.received := by
      rw [parseInt_intBytes, Block.parse_value hnum hsize]
    rcases hk with rfl | rfl <;> exact congrArg OptionValue.block hblock
  | flag =>
    obtain rfl : k = .ifNoneMatch := hfits
    rfl
  | bytes text =>
    have htext : ∀ c, k.separator = some c → text.head? ≠ some c ∧ text.getLast? ≠ some c →
        (splitText c text).foldl (absorb k) (.bytes []) = (.bytes text) := by
      intro c hc h
      rw [foldl_absorb_text hc, foldl_joinText_splitText h.1 h.2]
    cases k
    case ifMatch | etag => exact congrArg OptionValue.bytes (List.take_of_length_le hfits)
    case uriHost => rfl
    case locationPath | uriPath | uriQuery | locationQuery => exact htext _ rfl (hfits.2 _ rfl)
    all_goals exact hfits.elim

end

/-! ## The message -/

/-- A message that the parser accepts and that its packet holds. -/
structure Message.Fits (msg : Message) : Prop where
  type : msg.type < 4
  token : msg.token.length ≤ coapTokenLen
  options : ∀ k value, msg.options k = some value → k.Fits value
  payload : msg.payload.length ≤ restMaxChunkSize

def Message.received (msg : Message) : Message :=
  { msg with options := fun k => (msg.options k).map OptionValue.received }

theorem header_byte : ∀ t : Fin 4, ∀ l : Fin 9,
    let b := (0xC0 &&& (1 : U8) <<< 6) ||| (0x30 &&& BitVec.ofNat 8 t <<< 4) ||| (0x0F &&& BitVec.ofNat 8 l)
    (0xC0 &&& b) >>> 6 = 1 ∧ (0x30 &&& b) >>> 4 = BitVec.ofNat 8 t ∧
      (if 8 < 0x0F &&& b then 8 else 0x0F &&& b) = BitVec.ofNat 8 l := by decide

section
variable {msg : Message} {m m' : Mem} {data : Nat} {dataLen : U16}

theorem parseHeader_encode (hf : msg.Fits) (h : Holds m data msg.encode) :
    (parseHeader m data).version = 1 ∧ (parseHeader m data).type = msg.type ∧
      (parseHeader m data).tokenLen.toNat = msg.token.length ∧ (parseHeader m data).code = msg.code ∧
      (parseHeader m data).mid = msg.mid := by
  unfold Message.encode Message.header at h
  simp only [List.append_assoc] at h
  have hbytes := (holds_append.mp h).1
  obtain ⟨h0, hbytes⟩ := holds_cons.mp hbytes
  obtain ⟨h1, hbytes⟩ := holds_cons.mp hbytes
  obtain ⟨h2, hbytes⟩ := holds_cons.mp hbytes
  obtain ⟨h3, -⟩ := holds_cons.mp hbytes
  have htoken : msg.token.length < 9 := Nat.lt_succ_of_le hf.token
  have htype : BitVec.ofNat 8 msg.type.toNat = msg.type := by rw [BitVec.ofNat_toNat, BitVec.setWidth_eq]
  obtain ⟨hversion, htype', htokenLen⟩ := header_byte ⟨msg.type.toNat, hf.type⟩ ⟨msg.token.length, htoken⟩
  dsimp only at hversion htype' htokenLen
  rw [htype, ← h0] at hversion htype' htokenLen
  have hlen : (parseHeader m data).tokenLen.toNat = msg.token.length := by
    show (if 8 < 0x0F &&& m data then 8 else 0x0F &&& m data).toNat = msg.token.length
    rw [htokenLen, BitVec.toNat_ofNat]
    exact Nat.mod_eq_of_lt (by omega)
  refine ⟨hversion, htype', hlen, h1, ?_⟩
  show bytesToShort (m (data + 2)) (m (data + 3)) = msg.mid
  rw [h2, h3, bytesToShort_hi_lo]

theorem holds_encode (h : Holds m data msg.encode) :
    slice m (data + coapHeaderLen) msg.token.length = msg.token ∧
      Holds m (data + coapHeaderLen + msg.token.length) (encodeOptions 0 msg.optionList) ∧
      Holds m (data + coapHeaderLen + msg.token.length + (encodeOptions 0 msg.optionList).length)
        (if msg.payload = [] then [] else 0xFF :: msg.payload) := by
  unfold Message.encode Message.header at h
  obtain ⟨hheader, hpayload⟩ := holds_append.mp h
  obtain ⟨hfront, hoptions⟩ := holds_append.mp hheader
  have htoken := (holds_append.mp hfront).2
  simp only [List.length_append, ← Nat.add_assoc] at hoptions hpayload
  exact ⟨htoken, hoptions, hpayload⟩

theorem length_of_mem_optionList (hf : msg.Fits) {o : U16 × List U8} (ho : o ∈ msg.optionList) :
    o.2.length < 2 ^ 16 := by
  obtain ⟨k, -, hk⟩ := List.mem_flatMap.mp ho
  unfold Message.optionsOf at hk
  cases hv : msg.options k with
  | none =>
    rw [hv] at hk
    cases hk
  | some value =>
    rw [hv] at hk
    obtain ⟨part, hpart, rfl⟩ := List.mem_map.mp hk
    exact length_of_mem_parts (hf.options k value hv) hpart

theorem stop_encode (hf : msg.Fits) (h : Holds m data msg.encode) (hlen : dataLen.toNat = msg.encode.length) :
    data + dataLen.toNat = optionsStart m data + (encodeOptions 0 msg.optionList).length +
      (if msg.payload = [] then [] else 0xFF :: msg.payload).length := by
  obtain ⟨-, -, htokenLen, -, -⟩ := parseHeader_encode hf h
  unfold Message.encode Message.header at hlen
  simp only [List.length_append] at hlen
  have hheader : (headerBytes msg.type (BitVec.ofNat 8 msg.token.length) msg.code msg.mid).length =
      coapHeaderLen := rfl
  unfold optionsStart
  omega

theorem datagramOptions_encode (hf : msg.Fits) (h : Holds m data msg.encode)
    (hlen : dataLen.toNat = msg.encode.length) :
    datagramOptions m data dataLen =
      (located (optionsStart m data) 0 msg.optionList,
        if msg.payload = [] then none
        else some (optionsStart m data + (encodeOptions 0 msg.optionList).length)) := by
  obtain ⟨-, -, htokenLen, -, -⟩ := parseHeader_encode hf h
  obtain ⟨-, hoptions, hpayload⟩ := holds_encode h
  have hstart : optionsStart m data = data + coapHeaderLen + msg.token.length := by
    rw [optionsStart, htokenLen]
  rw [← hstart] at hoptions hpayload
  have hend := stop_encode hf h hlen
  have hcount := length_encodeOptions 0 msg.optionList
  obtain ⟨fuel, hfuel⟩ : ∃ fuel, dataLen.toNat = msg.optionList.length + (fuel + 1) := by
    have hheader : coapHeaderLen = 4 := rfl
    exact ⟨dataLen.toNat - msg.optionList.length - 1, by omega⟩
  have hscan : scan m (data + dataLen.toNat) (msg.optionList.length + (fuel + 1)) (optionsStart m data) 0 = _ :=
    scan_encode hoptions (fun o ho => length_of_mem_optionList hf ho) (by omega)
  rw [← hfuel] at hscan
  show scan m (data + dataLen.toNat) dataLen.toNat (optionsStart m data) 0 = _
  rw [hscan]
  by_cases hnil : msg.payload = []
  · rw [if_pos hnil, List.length_nil, Nat.add_zero] at hend
    rw [scan_stop (Nat.le_of_eq hend), if_pos hnil, List.append_nil]
  · rw [if_neg hnil] at hpayload hend
    have hmarker := (holds_cons.mp hpayload).1
    rw [List.length_cons] at hend
    rw [scan_marker (by omega) (by rw [hmarker]; decide), if_neg hnil, List.append_nil]

theorem switchOption_ok {p : CoapPacket} {start : Nat} {length : U16} {k : CoapOption}
    (hk : k ≠ .proxyUri ∧ k ≠ .proxyScheme) : ∃ r, switchOption m p start k.number length = .ok r := by
  unfold switchOption
  rw [CoapOption.ofNumber_number]
  cases k
  case proxyUri => exact absurd rfl hk.1
  case proxyScheme => exact absurd rfl hk.2
  all_goals exact ⟨_, rfl⟩

theorem readOptions_known {stop : Nat} {payload : Option Nat} {os : List OptionAt} (p : CoapPacket)
    (h : ∀ o ∈ os, ∃ k : CoapOption, o.number = k.number ∧ k ≠ .proxyUri ∧ k ≠ .proxyScheme) :
    ∃ q, readOptions m stop payload p os = .returned none q := by
  induction os generalizing p with
  | nil => exact ⟨_, rfl⟩
  | cons o os ih =>
    obtain ⟨k, hnumber, hk⟩ := h o List.mem_cons_self
    have hlt : o.number.toNat < optionBits := hnumber ▸ k.number_lt
    obtain ⟨r, hr⟩ : ∃ r, switchOption m (p.setOption o.number.toNat) o.start k.number o.length = .ok r :=
      switchOption_ok hk
    rw [readOptions, if_neg (Nat.not_le.mpr hlt)]
    dsimp only
    rw [hnumber] at hr ⊢
    rw [hr]
    exact ih r.1 fun o' ho' => h o' (List.mem_cons_of_mem _ ho')

theorem received_encode (hf : msg.Fits) (h : Holds m data msg.encode) (hlen : dataLen.toNat = msg.encode.length) :
    received m data dataLen = msg.received := by
  obtain ⟨-, htype, htokenLen, hcode, hmid⟩ := parseHeader_encode hf h
  obtain ⟨htoken, hoptions, hpayload⟩ := holds_encode h
  have hdatagram := datagramOptions_encode hf h hlen
  have hstart : optionsStart m data = data + coapHeaderLen + msg.token.length := by
    rw [optionsStart, htokenLen]
  unfold received Message.received
  rw [hdatagram]
  congr 1
  · rw [htokenLen, htoken]
  · funext k
    have hoccurrences : occurrences m (located (optionsStart m data) 0 msg.optionList) k =
        (msg.optionsOf k).map Prod.snd := by
      rw [occurrences_located (hstart ▸ hoptions) (fun o ho => length_of_mem_optionList hf ho), filter_optionList]
    rw [hoccurrences]
    unfold Message.optionsOf
    cases hv : msg.options k with
    | none => rfl
    | some value =>
      obtain ⟨part, parts, hparts⟩ := List.exists_cons_of_ne_nil (parts_ne_nil k value)
      have hvalue := foldl_absorb_parts (m := m) (hf.options k value hv)
      have hsnd : ((k.parts value).map fun part => (k.number, part)).map Prod.snd = part :: parts := by
        rw [List.map_map, hparts]
        exact List.map_id _
      rw [Option.elim, hsnd]
      rw [hparts] at hvalue
      exact congrArg some hvalue
  · rw [← hstart] at hpayload
    have hend := stop_encode hf h hlen
    by_cases hnil : msg.payload = []
    · rw [if_pos hnil, hnil]
      rfl
    · rw [if_neg hnil] at hpayload hend ⊢
      have hbytes : slice m _ msg.payload.length = msg.payload := (holds_cons.mp hpayload).2
      rw [List.length_cons] at hend
      rw [Option.elim, show data + dataLen.toNat - (optionsStart m data + (encodeOptions 0 msg.optionList).length + 1) =
        msg.payload.length by omega, Nat.min_eq_right hf.payload, hbytes]

theorem ordered_datagramOptions (hf : msg.Fits) (h : Holds m data msg.encode)
    (hlen : dataLen.toNat = msg.encode.length) : Ordered (datagramOptions m data dataLen).1 := by
  have hnumbers := ordered_optionList msg
  rw [← located_numbers (optionsStart m data) 0, List.pairwise_map] at hnumbers
  rw [datagramOptions_encode hf h hlen]
  exact hnumbers

theorem readMessage_encode (hf : msg.Fits) (h : Holds m data msg.encode)
    (hlen : dataLen.toNat = msg.encode.length) : ∃ q, readMessage m data dataLen = .returned none q := by
  obtain ⟨hversion, -, -, -, -⟩ := parseHeader_encode hf h
  unfold readMessage
  dsimp only
  rw [if_neg (not_not.mpr hversion), datagramOptions_encode hf h hlen]
  apply readOptions_known
  intro o ho
  have hmem : o.number ∈ msg.optionList.map Prod.fst := by
    rw [← located_numbers (optionsStart m data) 0]
    exact List.mem_map_of_mem ho
  obtain ⟨⟨number, part⟩, hpart, hnumber⟩ := List.mem_map.mp hmem
  obtain ⟨k, -, hk⟩ := List.mem_flatMap.mp hpart
  have hnumber' : o.number = k.number := hnumber.symm.trans (number_of_mem_optionsOf hk)
  obtain ⟨value, hvalue⟩ := some_of_mem_optionsOf hk
  exact ⟨k, hnumber', (hf.options k value hvalue).not_proxy⟩

theorem parse_encode (hf : msg.Fits) (h : Holds m data msg.encode) (hlen : dataLen.toNat = msg.encode.length) :
    ∃ q m', coapParseMessage m data dataLen = .returned none q m' ∧ q.message m' = msg.received := by
  obtain ⟨p, hp⟩ := readMessage_encode hf h hlen
  have hverdict := parse_verdict m data dataLen
  rw [hp] at hverdict
  cases hr : coapParseMessage m data dataLen with
  | outside =>
    rw [hr] at hverdict
    cases hverdict
  | returned e q m' =>
    rw [hr] at hverdict
    cases hverdict
    refine ⟨p, m', rfl, ?_⟩
    rw [parse_message hr (ordered_datagramOptions hf h hlen), received_encode hf h hlen]

/-- Parsing an encoded message writes behind its token, up to the byte after it. -/
theorem parse_encode_frame (hf : msg.Fits) (h : Holds m data msg.encode) (hlen : dataLen.toNat = msg.encode.length)
    {e : Option CoapError} {q : CoapPacket} (hr : coapParseMessage m data dataLen = .returned e q m') :
    Frame m m' data (data + dataLen.toNat + 1) := by
  have hfit : ∀ o ∈ (datagramOptions m data dataLen).1, o.stop ≤ data + dataLen.toNat := by
    intro o ho
    rw [datagramOptions_encode hf h hlen] at ho
    have hstop := located_stop_le (fun o ho => length_of_mem_optionList hf ho) ho
    have hend := stop_encode hf h hlen
    omega
  apply (parse_frame hr hfit).1.mono _ (Nat.le_refl _)
  unfold optionsStart
  omega

/-- A packet that is serialized, carried to any place of another memory and parsed there says what it said
before. -/
theorem round_trip {p : CoapPacket} {μ : Mem} {buffer : Nat} (hcode : p.code ≠ 0) (hf : (p.message m).Fits)
    (hr : Readable p m buffer (p.message m).header.length)
    (hshort : (p.message m).header.length ≤ coapMaxHeaderSize) (hnull : p.payload = none → p.payloadLen = 0)
    (hpayload : (Out.mk m buffer).Apart (p.payload.getD 0) p.payloadLen.toNat ((p.message m).header.length + 1))
    (hlen : dataLen.toNat = (coapSerializeMessage p m buffer).size)
    (hμ : Holds μ data (slice (coapSerializeMessage p m buffer).mem buffer dataLen.toNat)) :
    ∃ q m', coapParseMessage μ data dataLen = .returned none q m' ∧
      q.message m' = (p.message m).received := by
  rw [serialize_eq hcode hr hshort hnull hpayload] at hlen hμ
  rw [hlen] at hμ
  have hbytes : Holds μ data (p.message m).encode := by
    have hstored := slice_store m buffer (p.message m).encode
    rwa [hstored] at hμ
  exact parse_encode hf hbytes hlen

end

def getPath : CoapPacket := CoapPacket.setOption { CoapPacket.zero with code := 1, uriPath := ⟨1000, 3⟩ } 11

def pathMem : Mem := store (fun _ => 0) 1000 [0x61, 0x2F, 0x62]

theorem round_trip_path :
    ∃ q m', coapParseMessage (store (fun _ => 0) 50 (slice (coapSerializeMessage getPath pathMem 0).mem 0 8)) 50 8 =
        .returned none q m' ∧ q.message m' = (getPath.message pathMem).received := by
  have hlen : (getPath.message pathMem).header.length = 8 := by decide +kernel
  have honly : ∀ k, getPath.isOption k → k = .uriPath := by
    intro k
    cases k <;> decide
  have hreadable : Readable getPath pathMem 0 (getPath.message pathMem).header.length := by
    apply readable_of_path honly
    · rw [hlen]
      exact Or.inr (by decide)
    · decide
  have hfits : (getPath.message pathMem).Fits := {
    type := (by decide : (0 : U8) < 4)
    token := Nat.zero_le _
    options := by
      intro k value hvalue
      have hset : getPath.isOption k := by
        by_contra hnot
        rw [CoapPacket.message] at hvalue
        dsimp only at hvalue
        rw [if_neg hnot] at hvalue
        cases hvalue
      obtain rfl := honly k hset
      obtain rfl := Option.some.inj hvalue
      refine ⟨by decide, fun c hc => ?_⟩
      obtain rfl := Option.some.inj hc
      decide
    payload := Nat.zero_le _ }
  have hsize : (coapSerializeMessage getPath pathMem 0).size = 8 := by decide +kernel
  exact round_trip (by decide) hfits hreadable (hlen ▸ by decide) (fun _ => rfl) (Or.inl (by decide))
    hsize.symm (holds_store _ _ _)

end Unet4Cooja.Coap
