import Unet4Cooja.Coap.Parse

/-!
# What the parser makes of a datagram

* `OptionAt`, `scan` : the options of a memory that nobody writes to;
* `Verdict`, `readMessage` : what the parser would return if it only read;
* `absorb`, `occurrences` : what the occurrences of an option say together;
* `ReadInv`, `parseOptions_verdict` : the invariant of the loop, under which merging does not disturb what is
  read later.
-/

namespace Unet4Cooja.Coap
open Lib

/-! ## The options of a datagram -/

structure OptionAt where
  number : U16
  start : Nat
  length : U16

/-- The options from `current` on, and the place of the payload marker. -/
def scan (m : Mem) (stop : Nat) : Nat → Nat → U16 → List OptionAt × Option Nat
  | 0, _, _ => ([], none)
  | fuel + 1, current, number =>
    if current < stop then
      if m current &&& 0xF0 = 0xF0 then ([], some current)
      else
        let (delta, length, start) := readOptionHeader m current
        let (options, payload) := scan m stop fuel (start + length.toNat) (number + delta)
        (⟨number + delta, start, length⟩ :: options, payload)
    else ([], none)

/-- How the parser ends, without the memory. -/
inductive Verdict
  | returned (error : Option CoapError) (packet : CoapPacket)
  | outside

def ParseEnd.verdict : ParseEnd → Verdict
  | .returned error packet _ => .returned error packet
  | .outside => .outside

/-- One option after the other, each read in `m`. -/
def readOptions (m : Mem) (stop : Nat) (payload : Option Nat) : CoapPacket → List OptionAt → Verdict
  | p, [] =>
    .returned none (payload.elim p fun i =>
      { p with payload := some (i + 1), payloadLen := BitVec.ofNat 16 (min restMaxChunkSize (stop - (i + 1))) })
  | p, o :: os =>
    if optionBits ≤ o.number.toNat then .outside
    else
      let p := p.setOption o.number.toNat
      match switchOption m p o.start o.number o.length with
      | .error e => .returned (some e) p
      | .ok (p, _) => readOptions m stop payload p os

def datagramOptions (m : Mem) (data : Nat) (dataLen : U16) : List OptionAt × Option Nat :=
  scan m (data + dataLen.toNat) dataLen.toNat
    (data + coapHeaderLen + (parseHeader m data).tokenLen.toNat) 0

/-- `coap_parse_message` on a memory that it does not write to. -/
def readMessage (m : Mem) (data : Nat) (dataLen : U16) : Verdict :=
  let p := parseHeader m data
  if p.version ≠ 1 then .returned (some versionError) p
  else
    let (options, payload) := datagramOptions m data dataLen
    readOptions m (data + dataLen.toNat) payload (parseToken m data) options

/-! ## Merging -/

/-- The byte that `coap_merge_multi_option` puts between the parts. -/
def CoapOption.separator : CoapOption → Option U8
  | uriPath | locationPath => some 0x2F
  | uriQuery | locationQuery => some 0x26
  | _ => none

def CoapPacket.text (p : CoapPacket) : CoapOption → Text
  | .uriHost => p.uriHost
  | .uriPath => p.uriPath
  | .uriQuery => p.uriQuery
  | .locationPath => p.locationPath
  | .locationQuery => p.locationQuery
  | .proxyUri => p.proxyUri
  | .proxyScheme => p.proxyScheme
  | _ => ⟨0, 0⟩

def Text.stop (t : Text) : Nat := t.ptr + t.len

/-- The parts of a path or a query; an empty string is no part. -/
def joinText (separator : U8) (text part : List U8) : List U8 :=
  if text = [] then part else text ++ separator :: part

section
variable {m m' : Mem} {t : Text} {option len : Nat} {separator : U8}

theorem merge_of_pos (h : 0 < t.len) :
    coapMergeMultiOption m t option len separator =
      (store (Function.update m t.stop separator) (t.stop + 1)
        (slice (Function.update m t.stop separator) option len), ⟨t.ptr, t.len + 1 + len⟩) := if_pos h

theorem merge_of_empty (h : t.len = 0) :
    coapMergeMultiOption m t option len separator = (m, ⟨option, len⟩) := if_neg (by omega)

theorem merge_frame (h : 0 < t.len → t.stop < option) :
    Frame m (coapMergeMultiOption m t option len separator).1 (if 0 < t.len then t.stop else option)
      (option + len) := by
  by_cases hpos : 0 < t.len
  · have hstop := h hpos
    rw [merge_of_pos hpos, if_pos hpos]
    have hbyte := (frame_update m t.stop separator).mono (Nat.le_refl _) (show _ ≤ option + len by omega)
    have hpart := (frame_store (Function.update m t.stop separator) (t.stop + 1)
      (slice (Function.update m t.stop separator) option len)).mono (Nat.le_succ _)
      (show _ ≤ option + len by rw [length_slice]; omega)
    exact hbyte.trans hpart
  · rw [merge_of_empty (by omega)]
    exact Frame.refl m _ _

theorem merge_stop (h : 0 < t.len → t.stop < option) :
    (coapMergeMultiOption m t option len separator).2.stop ≤ option + len := by
  by_cases hpos : 0 < t.len
  · have hstop := h hpos
    rw [merge_of_pos hpos]
    unfold Text.stop at *
    dsimp only
    omega
  · rw [merge_of_empty (by omega)]
    exact Nat.le_refl _

theorem merge_value (h : 0 < t.len → t.stop < option) :
    (coapMergeMultiOption m t option len separator).2.value (coapMergeMultiOption m t option len separator).1 =
      joinText separator (t.value m) (slice m option len) := by
  by_cases hpos : 0 < t.len
  · have hstop := h hpos
    have hne : t.value m ≠ [] := by
      rw [← List.length_pos_iff, Text.value, length_slice]
      exact hpos
    have hsource : slice (Function.update m t.stop separator) option len = slice m option len :=
      (frame_update m t.stop separator).slice_eq (by omega)
    rw [merge_of_pos hpos, hsource, joinText, if_neg hne]
    obtain ⟨part, hpart⟩ : ∃ part, slice m option len = part := ⟨_, rfl⟩
    have hlen : part.length = len := by rw [← hpart, length_slice]
    have hframe : Frame m (store (Function.update m t.stop separator) (t.stop + 1) part) t.stop
        (t.stop + 1 + part.length) :=
      ((frame_update m t.stop separator).mono (Nat.le_refl _) (by omega)).trans
        ((frame_store _ (t.stop + 1) part).mono (Nat.le_succ _) (Nat.le_refl _))
    have hbyte : store (Function.update m t.stop separator) (t.stop + 1) part t.stop = separator := by
      rw [store_of_lt part (Nat.lt_succ_self _), Function.update_self]
    rw [hpart, ← hlen, Text.value, Text.value, Nat.add_assoc, slice_add,
      hframe.slice_eq (Or.inl (Nat.le_refl _)), Nat.add_comm 1, slice]
    congr 2
    exact slice_store _ (t.stop + 1) part
  · have hzero : t.len = 0 := by omega
    have hempty : t.value m = [] := by rw [Text.value, hzero]; rfl
    rw [merge_of_empty hzero, hempty, joinText, if_pos rfl]
    rfl

end

/-! ## One option -/

/-- What an option says after one more occurrence. -/
def absorb (k : CoapOption) (old : OptionValue) (bytes : List U8) : OptionValue :=
  match k with
  | .ifMatch | .etag => .bytes (bytes.take coapEtagLen)
  | .uriHost | .proxyUri | .proxyScheme => .bytes bytes
  | .ifNoneMatch => .flag
  | .observe | .maxAge | .size2 | .size1 => .int (parseInt bytes)
  | .uriPort | .contentFormat | .accept => .int (((parseInt bytes).setWidth 16).setWidth 32)
  | .block2 | .block1 => .block (Block.parse (parseInt bytes))
  | .locationPath | .uriPath | .uriQuery | .locationQuery =>
    match old with
    | .bytes text => .bytes (joinText (k.separator.getD 0) text bytes)
    | old => old

def CoapPacket.fixed (p : CoapPacket) : U8 × U8 × U8 × U16 × U8 × (Nat → U8) × Option Nat × U16 :=
  (p.version, p.type, p.code, p.mid, p.tokenLen, p.token, p.payload, p.payloadLen)

/-- The strings that a packet has end before a place. -/
def CoapPacket.TextsBelow (p : CoapPacket) (i : Nat) : Prop := ∀ k, 0 < (p.text k).len → (p.text k).stop ≤ i

section
variable {m m' : Mem} {p p' : CoapPacket} {i start : Nat} {length : U16} {k : CoapOption}

theorem applyOption_mem (h : applyOption m p start length k = .ok (p', m')) :
    m' = k.separator.elim m fun c => (coapMergeMultiOption m (p.text k) start length.toNat c).1 := by
  cases k <;> simp only [applyOption, Except.ok.injEq, Prod.mk.injEq, reduceCtorEq] at h <;> exact h.2.symm

theorem applyOption_text (h : applyOption m p start length k = .ok (p', m')) :
    p'.text k = k.separator.elim (if k = .uriHost then ⟨start, length.toNat⟩ else p.text k)
      fun c => (coapMergeMultiOption m (p.text k) start length.toNat c).2 := by
  cases k <;> simp only [applyOption, Except.ok.injEq, Prod.mk.injEq, reduceCtorEq] at h <;>
    obtain ⟨rfl, -⟩ := h <;> rfl

theorem applyOption_text_of_ne {j : CoapOption} (h : applyOption m p start length k = .ok (p', m')) (hj : j ≠ k) :
    p'.text j = p.text j := by
  cases k <;> simp only [applyOption, Except.ok.injEq, Prod.mk.injEq, reduceCtorEq] at h <;>
    obtain ⟨rfl, -⟩ := h <;> cases j <;> first | rfl | exact absurd rfl hj

theorem applyOption_value_of_ne {j : CoapOption} (h : applyOption m p start length k = .ok (p', m')) (hj : j ≠ k)
    (μ : Mem) : p'.value μ j = p.value μ j := by
  cases k <;> simp only [applyOption, Except.ok.injEq, Prod.mk.injEq, reduceCtorEq] at h <;>
    obtain ⟨rfl, -⟩ := h <;> cases j <;> first | rfl | exact absurd rfl hj

theorem applyOption_fixed (h : applyOption m p start length k = .ok (p', m')) : p'.fixed = p.fixed := by
  cases k <;> simp only [applyOption, Except.ok.injEq, Prod.mk.injEq, reduceCtorEq] at h <;>
    obtain ⟨rfl, -⟩ := h <;> rfl

theorem applyOption_options (h : applyOption m p start length k = .ok (p', m')) : p'.options = p.options := by
  cases k <;> simp only [applyOption, Except.ok.injEq, Prod.mk.injEq, reduceCtorEq] at h <;>
    obtain ⟨rfl, -⟩ := h <;> rfl

theorem Tag.copy_value (t : Tag) (m : Mem) (start : Nat) (length : U16) :
    (t.copy m start length).value = (slice m start length.toNat).take coapEtagLen := by
  have hlen : (BitVec.ofNat 8 (min coapEtagLen length.toNat)).toNat = min coapEtagLen length.toNat := by
    rw [BitVec.toNat_ofNat]
    exact Nat.mod_eq_of_lt (Nat.lt_of_le_of_lt (Nat.min_le_left _ _) (by decide))
  unfold Tag.copy Tag.value
  dsimp only
  rw [hlen, take_slice]
  have hstored := slice_store t.bytes 0 (slice m start (min coapEtagLen length.toNat))
  rwa [length_slice] at hstored

theorem applyOption_value (h : applyOption m p start length k = .ok (p', m')) (hp : p.TextsBelow i)
    (hi : i < start) : p'.value m' k = absorb k (p.value m k) (slice m start length.toNat) := by
  have hbefore : ∀ j, 0 < (p.text j).len → (p.text j).stop < start :=
    fun j hj => Nat.lt_of_le_of_lt (hp j hj) hi
  cases k <;> simp only [applyOption, Except.ok.injEq, Prod.mk.injEq, reduceCtorEq] at h <;>
    obtain ⟨rfl, rfl⟩ := h
  case etag | ifMatch => exact congrArg OptionValue.bytes (Tag.copy_value ..)
  case uriPath => exact congrArg OptionValue.bytes (merge_value (hbefore .uriPath))
  case uriQuery => exact congrArg OptionValue.bytes (merge_value (hbefore .uriQuery))
  case locationPath => exact congrArg OptionValue.bytes (merge_value (hbefore .locationPath))
  case locationQuery => exact congrArg OptionValue.bytes (merge_value (hbefore .locationQuery))
  all_goals rfl

theorem applyOption_congr {μ : Mem} (hm : ∀ j, start ≤ j → m j = μ j) :
    (applyOption m p start length k).map Prod.fst = (applyOption μ p start length k).map Prod.fst := by
  have hslice : ∀ n, slice m start n = slice μ start n := fun n => slice_congr fun j hj _ => hm j hj
  cases k <;> simp only [applyOption, coapParseIntOption, Tag.copy, coapMergeMultiOption, hslice, Except.map]
  all_goals split <;> rfl

end

/-! ## The loop -/

/-- The option whose header is at `current`. -/
def optionAt (m : Mem) (current : Nat) (number : U16) : OptionAt :=
  let (delta, length, start) := readOptionHeader m current
  ⟨number + delta, start, length⟩

def OptionAt.stop (o : OptionAt) : Nat := o.start + o.length.toNat

section
variable {m m' : Mem} {current : Nat} {number : U16}

theorem readExtension_congr (x : U16) (hm : ∀ j, current ≤ j → m j = m' j) :
    readExtension m x current = readExtension m' x current := by
  unfold readExtension
  rw [hm current (Nat.le_refl _), hm (current + 1) (Nat.le_succ _)]

theorem readExtension_le (m : Mem) (x : U16) (current : Nat) : current ≤ (readExtension m x current).2 := by
  unfold readExtension
  split
  · exact Nat.le_succ _
  · split
    · exact Nat.le_add_right _ _
    · exact Nat.le_refl _

theorem readOptionHeader_congr (hm : ∀ j, current ≤ j → m j = m' j) :
    readOptionHeader m current = readOptionHeader m' current := by
  have hextension : ∀ x c, current + 1 ≤ c → readExtension m x c = readExtension m' x c :=
    fun x c hc => readExtension_congr x fun j hj => hm j (by omega)
  unfold readOptionHeader
  rw [hm current (Nat.le_refl _), hextension _ _ (Nat.le_refl _)]
  dsimp only
  rw [hextension _ _ (readExtension_le ..)]

theorem optionAt_congr (hm : ∀ j, current ≤ j → m j = m' j) :
    optionAt m current number = optionAt m' current number := by
  unfold optionAt
  rw [readOptionHeader_congr hm]

theorem lt_optionAt_start (m : Mem) (current : Nat) (number : U16) :
    current < (optionAt m current number).start := by
  unfold optionAt readOptionHeader
  exact Nat.lt_of_lt_of_le (Nat.lt_succ_self current) (Nat.le_trans (readExtension_le ..) (readExtension_le ..))

theorem readExtension_end_le (m : Mem) (x : U16) (current : Nat) : (readExtension m x current).2 ≤ current + 2 := by
  unfold readExtension
  split
  · exact Nat.le_succ _
  · split
    · exact Nat.le_refl _
    · exact Nat.le_add_right _ _

theorem optionAt_start_le (m : Mem) (current : Nat) (number : U16) :
    (optionAt m current number).start ≤ current + 5 := by
  unfold optionAt readOptionHeader
  have hdelta := readExtension_end_le m ((m current >>> 4).setWidth 16) (current + 1)
  exact Nat.le_trans (readExtension_end_le ..) (Nat.add_le_add_right hdelta 2)

theorem scan_succ {stop fuel : Nat} (hstop : current < stop) (hmarker : m current &&& 0xF0 ≠ 0xF0) :
    scan m stop (fuel + 1) current number =
      (optionAt m current number ::
          (scan m stop fuel (optionAt m current number).stop (optionAt m current number).number).1,
        (scan m stop fuel (optionAt m current number).stop (optionAt m current number).number).2) := by
  rw [scan, if_pos hstop, if_neg hmarker]
  rfl

theorem scan_marker {stop fuel : Nat} (hstop : current < stop) (hmarker : m current &&& 0xF0 = 0xF0) :
    scan m stop (fuel + 1) current number = ([], some current) := by
  rw [scan, if_pos hstop, if_pos hmarker]

theorem scan_stop {stop : Nat} (hstop : stop ≤ current) (fuel : Nat) :
    scan m stop fuel current number = ([], none) := by
  cases fuel with
  | zero => rfl
  | succ fuel => rw [scan, if_neg (Nat.not_lt.mpr hstop)]

/-- An option starts in the datagram; what it claims has 16 bits. -/
theorem scan_stop_le {stop : Nat} (fuel : Nat) :
    ∀ o ∈ (scan m stop fuel current number).1, o.stop ≤ stop + 0x10004 := by
  induction fuel generalizing current number with
  | zero =>
    intro o ho
    cases ho
  | succ fuel ih =>
    intro o ho
    by_cases hstop : current < stop
    · by_cases hmarker : m current &&& 0xF0 = 0xF0
      · rw [scan_marker hstop hmarker] at ho
        cases ho
      · rw [scan_succ hstop hmarker] at ho
        rcases List.mem_cons.mp ho with rfl | hrest
        · have hstart := optionAt_start_le m current number
          have hlength := (optionAt m current number).length.isLt
          unfold OptionAt.stop
          omega
        · exact ih o hrest
    · rw [scan_stop (Nat.le_of_not_lt hstop)] at ho
      cases ho

theorem parseOption_eq (s : ParseState) :
    parseOption s =
      let o := optionAt s.mem s.current s.number
      if optionBits ≤ o.number.toNat then .error .outside
      else
        let packet := s.packet.setOption o.number.toNat
        match switchOption s.mem packet o.start o.number o.length with
        | .error e => .error (.returned (some e) packet s.mem)
        | .ok (packet, mem) => .ok ⟨mem, packet, o.stop, o.number⟩ := rfl

end

/-! ## The `switch` -/

/-- What the `switch` makes of a packet and of the memory. -/
structure Switched (m : Mem) (p : CoapPacket) (o : OptionAt) (p' : CoapPacket) (m' : Mem) : Prop where
  fixed : p'.fixed = p.fixed
  options : p'.options = p.options
  frame : ∃ lo, Frame m m' lo o.stop ∧
    (lo = o.start ∨ ∃ k : CoapOption, k.number = o.number ∧ 0 < (p.text k).len ∧ lo = (p.text k).stop)
  others : ∀ k : CoapOption, k.number ≠ o.number → p'.text k = p.text k ∧ ∀ μ, p'.value μ k = p.value μ k
  text : ∀ k : CoapOption, k.number = o.number → 0 < (p'.text k).len → (p'.text k).stop ≤ o.stop ∧
    ((p'.text k).ptr = o.start ∨ 0 < (p.text k).len ∧ (p'.text k).ptr = (p.text k).ptr)
  value : ∀ k : CoapOption, k.number = o.number →
    p'.value m' k = absorb k (p.value m k) (slice m o.start o.length.toNat)

section
variable {m m' : Mem} {p p' : CoapPacket} {o : OptionAt} {i : Nat}

theorem text_of_separator_none {k : CoapOption} (hk : k.separator = none) (hhost : k ≠ .uriHost) :
    k = .proxyUri ∨ k = .proxyScheme ∨ ∀ p : CoapPacket, p.text k = ⟨0, 0⟩ := by
  cases k <;> simp [CoapOption.separator, CoapPacket.text] at hk hhost ⊢

theorem switched_frame {k : CoapOption} (hbefore : 0 < (p.text k).len → (p.text k).stop < o.start)
    (hnumber : k.number = o.number)
    (hmem : m' = k.separator.elim m fun c =>
      (coapMergeMultiOption m (p.text k) o.start o.length.toNat c).1) :
    ∃ lo, Frame m m' lo o.stop ∧
      (lo = o.start ∨ ∃ k : CoapOption, k.number = o.number ∧ 0 < (p.text k).len ∧ lo = (p.text k).stop) := by
  cases hsep : k.separator with
  | none =>
    rw [hsep] at hmem
    rw [hmem]
    exact ⟨o.start, Frame.refl m _ _, Or.inl rfl⟩
  | some c =>
    rw [hsep] at hmem
    rw [hmem]
    refine ⟨_, merge_frame hbefore, ?_⟩
    split
    · rename_i hpos
      exact Or.inr ⟨k, hnumber, hpos, rfl⟩
    · exact Or.inl rfl

theorem switched_text {k : CoapOption} (hbefore : 0 < (p.text k).len → (p.text k).stop < o.start)
    (h : applyOption m p o.start o.length k = .ok (p', m')) (hpos : 0 < (p'.text k).len) :
    (p'.text k).stop ≤ o.stop ∧
      ((p'.text k).ptr = o.start ∨ 0 < (p.text k).len ∧ (p'.text k).ptr = (p.text k).ptr) := by
  have htext := applyOption_text h
  cases hsep : k.separator with
  | some c =>
    rw [hsep] at htext
    rw [htext]
    refine ⟨merge_stop hbefore, ?_⟩
    by_cases hold : 0 < (p.text k).len
    · exact Or.inr ⟨hold, by rw [Option.elim, merge_of_pos hold]⟩
    · exact Or.inl (by rw [Option.elim, merge_of_empty (by omega)])
  | none =>
    rw [hsep] at htext
    by_cases hhost : k = .uriHost
    · rw [Option.elim, if_pos hhost] at htext
      rw [htext]
      exact ⟨Nat.le_refl _, Or.inl rfl⟩
    · rw [Option.elim, if_neg hhost] at htext
      rcases text_of_separator_none hsep hhost with rfl | rfl | hzero
      · cases h
      · cases h
      · rw [hzero p'] at hpos
        exact absurd hpos (Nat.lt_irrefl 0)

theorem switched (hp : p.TextsBelow i) (hi : i < o.start)
    (h : switchOption m p o.start o.number o.length = .ok (p', m')) : Switched m p o p' m' := by
  unfold switchOption at h
  cases hk : CoapOption.ofNumber o.number with
  | none =>
    have hne : ∀ k : CoapOption, k.number ≠ o.number := by
      intro k e
      rw [← e, CoapOption.ofNumber_number] at hk
      cases hk
    rw [hk] at h
    dsimp only at h
    split at h
    · cases h
    · cases h
      exact {
        fixed := rfl
        options := rfl
        frame := ⟨o.start, Frame.refl _ _ _, Or.inl rfl⟩
        others := fun k _ => ⟨rfl, fun _ => rfl⟩
        text := fun k e => absurd e (hne k)
        value := fun k e => absurd e (hne k) }
  | some k =>
    have hnumber := CoapOption.number_ofNumber hk
    have hself : ∀ {j : CoapOption}, j.number = o.number → j = k := fun e =>
      CoapOption.number_inj (e.trans hnumber.symm)
    have hbefore : 0 < (p.text k).len → (p.text k).stop < o.start := fun hpos =>
      Nat.lt_of_le_of_lt (hp k hpos) hi
    rw [hk] at h
    dsimp only at h
    have hmem := applyOption_mem h
    have htext := applyOption_text h
    exact {
      fixed := applyOption_fixed h
      options := applyOption_options h
      frame := switched_frame hbefore hnumber hmem
      others := fun j hj => by
        have hne : j ≠ k := fun e => hj (e ▸ hnumber)
        exact ⟨applyOption_text_of_ne h hne, applyOption_value_of_ne h hne⟩
      text := fun j hj hpos => by
        obtain rfl := hself hj
        exact switched_text hbefore h hpos
      value := fun j hj => by
        obtain rfl := hself hj
        exact applyOption_value h hp hi }

end

/-! ## What a round keeps -/

/-- The values of the occurrences of an option. -/
def occurrences (m : Mem) (os : List OptionAt) (k : CoapOption) : List (List U8) :=
  (os.filter fun o => o.number = k.number).map fun o => slice m o.start o.length.toNat

/-- The numbers do not decrease; they may, since deltas are added modulo `2 ^ 16`. -/
def Ordered (os : List OptionAt) : Prop := os.Pairwise fun a b => a.number ≤ b.number

/-- A string ends before the next one, and says what its options say. -/
structure OrderInv (m : Mem) (s : ParseState) (os : List OptionAt) : Prop where
  seen : ∀ k : CoapOption, 0 < (s.packet.text k).len → k.number ≤ s.number
  apart : ∀ j k : CoapOption, j.number < k.number → 0 < (s.packet.text j).len → 0 < (s.packet.text k).len →
    (s.packet.text j).stop ≤ (s.packet.text k).ptr
  value : ∀ k, s.packet.value s.mem k = (occurrences m os k).foldl (absorb k) (CoapPacket.zero.value m k)

/-- What has been read is `os`; what follows, and what stands before `first`, is as it was in `m`. -/
structure ReadInv (m : Mem) (first : Nat) (p : CoapPacket) (s : ParseState) (os : List OptionAt) : Prop where
  first_le : first ≤ s.current
  unread : Frame m s.mem first s.current
  below : s.packet.TextsBelow s.current
  above : ∀ k, 0 < (s.packet.text k).len → first ≤ (s.packet.text k).ptr
  fixed : s.packet.fixed = p.fixed
  options : ∀ n, s.packet.options n ↔ p.options n ∨ ∃ o ∈ os, o.number.toNat = n
  number : ∀ n, (∀ o ∈ os, o.number ≤ n) → s.number ≤ n
  current : ∀ n, first ≤ n → (∀ o ∈ os, o.stop ≤ n) → s.current ≤ n
  ordered : Ordered os → OrderInv m s os

section
variable {m μ : Mem} {first : Nat} {p q : CoapPacket} {s s' : ParseState} {os : List OptionAt} {o : OptionAt}

theorem value_congr {k : CoapOption} (h : ∀ j, (p.text k).ptr ≤ j → j < (p.text k).stop → m j = μ j) :
    p.value m k = p.value μ k := by
  have hslice : slice m (p.text k).ptr (p.text k).len = slice μ (p.text k).ptr (p.text k).len := slice_congr h
  cases k
  case uriHost | uriPath | uriQuery | locationPath | locationQuery | proxyUri | proxyScheme =>
    exact congrArg OptionValue.bytes hslice
  all_goals rfl

theorem occurrences_concat (k : CoapOption) :
    occurrences m (os ++ [o]) k =
      occurrences m os k ++ if o.number = k.number then [slice m o.start o.length.toNat] else [] := by
  unfold occurrences
  rw [List.filter_append, List.map_append]
  split
  · rename_i h
    rw [List.filter_cons_of_pos (by simpa using h)]
    rfl
  · rename_i h
    rw [List.filter_cons_of_neg (by simpa using h)]
    rfl

theorem ReadInv.unread_from (h : ReadInv m first p s os) (j : Nat) (hj : s.current ≤ j) : s.mem j = m j :=
  h.unread j (Or.inr hj)

theorem ReadInv.optionAt_eq (h : ReadInv m first p s os) :
    optionAt s.mem s.current s.number = optionAt m s.current s.number := optionAt_congr h.unread_from

theorem parseOption_ok (h : parseOption s = .ok s') :
    ∃ m', (optionAt s.mem s.current s.number).number.toNat < optionBits ∧
      switchOption s.mem (s.packet.setOption (optionAt s.mem s.current s.number).number.toNat)
        (optionAt s.mem s.current s.number).start (optionAt s.mem s.current s.number).number
        (optionAt s.mem s.current s.number).length = .ok (s'.packet, m') ∧
      s' = ⟨m', s'.packet, (optionAt s.mem s.current s.number).stop, (optionAt s.mem s.current s.number).number⟩ := by
  rw [parseOption_eq] at h
  dsimp only at h
  split at h
  · cases h
  · rename_i hn
    split at h
    · cases h
    · rename_i hswitch
      cases h
      exact ⟨_, Nat.lt_of_not_le hn, hswitch, rfl⟩

theorem setOption_text (n : Nat) (k : CoapOption) : (p.setOption n).text k = p.text k := by cases k <;> rfl

theorem setOption_value (n : Nat) (k : CoapOption) : (p.setOption n).value m k = p.value m k := by cases k <;> rfl

theorem textsBelow_setOption {i : Nat} (h : p.TextsBelow i) (n : Nat) : (p.setOption n).TextsBelow i := by
  intro k
  rw [setOption_text]
  exact h k

theorem ReadInv.switched (h : ReadInv m first p s os) (hs : parseOption s = .ok s')
    (ho : o = optionAt m s.current s.number) :
    s.current < o.start ∧ s'.current = o.stop ∧ s'.number = o.number ∧
      Switched s.mem (s.packet.setOption o.number.toNat) o s'.packet s'.mem := by
  obtain ⟨m', -, hswitch, heq⟩ := parseOption_ok hs
  rw [h.optionAt_eq, ← ho] at hswitch heq
  have hstart : s.current < o.start := ho ▸ lt_optionAt_start m s.current s.number
  rw [heq]
  refine ⟨hstart, rfl, rfl, ?_⟩
  exact Coap.switched (textsBelow_setOption h.below _) hstart hswitch

theorem switched_lo (hd : Switched s.mem (s.packet.setOption o.number.toNat) o q μ)
    (h : ReadInv m first p s os) (hstart : s.current < o.start) :
    ∃ lo, first ≤ lo ∧ Frame s.mem μ lo o.stop ∧
      (lo = o.start ∨ ∃ k : CoapOption, k.number = o.number ∧ 0 < (s.packet.text k).len ∧
        lo = (s.packet.text k).stop) := by
  obtain ⟨lo, hframe, hlo⟩ := hd.frame
  simp only [setOption_text] at hlo
  refine ⟨lo, ?_, hframe, hlo⟩
  rcases hlo with rfl | ⟨k, -, hpos, rfl⟩
  · exact Nat.le_trans h.first_le (Nat.le_of_lt hstart)
  · exact Nat.le_trans (h.above k hpos) (Nat.le_add_right _ _)

theorem switched_text_cases (hd : Switched s.mem (s.packet.setOption o.number.toNat) o q μ) (k : CoapOption)
    (hpos : 0 < (q.text k).len) :
    (k.number ≠ o.number ∧ q.text k = s.packet.text k) ∨
      (k.number = o.number ∧ (q.text k).stop ≤ o.stop ∧ ((q.text k).ptr = o.start ∨
        0 < (s.packet.text k).len ∧ (q.text k).ptr = (s.packet.text k).ptr)) := by
  by_cases hk : k.number = o.number
  · have htext := hd.text k hk hpos
    rw [setOption_text] at htext
    exact Or.inr ⟨hk, htext⟩
  · have hsame := (hd.others k hk).1
    rw [setOption_text] at hsame
    exact Or.inl ⟨hk, hsame⟩

theorem OrderInv.untouched {k : CoapOption} (h : ReadInv m first p s os)
    (hd : Switched s.mem (s.packet.setOption o.number.toNat) o q μ) (hold : OrderInv m s os)
    (hseen : ∀ k : CoapOption, 0 < (s.packet.text k).len → k.number ≤ o.number) (hstart : s.current < o.start)
    (hk : k.number ≠ o.number) : s.packet.value s.mem k = s.packet.value μ k := by
  obtain ⟨lo, -, hframe, hlo⟩ := switched_lo hd h hstart
  apply value_congr
  intro i hi hstop
  have hpos : 0 < (s.packet.text k).len := by
    unfold Text.stop at hstop
    omega
  have hle : (s.packet.text k).stop ≤ lo := by
    rcases hlo with rfl | ⟨j, hj, hjpos, rfl⟩
    · exact Nat.le_trans (h.below k hpos) (Nat.le_of_lt hstart)
    · have hlt : k.number < j.number := by
        have hkle := hseen k hpos
        rw [hj]
        bv_omega
      exact Nat.le_trans (hold.apart k j hlt hpos hjpos) (Nat.le_add_right _ _)
  exact (hframe i (Or.inl (Nat.lt_of_lt_of_le hstop hle))).symm

theorem OrderInv.round (h : ReadInv m first p s os) (hs : parseOption s = .ok s')
    (ho : o = optionAt m s.current s.number) (hord : Ordered (os ++ [o])) : OrderInv m s' (os ++ [o]) := by
  obtain ⟨hstart, hcurrent, hnumber, hd⟩ := h.switched hs ho
  obtain ⟨hos, -, hlast⟩ := List.pairwise_append.mp hord
  have hold := h.ordered hos
  have hle : s.number ≤ o.number := h.number _ fun a ha => hlast a ha o (List.mem_singleton_self o)
  have hseen : ∀ k : CoapOption, 0 < (s.packet.text k).len → k.number ≤ o.number :=
    fun k hpos => BitVec.le_trans (hold.seen k hpos) hle
  exact {
    seen := fun k hpos => by
      rw [hnumber]
      rcases switched_text_cases hd k hpos with ⟨-, hsame⟩ | ⟨hk, -⟩
      · rw [hsame] at hpos
        exact hseen k hpos
      · exact BitVec.le_of_eq hk
    apart := fun j k hjk hj hk => by
      rcases switched_text_cases hd k hk with ⟨-, hsame⟩ | ⟨hko, -, hptr⟩
      · rw [hsame] at hk ⊢
        rcases switched_text_cases hd j hj with ⟨-, hsame'⟩ | ⟨hjo, -⟩
        · rw [hsame'] at hj ⊢
          exact hold.apart j k hjk hj hk
        · have hkle := hseen k hk
          rw [hjo] at hjk
          exact absurd hjk (BitVec.not_lt.mpr hkle)
      · rcases switched_text_cases hd j hj with ⟨-, hsame'⟩ | ⟨hjo, -⟩
        · rw [hsame'] at hj ⊢
          rcases hptr with hptr | ⟨hpos, hptr⟩
          · rw [hptr]
            exact Nat.le_trans (h.below j hj) (Nat.le_of_lt hstart)
          · rw [hptr]
            exact hold.apart j k hjk hj hpos
        · rw [hjo, hko] at hjk
          exact absurd hjk (BitVec.lt_irrefl _)
    value := fun k => by
      rw [occurrences_concat, List.foldl_append, ← hold.value k]
      by_cases hk : k.number = o.number
      · have hslice : slice s.mem o.start o.length.toNat = slice m o.start o.length.toNat :=
          slice_congr fun j hj _ => h.unread_from j (by omega)
        rw [if_pos hk.symm, hd.value k hk, hslice, setOption_value]
        rfl
      · rw [if_neg (Ne.symm hk), (hd.others k hk).2, setOption_value]
        exact (OrderInv.untouched h hd hold hseen hstart hk).symm }

theorem ReadInv.round (h : ReadInv m first p s os) (hs : parseOption s = .ok s')
    (ho : o = optionAt m s.current s.number) : ReadInv m first p s' (os ++ [o]) := by
  obtain ⟨hstart, hcurrent, hnumber, hd⟩ := h.switched hs ho
  obtain ⟨lo, hfirst, hframe, -⟩ := switched_lo hd h hstart
  have hstop : s.current ≤ o.stop := Nat.le_trans (Nat.le_of_lt hstart) (Nat.le_add_right _ _)
  exact {
    first_le := by
      rw [hcurrent]
      exact Nat.le_trans h.first_le hstop
    unread := by
      rw [hcurrent]
      exact (h.unread.mono (Nat.le_refl _) hstop).trans (hframe.mono hfirst (Nat.le_refl _))
    below := fun k hpos => by
      rw [hcurrent]
      rcases switched_text_cases hd k hpos with ⟨-, hsame⟩ | ⟨-, hle, -⟩
      · rw [hsame] at hpos ⊢
        exact Nat.le_trans (h.below k hpos) hstop
      · exact hle
    above := fun k hpos => by
      rcases switched_text_cases hd k hpos with ⟨-, hsame⟩ | ⟨-, -, hptr | ⟨hpos', hptr⟩⟩
      · rw [hsame] at hpos ⊢
        exact h.above k hpos
      · rw [hptr]
        exact Nat.le_trans h.first_le (Nat.le_of_lt hstart)
      · rw [hptr]
        exact h.above k hpos'
    fixed := hd.fixed.trans h.fixed
    options := fun n => by
      have hset : s'.packet.options n ↔ n = o.number.toNat ∨ s.packet.options n := by
        rw [hd.options]
        show Function.update s.packet.options o.number.toNat true n = true ↔ _
        by_cases e : n = o.number.toNat
        · simp [e]
        · simp [e]
      rw [hset, h.options]
      simp only [List.mem_append, List.mem_singleton]
      constructor
      · rintro (rfl | hp | ⟨a, ha, rfl⟩)
        · exact Or.inr ⟨o, Or.inr rfl, rfl⟩
        · exact Or.inl hp
        · exact Or.inr ⟨a, Or.inl ha, rfl⟩
      · rintro (hp | ⟨a, ha | rfl, rfl⟩)
        · exact Or.inr (Or.inl hp)
        · exact Or.inr (Or.inr ⟨a, ha, rfl⟩)
        · exact Or.inl rfl
    number := fun n hn => by
      rw [hnumber]
      exact hn o (List.mem_append_right _ (List.mem_singleton_self o))
    current := fun n _ hn => by
      rw [hcurrent]
      exact hn o (List.mem_append_right _ (List.mem_singleton_self o))
    ordered := OrderInv.round h hs ho }

/-! ## All rounds -/

theorem switchOption_congr {start : Nat} {number length : U16} (hm : ∀ j, start ≤ j → m j = μ j) :
    (switchOption m p start number length).map Prod.fst = (switchOption μ p start number length).map Prod.fst := by
  unfold switchOption
  cases CoapOption.ofNumber number with
  | none =>
    dsimp only
    split <;> rfl
  | some k => exact applyOption_congr hm

theorem readOptions_cons {stop : Nat} {payload : Option Nat} {rest : List OptionAt} (h : ReadInv m first p s os)
    (ho : o = optionAt m s.current s.number) :
    readOptions m stop payload s.packet (o :: rest) =
      match parseOption s with
      | .error e => e.verdict
      | .ok s' => readOptions m stop payload s'.packet rest := by
  have hstart : s.current < o.start := ho ▸ lt_optionAt_start m s.current s.number
  have hswitch : (switchOption s.mem (s.packet.setOption o.number.toNat) o.start o.number o.length).map Prod.fst =
      (switchOption m (s.packet.setOption o.number.toNat) o.start o.number o.length).map Prod.fst := by
    apply switchOption_congr
    intro j hj
    exact h.unread_from j (by omega)
  rw [readOptions, parseOption_eq, h.optionAt_eq, ← ho]
  dsimp only
  by_cases hn : optionBits ≤ o.number.toNat
  · rw [if_pos hn, if_pos hn]
    rfl
  · rw [if_neg hn, if_neg hn]
    cases hs : switchOption s.mem (s.packet.setOption o.number.toNat) o.start o.number o.length with
    | error e =>
      cases hm : switchOption m (s.packet.setOption o.number.toNat) o.start o.number o.length with
      | error e' =>
        rw [hs, hm] at hswitch
        cases hswitch
        rfl
      | ok r =>
        rw [hs, hm] at hswitch
        cases hswitch
    | ok r =>
      cases hm : switchOption m (s.packet.setOption o.number.toNat) o.start o.number o.length with
      | error e' =>
        rw [hs, hm] at hswitch
        cases hswitch
      | ok r' =>
        rw [hs, hm] at hswitch
        have hfst : r.1 = r'.1 := Except.ok.inj hswitch
        show readOptions m stop payload r'.1 rest = readOptions m stop payload r.1 rest
        rw [hfst]

theorem parseOptions_verdict (h : ReadInv m first p s os) (stop fuel : Nat) :
    (parseOptions stop fuel s).verdict =
      readOptions m stop (scan m stop fuel s.current s.number).2 s.packet (scan m stop fuel s.current s.number).1 := by
  induction fuel generalizing s os with
  | zero => rfl
  | succ fuel ih =>
    by_cases hstop : s.current < stop
    · have hbyte := h.unread_from s.current (Nat.le_refl _)
      rw [parseOptions, if_pos hstop, hbyte]
      by_cases hmarker : m s.current &&& 0xF0 = 0xF0
      · rw [if_pos hmarker, scan_marker hstop hmarker]
        rfl
      · rw [if_neg hmarker, scan_succ hstop hmarker]
        dsimp only
        rw [readOptions_cons h rfl]
        cases hs : parseOption s with
        | error e => rfl
        | ok s' =>
          obtain ⟨-, hcurrent, hnumber, -⟩ := h.switched hs rfl
          dsimp only
          rw [ih (h.round hs rfl), hcurrent, hnumber]
    · rw [parseOptions, if_neg hstop, scan_stop (Nat.le_of_not_lt hstop)]
      rfl

/-- How an accepted datagram ends: at its last byte or with its payload. -/
def Finish (stop : Nat) (payload : Option Nat) (s : ParseState) (q : CoapPacket) (m' : Mem) : Prop :=
  match payload with
  | none => q = s.packet ∧ m' = s.mem
  | some i => i = s.current ∧ i < stop ∧ parsePayload stop s = .returned none q m'

theorem parseOption_error {e : Option CoapError} {m' : Mem} (h : parseOption s = .error (.returned e q m')) :
    m' = s.mem ∧ e ≠ none := by
  rw [parseOption_eq] at h
  dsimp only at h
  split at h
  · cases h
  · split at h
    · cases h
      exact ⟨rfl, Option.some_ne_none _⟩
    · cases h

theorem parseOptions_returned {stop fuel : Nat} {e : Option CoapError} {m' : Mem} (h : ReadInv m first p s os)
    (hr : parseOptions stop fuel s = .returned e q m') :
    ∃ s' read, ReadInv m first p s' (os ++ read) ∧ read <+: (scan m stop fuel s.current s.number).1 ∧
      (m' = s'.mem ∧ e ≠ none ∨
        read = (scan m stop fuel s.current s.number).1 ∧
          Finish stop (scan m stop fuel s.current s.number).2 s' q m') := by
  induction fuel generalizing s os with
  | zero =>
    cases hr
    exact ⟨s, [], by rwa [List.append_nil], List.nil_prefix, Or.inr ⟨rfl, rfl, rfl⟩⟩
  | succ fuel ih =>
    by_cases hstop : s.current < stop
    · rw [parseOptions, if_pos hstop, h.unread_from s.current (Nat.le_refl _)] at hr
      by_cases hmarker : m s.current &&& 0xF0 = 0xF0
      · rw [if_pos hmarker] at hr
        rw [scan_marker hstop hmarker]
        have he : e = none := by
          cases hr
          rfl
        exact ⟨s, [], by rwa [List.append_nil], List.nil_prefix, Or.inr ⟨rfl, rfl, hstop, he ▸ hr⟩⟩
      · rw [if_neg hmarker] at hr
        rw [scan_succ hstop hmarker]
        cases hs : parseOption s with
        | error e' =>
          rw [hs] at hr
          dsimp only at hr
          rw [hr] at hs
          exact ⟨s, [], by rwa [List.append_nil], List.nil_prefix, Or.inl (parseOption_error hs)⟩
        | ok s' =>
          obtain ⟨-, hcurrent, hnumber, -⟩ := h.switched hs rfl
          rw [hs] at hr
          obtain ⟨t, read, ht, hread, hend⟩ := ih (h.round hs rfl) hr
          rw [List.append_assoc] at ht
          rw [hcurrent, hnumber] at hread hend
          refine ⟨t, _, ht, (List.prefix_cons_inj _).mpr hread, ?_⟩
          rcases hend with hend | ⟨rfl, hend⟩
          · exact Or.inl hend
          · exact Or.inr ⟨rfl, hend⟩
    · rw [parseOptions, if_neg hstop] at hr
      rw [scan_stop (Nat.le_of_not_lt hstop)]
      cases hr
      exact ⟨s, [], by rwa [List.append_nil], List.nil_prefix, Or.inr ⟨rfl, rfl, rfl⟩⟩

end

end Unet4Cooja.Coap
