import Unet4Cooja.Coap.ParseRead

/-!
# Datagrams that are parsed

* `parse_verdict` : the parser returns what it would return if it only read;
* `parse_frame`, `parse_confined` : where it writes, and where the packet points;
* `parse_len_lt` : no length of an accepted packet wraps;
* `received`, `parse_message`, `parse_reads` : what the packet of an accepted datagram says, in the memory that
  the parser leaves behind.
-/

namespace Unet4Cooja.Coap
open Lib

/-- Where the options start. -/
def optionsStart (m : Mem) (data : Nat) : Nat := data + coapHeaderLen + (parseHeader m data).tokenLen.toNat

def received (m : Mem) (data : Nat) (dataLen : U16) : Message where
  type := (parseHeader m data).type
  code := (parseHeader m data).code
  mid := (parseHeader m data).mid
  token := slice m (data + coapHeaderLen) (parseHeader m data).tokenLen.toNat
  options := fun k =>
    match occurrences m (datagramOptions m data dataLen).1 k with
    | [] => none
    | bytes :: rest => some ((bytes :: rest).foldl (absorb k) (CoapPacket.zero.value m k))
  payload := (datagramOptions m data dataLen).2.elim [] fun i =>
    slice m (i + 1) (min restMaxChunkSize (data + dataLen.toNat - (i + 1)))

section
variable {m m' : Mem} {data : Nat} {dataLen : U16} {e : Option CoapError} {q : CoapPacket}

theorem readInv_start (m : Mem) (data : Nat) :
    ReadInv m (optionsStart m data) (parseToken m data) ⟨m, parseToken m data, optionsStart m data, 0⟩ [] where
  first_le := Nat.le_refl _
  unread := Frame.refl _ _ _
  below := fun k => by
    intro hpos
    cases k <;> exact absurd hpos (Nat.lt_irrefl 0)
  above := fun k hpos => by cases k <;> exact absurd hpos (Nat.lt_irrefl 0)
  fixed := rfl
  options := by simp
  number := fun n _ => Nat.zero_le n.toNat
  current := fun _ hn _ => hn
  ordered := fun _ => {
    seen := fun k hpos => by cases k <;> exact absurd hpos (Nat.lt_irrefl 0)
    apart := fun j k _ hpos => by cases j <;> exact absurd hpos (Nat.lt_irrefl 0)
    value := fun k => by cases k <;> rfl }

/-- The parts that the parser merges in the datagram do not disturb what it still has to read: it returns the
status and the packet that it would return if it did not write. -/
theorem parse_verdict (m : Mem) (data : Nat) (dataLen : U16) :
    (coapParseMessage m data dataLen).verdict = readMessage m data dataLen := by
  unfold coapParseMessage readMessage
  dsimp only
  split
  · rfl
  · exact parseOptions_verdict (readInv_start m data) _ _

theorem parse_returned (hr : coapParseMessage m data dataLen = .returned e q m') :
    (m' = m ∧ e = some versionError) ∨
      ∃ s read, ReadInv m (optionsStart m data) (parseToken m data) s read ∧
        read <+: (datagramOptions m data dataLen).1 ∧
        (m' = s.mem ∧ e ≠ none ∨ read = (datagramOptions m data dataLen).1 ∧
          Finish (data + dataLen.toNat) (datagramOptions m data dataLen).2 s q m') := by
  unfold coapParseMessage at hr
  dsimp only at hr
  split at hr
  · cases hr
    exact Or.inl ⟨rfl, rfl⟩
  · exact Or.inr (parseOptions_returned (readInv_start m data) hr)

theorem Finish.packet {stop : Nat} {payload : Option Nat} {s : ParseState} (h : Finish stop payload s q m') :
    q.type = s.packet.type ∧ q.code = s.packet.code ∧ q.mid = s.packet.mid ∧ q.tokenLen = s.packet.tokenLen ∧
      q.token = s.packet.token ∧ q.options = s.packet.options ∧ (∀ k, q.value m' k = s.packet.value m' k) ∧
      (∀ j < s.current, m' j = s.mem j) := by
  cases payload with
  | none =>
    obtain ⟨rfl, rfl⟩ := h
    exact ⟨rfl, rfl, rfl, rfl, rfl, rfl, fun _ => rfl, fun _ _ => rfl⟩
  | some i =>
    obtain ⟨-, -, hpayload⟩ := h
    cases hpayload
    refine ⟨rfl, rfl, rfl, rfl, rfl, rfl, fun k => ?_, fun j hj => Function.update_of_ne (by omega) _ _⟩
    cases k <;> rfl

theorem Finish.frame {stop : Nat} {payload : Option Nat} {s : ParseState} (h : Finish stop payload s q m') :
    Frame s.mem m' s.current (stop + 1) ∧
      (m' stop = s.mem stop ∨ ∃ i, payload = some i ∧ stop - (i + 1) ≤ restMaxChunkSize ∧ m' stop = 0) := by
  cases payload with
  | none =>
    obtain ⟨-, rfl⟩ := h
    exact ⟨Frame.refl _ _ _, Or.inl rfl⟩
  | some i =>
    obtain ⟨rfl, hlt, hpayload⟩ := h
    cases hpayload
    refine ⟨(frame_update s.mem _ 0).mono (by omega) (by omega), ?_⟩
    by_cases hlen : stop - (s.current + 1) ≤ restMaxChunkSize
    · refine Or.inr ⟨s.current, rfl, hlen, ?_⟩
      rw [Nat.min_eq_right hlen, show s.current + 1 + (stop - (s.current + 1)) = stop by omega,
        Function.update_self]
    · refine Or.inl (Function.update_of_ne ?_ _ _)
      rw [Nat.min_eq_left (by omega)]
      omega

theorem Finish.text_eq {stop : Nat} {payload : Option Nat} {s : ParseState} (h : Finish stop payload s q m')
    (k : CoapOption) : q.text k = s.packet.text k := by
  cases payload with
  | none =>
    obtain ⟨rfl, -⟩ := h
    rfl
  | some i =>
    obtain ⟨-, -, hpayload⟩ := h
    cases hpayload
    cases k <;> rfl

theorem Finish.payload_some {stop i : Nat} {s : ParseState} (h : Finish stop (some i) s q m') :
    i = s.current ∧ i < stop ∧ q.payload = some (i + 1) ∧
      q.payloadLen.toNat = min restMaxChunkSize (stop - (i + 1)) := by
  obtain ⟨rfl, hlt, hpayload⟩ := h
  cases hpayload
  refine ⟨rfl, hlt, rfl, ?_⟩
  show (BitVec.ofNat 16 _).toNat = _
  rw [BitVec.toNat_ofNat]
  exact Nat.mod_eq_of_lt (Nat.lt_of_le_of_lt (Nat.min_le_left _ _) (by decide))

theorem Finish.payload_none {stop : Nat} {s : ParseState} {os : List OptionAt} (h : Finish stop none s q m')
    (hs : ReadInv m (optionsStart m data) (parseToken m data) s os) : q.payload = none ∧ q.payloadLen = 0 := by
  obtain ⟨rfl, -⟩ := h
  have hfixed := congrArg (fun x => x.2.2.2.2.2.2) hs.fixed
  exact Prod.mk.inj hfixed

theorem Finish.payloadLen_le {stop : Nat} {payload : Option Nat} {s : ParseState} {os : List OptionAt}
    (h : Finish stop payload s q m') (hs : ReadInv m (optionsStart m data) (parseToken m data) s os) :
    q.payloadLen.toNat ≤ restMaxChunkSize := by
  cases payload with
  | none =>
    rw [(h.payload_none hs).2]
    exact Nat.zero_le _
  | some i =>
    obtain ⟨-, -, -, hlen⟩ := h.payload_some
    rw [hlen]
    exact Nat.min_le_left _ _

theorem Finish.payload {stop : Nat} {payload : Option Nat} {s : ParseState} {os : List OptionAt}
    (h : Finish stop payload s q m') (hs : ReadInv m (optionsStart m data) (parseToken m data) s os) :
    (q.payload.elim [] fun i => slice m' i q.payloadLen.toNat) =
      payload.elim [] fun i => slice m (i + 1) (min restMaxChunkSize (stop - (i + 1))) := by
  cases payload with
  | none =>
    rw [(h.payload_none hs).1]
    rfl
  | some i =>
    obtain ⟨rfl, hlt, hptr, hlen⟩ := h.payload_some
    obtain ⟨-, -, hpayload⟩ := h
    rw [hptr]
    show slice m' (s.current + 1) q.payloadLen.toNat = slice m (s.current + 1) _
    rw [hlen]
    cases hpayload
    apply slice_congr
    intro j hj hend
    rw [Function.update_of_ne (by omega)]
    exact hs.unread_from j (by omega)

/-- `NO_ERROR`. -/
def ParseEnd.accepts : ParseEnd → Bool
  | .returned none _ _ => true
  | _ => false

theorem accepts_iff {r : ParseEnd} : r.accepts ↔ ∃ q m', r = .returned none q m' := by
  constructor
  · intro h
    unfold ParseEnd.accepts at h
    split at h
    · exact ⟨_, _, rfl⟩
    · cases h
  · rintro ⟨q, m', rfl⟩
    rfl

theorem frame_eq_of_empty {i : Nat} (h : Frame m m' i i) : m' = m := by
  funext k
  exact h k (Nat.lt_or_ge k i)

/-- If no option claims more bytes than the datagram has, the parser writes behind the token and up to the
byte after the datagram. That byte is cleared if the payload is not cut. -/
theorem parse_frame (hr : coapParseMessage m data dataLen = .returned e q m')
    (hfit : ∀ o ∈ (datagramOptions m data dataLen).1, o.stop ≤ data + dataLen.toNat) :
    Frame m m' (optionsStart m data) (data + dataLen.toNat + 1) ∧
      (m' (data + dataLen.toNat) = m (data + dataLen.toNat) ∨
        ∃ i, (datagramOptions m data dataLen).2 = some i ∧
          data + dataLen.toNat - (i + 1) ≤ restMaxChunkSize ∧ m' (data + dataLen.toNat) = 0) := by
  rcases parse_returned hr with ⟨rfl, -⟩ | ⟨s, read, h, hread, hend⟩
  · exact ⟨Frame.refl _ _ _, Or.inl rfl⟩
  · have hfit' : ∀ o ∈ read, o.stop ≤ data + dataLen.toNat := fun o ho => hfit o (hread.subset ho)
    by_cases hfirst : optionsStart m data ≤ data + dataLen.toNat
    · have hcurrent := h.current _ hfirst hfit'
      have hunread : s.mem (data + dataLen.toNat) = m (data + dataLen.toNat) := h.unread_from _ hcurrent
      have hbefore := h.unread.mono (Nat.le_refl _) (Nat.le_succ_of_le hcurrent)
      rcases hend with ⟨rfl, -⟩ | ⟨-, hend⟩
      · exact ⟨hbefore, Or.inl hunread⟩
      · obtain ⟨hframe, hlast⟩ := hend.frame
        refine ⟨hbefore.trans (hframe.mono h.first_le (Nat.le_refl _)), ?_⟩
        rwa [hunread] at hlast
    · have hnone : datagramOptions m data dataLen = ([], none) := scan_stop (Nat.le_of_not_le hfirst) _
      rw [hnone] at hread hend
      obtain rfl := List.prefix_nil.mp hread
      have hempty : s.current ≤ optionsStart m data := h.current _ (Nat.le_refl _) fun o ho => nomatch ho
      have hsame : s.mem = m := frame_eq_of_empty (h.unread.mono (Nat.le_refl _) hempty)
      rcases hend with ⟨rfl, -⟩ | ⟨-, -, rfl⟩
      · rw [hsame]
        exact ⟨Frame.refl _ _ _, Or.inl rfl⟩
      · rw [hsame]
        exact ⟨Frame.refl _ _ _, Or.inl rfl⟩

theorem occurrences_ne_nil {os : List OptionAt} {k : CoapOption} :
    occurrences m os k ≠ [] ↔ ∃ o ∈ os, o.number.toNat = k.number.toNat := by
  unfold occurrences
  rw [ne_eq, List.map_eq_nil_iff, List.filter_eq_nil_iff]
  simp [BitVec.toNat_inj]

theorem payloadLen_le (hr : coapParseMessage m data dataLen = .returned none q m') :
    q.payloadLen.toNat ≤ restMaxChunkSize := by
  rcases parse_returned hr with ⟨-, he⟩ | ⟨s, read, h, -, ⟨-, he⟩ | ⟨rfl, hend⟩⟩
  · exact absurd he.symm (Option.some_ne_none _)
  · exact absurd rfl he
  · exact hend.payloadLen_le h

/-- The string options of an accepted datagram say in the buffer what their parts said in the datagram. -/
theorem parse_message (hr : coapParseMessage m data dataLen = .returned none q m')
    (hord : Ordered (datagramOptions m data dataLen).1) : q.message m' = received m data dataLen := by
  rcases parse_returned hr with ⟨-, he⟩ | ⟨s, read, h, -, ⟨-, he⟩ | ⟨rfl, hend⟩⟩
  · exact absurd he.symm (Option.some_ne_none _)
  · exact absurd rfl he
  · obtain ⟨htype, hcode, hmid, htokenLen, htoken, hoptions, hvalue, hmem⟩ := hend.packet
    have hfixed := h.fixed
    unfold CoapPacket.fixed at hfixed
    simp only [Prod.mk.injEq] at hfixed
    obtain ⟨-, ftype, fcode, fmid, ftokenLen, ftoken, -, -⟩ := hfixed
    have hinv := h.ordered hord
    have hvalues : ∀ k, q.value m' k =
        (occurrences m (datagramOptions m data dataLen).1 k).foldl (absorb k) (CoapPacket.zero.value m k) := by
      intro k
      rw [hvalue, ← hinv.value k]
      apply value_congr
      intro j _ hj
      have hpos : 0 < (s.packet.text k).len := by
        unfold Text.stop at hj
        omega
      exact hmem j (Nat.lt_of_lt_of_le hj (h.below k hpos))
    have hset : ∀ k, q.isOption k = true ↔ occurrences m (datagramOptions m data dataLen).1 k ≠ [] := by
      intro k
      rw [CoapPacket.isOption, hoptions, h.options, occurrences_ne_nil]
      exact or_iff_right (Bool.false_ne_true : ¬ (parseToken m data).options k.number.toNat = true)
    unfold CoapPacket.message received
    congr 1
    · rw [htype, ftype]
      rfl
    · rw [hcode, fcode]
      rfl
    · rw [hmid, fmid]
      rfl
    · rw [htoken, htokenLen, ftoken, ftokenLen]
      have hstored := slice_store (fun _ => 0) 0
        (slice m (data + coapHeaderLen) (parseHeader m data).tokenLen.toNat)
      rwa [length_slice] at hstored
    · funext k
      cases hk : occurrences m (datagramOptions m data dataLen).1 k with
      | nil =>
        have hnot : ¬ q.isOption k = true := fun e => (hset k).mp e hk
        rw [if_neg hnot]
      | cons bytes rest =>
        have hyes : q.isOption k = true := (hset k).mpr (hk ▸ List.cons_ne_nil _ _)
        rw [if_pos hyes, hvalues k, hk]
    · exact hend.payload h

/-- Merging in the datagram does not change what the parser returns, and the strings of an accepted datagram say
where they are merged what their parts said. -/
theorem parse_reads (m : Mem) (data : Nat) (dataLen : U16) :
    (coapParseMessage m data dataLen).verdict = readMessage m data dataLen ∧
      ∀ q m', coapParseMessage m data dataLen = .returned none q m' → Ordered (datagramOptions m data dataLen).1 →
        q.message m' = received m data dataLen :=
  ⟨parse_verdict m data dataLen, fun _ _ hr hord => parse_message hr hord⟩

/-- The strings and the payload of a packet are between two places. -/
structure CoapPacket.Confined (p : CoapPacket) (lo hi : Nat) : Prop where
  text : ∀ k, 0 < (p.text k).len → lo ≤ (p.text k).ptr ∧ (p.text k).stop ≤ hi
  payload : ∀ i, p.payload = some i → lo ≤ i ∧ i + p.payloadLen.toNat ≤ hi

theorem Finish.confined {stop : Nat} {payload : Option Nat} {s : ParseState} {os : List OptionAt}
    (h : Finish stop payload s q m') (hs : ReadInv m (optionsStart m data) (parseToken m data) s os)
    (hcurrent : s.current ≤ stop) : q.Confined (optionsStart m data) stop := by
  constructor
  · intro k hk
    rw [h.text_eq k] at hk ⊢
    exact ⟨hs.above k hk, Nat.le_trans (hs.below k hk) hcurrent⟩
  · intro j hj
    cases payload with
    | none =>
      rw [(h.payload_none hs).1] at hj
      cases hj
    | some i =>
      obtain ⟨rfl, hlt, hpayload, hlen⟩ := h.payload_some
      obtain rfl := Option.some.inj (hpayload.symm.trans hj)
      have hfirst := hs.first_le
      omega

/-- An accepted datagram whose options do not claim more bytes than it has: its packet points into the datagram,
behind the token, and only there and in the byte after the datagram something has been written. -/
theorem parse_confined (hr : coapParseMessage m data dataLen = .returned none q m')
    (hfit : ∀ o ∈ (datagramOptions m data dataLen).1, o.stop ≤ data + dataLen.toNat) :
    q.Confined (optionsStart m data) (data + dataLen.toNat) ∧
      Frame m m' (optionsStart m data) (data + dataLen.toNat + 1) ∧
      (m' (data + dataLen.toNat) = m (data + dataLen.toNat) ∨
        ∃ i, q.payload = some i ∧ i + q.payloadLen.toNat = data + dataLen.toNat ∧ m' (data + dataLen.toNat) = 0) := by
  obtain ⟨hframe, hbyte⟩ := parse_frame hr hfit
  rcases parse_returned hr with ⟨-, he⟩ | ⟨s, read, h, -, ⟨-, he⟩ | ⟨rfl, hend⟩⟩
  · exact absurd he.symm (Option.some_ne_none _)
  · exact absurd rfl he
  · refine ⟨?_, hframe, ?_⟩
    · by_cases hfirst : optionsStart m data ≤ data + dataLen.toNat
      · exact hend.confined h (h.current _ hfirst hfit)
      · -- The token alone is longer than the datagram.
        have hnone : datagramOptions m data dataLen = ([], none) := scan_stop (Nat.le_of_not_le hfirst) _
        rw [hnone] at h hend
        have hcurrent : s.current ≤ optionsStart m data := h.current _ (Nat.le_refl _) (by simp)
        constructor
        · intro k hk
          rw [hend.text_eq k] at hk
          have hbelow := h.below k hk
          have habove := h.above k hk
          unfold Text.stop at hbelow
          omega
        · intro i hi
          rw [(hend.payload_none h).1] at hi
          cases hi
    · rcases hbyte with hsame | ⟨i, hpayload, hlen, hzero⟩
      · exact Or.inl hsame
      · rw [hpayload] at hend
        obtain ⟨-, hlt, hptr, hqlen⟩ := hend.payload_some
        refine Or.inr ⟨i + 1, hptr, ?_, hzero⟩
        rw [hqlen, Nat.min_eq_right hlen]
        omega

theorem parseHeader_tokenLen_le (m : Mem) (data : Nat) : (parseHeader m data).tokenLen.toNat ≤ 8 := by
  show (if 8 < 0x0F &&& m data then (8 : U8) else 0x0F &&& m data).toNat ≤ 8
  split
  · exact Nat.le_refl _
  · bv_omega

/-- The lengths stay far below the 20 bits of a `size_t`, also where an option claims more bytes than the
datagram has. -/
theorem parse_len_lt (hr : coapParseMessage m data dataLen = .returned none q m') (k : CoapOption) :
    (q.text k).len < 0x100000 := by
  rcases parse_returned hr with ⟨-, he⟩ | ⟨s, read, h, -, ⟨-, he⟩ | ⟨rfl, hend⟩⟩
  · exact absurd he.symm (Option.some_ne_none _)
  · exact absurd rfl he
  · have hlen := dataLen.isLt
    have htoken := parseHeader_tokenLen_le m data
    have hfirst : optionsStart m data ≤ data + dataLen.toNat + 0x10004 := by
      unfold optionsStart coapHeaderLen
      omega
    have hcurrent := h.current _ hfirst (scan_stop_le dataLen.toNat)
    rw [hend.text_eq k]
    by_cases hpos : 0 < (s.packet.text k).len
    · have hbelow := h.below k hpos
      have habove := h.above k hpos
      unfold Text.stop at hbelow
      unfold optionsStart at habove
      omega
    · omega

end

/-- `GET /a/b` with a token of one byte and a payload of two. -/
def pathDatagram : List U8 := [0x41, 1, 0, 7, 0x55, 0xB1, 0x61, 0x01, 0x62, 0xFF, 1, 2]

theorem pathDatagram_ordered : Ordered (datagramOptions (store (fun _ => 0) 0 pathDatagram) 0 12).1 := by
  unfold Ordered
  decide

theorem pathDatagram_fits : ∀ o ∈ (datagramOptions (store (fun _ => 0) 0 pathDatagram) 0 12).1, o.stop ≤ 0 + 12 := by
  decide

theorem pathDatagram_accepted :
    ∃ q m', coapParseMessage (store (fun _ => 0) 0 pathDatagram) 0 12 = .returned none q m' :=
  accepts_iff.mp (by decide +kernel)

/-- The two parts of the path say `a/b`. -/
theorem parse_reads_path :
    ∃ q m', coapParseMessage (store (fun _ => 0) 0 pathDatagram) 0 12 = .returned none q m' ∧
      q.message m' = received (store (fun _ => 0) 0 pathDatagram) 0 12 ∧
      (q.message m').options .uriPath = some (.bytes [0x61, 0x2F, 0x62]) ∧ (q.message m').payload = [1, 2] := by
  obtain ⟨q, m', hr⟩ := pathDatagram_accepted
  have hmessage := (parse_reads (store (fun _ => 0) 0 pathDatagram) 0 12).2 q m' hr pathDatagram_ordered
  have hpath : (received (store (fun _ => 0) 0 pathDatagram) 0 12).options .uriPath =
      some (.bytes [0x61, 0x2F, 0x62]) := by decide +kernel
  have hpayload : (received (store (fun _ => 0) 0 pathDatagram) 0 12).payload = [1, 2] := by decide +kernel
  refine ⟨q, m', hr, hmessage, ?_, ?_⟩
  · rw [hmessage, hpath]
  · rw [hmessage, hpayload]

theorem parse_confined_path :
    ∃ q m', coapParseMessage (store (fun _ => 0) 0 pathDatagram) 0 12 = .returned none q m' ∧ q.Confined 5 12 := by
  obtain ⟨q, m', hr⟩ := pathDatagram_accepted
  have hstart : optionsStart (store (fun _ => 0) 0 pathDatagram) 0 = 5 := by decide +kernel
  have hconfined := (parse_confined hr pathDatagram_fits).1
  rw [hstart] at hconfined
  exact ⟨q, m', hr, hconfined⟩

end Unet4Cooja.Coap
