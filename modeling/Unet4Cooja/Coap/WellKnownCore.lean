import Unet4Cooja.Coap.Block1
import Unet4Cooja.Lib.Window

/-!
# The list of resources (`er-coap-res-well-known-core.c`)

A handler writes one chunk of a text that it does not build as a whole.

* `addChar`, `addString`, `addResource`, `wellKnownCore` : the macros and the loop; `.error` is `break`;
* `linkFormat` : the text;
* `Chunk`, `Full` : what is in the buffer when a part of the text has been passed, or the loop has been left;
  `addResource_ok`, `addResource_error` : one resource;
* `wellKnownCoreGetHandler`, `wellKnownCore_chunk` : the chunk, and whether there is more;
* `wellKnownCore_inside_iff` : `sprintf` is not told how much room there is.

The text is shorter than the address space, so that no `size_t` wraps.
-/

namespace Unet4Cooja.Coap
open Lib

/-- `url` and `attributes`. -/
structure Resource where
  url : List U8
  attributes : List U8

/-- The buffer, `strpos` and `bufpos`. -/
structure ChunkState where
  mem : Mem
  strpos : Nat
  bufpos : Nat

section
variable (buffer preferredSize : Nat) (offset : Int)

/-- `ADD_CHAR_IF_POSSIBLE`. -/
def addChar (c : U8) (s : ChunkState) : ChunkState :=
  let s :=
    if offset ≤ s.strpos ∧ s.bufpos < preferredSize then
      { s with mem := Function.update s.mem (buffer + s.bufpos) c, bufpos := s.bufpos + 1 }
    else s
  { s with strpos := s.strpos + 1 }

/-- `sprintf` writes the rest of the string, and a zero. -/
def printString (string : List U8) (s : ChunkState) : ChunkState :=
  let part := string.drop (offset - s.strpos).toNat
  { s with mem := store s.mem (buffer + s.bufpos) (part ++ [0]), bufpos := s.bufpos + part.length }

/-- `ADD_STRING_IF_POSSIBLE`. -/
def addString (string : List U8) (full : Nat → Bool) (s : ChunkState) : Except ChunkState ChunkState :=
  if offset < s.strpos + string.length then
    let s := printString buffer offset string s
    if full s.bufpos then .error s else .ok { s with strpos := s.strpos + string.length }
  else .ok { s with strpos := s.strpos + string.length }

/-- The body of the loop. -/
def addResource (s : ChunkState) (resource : Resource) : Except ChunkState ChunkState := do
  let s := if 0 < s.strpos then addChar buffer preferredSize offset 0x2C s else s
  let s := addChar buffer preferredSize offset 0x3C s
  let s := addChar buffer preferredSize offset 0x2F s
  let s ← addString buffer offset resource.url (preferredSize ≤ ·) s
  let s := addChar buffer preferredSize offset 0x3E s
  let s ←
    if resource.attributes ≠ [] then
      addString buffer offset resource.attributes (preferredSize < ·) (addChar buffer preferredSize offset 0x3B s)
    else .ok s
  if preferredSize < s.bufpos ∧ offset < s.strpos - s.bufpos then .error s else .ok s

/-- The loop over the resources. -/
def wellKnownCore (m : Mem) (resources : List Resource) : Except ChunkState ChunkState :=
  resources.foldlM (addResource buffer preferredSize offset) ⟨m, 0, 0⟩

end

/-! ## The text -/

/-- The text up to the URL of the next resource. -/
def addUrl (text : List U8) (r : Resource) : List U8 :=
  (if text ≠ [] then text ++ [0x2C] else text) ++ [0x3C] ++ [0x2F] ++ r.url

/-- The text with the next resource in link format. -/
def addLink (text : List U8) (r : Resource) : List U8 :=
  addUrl text r ++ [0x3E] ++ if r.attributes ≠ [] then [0x3B] ++ r.attributes else []

def linkFormat (resources : List Resource) : List U8 := resources.foldl addLink []

/-! ## What is in the buffer -/

section
variable {m : Mem} {buffer n o : Nat} {xs : List U8} {s s' : ChunkState} {string : List U8}

/-- The part `xs` of the text has been passed. -/
structure Chunk (m : Mem) (buffer n o : Nat) (xs : List U8) (s : ChunkState) : Prop where
  strpos : s.strpos = xs.length
  bufpos : s.bufpos = min n (xs.length - o)
  holds : Holds s.mem buffer (window o n xs)
  frame : Frame m s.mem buffer (buffer + n + 1)

/-- The loop has been left after the part `xs` of the text: the buffer has the chunk, and what has been written is
`bufpos` bytes and a zero. -/
structure Full (m : Mem) (buffer n o : Nat) (xs : List U8) (s : ChunkState) : Prop where
  bufpos : n ≤ s.bufpos
  more : o + n ≤ xs.length
  holds : Holds s.mem buffer (window o n xs)
  zero : s.mem (buffer + s.bufpos) = 0
  frame : Frame m s.mem buffer (buffer + s.bufpos + 1)

theorem Chunk.addChar (h : Chunk m buffer n o xs s) (c : U8) :
    Chunk m buffer n o (xs ++ [c]) (addChar buffer n o c s) := by
  have hstrpos := h.strpos
  have hbufpos := h.bufpos
  have hlen : (xs ++ [c]).length = xs.length + 1 := List.length_append
  unfold Unet4Cooja.Coap.addChar
  by_cases hput : (o : Int) ≤ s.strpos ∧ s.bufpos < n
  · have hroom : xs.length < o + n := by omega
    have hwindow : window o n (xs ++ [c]) = window o n xs ++ [c] := by
      rw [window_of_le (by omega), window_of_le (by omega), List.drop_append_of_le_length (by omega)]
    have hpos : (window o n xs).length = s.bufpos := by rw [length_window, hbufpos]
    rw [if_pos hput]
    refine ⟨?_, ?_, ?_, ?_⟩
    · show s.strpos + 1 = _
      omega
    · show s.bufpos + 1 = _
      omega
    · rw [hwindow, holds_append, hpos]
      constructor
      · apply h.holds.congr
        intro k _ hk
        exact (Function.update_of_ne (by omega) _ _).symm
      · exact holds_cons.mpr ⟨Function.update_self _ _ _, rfl⟩
    · exact h.frame.trans ((frame_update _ _ c).mono (by omega) (by omega))
  · rw [if_neg hput]
    refine ⟨?_, ?_, ?_, h.frame⟩
    · show s.strpos + 1 = _
      omega
    · show s.bufpos = _
      omega
    · by_cases hbefore : xs.length < o
      · rw [window_of_length_le (by omega)]
        rfl
      · rw [window_append (by omega)]
        exact h.holds

theorem Chunk.print (h : Chunk m buffer n o xs s) (hpart : o < xs.length + string.length) :
    (printString buffer o string s).bufpos =
        (if xs.length ≤ o + n then xs.length + string.length - o else n + string.length) ∧
      Holds (printString buffer o string s).mem buffer (window o n (xs ++ string)) ∧
      (printString buffer o string s).mem (buffer + (printString buffer o string s).bufpos) = 0 ∧
      Frame m (printString buffer o string s).mem buffer
        (buffer + max n (printString buffer o string s).bufpos + 1) := by
  have hbufpos := h.bufpos
  have hdrop : ((o : Int) - s.strpos).toNat = o - xs.length := by
    rw [h.strpos]
    omega
  unfold printString
  rw [hdrop]
  dsimp only
  have hpartlen : (string.drop (o - xs.length)).length = string.length - (o - xs.length) := List.length_drop
  refine ⟨?_, ?_, ?_, ?_⟩
  · rw [hpartlen]
    split <;> omega
  · by_cases hroom : xs.length ≤ o + n
    · -- The part continues what is in the buffer.
      have hall : Holds (store s.mem (buffer + s.bufpos) (string.drop (o - xs.length) ++ [0])) buffer
          (xs.drop o ++ string.drop (o - xs.length)) := by
        have hfront : (xs.drop o).length = s.bufpos := by
          rw [List.length_drop]
          omega
        have hholds := h.holds
        rw [window_of_le hroom] at hholds
        rw [holds_append, hfront]
        constructor
        · apply hholds.congr
          intro k _ hk
          exact (store_of_lt _ (by omega)).symm
        · exact (holds_append.mp (holds_store _ _ _)).1
      unfold window
      rw [List.drop_append]
      have htake := List.take_append_drop n (xs.drop o ++ string.drop (o - xs.length))
      rw [← htake, holds_append] at hall
      exact hall.1
    · rw [window_append (by omega)]
      apply h.holds.congr
      intro k _ hk
      rw [length_window] at hk
      exact (store_of_lt _ (by omega)).symm
  · have hzero := store_append s.mem (buffer + s.bufpos) (string.drop (o - xs.length)) [0]
    rw [hzero, ← Nat.add_assoc]
    exact Function.update_self _ _ _
  · have hstored := frame_store s.mem (buffer + s.bufpos) (string.drop (o - xs.length) ++ [0])
    rw [List.length_append] at hstored
    exact (h.frame.mono (Nat.le_refl _) (by omega)).trans
      (hstored.mono (by omega) (by rw [List.length_singleton]; omega))

theorem Chunk.addString_ok {full : Nat → Bool} (h : Chunk m buffer n o xs s) (hnext : string ≠ [] ∨ full n = true)
    (hle : ∀ b, full b = false → b ≤ n) (hs : addString buffer o string full s = .ok s') :
    Chunk m buffer n o (xs ++ string) s' ∧
      (o < (xs ++ string).length → full ((xs ++ string).length - o) = false) := by
  have hstrpos := h.strpos
  rw [List.length_append]
  unfold addString at hs
  by_cases hpart : o < xs.length + string.length
  · obtain ⟨hbufpos, hholds, -, hframe⟩ := h.print hpart
    rw [if_pos (by omega)] at hs
    dsimp only at hs
    cases hfull : full (printString buffer o string s).bufpos with
    | true =>
      rw [if_pos hfull] at hs
      cases hs
    | false =>
      rw [if_neg (by rw [hfull]; decide)] at hs
      cases hs
      have hbound := hle _ hfull
      have hroom : xs.length ≤ o + n := by
        by_contra hover
        rw [if_neg hover] at hbufpos
        have hnil : string = [] := List.eq_nil_of_length_eq_zero (by omega)
        rw [hbufpos, hnil] at hfull
        rcases hnext with hne | hn
        · exact hne hnil
        · exact absurd (hn.symm.trans hfull) (by decide)
      rw [if_pos hroom] at hbufpos
      refine ⟨⟨?_, ?_, hholds, ?_⟩, fun _ => hbufpos ▸ hfull⟩
      · rw [List.length_append]
        show s.strpos + string.length = _
        omega
      · rw [List.length_append]
        show (printString buffer o string s).bufpos = _
        omega
      · rwa [Nat.max_eq_left hbound] at hframe
  · rw [if_neg (by omega)] at hs
    cases hs
    refine ⟨⟨?_, ?_, ?_, h.frame⟩, fun h => absurd h hpart⟩
    · rw [List.length_append]
      show s.strpos + string.length = _
      omega
    · have hbufpos := h.bufpos
      rw [List.length_append]
      show s.bufpos = _
      omega
    · rw [window_of_length_le (by rw [List.length_append]; omega)]
      rfl

theorem Chunk.addString_error {full : Nat → Bool} (h : Chunk m buffer n o xs s) (hge : ∀ b, full b = true → n ≤ b)
    (hs : addString buffer o string full s = .error s') :
    Full m buffer n o (xs ++ string) s' ∧ full s'.bufpos = true ∧
      s'.bufpos = if xs.length ≤ o + n then xs.length + string.length - o else n + string.length := by
  have hstrpos := h.strpos
  unfold addString at hs
  by_cases hpart : o < xs.length + string.length
  · obtain ⟨hbufpos, hholds, hzero, hframe⟩ := h.print hpart
    rw [if_pos (by omega)] at hs
    dsimp only at hs
    cases hfull : full (printString buffer o string s).bufpos with
    | true =>
      rw [if_pos hfull] at hs
      cases hs
      have hbound := hge _ hfull
      refine ⟨⟨hbound, ?_, hholds, hzero, ?_⟩, hfull, hbufpos⟩
      · rw [List.length_append]
        split at hbufpos <;> omega
      · rwa [Nat.max_eq_right hbound] at hframe
    | false =>
      rw [if_neg (by rw [hfull]; decide)] at hs
      cases hs
  · rw [if_neg (by omega)] at hs
    cases hs

variable {r : Resource}

theorem lt_of_addUrl (xs : List U8) (r : Resource) : xs.length + 2 + r.url.length ≤ (addUrl xs r).length := by
  unfold addUrl
  split
  · simp
    omega
  · simp
    omega

theorem addUrl_lt_addLink (xs : List U8) (r : Resource) : (addUrl xs r).length < (addLink xs r).length := by
  unfold addLink
  simp

theorem Chunk.beforeUrl (h : Chunk m buffer n o xs s) :
    Chunk m buffer n o ((if xs ≠ [] then xs ++ [0x2C] else xs) ++ [0x3C] ++ [0x2F])
      (Coap.addChar buffer n o 0x2F (Coap.addChar buffer n o 0x3C
        (if 0 < s.strpos then Coap.addChar buffer n o 0x2C s else s))) := by
  apply Chunk.addChar
  apply Chunk.addChar
  by_cases hxs : xs = []
  · rw [if_neg (not_not.mpr hxs), if_neg (by rw [h.strpos, hxs]; decide)]
    exact h
  · rw [if_pos hxs, if_pos (by rw [h.strpos]; exact List.length_pos_of_ne_nil hxs)]
    exact h.addChar 0x2C

theorem addResource_ok (h : Chunk m buffer n o xs s) (hn : 0 < n) (hs : addResource buffer n o s r = .ok s') :
    Chunk m buffer n o (addLink xs r) s' ∧ (addLink xs r).length ≤ o + n ∧ (addUrl xs r).length < o + n := by
  unfold addResource at hs
  cases hurl : addString buffer o r.url (n ≤ ·) (Coap.addChar buffer n o 0x2F (Coap.addChar buffer n o 0x3C
      (if 0 < s.strpos then Coap.addChar buffer n o 0x2C s else s))) with
  | error e =>
    simp only [bind, Except.bind, hurl] at hs
    cases hs
  | ok s₁ =>
    obtain ⟨hc, hend⟩ := h.beforeUrl.addString_ok (Or.inr (by simp)) (by simp; omega) hurl
    have hlt : (addUrl xs r).length < o + n := by
      by_cases ho : o < (addUrl xs r).length
      · have hlast := hend ho
        simp only [decide_eq_false_iff_not] at hlast
        unfold addUrl at ho ⊢
        omega
      · omega
    have hc' : Chunk m buffer n o (addUrl xs r ++ [0x3E]) (Coap.addChar buffer n o 0x3E s₁) := Chunk.addChar hc 0x3E
    simp only [bind, Except.bind, hurl] at hs
    -- The last test of the loop never leaves it: `bufpos` is not greater than the size.
    have hlast : ∀ {zs : List U8} {t : ChunkState}, Chunk m buffer n o zs t →
        (if n < t.bufpos ∧ (o : Int) < t.strpos - t.bufpos then Except.error t else Except.ok t) = .ok t := by
      intro zs t ht
      have hbufpos := ht.bufpos
      rw [if_neg (by omega)]
    by_cases hattrs : r.attributes ≠ []
    · have hlink : addLink xs r = addUrl xs r ++ [0x3E] ++ [0x3B] ++ r.attributes := by
        unfold addLink
        rw [if_pos hattrs, List.append_assoc, List.append_assoc, List.append_assoc]
      rw [if_pos hattrs] at hs
      cases hattr : addString buffer o r.attributes (n < ·) (Coap.addChar buffer n o 0x3B
          (Coap.addChar buffer n o 0x3E s₁)) with
      | error e =>
        simp only [hattr] at hs
        cases hs
      | ok s₂ =>
        obtain ⟨hc₂, hend₂⟩ := (hc'.addChar 0x3B).addString_ok (Or.inl hattrs) (by simp) hattr
        simp only [hattr] at hs
        rw [hlast hc₂] at hs
        obtain rfl := Except.ok.inj hs
        rw [← hlink] at hc₂ hend₂
        refine ⟨hc₂, ?_, hlt⟩
        by_cases ho : o < (addLink xs r).length
        · have hle := hend₂ ho
          simp only [decide_eq_false_iff_not] at hle
          omega
        · omega
    · have hlink : addLink xs r = addUrl xs r ++ [0x3E] := by
        unfold addLink
        rw [if_neg hattrs, List.append_nil]
      rw [if_neg hattrs] at hs
      rw [hlast hc'] at hs
      obtain rfl := Except.ok.inj hs
      rw [hlink]
      refine ⟨hc', ?_, hlt⟩
      rw [List.length_append, List.length_singleton]
      omega

/-- The URL of the next resource ends where the chunk ends, or it is empty and the chunk has ended. -/
def UrlEnds (o n : Nat) (text : List U8) (r : Resource) : Prop :=
  (addUrl text r).length = o + n ∨ r.url = [] ∧ o + n < (addUrl text r).length

/-- A resource of which the end is behind the chunk: the loop is left there. Only then a byte may be written behind
the chunk. -/
theorem addResource_error (h : Chunk m buffer n o xs s) (hn : 0 < n)
    (hs : addResource buffer n o s r = .error s') :
    ∃ zs, Full m buffer n o zs s' ∧ zs <+: addLink xs r ∧ o + n < (addLink xs r).length ∧
      (s'.bufpos = n ↔ UrlEnds o n xs r) := by
  unfold addResource at hs
  have hurllink := addUrl_lt_addLink xs r
  cases hurl : addString buffer o r.url (n ≤ ·) (Coap.addChar buffer n o 0x2F (Coap.addChar buffer n o 0x3C
      (if 0 < s.strpos then Coap.addChar buffer n o 0x2C s else s))) with
  | error e =>
    obtain ⟨hfull, -, hbufpos⟩ := h.beforeUrl.addString_error (by simp) hurl
    simp only [bind, Except.bind, hurl] at hs
    obtain rfl := Except.error.inj hs
    have hmore : o + n ≤ (addUrl xs r).length := hfull.more
    refine ⟨addUrl xs r, hfull, ?_, by omega, ?_⟩
    · unfold addLink
      rw [List.append_assoc]
      exact List.prefix_append _ _
    · unfold UrlEnds
      have hfront : ((if xs ≠ [] then xs ++ [0x2C] else xs) ++ [0x3C] ++ [0x2F]).length + r.url.length =
          (addUrl xs r).length := by
        exact List.length_append.symm
      generalize ((if xs ≠ [] then xs ++ [0x2C] else xs) ++ [0x3C] ++ [0x2F]).length = k at hbufpos hfront
      rw [← List.length_eq_zero_iff]
      split at hbufpos <;> omega
  | ok s₁ =>
    obtain ⟨hc, hend⟩ := h.beforeUrl.addString_ok (Or.inr (by simp)) (by simp; omega) hurl
    have hlt : (addUrl xs r).length < o + n := by
      by_cases ho : o < (addUrl xs r).length
      · have hlast := hend ho
        simp only [decide_eq_false_iff_not] at hlast
        unfold addUrl at ho ⊢
        omega
      · omega
    have hc' : Chunk m buffer n o (addUrl xs r ++ [0x3E]) (Coap.addChar buffer n o 0x3E s₁) := Chunk.addChar hc 0x3E
    simp only [bind, Except.bind, hurl] at hs
    by_cases hattrs : r.attributes ≠ []
    · have hlink : addLink xs r = addUrl xs r ++ [0x3E] ++ [0x3B] ++ r.attributes := by
        unfold addLink
        rw [if_pos hattrs, List.append_assoc, List.append_assoc, List.append_assoc]
      rw [if_pos hattrs] at hs
      cases hattr : addString buffer o r.attributes (n < ·) (Coap.addChar buffer n o 0x3B
          (Coap.addChar buffer n o 0x3E s₁)) with
      | error e =>
        obtain ⟨hfull, hbehind, hbufpos⟩ := (hc'.addChar 0x3B).addString_error (by simp; omega) hattr
        simp only [hattr] at hs
        obtain rfl := Except.error.inj hs
        rw [← hlink] at hfull
        have hover : n < e.bufpos := by simpa using hbehind
        have hlen : (addUrl xs r ++ [0x3E] ++ [0x3B]).length + r.attributes.length = (addLink xs r).length := by
          rw [hlink]
          exact List.length_append.symm
        have hfront : (addUrl xs r ++ [0x3E] ++ [0x3B]).length = (addUrl xs r).length + 2 := by
          rw [List.length_append, List.length_append]
          rfl
        refine ⟨addLink xs r, hfull, List.prefix_rfl, ?_, ?_⟩
        · split at hbufpos <;> omega
        · unfold UrlEnds
          omega
      | ok s₂ =>
        have hbufpos := ((hc'.addChar 0x3B).addString_ok (Or.inl hattrs) (by simp) hattr).1.bufpos
        simp only [hattr] at hs
        rw [if_neg (by omega)] at hs
        cases hs
    · have hbufpos := hc'.bufpos
      rw [if_neg hattrs] at hs
      rw [if_neg (by omega)] at hs
      cases hs

/-! ## The loop -/

theorem lt_addLink (xs : List U8) (r : Resource) : xs.length < (addLink xs r).length := by
  have hlt := addUrl_lt_addLink xs r
  have hle := lt_of_addUrl xs r
  omega

theorem length_le_foldl_addLink (xs : List U8) (rs : List Resource) : xs.length ≤ (rs.foldl addLink xs).length := by
  induction rs generalizing xs with
  | nil => exact Nat.le_refl _
  | cons r rs ih => exact Nat.le_trans (Nat.le_of_lt (lt_addLink xs r)) (ih _)

theorem window_foldl_addLink (rs : List Resource) {zs : List U8} (hbegins : zs <+: xs) (h : o + n ≤ zs.length) :
    window o n (rs.foldl addLink xs) = window o n zs := by
  induction rs generalizing xs with
  | nil =>
    obtain ⟨ys, rfl⟩ := hbegins
    exact window_append h
  | cons r rs ih =>
    apply ih
    apply hbegins.trans
    unfold addLink addUrl
    by_cases hxs : xs = []
    · rw [if_neg (not_not.mpr hxs), hxs]
      exact List.nil_prefix
    · rw [if_pos hxs]
      simp only [List.append_assoc]
      exact List.prefix_append _ _

theorem foldlM_ok (hn : 0 < n) {rs : List Resource} (h : Chunk m buffer n o xs s) (hroom : xs.length ≤ o + n)
    (hs : rs.foldlM (addResource buffer n o) s = .ok s') :
    Chunk m buffer n o (rs.foldl addLink xs) s' ∧ (rs.foldl addLink xs).length ≤ o + n := by
  induction rs generalizing xs s with
  | nil =>
    obtain rfl := Except.ok.inj hs
    exact ⟨h, hroom⟩
  | cons r rs ih =>
    rw [List.foldlM_cons] at hs
    cases hr : addResource buffer n o s r with
    | error e =>
      rw [hr] at hs
      cases hs
    | ok s₁ =>
      obtain ⟨hc, hlen, -⟩ := addResource_ok h hn hr
      rw [hr] at hs
      exact ih hc hlen hs

theorem foldlM_error (hn : 0 < n) {rs : List Resource} (h : Chunk m buffer n o xs s) (hroom : xs.length ≤ o + n)
    (hs : rs.foldlM (addResource buffer n o) s = .error s') :
    ∃ pre r post zs, rs = pre ++ r :: post ∧ (pre.foldl addLink xs).length ≤ o + n ∧
      Full m buffer n o zs s' ∧ zs <+: addLink (pre.foldl addLink xs) r ∧
      o + n < (addLink (pre.foldl addLink xs) r).length ∧
      (s'.bufpos = n ↔ UrlEnds o n (pre.foldl addLink xs) r) := by
  induction rs generalizing xs s with
  | nil => cases hs
  | cons r rs ih =>
    rw [List.foldlM_cons] at hs
    cases hr : addResource buffer n o s r with
    | error e =>
      rw [hr] at hs
      obtain rfl := Except.error.inj hs
      obtain ⟨zs, hfull, hbegins, hbehind, hends⟩ := addResource_error h hn hr
      exact ⟨[], r, rs, zs, rfl, hroom, hfull, hbegins, hbehind, hends⟩
    | ok s₁ =>
      obtain ⟨hc, hlen, -⟩ := addResource_ok h hn hr
      rw [hr] at hs
      obtain ⟨pre, r', post, zs, rfl, hrest⟩ := ih hc hlen hs
      exact ⟨r :: pre, r', post, zs, rfl, hrest⟩

end

/-! ## The handler -/

def applicationLinkFormat : U16 := 40

def coapSetPayload (p : CoapPacket) (payload : Option Nat) (length : Nat) : CoapPacket :=
  { p with payload := payload, payloadLen := BitVec.ofNat 16 (min restMaxChunkSize length) }

def coapSetHeaderContentFormat (p : CoapPacket) (format : U16) : CoapPacket :=
  CoapPacket.setOption { p with contentFormat := format } CoapOption.contentFormat.number.toNat

/-- What a handler leaves behind: `response`, the memory, `*offset`, and `erbium_status_code` with
`coap_error_message` if they are set. -/
structure HandlerEnd where
  response : CoapPacket
  mem : Mem
  offset : Int
  error : Option CoapError

/-- What follows the loop; `outOfScope` is where the string is. -/
def wellKnownCoreResponse (outOfScope : Nat) (response : CoapPacket) (buffer : Nat) (s : ChunkState) : CoapPacket :=
  if 0 < s.bufpos then coapSetHeaderContentFormat (coapSetPayload response buffer s.bufpos) applicationLinkFormat
  else if 0 < s.strpos then coapSetPayload (coapSetStatusCode response (badOption402.setWidth 16)) outOfScope 15
  else response

def wellKnownCoreGetHandler (resources : List Resource) (outOfScope : Nat) (m : Mem) (response : CoapPacket)
    (buffer preferredSize : Nat) (offset : Int) : HandlerEnd :=
  match wellKnownCore buffer preferredSize offset m resources with
  | .ok s => ⟨wellKnownCoreResponse outOfScope response buffer s, s.mem, -1, none⟩
  | .error s => ⟨wellKnownCoreResponse outOfScope response buffer s, s.mem, offset + preferredSize, none⟩

section
variable {m : Mem} {response : CoapPacket} {buffer n : Nat}

theorem chunk_start (m : Mem) (buffer n o : Nat) : Chunk m buffer n o [] ⟨m, 0, 0⟩ := by
  refine ⟨rfl, by simp, ?_, Frame.refl _ _ _⟩
  unfold window
  rw [List.drop_nil, List.take_nil]
  rfl

theorem length_linkFormat_le (pre : List Resource) (r : Resource) (post : List Resource) :
    (linkFormat (pre ++ [r])).length ≤ (linkFormat (pre ++ r :: post)).length := by
  have happend : linkFormat (pre ++ [r] ++ post) = post.foldl addLink (linkFormat (pre ++ [r])) := List.foldl_append
  rw [List.append_cons pre r post, happend]
  exact length_le_foldl_addLink _ post

theorem wellKnownCore_ok {resources : List Resource} {o : Nat} {s : ChunkState} (hn : 0 < n)
    (hs : wellKnownCore buffer n o m resources = .ok s) :
    Chunk m buffer n o (linkFormat resources) s ∧ (linkFormat resources).length ≤ o + n :=
  foldlM_ok hn (chunk_start m buffer n o) (Nat.zero_le _) hs

theorem wellKnownCore_error {resources : List Resource} {o : Nat} {s : ChunkState} (hn : 0 < n)
    (hs : wellKnownCore buffer n o m resources = .error s) :
    ∃ pre r post, resources = pre ++ r :: post ∧ (linkFormat pre).length ≤ o + n ∧
      o + n < (linkFormat (pre ++ [r])).length ∧ Full m buffer n o (linkFormat resources) s ∧
      (s.bufpos = n ↔ UrlEnds o n (linkFormat pre) r) := by
  obtain ⟨pre, r, post, zs, rfl, hpre, hfull, hbegins, hbehind, hends⟩ :=
    foldlM_error hn (chunk_start m buffer n o) (Nat.zero_le _) hs
  have hsnoc : linkFormat (pre ++ [r]) = addLink (linkFormat pre) r := List.foldl_append
  have htext : linkFormat (pre ++ r :: post) = post.foldl addLink (addLink (linkFormat pre) r) := by
    unfold linkFormat
    rw [List.foldl_append, List.foldl_cons]
  change zs <+: addLink (linkFormat pre) r at hbegins
  have hlen := length_le_foldl_addLink (addLink (linkFormat pre) r) post
  refine ⟨pre, r, post, rfl, hpre, ?_, ⟨hfull.bufpos, ?_, ?_, hfull.zero, hfull.frame⟩, hends⟩
  · rw [hsnoc]
    exact hbehind
  · rw [htext]
    exact Nat.le_of_lt (Nat.lt_of_lt_of_le hbehind hlen)
  · rw [htext, window_foldl_addLink post hbegins hfull.more]
    exact hfull.holds

/-- A handler has written a chunk of a text into the buffer, and perhaps more behind it; `*offset` says whether there
is more. -/
structure ChunkOf (text : List U8) (o n buffer : Nat) (response : CoapPacket) (e : HandlerEnd) : Prop where
  answer : ∃ length, e.response =
      coapSetHeaderContentFormat (coapSetPayload response (some buffer) length) applicationLinkFormat ∧
    min n length = (window o n text).length ∧ (e.offset = -1 → length ≤ n)
  holds : Holds e.mem buffer (window o n text)
  offset : e.offset = if text.length ≤ o + n then -1 else (o : Int) + n
  error : e.error = none

theorem wellKnownCore_chunk (resources : List Resource) (outOfScope : Nat) (m : Mem) (response : CoapPacket)
    (buffer : Nat) {n o : Nat} (hn : 0 < n) (ho : o < (linkFormat resources).length) :
    ChunkOf (linkFormat resources) o n buffer response
      (wellKnownCoreGetHandler resources outOfScope m response buffer n o) := by
  unfold wellKnownCoreGetHandler
  cases hs : wellKnownCore buffer n o m resources with
  | ok s =>
    obtain ⟨hchunk, hend⟩ := wellKnownCore_ok hn hs
    have hbufpos := hchunk.bufpos
    refine ⟨⟨s.bufpos, ?_, ?_, fun _ => by omega⟩, hchunk.holds, (if_pos hend).symm, rfl⟩
    · exact if_pos (by omega)
    · rw [length_window]
      omega
  | error s =>
    obtain ⟨pre, r, post, rfl, -, hbehind, hfull, -⟩ := wellKnownCore_error hn hs
    have hlen := length_linkFormat_le pre r post
    have hbufpos := hfull.bufpos
    refine ⟨⟨s.bufpos, ?_, ?_, ?_⟩, hfull.holds, (if_neg (by omega)).symm, rfl⟩
    · exact if_pos (by omega)
    · rw [length_window]
      omega
    · intro hoffset
      change (o : Int) + n = -1 at hoffset
      omega

theorem wellKnownCore_behind (resources : List Resource) (outOfScope : Nat) (m : Mem) (response : CoapPacket)
    (buffer : Nat) {n o : Nat} (hn : 0 < n) (ho : (linkFormat resources).length ≤ o) :
    let e := wellKnownCoreGetHandler resources outOfScope m response buffer n o
    (e.response = if linkFormat resources = [] then response
      else coapSetPayload (coapSetStatusCode response (badOption402.setWidth 16)) outOfScope 15) ∧
    e.offset = -1 := by
  unfold wellKnownCoreGetHandler
  cases hs : wellKnownCore buffer n o m resources with
  | ok s =>
    obtain ⟨hchunk, -⟩ := wellKnownCore_ok hn hs
    have hbufpos := hchunk.bufpos
    have hstrpos := hchunk.strpos
    refine ⟨?_, rfl⟩
    dsimp only
    unfold wellKnownCoreResponse
    rw [if_neg (by omega), hstrpos]
    by_cases hnil : linkFormat resources = []
    · rw [if_pos hnil, if_neg (by rw [hnil]; decide)]
    · rw [if_neg hnil, if_pos (List.length_pos_of_ne_nil hnil)]
  | error s =>
    have hmore := (wellKnownCore_error hn hs)
    obtain ⟨_, _, _, _, -, -, hfull, -⟩ := hmore
    have := hfull.more
    omega

theorem crossing_unique {pre pre' post post' : List Resource} {r r' : Resource} {k : Nat}
    (h : pre ++ r :: post = pre' ++ r' :: post')
    (hle : (linkFormat pre).length ≤ k) (hlt : k < (linkFormat (pre ++ [r])).length)
    (hle' : (linkFormat pre').length ≤ k) (hlt' : k < (linkFormat (pre' ++ [r'])).length) : pre = pre' ∧ r = r' := by
  obtain ⟨mid, hmid, hrest⟩ | ⟨mid, hmid, hrest⟩ := List.append_eq_append_iff.mp h
  · cases mid with
    | nil => exact ⟨by rw [hmid, List.append_nil], (List.cons.inj hrest).1⟩
    | cons x ys =>
      obtain ⟨rfl, -⟩ := List.cons.inj hrest
      have := length_linkFormat_le pre r ys
      rw [hmid] at hle'
      omega
  · cases mid with
    | nil => exact ⟨by rw [hmid, List.append_nil], ((List.cons.inj hrest).1).symm⟩
    | cons x ys =>
      obtain ⟨rfl, -⟩ := List.cons.inj hrest
      have := length_linkFormat_le pre' r' ys
      rw [hmid] at hle
      omega

/-- The text ends in the chunk, or the resource that crosses the end of the chunk does it behind its URL. -/
def ChunkInside (resources : List Resource) (o n : Nat) : Prop :=
  (linkFormat resources).length ≤ o + n ∨
    ∃ pre r post, resources = pre ++ r :: post ∧ (linkFormat pre).length ≤ o + n ∧ UrlEnds o n (linkFormat pre) r

theorem wellKnownCore_frame {resources : List Resource} {n o : Nat} (hinside : ChunkInside resources o n) (hn : 0 < n)
    (outOfScope : Nat) (m : Mem) (response : CoapPacket) (buffer : Nat) :
    Frame m (wellKnownCoreGetHandler resources outOfScope m response buffer n o).mem buffer (buffer + n + 1) := by
  unfold wellKnownCoreGetHandler
  cases hs : wellKnownCore buffer n o m resources with
  | ok s => exact (wellKnownCore_ok hn hs).1.frame
  | error s =>
    obtain ⟨pre, r, post, rfl, hpre, hbehind, hfull, hends⟩ := wellKnownCore_error hn hs
    have hbufpos : s.bufpos = n := by
      apply hends.mpr
      rcases hinside with hshort | ⟨pre', r', post', hsplit, hpre', hends'⟩
      · have := length_linkFormat_le pre r post
        omega
      · have hcross : o + n < (linkFormat (pre' ++ [r'])).length := by
          have hurl := addUrl_lt_addLink (linkFormat pre') r'
          have hsnoc : linkFormat (pre' ++ [r']) = addLink (linkFormat pre') r' := List.foldl_append
          unfold UrlEnds at hends'
          rw [hsnoc]
          omega
        obtain ⟨rfl, rfl⟩ := crossing_unique hsplit hpre hbehind hpre' hcross
        exact hends'
    exact hbufpos ▸ hfull.frame

/-- Exactly then it does so whatever is in the memory. -/
theorem wellKnownCore_inside_iff (resources : List Resource) (outOfScope : Nat) (response : CoapPacket)
    (buffer : Nat) {n o : Nat} (hn : 0 < n) :
    (∀ m, Frame m (wellKnownCoreGetHandler resources outOfScope m response buffer n o).mem buffer (buffer + n + 1)) ↔
      ChunkInside resources o n := by
  constructor
  · intro hframe
    have hones := hframe fun _ => 1
    unfold wellKnownCoreGetHandler at hones
    cases hs : wellKnownCore buffer n o (fun _ => 1) resources with
    | ok s => exact Or.inl (wellKnownCore_ok hn hs).2
    | error s =>
      obtain ⟨pre, r, post, hsplit, hpre, -, hfull, hends⟩ := wellKnownCore_error hn hs
      refine Or.inr ⟨pre, r, post, hsplit, hpre, hends.mp ?_⟩
      have hbufpos := hfull.bufpos
      by_contra hbehind
      -- the zero that ends the string is behind the chunk
      have hsame := hones (buffer + s.bufpos) (Or.inr (by omega))
      rw [hs] at hsame
      have hone : s.mem (buffer + s.bufpos) = 1 := hsame
      rw [hfull.zero] at hone
      exact absurd hone (by decide)
  · intro hinside m
    exact wellKnownCore_frame hinside hn outOfScope m response buffer

end

def longAttributes : Resource := ⟨[0x73], List.replicate 60 0x61⟩

theorem wellKnownCore_inside_iff_longAttributes :
    ¬∀ m, Frame m (wellKnownCoreGetHandler [longAttributes] 0 m CoapPacket.zero 62 64 (0 : Nat)).mem 62
      (62 + 64 + 1) := by
  rw [wellKnownCore_inside_iff [longAttributes] 0 CoapPacket.zero 62 (by decide : 0 < 64)]
  rintro (hshort | ⟨pre, r, post, hsplit, -, hends⟩)
  · exact absurd hshort (by decide)
  · cases pre with
    | nil =>
      obtain ⟨rfl, -⟩ := List.cons.inj hsplit
      unfold UrlEnds at hends
      exact absurd hends (by decide)
    | cons x xs =>
      have hnil := (List.cons.inj hsplit).2
      exact absurd hnil.symm (by simp)

end Unet4Cooja.Coap
