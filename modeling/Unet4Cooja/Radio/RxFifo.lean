import Mathlib.Logic.Function.Basic
import Unet4Cooja.Core.RadioTask
import Unet4Cooja.Radio.Cc2520

/-!
# Reading the RX FIFO (`cc2520_get_rxfifo`)

* `RxDriver`, `FifoPins` : the FIFO, the caller's buffer and `cc2520_radio_params`; the pins;
* `readFifoByte`, `readFifoBuf`, `flushrx`, `cc2520GetRxfifo`, `cc2520Read` : the driver;
* `RxContent` : a length byte and what follows it in the FIFO;
* `readFifoBuf_eq`, `getRxfifo_valid`, `getRxfifo_invalid` : which byte goes where;
* `rxSpec_iff`, `rxSpec_fails` : when the signal values are those of the footer;
* `frame_signal` : what the radio task gets.

A read from an empty FIFO is an underflow, `none`. `flushrx` reads a byte it throws away and empties
the FIFO, so it cannot underflow in a way that matters.
-/

namespace Unet4Cooja
open Lib

def footer1CrcOk : U8 := 0x80

def footer1Correlation : U8 := 0x7F

/-- The members of `cc2520_radio_params` that a reception sets. -/
structure RxParams where
  crc : U8
  lastRssi : U8
  lastLqi : U8
  deriving DecidableEq

/-- The RX FIFO, first byte first, the caller's buffer, and the parameters. -/
structure RxDriver where
  fifo : List U8
  buf : Nat → U8
  params : RxParams

/-- `CC2520_FIFOP_IS_1` on entry, and both pins at the end. -/
structure FifoPins where
  fifop : Bool
  fifopEnd : Bool
  fifoEnd : Bool

/-- `CC2520_READ_FIFO_BYTE`. -/
def readFifoByte : List U8 → Option (U8 × List U8)
  | [] => none
  | b :: fifo => some (b, fifo)

/-- `CC2520_READ_FIFO_BUF`. -/
def readFifoBuf (buffer : Nat → U8) (count : Nat) (fifo : List U8) :
    Option ((Nat → U8) × List U8) :=
  forRange count (fun i s => do
    let (buffer, fifo) ← s
    let (b, fifo) ← readFifoByte fifo
    return (Function.update buffer i b, fifo)) (some (buffer, fifo))

def flushrx (s : RxDriver) : RxDriver := { s with fifo := [] }

def cc2520GetRxfifo (pins : FifoPins) (bufLen : Nat) (s : RxDriver) : Option (U8 × RxDriver) := do
  if pins.fifop then
    let (len, fifo) ← readFifoByte s.fifo
    let s := { s with fifo := fifo }
    let (len, s) ←
      if footerLen < len.toNat ∧ len.toNat < bufLen then do
        let (buf, fifo) ← readFifoBuf s.buf (len.toNat - footerLen) s.fifo
        let (footer, fifo) ← readFifoBuf (fun _ => 0) footerLen fifo
        pure (len - BitVec.ofNat 8 footerLen,
          { fifo := fifo
            buf := buf
            params :=
              { crc := (footer 1 &&& footer1CrcOk) >>> 7
                lastRssi := buf 0
                lastLqi := buf 1 &&& footer1Correlation } })
      else pure (0, flushrx s)
    return (len, if pins.fifopEnd ∧ pins.fifoEnd = false then flushrx s else s)
  else return (0, s)

/-- `cc2520_read`, without the interrupt it enables again. -/
def cc2520Read (pins : FifoPins) (s : RxDriver) : Option (U8 × RxDriver) :=
  cc2520GetRxfifo pins cc2520MaxPacketLength s

/-! ## Which byte goes where -/

/-- The loop stores the next `count` bytes and takes them out of the FIFO. -/
theorem readFifoBuf_eq {buffer : Nat → U8} {count : Nat} {fifo : List U8}
    (h : count ≤ fifo.length) :
    readFifoBuf buffer count fifo =
      some (fun k => if k < count then fifo.getD k 0 else buffer k, fifo.drop count) := by
  unfold readFifoBuf
  refine forRange_induct (P := fun i s =>
    s = some (fun k => if k < i then fifo.getD k 0 else buffer k, fifo.drop i)) ?_ ?_
  · simp
  · rintro i hi s rfl
    have hlt : i < fifo.length := by omega
    have hd : fifo.drop i = fifo[i] :: fifo.drop (i + 1) := List.drop_eq_getElem_cons hlt
    simp only [Option.bind_eq_bind, Option.bind_some, hd, readFifoByte]
    congr 2
    funext k
    rcases Nat.lt_trichotomy k i with hk | rfl | hk
    · rw [Function.update_of_ne (by omega), if_pos hk, if_pos (by omega)]
    · rw [Function.update_self, if_pos (by omega),
        List.getD_eq_getElem?_getD, List.getElem?_eq_getElem hlt, Option.getD_some]
    · rw [Function.update_of_ne (by omega), if_neg (by omega), if_neg (by omega)]

/-- A length byte, and what follows it in the FIFO: at least the frame, if the length is one of a
frame. -/
structure RxContent where
  len : U8
  data : List U8
  complete : footerLen < len.toNat → len.toNat < cc2520MaxPacketLength → len.toNat ≤ data.length

namespace RxContent
variable (c : RxContent)

/-- Not shorter than the footer and not longer than a frame. -/
def Valid : Prop := footerLen < c.len.toNat ∧ c.len.toNat < cc2520MaxPacketLength

instance : Decidable c.Valid := inferInstanceAs (Decidable (_ ∧ _))

/-- Byte `k` after the length byte. -/
def byte (k : Nat) : U8 := c.data.getD k 0

def inFifo (buf : Nat → U8) (params : RxParams) : RxDriver :=
  { fifo := c.len :: c.data, buf := buf, params := params }

/-- The buffer after the frame body is read. -/
def stored (buf : Nat → U8) (k : Nat) : U8 := if k < c.len.toNat - footerLen then c.byte k else buf k

variable {c}

theorem stored_of_lt {buf : Nat → U8} {k : Nat} (h : k < c.len.toNat - footerLen) : c.stored buf k = c.byte k :=
  if_pos h

end RxContent

/-! ## Receptions -/

section
variable {c : RxContent} {pins : FifoPins} {buf : Nat → U8} {params : RxParams}

theorem getRxfifo_low (h : pins.fifop = false) :
    cc2520Read pins (c.inFifo buf params) = some (0, c.inFifo buf params) := by
  simp [cc2520Read, cc2520GetRxfifo, h]

theorem getRxfifo_invalid (hp : pins.fifop = true) (h : ¬ c.Valid) :
    cc2520Read pins (c.inFifo buf params) = some (0, { fifo := [], buf := buf, params := params }) := by
  unfold RxContent.Valid at h
  simp [cc2520Read, cc2520GetRxfifo, hp, RxContent.inFifo, readFifoByte, h, flushrx]

theorem getRxfifo_valid (buf : Nat → U8) (params : RxParams) (hp : pins.fifop = true) (h : c.Valid) :
    ∃ fifo, cc2520Read pins (c.inFifo buf params) = some (c.len - BitVec.ofNat 8 footerLen,
      { fifo := fifo
        buf := c.stored buf
        params :=
          { crc := (c.byte (c.len.toNat - 1) &&& footer1CrcOk) >>> 7
            lastRssi := c.stored buf 0
            lastLqi := c.stored buf 1 &&& footer1Correlation } }) := by
  have hlen := c.complete h.1 h.2
  have hbody : readFifoBuf buf (c.len.toNat - footerLen) c.data =
      some (c.stored buf, c.data.drop (c.len.toNat - footerLen)) := readFifoBuf_eq (by omega)
  have hfoot : footerLen ≤ (c.data.drop (c.len.toNat - footerLen)).length := by
    have := h.1
    rw [List.length_drop]
    omega
  have hlast : (c.data.drop (c.len.toNat - footerLen)).getD 1 0 = c.byte (c.len.toNat - 1) := by
    have := h.1
    unfold RxContent.byte
    rw [List.getD_eq_getElem?_getD, List.getElem?_drop, List.getD_eq_getElem?_getD]
    congr 2
    simp only [footerLen] at *
    omega
  unfold cc2520Read cc2520GetRxfifo
  unfold RxContent.Valid at h
  simp only [RxContent.inFifo, readFifoByte, hp, if_true, Option.bind_eq_bind, Option.bind_some,
    Option.pure_def, if_pos h, hbody, readFifoBuf_eq hfoot]
  rw [if_pos (show 1 < footerLen by decide), hlast]
  by_cases hend : pins.fifopEnd = true ∧ pins.fifoEnd = false
  · exact ⟨[], by rw [if_pos hend]; rfl⟩
  · exact ⟨_, by rw [if_neg hend]⟩

/-! ## The signal values -/

/-- The frame `c` is received: its body is in the buffer, and the parameters are those of its footer. -/
structure RxOk (c : RxContent) (len : U8) (s : RxDriver) : Prop where
  len : len.toNat = c.len.toNat - footerLen
  body : ∀ k < c.len.toNat - footerLen, s.buf k = c.byte k
  crc : s.params.crc = if (c.byte (c.len.toNat - 1)).msb then 1 else 0
  rssi : s.params.lastRssi = c.byte (c.len.toNat - 2)
  lqi : s.params.lastLqi = c.byte (c.len.toNat - 1) &&& 0x7F

/-- A frame is received; of anything else nothing is stored. -/
def RxSpec (pins : FifoPins) (c : RxContent) (buf : Nat → U8) (params : RxParams) : Prop :=
  ∃ len s, cc2520Read pins (c.inFifo buf params) = some (len, s) ∧
    if c.Valid then RxOk c len s else len = 0 ∧ s.buf = buf ∧ s.params = params

/-- What the driver takes for the footer: the first two bytes of the buffer. -/
def RxContent.FooterInFront (c : RxContent) (buf : Nat → U8) : Prop :=
  c.byte (c.len.toNat - 2) = c.byte 0 ∧
    c.byte (c.len.toNat - 1) &&& 0x7F = (if 3 < c.len.toNat then c.byte 1 else buf 1) &&& 0x7F

theorem crcBit : ∀ b : U8, (b &&& footer1CrcOk) >>> 7 = if b.msb then 1 else 0 := by decide

theorem stored_front (buf : Nat → U8) (h : c.Valid) :
    c.stored buf 0 = c.byte 0 ∧
      c.stored buf 1 = if 3 < c.len.toNat then c.byte 1 else buf 1 := by
  have h2 := h.1
  unfold RxContent.stored
  simp only [footerLen] at *
  exact ⟨if_pos (by omega), by congr 1; simp only [eq_iff_iff]; omega⟩

/-- A frame of at least three bytes is received with the right values if its footer repeats the bytes
the driver looks at instead. -/
theorem rxSpec_iff :
    RxSpec pins c buf params ↔ (c.Valid → pins.fifop = true ∧ c.FooterInFront buf) := by
  unfold RxSpec
  by_cases h : c.Valid
  · have hlen : (c.len - BitVec.ofNat 8 footerLen).toNat = c.len.toNat - footerLen := by
      have h2 := h.1
      simp only [footerLen] at *
      bv_omega
    cases hp : pins.fifop with
    | false =>
      rw [getRxfifo_low hp]
      constructor
      · rintro ⟨len, s, heq, hs⟩
        cases heq
        rw [if_pos h] at hs
        have h0 := hs.len
        have h2 := h.1
        rw [show (0 : U8).toNat = 0 from rfl] at h0
        omega
      · intro hc
        exact absurd (hc h).1 (by decide)
    | true =>
      obtain ⟨fifo, hread⟩ := getRxfifo_valid buf params hp h
      obtain ⟨h0, h1⟩ := stored_front buf h
      rw [hread]
      constructor
      · rintro ⟨len, s, heq, hs⟩ -
        cases heq
        rw [if_pos h] at hs
        refine ⟨rfl, ?_, ?_⟩
        · rw [← h0]
          exact hs.rssi.symm
        · rw [← h1]
          exact hs.lqi.symm
      · intro hc
        obtain ⟨-, hrssi, hlqi⟩ := hc h
        refine ⟨_, _, rfl, ?_⟩
        rw [if_pos h]
        exact
          { len := hlen
            body := fun k hk => RxContent.stored_of_lt hk
            crc := crcBit _
            rssi := h0.trans hrssi.symm
            lqi := by rw [hlqi, ← h1]; rfl }
  · refine iff_of_true ?_ fun hv => absurd hv h
    simp only [if_neg h]
    cases hp : pins.fifop with
    | false => exact ⟨_, _, getRxfifo_low hp, rfl, rfl, rfl⟩
    | true => exact ⟨_, _, getRxfifo_invalid hp h, rfl, rfl, rfl⟩

end

/-- An empty data frame to `0x0002`, received with signal strength `0xD0`. -/
def weakFrame : RxContent where
  len := 13
  data := [0x61, 0x88, 7, 0xCD, 0xAB, 2, 0, 1, 0, 1, 0, 0xD0, 0xEB]
  complete := by decide

theorem rxSpec_fails :
    ¬ RxSpec ⟨true, false, false⟩ weakFrame (fun _ => 0) ⟨0, 0, 0⟩ := by
  rintro ⟨len, s, heq, hs⟩
  rw [if_pos (by decide)] at hs
  have hrssi : (cc2520Read ⟨true, false, false⟩ (weakFrame.inFifo (fun _ => 0) ⟨0, 0, 0⟩)).map
      (fun r => r.2.params.lastRssi) = some 0x61 := by decide
  rw [heq, Option.map_some, Option.some_inj, hs.rssi] at hrssi
  exact absurd hrssi (by decide)

/-! ## What the radio task gets -/

/-- The frame `UNET_Radio_Task` loads after `cc2520_read`. -/
def RxDriver.frame (s : RxDriver) (len : U8) : RxFrame where
  len := len.toNat
  data := s.buf
  rssi := s.params.lastRssi
  lqi := s.params.lastLqi
  crc := s.params.crc = 1

/-- The signal strength of every packet is its first frame control byte, however it was received. -/
theorem frame_signal {c : RxContent} {pins : FifoPins} {buf : Nat → U8} {params : RxParams}
    {len : U8} {s : RxDriver} (h : cc2520Read pins (c.inFifo buf params) = some (len, s))
    (hlen : 0 < len.toNat) (b : Packet) :
    ((s.frame len).load b).info.rssi = ((s.frame len).load b).packet macFrameCtrl ∧
      ((s.frame len).load b).info.rssi = c.byte 0 := by
  cases hp : pins.fifop with
  | false =>
    rw [getRxfifo_low hp] at h
    cases h
    exact absurd hlen (lt_irrefl 0)
  | true =>
    by_cases hv : c.Valid
    · obtain ⟨fifo, hread⟩ := getRxfifo_valid buf params hp hv
      rw [hread] at h
      cases h
      refine ⟨?_, (stored_front buf hv).1⟩
      rw [RxFrame.load_of_has ⟨le_rfl, Nat.lt_add_of_pos_right hlen⟩]
      rfl
    · rw [getRxfifo_invalid hp hv] at h
      cases h
      exact absurd hlen (lt_irrefl 0)

end Unet4Cooja
