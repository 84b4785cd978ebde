import Unet4Cooja.Lib.Runs
import Unet4Cooja.Radio.Cc2520

/-!
# A frame that was sent is acknowledged

* `IsMacAck`, `noteAck` : the MAC ACK frames, and the observer of the transmissions and acks of each call;
* `AckedIfOk` : `PACKET_SEND_OK` for a frame with the ACK-request bit means such an ack was received;
* `AckKept` : the frame control byte is the one the driver knows, and what the interrupt takes for an
  ack while a call waits for one is an ack of its frame;
* `ackedIfOk_of_runs` : then the calls return `PACKET_SEND_OK` as they should;
* `ackedIfOk_fails` : the ack of another frame is as good as the right one.
-/

namespace Unet4Cooja
open Lib

/-! ## What is said of the acks -/

/-- The frame has the MAC ACK-request bit set. -/
def Packet.AckRequest (p : Packet) : Prop :=
  (FrameControl.mk (p.packet macFrameCtrl) (p.packet (macFrameCtrl + 1))).ackRequest = true

instance (p : Packet) : Decidable p.AckRequest := inferInstanceAs (Decidable (_ = _))

/-- The RX FIFO holds a MAC ACK frame with the sequence number `sqn`, `[ LEN FRC.L FRC.M SQN FCH.L FCH.M ]`. -/
def IsMacAck (sqn : U8) : List U8 → Prop
  | [len, frcL, frcM, sqn', _, _] =>
    len = 5 ∧ (FrameControl.mk frcL frcM).frameType = ackFrame ∧ sqn' = sqn
  | _ => False

instance (sqn : U8) (fifo : List U8) : Decidable (IsMacAck sqn fifo) :=
  match fifo with
  | [_, _, _, _, _, _] => inferInstanceAs (Decidable (_ ∧ _))
  | [] | [_] | [_, _] | [_, _, _] | [_, _, _, _] | [_, _, _, _, _] | _ :: _ :: _ :: _ :: _ :: _ :: _ :: _ =>
    .isFalse id

namespace OutputPc

def packet : OutputPc → Option Packet
  | .idle | .returned .. => none
  | .acquire c | .retry c | .transmit c | .sent c _ | .pend c _ | .posted c | .acked c | .reset c | .delay c |
    .release c _ => some c.pkt

/-- The packet that will count as acknowledged if `TX_ACKED` is set. -/
def awaiting : OutputPc → Option Packet
  | .transmit c | .sent c .radioTxWait | .pend c _ | .posted c => some c.pkt
  | _ => none

/-- The packet for which the call returns `PACKET_SEND_OK`. -/
def sentOk : OutputPc → Option Packet
  | .sent c .radioTxErrNone | .acked c | .release c .packetSendOk | .returned c .packetSendOk => some c.pkt
  | _ => none

/-- The task is between `acquireRadio` and `releaseRadio`. -/
def Holds : OutputPc → Prop
  | .idle | .acquire _ | .returned .. => False
  | _ => True

def Pends : OutputPc → Prop
  | .pend .. => True
  | _ => False

end OutputPc

/-- What is noted of a call: its frame has been transmitted; after that an ack of it was received. -/
structure AckNote where
  transmitted : Bool
  acked : Bool

variable {τ : Type*}

/-- The note of a task when the interrupt finds `fifo`. -/
def AckNote.received (n : AckNote) (fifo : List U8) : Option Packet → AckNote
  | some pkt => { n with acked := n.acked || (n.transmitted && IsMacAck (pkt.packet macSeqNum) fifo) }
  | none => n

def noteAck [DecidableEq τ] (s : RadioSys τ) (q : τ → AckNote) : RadioAct τ → τ → AckNote
  | .call t _ _ => Function.update q t ⟨false, false⟩
  | .transmit t true => Function.update q t { q t with transmitted := true }
  | .interrupt fifo => fun t => (q t).received fifo (s.pc t).packet
  | .transmit _ false | .task _ | .tick _ | .recv => q

/-- A call has returned `PACKET_SEND_OK` for a frame with the ACK-request bit only if an ack of the frame
was received after a transmission by this call. -/
def AckedIfOk (p : RadioSys τ × (τ → AckNote)) : Prop :=
  ∀ t c, p.1.pc t = .returned c .packetSendOk → c.pkt.AckRequest → (p.2 t).acked = true

/-- The frame control byte of a frame with the ACK-request bit is the one `cc2520_write` looks for, and an
RX FIFO of the length of an ack, found while `cc2520_waiting_ack` is set and a call awaits an ack that has
not come yet, holds an ack of its frame, which it has transmitted. -/
def AckKept (p : RadioSys τ × (τ → AckNote)) : RadioAct τ → Prop
  | .call _ pkt _ => pkt.AckRequest → pkt.packet macFrameCtrl = 0x61
  | .interrupt fifo =>
    fifo.length = cc2520AckLength → p.1.waitingAck = true →
      ∀ t ∈ p.1.radioIeee802, ∀ pkt ∈ (p.1.pc t).awaiting, pkt.AckRequest →
        (p.2 t).acked = true ∨ (p.2 t).transmitted = true ∧ IsMacAck (pkt.packet macSeqNum) fifo
  | .task _ | .transmit .. | .tick _ | .recv => True

instance (p : RadioSys τ × (τ → AckNote)) (a : RadioAct τ) : Decidable (AckKept p a) :=
  match a with
  | .call _ pkt _ => inferInstanceAs (Decidable (pkt.AckRequest → _))
  | .interrupt fifo =>
    inferInstanceAs (Decidable (fifo.length = cc2520AckLength → p.1.waitingAck = true →
      ∀ t ∈ p.1.radioIeee802, ∀ pkt ∈ (p.1.pc t).awaiting, pkt.AckRequest →
        (p.2 t).acked = true ∨ (p.2 t).transmitted = true ∧ IsMacAck (pkt.packet macSeqNum) fifo))
  | .task _ | .transmit .. | .tick _ | .recv => .isTrue trivial

/-! ## The invariant -/

/-- What holds of the call of a task, given the flags and its note. -/
structure AckOf (flags : Finset RadioFlag) (n : AckNote) (pc : OutputPc) : Prop where
  known : ∀ pkt ∈ pc.packet, pkt.AckRequest → pkt.packet macFrameCtrl = 0x61
  txAck : ∀ c, pc = .transmit c → c.pkt.AckRequest → .txAck ∈ flags
  txAcked : ∀ pkt ∈ pc.awaiting, pkt.AckRequest → .txAcked ∈ flags → n.acked = true
  sentOk : ∀ pkt ∈ pc.sentOk, pkt.AckRequest → n.acked = true

structure AckAwaitInv (p : RadioSys τ × (τ → AckNote)) : Prop where
  held : ∀ t, (p.1.pc t).Holds → p.1.radioIeee802 = some t
  waits : ∀ t ∈ p.1.txWaitList, (p.1.pc t).Pends
  calls : ∀ t, AckOf p.1.radioState (p.2 t) (p.1.pc t)

/-- Where nothing is awaited and nothing was sent, only the frame control byte counts. -/
theorem AckOf.of_packet {flags flags' : Finset RadioFlag} {n n' : AckNote} {pc pc' : OutputPc}
    (h : AckOf flags n pc) (hp : pc'.packet = pc.packet ∨ pc'.packet = none)
    (ht : ∀ c, pc' ≠ .transmit c) (ha : pc'.awaiting = none) (hs : pc'.sentOk = none) :
    AckOf flags' n' pc' where
  known := by
    rcases hp with hp | hp
    · rw [hp]
      exact h.known
    · simp [hp]
  txAck := fun c e => absurd e (ht c)
  txAcked := by simp [ha]
  sentOk := by simp [hs]

theorem awaiting_holds {pc : OutputPc} {pkt : Packet} (h : pkt ∈ pc.awaiting) : pc.Holds := by
  cases pc <;> first | exact trivial | cases h

theorem awaiting_packet {pc : OutputPc} {pkt : Packet} (h : pkt ∈ pc.awaiting) : pc.packet = some pkt := by
  cases pc with
  | sent c status => cases status <;> first | exact h | cases h
  | transmit | pend | posted => exact h
  | _ => cases h

theorem pends_holds {pc : OutputPc} (h : pc.Pends) : pc.Holds := by
  cases pc <;> first | exact trivial | exact h.elim

theorem AckOf.of_not_holds {flags flags' : Finset RadioFlag} {n : AckNote} {pc : OutputPc}
    (h : AckOf flags n pc) (hh : ¬ pc.Holds) : AckOf flags' n pc where
  known := h.known
  txAck := by
    rintro c rfl
    exact absurd trivial hh
  txAcked := fun pkt ha => absurd (awaiting_holds ha) hh
  sentOk := h.sentOk

theorem AckAwaitInv.not_holds {p : RadioSys τ × (τ → AckNote)} (i : AckAwaitInv p) {t u : τ}
    (ht : p.1.radioIeee802 = some t) (hu : u ≠ t) : ¬ (p.1.pc u).Holds := by
  intro h
  have e := i.held u h
  rw [ht] at e
  exact hu (Option.some.inj e).symm

theorem AckAwaitInv.other_waits {p : RadioSys τ × (τ → AckNote)} (i : AckAwaitInv p) {t : τ} {pc : OutputPc}
    (ht : ¬ (p.1.pc t).Pends) :
    ∀ u ∈ p.1.txWaitList, (u = t ∧ pc.Pends) ∨ (u ≠ t ∧ u ∈ p.1.txWaitList) :=
  fun u hu => .inr ⟨fun e => ht (e ▸ i.waits u hu), hu⟩

variable [DecidableEq τ]

theorem AckAwaitInv.move {p p' : RadioSys τ × (τ → AckNote)} (i : AckAwaitInv p) (t : τ) {pc : OutputPc}
    (hpc : p'.1.pc = Function.update p.1.pc t pc)
    (hothers : ∀ u, u ≠ t → p'.2 u = p.2 u ∧ ((p.1.pc u).Holds →
      p'.1.radioIeee802 = p.1.radioIeee802 ∧ p'.1.radioState = p.1.radioState))
    (hwaits : ∀ u ∈ p'.1.txWaitList, (u = t ∧ pc.Pends) ∨ (u ≠ t ∧ u ∈ p.1.txWaitList))
    (hheld : pc.Holds → p'.1.radioIeee802 = some t)
    (hcall : AckOf p'.1.radioState (p'.2 t) pc) : AckAwaitInv p' where
  held u h := by
    rw [hpc] at h
    by_cases hu : u = t
    · subst hu
      rw [Function.update_self] at h
      exact hheld h
    · rw [Function.update_of_ne hu] at h
      rw [((hothers u hu).2 h).1]
      exact i.held u h
  waits u hu := by
    rw [hpc]
    rcases hwaits u hu with ⟨rfl, h⟩ | ⟨hne, h⟩
    · rwa [Function.update_self]
    · rw [Function.update_of_ne hne]
      exact i.waits u h
  calls u := by
    rw [hpc]
    by_cases hu : u = t
    · subst hu
      rwa [Function.update_self]
    · rw [Function.update_of_ne hu, (hothers u hu).1]
      by_cases h : (p.1.pc u).Holds
      · rw [((hothers u hu).2 h).2]
        exact i.calls u
      · exact (i.calls u).of_not_holds h

theorem AckAwaitInv.inside {s s' : RadioSys τ} {q : τ → AckNote} (i : AckAwaitInv (s, q)) {t : τ}
    (ht : (s.pc t).Holds) {pc : OutputPc} (hpc : s'.pc = Function.update s.pc t pc)
    (howner : s'.radioIeee802 = s.radioIeee802)
    (hwaits : ∀ u ∈ s'.txWaitList, (u = t ∧ pc.Pends) ∨ (u ≠ t ∧ u ∈ s.txWaitList))
    (hcall : AckOf s'.radioState (q t) pc) : AckAwaitInv (s', q) := by
  refine i.move t hpc (fun u hu => ⟨rfl, fun h => ?_⟩) hwaits (fun _ => ?_) hcall
  · exact absurd h (i.not_holds (i.held t ht) hu)
  · show s'.radioIeee802 = some t
    rw [howner]
    exact i.held t ht

/-- `cc2520_write` refuses a frame that is too long, or leaves the flags for the transmission. -/
theorem cc2520Write_cases (s : RadioSys τ) (t : τ) (c : OutputCall) :
    cc2520Write s t c = s.goto t (.sent c .driverError) ∨
    ∃ flags, (c.pkt.packet macFrameCtrl = 0x61 → .txAck ∈ flags ∧ .txAcked ∉ flags) ∧
      cc2520Write s t c = { s with radioState := flags }.goto t (.transmit c) := by
  unfold cc2520Write
  split
  · exact .inl rfl
  · right
    dsimp only
    by_cases h61 : c.pkt.packet macFrameCtrl = 0x61
    · have h41 : c.pkt.packet macFrameCtrl ≠ 0x41 := by rw [h61]; decide
      rw [if_neg h41, if_pos h61]
      exact ⟨_, fun _ => by simp [RadioSys.flag], rfl⟩
    · rw [if_neg h61]
      split <;> exact ⟨_, fun h => absurd h h61, rfl⟩

/-! ## The steps -/

section
variable {s s' : RadioSys τ} {q : τ → AckNote} {t : τ}

theorem AckAwaitInv.retry {c : OutputCall} (i : AckAwaitInv (s, q)) (hpc : s.pc t = .retry c) :
    AckAwaitInv (cc2520Write s t { c with txRetries := c.txRetries - 1 }, q) := by
  have hc : AckOf s.radioState (q t) (.retry c) := hpc ▸ i.calls t
  have hold : (s.pc t).Holds := by rw [hpc]; trivial
  have hpend : ¬ (s.pc t).Pends := by rw [hpc]; exact id
  obtain e | ⟨flags, hflags, e⟩ := cc2520Write_cases s t { c with txRetries := c.txRetries - 1 }
  · rw [e]
    exact i.inside hold rfl rfl (i.other_waits hpend)
      (hc.of_packet (.inl rfl) (fun _ h => nomatch h) rfl rfl)
  · rw [e]
    refine i.inside hold rfl rfl (i.other_waits hpend) ⟨hc.known, ?_, ?_, by simp [OutputPc.sentOk]⟩
    · rintro c' e hreq
      cases e
      exact (hflags (hc.known _ rfl hreq)).1
    · rintro pkt hp hreq hacked
      cases hp
      exact absurd hacked (hflags (hc.known _ rfl hreq)).2

theorem AckAwaitInv.task (i : AckAwaitInv (s, q)) (h : unetPacketOutput s t (s.pc t) = some s') :
    AckAwaitInv (s', q) := by
  have hc := i.calls t
  cases hpc : s.pc t with
  | idle | transmit | returned => simp [hpc, unetPacketOutput] at h
  | acquire c =>
    simp only [hpc, unetPacketOutput] at h hc
    split at h
    · rename_i hfree
      cases h
      refine i.move t rfl (fun u _ => ⟨rfl, fun hu => ?_⟩) (i.other_waits (by rw [hpc]; exact id))
        (fun _ => rfl) (hc.of_packet (.inl rfl) (fun _ h => nomatch h) rfl rfl)
      have hu := i.held u hu
      rw [hfree] at hu
      cases hu
    · cases h
  | retry c =>
    simp only [hpc, unetPacketOutput] at h hc
    cases h
    split
    · exact i.retry hpc
    · exact i.inside (by rw [hpc]; trivial) rfl rfl (i.other_waits (by rw [hpc]; exact id))
        (hc.of_packet (.inl rfl) (fun _ h => nomatch h) rfl rfl)
  | sent c status =>
    have hold : (s.pc t).Holds := by rw [hpc]; trivial
    have hpend : ¬ (s.pc t).Pends := by rw [hpc]; exact id
    rw [hpc] at h hc
    cases status with
    | driverError | radioTxErrCollision =>
      cases h
      exact i.inside hold rfl rfl (i.other_waits hpend)
        (hc.of_packet (.inl rfl) (fun _ h => nomatch h) rfl rfl)
    | radioTxErrNone =>
      cases h
      exact i.inside hold rfl rfl (i.other_waits hpend)
        ⟨hc.known, (fun _ h => nomatch h), by simp [OutputPc.awaiting], hc.sentOk⟩
    | radioTxWait =>
      simp only [unetPacketOutput, pendTxEvent, Option.some.injEq] at h
      split at h <;> cases h
      · exact i.inside hold rfl rfl (i.other_waits hpend)
          ⟨hc.known, (fun _ h => nomatch h), hc.txAcked, by simp [OutputPc.sentOk]⟩
      · refine i.inside hold rfl rfl (fun u hu => ?_)
          ⟨hc.known, (fun _ h => nomatch h), hc.txAcked, by simp [OutputPc.sentOk]⟩
        rcases List.mem_cons.mp hu with rfl | hu
        · exact .inl ⟨rfl, trivial⟩
        · exact i.other_waits hpend u hu
  | pend c timedOut =>
    have hold : (s.pc t).Holds := by rw [hpc]; trivial
    simp only [hpc, unetPacketOutput] at h hc
    split at h
    · split at h <;> cases h
      refine i.inside hold rfl rfl (fun u hu => ?_)
        (hc.of_packet (.inl rfl) (fun _ h => nomatch h) rfl rfl)
      simp only [RadioSys.goto, List.mem_filter, decide_eq_true_eq] at hu
      exact .inr ⟨hu.2, hu.1⟩
    · rename_i hmem
      cases h
      exact i.inside hold rfl rfl (fun u hu => .inr ⟨fun e => hmem (e ▸ hu), hu⟩)
        ⟨hc.known, (fun _ h => nomatch h), hc.txAcked, by simp [OutputPc.sentOk]⟩
  | posted c =>
    have hold : (s.pc t).Holds := by rw [hpc]; trivial
    have hpend : ¬ (s.pc t).Pends := by rw [hpc]; exact id
    simp only [hpc, unetPacketOutput] at h hc
    cases h
    refine i.inside hold rfl rfl (i.other_waits hpend) ?_
    split
    · rename_i hacked
      refine ⟨hc.known, (fun _ h => nomatch h), by simp [OutputPc.awaiting], fun pkt hp hreq => ?_⟩
      exact hc.txAcked pkt hp hreq hacked
    · exact hc.of_packet (.inl rfl) (fun _ h => nomatch h) rfl rfl
  | acked c =>
    have hold : (s.pc t).Holds := by rw [hpc]; trivial
    have hpend : ¬ (s.pc t).Pends := by rw [hpc]; exact id
    simp only [hpc, unetPacketOutput] at h hc
    cases h
    exact i.inside hold rfl rfl (i.other_waits hpend)
      ⟨hc.known, (fun _ h => nomatch h), by simp [OutputPc.awaiting], hc.sentOk⟩
  | reset c | delay c =>
    have hold : (s.pc t).Holds := by rw [hpc]; trivial
    have hpend : ¬ (s.pc t).Pends := by rw [hpc]; exact id
    simp only [hpc, unetPacketOutput] at h hc
    cases h
    exact i.inside hold rfl rfl (i.other_waits hpend)
      (hc.of_packet (.inl rfl) (fun _ h => nomatch h) rfl rfl)
  | release c res =>
    have hold : (s.pc t).Holds := by rw [hpc]; trivial
    simp only [hpc, unetPacketOutput] at h hc
    cases h
    refine i.move t rfl (fun u hu => ⟨rfl, fun h => absurd h (i.not_holds (i.held t hold) hu)⟩)
      (i.other_waits (by rw [hpc]; exact id)) (fun h => h.elim) ?_
    cases res with
    | packetSendOk =>
      exact ⟨by simp [OutputPc.packet], (fun _ h => nomatch h), by simp [OutputPc.awaiting], hc.sentOk⟩
    | packetSendErr => exact hc.of_packet (.inr rfl) (fun _ h => nomatch h) rfl rfl

theorem AckAwaitInv.call (i : AckAwaitInv (s, q)) {pkt : Packet} (txRetries : U8)
    (hidle : ¬ (s.pc t).Holds) (hk : pkt.AckRequest → pkt.packet macFrameCtrl = 0x61) :
    AckAwaitInv (s.goto t (.acquire ⟨pkt, txRetries⟩), Function.update q t ⟨false, false⟩) := by
  refine i.move t rfl (fun u hu => ⟨Function.update_of_ne hu .., fun _ => ⟨rfl, rfl⟩⟩)
    (i.other_waits fun h => hidle (pends_holds h)) (fun h => h.elim)
    ⟨?_, (fun _ h => nomatch h), by simp [OutputPc.awaiting], by simp [OutputPc.sentOk]⟩
  rintro pkt' hp hreq
  cases hp
  exact hk hreq

theorem AckAwaitInv.transmit {c : OutputCall} (i : AckAwaitInv (s, q)) (hpc : s.pc t = .transmit c)
    (transmitted : Bool) :
    AckAwaitInv (cc2520Transmit s t c transmitted, noteAck s q (.transmit t transmitted)) := by
  have hc : AckOf s.radioState (q t) (.transmit c) := hpc ▸ i.calls t
  have hold : (s.pc t).Holds := by rw [hpc]; trivial
  have hpend : ¬ (s.pc t).Pends := by rw [hpc]; exact id
  cases transmitted with
  | false =>
    exact i.inside hold rfl rfl (i.other_waits hpend)
      (hc.of_packet (.inl rfl) (fun _ h => nomatch h) rfl rfl)
  | true =>
    have others (u : τ) (hu : u ≠ t) : ¬ (s.pc u).Holds := i.not_holds (i.held t hold) hu
    simp only [cc2520Transmit, if_true, noteAck]
    split
    · refine i.move t rfl (fun u hu => ⟨Function.update_of_ne hu .., fun h => absurd h (others u hu)⟩)
        (i.other_waits hpend) (fun _ => i.held t hold)
        ⟨hc.known, (fun _ h => nomatch h), fun pkt hp hreq hacked => ?_, by simp [OutputPc.sentOk]⟩
      dsimp only
      rw [Function.update_self]
      exact hc.txAcked pkt hp hreq hacked
    · rename_i hflag
      refine i.move t rfl (fun u hu => ⟨Function.update_of_ne hu .., fun h => absurd h (others u hu)⟩)
        (i.other_waits hpend) (fun _ => i.held t hold)
        ⟨hc.known, (fun _ h => nomatch h), by simp [OutputPc.awaiting], fun pkt hp hreq => ?_⟩
      -- without the flag no ack was requested
      cases hp
      exact absurd (hc.txAck c rfl hreq) hflag

/-! ### The interrupt -/

section
variable {σ : Type*} (s : RadioSys σ) (n : Nat)

@[simp] theorem flag_pc (f : RadioFlag) (b : Bool) : (s.flag f b).pc = s.pc := rfl

@[simp] theorem flag_radioIeee802 (f : RadioFlag) (b : Bool) :
    (s.flag f b).radioIeee802 = s.radioIeee802 := rfl

@[simp] theorem flag_txWaitList (f : RadioFlag) (b : Bool) : (s.flag f b).txWaitList = s.txWaitList := rfl

theorem mem_flag (f g : RadioFlag) (b : Bool) :
    g ∈ (s.flag f b).radioState ↔ (g = f ∧ b = true) ∨ (g ≠ f ∧ g ∈ s.radioState) := by
  cases b <;> by_cases h : g = f <;> simp [RadioSys.flag, h]

/-- What an interrupt leaves alone; it sets `TX_ACKED` only if `p`. -/
structure Interrupted (s u : RadioSys σ) (p : Prop) : Prop where
  pc : u.pc = s.pc
  radioIeee802 : u.radioIeee802 = s.radioIeee802
  txWaitList : ∀ t ∈ u.txWaitList, t ∈ s.txWaitList
  txAck : .txAck ∈ u.radioState ↔ .txAck ∈ s.radioState
  txAcked : .txAcked ∈ u.radioState → .txAcked ∈ s.radioState ∨ p

theorem Interrupted.trans {s u v : RadioSys σ} {p : Prop} (h : Interrupted s u p)
    (h' : Interrupted u v False) : Interrupted s v p where
  pc := h'.pc.trans h.pc
  radioIeee802 := h'.radioIeee802.trans h.radioIeee802
  txWaitList t ht := h.txWaitList t (h'.txWaitList t ht)
  txAck := h'.txAck.trans h.txAck
  txAcked ha := h.txAcked ((h'.txAcked ha).resolve_right id)

theorem Interrupted.flag {f : RadioFlag} (h : f ≠ .txAck) (h' : f ≠ .txAcked) (b : Bool) :
    Interrupted s (s.flag f b) False := by
  refine ⟨rfl, rfl, fun t ht => ht, ?_, fun ha => .inl ?_⟩
  · simp [mem_flag, h.symm]
  · simpa [mem_flag, h'.symm] using ha

theorem interrupted_postTxEvent : Interrupted s (postTxEvent s) False := by
  unfold postTxEvent
  split
  · exact ⟨rfl, rfl, fun t h => h, Iff.rfl, .inl⟩
  · rename_i h
    exact ⟨rfl, rfl, fun t ht => h ▸ List.mem_cons_of_mem _ ht, Iff.rfl, .inl⟩

theorem interrupted_unetRadioIsrHandler : Interrupted s (unetRadioIsrHandler s) False := by
  have rx : ∀ u : RadioSys σ, Interrupted s u False →
      Interrupted s { (u.flag .rxDisabled true).flag .rxOk false with
        radioRxEvent := osSemPost u.radioRxEvent } False := by
    intro u h
    have h := (h.trans (.flag u (f := .rxDisabled) (by decide) (by decide) true)).trans
      (.flag _ (f := .rxOk) (by decide) (by decide) false)
    exact ⟨h.pc, h.radioIeee802, h.txWaitList, h.txAck, h.txAcked⟩
  have tx : ∀ u : RadioSys σ, Interrupted s u False → Interrupted s (postTxEvent (u.flag .txOk false)) False :=
    fun u h => (h.trans (.flag u (by decide) (by decide) false)).trans (interrupted_postTxEvent _)
  have same : Interrupted s s False := ⟨rfl, rfl, fun t h => h, Iff.rfl, .inl⟩
  unfold unetRadioIsrHandler
  dsimp only
  split <;> split
  · exact tx _ (rx s same)
  · exact tx s same
  · exact rx s same
  · exact same

theorem interrupted_radioRxInterrupt :
    Interrupted s (radioRxInterrupt s n) (n = cc2520AckLength ∧ s.waitingAck = true) := by
  unfold radioRxInterrupt
  refine .trans ?_ (interrupted_unetRadioIsrHandler _)
  dsimp only
  split
  · split
    · constructor <;> simp_all [mem_flag]
    · constructor <;> simp_all [mem_flag]
  · split <;> constructor <;> simp_all [mem_flag]

end

theorem AckAwaitInv.interrupt (i : AckAwaitInv (s, q)) {fifo : List U8} (hok : AckKept (s, q) (.interrupt fifo)) :
    AckAwaitInv (radioRxInterrupt s fifo.length, noteAck s q (.interrupt fifo)) := by
  have h := interrupted_radioRxInterrupt s fifo.length
  -- a note only gains acks
  have gains (u : τ) : (q u).acked = true → ((q u).received fifo (s.pc u).packet).acked = true := by
    intro ha
    cases (s.pc u).packet <;> simp [AckNote.received, ha]
  refine ⟨fun u hu => ?_, fun u hu => ?_, fun u => ?_⟩
  · rw [h.radioIeee802]
    exact i.held u (h.pc ▸ hu)
  · rw [h.pc]
    exact i.waits u (h.txWaitList u hu)
  · have hc := i.calls u
    rw [h.pc]
    refine ⟨hc.known, fun c e hreq => h.txAck.mpr (hc.txAck c e hreq), fun pkt hp hreq hacked => ?_,
      fun pkt hp hreq => gains u (hc.sentOk pkt hp hreq)⟩
    rcases h.txAcked hacked with hbefore | ⟨hlen, hwait⟩
    · exact gains u (hc.txAcked pkt hp hreq hbefore)
    · obtain ha | ⟨hsent, hack⟩ := hok hlen hwait u (i.held u (awaiting_holds hp)) pkt hp hreq
      · exact gains u ha
      · have hpkt : (s.pc u).packet = some pkt := awaiting_packet hp
        have hsent : (q u).transmitted = true := hsent
        show ((q u).received fifo (s.pc u).packet).acked = true
        simp [hpkt, AckNote.received, hsent, hack]

omit [DecidableEq τ] in
theorem AckAwaitInv.recv (i : AckAwaitInv (s, q)) (h : unetRadioTaskRecv s = some s') : AckAwaitInv (s', q) := by
  unfold unetRadioTaskRecv at h
  split at h
  · cases h
    have h := (Interrupted.flag s (f := .rxOk) (by decide) (by decide) false).trans
      (.flag _ (f := .rxDisabled) (by decide) (by decide) false)
    refine ⟨i.held, i.waits, fun u => ⟨(i.calls u).known, fun c e hreq => ?_, fun pkt hp hreq ha => ?_,
      (i.calls u).sentOk⟩⟩
    · exact h.txAck.mpr ((i.calls u).txAck c e hreq)
    · exact (i.calls u).txAcked pkt hp hreq ((h.txAcked ha).resolve_right id)
  · cases h

theorem AckAwaitInv.step {p p' : RadioSys τ × (τ → AckNote)} {a : RadioAct τ} (i : AckAwaitInv p)
    (hok : AckKept p a) (h : watched radioStep noteAck p a = some p') : AckAwaitInv p' := by
  obtain ⟨s, q⟩ := p
  obtain ⟨s', q'⟩ := p'
  obtain ⟨h, rfl⟩ := watched_eq_some.mp h
  cases a with
  | call t pkt txRetries =>
    simp only [radioStep] at h
    split at h <;> cases h
    · rename_i hpc
      exact i.call txRetries (by rw [hpc]; exact id) hok
    · rename_i hpc
      exact i.call txRetries (by rw [hpc]; exact id) hok
  | task t => exact i.task h
  | transmit t transmitted =>
    simp only [radioStep] at h
    split at h <;> cases h
    rename_i hpc
    exact i.transmit hpc transmitted
  | tick t =>
    simp only [radioStep] at h
    split at h <;> cases h
    rename_i c b hpc
    have hc : AckOf s.radioState (q t) (.pend c b) := hpc ▸ i.calls t
    refine i.inside (by rw [hpc]; trivial) rfl rfl (fun u hu => ?_)
      ⟨hc.known, (fun _ h => nomatch h), hc.txAcked, by simp [OutputPc.sentOk]⟩
    by_cases hut : u = t
    · exact .inl ⟨hut, trivial⟩
    · exact .inr ⟨hut, hu⟩
  | interrupt fifo =>
    simp only [radioStep] at h
    split at h <;> cases h
    exact i.interrupt hok
  | recv => exact i.recv h

end

/-! ## The runs -/

def ackStart : RadioSys τ × (τ → AckNote) := (.start, fun _ => ⟨false, false⟩)

omit [DecidableEq τ] in
theorem ackInv_ackStart : AckAwaitInv (ackStart : RadioSys τ × (τ → AckNote)) where
  held _ h := h.elim
  waits _ h := nomatch h
  calls _ := ⟨(fun _ h => nomatch h), (fun _ h => nomatch h), (fun _ h => nomatch h), (fun _ h => nomatch h)⟩

theorem AckAwaitInv.of_runs {p : RadioSys τ × (τ → AckNote)} {as : List (RadioAct τ)}
    (r : Runs (watched radioStep noteAck) AckKept ackStart as p) : AckAwaitInv p :=
  r.invariant ackInv_ackStart fun _ _ _ i hok h => i.step hok h

/-- At most one task waits for `Radio_TX_Event`: no priority decides which one a post wakes up. -/
theorem waits_alone {p : RadioSys τ × (τ → AckNote)} {as : List (RadioAct τ)}
    (r : Runs (watched radioStep noteAck) AckKept ackStart as p) :
    ∀ t ∈ p.1.txWaitList, ∀ u ∈ p.1.txWaitList, t = u := by
  intro t ht u hu
  have i := AckAwaitInv.of_runs r
  have h := i.held t (pends_holds (i.waits t ht))
  rw [i.held u (pends_holds (i.waits u hu))] at h
  exact (Option.some.inj h).symm

/-- If what the interrupt takes for an ack is one, a call returns `PACKET_SEND_OK` for a frame with the
ACK-request bit only if the frame was acknowledged. -/
theorem ackedIfOk_of_runs {p : RadioSys τ × (τ → AckNote)} {as : List (RadioAct τ)}
    (r : Runs (watched radioStep noteAck) AckKept ackStart as p) : AckedIfOk p := by
  intro t c hpc hreq
  have hc := (AckAwaitInv.of_runs r).calls t
  rw [hpc] at hc
  exact hc.sentOk c.pkt rfl hreq

/-- A frame with the ACK-request bit and the sequence number 7. -/
def ackedPacket : Packet where
  info := { (default : PacketInfo) with size := 33 }
  packet k := if k = macFrameCtrl then 0x61 else if k = macSeqNum then 7 else 0
  state := .busy

/-- What an ack of the frame with the sequence number `sqn` leaves in the RX FIFO. -/
def ackFifo (sqn : U8) : List U8 := [5, 2, 0, sqn, 0, 0x80]

/-- The call of the task `false` sends the frame; while it waits, `fifo` is received. -/
def ackRun (fifo : List U8) : List (RadioAct Bool) :=
  [.call false ackedPacket 1, .task false, .task false, .transmit false true, .task false,
    .interrupt fifo, .task false, .task false, .task false, .task false]

/-- The task `false` has returned `PACKET_SEND_OK` for the frame. -/
def returnedOk (s : RadioSys Bool) : Bool :=
  match s.pc false with
  | .returned c .packetSendOk => decide c.pkt.AckRequest
  | _ => false

/-- The call returns `PACKET_SEND_OK` after the ack of its frame. -/
theorem ackedIfOk_of_runs_acked : ∃ p : RadioSys Bool × (Bool → AckNote),
    returnedOk p.1 = true ∧ AckedIfOk p := by
  have h : (exec (guarded (watched radioStep noteAck) AckKept) ackStart (ackRun (ackFifo 7))).map
      (fun p => returnedOk p.1) = some true := by decide +kernel
  obtain ⟨p, hp, hok⟩ := Option.map_eq_some_iff.mp h
  exact ⟨p, hok, ackedIfOk_of_runs (Runs.of_exec_guarded hp)⟩

/-- While the call waits, the ack of the frame 8 is received, which another node has sent: the call returns
`PACKET_SEND_OK` for the frame 7. -/
theorem ackedIfOk_fails : ¬ ∀ as (p : RadioSys Bool × (Bool → AckNote)),
    Runs (watched radioStep noteAck) Free ackStart as p → AckedIfOk p := by
  intro hall
  have h : (exec (watched radioStep noteAck) ackStart (ackRun (ackFifo 8))).map
      (fun p => (returnedOk p.1, (p.2 false).acked)) = some (true, false) := by decide +kernel
  obtain ⟨p, hp, hok⟩ := Option.map_eq_some_iff.mp h
  obtain ⟨hret, hacked⟩ := Prod.mk.inj hok
  have hrun := hall _ p (Runs.of_exec hp)
  unfold returnedOk at hret
  split at hret
  · rename_i c hpc
    have ha := hrun false c hpc (of_decide_eq_true hret)
    rw [hacked] at ha
    cases ha
  · cases hret

end Unet4Cooja
