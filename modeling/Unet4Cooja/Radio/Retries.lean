import Unet4Cooja.Lib.ForRange
import Unet4Cooja.Radio.Cc2520

/-!
# Transmission with retries (`unet_packet_output`)

* `Attempt` : what a round of the loop meets, whatever the driver and the interrupt do;
* `outputLoop`, `unetPacketOutputCall` : a whole call, with the statistics it updates;
* `NodeStats`, `nodestatUpdate` : the counters behind these updates;
* `outputLoop_ended`, `outputLoop_exhausted` : how the loop ends;
* `retriesOk_iff`, `retriesOk_fails` : when the statistic of exhausted calls is right.
-/

namespace Unet4Cooja
open Lib

def radioTxErrNone : Int := 0

def radioTxWait : Int := 4

/-- One round: what `UNET_RADIO.send` returns, whether `Radio_TX_Event` is posted before `TX_TIMEOUT`, and
`is_radio_tx_acked` of the state read then. -/
structure Attempt where
  radioStatus : Int
  posted : Bool
  acked : Bool
  deriving DecidableEq

/-- The statistics `unet_packet_output` updates. -/
inductive NodeStat
  | txed | txfailed | txmaxretries | radionack
  deriving DecidableEq

/-- The local variables of `unet_packet_output`, the number of calls of `UNET_RADIO.send`, and the
`NODESTAT_UPDATE`s made so far. -/
structure OutputRun where
  txRetries : U8
  res : PacketSend
  attempts : Nat
  updates : List NodeStat
  deriving DecidableEq

/-- `NODESTAT_UPDATE`. -/
def OutputRun.update (o : OutputRun) (x : NodeStat) : OutputRun :=
  { o with updates := o.updates ++ [x] }

theorem toNat_sub_one {c : U8} (h : 0 < c) : (c - 1).toNat = c.toNat - 1 := by bv_omega

theorem toNat_sub_one_lt {c : U8} (h : 0 < c) : (c - 1).toNat < c.toNat := by bv_omega

/-- `while (tx_retries-- > 0)`. -/
def outputLoop (attempt : Nat → Attempt) (o : OutputRun) : OutputRun :=
  let next := { o with txRetries := o.txRetries - 1 }
  if _h : 0 < o.txRetries then
    let a := attempt o.attempts
    let next := { next with attempts := o.attempts + 1 }
    if a.radioStatus = -1 then next
    else if a.radioStatus = radioTxErrNone then { next.update .txed with res := .packetSendOk }
    else if a.radioStatus = radioTxWait then
      if a.posted then
        if a.acked then { next.update .txed with res := .packetSendOk }
        else outputLoop attempt ((next.update .txed).update .radionack)
      else outputLoop attempt (next.update .txfailed)
    else outputLoop attempt next
  else next
termination_by o.txRetries.toNat
decreasing_by all_goals exact toNat_sub_one_lt _h

def unetPacketOutputCall (attempt : Nat → Attempt) (txRetries : U8) : OutputRun :=
  let o := outputLoop attempt ⟨txRetries, .packetSendErr, 0, []⟩
  if o.txRetries = 0 then o.update .txmaxretries else o

/-! ## The statistics -/

/-- The four counters in `UNET_NodeStat`, and `UNET_NodeStat_Ctrl`. -/
structure NodeStats where
  enabled : Bool
  counter : NodeStat → U16

/-- `NODESTAT_UPDATE(x)`: a counter that reaches its largest value resets them all. -/
def nodestatUpdate (s : NodeStats) (x : NodeStat) : NodeStats :=
  if s.enabled then
    let counter := Function.update s.counter x (s.counter x + 1)
    if counter x = 0xFFFF then { s with counter := fun _ => 0 } else { s with counter := counter }
  else s

/-- While they count and none of them is at its end, a counter grows by the number of its updates. -/
theorem counter_after (x : NodeStat) (us : List NodeStat) (s : NodeStats) (hs : s.enabled = true)
    (hroom : ∀ y, (s.counter y).toNat + us.count y < 0xFFFF) :
    ((us.foldl nodestatUpdate s).counter x).toNat = (s.counter x).toNat + us.count x := by
  induction us generalizing s with
  | nil => rfl
  | cons u us ih =>
    have hu := hroom u
    rw [List.count_cons_self] at hu
    have hnext : (s.counter u + 1).toNat = (s.counter u).toNat + 1 := by bv_omega
    have hstep : nodestatUpdate s u =
        { s with counter := Function.update s.counter u (s.counter u + 1) } := by
      unfold nodestatUpdate
      dsimp only
      rw [if_pos hs, Function.update_self, if_neg]
      intro h
      rw [h] at hnext
      change 0xFFFF = _ at hnext
      omega
    have hcount : ∀ y, ((nodestatUpdate s u).counter y).toNat + us.count y =
        (s.counter y).toNat + (u :: us).count y := by
      intro y
      rw [hstep, List.count_cons]
      dsimp only
      rw [Function.update_apply]
      by_cases h : y = u
      · rw [h, if_pos rfl, if_pos (beq_self_eq_true u), hnext]
        omega
      · rw [if_neg h, if_neg (by simpa using Ne.symm h)]
        rfl
    rw [List.foldl_cons, ih _ (by rw [hstep]; exact hs), hcount]
    intro y
    rw [hcount]
    exact hroom y

theorem txmaxretries_grows {us : List NodeStat} {s : NodeStats} (hs : s.enabled = true)
    (hroom : ∀ y, (s.counter y).toNat + us.count y < 0xFFFF) :
    (s.counter .txmaxretries).toNat < ((us.foldl nodestatUpdate s).counter .txmaxretries).toNat ↔
      .txmaxretries ∈ us := by
  rw [counter_after _ us s hs hroom, ← List.count_pos_iff]
  omega

/-! ## How the loop ends -/

namespace Attempt

/-- The driver could not put the packet into the radio. -/
def driverError (a : Attempt) : Prop := a.radioStatus = -1

/-- The packet is sent and no ack is needed, or it is acked. -/
def succeeds (a : Attempt) : Prop :=
  a.radioStatus = radioTxErrNone ∨ (a.radioStatus = radioTxWait ∧ a.posted = true ∧ a.acked = true)

/-- The loop is left by `break`. -/
def ends (a : Attempt) : Prop := a.driverError ∨ a.succeeds

instance (a : Attempt) : Decidable a.driverError :=
  inferInstanceAs (Decidable (a.radioStatus = -1))

instance (a : Attempt) : Decidable a.succeeds :=
  inferInstanceAs (Decidable (_ ∨ _))

instance (a : Attempt) : Decidable a.ends := inferInstanceAs (Decidable (_ ∨ _))

theorem succeeds.not_driverError {a : Attempt} (h : a.succeeds) : ¬a.driverError := by
  intro hd
  unfold driverError at hd
  rcases h with h | ⟨h, _⟩ <;> rw [hd] at h <;> exact absurd h (by decide)

def updates (a : Attempt) : List NodeStat :=
  if a.radioStatus = radioTxErrNone then [.txed]
  else if a.radioStatus = radioTxWait then
    if a.posted then if a.acked then [.txed] else [.txed, .radionack] else [.txfailed]
  else []

end Attempt

section
variable {attempt : Nat → Attempt} {o : OutputRun} {i : Nat}

def roundUpdates (attempt : Nat → Attempt) (k m : Nat) : List NodeStat :=
  (List.range' k m).flatMap fun j => (attempt j).updates

theorem roundUpdates_succ (attempt : Nat → Attempt) (k m : Nat) :
    roundUpdates attempt k (m + 1) = (attempt k).updates ++ roundUpdates attempt (k + 1) m := by
  unfold roundUpdates
  rw [List.range'_succ, List.flatMap_cons]

/-- The state in which a round leaves the loop or goes on. -/
def OutputRun.round (o : OutputRun) (a : Attempt) : OutputRun :=
  { o with
    txRetries := o.txRetries - 1
    attempts := o.attempts + 1
    updates := o.updates ++ a.updates }

theorem outputLoop_round (h : 0 < o.txRetries) :
    outputLoop attempt o =
      if (attempt o.attempts).ends then
        { o.round (attempt o.attempts) with
          res := if (attempt o.attempts).succeeds then .packetSendOk else o.res }
      else outputLoop attempt (o.round (attempt o.attempts)) := by
  rw [outputLoop]
  dsimp only
  rw [dif_pos h]
  generalize attempt o.attempts = a
  obtain ⟨st, posted, acked⟩ := a
  unfold OutputRun.round Attempt.updates Attempt.ends Attempt.succeeds Attempt.driverError
  by_cases hdriver : st = -1
  · subst hdriver
    simp [radioTxErrNone, radioTxWait]
  by_cases hnone : st = radioTxErrNone
  · subst hnone
    simp [OutputRun.update, radioTxErrNone]
  by_cases hwait : st = radioTxWait
  · subst hwait
    cases posted <;> cases acked <;> simp [OutputRun.update, radioTxErrNone, radioTxWait]
  · simp [hdriver, hnone, hwait]

theorem outputLoop_ended (hi : i < o.txRetries.toNat) (hend : (attempt (o.attempts + i)).ends)
    (hbefore : ∀ j < i, ¬(attempt (o.attempts + j)).ends) :
    outputLoop attempt o =
      { txRetries := o.txRetries - BitVec.ofNat 8 (i + 1)
        res := if (attempt (o.attempts + i)).succeeds then .packetSendOk else o.res
        attempts := o.attempts + (i + 1)
        updates := o.updates ++ roundUpdates attempt o.attempts (i + 1) } := by
  induction i generalizing o with
  | zero =>
    rw [Nat.add_zero] at hend ⊢
    rw [outputLoop_round (by bv_omega), if_pos hend, roundUpdates_succ]
    simp [OutputRun.round, roundUpdates]
  | succ i ih =>
    have hpos : 0 < o.txRetries := by bv_omega
    have hnot : ¬(attempt o.attempts).ends := hbefore 0 (Nat.succ_pos i)
    have hnext : ∀ j, (o.round (attempt o.attempts)).attempts + j = o.attempts + (j + 1) :=
      fun j => by simp only [OutputRun.round]; omega
    have hlater : ∀ j < i, ¬(attempt ((o.round (attempt o.attempts)).attempts + j)).ends := by
      intro j hj
      rw [hnext]
      exact hbefore (j + 1) (Nat.succ_lt_succ hj)
    have hleft : i < (o.round (attempt o.attempts)).txRetries.toNat := by
      have := toNat_sub_one hpos
      simp only [OutputRun.round]
      omega
    rw [outputLoop_round hpos, if_neg hnot, ih hleft (by rw [hnext]; exact hend) hlater, hnext,
      roundUpdates_succ attempt o.attempts]
    simp only [OutputRun.round, List.append_assoc, OutputRun.mk.injEq, true_and]
    refine ⟨?_, ?_, trivial⟩
    · bv_omega
    · omega

/-- No round leaves the loop: the test that fails takes the counter below zero. -/
theorem outputLoop_exhausted (h : ∀ j < o.txRetries.toNat, ¬(attempt (o.attempts + j)).ends) :
    outputLoop attempt o =
      { txRetries := 0xFF
        res := o.res
        attempts := o.attempts + o.txRetries.toNat
        updates := o.updates ++ roundUpdates attempt o.attempts o.txRetries.toNat } := by
  induction hm : o.txRetries.toNat generalizing o with
  | zero =>
    have hzero : o.txRetries = 0 := BitVec.eq_of_toNat_eq hm
    rw [outputLoop, dif_neg (by rw [hzero]; decide), hzero]
    simp [roundUpdates]
  | succ m ih =>
    have hpos : 0 < o.txRetries := by bv_omega
    have hleft := toNat_sub_one hpos
    have hnext : ∀ j, (o.round (attempt o.attempts)).attempts + j = o.attempts + (j + 1) :=
      fun j => by simp only [OutputRun.round]; omega
    have hnot : ¬(attempt o.attempts).ends := h 0 (by omega)
    rw [outputLoop_round hpos, if_neg hnot, ih, hnext, roundUpdates_succ]
    · simp [OutputRun.round]
    · intro j hj
      rw [hnext]
      apply h
      simp only [OutputRun.round] at hj
      omega
    · simp only [OutputRun.round]
      omega

end

/-! ## A whole call -/

/-- What a call is to do, given what its rounds meet. -/
structure RetriesOk (attempt : Nat → Attempt) (txRetries : U8) (o : OutputRun) : Prop where
  bound : o.attempts ≤ txRetries.toNat
  ok : o.res = .packetSendOk ↔
    ∃ i < o.attempts, (attempt i).succeeds ∧ ∀ j < i, ¬(attempt j).driverError
  counted : .txmaxretries ∈ o.updates ↔
    0 < txRetries.toNat ∧ o.attempts = txRetries.toNat ∧ ∀ i < o.attempts, ¬(attempt i).succeeds

/-- The loop makes no round, leaves before its last round, or leaves there with a driver error. -/
def LeavesEarly (attempt : Nat → Attempt) (txRetries : U8) : Prop :=
  txRetries = 0 ∨ (∃ i, i + 1 < txRetries.toNat ∧ (attempt i).ends) ∨
    (attempt (txRetries.toNat - 1)).driverError

section
variable {attempt : Nat → Attempt} {txRetries : U8}

theorem not_mem_roundUpdates (k m : Nat) : .txmaxretries ∉ roundUpdates attempt k m := by
  unfold roundUpdates
  rw [List.mem_flatMap]
  rintro ⟨j, _, hj⟩
  unfold Attempt.updates at hj
  split_ifs at hj <;> simp at hj

/-- The first round that leaves the loop is round `i`. -/
structure EndsIn (attempt : Nat → Attempt) (txRetries : U8) (i : Nat) : Prop where
  lt : i < txRetries.toNat
  ends : (attempt i).ends
  before : ∀ j < i, ¬(attempt j).ends

theorem endsIn_or_exhausted (attempt : Nat → Attempt) (txRetries : U8) :
    (∃ i, EndsIn attempt txRetries i) ∨ ∀ j < txRetries.toNat, ¬(attempt j).ends := by
  cases hf : firstBelow txRetries.toNat fun i => (attempt i).ends with
  | none => exact .inr fun j hj => by simpa using firstBelow_eq_none.mp hf j hj
  | some i =>
    obtain ⟨hlt, hi, hb⟩ := firstBelow_eq_some.mp hf
    exact .inl ⟨i, hlt, by simpa using hi, fun j hj => by simpa using hb j hj⟩

/-- A `break` in the last round leaves the counter at zero, as if the rounds were used up. -/
theorem EndsIn.call {i : Nat} (h : EndsIn attempt txRetries i) :
    unetPacketOutputCall attempt txRetries =
      { txRetries := txRetries - BitVec.ofNat 8 (i + 1)
        res := if (attempt i).succeeds then .packetSendOk else .packetSendErr
        attempts := i + 1
        updates := roundUpdates attempt 0 (i + 1) ++
          if i + 1 = txRetries.toNat then [.txmaxretries] else [] } := by
  have hlt := h.lt
  have hloop := outputLoop_ended (o := ⟨txRetries, .packetSendErr, 0, []⟩) (i := i) hlt
    (by simpa using h.ends) (by simpa using h.before)
  simp only [Nat.zero_add, List.nil_append] at hloop
  have hzero : txRetries - BitVec.ofNat 8 (i + 1) = 0 ↔ i + 1 = txRetries.toNat := by
    constructor
    · intro e
      bv_omega
    · intro e
      bv_omega
  unfold unetPacketOutputCall
  rw [hloop]
  dsimp only
  by_cases hlast : i + 1 = txRetries.toNat
  · rw [if_pos (hzero.mpr hlast), if_pos hlast]
    rfl
  · rw [if_neg (fun e => hlast (hzero.mp e)), if_neg hlast, List.append_nil]

theorem call_exhausted (h : ∀ j < txRetries.toNat, ¬(attempt j).ends) :
    unetPacketOutputCall attempt txRetries =
      { txRetries := 0xFF
        res := .packetSendErr
        attempts := txRetries.toNat
        updates := roundUpdates attempt 0 txRetries.toNat } := by
  have hloop := outputLoop_exhausted (o := ⟨txRetries, .packetSendErr, 0, []⟩) (by simpa using h)
  simp only [Nat.zero_add, List.nil_append] at hloop
  unfold unetPacketOutputCall
  rw [hloop]
  exact if_neg (show (0xFF : U8) ≠ 0 by decide)

theorem call_bound (attempt : Nat → Attempt) (txRetries : U8) :
    (unetPacketOutputCall attempt txRetries).attempts ≤ txRetries.toNat := by
  rcases endsIn_or_exhausted attempt txRetries with ⟨i, h⟩ | h
  · rw [h.call]
    exact h.lt
  · rw [call_exhausted h]

theorem call_ok (attempt : Nat → Attempt) (txRetries : U8) :
    (unetPacketOutputCall attempt txRetries).res = .packetSendOk ↔
      ∃ i < (unetPacketOutputCall attempt txRetries).attempts,
        (attempt i).succeeds ∧ ∀ j < i, ¬(attempt j).driverError := by
  rcases endsIn_or_exhausted attempt txRetries with ⟨i, h⟩ | h
  · rw [h.call]
    dsimp only
    constructor
    · intro hres
      refine ⟨i, Nat.lt_succ_self i, ?_, fun j hj hd => h.before j hj (.inl hd)⟩
      by_contra hs
      rw [if_neg hs] at hres
      cases hres
    · rintro ⟨j, hj, hs, _⟩
      rcases Nat.lt_succ_iff_lt_or_eq.mp hj with hlt | rfl
      · exact absurd (.inr hs) (h.before j hlt)
      · exact if_pos hs
  · rw [call_exhausted h]
    refine ⟨nofun, ?_⟩
    rintro ⟨j, hj, hs, _⟩
    exact absurd (.inr hs) (h j hj)

theorem EndsIn.counted {i : Nat} (h : EndsIn attempt txRetries i) :
    .txmaxretries ∈ (unetPacketOutputCall attempt txRetries).updates ↔ i + 1 = txRetries.toNat := by
  rw [h.call, List.mem_append, or_iff_right (not_mem_roundUpdates _ _)]
  split <;> simp [*]

theorem EndsIn.leavesEarly {i : Nat} (h : EndsIn attempt txRetries i) :
    LeavesEarly attempt txRetries ↔ i + 1 < txRetries.toNat ∨ (attempt i).driverError := by
  have hlt := h.lt
  unfold LeavesEarly
  constructor
  · rintro (rfl | ⟨j, hj, he⟩ | hd)
    · exact absurd hlt (Nat.not_lt_zero i)
    · refine .inl (Nat.lt_of_le_of_lt (Nat.succ_le_succ ?_) hj)
      by_contra hji
      exact h.before j (Nat.not_le.mp hji) he
    · rcases Nat.lt_or_ge (i + 1) txRetries.toNat with hlast | hlast
      · exact .inl hlast
      · right
        rwa [show txRetries.toNat - 1 = i by omega] at hd
  · rintro (hlast | hd)
    · exact .inr (.inl ⟨i, hlast, h.ends⟩)
    · rcases Nat.lt_or_ge (i + 1) txRetries.toNat with hlast | hlast
      · exact .inr (.inl ⟨i, hlast, h.ends⟩)
      · right
        right
        rwa [show txRetries.toNat - 1 = i by omega]

theorem retriesOk_of_counted :
    RetriesOk attempt txRetries (unetPacketOutputCall attempt txRetries) ↔
      (.txmaxretries ∈ (unetPacketOutputCall attempt txRetries).updates ↔
        0 < txRetries.toNat ∧
          (unetPacketOutputCall attempt txRetries).attempts = txRetries.toNat ∧
          ∀ i < (unetPacketOutputCall attempt txRetries).attempts, ¬(attempt i).succeeds) :=
  ⟨fun h => h.counted, fun h => ⟨call_bound attempt txRetries, call_ok attempt txRetries, h⟩⟩

theorem EndsIn.retriesOk {i : Nat} (h : EndsIn attempt txRetries i) :
    RetriesOk attempt txRetries (unetPacketOutputCall attempt txRetries) ↔
      i + 1 < txRetries.toNat ∨ (attempt i).driverError := by
  have hlt := h.lt
  rw [retriesOk_of_counted, h.counted, h.call]
  dsimp only
  constructor
  · intro hc
    rcases Nat.lt_or_ge (i + 1) txRetries.toNat with hlast | hlast
    · exact .inl hlast
    · have hfailed := (hc.mp (by omega)).2.2 i (Nat.lt_succ_self i)
      exact .inr (h.ends.resolve_right hfailed)
  · intro hearly
    refine ⟨fun hlast => ⟨by omega, hlast, fun j hj hs => ?_⟩, fun hall => hall.2.1⟩
    rcases Nat.lt_succ_iff_lt_or_eq.mp hj with hji | rfl
    · exact h.before j hji (.inr hs)
    · exact hs.not_driverError (hearly.resolve_left (by omega))

theorem exhausted_retriesOk (h : ∀ j < txRetries.toNat, ¬(attempt j).ends) :
    RetriesOk attempt txRetries (unetPacketOutputCall attempt txRetries) ↔ txRetries = 0 := by
  rw [retriesOk_of_counted, call_exhausted h]
  dsimp only
  constructor
  · intro hc
    by_contra hne
    have hpos : 0 < txRetries.toNat := Nat.pos_of_ne_zero fun e => hne (BitVec.eq_of_toNat_eq e)
    exact not_mem_roundUpdates _ _ (hc.mpr ⟨hpos, rfl, fun j hj hs => h j hj (.inr hs)⟩)
  · rintro rfl
    exact ⟨fun hm => absurd hm (not_mem_roundUpdates _ _), fun hc => absurd hc.1 (by decide)⟩

theorem exhausted_leavesEarly (h : ∀ j < txRetries.toNat, ¬(attempt j).ends) :
    LeavesEarly attempt txRetries ↔ txRetries = 0 ∨ (attempt (txRetries.toNat - 1)).driverError := by
  unfold LeavesEarly
  constructor
  · rintro (h0 | ⟨j, hj, he⟩ | hd)
    · exact .inl h0
    · exact absurd he (h j (by omega))
    · exact .inr hd
  · rintro (h0 | hd)
    · exact .inl h0
    · exact .inr (.inr hd)

end

/-- `unet_packet_output` sends as often as it may and returns what it ought to; its statistic of
exhausted calls is right exactly where the loop leaves early. -/
theorem retriesOk_iff (attempt : Nat → Attempt) (txRetries : U8) :
    RetriesOk attempt txRetries (unetPacketOutputCall attempt txRetries) ↔
      LeavesEarly attempt txRetries := by
  rcases endsIn_or_exhausted attempt txRetries with ⟨i, h⟩ | h
  · exact h.retriesOk.trans h.leavesEarly.symm
  · rw [exhausted_retriesOk h, exhausted_leavesEarly h]
    constructor
    · exact .inl
    · rintro (h0 | hd)
      · exact h0
      · by_contra hne
        have hpos : txRetries.toNat ≠ 0 := fun e => hne (BitVec.eq_of_toNat_eq e)
        exact h (txRetries.toNat - 1) (by omega) (.inl hd)

/-- Three collisions are not counted as an exhausted call. -/
theorem retriesOk_fails :
    ¬∀ (attempt : Nat → Attempt) (txRetries : U8),
      RetriesOk attempt txRetries (unetPacketOutputCall attempt txRetries) := by
  intro h
  have hexhausted : ∀ j < (3 : U8).toNat, ¬(⟨2, false, false⟩ : Attempt).ends := by decide
  have hthree := (h (fun _ => ⟨2, false, false⟩) 3).counted
  rw [call_exhausted hexhausted] at hthree
  have hcounted := hthree.mpr ⟨by decide, rfl, by decide⟩
  exact not_mem_roundUpdates _ _ hcounted

end Unet4Cooja
