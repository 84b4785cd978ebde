import Unet4Cooja.Brtos.Timer
import Unet4Cooja.Core.Forward
import Unet4Cooja.Lib.Runs

/-!
# Trickle timers (`trickle.c`)

* `TrickleT` : `trickle_t`; `TrickleT.openTrickle`, `TrickleT.runTrickle`, `TrickleT.resetTrickle` : its functions,
  with the result of `pcg32_boundedrand` as an argument;
* `TrickleOp`, `trickleStep` : any sequence of calls;
* `Round`, `rounds` : what consecutive runs draw and return;
* `trickle_arithmetic` : the bounds of the intervals and offsets, and the sum of the waiting times;
* `resetTrickle_asOpened` : when a reset timer runs like a fresh one;
* `UnetTimer`, `unetTimer_divides` : which timers of the uNET tasks never divide by zero;
* `TrickleT.phase`, `phase_of_runs` : the timer of the system model, which draws no times, follows this one.
-/

namespace Unet4Cooja
open Lib

def maxScalingInterval : U8 := 8

structure TrickleT where
  interval : U64
  t : U64
  initInterval : U64
  completeInterval : U64
  maxInterval : U64
  intervalScaling : U8
  deriving DecidableEq, Repr

namespace TrickleT

/-- `open_trickle`, apart from the seed of the generator. -/
def openTrickle (timer : TrickleT) (interval maxInterval : U64) : TrickleT :=
  { timer with
    interval := interval
    initInterval := interval
    maxInterval := maxInterval
    intervalScaling := 0
    completeInterval := 0 }

/-- The interval that `run_trickle` stores. -/
def nextInterval (timer : TrickleT) : U64 :=
  if timer.interval < timer.maxInterval >>> 1 then timer.interval <<< timer.intervalScaling.toNat
  else timer.maxInterval

/-- The scaling factor that `run_trickle` stores. -/
def nextScaling (timer : TrickleT) : U8 :=
  if timer.intervalScaling < maxScalingInterval then
    if 1 < timer.intervalScaling + 1 then 1 else timer.intervalScaling + 1
  else timer.intervalScaling

/-- The bound that `run_trickle` passes to `pcg32_boundedrand`. -/
def randBound (timer : TrickleT) : U32 := timer.maxInterval.setWidth 32

/-- The right operand of the `%` in `run_trickle`. -/
def modulus (timer : TrickleT) : U64 := timer.nextInterval >>> 1

/-- `temp`, if `pcg32_boundedrand` returns `draw`. -/
def temp (timer : TrickleT) (draw : U32) : U64 := timer.modulus + draw.setWidth 64 % timer.modulus

/-- `run_trickle`, if `pcg32_boundedrand` returns `draw`; `none` where it divides by zero. -/
def runTrickle (timer : TrickleT) (draw : U32) : Option TrickleT :=
  if timer.randBound = 0 ∨ timer.modulus = 0 then none
  else
    some { timer with
      interval := timer.nextInterval
      intervalScaling := timer.nextScaling
      t := timer.temp draw + timer.completeInterval
      completeInterval := timer.nextInterval - timer.temp draw }

def resetTrickle (timer : TrickleT) : TrickleT :=
  { timer with interval := timer.initInterval, completeInterval := 0 }

def isTrickleReseted (timer : TrickleT) : Bool := timer.interval = timer.initInterval

end TrickleT

inductive TrickleOp
  | run (draw : U32)
  | reset

/-- One call; a run that divides by zero does not return. -/
def trickleStep (timer : TrickleT) : TrickleOp → Option TrickleT
  | .run draw => timer.runTrickle draw
  | .reset => some timer.resetTrickle

/-! ## Intervals and offsets -/

section
variable {init max : U64} {timer s s' : TrickleT} {draw : U32}

/-- The timer was opened with `init` and `max`, its interval lies between them, and what is left of it is
not larger. -/
structure Ranged (init max : U64) (s : TrickleT) : Prop where
  init_eq : s.initInterval = init
  max_eq : s.maxInterval = max
  init_le : init ≤ s.interval
  le_max : s.interval ≤ max
  complete_le : s.completeInterval ≤ max
  scaling : s.intervalScaling = 0 ∨ s.intervalScaling = 1

theorem TrickleT.nextScaling_eq (h : s.intervalScaling = 0 ∨ s.intervalScaling = 1) : s.nextScaling = 1 := by
  unfold nextScaling
  rcases h with h | h
  · rw [h]
    rfl
  · rw [h]
    rfl

theorem TrickleT.nextInterval_toNat (h : s.intervalScaling = 0 ∨ s.intervalScaling = 1) :
    s.nextInterval.toNat =
      if s.interval.toNat < s.maxInterval.toNat / 2 then
        if s.intervalScaling = 0 then s.interval.toNat else 2 * s.interval.toNat
      else s.maxInterval.toNat := by
  have hhalf : (s.maxInterval >>> 1).toNat = s.maxInterval.toNat / 2 := by
    rw [BitVec.toNat_ushiftRight, Nat.shiftRight_eq_div_pow]
  have hlt : s.interval < s.maxInterval >>> 1 ↔ s.interval.toNat < s.maxInterval.toNat / 2 := by
    rw [BitVec.lt_def, hhalf]
  unfold nextInterval
  by_cases hs : s.interval < s.maxInterval >>> 1
  · rw [if_pos hs, if_pos (hlt.mp hs)]
    rcases h with h | h
    · rw [if_pos h, h]
      simp
    · have hmax := s.maxInterval.isLt
      have hsmall := hlt.mp hs
      rw [if_neg (by rw [h]; decide), h, BitVec.toNat_shiftLeft, Nat.shiftLeft_eq, Nat.mod_eq_of_lt]
      · simp [Nat.mul_comm]
      · simp
        omega
  · rw [if_neg hs, if_neg fun hc => hs (hlt.mpr hc)]

theorem Ranged.nextInterval (h : Ranged init max s) : init ≤ s.nextInterval ∧ s.nextInterval ≤ max := by
  have hnext := s.nextInterval_toNat h.scaling
  have hinit := h.init_le
  have hmax := h.le_max
  rw [h.max_eq] at hnext
  rw [BitVec.le_def] at hinit hmax ⊢
  rw [BitVec.le_def]
  split at hnext
  · split at hnext <;> omega
  · omega

theorem TrickleT.temp_toNat (s : TrickleT) (draw : U32) (h : s.modulus ≠ 0) :
    s.nextInterval.toNat / 2 ≤ (s.temp draw).toNat ∧ (s.temp draw).toNat < s.nextInterval.toNat := by
  have hm : s.modulus.toNat = s.nextInterval.toNat / 2 := by
    unfold modulus
    rw [BitVec.toNat_ushiftRight, Nat.shiftRight_eq_div_pow]
  have hpos : 0 < s.modulus.toNat := by
    rw [Nat.pos_iff_ne_zero]
    intro h0
    exact h (BitVec.eq_of_toNat_eq h0)
  have hmod := Nat.mod_lt (draw.setWidth 64).toNat hpos
  have hlt := s.nextInterval.isLt
  have htemp : (s.temp draw).toNat = s.modulus.toNat + (draw.setWidth 64).toNat % s.modulus.toNat := by
    unfold temp
    rw [BitVec.toNat_add, BitVec.toNat_umod, Nat.mod_eq_of_lt]
    omega
  rw [htemp]
  omega

def TrickleT.afterRun (timer : TrickleT) (draw : U32) : TrickleT :=
  { timer with
    interval := timer.nextInterval
    intervalScaling := timer.nextScaling
    t := timer.temp draw + timer.completeInterval
    completeInterval := timer.nextInterval - timer.temp draw }

theorem TrickleT.runTrickle_eq_some :
    s.runTrickle draw = some s' ↔ (s.randBound ≠ 0 ∧ s.modulus ≠ 0) ∧ s' = s.afterRun draw := by
  unfold runTrickle
  split
  · rename_i h
    refine ⟨nofun, fun hc => ?_⟩
    rcases h with h | h
    · exact absurd h hc.1.1
    · exact absurd h hc.1.2
  · rename_i h
    refine ⟨fun hs => ⟨not_or.mp h, (Option.some.inj hs).symm⟩, fun hc => ?_⟩
    rw [hc.2]
    rfl

theorem Ranged.divides (h : Ranged init max s) (h2 : 2 ≤ init) (hlt : max < 4294967296) :
    s.randBound ≠ 0 ∧ s.modulus ≠ 0 := by
  have hnext := h.nextInterval
  have hmax := h.le_max
  have hinit := h.init_le
  rw [BitVec.le_def] at h2 hnext hmax hinit
  rw [BitVec.lt_def] at hlt
  simp at h2 hlt
  constructor
  · intro h0
    have h0 := congrArg BitVec.toNat h0
    unfold TrickleT.randBound at h0
    rw [h.max_eq, BitVec.toNat_setWidth] at h0
    simp at h0
    omega
  · intro h0
    have h0 := congrArg BitVec.toNat h0
    unfold TrickleT.modulus at h0
    rw [BitVec.toNat_ushiftRight, Nat.shiftRight_eq_div_pow] at h0
    simp at h0
    omega

theorem Ranged.runTrickle (h : Ranged init max s) (h2 : 2 ≤ init) (hlt : max < 4294967296) (draw : U32) :
    s.runTrickle draw = some (s.afterRun draw) :=
  TrickleT.runTrickle_eq_some.mpr ⟨h.divides h2 hlt, rfl⟩

theorem TrickleT.complete_toNat (s : TrickleT) (draw : U32) (h : s.modulus ≠ 0) :
    (s.afterRun draw).completeInterval.toNat + (s.temp draw).toNat = s.nextInterval.toNat := by
  have htemp := s.temp_toNat draw h
  have hrest : (s.afterRun draw).completeInterval = s.nextInterval - s.temp draw := rfl
  rw [hrest, BitVec.toNat_sub_of_le (by rw [BitVec.le_def]; omega)]
  omega

theorem Ranged.t_toNat (h : Ranged init max s) (hlt : max < 4294967296) (hmod : s.modulus ≠ 0) (draw : U32) :
    (s.temp draw + s.completeInterval).toNat = (s.temp draw).toNat + s.completeInterval.toNat := by
  have htemp := s.temp_toNat draw hmod
  have hnext := h.nextInterval.2
  have hrest := h.complete_le
  rw [BitVec.le_def] at hnext hrest
  rw [BitVec.lt_def] at hlt
  simp at hlt
  rw [BitVec.toNat_add, Nat.mod_eq_of_lt]
  omega

theorem ranged_openTrickle (timer : TrickleT) (h : init ≤ max) : Ranged init max (timer.openTrickle init max) :=
  ⟨rfl, rfl, BitVec.le_refl init, h, Nat.zero_le max.toNat, .inl rfl⟩

theorem Ranged.resetTrickle (h : Ranged init max s) : Ranged init max s.resetTrickle where
  init_eq := h.init_eq
  max_eq := h.max_eq
  init_le := by
    rw [← h.init_eq]
    exact BitVec.le_refl _
  le_max := by
    have hle := BitVec.le_trans h.init_le h.le_max
    rw [← h.init_eq] at hle
    exact hle
  complete_le := Nat.zero_le max.toNat
  scaling := h.scaling

theorem Ranged.afterRun (h : Ranged init max s) (hmod : s.modulus ≠ 0) (draw : U32) :
    Ranged init max (s.afterRun draw) where
  init_eq := h.init_eq
  max_eq := h.max_eq
  init_le := h.nextInterval.1
  le_max := h.nextInterval.2
  complete_le := by
    have hsum := s.complete_toNat draw hmod
    have hnext := h.nextInterval.2
    rw [BitVec.le_def] at hnext ⊢
    omega
  scaling := .inr (TrickleT.nextScaling_eq h.scaling)

theorem Ranged.step (h : Ranged init max s) (op : TrickleOp) (hs : trickleStep s op = some s') :
    Ranged init max s' := by
  cases op with
  | run draw =>
    obtain ⟨⟨_, hmod⟩, rfl⟩ := TrickleT.runTrickle_eq_some.mp hs
    exact h.afterRun hmod draw
  | reset =>
    cases hs
    exact h.resetTrickle

theorem ranged_of_runs {ops : List TrickleOp} (h : init ≤ max)
    (r : Runs trickleStep Free (timer.openTrickle init max) ops s) : Ranged init max s :=
  r.invariant (ranged_openTrickle timer h) fun _ op _ hI _ hs => hI.step op hs

/-! ## Consecutive runs -/

/-- What one run stores and draws: its interval, its offset, the time to wait. -/
structure Round where
  interval : U64
  temp : U64
  t : U64
  deriving DecidableEq, Repr

/-- Consecutive runs without a reset, with the draws they use. -/
def rounds (timer : TrickleT) : List U32 → Option (List Round)
  | [] => some []
  | draw :: draws =>
    match timer.runTrickle draw with
    | none => none
    | some timer' => (rounds timer' draws).map (⟨timer'.interval, timer.temp draw, timer'.t⟩ :: ·)

theorem rounds_length {draws : List U32} {qs : List Round} (h : rounds s draws = some qs) :
    qs.length = draws.length := by
  induction draws generalizing s qs with
  | nil =>
    cases h
    rfl
  | cons draw draws ih =>
    unfold rounds at h
    split at h
    · cases h
    · obtain ⟨qs', hqs', rfl⟩ := Option.map_eq_some_iff.mp h
      simp [ih hqs']

/-- The times of `k` runs add up to the first `k - 1` intervals and the last offset, and to what was left
before. -/
theorem Ranged.rounds_sum (h : Ranged init max s) (h2 : 2 ≤ init) (hlt : max < 4294967296) (draws : List U32)
    (draw : U32) :
    ∃ qs q, rounds s (draws ++ [draw]) = some (qs ++ [q]) ∧
      (qs.map fun x => x.t.toNat).sum + q.t.toNat =
        s.completeInterval.toNat + (qs.map fun x => x.interval.toNat).sum + q.temp.toNat := by
  induction draws generalizing s with
  | nil =>
    have hmod := (h.divides h2 hlt).2
    refine ⟨[], ⟨s.nextInterval, s.temp draw, s.temp draw + s.completeInterval⟩, ?_, ?_⟩
    · simp [rounds, h.runTrickle h2 hlt draw, TrickleT.afterRun]
    · have ht := h.t_toNat hlt hmod draw
      simp only [List.map_nil, List.sum_nil]
      omega
  | cons d draws ih =>
    have hmod := (h.divides h2 hlt).2
    obtain ⟨qs, q, hqs, hsum⟩ := ih (h.afterRun hmod d)
    refine ⟨⟨s.nextInterval, s.temp d, s.temp d + s.completeInterval⟩ :: qs, q, ?_, ?_⟩
    · simp only [List.cons_append, rounds, h.runTrickle h2 hlt d, hqs, Option.map_some]
      rfl
    · have ht := h.t_toNat hlt hmod d
      have hrest := s.complete_toNat d hmod
      simp only [List.map_cons, List.sum_cons]
      omega

/-- From an initial interval of at least 2 every run returns; its interval lies between the two bounds, its
offset in the second half of the interval. From a fresh or a reset timer on, the times of `k` runs add up to
the first `k - 1` intervals and the `k`-th offset. -/
theorem trickle_arithmetic {ops : List TrickleOp} (h2 : 2 ≤ init) (hle : init ≤ max) (hlt : max < 4294967296)
    (r : Runs trickleStep Free (timer.openTrickle init max) ops s) :
    (∀ draw, ∃ s', s.runTrickle draw = some s' ∧ init ≤ s'.interval ∧ s'.interval ≤ max ∧
      s'.interval.toNat / 2 ≤ (s.temp draw).toNat ∧ (s.temp draw).toNat < s'.interval.toNat ∧
      0 < s'.completeInterval) ∧
    ∀ f, f = timer.openTrickle init max ∨ f = s.resetTrickle → ∀ draws draw,
      ∃ qs q, rounds f (draws ++ [draw]) = some (qs ++ [q]) ∧ qs.length = draws.length ∧
        (qs.map fun x => x.t.toNat).sum + q.t.toNat = (qs.map fun x => x.interval.toNat).sum + q.temp.toNat := by
  have hI := ranged_of_runs hle r
  refine ⟨fun draw => ?_, fun f hf draws draw => ?_⟩
  · have hmod := (hI.divides h2 hlt).2
    have htemp := s.temp_toNat draw hmod
    have hrest := s.complete_toNat draw hmod
    have hpos : 0 < (s.afterRun draw).completeInterval.toNat := by omega
    exact ⟨s.afterRun draw, hI.runTrickle h2 hlt draw, hI.nextInterval.1, hI.nextInterval.2, htemp.1, htemp.2, hpos⟩
  · have hf' : Ranged init max f ∧ f.completeInterval = 0 := by
      rcases hf with rfl | rfl
      · exact ⟨ranged_openTrickle timer hle, rfl⟩
      · exact ⟨hI.resetTrickle, rfl⟩
    obtain ⟨qs, q, hqs, hsum⟩ := hf'.1.rounds_sum h2 hlt draws draw
    have hlen := rounds_length hqs
    rw [hf'.2] at hsum
    simp at hlen hsum
    exact ⟨qs, q, hqs, hlen, hsum⟩

/-- The link timer after two runs and a reset. -/
theorem trickle_arithmetic_link :
    ∃ s', (⟨2000, 4449, 2000, 0, 131072, 1⟩ : TrickleT).runTrickle 5 = some s' ∧ 2000 ≤ s'.interval := by
  have hs : exec trickleStep (TrickleT.openTrickle ⟨0, 0, 0, 0, 0, 0⟩ 2000 131072)
      [.run 7, .run 123456, .reset] = some ⟨2000, 4449, 2000, 0, 131072, 1⟩ := by decide
  have h := trickle_arithmetic (by decide) (by decide) (by decide) (Runs.of_exec hs)
  obtain ⟨s', hrun, hle, _⟩ := h.1 5
  exact ⟨s', hrun, hle⟩

end

/-! ## Reset -/

section
variable {init max : U64} {timer fresh s s' : TrickleT} {ops : List TrickleOp}

/-- The intervals and waiting times of consecutive runs. -/
def waits (timer : TrickleT) (draws : List U32) : Option (List (U64 × U64)) :=
  (rounds timer draws).map fun qs => qs.map fun q => (q.interval, q.t)

/-- What a run reads, apart from the interval and the scaling factor behind `nextInterval`. -/
theorem TrickleT.afterRun_congr (hinit : s.initInterval = s'.initInterval) (hmax : s.maxInterval = s'.maxInterval)
    (hrest : s.completeInterval = s'.completeInterval) (hnext : s.nextInterval = s'.nextInterval)
    (hscale : s.nextScaling = s'.nextScaling) (draw : U32) :
    s.temp draw = s'.temp draw ∧ s.runTrickle draw = s'.runTrickle draw := by
  have htemp : s.temp draw = s'.temp draw := by
    unfold temp modulus
    rw [hnext]
  refine ⟨htemp, ?_⟩
  unfold runTrickle randBound modulus
  rw [hmax, hnext, hscale, htemp, hrest, hinit]

theorem rounds_congr (hinit : s.initInterval = s'.initInterval) (hmax : s.maxInterval = s'.maxInterval)
    (hrest : s.completeInterval = s'.completeInterval) (hnext : s.nextInterval = s'.nextInterval)
    (hscale : s.nextScaling = s'.nextScaling) (draws : List U32) : rounds s draws = rounds s' draws := by
  cases draws with
  | nil => rfl
  | cons draw draws =>
    obtain ⟨htemp, hrun⟩ := TrickleT.afterRun_congr hinit hmax hrest hnext hscale draw
    simp only [rounds, htemp, hrun]

/-- What calls on an open timer leave: the bounds, and the scaling factor 1 after the first run. -/
structure Opened (init max : U64) (ops : List TrickleOp) (s : TrickleT) : Prop where
  init_eq : s.initInterval = init
  max_eq : s.maxInterval = max
  unused : (∀ op ∈ ops, op = .reset) → s.intervalScaling = 0 ∧ s.interval = init
  used : ¬ (∀ op ∈ ops, op = .reset) →
    s.intervalScaling = 1 ∧ s.randBound ≠ 0 ∧ (init < max >>> 1 → init >>> 1 ≠ 0)

theorem opened_of_runs (r : Runs trickleStep Free (timer.openTrickle init max) ops s) : Opened init max ops s := by
  induction r with
  | nil => exact ⟨rfl, rfl, fun _ => ⟨rfl, rfl⟩, fun h => absurd (fun _ hop => absurd hop List.not_mem_nil) h⟩
  | @snoc ops s s' op _ _ hs ih =>
    cases op with
    | reset =>
      cases hs
      have hall : (∀ op ∈ ops ++ [TrickleOp.reset], op = .reset) ↔ ∀ op ∈ ops, op = .reset := by
        simp [or_imp]
      exact ⟨ih.init_eq, ih.max_eq, fun h => ⟨(ih.unused (hall.mp h)).1, ih.init_eq⟩,
        fun h => ih.used (mt hall.mpr h)⟩
    | run draw =>
      obtain ⟨⟨hbound, hmod⟩, rfl⟩ := TrickleT.runTrickle_eq_some.mp hs
      have hnot : ¬ ∀ op ∈ ops ++ [TrickleOp.run draw], op = .reset := by simp
      refine ⟨ih.init_eq, ih.max_eq, fun h => absurd h hnot, fun _ => ?_⟩
      by_cases hall : ∀ op ∈ ops, op = .reset
      · obtain ⟨hscale, hint⟩ := ih.unused hall
        refine ⟨s.nextScaling_eq (.inl hscale), hbound, fun hsmall => ?_⟩
        unfold TrickleT.modulus TrickleT.nextInterval at hmod
        rw [hint, ih.max_eq, if_pos hsmall, hscale] at hmod
        simpa using hmod
      · obtain ⟨hscale, _, hhalf⟩ := ih.used hall
        exact ⟨s.nextScaling_eq (.inr hscale), hbound, hhalf⟩

theorem Opened.scaling (h : Opened init max ops s) : s.intervalScaling = 0 ∨ s.intervalScaling = 1 := by
  by_cases hall : ∀ op ∈ ops, op = .reset
  · exact .inl (h.unused hall).1
  · exact .inr (h.used hall).1

theorem Opened.nextInterval_reset (h : Opened init max ops s) :
    s.resetTrickle.nextInterval = if init < max >>> 1 then init <<< s.intervalScaling.toNat else max := by
  unfold TrickleT.nextInterval TrickleT.resetTrickle
  rw [h.init_eq, h.max_eq]

theorem nextInterval_openTrickle :
    (fresh.openTrickle init max).nextInterval = if init < max >>> 1 then init else max := by
  unfold TrickleT.nextInterval TrickleT.openTrickle
  simp

theorem waits_single (draw : U32) (hbound : s.randBound ≠ 0) (hmod : s.modulus ≠ 0) :
    waits s [draw] = some [(s.nextInterval, s.temp draw + s.completeInterval)] := by
  have hrun : s.runTrickle draw = some (s.afterRun draw) := TrickleT.runTrickle_eq_some.mpr ⟨⟨hbound, hmod⟩, rfl⟩
  simp [waits, rounds, hrun, TrickleT.afterRun]

/-- Below half the maximum the scaling factor that a run left doubles the first interval after a reset. -/
theorem Opened.reset_differs (h : Opened init max ops s) (hused : ¬ ∀ op ∈ ops, op = .reset)
    (hsmall : init < max >>> 1) :
    waits s.resetTrickle [0] ≠ waits (fresh.openTrickle init max) [0] := by
  obtain ⟨hscale, hbound, hhalf⟩ := h.used hused
  have hreset := h.nextInterval_reset
  rw [if_pos hsmall, hscale] at hreset
  have hopen : (fresh.openTrickle init max).nextInterval = if init < max >>> 1 then init else max :=
    nextInterval_openTrickle
  rw [if_pos hsmall] at hopen
  have hhalf := hhalf hsmall
  have hinit : 2 ≤ init.toNat := by
    rw [Nat.le_iff_lt_add_one]
    by_contra hc
    apply hhalf
    apply BitVec.eq_of_toNat_eq
    rw [BitVec.toNat_ushiftRight, Nat.shiftRight_eq_div_pow]
    simp
    omega
  have hdouble : (init <<< 1).toNat = 2 * init.toNat := by
    rw [BitVec.lt_def, BitVec.toNat_ushiftRight, Nat.shiftRight_eq_div_pow] at hsmall
    have hmax := max.isLt
    rw [BitVec.toNat_shiftLeft, Nat.shiftLeft_eq, Nat.mod_eq_of_lt]
    · omega
    · omega
  have hmodReset : s.resetTrickle.modulus ≠ 0 := by
    intro h0
    have h0 := congrArg BitVec.toNat h0
    unfold TrickleT.modulus at h0
    rw [hreset, BitVec.toNat_ushiftRight, Nat.shiftRight_eq_div_pow] at h0
    simp at h0 hdouble
    omega
  have hmodOpen : (fresh.openTrickle init max).modulus ≠ 0 := by
    unfold TrickleT.modulus
    rw [hopen]
    exact hhalf
  have hboundOpen : (fresh.openTrickle init max).randBound ≠ 0 := by
    unfold TrickleT.randBound at hbound ⊢
    rw [h.max_eq] at hbound
    exact hbound
  have hboundReset : s.resetTrickle.randBound ≠ 0 := hbound
  rw [waits_single 0 hboundReset hmodReset, waits_single 0 hboundOpen hmodOpen, hreset, hopen]
  intro heq
  have heq : init <<< 1 = init := by simpa using congrArg (Option.map fun l => l.map Prod.fst) heq
  rw [heq] at hdouble
  omega

/-- `reset_trickle` leaves the scaling factor: a reset timer runs like a fresh one if and only if it has not
run yet or its initial interval is already half the maximum. -/
theorem resetTrickle_asOpened (r : Runs trickleStep Free (timer.openTrickle init max) ops s) :
    (∀ draws, waits s.resetTrickle draws = waits (fresh.openTrickle init max) draws) ↔
      (∀ op ∈ ops, op = .reset) ∨ max >>> 1 ≤ init := by
  have h := opened_of_runs r
  constructor
  · intro heq
    by_contra hc
    rw [not_or] at hc
    exact h.reset_differs hc.1 (BitVec.not_le.mp hc.2) (heq [0])
  · intro hcond draws
    have hnext : s.resetTrickle.nextInterval = (fresh.openTrickle init max).nextInterval := by
      rw [h.nextInterval_reset, nextInterval_openTrickle]
      rcases hcond with hall | hle
      · rw [(h.unused hall).1]
        simp
      · rw [if_neg (BitVec.not_lt.mpr hle), if_neg (BitVec.not_lt.mpr hle)]
    have hscale : s.resetTrickle.nextScaling = (fresh.openTrickle init max).nextScaling := by
      have h1 : s.resetTrickle.nextScaling = 1 := s.resetTrickle.nextScaling_eq h.scaling
      rw [h1]
      rfl
    have hrest : s.resetTrickle.completeInterval = (fresh.openTrickle init max).completeInterval := rfl
    have hrounds : rounds s.resetTrickle draws = rounds (fresh.openTrickle init max) draws :=
      rounds_congr h.init_eq h.max_eq hrest hnext hscale draws
    unfold waits
    rw [hrounds]

/-- A timer opened with 10 and 16 that ran twice before its reset. -/
theorem resetTrickle_asOpened_ten :
    waits (TrickleT.resetTrickle ⟨16, 17, 10, 4, 16, 1⟩) [1, 2] =
      waits (TrickleT.openTrickle ⟨9, 9, 9, 9, 9, 9⟩ 10 16) [1, 2] := by
  have hs : exec trickleStep (TrickleT.openTrickle ⟨0, 0, 0, 0, 0, 0⟩ 10 16) [.run 3, .run 4] =
      some ⟨16, 17, 10, 4, 16, 1⟩ := by decide
  exact (resetTrickle_asOpened (Runs.of_exec hs)).mpr (.inr (by decide)) [1, 2]

/-- After one run of the link timer the first interval after a reset is 4000, not 2000. -/
theorem resetTrickle_doubles :
    ¬ ∀ (timer fresh : TrickleT) (init max : U64) (ops : List TrickleOp) (s : TrickleT),
      Runs trickleStep Free (timer.openTrickle init max) ops s →
        ∀ draws, waits s.resetTrickle draws = waits (fresh.openTrickle init max) draws := by
  intro h
  have hs : exec trickleStep (TrickleT.openTrickle ⟨0, 0, 0, 0, 0, 0⟩ 2000 131072) [.run 0] =
      some ⟨2000, 1000, 2000, 1000, 131072, 1⟩ := by decide
  have heq := h _ ⟨0, 0, 0, 0, 0, 0⟩ _ _ _ _ (Runs.of_exec hs) [0]
  revert heq
  decide

end

/-! ## The timers of the tasks -/

/-- The trickle timers of `unet_core.c`. -/
inductive UnetTimer
  | timer | timerDown | timerDownRetry | timerUpRetry
  deriving DecidableEq, Repr

def UnetTimer.interval (dev : DeviceType) : UnetTimer → U64
  | .timer => 2000
  | .timerDown =>
    match dev with
    | .router => 4000
    | .panCoordinator => 0
  | .timerDownRetry => 64
  | .timerUpRetry => 64

/-- The maximal interval a task opens its timer with. -/
def UnetTimer.maxInterval (dev : DeviceType) : UnetTimer → U64
  | .timer => 131072
  | .timerDown =>
    match dev with
    | .router => 524288
    | .panCoordinator => 0
  | .timerDownRetry => 256
  | .timerUpRetry => 256

def UnetTimer.opened (dev : DeviceType) (x : UnetTimer) (timer : TrickleT) : TrickleT :=
  timer.openTrickle (x.interval dev) (x.maxInterval dev)

theorem UnetTimer.interval_bounds (dev : DeviceType) (x : UnetTimer)
    (h : ¬ (dev = .panCoordinator ∧ x = .timerDown)) :
    2 ≤ x.interval dev ∧ x.interval dev ≤ x.maxInterval dev ∧ x.maxInterval dev < 4294967296 := by
  cases dev with
  | router => cases x <;> exact ⟨by decide, by decide, by decide⟩
  | panCoordinator =>
    cases x with
    | timerDown => exact absurd ⟨rfl, rfl⟩ h
    | timer => exact ⟨by decide, by decide, by decide⟩
    | timerDownRetry => exact ⟨by decide, by decide, by decide⟩
    | timerUpRetry => exact ⟨by decide, by decide, by decide⟩

theorem coordinator_timerDown (timer : TrickleT) : (UnetTimer.timerDown.opened .panCoordinator timer).modulus = 0 := by
  unfold UnetTimer.opened TrickleT.modulus
  rw [nextInterval_openTrickle]
  rfl

/-- Neither division of a run has a zero divisor, except those of the coordinator's `timer_down`, which is
opened with the intervals 0 and 0. -/
theorem unetTimer_divides (dev : DeviceType) (x : UnetTimer) (timer : TrickleT) :
    (∀ ops s, Runs trickleStep Free (x.opened dev timer) ops s → s.modulus ≠ 0 ∧ s.randBound ≠ 0) ↔
      ¬ (dev = .panCoordinator ∧ x = .timerDown) := by
  constructor
  · rintro h ⟨rfl, rfl⟩
    exact (h [] _ .nil).1 (coordinator_timerDown timer)
  · intro h ops s r
    obtain ⟨h2, hle, hlt⟩ := x.interval_bounds dev h
    have hdiv := (ranged_of_runs hle r).divides h2 hlt
    exact ⟨hdiv.2, hdiv.1⟩

/-- The coordinator's first `run_trickle(&timer_down)` draws with bound 0 and reduces modulo 0. -/
theorem coordinator_timerDown_zero :
    ¬ ∀ (dev : DeviceType) (x : UnetTimer) (timer : TrickleT) (ops : List TrickleOp) (s : TrickleT),
      Runs trickleStep Free (x.opened dev timer) ops s → s.modulus ≠ 0 ∧ s.randBound ≠ 0 := by
  intro h
  exact (h .panCoordinator .timerDown ⟨0, 0, 0, 0, 0, 0⟩ [] _ .nil).1 (coordinator_timerDown _)

/-! ## The timer of the system model -/

/-- The fields that decide whether a timer counts as reset. -/
def TrickleT.phase (s : TrickleT) : Trickle :=
  ⟨s.interval.toNat, s.initInterval.toNat, s.maxInterval.toNat, s.intervalScaling.toNat⟩

theorem phase_openTrickle (timer : TrickleT) (interval maxInterval : U64) :
    (timer.openTrickle interval maxInterval).phase = openTrickle interval.toNat maxInterval.toNat := rfl

theorem phase_resetTrickle (s : TrickleT) : s.resetTrickle.phase = resetTrickle s.phase := rfl

theorem phase_isTrickleReseted (s : TrickleT) : s.isTrickleReseted = isTrickleReseted s.phase := by
  unfold TrickleT.isTrickleReseted isTrickleReseted TrickleT.phase
  rw [decide_eq_decide]
  exact ⟨congrArg BitVec.toNat, BitVec.eq_of_toNat_eq⟩

theorem phase_afterRun {s : TrickleT} (h : s.intervalScaling = 0 ∨ s.intervalScaling = 1) (draw : U32) :
    (s.afterRun draw).phase = runTrickle s.phase := by
  have hnext := s.nextInterval_toNat h
  unfold TrickleT.phase runTrickle TrickleT.afterRun
  simp only [Trickle.mk.injEq]
  refine ⟨?_, trivial, trivial, ?_⟩
  · rw [hnext, Nat.shiftRight_eq_div_pow]
    rcases h with h | h
    · rw [h]
      simp
    · rw [h]
      simp [Nat.shiftLeft_eq, Nat.mul_comm]
  · rw [s.nextScaling_eq h]
    rcases h with h | h
    · rw [h]
      rfl
    · rw [h]
      rfl

/-- The interval of the model without random times follows the timer through every run. -/
theorem phase_of_runs {timer s : TrickleT} {init max : U64} {ops : List TrickleOp} (hle : init ≤ max)
    (r : Runs trickleStep Free (timer.openTrickle init max) ops s) :
    s.phase = ops.foldl (fun t op => match op with | .run _ => runTrickle t | .reset => resetTrickle t)
      (openTrickle init.toNat max.toNat) := by
  induction r with
  | nil => exact phase_openTrickle timer init max
  | @snoc ops s s' op r _ hs ih =>
    rw [List.foldl_append, ← ih, List.foldl_cons, List.foldl_nil]
    cases op with
    | run draw =>
      obtain ⟨_, rfl⟩ := TrickleT.runTrickle_eq_some.mp hs
      exact phase_afterRun (ranged_of_runs hle r).scaling draw
    | reset =>
      cases hs
      exact phase_resetTrickle s

end Unet4Cooja
