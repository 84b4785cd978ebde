import Unet4Cooja.Brtos.DelayList
import Unet4Cooja.Lib.Counter
import Unet4Cooja.Packet

/-!
# The tick interrupt (`HAL.c`)

* `TickSys`, `tickTimer`, `tickRead` : `TickTimer`, one step for each time it reads the timer;
* `tickRun` : the interrupt with a timer that shows the counts `c`;
* `CaughtUp` : the ticks have been counted up to the last value that was read;
* `TickInv` : what holds after each reading, with the number of ticks so far;
* `tickTimer_catchUp` : when the interrupt returns it has caught up, and it does return.

The signed comparison of two readings is right while the counts are less than 2 ^ 15 apart. The compare register is
ahead of the timer by at most `SYSTEM_TICK`, and behind it by less than the timer has gone since it was reached.
-/

namespace Unet4Cooja
open Lib

/-- `SYSTEM_TICK`, which is `configCPU_ACLK_HZ / configTICK_RATE_HZ`. -/
def systemTick : Nat := 32768 / 1000

def clockLt (a b : U16) : Prop := (a - b).toInt < 0

instance (a b : U16) : Decidable (clockLt a b) := inferInstanceAs (Decidable (_ < _))

/-- A call, with the value of `OSTickCounter` that `OS_TICK_HANDLER` finds. -/
inductive TickCall
  | osIncCounter
  | osTickHandler (osTickCounter : U64)
  deriving DecidableEq

/-- Where the interrupt is: in `read_tar` in the first loop or for `last_tar`, before or after `t1` has been read; or
it has returned. -/
inductive TickPc
  | waiting (t1 : Option U16)
  | counting (t1 : Option U16)
  | returned
  deriving DecidableEq

/-- The interrupt. `mc1` is the bit `MC1` of `TIMER_CTL`: the timer is counting. -/
structure TickSys where
  pc : TickPc
  mc1 : Bool
  timerCcr : U16
  lastTar : U16
  osTickCounter : U64
  calls : List TickCall

namespace TickSys
variable (s : TickSys)

def tickTimer (timerIv : U16) : TickSys :=
  if timerIv = 2 then { s with pc := if s.mc1 then .waiting none else .counting none }
  else { s with pc := .returned }

/-- `TIMER_CCR - read_tar() == 1` has been evaluated. -/
def waited (tar : U16) : TickSys :=
  if s.timerCcr - tar = 1 then { s with pc := .waiting none } else { s with pc := .counting none }

/-- The body of the second loop, up to `read_tar`. -/
def tick : TickSys :=
  let osTickCounter := DelaySys.osIncCounter s.osTickCounter
  { s with
    pc := .counting none
    timerCcr := s.timerCcr + BitVec.ofNat 16 systemTick
    osTickCounter := osTickCounter
    calls := s.calls ++ [.osIncCounter, .osTickHandler osTickCounter] }

/-- `last_tar = read_tar()`, with the test of the second loop. -/
def counted (tar : U16) : TickSys :=
  let s := { s with lastTar := tar }
  if ¬ clockLt s.lastTar s.timerCcr then s.tick else { s with pc := .returned }

/-- `TIMER_REG` is read. -/
def tickRead (timerReg : U16) : Option TickSys :=
  match s.pc with
  | .waiting none => some { s with pc := .waiting (some timerReg) }
  | .waiting (some t1) => some (if t1 = timerReg then s.waited t1 else { s with pc := .waiting none })
  | .counting none => some { s with pc := .counting (some timerReg) }
  | .counting (some t1) => some (if t1 = timerReg then s.counted t1 else { s with pc := .counting none })
  | .returned => none

/-- After `k` readings of a timer that shows `c 0`, `c 1` and so on. -/
def tickRun (c : Nat → Nat) (s : TickSys) : Nat → Option TickSys
  | 0 => some s
  | k + 1 => (tickRun c s k).bind fun t => t.tickRead (BitVec.ofNat 16 (c k))

end TickSys

/-! ## Ticks -/

/-- The local variable of `read_tar`, once it has been read. -/
def TickPc.t1 : TickPc → Option U16
  | .waiting t1 => t1
  | .counting t1 => t1
  | .returned => none

/-- The calls of `n` ticks: `OS_TICK_HANDLER` finds every value of `OSTickCounter`. -/
def tickCalls (osTickCounter : U64) (n : Nat) : List TickCall :=
  (List.range n).flatMap fun i => [.osIncCounter, .osTickHandler (DelaySys.osIncCounter^[i + 1] osTickCounter)]

/-- The first `n` boundaries from `compare` on are those passed at the count `last`; for each of them there has been
one tick, and the next one is in the compare register. -/
structure CaughtUp (s t : TickSys) (compare last n : Nat) : Prop where
  passed : ∀ i, i < n ↔ compare + i * systemTick ≤ last
  calls : t.calls = s.calls ++ tickCalls s.osTickCounter n
  timerCcr : t.timerCcr = BitVec.ofNat 16 (compare + n * systemTick)
  future : last < compare + n * systemTick
  soon : compare + n * systemTick ≤ last + systemTick

/-- What holds before the reading of `now`, the one after `last`. -/
structure TickInv (s t : TickSys) (compare last now n : Nat) : Prop where
  timerCcr : t.timerCcr = BitVec.ofNat 16 (compare + n * systemTick)
  osTickCounter : t.osTickCounter = DelaySys.osIncCounter^[n] s.osTickCounter
  calls : t.calls = s.calls ++ tickCalls s.osTickCounter n
  passed : ∀ i < n, compare + i * systemTick ≤ now
  waiting : ∀ t1, t.pc = .waiting t1 → n = 0 ∧ s.mc1 = true
  read : ∀ t1, t.pc.t1 = some t1 → t1 = BitVec.ofNat 16 last
  returned : t.pc = .returned → last < compare + n * systemTick ∧ ∀ i < n, compare + i * systemTick ≤ last

/-- How far the interrupt is from its return, when the timer stands still. -/
def TickPc.rank (n : Nat) : TickPc → Nat
  | .waiting none => 2 * 2 ^ 15 + 4
  | .waiting (some _) => 2 * 2 ^ 15 + 3
  | .counting none => 2 * (2 ^ 15 - n) + 2
  | .counting (some _) => 2 * (2 ^ 15 - n) + 1
  | .returned => 0

theorem tickCalls_succ (v : U64) (n : Nat) : tickCalls v (n + 1) =
    tickCalls v n ++ [.osIncCounter, .osTickHandler (DelaySys.osIncCounter^[n + 1] v)] := by
  unfold tickCalls
  rw [List.range_succ, List.flatMap_append, List.flatMap_singleton]

section
variable {s t u : TickSys} {compare last now next n : Nat} {c : Nat → Nat}

theorem tickInv_tickTimer (hccr : s.timerCcr = BitVec.ofNat 16 compare) :
    TickInv s (s.tickTimer 2) compare last now 0 := by
  have hstart : s.tickTimer 2 = { s with pc := if s.mc1 then .waiting none else .counting none } := if_pos rfl
  rw [hstart]
  refine ⟨?_, rfl, (List.append_nil s.calls).symm, fun i hi => absurd hi (Nat.not_lt_zero i), fun t1 h => ⟨rfl, ?_⟩,
    fun t1 h => ?_, fun h => ?_⟩
  · rw [Nat.zero_mul, Nat.add_zero]
    exact hccr
  · by_contra hmc1
    simp [hmc1] at h
  · cases hmc1 : s.mc1 <;> simp [hmc1, TickPc.t1] at h
  · cases hmc1 : s.mc1 <;> simp [hmc1] at h

theorem compare_soon (hpassed : ∀ i < n, compare + i * systemTick ≤ now) (hentry : compare ≤ now + 1) :
    compare + n * systemTick ≤ now + systemTick := by
  have htick : systemTick = 32 := rfl
  cases n with
  | zero => omega
  | succ n =>
    have hlast := hpassed n (Nat.lt_succ_self n)
    rw [Nat.succ_mul]
    omega

namespace TickInv

theorem clockLt_iff (h : TickInv s t compare last now n) (hentry : compare ≤ now + 1)
    (hlate : now < compare + 2 ^ 15) :
    clockLt (BitVec.ofNat 16 now) t.timerCcr ↔ now < compare + n * systemTick := by
  have hsoon := compare_soon h.passed hentry
  have htick : systemTick = 32 := rfl
  rw [h.timerCcr]
  exact sub_ofNat_neg_iff (w := 15) (by omega) (by omega)

theorem moved {pc : TickPc} {lastTar : U16} (h : TickInv s t compare last now n) (hnext : now ≤ next)
    (hwaiting : ∀ t1, pc = .waiting t1 → n = 0 ∧ s.mc1 = true)
    (hread : ∀ t1, pc.t1 = some t1 → t1 = BitVec.ofNat 16 now)
    (hreturned : pc = .returned → now < compare + n * systemTick) :
    TickInv s { t with pc := pc, lastTar := lastTar } compare now next n where
  timerCcr := h.timerCcr
  osTickCounter := h.osTickCounter
  calls := h.calls
  passed i hi := (h.passed i hi).trans hnext
  waiting := hwaiting
  read := hread
  returned hr := ⟨hreturned hr, h.passed⟩

theorem tick (h : TickInv s t compare last now n) (hnext : now ≤ next) (hpassed : compare + n * systemTick ≤ now) :
    TickInv s t.tick compare now next (n + 1) where
  timerCcr := by
    show t.timerCcr + BitVec.ofNat 16 systemTick = _
    rw [h.timerCcr, ← BitVec.ofNat_add, Nat.succ_mul, Nat.add_assoc]
  osTickCounter := by
    show DelaySys.osIncCounter t.osTickCounter = _
    rw [h.osTickCounter, Function.iterate_succ_apply']
  calls := by
    show t.calls ++ [.osIncCounter, .osTickHandler (DelaySys.osIncCounter t.osTickCounter)] = _
    rw [h.calls, h.osTickCounter, tickCalls_succ, ← Function.iterate_succ_apply' DelaySys.osIncCounter, List.append_assoc]
  passed i hi := by
    rcases Nat.lt_succ_iff_lt_or_eq.mp hi with hi | rfl
    · exact (h.passed i hi).trans hnext
    · exact hpassed.trans hnext
  waiting _ hpc := nomatch hpc
  read _ ht := nomatch ht
  returned hpc := nomatch hpc

theorem waited (h : TickInv s t compare last now 0) (hentry : compare ≤ now + 1) (hlate : now < compare + 2 ^ 15)
    (hnext : now ≤ next) (hmc1 : s.mc1 = true) :
    TickInv s (t.waited (BitVec.ofNat 16 now)) compare now next 0 ∧
      (compare ≤ now → (t.waited (BitVec.ofNat 16 now)).pc = .counting none) := by
  have hone : t.timerCcr - BitVec.ofNat 16 now = 1 ↔ compare = now + 1 := by
    rw [h.timerCcr, Nat.zero_mul, Nat.add_zero]
    exact sub_ofNat_eq_one_iff (w := 15) (by decide) (by omega) (by omega)
  unfold TickSys.waited
  split
  · rename_i hw
    have hbefore := hone.mp hw
    refine ⟨h.moved hnext (fun _ _ => ⟨rfl, hmc1⟩) (fun _ ht => nomatch ht) (fun hr => nomatch hr), fun hle => ?_⟩
    omega
  · exact ⟨h.moved hnext (fun _ ht => nomatch ht) (fun _ ht => nomatch ht) (fun hr => nomatch hr), fun _ => rfl⟩

theorem counted (h : TickInv s t compare last now n) (hentry : compare ≤ now + 1) (hlate : now < compare + 2 ^ 15)
    (hnext : now ≤ next) :
    ∃ n', TickInv s (t.counted (BitVec.ofNat 16 now)) compare now next n' ∧
      (t.counted (BitVec.ofNat 16 now)).pc.rank n' < 2 * (2 ^ 15 - n) + 1 := by
  have hlt := h.clockLt_iff hentry hlate
  unfold TickSys.counted
  dsimp only
  split
  · rename_i hc
    have hpassed : compare + n * systemTick ≤ now := Nat.not_lt.mp (hc ∘ hlt.mpr)
    have hn : n < 2 ^ 15 := by
      have hle : n ≤ n * systemTick := Nat.le_mul_of_pos_right n (by decide)
      omega
    refine ⟨n + 1, TickInv.tick (t := { t with lastTar := _ }) { h with } hnext hpassed, ?_⟩
    show 2 * (2 ^ 15 - (n + 1)) + 2 < _
    omega
  · rename_i hc
    exact ⟨n, h.moved hnext (fun _ ht => nomatch ht) (fun _ ht => nomatch ht) fun _ => hlt.mp (not_not.mp hc),
      Nat.succ_pos _⟩

/-- One reading of the timer. If it stands still, and has reached the compare value when it is counting, then the
interrupt is nearer to its return. -/
theorem step (h : TickInv s t compare last now n) (hentry : compare ≤ now + 1) (hlate : now < compare + 2 ^ 15)
    (hnext : now ≤ next) (hs : t.tickRead (BitVec.ofNat 16 now) = some u) :
    ∃ n', TickInv s u compare now next n' ∧
      (last = now → (s.mc1 = true → compare ≤ now) → u.pc.rank n' < t.pc.rank n) := by
  unfold TickSys.tickRead at hs
  cases hpc : t.pc with
  | waiting t1 =>
    obtain ⟨rfl, hmc1⟩ := h.waiting t1 hpc
    cases t1 with
    | none =>
      rw [hpc] at hs
      cases hs
      refine ⟨0, h.moved hnext (fun _ _ => ⟨rfl, hmc1⟩) (fun t1 ht => ?_) (fun hr => nomatch hr), fun _ _ => ?_⟩
      · exact (Option.some.inj ht).symm
      · exact Nat.lt_succ_self _
    | some t1 =>
      have ht1 := h.read t1 (by rw [hpc]; rfl)
      rw [hpc] at hs
      dsimp only at hs
      split at hs
      · rename_i he
        cases hs
        rw [he]
        obtain ⟨hinv, hleft⟩ := h.waited hentry hlate hnext hmc1
        refine ⟨0, hinv, fun _ hreached => ?_⟩
        rw [hleft (hreached hmc1)]
        exact Nat.lt_succ_self (2 * 2 ^ 15 + 2)
      · rename_i hne
        cases hs
        refine ⟨0, h.moved hnext (fun _ _ => ⟨rfl, hmc1⟩) (fun _ ht => nomatch ht) (fun hr => nomatch hr), fun he => ?_⟩
        exact absurd (he ▸ ht1) hne
  | counting t1 =>
    cases t1 with
    | none =>
      rw [hpc] at hs
      cases hs
      refine ⟨n, h.moved hnext (fun _ ht => nomatch ht) (fun t1 ht => ?_) (fun hr => nomatch hr), fun _ _ => ?_⟩
      · exact (Option.some.inj ht).symm
      · exact Nat.lt_succ_self _
    | some t1 =>
      have ht1 := h.read t1 (by rw [hpc]; rfl)
      rw [hpc] at hs
      dsimp only at hs
      split at hs
      · rename_i he
        cases hs
        rw [he]
        obtain ⟨n', hinv, hrank⟩ := h.counted hentry hlate hnext
        exact ⟨n', hinv, fun _ _ => hrank⟩
      · rename_i hne
        cases hs
        refine ⟨n, h.moved hnext (fun _ ht => nomatch ht) (fun _ ht => nomatch ht) (fun hr => nomatch hr), fun he => ?_⟩
        exact absurd (he ▸ ht1) hne
  | returned =>
    rw [hpc] at hs
    cases hs

theorem caughtUp (h : TickInv s t compare last now n) (hentry : compare ≤ last + 1) (hpc : t.pc = .returned) :
    CaughtUp s t compare last n := by
  obtain ⟨hfuture, hpassed⟩ := h.returned hpc
  refine ⟨fun i => ⟨hpassed i, fun hi => ?_⟩, h.calls, h.timerCcr, hfuture, ?_⟩
  · exact Nat.lt_of_mul_lt_mul_right (a := systemTick) (by omega)
  · exact compare_soon hpassed hentry

end TickInv

/-! ## The whole interrupt -/

theorem tickRead_isSome (t : TickSys) (hpc : t.pc ≠ .returned) (tar : U16) : ∃ u, t.tickRead tar = some u := by
  unfold TickSys.tickRead
  cases h : t.pc with
  | waiting t1 => cases t1 <;> exact ⟨_, rfl⟩
  | counting t1 => cases t1 <;> exact ⟨_, rfl⟩
  | returned => exact absurd h hpc

theorem tickRun_succ {k : Nat} (h : TickSys.tickRun c s (k + 1) = some u) :
    ∃ t, TickSys.tickRun c s k = some t ∧ t.pc ≠ .returned ∧ t.tickRead (BitVec.ofNat 16 (c k)) = some u := by
  obtain ⟨t, ht, hs⟩ := Option.bind_eq_some_iff.mp h
  refine ⟨t, ht, fun hpc => ?_, hs⟩
  unfold TickSys.tickRead at hs
  rw [hpc] at hs
  cases hs

/-- The invariant holds after each reading, as long as the timer has not gone too far. -/
theorem tickInv_of_run (hmono : Monotone c) (hentry : compare ≤ c 0 + 1) (hccr : s.timerCcr = BitVec.ofNat 16 compare)
    (hlate : ∀ k t, TickSys.tickRun c (s.tickTimer 2) k = some t → t.pc ≠ .returned → c k < compare + 2 ^ 15)
    (k : Nat) (h : TickSys.tickRun c (s.tickTimer 2) k = some t) : ∃ n, TickInv s t compare (c (k - 1)) (c k) n := by
  induction k generalizing t with
  | zero =>
    cases h
    exact ⟨0, tickInv_tickTimer hccr⟩
  | succ k ih =>
    obtain ⟨t', ht', hpc, hs⟩ := tickRun_succ h
    obtain ⟨n, hinv⟩ := ih ht'
    have hzero : c 0 ≤ c k := hmono (Nat.zero_le k)
    obtain ⟨n', hinv', -⟩ := hinv.step (by omega) (hlate k t' ht' hpc) (hmono (Nat.le_succ k)) hs
    exact ⟨n', hinv'⟩

/-- A timer that stays below a bound comes to rest, and then every reading brings the interrupt nearer to its
return. -/
theorem exists_returned (hmono : Monotone c) (hentry : compare ≤ c 0 + 1)
    (hccr : s.timerCcr = BitVec.ofNat 16 compare)
    (hlate : ∀ k t, TickSys.tickRun c (s.tickTimer 2) k = some t → t.pc ≠ .returned → c k < compare + 2 ^ 15)
    (hcounts : s.mc1 = true → ∃ k, compare ≤ c k) :
    ∃ k t, TickSys.tickRun c (s.tickTimer 2) k = some t ∧ t.pc = .returned := by
  by_contra hnever
  push Not at hnever
  have hrun (k : Nat) : ∃ t, TickSys.tickRun c (s.tickTimer 2) k = some t := by
    induction k with
    | zero => exact ⟨_, rfl⟩
    | succ k ih =>
      obtain ⟨t, ht⟩ := ih
      obtain ⟨u, hu⟩ := tickRead_isSome t (hnever k t ht) (BitVec.ofNat 16 (c k))
      exact ⟨u, Option.bind_eq_some_iff.mpr ⟨t, ht, hu⟩⟩
  have hbound (k : Nat) : c k < compare + 2 ^ 15 := by
    obtain ⟨t, ht⟩ := hrun k
    exact hlate k t ht (hnever k t ht)
  obtain ⟨m, hrest⟩ := exists_forall_eq hmono fun k => (hbound k).le
  have hreached (hmc1 : s.mc1 = true) : compare ≤ c m := by
    obtain ⟨k, hk⟩ := hcounts hmc1
    have hmax : c k ≤ c (max k m) := hmono (le_max_left k m)
    rw [hrest _ (le_max_right k m)] at hmax
    exact hk.trans hmax
  have key (r k : Nat) (t : TickSys) (n : Nat) (hk : m + 1 ≤ k) (ht : TickSys.tickRun c (s.tickTimer 2) k = some t)
      (hinv : TickInv s t compare (c (k - 1)) (c k) n) (hr : t.pc.rank n = r) : False := by
    induction r using Nat.strong_induction_on generalizing k t n with
    | h r ih =>
      obtain ⟨u, hu⟩ := hrun (k + 1)
      obtain ⟨t', ht', hpc, hs⟩ := tickRun_succ hu
      obtain rfl : t' = t := Option.some.inj (ht'.symm.trans ht)
      have hzero : c 0 ≤ c k := hmono (Nat.zero_le k)
      obtain ⟨n', hinv', hrank⟩ := hinv.step (by omega) (hbound k) (hmono (Nat.le_succ k)) hs
      have hstill : c (k - 1) = c k := (hrest (k - 1) (by omega)).trans (hrest k (by omega)).symm
      have hfell := hrank hstill fun hmc1 => (hreached hmc1).trans_eq (hrest k (by omega)).symm
      exact ih _ (hr ▸ hfell) (k + 1) u n' (by omega) hu hinv' rfl
  obtain ⟨t, ht⟩ := hrun (m + 1)
  obtain ⟨n, hinv⟩ := tickInv_of_run hmono hentry hccr hlate (m + 1) ht
  exact key _ (m + 1) t n le_rfl ht hinv rfl

/-- When the interrupt returns it has caught up with the last value it read; and it returns, if a timer that is
counting reaches the compare value. -/
theorem tickTimer_catchUp (c : Nat → Nat) (compare : Nat) (s : TickSys) (hmono : Monotone c)
    (hentry : compare ≤ c 0 + 1) (hccr : s.timerCcr = BitVec.ofNat 16 compare)
    (hlate : ∀ k t, TickSys.tickRun c (s.tickTimer 2) k = some t → t.pc ≠ .returned → c k < compare + 2 ^ 15) :
    (∀ k t, TickSys.tickRun c (s.tickTimer 2) (k + 1) = some t → t.pc = .returned →
      ∃ n, CaughtUp s t compare (c k) n) ∧
    ((s.mc1 = true → ∃ k, compare ≤ c k) →
      ∃ k t, TickSys.tickRun c (s.tickTimer 2) k = some t ∧ t.pc = .returned) := by
  refine ⟨fun k t ht hpc => ?_, exists_returned hmono hentry hccr hlate⟩
  obtain ⟨n, hinv⟩ := tickInv_of_run hmono hentry hccr hlate (k + 1) ht
  have hzero : c 0 ≤ c k := hmono (Nat.zero_le k)
  exact ⟨n, hinv.caughtUp (by rw [Nat.add_sub_cancel]; omega) hpc⟩

end

/-- One before the compare value, where the register is about to wrap, and then 64 past it. -/
def lateTimer (k : Nat) : Nat := if k < 2 then 65535 else 65600

/-- The compare register has wrapped. -/
def lateInterrupt : TickSys := ⟨.returned, true, 0, 0, 0, []⟩

theorem tickTimer_catchUp_lateTimer :
    (TickSys.tickRun lateTimer (lateInterrupt.tickTimer 2) 12).map (fun t => (t.pc, t.timerCcr, t.calls)) =
      some (.returned, 96, tickCalls 0 3) ∧
    (∀ k t, TickSys.tickRun lateTimer (lateInterrupt.tickTimer 2) (k + 1) = some t → t.pc = .returned →
      ∃ n, CaughtUp lateInterrupt t 65536 (lateTimer k) n) ∧
    ((lateInterrupt.mc1 = true → ∃ k, 65536 ≤ lateTimer k) →
      ∃ k t, TickSys.tickRun lateTimer (lateInterrupt.tickTimer 2) k = some t ∧ t.pc = .returned) := by
  have hmono : Monotone lateTimer := by
    intro j k hjk
    unfold lateTimer
    split_ifs <;> omega
  have hbound (k : Nat) : lateTimer k < 65536 + 2 ^ 15 := by
    unfold lateTimer
    split_ifs <;> omega
  exact ⟨by decide +kernel, tickTimer_catchUp lateTimer 65536 lateInterrupt hmono (by decide) (by decide)
    fun k _ _ _ => hbound k⟩

end Unet4Cooja
