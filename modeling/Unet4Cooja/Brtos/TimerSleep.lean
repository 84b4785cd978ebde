import Unet4Cooja.Brtos.TimerDeadline

/-!
# The timer task does not sleep past a deadline

* `TimerSys.headTime` : the time the first timer of the current list waits for;
* `SleepKept` : no tick and no earlier timer comes between the task's look at the list and its sleep;
* `WakesAt`, `SleepInv` : what the task knows of the first timer at each point of its loop;
* `sleeps_of_runs` : then it sleeps until the first deadline at most;
* `sleeps_fails` : a tick comes in between.
-/

namespace Unet4Cooja
open Lib

namespace TimerSys
variable (s : TimerSys)

/-- The time until which the task sleeps for the timer `x`. -/
def wakeTime (x : Option BrtosTimer) : Nat := x.elim timerMaxCounter fun q => (s.mem q).timeout

def headTime : Nat := s.wakeTime (s.first s.current)

end TimerSys

/-- While the timer task is in the delay list, the tick counter is to reach its `TimeToWait`, and no
running timer has an earlier deadline. -/
def Sleeps (s : TimerSys) (d : BrtosTimer → Nat) : Prop :=
  s.pc = .asleep → ∀ q, (s.mem q).state = .running → s.tick < s.timeToWait ∧ s.timeToWait ≤ d q

/-! ## The condition -/

/-- The task has read the first timer of the list or its timeout, and not stored its `TimeToWait`. -/
def TimerPc.choosing : TimerPc → Bool
  | .loop .. | .next _ | .store _ => true
  | _ => false

/-- The task will sleep without another look at the tick counter. -/
def TimerPc.decided : TimerPc → Bool
  | .next _ | .store _ | .enter => true
  | _ => false

section
variable (s : TimerSys)

/-- The sum with the tick count does not wrap around, and a timer is not queued before the first one
while the task is about to sleep for that one. -/
def TimerSys.SumKept (timeWait : Nat) : Prop :=
  s.tick + timeWait < 2 ^ 64 ∧
    (s.tick + timeWait < tickCountOverflow → s.pc.choosing → s.headTime ≤ s.tick + timeWait)

/-- The task starts before a timer is due, the lists are not exchanged, and no sum wraps around. -/
def TimerSys.LoopKept : TimerPc → Prop
  | .start => s.tick < s.headTime
  | .loop _ none => s.timeout ≤ timerMaxCounter
  | .finish _ _ again => s.tick + again < 2 ^ 64
  | _ => True

/-- No timer is stopped, the tick counter does not reach the time at which the task wakes up without a
timer, and no tick makes the first timer due while the task goes to sleep. -/
def TimerSys.WakeKept : TimerAct → Prop
  | .tick => s.tick + 1 < timerMaxCounter ∧ (s.pc.decided → s.tick + 1 < s.headTime)
  | .set _ timeWait => s.freeTimer.isSome → 0 < timeWait.toNat → s.SumKept timeWait.toNat
  | .start _ timeWait => timeWait.toNat ≠ 0 → s.SumKept (min timeWait.toNat timerMaxCounter)
  | .stop .. => False
  | .task _ => s.LoopKept s.pc

/-- The lists are kept, and so is the wake-up time. -/
def SleepKept (a : TimerAct) : Prop := ListsKept s a ∧ s.WakeKept a

instance (timeWait : Nat) : Decidable (s.SumKept timeWait) := inferInstanceAs (Decidable (_ ∧ _))

instance (pc : TimerPc) : Decidable (s.LoopKept pc) :=
  match pc with
  | .start => inferInstanceAs (Decidable (_ < _))
  | .loop _ none => inferInstanceAs (Decidable (_ ≤ _))
  | .finish .. => inferInstanceAs (Decidable (_ < _))
  | .store _ | .enter | .asleep | .woken | .overflowCheck _ | .loop _ (some _) | .expire .. | .invoke .. |
    .callback .. | .switch _ | .switched .. | .head _ | .next _ => .isTrue trivial

instance (a : TimerAct) : Decidable (s.WakeKept a) :=
  match a with
  | .tick => inferInstanceAs (Decidable (_ ∧ _))
  | .set .. | .start .. => inferInstanceAs (Decidable (_ → _))
  | .stop .. => .isFalse id
  | .task _ => inferInstanceAs (Decidable (s.LoopKept s.pc))

instance (a : TimerAct) : Decidable (SleepKept s a) := inferInstanceAs (Decidable (_ ∧ _))

end

/-! ## What the task knows -/

/-- What the point of its loop that the task has reached says about the first timer of the list and the
time `head` it waits for. -/
def WakesAt (first : Option BrtosTimer) (head tick timeToWait : Nat) : TimerPc → Prop
  | .start => True
  | .store next => next = head ∧ tick < head
  | .enter | .asleep => timeToWait = head ∧ tick < head
  | .woken => head ≤ tick
  | .overflowCheck p => p = first ∧ head ≤ tick
  | .loop ov p => ov = false ∧ (p = first ∨ (p = none ∧ head = timerMaxCounter))
  | .expire ov p | .invoke ov p | .callback ov p | .finish ov p _ =>
    ov = false ∧ first = some p ∧ head ≤ tick
  | .next p => (p = first ∨ (p = none ∧ head = timerMaxCounter)) ∧ tick < head
  | .switch _ | .switched .. | .head _ => False

def TimerSys.Wakes (s : TimerSys) : Prop :=
  WakesAt (s.first s.current) s.headTime s.tick s.timeToWait s.pc

section
variable {first first' : Option BrtosTimer} {head head' tick timeToWait timeToWait' : Nat} {pc : TimerPc}

theorem WakesAt.noOverflow (h : WakesAt first head tick timeToWait pc) : pc.NoOverflow := by
  cases pc with
  | loop ov p => exact h.1
  | expire ov p => exact h.1
  | invoke ov p => exact h.1
  | callback ov p => exact h.1
  | finish ov p again => exact h.1
  | switch ov => exact h
  | switched ov tmp => exact h
  | head ov => exact h
  | _ => exact trivial

theorem WakesAt.queued {e : Nat} (h : WakesAt first head tick timeToWait pc)
    (hnone : first = none → head = timerMaxCounter) (htick : tick < timerMaxCounter) (he : tick < e)
    (hhead : head' = min head e) (hfirst : first ≠ none → head ≤ e → first' = first)
    (hwait : timeToWait = head → timeToWait' = head') (hg : pc.choosing → head ≤ e) :
    WakesAt first' head' tick timeToWait' pc := by
  have hdue : head ≤ tick → first' = first := by
    intro hle
    refine hfirst (fun hn => ?_) (by omega)
    have := hnone hn
    omega
  -- what the task has read stays right
  have hread : ∀ {p}, head ≤ e → p = first ∨ (p = none ∧ head = timerMaxCounter) →
      p = first' ∨ (p = none ∧ head' = timerMaxCounter) := by
    intro p hle hp
    have hsame : head' = head := by omega
    rcases hp with rfl | ⟨hp, hmax⟩
    · by_cases hn : p = none
      · exact .inr ⟨hn, hsame.trans (hnone hn)⟩
      · exact .inl (hfirst hn hle).symm
    · exact .inr ⟨hp, hsame.trans hmax⟩
  cases pc with
  | start => exact trivial
  | store next =>
    have hle := hg rfl
    exact ⟨by have := h.1; omega, by have := h.2; omega⟩
  | enter => exact ⟨hwait h.1, by have := h.2; omega⟩
  | asleep => exact ⟨hwait h.1, by have := h.2; omega⟩
  | woken =>
    have h : head ≤ tick := h
    show head' ≤ tick
    omega
  | overflowCheck p => exact ⟨h.1.trans (hdue h.2).symm, by have := h.2; omega⟩
  | loop ov p => exact ⟨h.1, hread (hg rfl) h.2⟩
  | next p =>
    have hle := hg rfl
    exact ⟨hread hle h.1, by have := h.2; omega⟩
  | expire ov p => exact ⟨h.1, (hdue h.2.2).trans h.2.1, by have := h.2.2; omega⟩
  | invoke ov p => exact ⟨h.1, (hdue h.2.2).trans h.2.1, by have := h.2.2; omega⟩
  | callback ov p => exact ⟨h.1, (hdue h.2.2).trans h.2.1, by have := h.2.2; omega⟩
  | finish ov p again => exact ⟨h.1, (hdue h.2.2).trans h.2.1, by have := h.2.2; omega⟩
  | switch ov => exact h
  | switched ov tmp => exact h
  | head ov => exact h

theorem WakesAt.ticked (h : WakesAt first head tick timeToWait pc) (hg : pc.decided → tick + 1 < head)
    (hwake : ¬ (pc = .asleep ∧ timeToWait = tick + 1)) : WakesAt first head (tick + 1) timeToWait pc := by
  cases pc with
  | start => exact trivial
  | store next => exact ⟨h.1, hg rfl⟩
  | enter => exact ⟨h.1, hg rfl⟩
  | asleep =>
    have hne : timeToWait ≠ tick + 1 := fun he => hwake ⟨rfl, he⟩
    have hlt := h.2
    exact ⟨h.1, by have := h.1; omega⟩
  | woken => exact Nat.le_succ_of_le h
  | overflowCheck p => exact ⟨h.1, Nat.le_succ_of_le h.2⟩
  | loop ov p => exact h
  | next p => exact ⟨h.1, hg rfl⟩
  | expire ov p => exact ⟨h.1, h.2.1, Nat.le_succ_of_le h.2.2⟩
  | invoke ov p => exact ⟨h.1, h.2.1, Nat.le_succ_of_le h.2.2⟩
  | callback ov p => exact ⟨h.1, h.2.1, Nat.le_succ_of_le h.2.2⟩
  | finish ov p again => exact ⟨h.1, h.2.1, Nat.le_succ_of_le h.2.2⟩
  | switch ov => exact h
  | switched ov tmp => exact h
  | head ov => exact h

end

/-! ## The first timer -/

section
variable {null : BrtosTimerT} {s t : TimerSys} {p q : BrtosTimer}

theorem headTime_of_first (h : s.first s.current = some q) : s.headTime = (s.mem q).timeout := by
  unfold TimerSys.headTime
  rw [h]
  rfl

theorem headTime_of_none (h : s.first s.current = none) : s.headTime = timerMaxCounter := by
  unfold TimerSys.headTime
  rw [h]
  rfl

theorem headTime_le (h : (s.lists s.current).Ok null s.mem) (hq : some q ∈ (s.lists s.current).entries) :
    s.headTime ≤ (s.mem q).timeout := by
  have hmin := h.ordered.root_le hq
  cases hp : s.first s.current with
  | none =>
    exfalso
    have hzero := h.first_eq_none.mp hp
    unfold BrtosTmrT.entries at hq
    rw [hzero] at hq
    exact Multiset.notMem_zero _ hq
  | some p =>
    rw [headTime_of_first hp]
    have hp : (s.lists s.current).timers 1 = some p := hp
    rw [hp] at hmin
    exact hmin

theorem headTime_congr (hfirst : t.first t.current = s.first s.current)
    (hm : ∀ q, s.first s.current = some q → (t.mem q).timeout = (s.mem q).timeout) :
    t.headTime = s.headTime := by
  cases hp : s.first s.current with
  | none => rw [headTime_of_none hp, headTime_of_none (hfirst.trans hp)]
  | some p => rw [headTime_of_first hp, headTime_of_first (hfirst.trans hp), hm p hp]

theorem enqueue_later {timeWait : Nat} (hne : s.current ≠ s.future)
    (hlate : tickCountOverflow ≤ (s.tick + timeWait) % 2 ^ 64) :
    (s.enqueue null p timeWait).first s.current = s.first s.current ∧
      (s.enqueue null p timeWait).timeToWait = s.timeToWait := by
  unfold TimerSys.enqueue TimerSys.first
  dsimp only
  rw [if_pos hlate]
  dsimp only [TimerSys.setTimer, TimerSys.setList]
  rw [Function.update_of_ne hne]
  exact ⟨rfl, rfl⟩

/-- A timer that goes into the current list changes the wake-up time if it is as early as the first one. -/
theorem enqueue_wait {timeWait : Nat} (hnow : ¬ tickCountOverflow ≤ (s.tick + timeWait) % 2 ^ 64) :
    (s.enqueue null p timeWait).timeToWait =
      if s.expiry timeWait = timeoutOf null (s.enqueue null p timeWait).mem
          ((s.enqueue null p timeWait).first s.current) then s.expiry timeWait
      else s.timeToWait := by
  have hsum : s.expiry timeWait = (s.tick + timeWait) % 2 ^ 64 := if_neg hnow
  rw [hsum]
  unfold TimerSys.enqueue
  dsimp only
  rw [if_neg hnow]
  generalize hm : (s.setTimer p { s.mem p with timeout := (s.tick + timeWait) % 2 ^ 64 }) = u
  have hmp : (u.mem p).timeout = (s.tick + timeWait) % 2 ^ 64 := by
    rw [← hm, TimerSys.setTimer_mem, if_pos rfl]
  have hcur : u.current = s.current := by rw [← hm]; rfl
  have hwait : u.timeToWait = s.timeToWait := by rw [← hm]; rfl
  generalize hl : u.setList u.current ((u.lists u.current).insert null u.mem p) = v
  have hvm : v.mem = u.mem := by rw [← hl]; rfl
  have hvw : v.timeToWait = s.timeToWait := by rw [← hwait, ← hl]; rfl
  -- the state of `p` is written last
  have hlast : ∀ x, timeoutOf null (Function.update v.mem p { v.mem p with state := .running }) x =
      (deref null v.mem x).timeout := by
    intro x
    cases x with
    | none => rfl
    | some q =>
      show (Function.update v.mem p { v.mem p with state := .running } q).timeout = (v.mem q).timeout
      by_cases hq : q = p
      · rw [hq, Function.update_self]
      · rw [Function.update_of_ne hq]
  have hvp : (v.mem p).timeout = (s.tick + timeWait) % 2 ^ 64 := by rw [hvm, hmp]
  have hvc : v.current = s.current := by rw [← hcur, ← hl]; rfl
  rw [hvc, hvp]
  split
  · rename_i he
    refine (if_pos ?_).symm
    rw [he]
    exact (hlast _).symm
  · rename_i he
    refine hvw.trans (if_neg fun hcon => he ?_).symm
    exact hcon.trans (hlast _)

theorem enqueue_now {timeWait : Nat} (h : s.ListsOk null) (hp : some p ∉ s.queued)
    (hroom : (s.lists (s.target timeWait)).count < brtosMaxTimer - 1)
    (hnow : s.tick + timeWait < tickCountOverflow) :
    (s.enqueue null p timeWait).headTime = min s.headTime (s.tick + timeWait) ∧
      (s.first s.current ≠ none → s.headTime ≤ s.tick + timeWait →
        (s.enqueue null p timeWait).first s.current = s.first s.current) ∧
      (s.timeToWait = s.headTime →
        (s.enqueue null p timeWait).timeToWait = (s.enqueue null p timeWait).headTime) := by
  have hmod : (s.tick + timeWait) % 2 ^ 64 = s.tick + timeWait := by
    unfold tickCountOverflow at hnow
    omega
  have hexpiry : s.expiry timeWait = s.tick + timeWait := by
    unfold TimerSys.expiry
    rw [hmod]
    exact if_neg (by omega)
  have htarget : s.target timeWait = s.current := by
    unfold TimerSys.target
    rw [hmod]
    exact if_neg (by omega)
  have hspec := enqueue_spec h hp hroom
  have hwait : (s.enqueue null p timeWait).timeToWait = _ := enqueue_wait (by omega)
  have hfirst : ∀ q, s.first s.current = some q → (s.mem q).timeout ≤ s.tick + timeWait →
      (s.enqueue null p timeWait).first s.current = some q := by
    intro q hq hle
    have hin := (h s.current).first_mem hq
    have hqp := ne_of_not_queued hp hin
    have hpos := (h s.current).one_le_count hq
    obtain ⟨ttw, he⟩ := enqueue_eq null s p timeWait
    rw [he, htarget]
    show ((s.setList s.current _).lists s.current).timers 1 = some q
    rw [TimerSys.setList_lists, if_pos rfl]
    rw [htarget] at hroom
    apply BrtosTmrT.insert_first p hroom hq hpos
    rw [Function.update_of_ne hqp, Function.update_self, hexpiry]
    exact hle
  generalize s.enqueue null p timeWait = t at hspec hwait hfirst ⊢
  have hcur : t.current = s.current := by rw [hspec.rest]
  have htp : (t.mem p).timeout = s.tick + timeWait := by
    rw [hspec.timer]
    exact hexpiry
  have hpin : some p ∈ (t.lists t.current).entries := by
    rw [← Multiset.count_pos, hspec.count, if_pos (hcur.trans htarget.symm)]
    exact Nat.one_pos
  have hok := hspec.lists t.current
  have hhead : t.headTime = min s.headTime (s.tick + timeWait) := by
    apply Nat.le_antisymm
    · apply Nat.le_min.mpr
      refine ⟨?_, htp ▸ headTime_le hok hpin⟩
      cases hq : s.first s.current with
      | none =>
        have hle := headTime_le hok hpin
        rw [headTime_of_none hq]
        unfold timerMaxCounter
        omega
      | some q =>
        have hin := (h s.current).first_mem hq
        have hqp := ne_of_not_queued hp hin
        rw [headTime_of_first hq, ← hspec.touched.mem q hqp]
        apply headTime_le hok
        rw [← Multiset.count_pos, hspec.touched.count _ q hqp, hcur]
        exact Multiset.count_pos.mpr hin
    · cases hr : t.first t.current with
      | none =>
        rw [headTime_of_none hr]
        unfold timerMaxCounter
        omega
      | some r =>
        rw [headTime_of_first hr]
        by_cases hrp : r = p
        · rw [hrp, htp]
          exact Nat.min_le_right _ _
        · rw [hspec.touched.mem r hrp]
          refine Nat.le_trans (Nat.min_le_left _ _) (headTime_le (h s.current) ?_)
          rw [← Multiset.count_pos, ← hspec.touched.count _ r hrp, ← hcur]
          exact Multiset.count_pos.mpr (hok.first_mem hr)
  refine ⟨hhead, fun hn hle => ?_, fun httw => ?_⟩
  · cases hq : s.first s.current with
    | none => exact absurd hq hn
    | some q =>
      apply hfirst q hq
      rwa [← headTime_of_first hq]
  · have hsome : timeoutOf null t.mem (t.first s.current) = t.headTime := by
      cases hr : t.first t.current with
      | none =>
        have hzero := hok.first_eq_none.mp hr
        unfold BrtosTmrT.entries at hpin
        rw [hzero] at hpin
        exact absurd hpin (Multiset.notMem_zero _)
      | some r =>
        rw [headTime_of_first hr, ← hcur, hr]
        rfl
    rw [hsome, hexpiry, httw, hhead] at hwait
    rw [hwait, hhead]
    split <;> omega

/-! ## The invariant -/

/-- The deadline of a queued timer is its timeout, or comes after the overflow of the tick counter. -/
structure SleepInv (null : BrtosTimerT) (s : TimerSys) (d : BrtosTimer → Nat) : Prop where
  lists : TimerInv null s
  tick : s.tick < timerMaxCounter
  now : ∀ q, some q ∈ (s.lists s.current).entries → (s.mem q).timeout = d q ∧ d q < tickCountOverflow
  later : ∀ q, some q ∈ (s.lists s.future).entries → tickCountOverflow ≤ d q
  wakes : s.Wakes

namespace SleepInv
variable {d d' : BrtosTimer → Nat}

theorem current_ne (h : SleepInv null s d) : s.current ≠ s.future :=
  h.lists.pointers.current_ne h.wakes.noOverflow

theorem quiet (h : SleepInv null s d) (hinv : TimerInv null t) (hm : t.mem = s.mem)
    (hl : t.lists = s.lists) (hc : t.current = s.current) (hf : t.future = s.future)
    (htick : t.tick < timerMaxCounter) (hw : t.Wakes) : SleepInv null t d := by
  refine ⟨hinv, htick, ?_, ?_, hw⟩
  · rw [hm, hl, hc]
    exact h.now
  · rw [hl, hf]
    exact h.later

theorem touched (h : SleepInv null s d) (hinv : TimerInv null t) (ht : Touched p s t)
    (hd : ∀ q, q ≠ p → d' q = d q) (hc : t.current = s.current) (hf : t.future = s.future)
    (htick : t.tick = s.tick)
    (hnow : some p ∈ (t.lists s.current).entries →
      (t.mem p).timeout = d' p ∧ d' p < tickCountOverflow)
    (hlater : some p ∈ (t.lists s.future).entries → tickCountOverflow ≤ d' p) (hw : t.Wakes) :
    SleepInv null t d' := by
  have hmem : ∀ l q, q ≠ p → some q ∈ (t.lists l).entries → some q ∈ (s.lists l).entries := by
    intro l q hq hin
    rw [← Multiset.count_pos, ← ht.count l q hq]
    exact Multiset.count_pos.mpr hin
  refine ⟨hinv, htick ▸ h.tick, fun q hq => ?_, fun q hq => ?_, hw⟩
  · rw [hc] at hq
    by_cases hqp : q = p
    · rw [hqp] at hq ⊢
      exact hnow hq
    · rw [ht.mem q hqp, hd q hqp]
      exact h.now q (hmem _ q hqp hq)
  · rw [hf] at hq
    by_cases hqp : q = p
    · rw [hqp] at hq ⊢
      exact hlater hq
    · rw [hd q hqp]
      exact h.later q (hmem _ q hqp hq)

theorem setTimer {x : BrtosTimerT} (h : SleepInv null s d) (hp : some p ∉ s.queued)
    (hx : x.state ≠ .running) (hx' : x.state ≠ .search) (hd : ∀ q, q ≠ p → d' q = d q) :
    SleepInv null (s.setTimer p x) d' := by
  have ht : Touched p s (s.setTimer p x) :=
    ⟨fun q hq => Function.update_of_ne hq _ _, fun _ _ _ => rfl⟩
  have hno : ∀ l, some p ∉ (s.lists l).entries := fun l hin => hp (s.mem_queued.mpr ⟨l, hin⟩)
  have hhead : (s.setTimer p x).headTime = s.headTime := by
    refine headTime_congr rfl fun q hq => ?_
    rw [ht.mem q (ne_of_not_queued hp ((h.lists.lists s.current).first_mem hq))]
  refine h.touched (h.lists.setTimer hp hx hx') ht hd rfl rfl rfl (fun hin => absurd hin (hno _))
    (fun hin => absurd hin (hno _)) ?_
  have hw := h.wakes
  unfold TimerSys.Wakes at hw ⊢
  rw [hhead]
  exact hw

theorem enqueue {timeWait : Nat} (h : SleepInv null s d) (hp : some p ∉ s.queued)
    (hroom : (s.lists (s.target timeWait)).count < brtosMaxTimer - 1) (hpos : 0 < timeWait)
    (hk : s.SumKept timeWait) :
    SleepInv null (s.enqueue null p timeWait) (Function.update d p (s.tick + timeWait)) := by
  have hspec := enqueue_spec h.lists.lists hp hroom
  have hinv := h.lists.enqueue hp hroom
  have hmod : (s.tick + timeWait) % 2 ^ 64 = s.tick + timeWait := Nat.mod_eq_of_lt hk.1
  have hself : Function.update d p (s.tick + timeWait) p = s.tick + timeWait := Function.update_self _ _ _
  have hnone : s.first s.current = none → s.headTime = timerMaxCounter := headTime_of_none
  have hw := h.wakes
  rcases Nat.lt_or_ge (s.tick + timeWait) tickCountOverflow with hnow | hlate
  · have htarget : s.target timeWait = s.current := by
      unfold TimerSys.target
      rw [hmod, if_neg (by omega)]
    obtain ⟨hhead, hfirst, hwait⟩ := enqueue_now h.lists.lists hp hroom hnow
    refine h.touched hinv hspec.touched (fun q hq => Function.update_of_ne hq _ _)
      (by rw [hspec.rest]) (by rw [hspec.rest]) (by rw [hspec.rest]) (fun _ => ?_) (fun hin => ?_) ?_
    · rw [hself, hspec.timer]
      refine ⟨?_, hnow⟩
      show s.expiry timeWait = s.tick + timeWait
      unfold TimerSys.expiry
      rw [hmod]
      exact if_neg (by omega)
    · rw [← Multiset.count_pos, hspec.count, htarget, if_neg h.current_ne.symm] at hin
      exact absurd hin (Nat.lt_irrefl 0)
    · have hq := WakesAt.queued hw hnone h.tick (by omega : s.tick < s.tick + timeWait) hhead hfirst hwait
        (hk.2 hnow)
      unfold TimerSys.Wakes
      rw [show (s.enqueue null p timeWait).current = s.current by rw [hspec.rest],
        show (s.enqueue null p timeWait).tick = s.tick by rw [hspec.rest],
        show (s.enqueue null p timeWait).pc = s.pc by rw [hspec.rest]]
      exact hq
  · have htarget : s.target timeWait = s.future := by
      unfold TimerSys.target
      rw [hmod, if_pos hlate]
    have hlate' : tickCountOverflow ≤ (s.tick + timeWait) % 2 ^ 64 := by rwa [hmod]
    obtain ⟨hfirst, hwait⟩ : (s.enqueue null p timeWait).first s.current = s.first s.current ∧
        (s.enqueue null p timeWait).timeToWait = s.timeToWait := enqueue_later h.current_ne hlate'
    have hcur : (s.enqueue null p timeWait).current = s.current := by rw [hspec.rest]
    have hhead : (s.enqueue null p timeWait).headTime = s.headTime := by
      refine headTime_congr (hcur ▸ hfirst) fun q hq => ?_
      rw [hspec.touched.mem q (ne_of_not_queued hp ((h.lists.lists s.current).first_mem hq))]
    refine h.touched hinv hspec.touched (fun q hq => Function.update_of_ne hq _ _)
      (by rw [hspec.rest]) (by rw [hspec.rest]) (by rw [hspec.rest]) (fun hin => ?_) (fun _ => ?_) ?_
    · rw [← Multiset.count_pos, hspec.count, htarget, if_neg h.current_ne] at hin
      exact absurd hin (Nat.lt_irrefl 0)
    · rw [hself]
      exact hlate
    · unfold TimerSys.Wakes
      rw [hhead, hwait, hcur, hfirst, show (s.enqueue null p timeWait).tick = s.tick by rw [hspec.rest],
        show (s.enqueue null p timeWait).pc = s.pc by rw [hspec.rest]]
      exact hw

theorem finish {ov : Bool} {again : Nat} {r : U64} (h : SleepInv null s d) (hpc : s.pc = .finish ov p again)
    (hg : ListsKept s (.task r)) (hk : s.LoopKept s.pc) :
    SleepInv null (s.finishExpired null ov p again)
      (if 0 < again then Function.update d p (s.tick + again) else d) := by
  obtain ⟨hspec, hinv⟩ := h.lists.finish hpc hg
  have hptr := h.lists.pointers
  have hw := h.wakes
  unfold TimerSys.PointersOk at hptr
  unfold TimerSys.Wakes at hw
  rw [hpc] at hptr hw hk
  obtain rfl : ov = false := hw.1
  have hsum : s.tick + again < 2 ^ 64 := hk
  have hmod : (s.tick + again) % 2 ^ 64 = s.tick + again := Nat.mod_eq_of_lt hsum
  have hwakes : (s.finishExpired null false p again).Wakes := by
    unfold TimerSys.Wakes
    rw [hspec.pc, show (s.finishExpired null false p again).current = s.list by
      rw [hspec.rest]; exact hptr.2.symm]
    exact ⟨rfl, .inl rfl⟩
  by_cases ha : 0 < again
  · rw [if_pos ha]
    have hself : Function.update d p (s.tick + again) p = s.tick + again := Function.update_self _ _ _
    refine h.touched hinv hspec.touched (fun q hq => Function.update_of_ne hq _ _)
      (by rw [hspec.rest]) (by rw [hspec.rest]) (by rw [hspec.rest]) (fun hin => ?_) (fun hin => ?_) hwakes
    · rw [← Multiset.count_pos, hspec.count] at hin
      split at hin
      · rename_i hl
        have hl := hl.2
        unfold TimerSys.againList at hl
        rw [hmod] at hl
        have hnow : ¬ tickCountOverflow ≤ s.tick + again := by
          intro hlate
          rw [if_pos (.inr hlate)] at hl
          exact h.current_ne hl
        rw [hself, hspec.timer, if_pos ha]
        refine ⟨?_, by omega⟩
        show s.againTimeout false again = s.tick + again
        unfold TimerSys.againTimeout
        rw [hmod, if_pos (.inr (by omega))]
      · exact absurd hin (Nat.lt_irrefl 0)
    · rw [hself]
      rw [← Multiset.count_pos, hspec.count] at hin
      by_contra hlt
      have hl : ¬ (0 < again ∧ s.future = s.againList false again) := by
        rintro ⟨_, hl⟩
        unfold TimerSys.againList at hl
        rw [hmod, if_neg (by simpa using hlt), hptr.2] at hl
        exact h.current_ne hl.symm
      rw [if_neg hl] at hin
      exact Nat.lt_irrefl 0 hin
  · rw [if_neg ha]
    have hno : ∀ l, some p ∉ ((s.finishExpired null false p again).lists l).entries := by
      intro l
      rw [← Multiset.count_eq_zero, hspec.count]
      exact if_neg fun hc => ha hc.1
    exact h.touched hinv hspec.touched (fun q _ => rfl)
      (by rw [hspec.rest]) (by rw [hspec.rest]) (by rw [hspec.rest]) (fun hin => absurd hin (hno _))
      (fun hin => absurd hin (hno _)) hwakes

end SleepInv

/-! ## Runs -/

theorem SleepInv.expire {d : BrtosTimer → Nat} {ov : Bool} (h : SleepInv null s d)
    (hpc : s.pc = .expire ov p) :
    SleepInv null { s.setTimer p { s.mem p with state := .stopped } with pc := .invoke ov p } d := by
  have hw := h.wakes
  unfold TimerSys.Wakes at hw
  rw [hpc] at hw
  have hmp : Function.update s.mem p { s.mem p with state := .stopped } p =
      { s.mem p with state := .stopped } := Function.update_self _ _ _
  have ht : Touched p s { s.setTimer p { s.mem p with state := .stopped } with pc := .invoke ov p } :=
    ⟨fun q hq => Function.update_of_ne hq _ _, fun _ _ _ => rfl⟩
  have hsame : ∀ q, (Function.update s.mem p { s.mem p with state := .stopped } q).timeout =
      (s.mem q).timeout := by
    intro q
    by_cases hq : q = p
    · rw [hq, hmp]
    · rw [Function.update_of_ne hq]
  refine h.touched (h.lists.expire hpc) ht (fun q _ => rfl) rfl rfl rfl (fun hin => ?_)
    (fun hin => h.later p hin) ?_
  · have hnow := h.now p hin
    exact ⟨(hsame p).trans hnow.1, hnow.2⟩
  · have hhead : TimerSys.headTime
        { s.setTimer p { s.mem p with state := .stopped } with pc := .invoke ov p } = s.headTime :=
      headTime_congr rfl fun q _ => hsame q
    unfold TimerSys.Wakes
    rw [hhead]
    exact hw

theorem SleepInv.task {d : BrtosTimer → Nat} {again : U64} (h : SleepInv null s d)
    (hk : SleepKept s (.task again)) (hs : timerTaskStep null s again = some t) :
    SleepInv null t (noteDeadline s d (.task again)) := by
  have hquiet := timerTaskStep_quiet hs
  have hinv := (timerStep_inv (a := .task again) h.lists hk.1 hs).1
  have hw := h.wakes
  have hloop : s.LoopKept s.pc := hk.2
  unfold timerTaskStep at hs
  unfold TimerSys.touches at hquiet
  unfold noteDeadline TimerSys.waits
  unfold TimerSys.Wakes at hw
  cases hpc : s.pc with
  | asleep => rw [hpc] at hs; cases hs
  | switch ov => rw [hpc] at hw; exact absurd hw id
  | switched ov tmp => rw [hpc] at hw; exact absurd hw id
  | head ov => rw [hpc] at hw; exact absurd hw id
  | start =>
    rw [hpc] at hs hloop
    cases hs
    exact h.quiet hinv rfl rfl rfl rfl h.tick ⟨.inl rfl, hloop⟩
  | store next =>
    rw [hpc] at hs hw
    cases hs
    exact h.quiet hinv rfl rfl rfl rfl h.tick hw
  | enter =>
    rw [hpc] at hs hw
    cases hs
    exact h.quiet hinv rfl rfl rfl rfl h.tick hw
  | woken =>
    rw [hpc] at hs hw
    cases hs
    exact h.quiet hinv rfl rfl rfl rfl h.tick ⟨rfl, hw⟩
  | overflowCheck p =>
    rw [hpc] at hs hw
    cases hs
    refine h.quiet hinv rfl rfl rfl rfl h.tick ⟨?_, .inl hw.1⟩
    cases p with
    | none => rfl
    | some q =>
      have hdue := hw.2
      rw [headTime_of_first hw.1.symm] at hdue
      exact decide_eq_false (Nat.not_lt.mpr hdue)
  | loop ov p =>
    rw [hpc] at hs hw hloop
    obtain rfl : ov = false := hw.1
    cases p with
    | none =>
      have hk : s.timeout ≤ timerMaxCounter := hloop
      have hmax : s.headTime = timerMaxCounter :=
        hw.2.elim (fun hn => headTime_of_none hn.symm) fun hn => hn.2
      dsimp only at hs
      rw [if_neg (by simpa using hk)] at hs
      cases hs
      exact h.quiet hinv rfl rfl rfl rfl h.tick ⟨hw.2, hmax ▸ h.tick⟩
    | some p =>
      have hfirst : s.first s.current = some p :=
        (hw.2.resolve_right fun hn => nomatch hn.1).symm
      dsimp only at hs
      split at hs
      · rename_i hdue
        cases hs
        refine h.quiet hinv rfl rfl rfl rfl h.tick ⟨rfl, hfirst, ?_⟩
        show s.headTime ≤ s.tick
        rw [headTime_of_first hfirst]
        exact hdue.resolve_left Bool.false_ne_true
      · rename_i hdue
        cases hs
        refine h.quiet hinv rfl rfl rfl rfl h.tick ⟨.inl hfirst.symm, ?_⟩
        show s.tick < s.headTime
        rw [headTime_of_first hfirst]
        exact Nat.not_le.mp fun hle => hdue (.inr hle)
  | next p =>
    rw [hpc] at hs hw
    cases hs
    refine h.quiet hinv rfl rfl rfl rfl h.tick ⟨?_, hw.2⟩
    rcases hw.1 with he | ⟨he, hmax⟩
    · rw [he]
      rfl
    · rw [he]
      exact hmax.symm
  | expire ov p =>
    rw [hpc] at hs
    cases hs
    exact h.expire hpc
  | invoke ov p =>
    rw [hpc] at hs hw
    cases hs
    refine h.quiet hinv rfl rfl rfl rfl h.tick ?_
    unfold TimerSys.Wakes
    dsimp only
    split <;> exact hw
  | callback ov p =>
    rw [hpc] at hs hw
    cases hs
    exact h.quiet hinv rfl rfl rfl rfl h.tick hw
  | finish ov p again =>
    rw [hpc] at hs
    cases hs
    have hf : SleepInv null (s.finishExpired null ov p again) _ := h.finish hpc hk.1 hloop
    dsimp only
    split at hf
    · rename_i ha
      rw [if_pos ha]
      exact hf
    · rename_i ha
      rw [if_neg ha]
      exact hf

theorem timerStep_sleep {d : BrtosTimer → Nat} {a : TimerAct} (h : SleepInv null s d)
    (hk : SleepKept s a) (hs : timerStep null s a = some t) : SleepInv null t (noteDeadline s d a) := by
  have hinv := (timerStep_inv h.lists hk.1 hs).1
  cases a with
  | tick =>
    cases hs
    obtain ⟨hmax, hdecided⟩ := hk.2
    have hnext : s.nextTick = s.tick + 1 := by
      unfold timerMaxCounter tickCountOverflow at hmax
      unfold TimerSys.nextTick tickCountOverflow
      rw [Nat.mod_eq_of_lt (by omega), if_neg (by omega)]
    have hw := h.wakes
    unfold TimerSys.Wakes at hw
    rcases osTick_cases s with ⟨hno, he⟩ | ⟨hpc, hwait, he⟩
    · rw [hnext] at hno he
      rw [he] at hinv ⊢
      exact h.quiet hinv rfl rfl rfl rfl hmax (WakesAt.ticked hw hdecided hno)
    · rw [hpc] at hw
      rw [hnext] at hwait he
      rw [he] at hinv ⊢
      exact h.quiet hinv rfl rfl rfl rfl hmax (hw.1.symm.trans hwait).le
  | set cb timeWait =>
    cases hs
    unfold osTimerSet noteDeadline TimerSys.waits
    cases hf : s.freeTimer with
    | none => exact h
    | some p =>
      have hno := h.lists.free_not_queued (freeTimer_state hf)
      have hset : ∀ {d'}, (∀ q, q ≠ p → d' q = d q) →
          SleepInv null (s.setTimer p { s.mem p with state := .stopped, funcCb := some cb }) d' :=
        fun hd => h.setTimer hno nofun nofun hd
      dsimp only [Option.map_some]
      split
      · rename_i hpos
        have hroom := hk.1.room hf hpos
        exact (hset fun _ _ => rfl).enqueue hno hroom hpos (by
          have hsum := hk.2 (by rw [hf]; rfl) hpos
          have hhead : (s.setTimer p { s.mem p with state := .stopped, funcCb := some cb }).headTime =
              s.headTime := headTime_congr rfl fun q hq => by
            rw [TimerSys.setTimer_mem,
              if_neg (ne_of_not_queued hno ((h.lists.lists s.current).first_mem hq))]
          refine ⟨hsum.1, fun hnow hc => ?_⟩
          rw [hhead]
          exact hsum.2 hnow hc)
      · exact hset fun q hq => Function.update_of_ne hq _ _
  | start p timeWait =>
    cases hs
    unfold osTimerStart noteDeadline TimerSys.waits
    dsimp only
    by_cases hzero : timeWait.toNat = 0
    · rw [if_pos hzero, if_neg (not_not.mpr hzero)]
      exact h
    · rw [if_neg hzero, if_pos hzero]
      obtain ⟨hno, hroom⟩ := hk.1.resolve_left hzero
      refine h.enqueue hno hroom ?_ (hk.2 hzero)
      unfold timerMaxCounter tickCountOverflow
      omega
  | stop p del => exact absurd hk.2 id
  | task again => exact h.task hk hs

theorem timersInit_sleep {t : Nat} (ht : t < timerMaxCounter) (d : BrtosTimer → Nat) :
    SleepInv null (timersInit t) d :=
  ⟨timersInit_inv null t, ht, fun _ hq => absurd hq (Multiset.notMem_zero _),
    fun _ hq => absurd hq (Multiset.notMem_zero _), trivial⟩

/-- In every run that keeps to `SleepKept`, the timer task in the delay list waits for a tick count that is
still to come, and that is not after the deadline of any running timer. -/
theorem sleeps_of_runs {t : Nat} {as : List TimerAct} (ht : t < timerMaxCounter)
    (r : Runs (timerStep null) SleepKept (timersInit t) as s) :
    Sleeps s (observe (timerStep null) noteDeadline (timersInit t) (fun _ => 0) as) := by
  have h : SleepInv null s (observe (timerStep null) noteDeadline (timersInit t) (fun _ => 0) as) :=
    r.observed (I := SleepInv null) (timersInit_sleep ht _) fun _ _ _ _ h hk hs => timerStep_sleep h hk hs
  intro hpc q hq
  have hw := h.wakes
  unfold TimerSys.Wakes at hw
  rw [hpc] at hw
  refine ⟨hw.1 ▸ hw.2, ?_⟩
  obtain ⟨l, hl⟩ := s.mem_queued.mp (h.lists.running q hq)
  have hne := h.current_ne
  have hcase : l = s.current ∨ l = s.future := by
    generalize s.current = a at hne
    generalize s.future = b at hne
    cases l <;> cases a <;> cases b <;> simp at hne ⊢
  rw [hw.1]
  rcases hcase with rfl | rfl
  · rw [← (h.now q hl).1]
    exact headTime_le (h.lists.lists s.current) hl
  · have hlater := h.later q hl
    have hmax : s.headTime ≤ timerMaxCounter := by
      cases hf : s.first s.current with
      | none => exact (headTime_of_none hf).le
      | some p =>
        have hnow := h.now p ((h.lists.lists s.current).first_mem hf)
        rw [headTime_of_first hf, hnow.1]
        unfold timerMaxCounter
        omega
    unfold timerMaxCounter at hmax
    omega

end

/-- A timer is set while the task sleeps for a later one. -/
def setWhileAsleep : List TimerAct :=
  [.set 1 5, .task 0, .task 0, .task 0, .task 0, .tick, .set 2 1]

theorem sleeps_of_runs_setWhileAsleep :
    ∃ s, Runs (timerStep default) SleepKept (timersInit 0) setWhileAsleep s ∧
      Sleeps s (observe (timerStep default) noteDeadline (timersInit 0) (fun _ => 0) setWhileAsleep) ∧
      s.pc = .asleep ∧ s.tick = 1 ∧ s.timeToWait = 2 := by
  have hrun : (exec (guarded (timerStep default) SleepKept) (timersInit 0) setWhileAsleep).map
      (fun s => (s.pc, s.tick, s.timeToWait)) = some (.asleep, 1, 2) := by decide +kernel
  obtain ⟨s, hs, he⟩ := Option.map_eq_some_iff.mp hrun
  have r := Runs.of_exec_guarded hs
  exact ⟨s, r, sleeps_of_runs (by decide) r, congrArg Prod.fst he, congrArg (fun x => x.2.1) he,
    congrArg (fun x => x.2.2) he⟩

def NoStop (_ : TimerSys) : TimerAct → Prop
  | .stop .. => False
  | _ => True

instance (s : TimerSys) (a : TimerAct) : Decidable (NoStop s a) :=
  match a with
  | .stop .. => .isFalse id
  | .tick | .set .. | .start .. | .task _ => .isTrue trivial

/-- The timer is due at the tick that comes between the task's look at the list and its sleep. -/
def tickBeforeSleep : List TimerAct := [.set 1 1, .task 0, .tick, .task 0, .task 0, .task 0]

theorem sleeps_fails :
    ¬ ∀ (as : List TimerAct) (s : TimerSys), Runs (timerStep default) NoStop (timersInit 0) as s →
      Sleeps s (observe (timerStep default) noteDeadline (timersInit 0) (fun _ => 0) as) := by
  intro h
  have hrun : (exec (guarded (timerStep default) NoStop) (timersInit 0) tickBeforeSleep).map
      (fun s => (s.pc, (s.mem 0).state, s.tick, s.timeToWait)) = some (.asleep, .running, 1, 1) := by
    decide +kernel
  obtain ⟨s, hs, he⟩ := Option.map_eq_some_iff.mp hrun
  have hpc : s.pc = .asleep := congrArg Prod.fst he
  have hstate : (s.mem 0).state = .running := congrArg (fun x => x.2.1) he
  have htick : s.tick = 1 := congrArg (fun x => x.2.2.1) he
  have hwait : s.timeToWait = 1 := congrArg (fun x => x.2.2.2) he
  have hlate := (h tickBeforeSleep s (Runs.of_exec_guarded hs) hpc 0 hstate).1
  rw [htick, hwait] at hlate
  exact Nat.lt_irrefl 1 hlate

end Unet4Cooja
