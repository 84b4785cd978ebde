import Unet4Cooja.Brtos.TimerOps
import Unet4Cooja.Lib.Runs

/-!
# Running timers are queued

* `ListsKept` : no list overflows, only timers that are not queued are started, and a timer is removed
  where it is queued;
* `TimerInv`, `timerStep_inv` : the invariant of the timer lists;
* `represented_of_runs` : then the running timers are queued once, all others not at all, and both lists
  are heaps;
* `represented_fails` : eight timers do not fit into a list.
-/

namespace Unet4Cooja
open Lib

/-- The timer whose expiry is being handled. -/
def TimerPc.busy : TimerPc → Option BrtosTimer
  | .invoke _ p | .callback _ p | .finish _ p _ => some p
  | _ => none

/-! ## The invariant -/

/-- The two list pointers differ, apart from the moment in which they are exchanged, and the task works
on the current list. -/
def TimerSys.PointersOk (s : TimerSys) : Prop :=
  match s.pc with
  | .switched _ tmp => s.current = s.future ∧ tmp ≠ s.future
  | .overflowCheck _ | .loop .. | .expire .. | .invoke .. | .callback .. | .finish .. =>
    s.current ≠ s.future ∧ s.list = s.current
  | _ => s.current ≠ s.future

structure TimerInv (null : BrtosTimerT) (s : TimerSys) : Prop where
  lists : s.ListsOk null
  once : ∀ p, s.queued.count (some p) ≤ 1
  running : ∀ p, (s.mem p).state = .running → some p ∈ s.queued
  state : ∀ p, some p ∈ s.queued →
    (s.mem p).state = .running ∨ (s.pc.busy = some p ∧ (s.mem p).state = .stopped)
  search : ∀ p, (s.mem p).state ≠ .search
  pointers : s.PointersOk

/-- A timer is still the first one when its callback has returned, or it is not queued any more, is not
to be repeated, and the list is empty. -/
def TimerSys.FinishKept (s : TimerSys) : TimerPc → Prop
  | .finish ov p again =>
    (s.first s.list = some p ∧
        (0 < again → (ov = true ∨ tickCountOverflow ≤ (s.tick + again) % 2 ^ 64) →
          (s.lists s.future).count < brtosMaxTimer - 1)) ∨
      (again = 0 ∧ some p ∉ s.queued ∧ (s.lists s.list).count = 0)
  | _ => True

/-- No list gets more entries than its array has room for, only timers that are not queued are started,
and `OSTimerStop` finds the timer in the list it looks at, or finds this list empty and the timer not
queued. -/
def ListsKept (s : TimerSys) : TimerAct → Prop
  | .tick => True
  | .set _ timeWait =>
    timeWait.toNat = 0 ∨ s.freeTimer = none ∨
      (s.lists (s.target timeWait.toNat)).count < brtosMaxTimer - 1
  | .start p timeWait =>
    timeWait.toNat = 0 ∨
      (some p ∉ s.queued ∧
        (s.lists (s.target (min timeWait.toNat timerMaxCounter))).count < brtosMaxTimer - 1)
  | .stop p _ =>
    (some p ∈ (s.lists (s.stopList p)).entries ∧
        (s.first (s.stopList p) = some p ∨
          ∀ q, s.first (s.stopList p) = some q → 0 < (s.mem q).timeout)) ∨
      (some p ∉ s.queued ∧ (s.lists (s.stopList p)).count = 0)
  | .task _ => s.FinishKept s.pc

instance (s : TimerSys) (pc : TimerPc) : Decidable (s.FinishKept pc) :=
  match pc with
  | .finish .. => inferInstanceAs (Decidable (_ ∨ _))
  | .start | .store _ | .enter | .asleep | .woken | .overflowCheck _ | .loop .. | .expire .. |
    .invoke .. | .callback .. | .switch _ | .switched .. | .head _ | .next _ => .isTrue trivial

instance (s : TimerSys) (a : TimerAct) : Decidable (ListsKept s a) :=
  match a with
  | .tick => .isTrue trivial
  | .set .. | .start .. | .stop .. => inferInstanceAs (Decidable (_ ∨ _))
  | .task _ => inferInstanceAs (Decidable (s.FinishKept s.pc))

theorem ListsKept.room {s : TimerSys} {p : BrtosTimer} {cb : Nat} {timeWait : U64}
    (h : ListsKept s (.set cb timeWait)) (hf : s.freeTimer = some p) (hpos : 0 < timeWait.toNat) :
    (s.lists (s.target timeWait.toNat)).count < brtosMaxTimer - 1 := by
  rcases h with hz | hn | hroom
  · omega
  · rw [hf] at hn
    cases hn
  · exact hroom

theorem Touched.queued_count {s t : TimerSys} {p q : BrtosTimer} (h : Touched p s t) (hq : q ≠ p) :
    t.queued.count (some q) = s.queued.count (some q) := by
  rw [t.queued_count, s.queued_count, h.count _ q hq, h.count _ q hq]

theorem TimerSys.queued_count_of_entries {s : TimerSys} {p : BrtosTimer} {c : ListId → Nat}
    (h : ∀ l, (s.lists l).entries.count (some p) = c l) :
    s.queued.count (some p) = c .ping + c .pong := by
  rw [s.queued_count, h, h]

namespace TimerInv
variable {null : BrtosTimerT} {s t : TimerSys} {p : BrtosTimer}

theorem quiet (h : TimerInv null s) (hm : t.mem = s.mem) (hl : t.lists = s.lists)
    (hb : t.pc.busy = s.pc.busy) (hptr : t.PointersOk) : TimerInv null t := by
  have hq : t.queued = s.queued := by
    unfold TimerSys.queued
    rw [hl]
  refine ⟨fun l => ?_, ?_, ?_, ?_, ?_, hptr⟩
  · rw [hl, hm]
    exact h.lists l
  · rw [hq]
    exact h.once
  · rw [hq, hm]
    exact h.running
  · rw [hq, hm, hb]
    exact h.state
  · rw [hm]
    exact h.search

theorem touched (h : TimerInv null s) (ht : Touched p s t) (hlists : t.ListsOk null)
    (honce : t.queued.count (some p) ≤ 1)
    (hrunning : (t.mem p).state = .running → some p ∈ t.queued)
    (hstate : some p ∈ t.queued →
      (t.mem p).state = .running ∨ (t.pc.busy = some p ∧ (t.mem p).state = .stopped))
    (hsearch : (t.mem p).state ≠ .search)
    (hbusy : ∀ q, q ≠ p → s.pc.busy = some q → t.pc.busy = some q) (hptr : t.PointersOk) :
    TimerInv null t := by
  have hmem : ∀ q, q ≠ p → (some q ∈ t.queued ↔ some q ∈ s.queued) := by
    intro q hq
    rw [← Multiset.count_pos, ← Multiset.count_pos, ht.queued_count hq]
  refine ⟨hlists, fun q => ?_, fun q => ?_, fun q => ?_, fun q => ?_, hptr⟩
  · by_cases hq : q = p
    · rw [hq]
      exact honce
    · rw [ht.queued_count hq]
      exact h.once q
  · by_cases hq : q = p
    · rw [hq]
      exact hrunning
    · rw [ht.mem q hq, hmem q hq]
      exact h.running q
  · by_cases hq : q = p
    · rw [hq]
      exact hstate
    · rw [ht.mem q hq, hmem q hq]
      intro hin
      exact (h.state q hin).imp id fun hb => ⟨hbusy q hq hb.1, hb.2⟩
  · by_cases hq : q = p
    · rw [hq]
      exact hsearch
    · rw [ht.mem q hq]
      exact h.search q

theorem free_not_queued (h : TimerInv null s) (hp : (s.mem p).state = .notUsed) :
    some p ∉ s.queued := by
  intro hin
  rcases h.state p hin with hs | ⟨_, hs⟩
  · rw [hp] at hs
    cases hs
  · rw [hp] at hs
    cases hs

/-- A timer that is not queued may get any values while it does not run. -/
theorem setTimer {x : BrtosTimerT} (h : TimerInv null s) (hp : some p ∉ s.queued)
    (hx : x.state ≠ .running) (hx' : x.state ≠ .search) : TimerInv null (s.setTimer p x) := by
  have hself : (s.setTimer p x).mem p = x := Function.update_self _ _ _
  have ht : Touched p s (s.setTimer p x) :=
    ⟨fun q hq => Function.update_of_ne hq _ _, fun _ _ _ => rfl⟩
  refine h.touched ht (fun l => ?_) (h.once p) ?_ ?_ ?_ (fun _ _ hb => hb) h.pointers
  · exact (h.lists l).congr fun q hq => by rw [ht.mem q (ne_of_not_queued hp hq)]
  · rw [hself]
    exact fun hr => absurd hr hx
  · exact fun hin => absurd hin hp
  · rw [hself]
    exact hx'

theorem enqueue {timeWait : Nat} (h : TimerInv null s) (hp : some p ∉ s.queued)
    (hroom : (s.lists (s.target timeWait)).count < brtosMaxTimer - 1) :
    TimerInv null (s.enqueue null p timeWait) := by
  have hspec := enqueue_spec h.lists hp hroom
  generalize s.enqueue null p timeWait = t at hspec ⊢
  have hcount : t.queued.count (some p) = 1 := by
    rw [TimerSys.queued_count_of_entries hspec.count]
    cases s.target timeWait with
    | ping => rfl
    | pong => rfl
  refine h.touched hspec.touched hspec.lists hcount.le ?_ ?_ ?_ ?_ ?_
  · exact fun _ => Multiset.count_pos.mp (by omega)
  · exact fun _ => .inl (by rw [hspec.timer])
  · rw [hspec.timer]
    exact nofun
  · rw [hspec.rest]
    exact fun _ _ hb => hb
  · rw [hspec.rest]
    exact h.pointers

theorem stop {del : Bool} (h : TimerInv null s) (hg : ListsKept s (.stop p del)) :
    TimerInv null (osTimerStop null s p del) := by
  have hspec := stop_spec del h.lists (h.once p) h.search hg
  generalize osTimerStop null s p del = t at hspec ⊢
  have hcount : t.queued.count (some p) = 0 := TimerSys.queued_count_of_entries hspec.count
  have hstate : (t.mem p).state = .notUsed ∨ (t.mem p).state = .stopped := by
    rw [hspec.timer]
    cases del with
    | true => exact .inl rfl
    | false => exact .inr rfl
  refine h.touched hspec.touched hspec.lists (by omega) ?_ ?_ ?_ ?_ ?_
  · intro hr
    rw [hr] at hstate
    rcases hstate with hs | hs <;> cases hs
  · exact fun hin => absurd hcount (Multiset.count_ne_zero.mpr hin)
  · intro hs
    rw [hs] at hstate
    rcases hstate with hs | hs <;> cases hs
  · rw [hspec.rest]
    exact fun _ _ hb => hb
  · rw [hspec.rest]
    exact h.pointers

theorem expire {ov : Bool} (h : TimerInv null s) (hpc : s.pc = .expire ov p) :
    TimerInv null { s.setTimer p { s.mem p with state := .stopped } with pc := .invoke ov p } := by
  have hself : Function.update s.mem p { s.mem p with state := .stopped } p =
      { s.mem p with state := .stopped } := Function.update_self _ _ _
  have ht : Touched p s { s.setTimer p { s.mem p with state := .stopped } with pc := .invoke ov p } :=
    ⟨fun q hq => Function.update_of_ne hq _ _, fun _ _ _ => rfl⟩
  have hptr := h.pointers
  unfold TimerSys.PointersOk at hptr
  rw [hpc] at hptr
  refine h.touched ht (fun l => ?_) (h.once p) ?_ ?_ ?_ ?_ hptr
  · refine (h.lists l).congr fun q _ => ?_
    by_cases hq : q = p
    · rw [hq]
      show (Function.update s.mem p { s.mem p with state := .stopped } p).timeout = (s.mem p).timeout
      rw [hself]
    · rw [ht.mem q hq]
  · intro hr
    have hs : (Function.update s.mem p { s.mem p with state := .stopped } p).state = .running := hr
    rw [hself] at hs
    cases hs
  · exact fun _ => .inr ⟨rfl, congrArg BrtosTimerT.state hself⟩
  · intro hs
    have hs : (Function.update s.mem p { s.mem p with state := .stopped } p).state = .search := hs
    rw [hself] at hs
    cases hs
  · intro q _ hb
    rw [hpc] at hb
    cases hb

theorem finish {ov : Bool} {again : Nat} {r : U64} (h : TimerInv null s)
    (hpc : s.pc = .finish ov p again) (hg : ListsKept s (.task r)) :
    Finished null ov p again s (s.finishExpired null ov p again) ∧
      TimerInv null (s.finishExpired null ov p again) := by
  have hptr := h.pointers
  unfold TimerSys.PointersOk at hptr
  have hg : s.FinishKept s.pc := hg
  rw [hpc] at hptr hg
  have hne : s.list ≠ s.future := hptr.2 ▸ hptr.1
  have hspec := finish_spec h.lists (h.once p) hne hg
  refine ⟨hspec, ?_⟩
  generalize s.finishExpired null ov p again = t at hspec ⊢
  have hcount := TimerSys.queued_count_of_entries hspec.count
  have hqueued : t.queued.count (some p) = if 0 < again then 1 else 0 := by
    rw [hcount]
    by_cases ha : 0 < again
    · simp only [ha, true_and, if_true]
      cases s.againList ov again with
      | ping => rfl
      | pong => rfl
    · simp [ha]
  have htimer := hspec.timer
  refine h.touched hspec.touched hspec.lists (by rw [hqueued]; split <;> omega) ?_ ?_ ?_ ?_ ?_
  · intro hr
    by_cases ha : 0 < again
    · rw [if_pos ha] at hqueued
      exact Multiset.count_pos.mp (by omega)
    · rw [if_neg ha] at htimer
      rw [htimer] at hr
      cases hr
  · intro hin
    by_cases ha : 0 < again
    · rw [if_pos ha] at htimer
      exact .inl (by rw [htimer])
    · rw [if_neg ha] at hqueued
      exact absurd hqueued (Multiset.count_ne_zero.mpr hin)
  · rw [htimer]
    split
    · exact nofun
    · exact nofun
  · intro q hq hb
    rw [hpc] at hb
    cases hb
    exact absurd rfl hq
  · unfold TimerSys.PointersOk
    rw [hspec.pc, hspec.rest]
    exact hptr

end TimerInv

/-! ## Steps -/

def TimerSys.touches (s : TimerSys) : TimerAct → Option BrtosTimer
  | .tick => none
  | .set _ _ => s.freeTimer
  | .start p timeWait => if timeWait.toNat = 0 then none else some p
  | .stop p _ => some p
  | .task _ =>
    match s.pc with
    | .expire _ p | .finish _ p _ => some p
    | _ => none

structure SameTimer (q : BrtosTimer) (s t : TimerSys) : Prop where
  mem : t.mem q = s.mem q
  count : ∀ l, (t.lists l).entries.count (some q) = (s.lists l).entries.count (some q)

theorem Touched.same {p q : BrtosTimer} {s t : TimerSys} (h : Touched p s t) (hq : some p ≠ some q) :
    SameTimer q s t := by
  have hq : q ≠ p := fun he => hq (congrArg some he.symm)
  exact ⟨h.mem q hq, fun l => h.count l q hq⟩

theorem freeTimer_state {s : TimerSys} {p : BrtosTimer} (h : s.freeTimer = some p) :
    (s.mem p).state = .notUsed := by
  unfold TimerSys.freeTimer at h
  split at h
  · cases h
  · rename_i i hi
    split at h
    · cases h
    · rename_i hne
      cases h
      have hstate := List.find?_some hi
      simp only [decide_eq_true_eq] at hstate
      exact hstate.resolve_left hne

def TimerSys.nextTick (s : TimerSys) : Nat :=
  if (s.tick + 1) % 2 ^ 64 = tickCountOverflow then 0 else (s.tick + 1) % 2 ^ 64

theorem osTick_cases (s : TimerSys) :
    (¬ (s.pc = .asleep ∧ s.timeToWait = s.nextTick) ∧ osTick s = { s with tick := s.nextTick }) ∨
    (s.pc = .asleep ∧ s.timeToWait = s.nextTick ∧
      osTick s = { s with tick := s.nextTick, timeToWait := exitByTimeout, pc := .woken }) := by
  by_cases hwake : s.pc = .asleep ∧ s.timeToWait = s.nextTick
  · exact .inr ⟨hwake.1, hwake.2, if_pos hwake⟩
  · exact .inl ⟨hwake, if_neg hwake⟩

section
variable {null : BrtosTimerT} {s t : TimerSys} {q : BrtosTimer}

theorem timerTaskStep_quiet {again : U64} (hs : timerTaskStep null s again = some t)
    (ht : s.touches (.task again) = none) :
    t.mem = s.mem ∧ t.lists = s.lists ∧ t.tick = s.tick ∧ t.pc.busy = s.pc.busy ∧
      (s.PointersOk → t.PointersOk) := by
  unfold timerTaskStep at hs
  unfold TimerSys.touches at ht
  unfold TimerSys.PointersOk
  cases hpc : s.pc with
  | expire ov p => rw [hpc] at ht; cases ht
  | finish ov p again => rw [hpc] at ht; cases ht
  | asleep => rw [hpc] at hs; cases hs
  | loop ov p =>
    rw [hpc] at hs
    cases p with
    | none =>
      dsimp only at hs
      split at hs <;> cases hs <;> exact ⟨rfl, rfl, rfl, rfl, fun h => h.1⟩
    | some p =>
      dsimp only at hs
      split at hs <;> cases hs
      · exact ⟨rfl, rfl, rfl, rfl, fun h => h⟩
      · exact ⟨rfl, rfl, rfl, rfl, fun h => h.1⟩
  | invoke ov p =>
    rw [hpc] at hs
    cases hs
    dsimp only
    split <;> exact ⟨rfl, rfl, rfl, rfl, fun h => h⟩
  | callback ov p =>
    rw [hpc] at hs
    cases hs
    exact ⟨rfl, rfl, rfl, rfl, fun h => h⟩
  | woken =>
    rw [hpc] at hs
    cases hs
    exact ⟨rfl, rfl, rfl, rfl, fun h => ⟨h, rfl⟩⟩
  | overflowCheck p =>
    rw [hpc] at hs
    cases hs
    exact ⟨rfl, rfl, rfl, rfl, fun h => h⟩
  | switch ov =>
    rw [hpc] at hs
    cases hs
    exact ⟨rfl, rfl, rfl, rfl, fun h => ⟨rfl, h⟩⟩
  | switched ov tmp =>
    rw [hpc] at hs
    cases hs
    exact ⟨rfl, rfl, rfl, rfl, fun h => h.1 ▸ h.2.symm⟩
  | head ov =>
    rw [hpc] at hs
    cases hs
    cases ov with
    | true => exact ⟨rfl, rfl, rfl, rfl, fun h => ⟨h, rfl⟩⟩
    | false => exact ⟨rfl, rfl, rfl, rfl, fun h => h⟩
  | _ => rw [hpc] at hs; cases hs; exact ⟨rfl, rfl, rfl, rfl, fun h => h⟩

theorem timerStep_inv {a : TimerAct} (h : TimerInv null s) (hg : ListsKept s a)
    (hs : timerStep null s a = some t) :
    TimerInv null t ∧ ∀ q, s.touches a ≠ some q → SameTimer q s t := by
  cases a with
  | tick =>
    cases hs
    rcases osTick_cases s with ⟨_, he⟩ | ⟨hpc, _, he⟩
    · rw [he]
      exact ⟨h.quiet rfl rfl rfl h.pointers, fun q _ => ⟨rfl, fun _ => rfl⟩⟩
    · have hptr := h.pointers
      unfold TimerSys.PointersOk at hptr
      rw [hpc] at hptr
      rw [he]
      refine ⟨h.quiet rfl rfl ?_ hptr, fun q _ => ⟨rfl, fun _ => rfl⟩⟩
      rw [hpc]
      rfl
  | set cb timeWait =>
    cases hs
    unfold osTimerSet TimerSys.touches
    cases hf : s.freeTimer with
    | none => exact ⟨h, fun q _ => ⟨rfl, fun _ => rfl⟩⟩
    | some p =>
      have hno := h.free_not_queued (freeTimer_state hf)
      have h1 : TimerInv null (s.setTimer p { s.mem p with state := .stopped, funcCb := some cb }) :=
        h.setTimer hno nofun nofun
      have ht1 : Touched p s (s.setTimer p { s.mem p with state := .stopped, funcCb := some cb }) :=
        ⟨fun q hq => Function.update_of_ne hq _ _, fun _ _ _ => rfl⟩
      dsimp only
      split
      · rename_i hpos
        have hroom := hg.room hf hpos
        refine ⟨h1.enqueue hno hroom, fun q hq => ?_⟩
        have hsame := (enqueue_spec h1.lists hno hroom).touched.same hq
        have hsame1 := ht1.same hq
        exact ⟨hsame.mem.trans hsame1.mem, fun l => (hsame.count l).trans (hsame1.count l)⟩
      · exact ⟨h1, fun q hq => ht1.same hq⟩
  | start p timeWait =>
    cases hs
    unfold osTimerStart TimerSys.touches
    split
    · rename_i hne
      rcases hg with hz | ⟨hno, hroom⟩
      · exact absurd hz hne
      · refine ⟨h.enqueue hno hroom, fun q hq => ?_⟩
        dsimp only at hq
        rw [if_neg hne] at hq
        exact (enqueue_spec h.lists hno hroom).touched.same hq
    · exact ⟨h, fun q _ => ⟨rfl, fun _ => rfl⟩⟩
  | stop p del =>
    cases hs
    exact ⟨h.stop hg, fun q hq => (stop_spec del h.lists (h.once p) h.search hg).touched.same hq⟩
  | task again =>
    have hs : timerTaskStep null s again = some t := hs
    cases htouch : s.touches (.task again) with
    | none =>
      obtain ⟨hm, hl, _, hb, hptr⟩ := timerTaskStep_quiet hs htouch
      refine ⟨h.quiet hm hl hb (hptr h.pointers), fun q _ => ⟨by rw [hm], fun l => by rw [hl]⟩⟩
    | some p =>
      unfold TimerSys.touches at htouch
      unfold timerTaskStep at hs
      cases hpc : s.pc with
      | expire ov r =>
        rw [hpc] at htouch hs
        cases htouch
        cases hs
        refine ⟨h.expire hpc, fun q hq => ⟨?_, fun _ => rfl⟩⟩
        exact Function.update_of_ne (fun he => hq (congrArg some he.symm)) _ _
      | finish ov r again =>
        rw [hpc] at htouch hs
        cases htouch
        cases hs
        obtain ⟨hspec, hinv⟩ := h.finish hpc hg
        exact ⟨hinv, fun q hq => hspec.touched.same hq⟩
      | _ => rw [hpc] at htouch; cases htouch

/-! ## Runs -/

theorem timersInit_inv (null : BrtosTimerT) (t : Nat) : TimerInv null (timersInit t) := by
  have hempty : ∀ p, (timersInit t).queued.count (some p) = 0 := fun p => rfl
  refine ⟨fun l => ?_, fun p => ?_, fun p hr => ?_, fun p hin => ?_, fun p => ?_, ?_⟩
  · exact ⟨⟨fun _ _ => rfl, Multiset.notMem_zero _⟩, fun i h2 hi => absurd hi (by
      show ¬ i ≤ 0
      omega)⟩
  · rw [hempty]
    exact Nat.zero_le 1
  · cases hr
  · exact absurd (hempty p) (Multiset.count_ne_zero.mpr hin)
  · exact nofun
  · show ListId.ping ≠ ListId.pong
    decide

theorem inv_of_runs {t : Nat} {as : List TimerAct}
    (r : Runs (timerStep null) ListsKept (timersInit t) as s) : TimerInv null s :=
  r.invariant (timersInit_inv null t) fun _ _ _ h hg hs => (timerStep_inv h hg hs).1

/-- The running timers occur once in the two lists together and all other ones do not occur, apart from
the timer whose expiry is under way; the entries are not null and ordered by timeout. -/
structure Represented (null : BrtosTimerT) (s : TimerSys) : Prop where
  running : ∀ p, (s.mem p).state = .running → s.queued.count (some p) = 1
  others : ∀ p, (s.mem p).state ≠ .running → s.pc.busy ≠ some p → s.queued.count (some p) = 0
  notNull : ∀ l, none ∉ (s.lists l).entries
  ordered : ∀ l, Ordered (timeoutOf null s.mem) (s.lists l).timers (s.lists l).count

/-- In every run that keeps to `ListsKept`, the lists represent the running timers. -/
theorem represented_of_runs {t : Nat} {as : List TimerAct}
    (r : Runs (timerStep null) ListsKept (timersInit t) as s) : Represented null s := by
  have h := inv_of_runs r
  refine ⟨fun p hr => ?_, fun p hr hb => ?_, fun l => (h.lists l).inside, fun l => (h.lists l).ordered⟩
  · have hpos := Multiset.count_pos.mpr (h.running p hr)
    have honce := h.once p
    omega
  · rw [Multiset.count_eq_zero]
    intro hin
    rcases h.state p hin with hs | ⟨hs, _⟩
    · exact hr hs
    · exact hb hs

end

/-- Five timers are set. The earliest one expires and is repeated by its callback, another one is stopped and started
again, and the one that is first then is deleted. -/
def fiveTimers : List TimerAct :=
  [.set 1 7, .set 2 9, .set 3 2, .set 4 5, .set 5 8, .task 0, .task 0, .task 0, .task 0, .tick, .tick, .task 0,
    .task 0, .task 0, .task 0, .task 0, .task 4, .task 0, .stop 0 false, .start 0 9, .stop 3 true]

theorem represented_of_runs_fiveTimers :
    ∃ s, Runs (timerStep default) ListsKept (timersInit 0) fiveTimers s ∧ Represented default s ∧
      [1, 2, 3, 4].map (s.lists s.current).timers = [some 2, some 1, some 4, some 0] ∧
      [2, 1, 4, 0].map (fun p => (s.mem p).timeout) = [6, 9, 8, 11] := by
  have hrun : (exec (guarded (timerStep default) ListsKept) (timersInit 0) fiveTimers).map
      (fun s => ([1, 2, 3, 4].map (s.lists s.current).timers, [2, 1, 4, 0].map fun p => (s.mem p).timeout)) =
      some ([some 2, some 1, some 4, some 0], [6, 9, 8, 11]) := by decide +kernel
  obtain ⟨s, hs, he⟩ := Option.map_eq_some_iff.mp hrun
  have r := Runs.of_exec_guarded hs
  exact ⟨s, r, represented_of_runs r, congrArg Prod.fst he, congrArg Prod.snd he⟩

/-- Eight timers: the last one takes the place of the seventh in the list. -/
theorem represented_fails :
    ¬ ∀ (as : List TimerAct) (s : TimerSys),
      Runs (timerStep default) Free (timersInit 0) as s → Represented default s := by
  intro h
  have hrun : (exec (timerStep default) (timersInit 0) (List.replicate 8 (.set 1 10))).map
      (fun s => ((s.mem 6).state, s.queued.count (some 6))) = some (.running, 0) := by
    decide +kernel
  obtain ⟨s, hs, he⟩ := Option.map_eq_some_iff.mp hrun
  have hcount := (h _ s (Runs.of_exec hs)).running 6 (congrArg Prod.fst he)
  have hzero : s.queued.count (some 6) = 0 := congrArg Prod.snd he
  rw [hzero] at hcount
  cases hcount

end Unet4Cooja
