import Unet4Cooja.Brtos.TimerInv

/-!
# Stopping a timer leaves the others alone

* `TimerSys.awaited` : the timeout at which a timer is to expire;
* `noteGiven` : the timeout that the calls about a timer and its own expiries have given it;
* `undisturbed_of_runs` : in runs that keep to `ListsKept` the two agree, so no call about one timer
  changes what another one awaits;
* `undisturbed_fails` : a timer that is stopped in its own callback takes the next one with it.
-/

namespace Unet4Cooja
open Lib

def TimerSys.awaited (s : TimerSys) (q : BrtosTimer) : Option Nat :=
  if (s.mem q).state = .running then some (s.mem q).timeout else none

/-- The timeout that an action gives to the timer it is about; `none` where it ends its wait. -/
def TimerSys.given (s : TimerSys) : TimerAct → Option Nat
  | .tick | .stop .. => none
  | .set _ timeWait => if 0 < timeWait.toNat then some (s.expiry timeWait.toNat) else none
  | .start _ timeWait => some (s.expiry (min timeWait.toNat timerMaxCounter))
  | .task _ =>
    match s.pc with
    | .finish ov _ again => if 0 < again then some (s.againTimeout ov again) else none
    | _ => none

/-- The observer that notes for each timer what the last action about it has given it. -/
def noteGiven (s : TimerSys) (d : BrtosTimer → Option Nat) (a : TimerAct) : BrtosTimer → Option Nat :=
  match s.touches a with
  | none => d
  | some p => Function.update d p (s.given a)

/-- Every timer waits for what it was given, and is queued while it waits. -/
structure Undisturbed (s : TimerSys) (d : BrtosTimer → Option Nat) : Prop where
  awaited : ∀ q, s.awaited q = d q
  queued : ∀ q, (d q).isSome → s.queued.count (some q) = 1

section
variable {null : BrtosTimerT} {s t : TimerSys} {p q : BrtosTimer}

theorem SameTimer.awaited (h : SameTimer q s t) : t.awaited q = s.awaited q := by
  unfold TimerSys.awaited
  rw [h.mem]

theorem awaited_of_running (h : (s.mem p).state = .running) : s.awaited p = some (s.mem p).timeout :=
  if_pos h

theorem awaited_of_not_running (h : (s.mem p).state ≠ .running) : s.awaited p = none := if_neg h

theorem enqueue_awaited {timeWait : Nat} (h : s.ListsOk null) (hp : some p ∉ s.queued)
    (hroom : (s.lists (s.target timeWait)).count < brtosMaxTimer - 1) :
    (s.enqueue null p timeWait).awaited p = some (s.expiry timeWait) := by
  have htimer := (enqueue_spec h hp hroom).timer
  rw [awaited_of_running (by rw [htimer]), htimer]

theorem timerStep_awaited {a : TimerAct} (h : TimerInv null s) (hg : ListsKept s a)
    (hs : timerStep null s a = some t) (ha : s.touches a = some p) : t.awaited p = s.given a := by
  cases a with
  | tick => cases ha
  | set cb timeWait =>
    cases hs
    have hf : s.freeTimer = some p := ha
    have hno := h.free_not_queued (freeTimer_state hf)
    have h1 : TimerInv null (s.setTimer p { s.mem p with state := .stopped, funcCb := some cb }) :=
      h.setTimer hno nofun nofun
    unfold osTimerSet TimerSys.given
    rw [hf]
    dsimp only
    split
    · rename_i hpos
      exact enqueue_awaited h1.lists hno (hg.room hf hpos)
    · apply awaited_of_not_running
      rw [TimerSys.setTimer_mem, if_pos rfl]
      exact nofun
  | start p' timeWait =>
    cases hs
    unfold TimerSys.touches at ha
    dsimp only at ha
    split at ha
    · cases ha
    · rename_i hne
      cases ha
      unfold osTimerStart
      rw [if_pos hne]
      obtain ⟨hno, hroom⟩ := hg.resolve_left hne
      exact enqueue_awaited h.lists hno hroom
  | stop p' del =>
    cases hs
    cases ha
    have htimer := (stop_spec del h.lists (h.once p) h.search hg).timer
    apply awaited_of_not_running
    rw [htimer]
    cases del <;> exact nofun
  | task again =>
    have hs : timerTaskStep null s again = some t := hs
    unfold timerTaskStep at hs
    unfold TimerSys.touches at ha
    unfold TimerSys.given
    cases hpc : s.pc with
    | expire ov r =>
      rw [hpc] at ha hs
      cases ha
      cases hs
      apply awaited_of_not_running
      dsimp only
      rw [TimerSys.setTimer_mem, if_pos rfl]
      exact nofun
    | finish ov r again =>
      rw [hpc] at ha hs
      cases ha
      cases hs
      have htimer := (h.finish hpc hg).1.timer
      dsimp only
      split at htimer
      · rename_i hpos
        rw [if_pos hpos, awaited_of_running (by rw [htimer]), htimer]
      · rename_i hzero
        rw [if_neg hzero]
        apply awaited_of_not_running
        rw [htimer]
        exact nofun
    | _ => rw [hpc] at ha; cases ha

theorem noteGiven_kept {a : TimerAct} {d : BrtosTimer → Option Nat} (h : TimerInv null s)
    (hd : ∀ q, s.awaited q = d q) (hg : ListsKept s a) (hs : timerStep null s a = some t) (q : BrtosTimer) :
    t.awaited q = noteGiven s d a q := by
  have hsame := (timerStep_inv h hg hs).2 q
  unfold noteGiven
  cases ha : s.touches a with
  | none =>
    rw [ha] at hsame
    rw [(hsame nofun).awaited]
    exact hd q
  | some p =>
    dsimp only
    by_cases hq : q = p
    · rw [hq, Function.update_self]
      exact timerStep_awaited h hg hs ha
    · rw [ha] at hsame
      rw [Function.update_of_ne hq, (hsame fun he => hq (Option.some.inj he).symm).awaited]
      exact hd q

/-- In every run that keeps to `ListsKept`, each timer waits for the timeout that the last action about
it has given it, queued once, whichever other timers are stopped. -/
theorem undisturbed_of_runs {t : Nat} {as : List TimerAct}
    (r : Runs (timerStep null) ListsKept (timersInit t) as s) :
    Undisturbed s (observe (timerStep null) noteGiven (timersInit t) (fun _ => none) as) := by
  have hall : TimerInv null s ∧ ∀ q, s.awaited q =
      observe (timerStep null) noteGiven (timersInit t) (fun _ => none) as q :=
    r.observed (I := fun s (d : BrtosTimer → Option Nat) => TimerInv null s ∧ ∀ q, s.awaited q = d q)
      ⟨timersInit_inv null t, fun _ => rfl⟩
      fun _ _ _ _ h hg hs => ⟨(timerStep_inv h.1 hg hs).1, noteGiven_kept h.1 h.2 hg hs⟩
  obtain ⟨hinv, hd⟩ := hall
  refine ⟨hd, fun q hq => (represented_of_runs r).running q ?_⟩
  rw [← hd q] at hq
  by_contra hr
  rw [awaited_of_not_running hr] at hq
  cases hq

end

/-- Two timers, of which one is stopped while it is queued and the other one in its callback, as the last
one in the list. -/
def stoppedTimers : List TimerAct :=
  [.set 1 1, .set 2 9, .stop 1 true, .task 0, .task 0, .task 0, .task 0, .tick, .task 0, .task 0, .task 0,
    .task 0, .task 0, .stop 0 false, .task 0, .task 0, .set 3 5]

theorem undisturbed_of_runs_stoppedTimers :
    ∃ s, Runs (timerStep default) ListsKept (timersInit 0) stoppedTimers s ∧
      Undisturbed s (observe (timerStep default) noteGiven (timersInit 0) (fun _ => none) stoppedTimers) ∧
      s.awaited 0 = some 6 := by
  have hrun : (exec (guarded (timerStep default) ListsKept) (timersInit 0) stoppedTimers).map
      (fun s => s.awaited 0) = some (some 6) := by decide +kernel
  obtain ⟨s, hs, he⟩ := Option.map_eq_some_iff.mp hrun
  have r := Runs.of_exec_guarded hs
  exact ⟨s, r, undisturbed_of_runs r, he⟩

/-- Two timers, of which the first one stops itself in its callback: the timer task removes the second
one. -/
def stoppedInCallback : List TimerAct :=
  [.set 1 1, .set 2 9, .task 0, .task 0, .task 0, .task 0, .tick, .task 0, .task 0, .task 0, .task 0,
    .task 0, .stop 0 false, .task 0, .task 0]

theorem undisturbed_fails :
    ¬ ∀ (as : List TimerAct) (s : TimerSys), Runs (timerStep default) Free (timersInit 0) as s →
      Undisturbed s (observe (timerStep default) noteGiven (timersInit 0) (fun _ => none) as) := by
  intro h
  have hrun : (exec (timerStep default) (timersInit 0) stoppedInCallback).map
      (fun s => (s.awaited 1, s.queued.count (some 1))) = some (some 9, 0) := by decide +kernel
  obtain ⟨s, hs, he⟩ := Option.map_eq_some_iff.mp hrun
  have hu := h stoppedInCallback s (Runs.of_exec hs)
  have hawaited : s.awaited 1 = some 9 := congrArg Prod.fst he
  have hzero : s.queued.count (some 1) = 0 := congrArg Prod.snd he
  have hcount := hu.queued 1 (by rw [← hu.awaited, hawaited]; rfl)
  rw [hzero] at hcount
  cases hcount

end Unet4Cooja
