import Unet4Cooja.Brtos.TimerInv

/-!
# No callback before its deadline

* `noteDeadline` : the observer that notes the deadlines;
* `DueKept` : no sum wraps around, and neither a stop nor a restart nor a wrongly inferred overflow
  makes a timer look expired;
* `DueInv` : a queued timer has its deadline as its timeout, or is overdue;
* `notEarly_of_runs` : then a callback is called at its deadline or later;
* `notEarly_fails` : a timer is stopped, and the next one is called when the first one was due.
-/

namespace Unet4Cooja
open Lib

/-! ## Deadlines -/

/-- The timer whose timeout the task is about to compare with the tick count. -/
def TimerPc.examined : TimerPc → Option BrtosTimer
  | .overflowCheck p | .loop _ p => p
  | _ => none

/-- The timer whose callback is about to be called. -/
def TimerPc.expiring : TimerPc → Option BrtosTimer
  | .expire _ p | .invoke _ p => some p
  | _ => none

/-- The task has not inferred an overflow of the tick counter, and is not exchanging the lists. -/
def TimerPc.NoOverflow : TimerPc → Prop
  | .loop ov _ | .expire ov _ | .invoke ov _ | .callback ov _ | .finish ov _ _ => ov = false
  | .switch _ | .switched .. | .head _ => False
  | _ => True

/-- The timer an action gives a deadline, and the number of ticks until then. -/
def TimerSys.waits (s : TimerSys) : TimerAct → Option (BrtosTimer × Nat)
  | .tick | .stop .. => none
  | .set _ timeWait => s.freeTimer.map fun p => (p, timeWait.toNat)
  | .start p timeWait =>
    if timeWait.toNat = 0 then none else some (p, min timeWait.toNat timerMaxCounter)
  | .task _ =>
    match s.pc with
    | .finish _ p again => if 0 < again then some (p, again) else none
    | _ => none

/-- The observer that notes the deadline of each timer, as a count of ticks that does not wrap
around. -/
def noteDeadline (s : TimerSys) (d : BrtosTimer → Nat) (a : TimerAct) : BrtosTimer → Nat :=
  match s.waits a with
  | none => d
  | some (p, timeWait) => Function.update d p (s.tick + timeWait)

/-- A callback that is about to be called is not called before its deadline. -/
def NotEarly (s : TimerSys) (d : BrtosTimer → Nat) : Prop :=
  ∀ ov p, s.pc = .invoke ov p → (s.mem p).funcCb.isSome → d p ≤ s.tick

/-! ## The condition -/

section
variable (s : TimerSys)

/-- The sum with the tick count does not wrap around, the callback of `p` is not about to be called, and
a timeout that counts from an overflow is not stored for a timer the task will compare with the tick
count. -/
def TimerSys.QueueKept (p : BrtosTimer) (timeWait : Nat) : Prop :=
  s.tick + timeWait < 2 ^ 64 ∧ s.pc.expiring ≠ some p ∧
    (tickCountOverflow ≤ s.tick + timeWait →
      some p ∉ (s.lists s.current).entries ∧ s.pc.examined ≠ some p)

/-- The search reads no null pointer, and the timer, whose timeout becomes 0, loses its callback, or is
overdue anyway, or leaves the current list. -/
def TimerSys.StopKept (p : BrtosTimer) (del : Bool) : Prop :=
  (some p ∈ (s.lists (s.stopList p)).entries ∨ (s.lists (s.stopList p)).count = 0) ∧
    (del = true ∨ (s.mem p).timeout ≤ s.tick ∨
      (s.pc.examined ≠ some p ∧
        (some p ∈ (s.lists s.current).entries →
          (s.lists s.current).entries.count (some p) ≤ 1 ∧
            ∀ q, some q ∈ (s.lists s.current).entries → q ≠ p → 0 < (s.mem q).timeout)))

/-- The first timer is due when the task wakes up, the lists are not exchanged, and a timer that is
repeated after an overflow leaves the current list. -/
def TimerSys.TaskKept : TimerPc → Prop
  | .overflowCheck (some p) => (s.mem p).timeout ≤ s.tick
  | .loop _ none => s.timeout ≤ timerMaxCounter
  | .finish _ p again => 0 < again →
    s.tick + again < 2 ^ 64 ∧ (tickCountOverflow ≤ s.tick + again →
      some p ∉ (s.lists s.list).entries ∨
        (s.first s.list = some p ∧ (s.lists s.list).entries.count (some p) ≤ 1))
  | _ => True

/-- The tick counter stays below its overflow, and no timer comes to look expired before it is. -/
def DueKept : TimerAct → Prop
  | .tick => s.tick + 1 < tickCountOverflow
  | .set _ timeWait => ∀ p, s.freeTimer = some p → 0 < timeWait.toNat → s.QueueKept p timeWait.toNat
  | .start p timeWait => timeWait.toNat ≠ 0 → s.QueueKept p (min timeWait.toNat timerMaxCounter)
  | .stop p del => s.StopKept p del
  | .task _ => s.TaskKept s.pc

instance (p : BrtosTimer) (timeWait : Nat) : Decidable (s.QueueKept p timeWait) :=
  inferInstanceAs (Decidable (_ ∧ _))

instance (p : BrtosTimer) (del : Bool) : Decidable (s.StopKept p del) :=
  inferInstanceAs (Decidable (_ ∧ _))

instance (pc : TimerPc) : Decidable (s.TaskKept pc) :=
  match pc with
  | .overflowCheck (some _) | .loop _ none => inferInstanceAs (Decidable (_ ≤ _))
  | .finish .. => inferInstanceAs (Decidable (_ → _))
  | .start | .store _ | .enter | .asleep | .woken | .overflowCheck none | .loop _ (some _) | .expire .. |
    .invoke .. | .callback .. | .switch _ | .switched .. | .head _ | .next _ => .isTrue trivial

instance (a : TimerAct) : Decidable (DueKept s a) :=
  match a with
  | .tick => inferInstanceAs (Decidable (_ < _))
  | .set _ timeWait =>
    inferInstanceAs (Decidable (∀ p, s.freeTimer = some p → 0 < timeWait.toNat →
      s.QueueKept p timeWait.toNat))
  | .start .. => inferInstanceAs (Decidable (_ → _))
  | .stop p del => inferInstanceAs (Decidable (s.StopKept p del))
  | .task _ => inferInstanceAs (Decidable (s.TaskKept s.pc))

end

/-! ## The invariant -/

/-- If `q` looks expired and has a callback, its deadline has come. -/
def TimerSys.DueOf (s : TimerSys) (d : BrtosTimer → Nat) (q : BrtosTimer) : Prop :=
  (s.mem q).funcCb = none ∨ (s.mem q).timeout = d q ∨ d q ≤ s.tick

structure DueInv (s : TimerSys) (d : BrtosTimer → Nat) : Prop where
  filled : ∀ l, (s.lists l).Filled
  search : ∀ q, (s.mem q).state ≠ .search
  pointers : s.PointersOk
  noOverflow : s.pc.NoOverflow
  queued : ∀ q, some q ∈ (s.lists s.current).entries → s.DueOf d q
  examined : ∀ q, s.pc.examined = some q → s.DueOf d q
  expiring : ∀ q, s.pc.expiring = some q → (s.mem q).funcCb = none ∨ d q ≤ s.tick

/-- Only `p` has other values, and no other timer enters the current list. -/
structure Changed (p : BrtosTimer) (s t : TimerSys) : Prop where
  mem : ∀ q, q ≠ p → t.mem q = s.mem q
  filled : ∀ l, (t.lists l).Filled
  entries : ∀ q, q ≠ p → some q ∈ (t.lists t.current).entries → some q ∈ (s.lists s.current).entries
  tick : t.tick = s.tick

theorem TimerSys.PointersOk.current_ne {s : TimerSys} (hptr : s.PointersOk) (hov : s.pc.NoOverflow) :
    s.current ≠ s.future := by
  unfold TimerSys.PointersOk at hptr
  cases hpc : s.pc with
  | switched ov tmp =>
    rw [hpc] at hov
    exact absurd hov id
  | overflowCheck p => rw [hpc] at hptr; exact hptr.1
  | loop ov p => rw [hpc] at hptr; exact hptr.1
  | expire ov p => rw [hpc] at hptr; exact hptr.1
  | invoke ov p => rw [hpc] at hptr; exact hptr.1
  | callback ov p => rw [hpc] at hptr; exact hptr.1
  | finish ov p again => rw [hpc] at hptr; exact hptr.1
  | _ => rw [hpc] at hptr; exact hptr

namespace DueInv
variable {null : BrtosTimerT} {s t : TimerSys} {d d' : BrtosTimer → Nat} {p : BrtosTimer}

theorem current_ne (h : DueInv s d) : s.current ≠ s.future := h.pointers.current_ne h.noOverflow

theorem quiet (h : DueInv s d) (hm : t.mem = s.mem) (hl : t.lists = s.lists) (hc : t.current = s.current)
    (htick : s.tick ≤ t.tick) (hptr : t.PointersOk) (hov : t.pc.NoOverflow)
    (hexam : ∀ q, t.pc.examined = some q →
      s.pc.examined = some q ∨ some q ∈ (s.lists s.current).entries)
    (hexp : ∀ q, t.pc.expiring = some q →
      s.pc.expiring = some q ∨ (s.pc.examined = some q ∧ (s.mem q).timeout ≤ s.tick)) : DueInv t d := by
  have hdue : ∀ q, s.DueOf d q → t.DueOf d q := by
    intro q hq
    unfold TimerSys.DueOf
    rw [hm]
    exact hq.imp id (Or.imp id fun hle => hle.trans htick)
  refine ⟨?_, ?_, hptr, hov, fun q hq => ?_, fun q hq => ?_, fun q hq => ?_⟩
  · rw [hl]
    exact h.filled
  · rw [hm]
    exact h.search
  · rw [hl, hc] at hq
    exact hdue q (h.queued q hq)
  · apply hdue
    rcases hexam q hq with hq | hq
    · exact h.examined q hq
    · exact h.queued q hq
  · rw [hm]
    rcases hexp q hq with hq | ⟨hq, hle⟩
    · exact (h.expiring q hq).imp id fun hdue => hdue.trans htick
    · rcases h.examined q hq with hnone | hd | hd
      · exact .inl hnone
      · exact .inr (by omega)
      · exact .inr (by omega)

theorem change (h : DueInv s d) (hc : Changed p s t) (hd : ∀ q, q ≠ p → d' q = d q)
    (hsearch : (t.mem p).state ≠ .search) (hptr : t.PointersOk) (hov : t.pc.NoOverflow)
    (hexam : ∀ q, q ≠ p → t.pc.examined = some q →
      s.pc.examined = some q ∨ some q ∈ (t.lists t.current).entries)
    (hexp : ∀ q, q ≠ p → t.pc.expiring = some q → s.pc.expiring = some q)
    (hp : some p ∈ (t.lists t.current).entries ∨ t.pc.examined = some p → t.DueOf d' p)
    (hpe : t.pc.expiring = some p → (t.mem p).funcCb = none ∨ d' p ≤ t.tick) : DueInv t d' := by
  have hdue : ∀ q, q ≠ p → s.DueOf d q → t.DueOf d' q := by
    intro q hq hs
    unfold TimerSys.DueOf
    rw [hc.mem q hq, hd q hq, hc.tick]
    exact hs
  refine ⟨hc.filled, fun q => ?_, hptr, hov, fun q hq => ?_, fun q hq => ?_, fun q hq => ?_⟩
  · by_cases hqp : q = p
    · rw [hqp]
      exact hsearch
    · rw [hc.mem q hqp]
      exact h.search q
  · by_cases hqp : q = p
    · rw [hqp] at hq ⊢
      exact hp (.inl hq)
    · exact hdue q hqp (h.queued q (hc.entries q hqp hq))
  · by_cases hqp : q = p
    · rw [hqp] at hq ⊢
      exact hp (.inr hq)
    · rcases hexam q hqp hq with hs | hs
      · exact hdue q hqp (h.examined q hs)
      · exact hdue q hqp (h.queued q (hc.entries q hqp hs))
  · by_cases hqp : q = p
    · rw [hqp] at hq ⊢
      exact hpe hq
    · rw [hc.mem q hqp, hd q hqp, hc.tick]
      exact h.expiring q (hexp q hqp hq)

end DueInv

/-! ## The operations -/

section
variable {null : BrtosTimerT} {s : TimerSys} {p : BrtosTimer}

theorem enqueue_mem (null : BrtosTimerT) (s : TimerSys) (p : BrtosTimer) (timeWait : Nat) :
    (s.enqueue null p timeWait).mem =
    Function.update s.mem p { s.mem p with timeout := s.expiry timeWait, state := .running } := by
  obtain ⟨ttw, he⟩ := enqueue_eq null s p timeWait
  rw [he]
  rfl

theorem enqueue_lists (null : BrtosTimerT) (p : BrtosTimer) (timeWait : Nat)
    (hf : ∀ l, (s.lists l).Filled) (l : ListId) :
    ((s.enqueue null p timeWait).lists l).Filled ∧
      ∀ x, x ∈ ((s.enqueue null p timeWait).lists l).entries →
        x ∈ (s.lists l).entries ∨ (x = some p ∧ l = s.target timeWait) := by
  obtain ⟨ttw, he⟩ := enqueue_eq null s p timeWait
  rw [he]
  dsimp only [TimerSys.setTimer]
  rw [TimerSys.setList_lists]
  split
  · rename_i hl
    rw [hl]
    refine ⟨(hf _).insert p, fun x hx => ?_⟩
    rcases BrtosTmrT.mem_insert hx with hp | hin
    · exact .inr ⟨hp, rfl⟩
    · exact .inl hin
  · exact ⟨hf l, fun x hx => .inl hx⟩

theorem enqueue_rest (null : BrtosTimerT) (s : TimerSys) (p : BrtosTimer) (timeWait : Nat) :
    s.enqueue null p timeWait =
    { s with
      mem := (s.enqueue null p timeWait).mem
      lists := (s.enqueue null p timeWait).lists
      timeToWait := (s.enqueue null p timeWait).timeToWait } := by
  obtain ⟨ttw, he⟩ := enqueue_eq null s p timeWait
  rw [he]
  rfl

/-- A timer that is queued gets its deadline, or a timeout that counts from the overflow in the list
for later. -/
theorem DueInv.enqueue {d : BrtosTimer → Nat} {u : TimerSys} {timeWait : Nat} (h : DueInv s d)
    (hu : u = s ∨ ∃ x, u = s.setTimer p x) (hk : s.QueueKept p timeWait) :
    DueInv (u.enqueue null p timeWait) (Function.update d p (s.tick + timeWait)) := by
  have hrest : u = { s with mem := u.mem } := by
    rcases hu with rfl | ⟨x, rfl⟩ <;> rfl
  have hother : ∀ q, q ≠ p → u.mem q = s.mem q := by
    intro q hq
    rcases hu with rfl | ⟨x, rfl⟩
    · rfl
    · exact Function.update_of_ne hq _ _
  have hlists : ∀ l, u.lists l = s.lists l := fun l => by rw [hrest]
  have hl := enqueue_lists null p timeWait fun l => by
    rw [hlists l]
    exact h.filled l
  have hm := enqueue_mem null u p timeWait
  have hr := enqueue_rest null u p timeWait
  have htarget : u.target timeWait = s.target timeWait := by rw [hrest]; rfl
  have hexpiry : u.expiry timeWait = s.expiry timeWait := by rw [hrest]; rfl
  generalize u.enqueue null p timeWait = t at hl hm hr ⊢
  have htick : t.tick = s.tick := by rw [hr, hrest]
  have hcurrent : t.current = s.current := by rw [hr, hrest]
  have hpc : t.pc = s.pc := by rw [hr, hrest]
  have hmp : t.mem p = { u.mem p with timeout := s.expiry timeWait, state := .running } := by
    rw [hm, Function.update_self, hexpiry]
  refine h.change ⟨fun q hq => ?_, fun l => (hl l).1, fun q hq hin => ?_, htick⟩
    (fun q hq => Function.update_of_ne hq _ _) ?_ ?_ ?_ (fun q _ hq => .inl (hpc ▸ hq))
    (fun q _ hq => hpc ▸ hq) (fun hin => ?_) fun hq => ?_
  · rw [hm, Function.update_of_ne hq, hother q hq]
  · rw [hcurrent] at hin
    rcases (hl s.current).2 _ hin with hold | ⟨he, _⟩
    · rwa [hlists] at hold
    · exact absurd (Option.some.inj he) hq
  · rw [hmp]
    exact nofun
  · have hptr := h.pointers
    rw [hr, hrest]
    exact hptr
  · rw [hpc]
    exact h.noOverflow
  · -- the timeout of `p` counts from the overflow only if it is in the list for later
    have hmod : (s.tick + timeWait) % 2 ^ 64 = s.tick + timeWait := Nat.mod_eq_of_lt hk.1
    unfold TimerSys.DueOf
    rw [hmp, Function.update_self]
    by_cases hlate : tickCountOverflow ≤ s.tick + timeWait
    · obtain ⟨hnot, hexam⟩ := hk.2.2 hlate
      exfalso
      rcases hin with hin | hin
      · rw [hcurrent] at hin
        rcases (hl s.current).2 _ hin with hold | ⟨_, hnow⟩
        · rw [hlists] at hold
          exact hnot hold
        · rw [htarget] at hnow
          unfold TimerSys.target at hnow
          rw [hmod, if_pos hlate] at hnow
          exact h.current_ne hnow
      · rw [hpc] at hin
        exact hexam hin
    · refine .inr (.inl ?_)
      show s.expiry timeWait = s.tick + timeWait
      unfold TimerSys.expiry
      rw [hmod]
      exact if_neg hlate
  · rw [hpc] at hq
    exact absurd hq hk.2.1

theorem searched_le (null : BrtosTimerT) {l : BrtosTmrT} {sm : BrtosTimer → BrtosTimerT} (hf : l.Filled)
    (hs : (sm p).state = .search) (hso : ∀ q, q ≠ p → (sm q).state ≠ .search)
    (hin : some p ∈ l.entries ∨ l.count = 0) :
    l.searched null sm ≤ l.count ∨ l.searched null sm = 1 := by
  rcases hin with hin | hzero
  · exact .inl (BrtosTmrT.searched_of_mem null hf hin hs hso).2.1
  · refine .inr ?_
    unfold BrtosTmrT.searched
    rw [hzero]
    rfl

theorem stopped_list (null : BrtosTimerT) (mem : BrtosTimer → BrtosTimerT) {l : BrtosTmrT} {k : Nat} (hf : l.Filled)
    (hk : k ≤ l.count ∨ k = 1) :
    ((l.raised null mem k).removeFirst.order mem).Filled ∧
      ∀ x ∈ ((l.raised null mem k).removeFirst.order mem).entries, x ∈ l.entries := by
  rcases hk with hk | rfl
  · refine ⟨(hf.raised hk).removeFirst.order, fun x hx => ?_⟩
    rw [BrtosTmrT.order_entries] at hx
    have hx := BrtosTmrT.mem_removeFirst hx
    rwa [BrtosTmrT.raised_entries hk] at hx
  · rw [BrtosTmrT.raised_one]
    refine ⟨hf.removeFirst.order, fun x hx => ?_⟩
    rw [BrtosTmrT.order_entries] at hx
    exact BrtosTmrT.mem_removeFirst hx

theorem DueInv.stop {d : BrtosTimer → Nat} {del : Bool} (h : DueInv s d) (hk : s.StopKept p del) :
    DueInv (osTimerStop null s p del) d := by
  obtain ⟨hin, hwhy⟩ := hk
  rw [stop_eq]
  dsimp only
  generalize hsm : Function.update s.mem p { s.mem p with state := .search } = sm
  generalize hm : Function.update s.mem p { s.mem p with state := .search, timeout := 0 } = m
  have hsp : (sm p).state = .search := by rw [← hsm, Function.update_self]
  have hso : ∀ q, q ≠ p → (sm q).state ≠ .search := fun q hq => by
    rw [← hsm, Function.update_of_ne hq]
    exact h.search q
  have hcb : (s.mem p).funcCb = none → (if del = true then none else (s.mem p).funcCb) = none := by
    intro hn
    rw [hn]
    exact ite_self none
  have hlist := stopped_list null m (h.filled (s.stopList p))
    (searched_le null (h.filled _) hsp hso hin)
  refine h.change ⟨fun q hq => Function.update_of_ne hq _ _, fun l => ?_, fun q _ hq => ?_, rfl⟩
    (fun q _ => rfl) ?_ h.pointers h.noOverflow (fun q _ hq => .inl hq) (fun q _ hq => hq)
    (fun hp => ?_) fun hp => ?_
  · dsimp only [TimerSys.setTimer]
    rw [TimerSys.setList_lists]
    split
    · exact hlist.1
    · exact h.filled l
  · dsimp only [TimerSys.setTimer] at hq
    rw [TimerSys.setList_lists] at hq
    split at hq
    · rename_i hl
      exact hl ▸ hlist.2 _ hq
    · exact hq
  · rw [TimerSys.setTimer_mem, if_pos rfl]
    cases del <;> exact nofun
  · have hwas : some p ∈ (s.lists s.current).entries ∨ s.pc.examined = some p := by
      refine hp.imp (fun hq => ?_) id
      dsimp only [TimerSys.setTimer] at hq
      rw [TimerSys.setList_lists] at hq
      split at hq
      · rename_i hl
        exact hl ▸ hlist.2 _ hq
      · exact hq
    have hdue : s.DueOf d p := hwas.elim (h.queued p) (h.examined p)
    unfold TimerSys.DueOf
    rw [TimerSys.setTimer_mem, if_pos rfl]
    by_cases hle : (s.mem p).timeout ≤ s.tick
    · exact hdue.elim (fun hn => .inl (hcb hn)) fun hd => .inr (.inr (hd.elim (fun he => he ▸ hle) id))
    · rcases hwhy with hdel | hle' | ⟨hexam, honly⟩
      · exact .inl (if_pos hdel)
      · exact absurd hle' hle
      · -- `p` has left the current list
        have hcur : s.stopList p = s.current := if_pos (by omega)
        have hin' := hwas.resolve_right hexam
        obtain ⟨honce, hlater⟩ := honly hin'
        have hold := hp.resolve_right hexam
        dsimp only [TimerSys.setTimer] at hold
        have hl : (s.setList (s.stopList p) (((s.lists (s.stopList p)).raised null m
            ((s.lists (s.stopList p)).searched null sm)).removeFirst.order m)).current =
            s.stopList p := hcur.symm
        rw [TimerSys.setList_lists, if_pos hl, hcur] at hold
        obtain ⟨h1, hk, hkp⟩ := BrtosTmrT.searched_of_mem null (h.filled _) hin' hsp hso
        have hcons := BrtosTmrT.stop_entries null m h1 hk hkp
          (by rw [← hm, Function.update_self]) fun j hj1 hjk => ?_
        · rw [← hcons, Multiset.count_cons_self] at honce
          exact absurd (Multiset.count_pos.mpr hold) (by omega)
        · have hj : (s.lists s.current).timers j ∈ (s.lists s.current).entries :=
            mem_bag_self hj1 (by omega)
          have hne := BrtosTmrT.ne_of_once h1 hk hkp honce hj1 (by omega) (by omega : j ≠ _)
          cases hx : (s.lists s.current).timers j with
          | none => exact absurd (hx ▸ hj) (h.filled _).inside
          | some q =>
            have hqp : q ≠ p := fun he => hne (he ▸ hx)
            show 0 < (m q).timeout
            rw [← hm, Function.update_of_ne hqp]
            exact hlater q (hx ▸ hj) hqp
  · rw [TimerSys.setTimer_mem, if_pos rfl]
    exact (h.expiring p hp).imp hcb id

theorem DueInv.finished {d d' : BrtosTimer → Nat} {t : TimerSys} {ov : Bool} {again : Nat} (h : DueInv s d)
    (hpc : s.pc = .finish ov p again) (hm : ∀ q, q ≠ p → t.mem q = s.mem q)
    (hd : ∀ q, q ≠ p → d' q = d q) (hsearch : (t.mem p).state ≠ .search)
    (hfilled : ∀ l, (t.lists l).Filled)
    (hsub : ∀ x ∈ (t.lists s.list).entries, x ∈ (s.lists s.list).entries)
    (hrest : t = { s with
      mem := t.mem, lists := t.lists, timeout := t.timeout, pc := .loop ov (t.first s.list) })
    (hp : some p ∈ (t.lists s.list).entries → t.DueOf d' p) : DueInv t d' := by
  have hptr := h.pointers
  have hov := h.noOverflow
  unfold TimerSys.PointersOk at hptr
  rw [hpc] at hptr hov
  have hcurrent : t.current = s.list := by rw [hrest, hptr.2]
  have htpc : t.pc = .loop ov (t.first s.list) := by rw [hrest]; rfl
  have hfirst : ∀ q, t.pc.examined = some q → some q ∈ (t.lists s.list).entries := by
    intro q hq
    rw [htpc] at hq
    exact (hfilled s.list).first_mem hq
  refine h.change ⟨hm, hfilled, fun q _ hq => ?_, by rw [hrest]⟩ hd hsearch ?_ ?_
    (fun q _ hq => .inr ?_) (fun q _ hq => ?_) (fun hin => hp ?_) fun hq => ?_
  · rw [hcurrent] at hq
    rw [← hptr.2]
    exact hsub _ hq
  · unfold TimerSys.PointersOk
    rw [htpc, hrest]
    exact hptr
  · rw [htpc]
    exact hov
  · rw [hcurrent]
    exact hfirst q hq
  · rw [htpc] at hq
    cases hq
  · rw [hcurrent] at hin
    exact hin.elim id (hfirst p)
  · rw [htpc] at hq
    cases hq

theorem DueInv.finish {d : BrtosTimer → Nat} {ov : Bool} {again : Nat} (h : DueInv s d)
    (hpc : s.pc = .finish ov p again) (hk : s.TaskKept s.pc) :
    DueInv (s.finishExpired null ov p again)
      (if 0 < again then Function.update d p (s.tick + again) else d) := by
  have hptr := h.pointers
  have hov := h.noOverflow
  unfold TimerSys.PointersOk at hptr
  rw [hpc] at hptr hov hk
  have hov : ov = false := hov
  have hne : s.list ≠ s.future := hptr.2 ▸ hptr.1
  rcases Nat.eq_zero_or_pos again with rfl | ha
  · rw [finish_freed, if_neg (Nat.lt_irrefl 0)]
    generalize hm : Function.update s.mem p { funcCb := none, timeout := 0, state := .notUsed } = m
    have hmp : m p = { funcCb := none, timeout := 0, state := .notUsed } := by
      rw [← hm, Function.update_self]
    have hlist : ∀ l, (s.setList s.list ((s.lists s.list).removeFirst.order m)).lists l =
        if l = s.list then (s.lists s.list).removeFirst.order m else s.lists l :=
      fun l => TimerSys.setList_lists _ _ _ _
    refine h.finished hpc (fun q hq => ?_) (fun q _ => rfl) ?_ (fun l => ?_) (fun x hx => ?_) ?_
      fun _ => .inl ?_
    · dsimp only
      rw [← hm, Function.update_of_ne hq]
    · dsimp only
      rw [hmp]
      exact nofun
    · dsimp only
      rw [hlist]
      split
      · exact (h.filled s.list).removeFirst.order
      · exact h.filled l
    · dsimp only at hx
      rw [hlist, if_pos rfl, BrtosTmrT.order_entries] at hx
      exact BrtosTmrT.mem_removeFirst hx
    · dsimp only [TimerSys.first]
      rw [hlist, if_pos rfl]
      rfl
    · dsimp only
      rw [hmp]
  · obtain ⟨hsum, hlate⟩ := hk ha
    have hmod : (s.tick + again) % 2 ^ 64 = s.tick + again := Nat.mod_eq_of_lt hsum
    have hself : Function.update d p (s.tick + again) p = s.tick + again := Function.update_self _ _ _
    rw [if_pos ha]
    by_cases hf : ov = true ∨ tickCountOverflow ≤ (s.tick + again) % 2 ^ 64
    · have hgone := hlate (by rw [← hmod]; exact hf.resolve_left (by simp [hov]))
      rw [finish_future ha hf hne]
      dsimp only
      generalize hm : Function.update s.mem p
        { s.mem p with timeout := s.againTimeout ov again, state := .running } = m
      have hnot : some p ∉ ((s.lists s.list).removeFirst.order m).entries := by
        rw [BrtosTmrT.order_entries]
        rcases hgone with hno | ⟨hfirst, honce⟩
        · exact fun hin => hno (BrtosTmrT.mem_removeFirst hin)
        · exact (h.filled s.list).not_mem_removeFirst hfirst honce
      generalize hx : (s.lists s.list).removeFirst.order m = x at hnot ⊢
      have hlist : ∀ l, ((s.setList s.future ((s.lists s.future).insert null m p)).setList s.list x).lists l =
          if l = s.list then x else if l = s.future then (s.lists s.future).insert null m p
            else s.lists l := by
        intro l
        rw [TimerSys.setList_lists, TimerSys.setList_lists]
      refine h.finished hpc (fun q hq => ?_) (fun q hq => Function.update_of_ne hq _ _) ?_ (fun l => ?_)
        (fun y hy => ?_) ?_ fun hin => ?_
      · dsimp only
        rw [← hm, Function.update_of_ne hq]
      · dsimp only
        rw [← hm, Function.update_self]
        exact nofun
      · dsimp only
        rw [hlist]
        split
        · rw [← hx]
          exact (h.filled s.list).removeFirst.order
        · split
          · exact (h.filled s.future).insert p
          · exact h.filled l
      · dsimp only at hy
        rw [hlist, if_pos rfl, ← hx, BrtosTmrT.order_entries] at hy
        exact BrtosTmrT.mem_removeFirst hy
      · dsimp only [TimerSys.first]
        rw [hlist, if_pos rfl]
        rfl
      · dsimp only at hin
        rw [hlist, if_pos rfl] at hin
        exact absurd hin hnot
    · rw [finish_inPlace ha hf]
      dsimp only
      generalize hm : Function.update s.mem p
        { s.mem p with timeout := s.againTimeout ov again, state := .running } = m
      have hlist : ∀ l, (s.setList s.list ((s.lists s.list).order m)).lists l =
          if l = s.list then (s.lists s.list).order m else s.lists l :=
        fun l => TimerSys.setList_lists _ _ _ _
      refine h.finished hpc (fun q hq => ?_) (fun q hq => Function.update_of_ne hq _ _) ?_ (fun l => ?_)
        (fun y hy => ?_) ?_ fun _ => .inr (.inl ?_)
      · dsimp only
        rw [← hm, Function.update_of_ne hq]
      · dsimp only
        rw [← hm, Function.update_self]
        exact nofun
      · dsimp only
        rw [hlist]
        split
        · exact (h.filled s.list).order
        · exact h.filled l
      · dsimp only at hy
        rwa [hlist, if_pos rfl, BrtosTmrT.order_entries] at hy
      · dsimp only [TimerSys.first]
        rw [hlist, if_pos rfl]
        rfl
      · dsimp only
        rw [← hm, Function.update_self, hself]
        show s.againTimeout ov again = s.tick + again
        unfold TimerSys.againTimeout
        rw [hmod, if_pos (.inr (by omega))]

/-! ## Runs -/

theorem DueInv.task {d : BrtosTimer → Nat} {t : TimerSys} {again : U64} (h : DueInv s d)
    (hk : s.TaskKept s.pc) (hs : timerTaskStep null s again = some t) :
    DueInv t (noteDeadline s d (.task again)) := by
  have hquiet := timerTaskStep_quiet hs
  have hov := h.noOverflow
  unfold timerTaskStep at hs
  unfold TimerSys.touches at hquiet
  unfold noteDeadline TimerSys.waits
  cases hpc : s.pc with
  | asleep => rw [hpc] at hs; cases hs
  | switch ov => rw [hpc] at hov; exact absurd hov id
  | switched ov tmp => rw [hpc] at hov; exact absurd hov id
  | head ov => rw [hpc] at hov; exact absurd hov id
  | start | store | enter | next =>
    rw [hpc] at hs hquiet
    cases hs
    obtain ⟨_, _, _, _, hptr⟩ := hquiet rfl
    exact h.quiet rfl rfl rfl (Nat.le_refl _) (hptr h.pointers) trivial nofun nofun
  | woken =>
    rw [hpc] at hs hquiet
    cases hs
    obtain ⟨_, _, _, _, hptr⟩ := hquiet rfl
    exact h.quiet rfl rfl rfl (Nat.le_refl _) (hptr h.pointers) trivial
      (fun q hq => .inr ((h.filled s.current).first_mem hq)) nofun
  | overflowCheck p =>
    rw [hpc] at hs hquiet hk
    cases hs
    obtain ⟨_, _, _, _, hptr⟩ := hquiet rfl
    refine h.quiet rfl rfl rfl (Nat.le_refl _) (hptr h.pointers) ?_ (fun q hq => .inl (hpc ▸ hq)) nofun
    show (p.any fun q => decide (s.tick < (s.mem q).timeout)) = false
    cases p with
    | none => rfl
    | some p => exact decide_eq_false (Nat.not_lt.mpr hk)
  | loop ov p =>
    rw [hpc] at hs hquiet hk hov
    obtain ⟨_, _, _, _, hptr⟩ := hquiet rfl
    obtain rfl : ov = false := hov
    cases p with
    | none =>
      have hk : s.timeout ≤ timerMaxCounter := hk
      dsimp only at hs
      rw [if_neg (by simpa using hk)] at hs
      cases hs
      exact h.quiet rfl rfl rfl (Nat.le_refl _) (hptr h.pointers) trivial nofun nofun
    | some p =>
      dsimp only at hs
      split at hs
      · rename_i hdue
        cases hs
        refine h.quiet rfl rfl rfl (Nat.le_refl _) (hptr h.pointers) rfl nofun fun q hq => .inr ?_
        cases hq
        exact ⟨by rw [hpc]; rfl, hdue.resolve_left Bool.false_ne_true⟩
      · cases hs
        exact h.quiet rfl rfl rfl (Nat.le_refl _) (hptr h.pointers) trivial nofun nofun
  | expire ov p =>
    rw [hpc] at hs hov
    cases hs
    have hptr := h.pointers
    unfold TimerSys.PointersOk at hptr
    rw [hpc] at hptr
    have hmp : Function.update s.mem p { s.mem p with state := .stopped } p =
        { s.mem p with state := .stopped } := Function.update_self _ _ _
    refine h.change (p := p) ⟨fun q hq => Function.update_of_ne hq _ _, h.filled, fun q _ hq => hq, rfl⟩
      (fun q _ => rfl) ?_ hptr hov nofun (fun q hq he => ?_) (fun hin => ?_) fun _ => ?_
    · show (Function.update s.mem p { s.mem p with state := .stopped } p).state ≠ .search
      rw [hmp]
      exact nofun
    · cases he
      exact absurd rfl hq
    · have hdue := h.queued p (hin.resolve_right nofun)
      unfold TimerSys.DueOf
      rw [show ((s.setTimer p { s.mem p with state := .stopped }).mem p) =
        { s.mem p with state := .stopped } from hmp]
      exact hdue
    · show (Function.update s.mem p { s.mem p with state := .stopped } p).funcCb = none ∨ _
      rw [hmp]
      exact h.expiring p (by rw [hpc]; rfl)
  | invoke ov p =>
    rw [hpc] at hs hquiet hov
    cases hs
    obtain ⟨_, _, _, _, hptr⟩ := hquiet rfl
    refine h.quiet rfl rfl rfl (Nat.le_refl _) (hptr h.pointers) ?_ ?_ ?_
    · dsimp only
      split <;> exact hov
    · dsimp only
      split <;> exact nofun
    · dsimp only
      split <;> exact nofun
  | callback ov p =>
    rw [hpc] at hs hquiet hov
    cases hs
    obtain ⟨_, _, _, _, hptr⟩ := hquiet rfl
    exact h.quiet rfl rfl rfl (Nat.le_refl _) (hptr h.pointers) hov nofun nofun
  | finish ov p again =>
    rw [hpc] at hs
    cases hs
    have hf : DueInv (s.finishExpired null ov p again) _ := h.finish hpc hk
    dsimp only
    split at hf
    · rename_i ha
      rw [if_pos ha]
      exact hf
    · rename_i ha
      rw [if_neg ha]
      exact hf

theorem timerStep_due {d : BrtosTimer → Nat} {t : TimerSys} {a : TimerAct} (h : DueInv s d)
    (hk : DueKept s a) (hs : timerStep null s a = some t) : DueInv t (noteDeadline s d a) := by
  cases a with
  | tick =>
    cases hs
    have hk : s.tick + 1 < tickCountOverflow := hk
    have hnext : s.nextTick = s.tick + 1 := by
      have hmod : (s.tick + 1) % 2 ^ 64 = s.tick + 1 := by
        unfold tickCountOverflow at hk
        omega
      unfold TimerSys.nextTick
      rw [hmod, if_neg (by omega)]
    have hptr := h.pointers
    rcases osTick_cases s with ⟨_, he⟩ | ⟨hpc, _, he⟩
    · rw [he, hnext]
      exact h.quiet rfl rfl rfl (Nat.le_succ _) hptr h.noOverflow (fun q hq => .inl hq)
        fun q hq => .inl hq
    · unfold TimerSys.PointersOk at hptr
      rw [hpc] at hptr
      rw [he, hnext]
      exact h.quiet rfl rfl rfl (Nat.le_succ _) hptr trivial nofun nofun
  | set cb timeWait =>
    cases hs
    unfold osTimerSet noteDeadline TimerSys.waits
    cases hf : s.freeTimer with
    | none => exact h
    | some p =>
      dsimp only [Option.map_some]
      split
      · rename_i hpos
        exact h.enqueue (.inr ⟨_, rfl⟩) (hk p hf hpos)
      · rename_i hzero
        have hnow : s.tick + timeWait.toNat = s.tick := by omega
        have hself : Function.update d p (s.tick + timeWait.toNat) p = s.tick := by
          rw [Function.update_self, hnow]
        refine h.change (p := p) ⟨fun q hq => Function.update_of_ne hq _ _, h.filled,
          fun q _ hq => hq, rfl⟩ (fun q hq => Function.update_of_ne hq _ _) ?_ h.pointers
          h.noOverflow (fun q _ hq => .inl hq) (fun q _ hq => hq) (fun _ => .inr (.inr hself.le))
          fun _ => .inr hself.le
        rw [TimerSys.setTimer_mem, if_pos rfl]
        exact nofun
  | start p timeWait =>
    cases hs
    unfold osTimerStart noteDeadline TimerSys.waits
    dsimp only
    split
    · rename_i hne
      exact h.enqueue (.inl rfl) (hk hne)
    · rename_i hzero
      rw [if_pos (not_not.mp hzero)]
      exact h
  | stop p del =>
    cases hs
    exact h.stop hk
  | task again => exact h.task hk hs

theorem timersInit_due (t : Nat) (d : BrtosTimer → Nat) : DueInv (timersInit t) d := by
  refine ⟨fun l => ⟨fun _ _ => rfl, Multiset.notMem_zero _⟩, fun q => nofun, ?_, trivial,
    fun q hq => absurd hq (Multiset.notMem_zero _), nofun, nofun⟩
  show ListId.ping ≠ ListId.pong
  decide

/-- In every run that keeps to `DueKept`, no callback is called before the deadline that the last
`OSTimerSet`, `OSTimerStart` or repetition has set for its timer. -/
theorem notEarly_of_runs {t : Nat} {as : List TimerAct}
    (r : Runs (timerStep null) DueKept (timersInit t) as s) :
    NotEarly s (observe (timerStep null) noteDeadline (timersInit t) (fun _ => 0) as) := by
  have h : DueInv s (observe (timerStep null) noteDeadline (timersInit t) (fun _ => 0) as) :=
    r.observed (I := DueInv) (timersInit_due t _) fun _ _ _ _ h hk hs => timerStep_due h hk hs
  intro ov p hpc hcb
  refine (h.expiring p (by rw [hpc]; rfl)).resolve_left fun hn => ?_
  rw [hn] at hcb
  cases hcb

end

/-- A timer expires at tick 1, its callback returns 2, and it expires again at tick 3; another timer is stopped
before. -/
def repeatedTimer : List TimerAct :=
  [.set 1 1, .set 2 9, .stop 1 false, .task 0, .task 0, .task 0, .task 0, .tick, .task 0, .task 0,
    .task 0, .task 0, .task 0, .task 2, .task 0, .task 0, .task 0, .task 0, .task 0, .tick, .tick, .task 0, .task 0,
    .task 0, .task 0]

theorem notEarly_of_runs_repeatedTimer :
    ∃ s, Runs (timerStep default) DueKept (timersInit 0) repeatedTimer s ∧
      NotEarly s (observe (timerStep default) noteDeadline (timersInit 0) (fun _ => 0) repeatedTimer) ∧
      s.pc = .invoke false 0 ∧ s.tick = 3 := by
  have hrun : (exec (guarded (timerStep default) DueKept) (timersInit 0) repeatedTimer).map
      (fun s => (s.pc, s.tick)) = some (.invoke false 0, 3) := by decide +kernel
  obtain ⟨s, hs, he⟩ := Option.map_eq_some_iff.mp hrun
  have r := Runs.of_exec_guarded hs
  obtain ⟨hpc, htick⟩ := Prod.mk.inj he
  exact ⟨s, r, notEarly_of_runs r, hpc, htick⟩

/-- The tick counter stays below its overflow. -/
def BelowOverflow (s : TimerSys) : TimerAct → Prop
  | .tick => s.tick + 1 < tickCountOverflow
  | _ => True

instance (s : TimerSys) (a : TimerAct) : Decidable (BelowOverflow s a) :=
  match a with
  | .tick => inferInstanceAs (Decidable (_ < _))
  | .set .. | .start .. | .stop .. | .task _ => .isTrue trivial

/-- Of two timers the first one is stopped: the timer task still wakes up for it, and takes the second
one, which lies in the future, for a sign that the tick counter has wrapped around. -/
def stoppedFirst : List TimerAct :=
  [.set 1 1, .set 2 9, .task 0, .task 0, .task 0, .task 0, .stop 0 true, .tick, .task 0, .task 0, .task 0,
    .task 0]

theorem notEarly_fails :
    ¬ ∀ (as : List TimerAct) (s : TimerSys),
      Runs (timerStep default) BelowOverflow (timersInit 0) as s →
      NotEarly s (observe (timerStep default) noteDeadline (timersInit 0) (fun _ => 0) as) := by
  intro h
  have hrun : (exec (guarded (timerStep default) BelowOverflow) (timersInit 0) stoppedFirst).map
      (fun s => (s.pc, (s.mem 1).funcCb, s.tick)) = some (.invoke true 1, some 2, 1) := by
    decide +kernel
  have hnoted : observe (timerStep default) noteDeadline (timersInit 0) (fun _ => 0) stoppedFirst 1 = 9 := by
    decide +kernel
  obtain ⟨s, hs, he⟩ := Option.map_eq_some_iff.mp hrun
  have hpc : s.pc = .invoke true 1 := congrArg Prod.fst he
  have hcb : (s.mem 1).funcCb = some 2 := congrArg (fun x => x.2.1) he
  have htick : s.tick = 1 := congrArg (fun x => x.2.2) he
  have hearly := h stoppedFirst s (Runs.of_exec_guarded hs) true 1 hpc (by rw [hcb]; rfl)
  rw [hnoted, htick] at hearly
  omega

end Unet4Cooja
