import Unet4Cooja.Brtos.TimerLists

/-!
# The critical sections of the timers

* `TimerSys.queued` : the entries of both lists;
* `enqueue_spec`, `stop_spec`, `finish_spec` : what queueing a timer, stopping it and the end of its
  expiry do to lists in order; `Touched` says that other timers are left alone.
-/

namespace Unet4Cooja
open Lib

/-! ## Queued timers -/

namespace TimerSys
variable (s : TimerSys)

def queued : Multiset (Option BrtosTimer) :=
  (s.lists .ping).entries + (s.lists .pong).entries

/-- The timeout stored for an expiry after `timeWait` ticks. -/
def expiry (timeWait : Nat) : Nat :=
  let timeout := (s.tick + timeWait) % 2 ^ 64
  if tickCountOverflow ≤ timeout then timeout - tickCountOverflow else timeout

/-- The list a timer that expires after `timeWait` ticks is inserted into. -/
def target (timeWait : Nat) : ListId :=
  if tickCountOverflow ≤ (s.tick + timeWait) % 2 ^ 64 then s.future else s.current

theorem entries_le_queued (l : ListId) : (s.lists l).entries ≤ s.queued := by
  cases l with
  | ping => exact Multiset.le_add_right _ _
  | pong => exact Multiset.le_add_left _ _

theorem mem_queued {p : BrtosTimer} : some p ∈ s.queued ↔ ∃ l, some p ∈ (s.lists l).entries := by
  unfold queued
  rw [Multiset.mem_add]
  constructor
  · rintro (h | h)
    · exact ⟨.ping, h⟩
    · exact ⟨.pong, h⟩
  · rintro ⟨l, h⟩
    cases l with
    | ping => exact .inl h
    | pong => exact .inr h

@[simp] theorem setTimer_queued (p : BrtosTimer) (t : BrtosTimerT) :
    (s.setTimer p t).queued = s.queued := rfl

theorem queued_count (y : Option BrtosTimer) :
    s.queued.count y = (s.lists .ping).entries.count y + (s.lists .pong).entries.count y :=
  Multiset.count_add y _ _

theorem count_le_queued (l : ListId) (y : Option BrtosTimer) :
    (s.lists l).entries.count y ≤ s.queued.count y :=
  Multiset.count_le_of_le y (s.entries_le_queued l)

theorem setList_lists (l l' : ListId) (x : BrtosTmrT) :
    (s.setList l x).lists l' = if l' = l then x else s.lists l' := Function.update_apply _ _ _ _

theorem setTimer_mem (p q : BrtosTimer) (t : BrtosTimerT) :
    (s.setTimer p t).mem q = if q = p then t else s.mem q := Function.update_apply _ _ _ _

end TimerSys

/-! ## The critical sections -/

section
variable (null : BrtosTimerT) (s : TimerSys) (p : BrtosTimer)

theorem enqueue_eq (timeWait : Nat) :
    ∃ timeToWait, s.enqueue null p timeWait =
      { (s.setList (s.target timeWait) ((s.lists (s.target timeWait)).insert null
          (Function.update s.mem p { s.mem p with timeout := s.expiry timeWait }) p)).setTimer p
          { s.mem p with timeout := s.expiry timeWait, state := .running } with
        timeToWait := timeToWait } := by
  unfold TimerSys.enqueue TimerSys.target TimerSys.expiry
  dsimp only
  split
  · refine ⟨s.timeToWait, ?_⟩
    simp [TimerSys.setTimer, TimerSys.setList]
  · split
    · refine ⟨(s.tick + timeWait) % 2 ^ 64, ?_⟩
      simp [TimerSys.setTimer, TimerSys.setList]
    · refine ⟨s.timeToWait, ?_⟩
      simp [TimerSys.setTimer, TimerSys.setList]

theorem stop_eq (del : Bool) :
    osTimerStop null s p del =
      let l := s.stopList p
      let searching := Function.update s.mem p { s.mem p with state := .search }
      let raised := Function.update s.mem p { s.mem p with state := .search, timeout := 0 }
      let pos := (s.lists l).searched null searching
      let list := (s.lists l).raised null raised pos
      (s.setList l (list.removeFirst.order raised)).setTimer p
        { funcCb := if del then none else (s.mem p).funcCb
          timeout := 0
          state := if del then .notUsed else .stopped } := by
  unfold osTimerStop
  cases del with
  | true => simp [TimerSys.setTimer, TimerSys.setList, BrtosTmrT.raised]
  | false => simp [TimerSys.setTimer, TimerSys.setList, BrtosTmrT.raised]

end

/-- Only `p` has other values, and only `p` is queued differently. -/
structure Touched (p : BrtosTimer) (s t : TimerSys) : Prop where
  mem : ∀ q, q ≠ p → t.mem q = s.mem q
  count : ∀ l q, q ≠ p →
    (t.lists l).entries.count (some q) = (s.lists l).entries.count (some q)

def TimerSys.ListsOk (null : BrtosTimerT) (s : TimerSys) : Prop := ∀ l, (s.lists l).Ok null s.mem

section
variable {null : BrtosTimerT} {s : TimerSys} {p : BrtosTimer}

theorem exists_written (s : TimerSys) (p : BrtosTimer) (x : BrtosTimerT) :
    ∃ m, Function.update s.mem p x = m ∧ (∀ q, q ≠ p → m q = s.mem q) ∧ m p = x :=
  ⟨_, rfl, fun _ hq => Function.update_of_ne hq _ _, Function.update_self _ _ _⟩

theorem ne_of_not_queued (hp : some p ∉ s.queued) {l : ListId} {q : BrtosTimer}
    (hq : some q ∈ (s.lists l).entries) : q ≠ p := by
  rintro rfl
  exact hp (s.mem_queued.mpr ⟨l, hq⟩)

theorem count_of_not_queued (hp : some p ∉ s.queued) (l : ListId) :
    (s.lists l).entries.count (some p) = 0 :=
  Multiset.count_eq_zero.mpr fun hin => hp (s.mem_queued.mpr ⟨l, hin⟩)

structure Enqueued (null : BrtosTimerT) (p : BrtosTimer) (timeWait : Nat) (s t : TimerSys) : Prop where
  touched : Touched p s t
  lists : t.ListsOk null
  timer : t.mem p = { s.mem p with timeout := s.expiry timeWait, state := .running }
  count : ∀ l, (t.lists l).entries.count (some p) = if l = s.target timeWait then 1 else 0
  rest : t = { s with mem := t.mem, lists := t.lists, timeToWait := t.timeToWait }

theorem enqueue_spec {timeWait : Nat} (h : s.ListsOk null) (hp : some p ∉ s.queued)
    (hroom : (s.lists (s.target timeWait)).count < brtosMaxTimer - 1) :
    Enqueued null p timeWait s (s.enqueue null p timeWait) := by
  obtain ⟨ttw, he⟩ := enqueue_eq null s p timeWait
  rw [he]
  obtain ⟨m, hm, hmo, hwritten⟩ := exists_written s p { s.mem p with timeout := s.expiry timeWait }
  have hmp : (m p).timeout = s.expiry timeWait := congrArg BrtosTimerT.timeout hwritten
  rw [hm]
  have hentries := fun q => congrArg (Multiset.count (some q))
    (BrtosTmrT.insert_entries null m p hroom)
  have hold : (s.lists (s.target timeWait)).Ok null m :=
    (h _).congr fun q hq => by rw [hmo q (ne_of_not_queued hp hq)]
  refine ⟨⟨fun q hq => ?_, fun l q hq => ?_⟩, fun l => ?_, ?_, fun l => ?_, rfl⟩
  · exact Function.update_of_ne hq _ _
  · dsimp only [TimerSys.setTimer]
    rw [TimerSys.setList_lists]
    split
    · rename_i hl
      rw [hentries q, Multiset.count_cons_of_ne (by simpa using hq), hl]
    · rfl
  · dsimp only [TimerSys.setTimer]
    rw [TimerSys.setList_lists]
    split
    · refine (hold.insert p hroom).congr fun q _ => ?_
      by_cases hqp : q = p
      · rw [hqp, Function.update_self, hmp]
      · rw [Function.update_of_ne hqp, hmo q hqp]
        rfl
    · refine (h l).congr fun q hq => ?_
      rw [Function.update_of_ne (ne_of_not_queued hp hq)]
      rfl
  · exact Function.update_self _ _ _
  · dsimp only [TimerSys.setTimer]
    rw [TimerSys.setList_lists]
    split
    · rw [hentries p, Multiset.count_cons_self, count_of_not_queued hp]
    · exact count_of_not_queued hp l

/-- What stopping a timer does, from the list it is in or while it is not queued. -/
structure StoppedBy (null : BrtosTimerT) (p : BrtosTimer) (del : Bool) (s t : TimerSys) : Prop where
  touched : Touched p s t
  lists : t.ListsOk null
  timer : t.mem p =
    { funcCb := if del then none else (s.mem p).funcCb
      timeout := 0
      state := if del then .notUsed else .stopped }
  count : ∀ l, (t.lists l).entries.count (some p) = 0
  rest : t = { s with mem := t.mem, lists := t.lists }

theorem removed_empty {l : BrtosTmrT} {mem m : BrtosTimer → BrtosTimerT} (h : l.Ok null mem)
    (hzero : l.count = 0) : (l.removeFirst.order m).Ok null m ∧ (l.removeFirst.order m).entries = 0 := by
  have hentries : l.removeFirst.entries = 0 := by
    unfold BrtosTmrT.entries BrtosTmrT.removeFirst
    rw [hzero]
    rfl
  refine ⟨(h.removeFirst.congr fun q hq => ?_).order, ?_⟩
  · rw [hentries] at hq
    exact absurd hq (Multiset.notMem_zero _)
  · rw [BrtosTmrT.order_entries, hentries]

/-- The list of `OSTimerStop` afterwards: `sm` are the timers during the search, `m` during the removal.
-/
theorem removed_spec {l : BrtosTmrT} {mem sm m : BrtosTimer → BrtosTimerT} (h : l.Ok null mem)
    (honce : l.entries.count (some p) ≤ 1) (hsp : (sm p).state = .search)
    (hso : ∀ q, q ≠ p → (sm q).state ≠ .search) (hmp : (m p).timeout = 0)
    (hmo : ∀ q, q ≠ p → m q = mem q)
    (hin : (some p ∈ l.entries ∧
        (l.timers 1 = some p ∨ ∀ q, l.timers 1 = some q → 0 < (mem q).timeout)) ∨
      (some p ∉ l.entries ∧ l.count = 0)) :
    let x := l.raised null m (l.searched null sm)
    (x.removeFirst.order m).Ok null m ∧ ∀ q, (x.removeFirst.order m).entries.count (some q) =
      if q = p then 0 else l.entries.count (some q) := by
  intro x
  rcases hin with ⟨hin, hfirst⟩ | ⟨hno, hzero⟩
  · obtain ⟨h1, hk, hkp⟩ := BrtosTmrT.searched_of_mem null h.toFilled hin hsp hso
    have hpos : l.timers 1 = some p ∨ 0 < timeoutOf null mem (l.timers 1) := by
      rcases hfirst with hp | hpos
      · exact .inl hp
      · cases hq : l.timers 1 with
        | none =>
          have := h.first_eq_none.mp hq
          omega
        | some q => exact .inr (hpos q hq)
    obtain ⟨hok, hcons⟩ := h.stop h1 hk hkp honce hpos hmp fun q hq => by rw [hmo q hq]
    refine ⟨hok, fun q => ?_⟩
    have hcount := congrArg (Multiset.count (some q)) hcons
    rw [Multiset.count_cons] at hcount
    by_cases hqp : q = p
    · rw [if_pos hqp]
      rw [if_pos (by rw [hqp])] at hcount
      rw [hqp] at hcount ⊢
      have hcount : (x.removeFirst.order m).entries.count (some p) + 1 = l.entries.count (some p) :=
        hcount
      omega
    · rw [if_neg hqp]
      rw [if_neg (by simpa using hqp)] at hcount
      exact hcount
  · have hsearched : l.searched null sm = 1 := by
      unfold BrtosTmrT.searched
      rw [hzero]
      rfl
    have hsame : x = l := by
      show l.raised null m (l.searched null sm) = l
      rw [hsearched, BrtosTmrT.raised_one]
    rw [hsame]
    obtain ⟨hok, hempty⟩ := removed_empty (m := m) h hzero
    refine ⟨hok, fun q => ?_⟩
    have hz : l.entries = 0 := by
      unfold BrtosTmrT.entries
      rw [hzero]
      rfl
    rw [hempty, hz]
    simp

theorem stop_spec (del : Bool) (h : s.ListsOk null) (honce : s.queued.count (some p) ≤ 1)
    (hsearch : ∀ q, (s.mem q).state ≠ .search)
    (hin : (some p ∈ (s.lists (s.stopList p)).entries ∧
        (s.first (s.stopList p) = some p ∨
          ∀ q, s.first (s.stopList p) = some q → 0 < (s.mem q).timeout)) ∨
      (some p ∉ s.queued ∧ (s.lists (s.stopList p)).count = 0)) :
    StoppedBy null p del s (osTimerStop null s p del) := by
  rw [stop_eq]
  dsimp only
  generalize s.stopList p = l at hin
  generalize hsm : Function.update s.mem p { s.mem p with state := .search } = sm
  generalize hm : Function.update s.mem p { s.mem p with state := .search, timeout := 0 } = m
  have hmo : ∀ q, q ≠ p → m q = s.mem q := fun q hq => by rw [← hm, Function.update_of_ne hq]
  have hso : ∀ q, q ≠ p → (sm q).state ≠ .search := fun q hq => by
    rw [← hsm, Function.update_of_ne hq]
    exact hsearch q
  have hwhere := hin.imp id fun hno => (⟨fun hp => hno.1 (s.mem_queued.mpr ⟨l, hp⟩), hno.2⟩ :
    some p ∉ (s.lists l).entries ∧ (s.lists l).count = 0)
  obtain ⟨hok, hcount⟩ := removed_spec (h l) ((s.count_le_queued l (some p)).trans honce)
    (by rw [← hsm, Function.update_self]) hso (by rw [← hm, Function.update_self]) hmo hwhere
  generalize ((s.lists l).raised null m ((s.lists l).searched null sm)).removeFirst.order m = x
    at hok hcount ⊢
  have hgone : ∀ l', ((s.setList l x).lists l').entries.count (some p) = 0 := by
    intro l'
    rw [TimerSys.setList_lists]
    split
    · rw [hcount, if_pos rfl]
    · rename_i hne
      rcases hin with ⟨hin, _⟩ | ⟨hno, _⟩
      · have hpos := Multiset.count_pos.mpr hin
        rw [s.queued_count] at honce
        cases l <;> cases l' <;> first | exact absurd rfl hne | omega
      · exact count_of_not_queued hno l'
  have hnot : ∀ {l' q}, some q ∈ ((s.setList l x).lists l').entries → q ≠ p := by
    rintro l' q hq rfl
    exact Multiset.count_ne_zero.mpr hq (hgone l')
  refine ⟨⟨fun q hq => Function.update_of_ne hq _ _, fun l' q hq => ?_⟩, fun l' => ?_,
    Function.update_self _ _ _, hgone, rfl⟩
  · dsimp only [TimerSys.setTimer]
    rw [TimerSys.setList_lists]
    split
    · rename_i hl
      rw [hcount, if_neg hq, hl]
    · rfl
  · have hq := fun q => @hnot l' q
    dsimp only [TimerSys.setTimer]
    rw [TimerSys.setList_lists] at hq ⊢
    split at hq
    · rename_i hl
      rw [if_pos hl]
      refine hok.congr fun q hin => ?_
      rw [Function.update_of_ne (hq q hin), hmo q (hq q hin)]
      rfl
    · rename_i hl
      rw [if_neg hl]
      refine (h l').congr fun q hin => ?_
      rw [Function.update_of_ne (hq q hin)]
      rfl

/-- The timeout stored for a timer whose callback returns `again`. -/
def TimerSys.againTimeout (s : TimerSys) (ov : Bool) (again : Nat) : Nat :=
  if ov = true ∨ (s.tick + again) % 2 ^ 64 < tickCountOverflow then (s.tick + again) % 2 ^ 64
  else (s.tick + again) % 2 ^ 64 - tickCountOverflow

def TimerSys.againList (s : TimerSys) (ov : Bool) (again : Nat) : ListId :=
  if ov = true ∨ tickCountOverflow ≤ (s.tick + again) % 2 ^ 64 then s.future else s.list

structure Finished (null : BrtosTimerT) (ov : Bool) (p : BrtosTimer) (again : Nat) (s t : TimerSys) :
    Prop where
  touched : Touched p s t
  lists : t.ListsOk null
  timer : t.mem p =
    if 0 < again then { s.mem p with timeout := s.againTimeout ov again, state := .running }
    else { funcCb := none, timeout := 0, state := .notUsed }
  count : ∀ l, (t.lists l).entries.count (some p) =
    if 0 < again ∧ l = s.againList ov again then 1 else 0
  pc : t.pc = .loop ov (t.first s.list)
  rest : t = { s with
    mem := t.mem
    lists := t.lists
    pc := t.pc
    timeout := if 0 < again then (s.tick + again) % 2 ^ 64 else s.timeout }

theorem finish_future {ov : Bool} {again : Nat} (ha : 0 < again)
    (hf : ov = true ∨ tickCountOverflow ≤ (s.tick + again) % 2 ^ 64) (hne : s.list ≠ s.future) :
    let m := Function.update s.mem p
      { s.mem p with timeout := s.againTimeout ov again, state := .running }
    let x := (s.lists s.list).removeFirst.order m
    s.finishExpired null ov p again =
      { (s.setList s.future ((s.lists s.future).insert null m p)).setList s.list x with
        mem := m
        timeout := (s.tick + again) % 2 ^ 64
        pc := .loop ov (x.timers 1) } := by
  have hsum : (if ov = true then (s.tick + again) % 2 ^ 64
      else (s.tick + again) % 2 ^ 64 - tickCountOverflow) = s.againTimeout ov again := by
    unfold TimerSys.againTimeout
    cases ov with
    | true => simp
    | false =>
      have hf := hf.resolve_left Bool.false_ne_true
      rw [if_neg Bool.false_ne_true, if_neg (by simpa using hf)]
  intro m x
  unfold TimerSys.finishExpired
  rw [if_pos ha, if_pos hf]
  simp only [TimerSys.setTimer, TimerSys.setList, TimerSys.first, Function.update_self,
    Function.update_idem, Function.update_of_ne hne, hsum]
  rfl

theorem finish_inPlace {ov : Bool} {again : Nat} (ha : 0 < again)
    (hf : ¬ (ov = true ∨ tickCountOverflow ≤ (s.tick + again) % 2 ^ 64)) :
    let m := Function.update s.mem p
      { s.mem p with timeout := s.againTimeout ov again, state := .running }
    let x := (s.lists s.list).order m
    s.finishExpired null ov p again =
      { s.setList s.list x with
        mem := m
        timeout := (s.tick + again) % 2 ^ 64
        pc := .loop ov (x.timers 1) } := by
  have hsum : s.againTimeout ov again = (s.tick + again) % 2 ^ 64 := by
    unfold TimerSys.againTimeout
    rw [if_pos (.inr (by omega))]
  intro m x
  unfold TimerSys.finishExpired
  rw [if_pos ha, if_neg hf]
  simp only [TimerSys.setTimer, TimerSys.setList, TimerSys.first, Function.update_self,
    Function.update_idem, ← hsum]
  rfl

theorem finish_freed (ov : Bool) :
    let m := Function.update s.mem p { funcCb := none, timeout := 0, state := .notUsed }
    let x := (s.lists s.list).removeFirst.order m
    s.finishExpired null ov p 0 =
      { s.setList s.list x with mem := m, pc := .loop ov (x.timers 1) } := by
  intro m x
  unfold TimerSys.finishExpired
  rw [if_neg (Nat.lt_irrefl 0)]
  simp only [TimerSys.setTimer, TimerSys.setList, TimerSys.first, Function.update_self,
    Function.update_idem]
  rfl

theorem removedFirst_spec {l : BrtosTmrT} {mem m : BrtosTimer → BrtosTimerT} (h : l.Ok null mem)
    (honce : l.entries.count (some p) ≤ 1) (hmo : ∀ q, q ≠ p → m q = mem q)
    (hin : l.timers 1 = some p ∨ (some p ∉ l.entries ∧ l.count = 0)) :
    (l.removeFirst.order m).Ok null m ∧ ∀ q, (l.removeFirst.order m).entries.count (some q) =
      if q = p then 0 else l.entries.count (some q) := by
  rcases hin with hfirst | ⟨hno, hzero⟩
  · have hpos := h.one_le_count hfirst
    have hcons := BrtosTmrT.removeFirst_entries hpos
    rw [hfirst] at hcons
    have hcount : ∀ q, l.removeFirst.entries.count (some q) =
        if q = p then 0 else l.entries.count (some q) := by
      intro q
      rw [← hcons] at honce ⊢
      rw [Multiset.count_cons_self] at honce
      by_cases hqp : q = p
      · rw [if_pos hqp, hqp]
        omega
      · rw [if_neg hqp, Multiset.count_cons_of_ne (by simpa using hqp)]
    refine ⟨(h.removeFirst.congr fun q hq => ?_).order, fun q => ?_⟩
    · rw [hmo]
      rintro rfl
      have hpos := Multiset.count_pos.mpr hq
      rw [hcount, if_pos rfl] at hpos
      exact Nat.lt_irrefl 0 hpos
    · rw [BrtosTmrT.order_entries, hcount]
  · obtain ⟨hok, hempty⟩ := removed_empty (m := m) h hzero
    refine ⟨hok, fun q => ?_⟩
    have hz : l.entries = 0 := by
      unfold BrtosTmrT.entries
      rw [hzero]
      rfl
    rw [hempty, hz]
    simp

theorem TimerSys.ListsOk.only_first (h : s.ListsOk null) (honce : s.queued.count (some p) ≤ 1)
    (hfirst : s.first s.list = some p) {l : ListId} (hl : l ≠ s.list) :
    (s.lists l).entries.count (some p) = 0 := by
  have hpos := Multiset.count_pos.mpr ((h s.list).first_mem hfirst)
  rw [s.queued_count] at honce
  generalize s.list = k at hpos hl
  cases l <;> cases k <;> first | exact absurd rfl hl | omega

section
variable {ov : Bool} {again : Nat} (h : s.ListsOk null)
  (hother : ∀ l, l ≠ s.list → (s.lists l).entries.count (some p) = 0)

include h hother

theorem otherList_ok {m : BrtosTimer → BrtosTimerT} (hmo : ∀ q, q ≠ p → m q = s.mem q) {l : ListId}
    (hl : l ≠ s.list) : (s.lists l).Ok null m := by
  refine (h l).congr fun q hq => ?_
  rw [hmo]
  rintro rfl
  exact Multiset.count_ne_zero.mpr hq (hother l hl)

theorem finish_freed_spec (hlist : (s.lists s.list).entries.count (some p) ≤ 1)
    (hin : s.first s.list = some p ∨
      (some p ∉ (s.lists s.list).entries ∧ (s.lists s.list).count = 0)) :
    Finished null ov p 0 s (s.finishExpired null ov p 0) := by
  rw [finish_freed]
  dsimp only
  obtain ⟨m, hm, hmo, hmp⟩ := exists_written s p { funcCb := none, timeout := 0, state := .notUsed }
  obtain ⟨hok, hcount⟩ := removedFirst_spec (h s.list) hlist hmo hin
  rw [hm]
  refine ⟨⟨hmo, fun l q hq => ?_⟩, fun l => ?_, ?_, fun l => ?_, ?_, rfl⟩
  · rw [TimerSys.setList_lists]
    split
    · rename_i hl
      rw [hcount, if_neg hq, hl]
    · rfl
  · dsimp only
    rw [TimerSys.setList_lists]
    split
    · exact hok
    · rename_i hl
      exact otherList_ok h hother hmo hl
  · rw [if_neg (Nat.lt_irrefl 0)]
    exact hmp
  · have hnone : ¬ (0 < 0 ∧ l = s.againList ov 0) := fun h => Nat.lt_irrefl 0 h.1
    rw [if_neg hnone, TimerSys.setList_lists]
    split
    · rw [hcount, if_pos rfl]
    · rename_i hl
      exact hother l hl
  · simp [TimerSys.first, TimerSys.setList]

theorem finish_future_spec (hlist : (s.lists s.list).entries.count (some p) ≤ 1)
    (hfirst : s.first s.list = some p) (hne : s.list ≠ s.future) (ha : 0 < again)
    (hf : ov = true ∨ tickCountOverflow ≤ (s.tick + again) % 2 ^ 64)
    (hroom : (s.lists s.future).count < brtosMaxTimer - 1) :
    Finished null ov p again s (s.finishExpired null ov p again) := by
  rw [finish_future ha hf hne]
  dsimp only
  obtain ⟨m, hm, hmo, hmp⟩ :=
    exists_written s p { s.mem p with timeout := s.againTimeout ov again, state := .running }
  rw [hm]
  obtain ⟨hok, hcount⟩ := removedFirst_spec (h s.list) hlist hmo (.inl hfirst)
  have hnew := (otherList_ok h hother hmo hne.symm).insert p hroom
  have hentries := fun q => congrArg (Multiset.count (some q))
    (BrtosTmrT.insert_entries null m p hroom)
  have hto : s.againList ov again = s.future := if_pos hf
  refine ⟨⟨hmo, fun l q hq => ?_⟩, fun l => ?_, ?_, fun l => ?_, ?_, ?_⟩
  · rw [TimerSys.setList_lists, TimerSys.setList_lists]
    split
    · rename_i hl
      rw [hcount, if_neg hq, hl]
    · split
      · rename_i hl
        rw [hentries, Multiset.count_cons_of_ne (by simpa using hq), hl]
      · rfl
  · dsimp only
    rw [TimerSys.setList_lists, TimerSys.setList_lists]
    split
    · exact hok
    · rename_i hl
      split
      · exact hnew
      · exact otherList_ok h hother hmo hl
  · rw [if_pos ha]
    exact hmp
  · rw [TimerSys.setList_lists, TimerSys.setList_lists, hto]
    split
    · rename_i hl
      rw [hcount, if_pos rfl, if_neg fun h => hne (hl ▸ h.2)]
    · rename_i hl
      split
      · rename_i hl'
        rw [hentries, Multiset.count_cons_self, hother _ hne.symm, if_pos ⟨ha, hl'⟩]
      · rename_i hl'
        rw [hother l hl, if_neg fun h => hl' h.2]
  · simp [TimerSys.first, TimerSys.setList]
  · rw [if_pos ha]
    rfl

theorem finish_inPlace_spec (hlist : (s.lists s.list).entries.count (some p) ≤ 1)
    (hfirst : s.first s.list = some p) (ha : 0 < again)
    (hf : ¬ (ov = true ∨ tickCountOverflow ≤ (s.tick + again) % 2 ^ 64)) :
    Finished null ov p again s (s.finishExpired null ov p again) := by
  have hin1 : (s.lists s.list).entries.count (some p) = 1 := by
    have hpos := Multiset.count_pos.mpr ((h s.list).first_mem hfirst)
    omega
  rw [finish_inPlace ha hf]
  dsimp only
  obtain ⟨m, hm, hmo, hmp⟩ :=
    exists_written s p { s.mem p with timeout := s.againTimeout ov again, state := .running }
  rw [hm]
  have hsink : (s.lists s.list).Sinking null m :=
    (h s.list).changeFirst hfirst hlist fun q hq => by rw [hmo q hq]
  have hok := hsink.order
  have hto : s.againList ov again = s.list := if_neg hf
  refine ⟨⟨hmo, fun l q hq => ?_⟩, fun l => ?_, ?_, fun l => ?_, ?_, ?_⟩
  · rw [TimerSys.setList_lists]
    split
    · rename_i hl
      rw [BrtosTmrT.order_entries, hl]
    · rfl
  · dsimp only
    rw [TimerSys.setList_lists]
    split
    · exact hok
    · rename_i hl
      exact otherList_ok h hother hmo hl
  · rw [if_pos ha]
    exact hmp
  · rw [TimerSys.setList_lists, hto]
    split
    · rename_i hl
      rw [BrtosTmrT.order_entries, hin1, if_pos ⟨ha, hl⟩]
    · rename_i hl
      rw [hother l hl, if_neg fun h => hl h.2]
  · simp [TimerSys.first, TimerSys.setList]
  · rw [if_pos ha]
    rfl

end

theorem finish_spec {ov : Bool} {again : Nat} (h : s.ListsOk null) (honce : s.queued.count (some p) ≤ 1)
    (hne : s.list ≠ s.future)
    (hin : (s.first s.list = some p ∧
          (0 < again → (ov = true ∨ tickCountOverflow ≤ (s.tick + again) % 2 ^ 64) →
            (s.lists s.future).count < brtosMaxTimer - 1)) ∨
        (again = 0 ∧ some p ∉ s.queued ∧ (s.lists s.list).count = 0)) :
    Finished null ov p again s (s.finishExpired null ov p again) := by
  have hlist := (s.count_le_queued s.list (some p)).trans honce
  rcases hin with ⟨hfirst, hroom⟩ | ⟨rfl, hno, hzero⟩
  · have hother : ∀ l, l ≠ s.list → (s.lists l).entries.count (some p) = 0 := fun _ hl =>
      h.only_first honce hfirst hl
    rcases Nat.eq_zero_or_pos again with rfl | ha
    · exact finish_freed_spec h hother hlist (.inl hfirst)
    · by_cases hf : ov = true ∨ tickCountOverflow ≤ (s.tick + again) % 2 ^ 64
      · exact finish_future_spec h hother hlist hfirst hne ha hf (hroom ha hf)
      · exact finish_inPlace_spec h hother hlist hfirst ha hf
  · have hno' : some p ∉ (s.lists s.list).entries := fun hp => hno (s.mem_queued.mpr ⟨_, hp⟩)
    exact finish_freed_spec h (fun l _ => count_of_not_queued hno l) hlist (.inr ⟨hno', hzero⟩)

end

end Unet4Cooja
