import Unet4Cooja.Brtos.Ceiling

/-!
# The owners and waiters of mutexes

* `QueueInv`, `MutexInv` : what holds of the wait lists and the ready list, and with it of the priorities;
* `QueueInv.waiter` : who is selected by a release; `held_of_owners` : steps after which the same tasks know what they own;
* `MutexInv.delay`, `MutexInv.undelay`, `MutexInv.tick`, `MutexInv.wait` : steps that change no owner;
* `MutexInv.acquireFree`, `MutexInv.resumed` : a mutex is taken, at once or after a wait.
-/

namespace Unet4Cooja

variable {τ μ : Type*}

/-! ## The invariant -/

/-- The mutex whose release the task waits for. -/
def TaskPc.waitsFor : TaskPc μ → Option μ
  | .acquiring m _ _ => some m
  | _ => none

section
variable (s : MutexSys τ μ)

/-- The task `t` owns `m` and knows it: it has not been handed `m` over in its wait for it. -/
def MutexSys.Held (t : τ) (m : μ) : Prop :=
  (s.mutexes m).osEventOwner = .task t ∧ (s.pc t).waitsFor ≠ some m

def MutexSys.saved (m : μ) : Nat := (s.mutexes m).osOriginalPriority

/-- A task in the wait list of a mutex is not its owner, and one that waits for it and is not in the list
has been handed it over; the ready list has bits of tasks only, and bits of waiting tasks only if these
own the mutex or their time is over. -/
structure QueueInv : Prop where
  ready : ∀ p ∈ s.osReadyList, ∃ t, s.priority t = p ∧ ∀ m q b, s.pc t = .acquiring m q b →
    (s.mutexes m).osEventOwner = .task t ∨ (b = true ∧ s.timeToWait t = .exitByTimeout)
  waiting : ∀ t m q b, s.pc t = .acquiring m q b → s.priority t = q ∧
    (q ∈ (s.mutexes m).osEventWaitList ↔ (s.mutexes m).osEventOwner ≠ .task t)
  listed : ∀ m, ∀ q ∈ (s.mutexes m).osEventWaitList, ∃ t b, s.pc t = .acquiring m q b
  count : ∀ m, (s.mutexes m).osEventWait = (s.mutexes m).osEventWaitList.card
  available : ∀ m, (s.mutexes m).osEventState = .availableResource → (s.mutexes m).osEventOwner = .zero
  forever : ∀ t m q, s.pc t = .acquiring m q false → s.timeToWait t ≠ .ticks

structure MutexInv (c : Priorities τ μ) (s : MutexSys τ μ) : Prop extends QueueInv s where
  ceiling : CeilingInv c s.priority s.priorityVector s.Held s.saved

end

variable {c : Priorities τ μ} {s s' : MutexSys τ μ} {t u : τ} {m : μ}

theorem ne_of_running (hrun : s.pc t = .running) {x : μ} {q : Nat} {b : Bool}
    (hu : s.pc u = .acquiring x q b) : u ≠ t := by
  rintro rfl
  rw [hrun] at hu
  cases hu

theorem acquiring_of_update [DecidableEq τ] {x : μ} {q : Nat} {b : Bool}
    (hu : Function.update s.pc t .running u = .acquiring x q b) : u ≠ t ∧ s.pc u = .acquiring x q b := by
  by_cases hut : u = t
  · rw [hut, Function.update_self] at hu
    cases hu
  · rw [Function.update_of_ne hut] at hu
    exact ⟨hut, hu⟩

/-- A task that is selected in its wait has been handed the mutex over, or its time is over. -/
theorem MutexInv.selected (h : MutexInv c s) (ht : s.Selected t) {q : Nat} {b : Bool}
    (hpc : s.pc t = .acquiring m q b) :
    (s.mutexes m).osEventOwner = .task t ∨ (b = true ∧ s.timeToWait t = .exitByTimeout) := by
  obtain ⟨p, hp, hv⟩ := ht
  obtain ⟨u, hu, hw⟩ := h.ready p hp
  have hvu := h.ceiling.vector_priority u
  rw [hu, hv] at hvu
  cases hvu
  exact hw m q b hpc

theorem QueueInv.waiter (h : QueueInv s) (hwait : (s.mutexes m).osEventWait ≠ 0) :
    saScheduler (s.mutexes m).osEventWaitList ∈ (s.mutexes m).osEventWaitList ∧
      ∃ w b, s.pc w = .acquiring m (saScheduler (s.mutexes m).osEventWaitList) b ∧
        s.priority w = saScheduler (s.mutexes m).osEventWaitList := by
  have hin : saScheduler (s.mutexes m).osEventWaitList ∈ (s.mutexes m).osEventWaitList := by
    apply saScheduler_mem
    rw [← Finset.card_pos, ← h.count m]
    omega
  obtain ⟨w, b, hw⟩ := h.listed m _ hin
  exact ⟨hin, w, b, hw, (h.waiting w m _ b hw).1⟩

/-- A step after which the owners are the same, and the task `t` waits for none it had. -/
theorem held_of_owners (ho : ∀ x, (s'.mutexes x).osEventOwner = (s.mutexes x).osEventOwner)
    (hpc : ∀ u, u ≠ t → s'.pc u = s.pc u)
    (ht : ∀ x, (s.mutexes x).osEventOwner = .task t → ((s'.pc t).waitsFor = some x ↔ (s.pc t).waitsFor = some x))
    (u : τ) (x : μ) : s'.Held u x ↔ s.Held u x := by
  unfold MutexSys.Held
  rw [ho]
  by_cases hu : u = t
  · rw [hu]
    exact and_congr_right fun howner => not_congr (ht x howner)
  · rw [hpc u hu]

theorem MutexInv.sameOwners (h : MutexInv c s) (hp : s'.priority = s.priority)
    (hv : s'.priorityVector = s.priorityVector) (hh : ∀ t m, s'.Held t m ↔ s.Held t m)
    (hs : ∀ m, s'.saved m = s.saved m) :
    CeilingInv c s'.priority s'.priorityVector s'.Held s'.saved := by
  rw [hp, hv, show s'.saved = s.saved from funext hs]
  exact h.ceiling.congr hh

theorem setMutex_mutexes [DecidableEq μ] (x y : μ) (z : BrtosMutex τ) :
    (s.setMutex x z).mutexes y = if y = x then z else s.mutexes y := Function.update_apply _ _ _ _

theorem setMutex_field [DecidableEq μ] {α : Type*} (f : BrtosMutex τ → α) {z : BrtosMutex τ}
    (hz : f z = f (s.mutexes m)) (x : μ) : f ((s.setMutex m z).mutexes x) = f (s.mutexes x) := by
  rw [setMutex_mutexes]
  split
  · rename_i hx
    rw [hz, hx]
  · rfl

variable [DecidableEq τ]

namespace MutexInv

/-! ## Steps without a change of owner -/

theorem delay (h : MutexInv c s) (hrun : s.pc t = .running) : MutexInv c (osDelayTask s t) := by
  have hpc : ∀ u, u ≠ t → (osDelayTask s t).pc u = s.pc u := fun u hu => Function.update_of_ne hu _ _
  have hself : (osDelayTask s t).pc t = .delayed := Function.update_self _ _ _
  have hold : ∀ {u x q b}, (osDelayTask s t).pc u = .acquiring x q b →
      u ≠ t ∧ s.pc u = .acquiring x q b := by
    intro u x q b hu
    have hne : u ≠ t := by
      rintro rfl
      rw [hself] at hu
      cases hu
    exact ⟨hne, hpc u hne ▸ hu⟩
  have htime : ∀ u, u ≠ t → (osDelayTask s t).timeToWait u = s.timeToWait u :=
    fun u hu => Function.update_of_ne hu _ _
  refine ⟨⟨fun p hp => ?_, fun u x q b hu => ?_, fun x q hq => ?_, h.count, h.available,
    fun u x q hu => ?_⟩, h.sameOwners rfl rfl ?_ fun _ => rfl⟩
  · obtain ⟨u, hu, hw⟩ := h.ready p (Finset.mem_of_mem_erase hp)
    refine ⟨u, hu, fun x q b hx => ?_⟩
    obtain ⟨hne, hx⟩ := hold hx
    rw [htime u hne]
    exact hw x q b hx
  · exact h.waiting u x q b (hold hu).2
  · obtain ⟨u, b, hu⟩ := h.listed x q hq
    refine ⟨u, b, ?_⟩
    rw [hpc u (ne_of_running hrun hu)]
    exact hu
  · obtain ⟨hne, hu⟩ := hold hu
    rw [htime u hne]
    exact h.forever u x q hu
  · refine held_of_owners (t := t) (fun _ => rfl) hpc fun x _ => ?_
    rw [hself, hrun]
    rfl

theorem undelay (h : MutexInv c s) (hdelayed : s.pc t = .delayed) :
    MutexInv c { s with pc := Function.update s.pc t .running } := by
  have hold : ∀ {u x q b}, Function.update s.pc t .running u = .acquiring x q b → s.pc u = .acquiring x q b :=
    fun hu => (acquiring_of_update hu).2
  refine ⟨⟨fun p hp => ?_, fun u x q b hu => h.waiting u x q b (hold hu), fun x q hq => ?_, h.count,
    h.available, fun u x q hu => h.forever u x q (hold hu)⟩,
    h.sameOwners rfl rfl ?_ fun _ => rfl⟩
  · obtain ⟨u, hu, hw⟩ := h.ready p hp
    exact ⟨u, hu, fun x q b hx => hw x q b (hold hx)⟩
  · obtain ⟨u, b, hu⟩ := h.listed x q hq
    refine ⟨u, b, ?_⟩
    dsimp only
    rw [Function.update_of_ne, hu]
    rintro rfl
    rw [hdelayed] at hu
    cases hu
  · refine held_of_owners (t := t) (fun _ => rfl) (fun u hu => Function.update_of_ne hu ..) fun x _ => ?_
    dsimp only
    rw [Function.update_self, hdelayed]
    rfl

theorem tick (h : MutexInv c s) (hticks : s.timeToWait t = .ticks) : MutexInv c (osTickHandler s t) := by
  have hself : (osTickHandler s t).timeToWait t = .exitByTimeout := Function.update_self _ _ _
  have htime : ∀ u, u ≠ t → (osTickHandler s t).timeToWait u = s.timeToWait u :=
    fun u hu => Function.update_of_ne hu _ _
  -- a task that waits without a limit is not in the delay list
  have hlimit : ∀ x q b, s.pc t = .acquiring x q b → b = true := by
    intro x q b hx
    cases b with
    | true => rfl
    | false => exact absurd hticks (h.forever t x q hx)
  refine ⟨⟨fun p hp => ?_, h.waiting, h.listed, h.count, h.available, fun u x q hu => ?_⟩,
    h.sameOwners rfl rfl (fun u x => Iff.rfl) fun _ => rfl⟩
  · rcases Finset.mem_insert.mp hp with rfl | hp
    · exact ⟨t, rfl, fun x q b hx => .inr ⟨hlimit x q b hx, hself⟩⟩
    · obtain ⟨u, hu, hw⟩ := h.ready p hp
      refine ⟨u, hu, fun x q b hx => ?_⟩
      by_cases hut : u = t
      · rw [hut] at hx ⊢
        exact .inr ⟨hlimit x q b hx, hself⟩
      · rw [htime u hut]
        exact hw x q b hx
  · by_cases hut : u = t
    · rw [hut, hself]
      exact nofun
    · rw [htime u hut]
      exact h.forever u x q hu

variable [DecidableEq μ]

theorem wait (h : MutexInv c s) (hrun : s.pc t = .running) (howner : (s.mutexes m).osEventOwner ≠ .task t)
    {timeWait : WaitTime} (hbusy : (s.mutexes m).osEventState ≠ .availableResource)
    (hwait : timeWait ≠ .noTimeout) : MutexInv c (osMutexAcquire c s t m timeWait) := by
  unfold osMutexAcquire
  dsimp only
  rw [if_neg howner, if_neg hbusy, if_neg hwait]
  generalize htw : (if timeWait = .ticks then TimeToWait.ticks else .noTimeout) = tw
  generalize hz : ({ s.mutexes m with
    osEventWait := (s.mutexes m).osEventWait + 1
    osEventWaitList := insert (s.priority t) (s.mutexes m).osEventWaitList } : BrtosMutex τ) = z
  have hpc : ∀ u, u ≠ t → Function.update s.pc t
      (.acquiring m (s.priority t) (decide (timeWait = .ticks))) u = s.pc u :=
    fun u hu => Function.update_of_ne hu _ _
  have hself : Function.update s.pc t (.acquiring m (s.priority t) (decide (timeWait = .ticks))) t =
      .acquiring m (s.priority t) (decide (timeWait = .ticks)) := Function.update_self _ _ _
  have hnew : s.priority t ∉ (s.mutexes m).osEventWaitList := by
    intro hin
    obtain ⟨u, b, hu⟩ := h.listed m _ hin
    exact ne_of_running hrun hu (h.ceiling.priority_inj (h.waiting u m _ b hu).1)
  have hzo : z.osEventOwner = (s.mutexes m).osEventOwner := by rw [← hz]
  have hzl : z.osEventWaitList = insert (s.priority t) (s.mutexes m).osEventWaitList := by rw [← hz]
  have howners : ∀ x, ((s.setMutex m z).mutexes x).osEventOwner = (s.mutexes x).osEventOwner :=
    setMutex_field BrtosMutex.osEventOwner (by rw [← hz])
  refine ⟨⟨fun p hp => ?_, fun u x q b hu => ?_, fun x q hq => ?_, fun x => ?_, fun x hx => ?_,
    fun u x q hu => ?_⟩, h.sameOwners rfl rfl ?_ fun x => ?_⟩
  · obtain ⟨hne, hp⟩ := Finset.mem_erase.mp hp
    obtain ⟨u, hu, hw⟩ := h.ready p hp
    have hut : u ≠ t := by
      rintro rfl
      exact hne hu.symm
    refine ⟨u, hu, fun x q b hx => ?_⟩
    dsimp only at hx ⊢
    rw [hpc u hut] at hx
    rw [howners, Function.update_of_ne hut]
    exact hw x q b hx
  · dsimp only at hu ⊢
    rw [howners]
    by_cases hut : u = t
    · rw [hut, hself] at hu
      cases hu
      refine ⟨by rw [hut]; rfl, ?_⟩
      rw [setMutex_mutexes, if_pos rfl, hzl, hut]
      exact iff_of_true (Finset.mem_insert_self _ _) howner
    · rw [hpc u hut] at hu
      obtain ⟨hq, hlist⟩ := h.waiting u x q b hu
      refine ⟨hq, ?_⟩
      rw [setMutex_mutexes]
      split
      · rename_i hx
        rw [hzl, Finset.mem_insert, ← hlist, hx]
        have hqt : q ≠ s.priority t := fun he => hut (h.ceiling.priority_inj (hq.trans he))
        exact or_iff_right hqt
      · exact hlist
  · dsimp only at hq ⊢
    rw [setMutex_mutexes] at hq
    have hold : q ∈ (s.mutexes x).osEventWaitList ∨ (x = m ∧ q = s.priority t) := by
      split at hq
      · rename_i hx
        rw [hzl] at hq
        rcases Finset.mem_insert.mp hq with hq | hq
        · exact .inr ⟨hx, hq⟩
        · exact .inl (hx ▸ hq)
      · exact .inl hq
    rcases hold with hq | ⟨rfl, rfl⟩
    · obtain ⟨u, b, hu⟩ := h.listed x q hq
      exact ⟨u, b, (hpc u (ne_of_running hrun hu)).trans hu⟩
    · exact ⟨t, _, hself⟩
  · dsimp only
    rw [setMutex_mutexes]
    split
    · rw [hzl, Finset.card_insert_of_notMem hnew, ← h.count m, ← hz]
    · exact h.count x
  · dsimp only at hx ⊢
    rw [howners]
    rw [setMutex_mutexes] at hx
    split at hx
    · rw [← hz] at hx
      exact absurd hx hbusy
    · exact h.available x hx
  · dsimp only at hu ⊢
    by_cases hut : u = t
    · rw [hut, hself] at hu
      have hb : decide (timeWait = .ticks) = false := by
        injection hu
      rw [hut, Function.update_self, ← htw, if_neg (of_decide_eq_false hb)]
      exact nofun
    · rw [hpc u hut] at hu
      rw [Function.update_of_ne hut]
      exact h.forever u x q hu
  · refine held_of_owners (t := t) howners hpc fun x hx => ?_
    dsimp only
    rw [hself, hrun]
    refine iff_of_false (fun he => ?_) nofun
    exact howner (Option.some.inj he ▸ hx)
  · exact setMutex_field BrtosMutex.osOriginalPriority (by rw [← hz]) x

/-! ## A mutex is taken -/

theorem takeCeiling (hq : QueueInv s) (hrun : s.pc t = .running)
    (howner : (s.mutexes m).osEventOwner = .task t)
    (hinj : ∀ u, s.priority u = s.priority t → u = t)
    (hc : CeilingInv c s.priority s.priorityVector (fun u x => s.Held u x ∧ x ≠ m) s.saved) :
    MutexInv c (s.takeCeiling c t m (s.priority t)) := by
  generalize hz : ({ s.mutexes m with osOriginalPriority := s.priority t } : BrtosMutex τ) = z
  have heq : s.takeCeiling c t m (s.priority t) =
      { s.setMutex m z with
        priority := if s.priority t < c.osMaxPriority m then
          Function.update s.priority t (c.osMaxPriority m) else s.priority
        priorityVector := if s.priority t < c.osMaxPriority m then
          Function.update s.priorityVector (c.osMaxPriority m) (.task t) else s.priorityVector
        osReadyList := if s.priority t < c.osMaxPriority m then
          insert (c.osMaxPriority m) (s.osReadyList.erase (s.priority t)) else s.osReadyList } := by
    unfold MutexSys.takeCeiling
    dsimp only
    rw [hz]
    split <;> rfl
  rw [heq]
  have hother : ∀ u, u ≠ t → (if s.priority t < c.osMaxPriority m then
      Function.update s.priority t (c.osMaxPriority m) else s.priority) u = s.priority u := by
    intro u hu
    split
    · exact Function.update_of_ne hu _ _
    · rfl
  have howners : ∀ x, ((s.setMutex m z).mutexes x).osEventOwner = (s.mutexes x).osEventOwner :=
    setMutex_field BrtosMutex.osEventOwner (by rw [← hz])
  have hlists : ∀ x, ((s.setMutex m z).mutexes x).osEventWaitList = (s.mutexes x).osEventWaitList :=
    setMutex_field BrtosMutex.osEventWaitList (by rw [← hz])
  refine ⟨⟨fun p hp => ?_, fun u x q b hu => ?_, fun x q hin => ?_, fun x => ?_, fun x hx => ?_,
    hq.forever⟩, hc.take (m := m) (t := t) (fun u hu => hu.2 rfl) (fun u x => ?_) ?_ (fun x hx => ?_) rfl rfl⟩
  · have hold : p ∈ s.osReadyList ∧ (s.priority t < c.osMaxPriority m → p ≠ s.priority t) ∨
        p = c.osMaxPriority m ∧ s.priority t < c.osMaxPriority m := by
      dsimp only at hp
      split at hp
      · rename_i hraise
        rcases Finset.mem_insert.mp hp with rfl | hp
        · exact .inr ⟨rfl, hraise⟩
        · exact .inl ⟨Finset.mem_of_mem_erase hp, fun _ => Finset.ne_of_mem_erase hp⟩
      · rename_i hno
        exact .inl ⟨hp, fun hraise => absurd hraise hno⟩
    rcases hold with ⟨hp, hne⟩ | ⟨rfl, hraise⟩
    · obtain ⟨u, hu, hw⟩ := hq.ready p hp
      refine ⟨u, ?_, fun x q b hx => ?_⟩
      · dsimp only
        by_cases hut : u = t
        · rw [if_neg fun hraise => hne hraise (hut ▸ hu).symm]
          exact hu
        · rw [hother u hut]
          exact hu
      · dsimp only
        rw [howners]
        exact hw x q b hx
    · refine ⟨t, ?_, fun x q b hx => absurd rfl (ne_of_running hrun hx)⟩
      dsimp only
      rw [if_pos hraise, Function.update_self]
  · dsimp only
    rw [hother u (ne_of_running hrun hu), howners, hlists]
    exact hq.waiting u x q b hu
  · dsimp only at hin
    rw [hlists] at hin
    exact hq.listed x q hin
  · dsimp only
    rw [hlists, ← hq.count x]
    exact setMutex_field BrtosMutex.osEventWait (by rw [← hz]) x
  · dsimp only at hx ⊢
    rw [howners]
    refine hq.available x ?_
    rw [setMutex_mutexes] at hx
    split at hx
    · rename_i hxm
      rw [← hz] at hx
      rw [hxm]
      exact hx
    · exact hx
  · unfold MutexSys.Held
    dsimp only
    rw [howners]
    by_cases hx : x = m
    · rw [hx, howner]
      constructor
      · rintro ⟨hu, _⟩
        cases hu
        exact .inr ⟨rfl, rfl⟩
      · rintro (⟨_, hne⟩ | ⟨rfl, _⟩)
        · exact absurd rfl hne
        · refine ⟨rfl, ?_⟩
          show (s.pc u).waitsFor ≠ some m
          rw [hrun]
          exact nofun
    · exact ⟨fun hh => .inl ⟨hh, hx⟩, fun hh => hh.elim And.left fun he => absurd he.2 hx⟩
  · show ((s.setMutex m z).mutexes m).osOriginalPriority = s.priority t
    rw [setMutex_mutexes, if_pos rfl, ← hz]
  · show ((s.setMutex m z).mutexes x).osOriginalPriority = (s.mutexes x).osOriginalPriority
    rw [setMutex_mutexes, if_neg hx]

theorem acquireFree (h : MutexInv c s) (hrun : s.pc t = .running)
    (howner : (s.mutexes m).osEventOwner ≠ .task t)
    (hfree : (s.mutexes m).osEventState = .availableResource) {timeWait : WaitTime} :
    MutexInv c (osMutexAcquire c s t m timeWait) := by
  unfold osMutexAcquire
  dsimp only
  rw [if_neg howner, if_pos hfree]
  have hzero := h.available m hfree
  generalize hz : ({ s.mutexes m with
    osEventState := .busyResource, osEventOwner := .task t } : BrtosMutex τ) = z
  have hzo : z.osEventOwner = .task t := by rw [← hz]
  have hzl : z.osEventWaitList = (s.mutexes m).osEventWaitList := by rw [← hz]
  have hlists : ∀ x, ((s.setMutex m z).mutexes x).osEventWaitList = (s.mutexes x).osEventWaitList :=
    setMutex_field BrtosMutex.osEventWaitList (by rw [← hz])
  have hno : ∀ u, (s.mutexes m).osEventOwner ≠ .task u := by
    intro u hu
    rw [hzero] at hu
    cases hu
  have hqueue : QueueInv (s.setMutex m z) := by
    refine ⟨fun p hp => ?_, fun u x q b hu => ?_, fun x q hin => ?_, fun x => ?_, fun x hx => ?_,
      h.forever⟩
    · obtain ⟨u, hu, hw⟩ := h.ready p hp
      refine ⟨u, hu, fun x q b hx => (hw x q b hx).imp (fun ho => ?_) id⟩
      rw [setMutex_mutexes, if_neg]
      · exact ho
      · rintro rfl
        exact hno u ho
    · obtain ⟨hq, hlist⟩ := h.waiting u x q b hu
      refine ⟨hq, ?_⟩
      rw [hlists, hlist, setMutex_mutexes]
      split
      · rename_i hx
        rw [hx, hzo]
        refine iff_of_true (hno u) fun he => ?_
        cases he
        exact ne_of_running hrun hu rfl
      · rfl
    · rw [hlists] at hin
      exact h.listed x q hin
    · rw [hlists, ← h.count x]
      exact setMutex_field BrtosMutex.osEventWait (by rw [← hz]) x
    · rw [setMutex_mutexes] at hx ⊢
      split at hx
      · rw [← hz] at hx
        cases hx
      · rename_i hxm
        rw [if_neg hxm]
        exact h.available x hx
  refine takeCeiling (s := s.setMutex m z) hqueue hrun ?_ (fun u hu => h.ceiling.priority_inj hu) ?_
  · rw [setMutex_mutexes, if_pos rfl, hzo]
  · have hsaved : (s.setMutex m z).saved = s.saved :=
      funext (setMutex_field BrtosMutex.osOriginalPriority (by rw [← hz]))
    rw [hsaved]
    refine h.ceiling.congr fun u x => ?_
    unfold MutexSys.Held
    rw [setMutex_mutexes]
    by_cases hx : x = m
    · rw [hx]
      exact iff_of_false (fun hh => hh.2 rfl) fun hh => hno u hh.1
    · rw [if_neg hx]
      exact ⟨And.left, fun hh => ⟨hh, hx⟩⟩

theorem acquire (h : MutexInv c s) (hrun : s.pc t = .running) {timeWait : WaitTime} :
    MutexInv c (osMutexAcquire c s t m timeWait) := by
  by_cases howner : (s.mutexes m).osEventOwner = .task t
  · unfold osMutexAcquire
    dsimp only
    rw [if_pos howner]
    exact h
  · by_cases hfree : (s.mutexes m).osEventState = .availableResource
    · exact h.acquireFree hrun howner hfree
    · by_cases hwait : timeWait = .noTimeout
      · unfold osMutexAcquire
        dsimp only
        rw [if_neg howner, if_neg hfree, if_pos hwait]
        exact h
      · exact h.wait hrun howner hfree hwait

theorem timedOut (h : MutexInv c s) {q : Nat} {b : Bool} (hpc : s.pc t = .acquiring m q b)
    (hin : q ∈ (s.mutexes m).osEventWaitList) :
    MutexInv c ({ s with pc := Function.update s.pc t .running }.setMutex m { s.mutexes m with
      osEventWaitList := (s.mutexes m).osEventWaitList.erase q
      osEventWait := (s.mutexes m).osEventWait - 1 }) := by
  obtain ⟨hprio, hlist⟩ := h.waiting t m q b hpc
  have howner := hlist.mp hin
  generalize hz : ({ s.mutexes m with
    osEventWaitList := (s.mutexes m).osEventWaitList.erase q
    osEventWait := (s.mutexes m).osEventWait - 1 } : BrtosMutex τ) = z
  generalize hs' : ({ s with pc := Function.update s.pc t .running } : MutexSys τ μ) = s'
  have hmutexes : ∀ x, (s'.setMutex m z).mutexes x = if x = m then z else s.mutexes x := by
    intro x
    rw [setMutex_mutexes, ← hs']
  have howners : ∀ x, ((s'.setMutex m z).mutexes x).osEventOwner = (s.mutexes x).osEventOwner := by
    intro x
    rw [hmutexes]
    split
    · rename_i hx
      rw [← hz, hx]
    · rfl
  have hspc : ∀ {u x p d}, (s'.setMutex m z).pc u = .acquiring x p d →
      u ≠ t ∧ s.pc u = .acquiring x p d := by
    intro u x p d hu
    rw [← hs'] at hu
    exact acquiring_of_update hu
  refine ⟨⟨fun p hp => ?_, fun u x p d hu => ?_, fun x p hp => ?_, fun x => ?_, fun x hx => ?_,
    fun u x p hu => ?_⟩, h.sameOwners ?_ ?_ ?_ fun x => ?_⟩
  · rw [← hs'] at hp
    obtain ⟨u, hu, hw⟩ := h.ready p hp
    refine ⟨u, by rw [← hs']; exact hu, fun x p d hx => ?_⟩
    rw [howners, ← hs']
    exact hw x p d (hspc hx).2
  · obtain ⟨hut, hu⟩ := hspc hu
    obtain ⟨hp, hlist⟩ := h.waiting u x p d hu
    refine ⟨by rw [← hs']; exact hp, ?_⟩
    rw [howners, ← hlist, hmutexes]
    split
    · rename_i hx
      rw [← hz, hx]
      have hne : p ≠ q := fun he => hut (h.ceiling.priority_inj (hp.trans (he.trans hprio.symm)))
      exact ⟨Finset.mem_of_mem_erase, fun hp => Finset.mem_erase.mpr ⟨hne, hp⟩⟩
    · rfl
  · rw [hmutexes] at hp
    have hp : p ∈ (s.mutexes x).osEventWaitList ∧ (x = m → p ≠ q) := by
      split at hp
      · rename_i hx
        rw [← hz] at hp
        rw [hx]
        exact ⟨Finset.mem_of_mem_erase hp, fun _ => Finset.ne_of_mem_erase hp⟩
      · rename_i hx
        exact ⟨hp, fun he => absurd he hx⟩
    obtain ⟨u, d, hu⟩ := h.listed x p hp.1
    refine ⟨u, d, ?_⟩
    rw [← hs']
    show Function.update s.pc t .running u = _
    rw [Function.update_of_ne, hu]
    rintro rfl
    rw [hpc] at hu
    cases hu
    exact hp.2 rfl rfl
  · rw [hmutexes]
    split
    · rw [← hz, Finset.card_erase_of_mem hin, h.count]
    · exact h.count x
  · rw [howners]
    refine h.available x ?_
    rw [hmutexes] at hx
    split at hx
    · rename_i hxm
      rw [← hz] at hx
      rw [hxm]
      exact hx
    · exact hx
  · rw [← hs']
    exact h.forever u x p (hspc hu).2
  · rw [← hs']
    rfl
  · rw [← hs']
    rfl
  · refine held_of_owners (t := t) howners (fun u hu => ?_) fun x hx => ?_
    · rw [← hs']
      exact Function.update_of_ne hu ..
    · rw [← hs']
      show (Function.update s.pc t .running t).waitsFor = some x ↔ _
      rw [Function.update_self, hpc]
      exact iff_of_false nofun fun he => howner (Option.some.inj he ▸ hx)
  · unfold MutexSys.saved
    rw [hmutexes]
    split
    · rename_i hx
      rw [← hz, hx]
    · rfl

theorem handed (h : MutexInv c s) {q : Nat} {b : Bool} (hpc : s.pc t = .acquiring m q b)
    (howner : (s.mutexes m).osEventOwner = .task t) {timeToWait : τ → TimeToWait}
    (htw : ∀ u, u ≠ t → timeToWait u = s.timeToWait u) :
    MutexInv c ({ s with timeToWait := timeToWait, pc := Function.update s.pc t .running }.takeCeiling c t m
      (s.priority t)) := by
  have hlist := (h.waiting t m q b hpc).2
  refine takeCeiling (s := { s with timeToWait := timeToWait, pc := Function.update s.pc t .running })
    ⟨fun p hp => ?_, fun u x p d hu => h.waiting u x p d (acquiring_of_update hu).2, fun x p hp => ?_, h.count,
      h.available, fun u x p hu => ?_⟩ (Function.update_self _ _ _) howner
    (fun u hu => h.ceiling.priority_inj hu) ?_
  · obtain ⟨u, hu, hw⟩ := h.ready p hp
    refine ⟨u, hu, fun x p d hx => ?_⟩
    obtain ⟨hut, hx⟩ := acquiring_of_update hx
    dsimp only
    rw [htw u hut]
    exact hw x p d hx
  · obtain ⟨u, d, hu⟩ := h.listed x p hp
    refine ⟨u, d, ?_⟩
    dsimp only
    rw [Function.update_of_ne, hu]
    rintro rfl
    rw [hpc] at hu
    cases hu
    exact hlist.mp hp howner
  · obtain ⟨hut, hu⟩ := acquiring_of_update hu
    dsimp only
    rw [htw u hut]
    exact h.forever u x p hu
  · refine h.ceiling.congr fun u x => ?_
    unfold MutexSys.Held
    dsimp only
    by_cases hut : u = t
    · rw [hut, hpc, Function.update_self]
      exact ⟨fun hh => ⟨hh.1.1, fun he => hh.2 (Option.some.inj he).symm⟩,
        fun hh => ⟨⟨hh.1, nofun⟩, fun he => hh.2 (congrArg some he.symm)⟩⟩
    · rw [Function.update_of_ne hut]
      refine ⟨And.left, fun hh => ⟨hh, ?_⟩⟩
      rintro rfl
      rw [howner] at hh
      cases hh.1
      exact hut rfl

theorem resumed (h : MutexInv c s) (ht : s.Selected t) {q : Nat} {b : Bool}
    (hpc : s.pc t = .acquiring m q b) : MutexInv c (osMutexAcquireResumed c s t m q b) := by
  obtain ⟨hprio, hlist⟩ := h.waiting t m q b hpc
  unfold osMutexAcquireResumed
  dsimp only
  split
  · rename_i hover
    exact h.timedOut hpc hover.2.2
  · rename_i hover
    have howner : (s.mutexes m).osEventOwner = .task t := by
      rcases h.selected ht hpc with ho | ⟨hb, hexit⟩
      · exact ho
      · by_contra hne
        exact hover ⟨hb, hexit, hlist.mpr hne⟩
    rw [← hprio]
    split
    · exact h.handed hpc howner fun u hu => Function.update_of_ne hu ..
    · exact h.handed hpc howner fun _ _ => rfl

end MutexInv

end Unet4Cooja
