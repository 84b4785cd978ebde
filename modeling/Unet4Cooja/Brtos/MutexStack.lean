import Unet4Cooja.Brtos.TaskStep

/-!
# Mutexes given back in reverse order

* `OwnerEvent`, `OwnerStep` : a step in which a mutex is taken, given back, or neither;
* `ownerStep_acquire`, `ownerStep_resumed`, `ownerStep_release` : what the functions do;
* `Backed` : the priorities that are saved along the mutexes a task has taken;
* `StackInv` : what holds of these mutexes; `StackInv.step` keeps it, and `StackInv.releaseKept` reads it.
-/

namespace Unet4Cooja

variable {τ μ : Type*}

inductive OwnerEvent (τ μ : Type*)
  | none
  | takes (t : τ) (m : μ)
  | gives (t : τ) (m : μ)

/-- The mutexes that the tasks have taken, the last one first. -/
def OwnerEvent.stack [DecidableEq τ] [DecidableEq μ] (stack : τ → List μ) : OwnerEvent τ μ → τ → List μ
  | .none => stack
  | .takes t m => Function.update stack t (m :: stack t)
  | .gives t m => Function.update stack t ((stack t).erase m)

variable [DecidableEq τ] [DecidableEq μ]

/-- What the event does to priorities, to what is saved, and to who knows what he owns. -/
inductive OwnerStep (c : Priorities τ μ) (s s' : MutexSys τ μ) : OwnerEvent τ μ → Prop
  | none (hp : s'.priority = s.priority) (hs : s'.saved = s.saved) (hh : ∀ u x, s'.Held u x ↔ s.Held u x) :
      OwnerStep c s s' .none
  | takes (t : τ) (m : μ) (hfree : ∀ u, ¬s.Held u m)
      (hp : s'.priority = Function.update s.priority t (max (s.priority t) (c.osMaxPriority m)))
      (hs : s'.saved = Function.update s.saved m (s.priority t))
      (hh : ∀ u x, s'.Held u x ↔ s.Held u x ∨ (u = t ∧ x = m)) : OwnerStep c s s' (.takes t m)
  | gives (t : τ) (m : μ) (hp : s'.priority = Function.update s.priority t (s.saved m)) (hs : s'.saved = s.saved)
      (hh : ∀ u x, s'.Held u x ↔ s.Held u x ∧ ¬(u = t ∧ x = m)) : OwnerStep c s s' (.gives t m)

/-! ## The functions -/

section
variable {c : Priorities τ μ} {s s' v : MutexSys τ μ} {t : τ} {m : μ} {q : Nat} {b : Bool}

theorem OwnerStep.takeCeiling (hfree : ∀ u, ¬s.Held u m) (hp : v.priority = s.priority) (hs : v.saved = s.saved)
    (hq : s.priority t = q) (hh : ∀ u x, v.Held u x ↔ s.Held u x ∨ (u = t ∧ x = m)) :
    OwnerStep c s (v.takeCeiling c t m q) (.takes t m) := by
  subst hq
  have hsaved : (v.setMutex m { v.mutexes m with osOriginalPriority := s.priority t }).saved =
      Function.update s.saved m (s.priority t) := by
    funext x
    unfold MutexSys.saved
    rw [setMutex_mutexes, Function.update_apply]
    split
    · rfl
    · exact congrFun hs x
  have howners : ∀ u x, (v.setMutex m { v.mutexes m with osOriginalPriority := s.priority t }).Held u x ↔
      s.Held u x ∨ (u = t ∧ x = m) := by
    intro u x
    rw [← hh]
    exact held_of_owners (t := t) (setMutex_field BrtosMutex.osEventOwner (by rfl)) (fun _ _ => rfl) (fun _ _ => Iff.rfl) u x
  unfold MutexSys.takeCeiling
  dsimp only
  split
  · rename_i hlt
    refine .takes t m hfree ?_ hsaved howners
    show Function.update v.priority t _ = _
    rw [hp, max_eq_right hlt.le]
  · rename_i hno
    refine .takes t m hfree ?_ hsaved howners
    rw [max_eq_left (not_lt.mp hno), Function.update_eq_self]
    exact hp

theorem ownerStep_acquire (hq : QueueInv s) (hrun : s.pc t = .running) (timeWait : WaitTime) :
    OwnerStep c s (osMutexAcquire c s t m timeWait)
      (if (s.mutexes m).osEventOwner ≠ .task t ∧ (s.mutexes m).osEventState = .availableResource then .takes t m
      else .none) := by
  unfold osMutexAcquire
  dsimp only
  by_cases howner : (s.mutexes m).osEventOwner = .task t
  · rw [if_pos howner, if_neg fun h => h.1 howner]
    exact .none rfl rfl fun _ _ => Iff.rfl
  · rw [if_neg howner]
    by_cases hstate : (s.mutexes m).osEventState = .availableResource
    · rw [if_pos hstate, if_pos ⟨howner, hstate⟩]
      have hfree : ∀ u, ¬s.Held u m := by
        intro u hu
        exact nomatch (hq.available m hstate).symm.trans hu.1
      refine OwnerStep.takeCeiling hfree rfl (funext (setMutex_field BrtosMutex.osOriginalPriority (by rfl))) rfl fun u x => ?_
      unfold MutexSys.Held
      rw [setMutex_mutexes]
      by_cases hx : x = m
      · rw [if_pos hx, hx]
        constructor
        · rintro ⟨hu, -⟩
          exact Or.inr ⟨(TaskNumber.task.inj hu).symm, rfl⟩
        · rintro (hu | ⟨rfl, -⟩)
          · exact absurd hu (hfree u)
          · refine ⟨rfl, ?_⟩
            show (s.pc u).waitsFor ≠ some m
            rw [hrun]
            exact nofun
      · rw [if_neg hx]
        exact ⟨Or.inl, fun h => h.elim id fun he => absurd he.2 hx⟩
    · have hno : ¬((s.mutexes m).osEventOwner ≠ .task t ∧ (s.mutexes m).osEventState = .availableResource) :=
        fun h => hstate h.2
      rw [if_neg hstate, if_neg hno]
      split
      · exact .none rfl rfl fun _ _ => Iff.rfl
      · refine .none rfl (funext (setMutex_field BrtosMutex.osOriginalPriority (by rfl))) ?_
        refine held_of_owners (t := t) (setMutex_field BrtosMutex.osEventOwner (by rfl))
          (fun u hu => Function.update_of_ne hu ..) fun x hx => ?_
        dsimp only
        rw [Function.update_self, hrun]
        refine iff_of_false (fun he => ?_) nofun
        exact howner (Option.some.inj he ▸ hx)

/-- A wait that ends before the mutex is handed over. -/
def MutexSys.WaitOver (s : MutexSys τ μ) (t : τ) (m : μ) (iPriority : Nat) (timeWait : Bool) : Prop :=
  timeWait = true ∧ s.timeToWait t = .exitByTimeout ∧ iPriority ∈ (s.mutexes m).osEventWaitList

omit [DecidableEq τ] [DecidableEq μ] in
instance (s : MutexSys τ μ) (t : τ) (m : μ) (iPriority : Nat) (timeWait : Bool) :
    Decidable (s.WaitOver t m iPriority timeWait) := inferInstanceAs (Decidable (_ ∧ _))

theorem ownerStep_resumed (hpc : s.pc t = .acquiring m q b) (hp : s.priority t = q)
    (howner : (s.mutexes m).osEventOwner = .task t ↔ ¬s.WaitOver t m q b) :
    OwnerStep c s (osMutexAcquireResumed c s t m q b) (if s.WaitOver t m q b then .none else .takes t m) := by
  unfold osMutexAcquireResumed
  dsimp only
  by_cases hover : s.WaitOver t m q b
  · have hno : (s.mutexes m).osEventOwner ≠ .task t := fun h => howner.mp h hover
    rw [if_pos hover]
    unfold MutexSys.WaitOver at hover
    rw [if_pos hover]
    refine .none rfl (funext (setMutex_field BrtosMutex.osOriginalPriority (by rfl))) ?_
    refine held_of_owners (t := t) (setMutex_field BrtosMutex.osEventOwner (by rfl))
      (fun u hu => Function.update_of_ne hu ..) fun x hx => ?_
    show (Function.update s.pc t .running t).waitsFor = some x ↔ _
    rw [Function.update_self, hpc]
    refine iff_of_false nofun fun he => ?_
    exact hno (Option.some.inj he ▸ hx)
  · have hto := howner.mpr hover
    have hfree : ∀ u, ¬s.Held u m := by
      rintro u ⟨hu, hwaits⟩
      obtain rfl := TaskNumber.task.inj (hto.symm.trans hu)
      exact hwaits (congrArg TaskPc.waitsFor hpc)
    have hheld : ∀ u x, (s.mutexes x).osEventOwner = .task u ∧ (Function.update s.pc t .running u).waitsFor ≠ some x ↔
        s.Held u x ∨ (u = t ∧ x = m) := by
      intro u x
      unfold MutexSys.Held
      by_cases hu : u = t
      · rw [hu, Function.update_self, hpc]
        constructor
        · rintro ⟨hx, -⟩
          by_cases hxm : x = m
          · exact Or.inr ⟨rfl, hxm⟩
          · exact Or.inl ⟨hx, fun he => hxm (Option.some.inj he).symm⟩
        · rintro (hx | ⟨-, rfl⟩)
          · exact ⟨hx.1, nofun⟩
          · exact ⟨hto, nofun⟩
      · rw [Function.update_of_ne hu]
        exact ⟨Or.inl, fun h => h.elim id fun he => absurd he.1 hu⟩
    rw [if_neg hover]
    unfold MutexSys.WaitOver at hover
    rw [if_neg hover]
    split
    · exact .takeCeiling hfree rfl rfl hp hheld
    · exact .takeCeiling hfree rfl rfl hp hheld

/-- `OSMutexRelease` of the owner gives the mutex back, or hands it over to a task that still waits. -/
theorem ownerStep_release (hwaiter : (s.mutexes m).osEventWait ≠ 0 → ∃ w q b,
    s.priorityVector (saScheduler (s.mutexes m).osEventWaitList) = .task w ∧ s.pc w = .acquiring m q b) :
    OwnerStep c s (osMutexRelease c s t m) (if (s.mutexes m).osEventOwner = .task t then .gives t m else .none) := by
  by_cases howner : (s.mutexes m).osEventOwner = .task t
  · rw [if_pos howner]
    unfold osMutexRelease
    dsimp only
    rw [if_neg (not_not.mpr howner)]
    generalize hv : (if s.priority t ≠ (s.mutexes m).osOriginalPriority then
        { s with
          osReadyList := insert (s.mutexes m).osOriginalPriority (s.osReadyList.erase (s.priority t))
          priority := Function.update s.priority t (s.mutexes m).osOriginalPriority }
      else s) = v
    have hrestored : v.priority = Function.update s.priority t (s.saved m) ∧ v.mutexes = s.mutexes ∧ v.pc = s.pc ∧
        v.priorityVector = s.priorityVector := by
      rw [← hv]
      split
      · exact ⟨rfl, rfl, rfl, rfl⟩
      · rename_i hsame
        refine ⟨?_, rfl, rfl, rfl⟩
        rw [← Function.update_eq_self t s.priority, not_not.mp hsame, Function.update_idem]
        rfl
    obtain ⟨hp, hm, hpc, hvector⟩ := hrestored
    -- who owns the mutex now does not know it
    have hgiven : ∀ {s' : MutexSys τ μ} {z : BrtosMutex τ}, s'.mutexes = (v.setMutex m z).mutexes → s'.pc = v.pc →
        s'.priority = v.priority → z.osOriginalPriority = s.saved m →
        (∀ u, z.osEventOwner = .task u → (s.pc u).waitsFor = some m) → OwnerStep c s s' (.gives t m) := by
      intro s' z hm' hpc' hp' hz hnew
      have hmutexes : ∀ x, s'.mutexes x = if x = m then z else s.mutexes x := by
        intro x
        rw [hm', setMutex_mutexes, hm]
      refine .gives t m (hp'.trans hp) (funext fun x => ?_) fun u x => ?_
      · unfold MutexSys.saved
        rw [hmutexes]
        split
        · rename_i hx
          rw [hz, hx]
          rfl
        · rfl
      · unfold MutexSys.Held
        rw [hmutexes, hpc', hpc]
        by_cases hx : x = m
        · rw [if_pos hx, hx]
          refine iff_of_false (fun h => h.2 (hnew u h.1)) ?_
          rintro ⟨⟨hu, -⟩, hne⟩
          exact hne ⟨TaskNumber.task.inj (hu.symm.trans howner), rfl⟩
        · rw [if_neg hx]
          exact ⟨fun h => ⟨h, fun he => hx he.2⟩, And.left⟩
    split
    · rename_i hwait
      obtain ⟨w, q, b, hw, hwaits⟩ := hwaiter hwait
      refine hgiven rfl rfl rfl rfl fun u hu => ?_
      rw [hvector] at hu
      obtain rfl := TaskNumber.task.inj (hw.symm.trans hu)
      exact congrArg TaskPc.waitsFor hwaits
    · split
      · exact hgiven rfl rfl rfl rfl fun u hu => nomatch hu
      · exact hgiven rfl rfl rfl rfl fun u hu => nomatch hu
  · rw [if_neg howner, release_other howner]
    exact .none rfl rfl fun _ _ => Iff.rfl

end

/-! ## The stack -/

section
variable {ceiling saved saved' : μ → Nat} {base : Nat} {m : μ} {ms : List μ} {p : Nat}

/-- Each mutex has saved the priority that the task had from the ones before it, and `base` is the one without any. -/
def Backed (ceiling saved : μ → Nat) (base : Nat) : List μ → Nat → Prop
  | [], p => p = base
  | m :: ms, p => p = max (saved m) (ceiling m) ∧ Backed ceiling saved base ms (saved m)

omit [DecidableEq μ] in
theorem Backed.congr (h : Backed ceiling saved base ms p) (hs : ∀ m ∈ ms, saved' m = saved m) :
    Backed ceiling saved' base ms p := by
  induction ms generalizing p with
  | nil => exact h
  | cons m ms ih =>
    have hm := hs m List.mem_cons_self
    refine ⟨?_, ?_⟩
    · rw [hm]
      exact h.1
    · rw [hm]
      exact ih h.2 fun x hx => hs x (List.mem_cons_of_mem m hx)

omit [DecidableEq μ] in
theorem Backed.saved_le (h : Backed ceiling saved base ms p) (hm : m ∈ ms) : saved m ≤ p := by
  induction ms generalizing p with
  | nil => exact absurd hm List.not_mem_nil
  | cons x ms ih =>
    have hle : saved x ≤ p := h.1 ▸ le_max_left ..
    rcases List.mem_cons.mp hm with rfl | hm
    · exact hle
    · exact (ih h.2 hm).trans hle

end

/-- The mutexes that the tasks have taken are those they own and know it, and their priorities come from them. -/
structure StackInv (c : Priorities τ μ) (s : MutexSys τ μ) (stack : τ → List μ) : Prop where
  held : ∀ t m, m ∈ stack t ↔ s.Held t m
  nodup : ∀ t, (stack t).Nodup
  backed : ∀ t, Backed c.osMaxPriority s.saved (c.iPriority t) (stack t) (s.priority t)

namespace StackInv
variable {c : Priorities τ μ} {s s' : MutexSys τ μ} {stack : τ → List μ} {t : τ} {m : μ} {x : OwnerEvent τ μ}

omit [DecidableEq τ] [DecidableEq μ] in
theorem releaseKept (h : StackInv c s stack) (hrun : s.pc t = .running)
    (hlast : (s.mutexes m).osEventOwner = .task t → (stack t).head? = some m) : ReleaseKept c s (.release t m) := by
  intro howner hlt x hx hxt
  obtain ⟨ms, hms⟩ := List.head?_eq_some_iff.mp (hlast howner)
  have hb := h.backed t
  rw [hms] at hb
  have hxs : x ∈ stack t := (h.held t x).mpr ⟨hxt, by rw [hrun]; exact nofun⟩
  rw [hms] at hxs
  have hle := hb.2.saved_le ((List.mem_cons.mp hxs).resolve_left hx)
  exact (hle.trans_lt hlt).ne

theorem step (h : StackInv c s stack) (hx : OwnerStep c s s' x)
    (hlast : ∀ t m, x = .gives t m → (stack t).head? = some m) : StackInv c s' (x.stack stack) := by
  cases hx with
  | none hp hs hh =>
    refine ⟨fun t m => (h.held t m).trans (hh t m).symm, h.nodup, fun t => ?_⟩
    rw [hp, hs]
    exact h.backed t
  | takes t m hfree hp hs hh =>
    have hnew : ∀ u, m ∉ stack u := fun u hu => hfree u ((h.held u m).mp hu)
    have hbacked : ∀ u, Backed c.osMaxPriority s'.saved (c.iPriority u) (stack u) (s.priority u) := by
      intro u
      refine (h.backed u).congr fun x hx => ?_
      rw [hs, Function.update_of_ne]
      rintro rfl
      exact hnew u hx
    unfold OwnerEvent.stack
    dsimp only
    constructor
    · intro u x
      rw [hh, Function.update_apply]
      split
      · rename_i hu
        rw [List.mem_cons, hu, h.held]
        tauto
      · rename_i hu
        rw [h.held]
        exact ⟨Or.inl, fun h => h.elim id fun he => absurd he.1 hu⟩
    · intro u
      rw [Function.update_apply]
      split
      · exact List.nodup_cons.mpr ⟨hnew t, h.nodup t⟩
      · exact h.nodup u
    · intro u
      rw [hp, Function.update_apply, Function.update_apply]
      split
      · rename_i hu
        have hsaved : s'.saved m = s.priority t := by
          rw [hs, Function.update_self]
        rw [hu]
        refine ⟨?_, ?_⟩
        · rw [hsaved]
        · rw [hsaved]
          exact hbacked t
      · exact hbacked u
  | gives t m hp hs hh =>
    obtain ⟨ms, hms⟩ := List.head?_eq_some_iff.mp (hlast t m rfl)
    have hnodup := h.nodup t
    have hb := h.backed t
    rw [hms] at hnodup hb
    have hstack : OwnerEvent.stack stack (.gives t m) = Function.update stack t ms := by
      unfold OwnerEvent.stack
      dsimp only
      rw [hms, List.erase_cons_head]
    rw [hstack]
    constructor
    · intro u x
      rw [hh, Function.update_apply]
      split
      · rename_i hu
        rw [hu, ← h.held, hms, List.mem_cons]
        constructor
        · intro hx
          refine ⟨Or.inr hx, ?_⟩
          rintro ⟨-, rfl⟩
          exact (List.nodup_cons.mp hnodup).1 hx
        · rintro ⟨hx, hne⟩
          exact hx.resolve_left fun he => hne ⟨rfl, he⟩
      · rename_i hu
        rw [h.held]
        exact ⟨fun hx => ⟨hx, fun he => hu he.1⟩, And.left⟩
    · intro u
      rw [Function.update_apply]
      split
      · exact (List.nodup_cons.mp hnodup).2
      · exact h.nodup u
    · intro u
      rw [hp, hs, Function.update_apply, Function.update_apply]
      split
      · rename_i hu
        rw [hu]
        exact hb.2
      · exact h.backed u

end StackInv

end Unet4Cooja
