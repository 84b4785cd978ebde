import Unet4Cooja.Brtos.Timer

/-!
# The timer lists

* `BrtosTmrT.Ok` : a list whose entries 1 to `count` are not null and ordered by timeout;
* `BrtosTmrT.Ok.insert`, `BrtosTmrT.Ok.removeFirst`, `BrtosTmrT.Sinking.order`, `BrtosTmrT.Ok.stop` : what the
  insertions and removals of `stimer.c` do to such a list.
-/

namespace Unet4Cooja
open Lib

def timeoutOf (null : BrtosTimerT) (mem : BrtosTimer → BrtosTimerT) (x : Option BrtosTimer) : Nat :=
  (deref null mem x).timeout

/-- The entries 1 to `count`. -/
def BrtosTmrT.entries (l : BrtosTmrT) : Multiset (Option BrtosTimer) := bag l.timers l.count

namespace BrtosTmrT
variable (null : BrtosTimerT) (mem mem' : BrtosTimer → BrtosTimerT) (l : BrtosTmrT)

/-- The array is null outside the entries, and not null inside. -/
structure Filled : Prop where
  outside : ∀ k, k = 0 ∨ l.count < k → l.timers k = none
  inside : none ∉ l.entries

structure Ok : Prop extends l.Filled where
  ordered : Ordered (timeoutOf null mem) l.timers l.count

/-- A list in order, apart from its first entry. -/
structure Sinking : Prop extends l.Filled where
  ordered : DownOrdered (timeoutOf null mem) l.timers l.count 1

variable {null mem mem' l} {p q : BrtosTimer}

theorem compares_subir (timers : Nat → Option BrtosTimer) (n : Nat) :
    Compares (timeoutOf null mem)
      (fun x y => decide ((deref null mem x).timeout < (deref null mem y).timeout)) timers n :=
  fun _ _ _ _ => decide_eq_true_iff

theorem compares_descer {timers : Nat → Option BrtosTimer} {n : Nat} (h : none ∉ bag timers n) :
    Compares (timeoutOf null mem) (timeoutLess mem) timers n := by
  intro x hx y hy
  cases x with
  | none => exact absurd hx h
  | some p =>
    cases y with
    | none => exact absurd hy h
    | some q => exact decide_eq_true_iff

theorem timeoutOf_congr (null : BrtosTimerT) (h : l.Filled)
    (hm : ∀ q, some q ∈ l.entries → (mem' q).timeout = (mem q).timeout)
    {k : Nat} (h1 : 1 ≤ k) (hk : k ≤ l.count) :
    timeoutOf null mem' (l.timers k) = timeoutOf null mem (l.timers k) := by
  have hin : l.timers k ∈ l.entries := mem_bag_self h1 hk
  cases hx : l.timers k with
  | none =>
    rw [hx] at hin
    exact absurd hin h.inside
  | some q =>
    rw [hx] at hin
    exact hm q hin

theorem Ok.congr (h : l.Ok null mem)
    (hm : ∀ q, some q ∈ l.entries → (mem' q).timeout = (mem q).timeout) : l.Ok null mem' :=
  ⟨h.toFilled, h.ordered.congr fun _ h1 hk => timeoutOf_congr null h.toFilled hm h1 hk⟩

theorem Sinking.congr (h : l.Sinking null mem)
    (hm : ∀ q, some q ∈ l.entries → (mem' q).timeout = (mem q).timeout) : l.Sinking null mem' := by
  have hk := fun k h1 hk => timeoutOf_congr null h.toFilled hm (k := k) h1 hk
  refine ⟨h.toFilled, ⟨fun j h2 hj hne => ?_, fun h2 => by omega⟩⟩
  rw [hk _ (by omega) (by omega), hk _ (by omega) hj]
  exact h.ordered.pairs j h2 hj hne

theorem Filled.one_le_count (h : l.Filled) (hp : l.timers 1 = some p) : 1 ≤ l.count := by
  by_contra hno
  rw [h.outside 1 (.inr (by omega))] at hp
  cases hp

theorem Filled.first_mem (h : l.Filled) (hp : l.timers 1 = some p) : some p ∈ l.entries := by
  rw [← hp]
  exact mem_bag_self (Nat.le_refl 1) (h.one_le_count hp)

theorem Filled.first_eq_none (h : l.Filled) : l.timers 1 = none ↔ l.count = 0 := by
  constructor
  · intro hnone
    by_contra hne
    apply h.inside
    rw [← hnone]
    exact mem_bag_self (Nat.le_refl 1) (by omega)
  · intro hzero
    exact h.outside 1 (.inr (by omega))

/-! ## Insertion -/

theorem insert_entries (null : BrtosTimerT) (mem : BrtosTimer → BrtosTimerT) (p : BrtosTimer)
    (hroom : l.count < brtosMaxTimer - 1) : (l.insert null mem p).entries = some p ::ₘ l.entries := by
  unfold insert entries subir
  rw [if_pos hroom]
  dsimp only
  rw [siftUp_bag _ _ _ (Nat.le_refl _), bag_append]

theorem mem_insert {x : Option BrtosTimer} (hx : x ∈ (l.insert null mem p).entries) :
    x = some p ∨ x ∈ l.entries := by
  by_cases hroom : l.count < brtosMaxTimer - 1
  · rwa [insert_entries null mem p hroom, Multiset.mem_cons] at hx
  · unfold insert entries subir at hx
    rw [if_neg hroom] at hx
    dsimp only at hx
    rw [siftUp_bag _ _ _ (Nat.le_refl _)] at hx
    obtain ⟨k, h1, hk, he⟩ := mem_bag.mp hx
    by_cases hlast : k = l.count
    · rw [hlast, Function.update_self] at he
      exact .inl he.symm
    · rw [Function.update_of_ne hlast] at he
      exact .inr (mem_bag.mpr ⟨k, h1, hk, he⟩)

theorem Filled.insert (h : l.Filled) (p : BrtosTimer) : (l.insert null mem p).Filled := by
  refine ⟨fun k hk => ?_, fun hnone => ?_⟩
  · unfold BrtosTmrT.insert subir at hk ⊢
    dsimp only at hk ⊢
    rw [siftUp_of_lt _ _ _ hk]
    by_cases hroom : l.count < brtosMaxTimer - 1
    · rw [if_pos hroom] at hk ⊢
      rw [Function.update_of_ne (by omega)]
      exact h.outside k (by omega)
    · rw [if_neg hroom] at hk ⊢
      have hfull : 7 ≤ l.count := Nat.not_lt.mp hroom
      rw [Function.update_of_ne (by omega)]
      exact h.outside k hk
  · rcases mem_insert hnone with he | hin
    · cases he
    · exact h.inside hin

theorem Ok.insert (h : l.Ok null mem) (p : BrtosTimer) (hroom : l.count < brtosMaxTimer - 1) :
    (l.insert null mem p).Ok null mem := by
  refine ⟨h.toFilled.insert p, ?_⟩
  unfold BrtosTmrT.insert subir
  rw [if_pos hroom]
  exact siftUp_ordered (h.ordered.append (some p)) (compares_subir _ _) (by omega) (Nat.le_refl _)
    (Nat.le_refl _)

theorem insert_first (p : BrtosTimer) (hroom : l.count < brtosMaxTimer - 1) (hq : l.timers 1 = some q)
    (hpos : 1 ≤ l.count) (hle : (mem q).timeout ≤ (mem p).timeout) :
    (l.insert null mem p).timers 1 = some q := by
  have hlater : (fun x y => decide ((deref null mem x).timeout < (deref null mem y).timeout))
      (Function.update l.timers (l.count + 1) (some p) (l.count + 1))
      (Function.update l.timers (l.count + 1) (some p) 1) = false := by
    rw [Function.update_self, Function.update_of_ne (by omega), hq]
    exact decide_eq_false (Nat.not_lt.mpr hle)
  unfold BrtosTmrT.insert subir
  rw [if_pos hroom]
  dsimp only
  rw [siftUp_root_of_not_less (by omega) hlater, Function.update_of_ne (by omega), hq]

/-! ## Removal of the first entry -/

theorem removeFirst_entries (hpos : 1 ≤ l.count) :
    l.timers 1 ::ₘ l.removeFirst.entries = l.entries := bag_dropRoot none hpos

theorem mem_removeFirst {x : Option BrtosTimer} (hx : x ∈ l.removeFirst.entries) : x ∈ l.entries := by
  rcases Nat.eq_zero_or_pos l.count with hzero | hpos
  · unfold BrtosTmrT.removeFirst entries at hx
    rw [hzero] at hx
    exact absurd hx (Multiset.notMem_zero x)
  · rw [← removeFirst_entries hpos]
    exact Multiset.mem_cons_of_mem hx

theorem Filled.not_mem_removeFirst (h : l.Filled) (hp : l.timers 1 = some p)
    (honce : l.entries.count (some p) ≤ 1) : some p ∉ l.removeFirst.entries := by
  have hpos := h.one_le_count hp
  have hcons := removeFirst_entries hpos
  rw [hp] at hcons
  rw [← hcons, Multiset.count_cons_self] at honce
  exact Multiset.count_eq_zero.mp (by omega)

theorem Filled.removeFirst (h : l.Filled) : l.removeFirst.Filled := by
  refine ⟨fun k hk => ?_, fun hin => h.inside ?_⟩
  · unfold BrtosTmrT.removeFirst dropRoot at hk ⊢
    dsimp only at hk ⊢
    by_cases hlast : k = l.count
    · rw [hlast, Function.update_self]
    · rw [Function.update_of_ne hlast]
      by_cases h1 : k = 1
      · rw [h1, Function.update_self]
        exact h.outside _ (by omega)
      · rw [Function.update_of_ne h1]
        exact h.outside k (by omega)
  · exact mem_removeFirst hin

theorem Ok.removeFirst (h : l.Ok null mem) : l.removeFirst.Sinking null mem :=
  ⟨h.toFilled.removeFirst, h.ordered.dropRoot none⟩

theorem order_entries (mem : BrtosTimer → BrtosTimerT) : (l.order mem).entries = l.entries := by
  unfold order descer entries
  exact siftDown_bag _ _ _ (Nat.le_refl 1)

theorem Filled.order (h : l.Filled) : (l.order mem).Filled := by
  refine ⟨fun k hk => ?_, ?_⟩
  · unfold BrtosTmrT.order descer at hk ⊢
    dsimp only at hk ⊢
    rw [siftDown_of_lt _ _ _ (Nat.le_refl 1) hk]
    exact h.outside k hk
  · rw [order_entries]
    exact h.inside

theorem Sinking.order (h : l.Sinking null mem) : (l.order mem).Ok null mem := by
  refine ⟨h.toFilled.order, ?_⟩
  unfold BrtosTmrT.order descer
  exact siftDown_ordered h.ordered (compares_descer h.inside) (Nat.le_refl 1) (by omega)

theorem Ok.changeFirst (h : l.Ok null mem) (hp : l.timers 1 = some p) (honce : l.entries.count (some p) ≤ 1)
    (hm : ∀ q, q ≠ p → (mem' q).timeout = (mem q).timeout) : l.Sinking null mem' := by
  have hpos := h.one_le_count hp
  -- the other entries are other timers
  have hother := h.toFilled.not_mem_removeFirst hp honce
  refine ⟨h.toFilled, h.ordered.changeRoot fun k h2 hk => ?_⟩
  cases hx : l.timers k with
  | none => rfl
  | some q =>
    apply hm
    rintro rfl
    apply hother
    unfold BrtosTmrT.removeFirst entries dropRoot
    dsimp only
    rw [mem_bag]
    rcases Nat.lt_or_ge k l.count with hlt | hge
    · refine ⟨k, by omega, by omega, ?_⟩
      rw [Function.update_of_ne (by omega), Function.update_of_ne (by omega), hx]
    · refine ⟨1, by omega, by omega, ?_⟩
      rw [Function.update_of_ne (by omega), Function.update_self, show l.count = k by omega, hx]

/-! ## Removal of any entry -/

theorem searched_of_mem (null : BrtosTimerT) (h : l.Filled) (hp : some p ∈ l.entries) (hs : (mem p).state = .search)
    (hothers : ∀ q, q ≠ p → (mem q).state ≠ .search) :
    1 ≤ l.searched null mem ∧ l.searched null mem ≤ l.count ∧
      l.timers (l.searched null mem) = some p := by
  obtain ⟨k, h1, hk, hkp⟩ := mem_bag.mp hp
  have hfound : ∃ j, firstBelow l.count
      (fun k => decide ((deref null mem (l.timers (k + 1))).state = .search)) = some j := by
    apply firstBelow_isSome (i := k - 1) (by omega)
    rw [Nat.sub_add_cancel h1, hkp]
    exact decide_eq_true hs
  obtain ⟨j, hj⟩ := hfound
  obtain ⟨hlt, hstate, _⟩ := firstBelow_eq_some.mp hj
  unfold searched
  rw [hj]
  show 1 ≤ j + 1 ∧ j + 1 ≤ l.count ∧ l.timers (j + 1) = some p
  refine ⟨by omega, hlt, ?_⟩
  have hstate := of_decide_eq_true hstate
  have hin : l.timers (j + 1) ∈ l.entries := mem_bag_self (by omega) hlt
  cases hx : l.timers (j + 1) with
  | none =>
    rw [hx] at hin
    exact absurd hin h.inside
  | some q =>
    rw [hx] at hstate
    by_contra hne
    exact hothers q (fun he => hne (congrArg some he)) hstate

/-- `l` after its entry `k` has risen. -/
def raised (null : BrtosTimerT) (mem : BrtosTimer → BrtosTimerT) (l : BrtosTmrT) (k : Nat) : BrtosTmrT :=
  { l with timers := subir null mem l.timers k }

theorem raised_entries {k : Nat} (hk : k ≤ l.count) : (l.raised null mem k).entries = l.entries := by
  unfold raised entries subir
  exact siftUp_bag _ _ _ hk

theorem raised_one : l.raised null mem 1 = l := by
  unfold raised subir siftUp
  rw [if_neg (by omega)]

theorem Filled.raised (h : l.Filled) {k : Nat} (hk : k ≤ l.count) : (l.raised null mem k).Filled := by
  refine ⟨fun j hj => ?_, ?_⟩
  · show subir null mem l.timers k j = none
    unfold subir
    have hj : j = 0 ∨ l.count < j := hj
    rw [siftUp_of_lt _ _ _ (by omega)]
    exact h.outside j hj
  · rw [raised_entries hk]
    exact h.inside

theorem ne_of_once {k : Nat} (h1 : 1 ≤ k) (hk : k ≤ l.count) (hkp : l.timers k = some p)
    (honce : l.entries.count (some p) ≤ 1) {j : Nat} (hj1 : 1 ≤ j) (hj : j ≤ l.count) (hne : j ≠ k) :
    l.timers j ≠ some p := by
  intro hjp
  have hexch := bag_update (a := l.timers) (x := none) h1 hk
  have hstill : some p ∈ bag (Function.update l.timers k none) l.count := by
    rw [mem_bag]
    exact ⟨j, hj1, hj, by rw [Function.update_of_ne hne, hjp]⟩
  have hcount := congrArg (Multiset.count (some p)) hexch
  rw [hkp, Multiset.count_cons_self, Multiset.count_cons_of_ne (by simp)] at hcount
  have hpos := Multiset.count_pos.mpr hstill
  unfold entries at honce
  omega

theorem stop_entries (null : BrtosTimerT) (mem : BrtosTimer → BrtosTimerT) {k : Nat} (h1 : 1 ≤ k)
    (hk : k ≤ l.count) (hkp : l.timers k = some p)
    (hzero : (mem p).timeout = 0)
    (hlater : ∀ j, 1 ≤ j → j < k → 0 < timeoutOf null mem (l.timers j)) :
    some p ::ₘ ((l.raised null mem k).removeFirst.order mem).entries = l.entries := by
  have hroot : subir null mem l.timers k 1 = some p := by
    refine (siftUp_root_of_less h1 (Nat.le_refl k) fun j hj1 hjk => decide_eq_true ?_).trans hkp
    rw [hkp]
    exact hzero.trans_lt (hlater j hj1 hjk)
  have hdrop : subir null mem l.timers k 1 ::ₘ (l.raised null mem k).removeFirst.entries =
      (l.raised null mem k).entries := removeFirst_entries (Nat.le_trans h1 hk)
  rw [hroot, raised_entries hk] at hdrop
  rw [order_entries]
  exact hdrop

/-- The removal of `OSTimerStop`: the timer `p`, whose timeout is now 0, rises from position `k` and is
removed, if no other entry is as early. -/
theorem Ok.stop (h : l.Ok null mem) {k : Nat} (h1 : 1 ≤ k) (hk : k ≤ l.count) (hkp : l.timers k = some p)
    (honce : l.entries.count (some p) ≤ 1)
    (hfirst : l.timers 1 = some p ∨ 0 < timeoutOf null mem (l.timers 1))
    (hzero : (mem' p).timeout = 0) (hm : ∀ q, q ≠ p → (mem' q).timeout = (mem q).timeout) :
    let r := ((l.raised null mem' k).removeFirst.order mem')
    r.Ok null mem' ∧ some p ::ₘ r.entries = l.entries := by
  have hkey : ∀ j, 1 ≤ j → j ≤ l.count → j ≠ k →
      timeoutOf null mem' (l.timers j) = timeoutOf null mem (l.timers j) := by
    intro j hj1 hj hne
    cases hx : l.timers j with
    | none => rfl
    | some q => exact hm q fun he => ne_of_once h1 hk hkp honce hj1 hj hne (he ▸ hx)
  have hkeyp : timeoutOf null mem' (l.timers k) = 0 := by
    rw [hkp]
    exact hzero
  have hup : UpOrdered (timeoutOf null mem') l.timers l.count k :=
    h.ordered.decrease ⟨h1, hk⟩ (by rw [hkeyp]; exact Nat.zero_le _) hkey
  have hraised : (l.raised null mem' k).Ok null mem' :=
    ⟨h.toFilled.raised hk, siftUp_ordered hup (compares_subir _ _) h1 hk (Nat.le_refl k)⟩
  refine ⟨hraised.removeFirst.order, stop_entries null mem' h1 hk hkp hzero fun j hj1 hjk => ?_⟩
  rw [hkey j hj1 (by omega) (by omega)]
  have hmin := h.ordered.root_le_entry hj1 (show j ≤ l.count by omega)
  rcases hfirst with hp | hpos
  · exact absurd hp (ne_of_once h1 hk hkp honce (Nat.le_refl 1) (by omega) (by omega))
  · omega

end BrtosTmrT

end Unet4Cooja
