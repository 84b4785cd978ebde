import Unet4Cooja.Brtos.TimerLists
import Unet4Cooja.Lib.While
import Unet4Cooja.Packet

/-!
# The sifting loops with their indices of 8 bits (`stimer.c`)

* `pai`, `left`, `right` : the macros; `HeapLoop` : the local variables of the loops;
* `Subir`, `Descer` : the two functions, for arrays of pointers to any timers;
* `subir_siftUp`, `descer_siftDown` : below 128 no index is cut off, so they are the loops of `Lib.Heap`;
* `sifting_ordered` : they end and put an array in order that is out of order in one place;
* `subir_spec`, `descer_spec` : the functions of the timer model are what they compute.
-/

namespace Unet4Cooja
open Lib

namespace HeapLoop

def pai (i : U8) : U8 := i >>> 1

def left (i : U8) : U8 := i <<< 1

def right (i : U8) : U8 := (i <<< 1) + 1

end HeapLoop

structure HeapLoop (τ : Type*) where
  i : U8
  timers : Nat → Option τ

section
variable {τ : Type*} (null : BrtosTimerT) (mem : τ → BrtosTimerT)

/-- The timeout read through a pointer; `null` is what is found at address 0. -/
def timeoutAt (x : Option τ) : Nat := (x.elim null mem).timeout

namespace HeapLoop
variable (n : U8) (s : HeapLoop τ)

/-- The test in `Subir`. -/
def rises : Bool :=
  1 < s.i ∧ timeoutAt null mem (s.timers s.i.toNat) < timeoutAt null mem (s.timers (pai s.i).toNat)

/-- A round of `Subir`. -/
def rise : HeapLoop τ :=
  { i := pai s.i, timers := exchange s.timers (pai s.i).toNat s.i.toNat }

/-- Neither pointer is null and the timeout of `x` is before that of `y`. -/
def before (x y : Option τ) : Bool :=
  (x.isSome ∧ y.isSome) ∧ timeoutAt null mem x < timeoutAt null mem y

/-- `son`. -/
def son : U8 :=
  if right s.i ≤ n ∧ before null mem (s.timers (right s.i).toNat) (s.timers (left s.i).toNat) then right s.i
  else left s.i

/-- The test in `Descer`. -/
def sinks : Bool :=
  s.son null mem n ≤ n ∧ before null mem (s.timers (s.son null mem n).toNat) (s.timers s.i.toNat)

/-- A round of `Descer`. -/
def sink : HeapLoop τ :=
  { i := s.son null mem n, timers := exchange s.timers (s.son null mem n).toNat s.i.toNat }

end HeapLoop

/-- `Subir(timers, i)` ends, with the array `timers'`. -/
def Subir (timers : Nat → Option τ) (i : U8) (timers' : Nat → Option τ) : Prop :=
  ∃ j, Ends (HeapLoop.rises null mem) HeapLoop.rise ⟨i, timers⟩ ⟨j, timers'⟩

/-- `Descer(timers, i, n)` ends, with the array `timers'`. -/
def Descer (timers : Nat → Option τ) (i n : U8) (timers' : Nat → Option τ) : Prop :=
  ∃ j, Ends (HeapLoop.sinks null mem n) (HeapLoop.sink null mem n) ⟨i, timers⟩ ⟨j, timers'⟩

end

/-! ## Indices -/

namespace HeapLoop

theorem pai_toNat (i : U8) : (pai i).toNat = i.toNat / 2 := by
  rw [pai, BitVec.toNat_ushiftRight, Nat.shiftRight_eq_div_pow]

theorem left_toNat {i : U8} (h : i.toNat < 128) : (left i).toNat = 2 * i.toNat := by
  rw [left, BitVec.toNat_shiftLeft, Nat.shiftLeft_eq]
  omega

theorem right_toNat {i : U8} (h : i.toNat < 128) : (right i).toNat = 2 * i.toNat + 1 := by
  have hl := left_toNat h
  unfold left at hl
  rw [right, BitVec.toNat_add, hl]
  show (2 * i.toNat + 1) % 256 = _
  omega

end HeapLoop

/-! ## The loops without a bound for the indices -/

section
variable {τ : Type*} {null : BrtosTimerT} {mem : τ → BrtosTimerT} {timers : Nat → Option τ} {i n : U8}

namespace HeapLoop
variable {s : HeapLoop τ} {fuel : Nat}

theorem rises_iff : rises null mem s = true ↔
    1 < s.i.toNat ∧
      timeoutAt null mem (s.timers s.i.toNat) < timeoutAt null mem (s.timers (s.i.toNat / 2)) := by
  unfold rises
  rw [decide_eq_true_iff, BitVec.lt_def, pai_toNat]
  rfl

theorem rise_timers : s.rise.timers = exchange s.timers (s.i.toNat / 2) s.i.toNat := by
  rw [← pai_toNat]
  rfl

theorem ends_rise (null : BrtosTimerT) (mem : τ → BrtosTimerT) (hf : s.i.toNat ≤ fuel) :
    ∃ j, Ends (rises null mem) rise s
      ⟨j, siftUp (fun x y => decide (timeoutAt null mem x < timeoutAt null mem y)) fuel s.timers s.i.toNat⟩ := by
  induction fuel generalizing s with
  | zero =>
    refine ⟨s.i, .exit (Bool.eq_false_iff.mpr fun hup => ?_)⟩
    have hlt := (rises_iff.mp hup).1
    omega
  | succ fuel ih =>
    unfold siftUp
    simp only [decide_eq_true_iff, ← rises_iff]
    split
    · rename_i hup
      have hlt := (rises_iff.mp hup).1
      have hi : s.rise.i.toNat = s.i.toNat / 2 := pai_toNat s.i
      obtain ⟨j, hj⟩ := ih (s := s.rise) (by omega)
      rw [hi, rise_timers] at hj
      exact ⟨j, hj.round hup⟩
    · rename_i hstop
      exact ⟨s.i, .exit (Bool.eq_false_iff.mpr hstop)⟩

theorem son_toNat (hi : s.i.toNat < 128) :
    (s.son null mem n).toNat = lesserChild (before null mem) s.timers s.i.toNat n.toNat := by
  unfold son lesserChild
  simp only [BitVec.le_def, right_toNat hi, left_toNat hi]
  split
  · exact right_toNat hi
  · exact left_toNat hi

theorem sinks_iff : sinks null mem n s = true ↔
    (s.son null mem n).toNat ≤ n.toNat ∧
      before null mem (s.timers (s.son null mem n).toNat) (s.timers s.i.toNat) = true := by
  unfold sinks
  rw [decide_eq_true_iff, BitVec.le_def]

theorem ends_sink (null : BrtosTimerT) (mem : τ → BrtosTimerT) (hn : n.toNat < 128) (h1 : 1 ≤ s.i.toNat)
    (hi : s.i.toNat < 128) (hf : n.toNat < s.i.toNat + fuel) :
    ∃ j, Ends (sinks null mem n) (sink null mem n) s
      ⟨j, siftDown (before null mem) fuel s.timers s.i.toNat n.toNat⟩ := by
  induction fuel generalizing s with
  | zero =>
    refine ⟨s.i, .exit (Bool.eq_false_iff.mpr fun hdown => ?_)⟩
    have hle := (sinks_iff.mp hdown).1
    have hson := lesserChild_eq (before null mem) s.timers s.i.toNat n.toNat
    rw [← son_toNat hi] at hson
    omega
  | succ fuel ih =>
    have hson := lesserChild_eq (before null mem) s.timers s.i.toNat n.toNat
    rw [← son_toNat hi] at hson
    unfold siftDown
    dsimp only
    rw [← son_toNat hi]
    simp only [← sinks_iff]
    split
    · rename_i hdown
      have hle := (sinks_iff.mp hdown).1
      have hnext : (s.sink null mem n).i.toNat = (s.son null mem n).toNat := rfl
      obtain ⟨j, hj⟩ := ih (s := s.sink null mem n) (by omega) (by omega) (by omega)
      exact ⟨j, hj.round hdown⟩
    · rename_i hstop
      exact ⟨s.i, .exit (Bool.eq_false_iff.mpr hstop)⟩

end HeapLoop

theorem subir_siftUp (null : BrtosTimerT) (mem : τ → BrtosTimerT) (timers : Nat → Option τ) (i : U8) :
    Subir null mem timers i
      (siftUp (fun x y => decide (timeoutAt null mem x < timeoutAt null mem y)) i.toNat timers i.toNat) :=
  HeapLoop.ends_rise (s := ⟨i, timers⟩) null mem (Nat.le_refl _)

theorem descer_siftDown (null : BrtosTimerT) (mem : τ → BrtosTimerT) (timers : Nat → Option τ)
    (hn : n.toNat < 128) (h1 : 1 ≤ i.toNat) (hi : i.toNat < 128) :
    Descer null mem timers i n (siftDown (HeapLoop.before null mem) n.toNat timers i.toNat n.toNat) :=
  HeapLoop.ends_sink (s := ⟨i, timers⟩) null mem hn h1 hi (Nat.lt_add_of_pos_left h1)

/-! ## Order -/

/-- The entries 1 to `n` of `timers'` are those of `timers` in heap order, and the rest is unchanged. -/
structure Sifted (null : BrtosTimerT) (mem : τ → BrtosTimerT) (timers timers' : Nat → Option τ) (n : Nat) :
    Prop where
  entries : bag timers' n = bag timers n
  ordered : Ordered (timeoutAt null mem) timers' n
  outside : ∀ k, k = 0 ∨ n < k → timers' k = timers k

theorem compares_before (null : BrtosTimerT) (mem : τ → BrtosTimerT) {m : Nat}
    (hnull : ∀ k, 1 ≤ k → k ≤ m → (timers k).isSome) :
    Compares (timeoutAt null mem) (HeapLoop.before null mem) timers m := by
  have hsome : ∀ x ∈ bag timers m, x.isSome := by
    intro x hx
    obtain ⟨k, h1, hk, rfl⟩ := mem_bag.mp hx
    exact hnull k h1 hk
  intro x hx y hy
  unfold HeapLoop.before
  rw [decide_eq_true_iff]
  exact and_iff_right ⟨hsome x hx, hsome y hy⟩

/-- `Subir` and `Descer` end and put an array of pointers that are not null in order, if the order is broken
between the entry `i` and its parent or its children only. -/
theorem sifting_ordered (null : BrtosTimerT) (mem : τ → BrtosTimerT) (timers : Nat → Option τ) (i n : U8)
    (hn : n < 128) (hi : 1 ≤ i ∧ i ≤ n) (hnull : ∀ k, 1 ≤ k → k ≤ n.toNat → timers k ≠ none) :
    (UpOrdered (timeoutAt null mem) timers n.toNat i.toNat →
      ∃ timers', Subir null mem timers i timers' ∧ Sifted null mem timers timers' n.toNat) ∧
    (DownOrdered (timeoutAt null mem) timers n.toNat i.toNat →
      ∃ timers', Descer null mem timers i n timers' ∧ Sifted null mem timers timers' n.toNat) := by
  have hn' : n.toNat < 128 := BitVec.lt_def.mp hn
  have h1 : 1 ≤ i.toNat := BitVec.le_def.mp hi.1
  have hle : i.toNat ≤ n.toNat := BitVec.le_def.mp hi.2
  constructor
  · intro h
    refine ⟨_, subir_siftUp null mem timers i, siftUp_bag _ _ _ hle, ?_, fun k hk => ?_⟩
    · exact siftUp_ordered h (fun _ _ _ _ => decide_eq_true_iff) h1 hle (Nat.le_refl _)
    · exact siftUp_of_lt _ _ _ (hk.imp_right (Nat.lt_of_le_of_lt hle))
  · intro h
    refine ⟨_, descer_siftDown null mem timers hn' h1 (by omega), siftDown_bag _ _ _ h1, ?_, fun k hk => ?_⟩
    · have hc := compares_before null mem fun k h1 hk => Option.isSome_iff_ne_none.mpr (hnull k h1 hk)
      exact siftDown_ordered h hc h1 (by omega)
    · exact siftDown_of_lt _ _ _ h1 hk

end

def fiveEntries (k : Nat) : Option Nat := if 1 ≤ k ∧ k ≤ 5 then some k else none

def timersOf (timeouts : List Nat) (p : Nat) : BrtosTimerT :=
  { funcCb := none, timeout := timeouts.getD (p - 1) 0, state := .running }

/-- The second entry is before the first one, and then behind its children. -/
theorem sifting_ordered_five :
    (∃ timers', Subir default (timersOf [4, 2, 5, 6, 7]) fiveEntries 2 timers' ∧
      Sifted default (timersOf [4, 2, 5, 6, 7]) fiveEntries timers' 5) ∧
    ∃ timers', Descer default (timersOf [1, 9, 5, 6, 7]) fiveEntries 2 5 timers' ∧
      Sifted default (timersOf [1, 9, 5, 6, 7]) fiveEntries timers' 5 := by
  have hnull : ∀ k, 1 ≤ k → k ≤ 5 → fiveEntries k ≠ none := by
    intro k h1 hk
    simp [fiveEntries, h1, hk]
  constructor
  · apply (sifting_ordered default (timersOf [4, 2, 5, 6, 7]) fiveEntries 2 5 (by decide) (by decide) hnull).1
    have hpairs : ∀ j ≤ 5, 2 ≤ j → j ≠ 2 →
        timeoutAt default (timersOf [4, 2, 5, 6, 7]) (fiveEntries (j / 2)) ≤
          timeoutAt default (timersOf [4, 2, 5, 6, 7]) (fiveEntries j) := by decide
    have hgrand : ∀ j ≤ 5, j / 2 = 2 →
        timeoutAt default (timersOf [4, 2, 5, 6, 7]) (fiveEntries 1) ≤
          timeoutAt default (timersOf [4, 2, 5, 6, 7]) (fiveEntries j) := by decide
    exact ⟨fun j h2 hj hne => hpairs j hj h2 hne, fun _ j hj hji => hgrand j hj hji⟩
  · apply (sifting_ordered default (timersOf [1, 9, 5, 6, 7]) fiveEntries 2 5 (by decide) (by decide) hnull).2
    have hpairs : ∀ j ≤ 5, 2 ≤ j → j / 2 ≠ 2 →
        timeoutAt default (timersOf [1, 9, 5, 6, 7]) (fiveEntries (j / 2)) ≤
          timeoutAt default (timersOf [1, 9, 5, 6, 7]) (fiveEntries j) := by decide
    have hgrand : ∀ j ≤ 5, j / 2 = 2 →
        timeoutAt default (timersOf [1, 9, 5, 6, 7]) (fiveEntries 1) ≤
          timeoutAt default (timersOf [1, 9, 5, 6, 7]) (fiveEntries j) := by decide
    exact ⟨fun j h2 hj hne => hpairs j hj h2 hne, fun _ j hj hji => hgrand j hj hji⟩

/-! ## The timer model -/

section
variable (null : BrtosTimerT) (mem : BrtosTimer → BrtosTimerT) (timers : Nat → Option BrtosTimer)

theorem subir_spec (i : U8) : Subir null mem timers i (subir null mem timers i.toNat) :=
  subir_siftUp null mem timers i

theorem before_eq : HeapLoop.before null mem = timeoutLess mem := by
  funext x y
  cases x <;> cases y <;> simp [HeapLoop.before, timeoutLess, timeoutAt]

theorem descer_spec {i n : U8} (hn : n.toNat < 128) (h1 : 1 ≤ i.toNat) (hi : i.toNat < 128) :
    Descer null mem timers i n (descer mem timers i.toNat n.toNat) := by
  unfold descer
  rw [← before_eq null mem]
  exact descer_siftDown null mem timers hn h1 hi

end

end Unet4Cooja
