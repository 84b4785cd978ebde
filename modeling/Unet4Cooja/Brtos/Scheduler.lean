import Unet4Cooja.Brtos.Kernel

/-!
# The scheduler on bit masks (`BRTOS.c`)

* `Scheduler.saScheduler`, `Scheduler.osSchedule` : the functions, on `PriorityType`;
* `Selects` : what a subtree of the search has to find, for the lists that reach it;
* `saScheduler_isGreatest` : the search finds the highest bit;
* `osSchedule_highest` : so `OSSchedule` returns the entry of the highest ready priority that is not blocked;
* `saScheduler_bits`, `osSchedule_eq` : the kernel's `saScheduler` and `osSchedule` on sets are these functions.
-/

namespace Unet4Cooja.Scheduler

/-- `SAScheduler`, with more than 16 priorities and without `OPTIMIZED_SCHEDULER`. -/
def saScheduler (readyList : U32) : U8 :=
  if 0xFFFF < readyList then
    if 0xFFFFFF < readyList then
      if 0xFFFFFFF < readyList then
        if 0x3FFFFFFF < readyList then
          if 0x7FFFFFFF < readyList then 31 else 30
        else
          if 0x1FFFFFFF < readyList then 29 else 28
      else
        if 0x3FFFFFF < readyList then
          if 0x7FFFFFF < readyList then 27 else 26
        else
          if 0x1FFFFFF < readyList then 25 else 24
    else
      if 0xFFFFF < readyList then
        if 0x3FFFFF < readyList then
          if 0x7FFFFF < readyList then 23 else 22
        else
          if 0x1FFFFF < readyList then 21 else 20
      else
        if 0x3FFFF < readyList then
          if 0x7FFFF < readyList then 19 else 18
        else
          if 0x1FFFF < readyList then 17 else 16
  else
    if 0xFF < readyList then
      if 0xFFF < readyList then
        if 0x3FFF < readyList then
          if 0x7FFF < readyList then 15 else 14
        else
          if 0x1FFF < readyList then 13 else 12
      else
        if 0x3FF < readyList then
          if 0x7FF < readyList then 11 else 10
        else
          if 0x1FF < readyList then 9 else 8
    else
      if 0x0F < readyList then
        if 0x3F < readyList then
          if 0x7F < readyList then 7 else 6
        else
          if 0x1F < readyList then 5 else 4
      else
        if 0x03 < readyList then
          if 0x07 < readyList then 3 else 2
        else
          if 0x1 < readyList then 1 else 0

/-! ## The search -/

/-- From a list whose highest bit is in `[lo, hi)`, `k` is the place of that bit. -/
def Selects (lo hi : Nat) (x : U32) (k : U8) : Prop :=
  2 ^ lo ≤ x.toNat → x.toNat < 2 ^ hi → 2 ^ k.toNat ≤ x.toNat ∧ x.toNat < 2 ^ (k.toNat + 1)

section
variable {lo m hi : Nat} {x c : U32} {a b : U8}

theorem Selects.leaf (k : U8) : Selects k.toNat (k.toNat + 1) x k := fun hlo hhi => ⟨hlo, hhi⟩

theorem Selects.node (hc : c.toNat + 1 = 2 ^ m) (ha : Selects m hi x a) (hb : Selects lo m x b) :
    Selects lo hi x (if c < x then a else b) := by
  intro hlo hhi
  split
  · rename_i h
    rw [BitVec.lt_def] at h
    apply ha _ hhi
    omega
  · rename_i h
    rw [BitVec.lt_def] at h
    apply hb hlo
    omega

theorem selects_saScheduler (x : U32) : Selects 0 32 x (saScheduler x) :=
  .node (by decide)
    (.node (by decide)
      (.node (by decide)
        (.node (by decide)
          (.node (by decide) (.leaf 31) (.leaf 30))
          (.node (by decide) (.leaf 29) (.leaf 28)))
        (.node (by decide)
          (.node (by decide) (.leaf 27) (.leaf 26))
          (.node (by decide) (.leaf 25) (.leaf 24))))
      (.node (by decide)
        (.node (by decide)
          (.node (by decide) (.leaf 23) (.leaf 22))
          (.node (by decide) (.leaf 21) (.leaf 20)))
        (.node (by decide)
          (.node (by decide) (.leaf 19) (.leaf 18))
          (.node (by decide) (.leaf 17) (.leaf 16)))))
    (.node (by decide)
      (.node (by decide)
        (.node (by decide)
          (.node (by decide) (.leaf 15) (.leaf 14))
          (.node (by decide) (.leaf 13) (.leaf 12)))
        (.node (by decide)
          (.node (by decide) (.leaf 11) (.leaf 10))
          (.node (by decide) (.leaf 9) (.leaf 8))))
      (.node (by decide)
        (.node (by decide)
          (.node (by decide) (.leaf 7) (.leaf 6))
          (.node (by decide) (.leaf 5) (.leaf 4)))
        (.node (by decide)
          (.node (by decide) (.leaf 3) (.leaf 2))
          (.node (by decide) (.leaf 1) (.leaf 0)))))

theorem isGreatest_testBit {n k : Nat} (hlo : 2 ^ k ≤ n) (hhi : n < 2 ^ (k + 1)) :
    IsGreatest {i | n.testBit i} k := by
  refine ⟨Nat.testBit_of_two_pow_le_and_two_pow_add_one_gt hlo hhi, fun i hi => ?_⟩
  by_contra h
  have hpow : 2 ^ (k + 1) ≤ 2 ^ i := Nat.pow_le_pow_right (by decide) (by omega)
  have hclear : n.testBit i = false := Nat.testBit_lt_two_pow (hhi.trans_le hpow)
  exact Bool.false_ne_true (hclear.symm.trans hi)

theorem saScheduler_isGreatest (h : x ≠ 0) : IsGreatest {i | x.getLsbD i} (saScheduler x).toNat := by
  have hpos : 2 ^ 0 ≤ x.toNat := by
    have hne : x.toNat ≠ 0 := fun he => h (BitVec.eq_of_toNat_eq he)
    rw [pow_zero]
    omega
  obtain ⟨hlo, hhi⟩ := selects_saScheduler x hpos x.isLt
  exact isGreatest_testBit hlo hhi

theorem saScheduler_lt (x : U32) : (saScheduler x).toNat < 32 := by
  by_cases h : x = 0
  · subst h
    decide
  · by_contra hge
    have hbit : x.getLsbD (saScheduler x).toNat := (saScheduler_isGreatest h).1
    rw [BitVec.getLsbD_of_ge x _ (by omega)] at hbit
    exact Bool.false_ne_true hbit

end

/-! ## The task that is selected -/

/-- `OSSchedule`; in `blockedList` the bits of the blocked priorities are 0. -/
def osSchedule {α : Type*} (priorityVector : Vector α 32) (readyList blockedList : U32) : α :=
  let priority := saScheduler (readyList &&& blockedList)
  priorityVector.get ⟨priority.toNat, saScheduler_lt _⟩

theorem and_ne_zero {x y : U32} (h : ∃ i, x.getLsbD i ∧ y.getLsbD i) : x &&& y ≠ 0 := by
  obtain ⟨i, hx, hy⟩ := h
  intro he
  have hbit := BitVec.getLsbD_and (x := x) (y := y) (i := i)
  rw [he, hx, hy] at hbit
  simp at hbit

theorem osSchedule_highest (τ : Type*) :
    (∀ x : U32, x ≠ 0 → IsGreatest {i | x.getLsbD i} (saScheduler x).toNat) ∧
      ∀ (priorityVector : Vector (TaskNumber τ) 32) (readyList blockedList : U32),
        (∃ i, readyList.getLsbD i ∧ blockedList.getLsbD i) →
          ∃ p : Fin 32, IsGreatest {i | readyList.getLsbD i ∧ blockedList.getLsbD i} p.val ∧
            osSchedule priorityVector readyList blockedList = priorityVector.get p := by
  refine ⟨fun x => saScheduler_isGreatest, fun priorityVector readyList blockedList h => ?_⟩
  refine ⟨⟨_, saScheduler_lt _⟩, ?_, rfl⟩
  have hbits : {i | readyList.getLsbD i ∧ blockedList.getLsbD i} = {i | (readyList &&& blockedList).getLsbD i} := by
    ext i
    simp
  rw [hbits]
  exact saScheduler_isGreatest (and_ne_zero h)

def oneTask : Vector (TaskNumber Unit) 32 := (Vector.replicate 32 .emptyPrio).set 5 (.task ())

theorem osSchedule_highest_oneTask :
    osSchedule oneTask 0x121 0xFFFFFEFF = .task () ∧
      IsGreatest {i | (0x121 : U32).getLsbD i} (saScheduler 0x121).toNat ∧
        ∃ p : Fin 32, IsGreatest {i | (0x121 : U32).getLsbD i ∧ (0xFFFFFEFF : U32).getLsbD i} p.val ∧
          osSchedule oneTask 0x121 0xFFFFFEFF = oneTask.get p :=
  ⟨by decide, (osSchedule_highest Unit).1 0x121 (by decide),
    (osSchedule_highest Unit).2 oneTask 0x121 0xFFFFFEFF ⟨5, by decide, by decide⟩⟩

/-! ## The kernel on sets of priorities -/

section
variable {τ μ ε κ : Type*}

def bits (x : U32) : Finset Nat := {i ∈ Finset.range 32 | x.getLsbD i}

@[simp] theorem mem_bits {x : U32} {i : Nat} : i ∈ bits x ↔ x.getLsbD i := by
  rw [bits, Finset.mem_filter, Finset.mem_range, and_iff_right_iff_imp]
  exact BitVec.lt_of_getLsbD

theorem saScheduler_bits (x : U32) : Unet4Cooja.saScheduler (bits x) = (saScheduler x).toNat := by
  by_cases h : x = 0
  · subst h
    decide
  · obtain ⟨hmem, hmax⟩ := saScheduler_isGreatest h
    have hne : (bits x).Nonempty := ⟨_, mem_bits.mpr hmem⟩
    exact le_antisymm (hmax (mem_bits.mp (saScheduler_mem hne))) (le_saScheduler (mem_bits.mpr hmem))

theorem osSchedule_eq (s : KernelSys τ μ ε κ) (priorityVector : Vector (TaskNumber τ) 32) (readyList blockedList : U32)
    (hvector : ∀ p : Fin 32, s.priorityVector p = priorityVector.get p) (hready : s.osReadyList = bits readyList)
    (hblocked : s.osBlockedList = bits (~~~blockedList)) :
    s.osSchedule = osSchedule priorityVector readyList blockedList := by
  have hbits : s.osReadyList \ s.osBlockedList = bits (readyList &&& blockedList) := by
    ext i
    rw [hready, hblocked, Finset.mem_sdiff, mem_bits, mem_bits, mem_bits, BitVec.getLsbD_not, BitVec.getLsbD_and]
    by_cases hi : i < 32
    · simp [hi]
    · simp [BitVec.getLsbD_of_ge readyList i (by omega)]
  show s.priorityVector (Unet4Cooja.saScheduler (s.osReadyList \ s.osBlockedList)) = _
  rw [hbits, saScheduler_bits]
  exact hvector ⟨_, saScheduler_lt _⟩

end

end Unet4Cooja.Scheduler
