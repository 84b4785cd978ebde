import Unet4Cooja.Contiki.Lists
import Unet4Cooja.Lib.Memory
import Unet4Cooja.Packet
import Mathlib.Data.List.Find

/-!
# Blocks of memory (`memb.c`)

* `Memb` : `struct memb`; `membInit`, `membAlloc`, `membFree`, `membNumfree` : the functions;
* `InUse` : the blocks that are used are counted once, the others not at all;
* `MembCall`, `memb_of_calls` : calls in any order;
* `PoolCall`, `pool_of_calls` : the blocks of a pool that are used are the elements of a list.
-/

namespace Unet4Cooja.Contiki
open Lib

/-- `struct memb`. -/
structure Memb where
  size : U16
  num : U16
  count : Nat → U8
  mem : Nat

section
variable (m : Memb) (ptr : Nat)

/-- `memset` takes the product as an `unsigned int`. -/
def membInit (μ : Nat → U8) : Memb × (Nat → U8) :=
  ({ m with count := fun i => if i < m.num.toNat then 0 else m.count i },
    store μ m.mem (List.replicate (m.size * m.num).toNat 0))

/-- `i * m->size` is an `unsigned int`, too. -/
def membAlloc : Option Nat × Memb :=
  match (List.range m.num.toNat).find? fun i => m.count i = 0 with
  | none => (none, m)
  | some i =>
    (some (m.mem + (BitVec.ofNat 16 i * m.size).toNat), { m with count := Function.update m.count i (m.count i + 1) })

def membFree : U8 × Memb :=
  match (List.range m.num.toNat).find? fun i => m.mem + i * m.size.toNat = ptr with
  | none => (-1, m)
  | some i =>
    let m := if 0 < m.count i then { m with count := Function.update m.count i (m.count i - 1) } else m
    (m.count i, m)

def membNumfree : Nat := (List.range m.num.toNat).countP fun i => m.count i = 0

end

/-! ## Blocks -/

namespace Memb
variable (m : Memb)

def block (i : Nat) : Nat := m.mem + i * m.size.toNat

def blocks : List Nat := (List.range m.num.toNat).map m.block

/-- The blocks are not empty, and an `unsigned int` counts their bytes. -/
structure Fits : Prop where
  pos : 0 < m.size.toNat
  fits : m.num.toNat * m.size.toNat < 2 ^ 16

/-- The blocks that are used are `used`. -/
structure InUse (used : List Nat) : Prop where
  nodup : used.Nodup
  subset : used ⊆ m.blocks
  count : ∀ i < m.num.toNat, m.count i = if m.block i ∈ used then 1 else 0

end Memb

section
variable {m : Memb} {used : List Nat} {i j p : Nat}

theorem Memb.Fits.block_inj (h : m.Fits) (he : m.block i = m.block j) : i = j :=
  Nat.eq_of_mul_eq_mul_right h.pos (Nat.add_left_cancel he)

theorem Memb.mem_blocks : p ∈ m.blocks ↔ ∃ i < m.num.toNat, m.block i = p := by
  unfold Memb.blocks
  simp

theorem Memb.Fits.nodup_blocks (h : m.Fits) : m.blocks.Nodup :=
  List.nodup_range.map fun _ _ => h.block_inj

theorem Memb.block_apart {q : Nat} (hp : p ∈ m.blocks) (hq : q ∈ m.blocks) (hne : p ≠ q) :
    p + m.size.toNat ≤ q ∨ q + m.size.toNat ≤ p := by
  obtain ⟨i, -, rfl⟩ := Memb.mem_blocks.mp hp
  obtain ⟨j, -, rfl⟩ := Memb.mem_blocks.mp hq
  unfold Memb.block at hne ⊢
  rcases Nat.lt_trichotomy i j with hlt | rfl | hlt
  · left
    have hmul := Nat.mul_le_mul_right m.size.toNat hlt
    rw [Nat.succ_mul] at hmul
    omega
  · exact absurd rfl hne
  · right
    have hmul := Nat.mul_le_mul_right m.size.toNat hlt
    rw [Nat.succ_mul] at hmul
    omega

theorem Memb.Fits.pointer_eq (h : m.Fits) (hi : i < m.num.toNat) :
    m.mem + (BitVec.ofNat 16 i * m.size).toNat = m.block i := by
  have hmul := Nat.mul_le_mul_right m.size.toNat (Nat.le_of_lt hi)
  have hfits := h.fits
  have hnum := m.num.isLt
  rw [BitVec.toNat_mul, BitVec.toNat_ofNat, Nat.mod_eq_of_lt (by omega : i < 2 ^ 16), Nat.mod_eq_of_lt (by omega),
    Memb.block]

theorem Memb.InUse.count_eq_zero (h : m.InUse used) (hi : i < m.num.toNat) : m.count i = 0 ↔ m.block i ∉ used := by
  rw [h.count i hi]
  split
  · exact iff_of_false (by decide) (not_not.mpr ‹_›)
  · exact iff_of_true rfl ‹_›

theorem Memb.InUse.find_free (h : m.InUse used) :
    (m.blocks.find? fun p => p ∉ used) =
      ((List.range m.num.toNat).find? fun i => m.count i = 0).map m.block := by
  unfold Memb.blocks
  rw [List.find?_map]
  congr 1
  apply List.find?_congr
  intro i hi
  exact decide_eq_decide.mpr (h.count_eq_zero (List.mem_range.mp hi)).symm

theorem membAlloc_eq (hm : m.Fits) (h : m.InUse used) :
    (membAlloc m).1 = m.blocks.find? (fun p => p ∉ used) ∧
      ∃ c, (membAlloc m).2 = { m with count := c } ∧
        Memb.InUse { m with count := c } (used ++ (m.blocks.find? fun p => p ∉ used).toList) := by
  have hfind := h.find_free
  unfold membAlloc
  cases hi : (List.range m.num.toNat).find? fun i => m.count i = 0 with
  | none =>
    rw [hi] at hfind
    rw [hfind]
    exact ⟨rfl, m.count, rfl, by simpa using h⟩
  | some i =>
    rw [hi] at hfind
    have hlt : i < m.num.toNat := List.mem_range.mp (List.mem_of_find?_eq_some hi)
    have hzero : m.count i = 0 := by simpa using List.find?_some hi
    have hfree := (h.count_eq_zero hlt).mp hzero
    rw [hfind]
    refine ⟨congrArg some (hm.pointer_eq hlt), _, rfl, ?_, ?_, ?_⟩
    · exact List.nodup_append.mpr ⟨h.nodup, List.nodup_singleton _, fun a ha b hb e =>
        hfree (List.mem_singleton.mp hb ▸ e ▸ ha)⟩
    · exact List.append_subset.mpr ⟨h.subset, fun p hp =>
        Memb.mem_blocks.mpr ⟨i, hlt, (List.mem_singleton.mp hp).symm⟩⟩
    · intro j hj
      show Function.update m.count i (m.count i + 1) j = if m.block j ∈ used ++ [m.block i] then 1 else 0
      by_cases hji : j = i
      · subst hji
        rw [Function.update_self, hzero, if_pos (by simp)]
        rfl
      · have hne : m.block j ≠ m.block i := fun e => hji (hm.block_inj e)
        rw [Function.update_of_ne hji, h.count j hj]
        simp only [List.mem_append, List.mem_singleton, hne, or_false]

/-- `memb_free` gives a block back that is used, and leaves everything else alone. -/
theorem membFree_eq (hm : m.Fits) (h : m.InUse used) (p : Nat) :
    (membFree m p).1 = (if p ∈ m.blocks then 0 else -1) ∧
      ∃ c, (membFree m p).2 = { m with count := c } ∧ Memb.InUse { m with count := c } (used.erase p) := by
  unfold membFree
  cases hi : (List.range m.num.toNat).find? fun i => m.mem + i * m.size.toNat = p with
  | none =>
    have hp : p ∉ m.blocks := by
      intro hmem
      obtain ⟨j, hj, hblock⟩ := Memb.mem_blocks.mp hmem
      exact List.find?_eq_none.mp hi j (List.mem_range.mpr hj) (decide_eq_true hblock)
    rw [if_neg hp, List.erase_of_not_mem fun hmem => hp (h.subset hmem)]
    exact ⟨rfl, m.count, rfl, h⟩
  | some i =>
    have hlt : i < m.num.toNat := List.mem_range.mp (List.mem_of_find?_eq_some hi)
    have hblock : m.mem + i * m.size.toNat = p := by simpa using List.find?_some hi
    obtain rfl : m.block i = p := hblock
    rw [if_pos (Memb.mem_blocks.mpr ⟨i, hlt, rfl⟩)]
    dsimp only
    by_cases hused : m.block i ∈ used
    · have hone : m.count i = 1 := by rw [h.count i hlt, if_pos hused]
      rw [hone, if_pos (by decide)]
      refine ⟨Function.update_self _ _ _, _, rfl, h.nodup.erase _, ?_, ?_⟩
      · exact fun p hp => h.subset (List.mem_of_mem_erase hp)
      · intro j hj
        show Function.update m.count i (1 - 1) j = if m.block j ∈ used.erase (m.block i) then 1 else 0
        by_cases hji : j = i
        · subst hji
          rw [Function.update_self, if_neg h.nodup.not_mem_erase]
          rfl
        · have hne : m.block j ≠ m.block i := fun e => hji (hm.block_inj e)
          rw [Function.update_of_ne hji, h.count j hj]
          simp only [List.mem_erase_of_ne hne]
    · have hzero : m.count i = 0 := (h.count_eq_zero hlt).mpr hused
      rw [hzero, if_neg (by decide), List.erase_of_not_mem hused]
      exact ⟨hzero, m.count, rfl, h⟩

theorem membNumfree_eq (hm : m.Fits) (h : m.InUse used) : membNumfree m = m.num.toNat - used.length := by
  have hperm : (m.blocks.filter fun p => p ∈ used).Perm used := by
    apply (List.perm_ext_iff_of_nodup (hm.nodup_blocks.filter _) h.nodup).mpr
    intro p
    simp only [List.mem_filter, decide_eq_true_eq]
    exact and_iff_right_of_imp fun hp => h.subset hp
  have hlen : (List.range m.num.toNat).countP (fun i => m.block i ∈ used) = used.length := by
    rw [← hperm.length_eq, ← List.countP_eq_length_filter, Memb.blocks, List.countP_map]
    rfl
  have hall := List.length_eq_countP_add_countP (fun i => decide (m.block i ∈ used)) (l := List.range m.num.toNat)
  rw [hlen, List.length_range] at hall
  have hcount : membNumfree m =
      (List.range m.num.toNat).countP fun i => decide ¬decide (m.block i ∈ used) = true := by
    apply List.countP_congr
    intro i hi
    rw [decide_eq_true_iff, decide_eq_true_iff, decide_eq_true_iff]
    exact h.count_eq_zero (List.mem_range.mp hi)
  omega

theorem inUse_init (m : Memb) (μ : Nat → U8) : (membInit m μ).1.InUse [] where
  nodup := List.nodup_nil
  subset := List.nil_subset _
  count := by
    intro i hi
    rw [if_neg List.not_mem_nil]
    exact if_pos hi

end

/-! ## Calls -/

inductive MembCall
  | alloc
  | free (ptr : Nat)
  | numfree

inductive MembReturn
  | pointer (o : Option Nat)
  | char (c : U8)
  | number (n : Nat)
deriving DecidableEq

def MembCall.run (m : Memb) : MembCall → Option (MembReturn × Memb)
  | .alloc => some (.pointer (membAlloc m).1, (membAlloc m).2)
  | .free p => some (.char (membFree m p).1, (membFree m p).2)
  | .numfree => some (.number (membNumfree m), m)

def MembCall.apply (blocks : List Nat) (used : List Nat) : MembCall → MembReturn × List Nat
  | .alloc => (.pointer (blocks.find? (· ∉ used)), used ++ (blocks.find? (· ∉ used)).toList)
  | .free p => (.char (if p ∈ blocks then 0 else -1), used.erase p)
  | .numfree => (.number (blocks.length - used.length), used)

/-- The blocks of `m` with other counts. -/
def Memb.Blocks (m : Memb) (m' : Memb) (used : List Nat) : Prop := ∃ c, m' = { m with count := c } ∧ m'.InUse used

section
variable {m m' : Memb} {used : List Nat}

theorem MembCall.run_eq (hm : m.Fits) (h : m.Blocks m' used) (a : MembCall) :
    ∃ m'', a.run m' = some ((a.apply m.blocks used).1, m'') ∧ m.Blocks m'' (a.apply m.blocks used).2 := by
  obtain ⟨c, rfl, h⟩ := h
  have hm' : Memb.Fits { m with count := c } := ⟨hm.pos, hm.fits⟩
  cases a with
  | alloc =>
    obtain ⟨hreturn, d, hd, huse⟩ := membAlloc_eq hm' h
    refine ⟨_, by rw [MembCall.run, hreturn]; rfl, d, hd, ?_⟩
    rw [hd]
    exact huse
  | free p =>
    obtain ⟨hreturn, d, hd, huse⟩ := membFree_eq hm' h p
    refine ⟨_, by rw [MembCall.run, hreturn]; rfl, d, hd, ?_⟩
    rw [hd]
    exact huse
  | numfree =>
    have hcount := membNumfree_eq hm' h
    have hlen : m.blocks.length = m.num.toNat := by
      unfold Memb.blocks
      rw [List.length_map, List.length_range]
    refine ⟨_, ?_, c, rfl, h⟩
    rw [MembCall.run, hcount, MembCall.apply, hlen]

/-- Calls after `memb_init`, in any order and with any pointers. -/
theorem memb_of_calls (hm : m.Fits) (μ : Nat → U8) (calls : List MembCall) :
    ∃ m', callAll MembCall.run (membInit m μ).1 calls =
        some ((applyAll (MembCall.apply m.blocks) [] calls).1, m') ∧
      m.Blocks m' (applyAll (MembCall.apply m.blocks) [] calls).2 := by
  have hstart : m.Blocks (membInit m μ).1 [] := ⟨_, rfl, inUse_init m μ⟩
  have hall : ∀ used, AllAllowed (fun _ _ => True) (MembCall.apply m.blocks) used calls := by
    induction calls with
    | nil => exact fun _ => trivial
    | cons a as ih => exact fun used => ⟨trivial, ih _⟩
  exact callAll_of_simulation (fun _ _ a h _ => a.run_eq hm h) hstart (hall [])

end

def threeBlocks : Memb := ⟨10, 3, fun _ => 0, 1000⟩

theorem threeBlocks_fits : threeBlocks.Fits := ⟨by decide, by decide⟩

/-- The first block is freed and allocated again; one address is none of a block. -/
theorem memb_of_calls_threeBlocks :
    ∃ m', callAll MembCall.run (membInit threeBlocks fun _ => 0).1
        [.alloc, .alloc, .free 1000, .free 1005, .alloc, .numfree] =
      some ([.pointer (some 1000), .pointer (some 1010), .char 0, .char (-1), .pointer (some 1000), .number 1], m') := by
  obtain ⟨m', hrun, -⟩ := memb_of_calls threeBlocks_fits (fun _ => 0)
    [.alloc, .alloc, .free 1000, .free 1005, .alloc, .numfree]
  exact ⟨m', hrun.trans (by rfl)⟩

/-! ## Pools -/

/-- A block is allocated and put at the end of a list, or taken out of the list and freed. -/
inductive PoolCall
  | acquire
  | release (ptr : Nat)
  deriving DecidableEq

section
variable {κ : Type*} [DecidableEq κ]

def PoolCall.run (fuel : Nat) (list : κ) (s : Memb × Lists κ Nat) : PoolCall → Option (Option Nat × Memb × Lists κ Nat)
  | .acquire =>
    match membAlloc s.1 with
    | (none, m) => some (none, m, s.2)
    | (some p, m) => (listAdd fuel s.2 list p).map fun l => (some p, m, l)
  | .release p => (listRemove fuel s.2 list p).map fun l => (none, (membFree s.1 p).2, l)

def PoolCall.apply (blocks : List Nat) (elems : List Nat) : PoolCall → Option Nat × List Nat
  | .acquire => (blocks.find? (· ∉ elems), elems ++ (blocks.find? (· ∉ elems)).toList)
  | .release p => (none, elems.erase p)

variable {m : Memb} {list : κ} {elems : κ → List Nat} {xs : List Nat} {s : Memb × Lists κ Nat}

/-- The blocks that are used are the elements of `list`; the other lists have the elements `elems`. -/
structure Pooled (m : Memb) (list : κ) (elems : κ → List Nat) (s : Memb × Lists κ Nat) (xs : List Nat) : Prop where
  blocks : m.Blocks s.1 xs
  lists : Represents s.2 (Function.update elems list xs)

theorem Pooled.length_le (h : Pooled m list elems s xs) :
    (Function.update elems list xs list).length ≤ m.num.toNat := by
  obtain ⟨c, hc, huse⟩ := h.blocks
  have hsub := huse.subset
  rw [hc] at hsub
  have hlen := (huse.nodup.subperm hsub).length_le
  rw [Function.update_self]
  unfold Memb.blocks at hlen
  rwa [List.length_map, List.length_range] at hlen

theorem PoolCall.run_eq (hm : m.Fits) (hother : ∀ p ∈ m.blocks, Elsewhere elems list p)
    (h : Pooled m list elems s xs) (a : PoolCall) :
    ∃ s', a.run m.num.toNat list s = some ((a.apply m.blocks xs).1, s') ∧
      Pooled m list elems s' (a.apply m.blocks xs).2 := by
  have hlen := h.length_le
  obtain ⟨⟨c, hc, huse⟩, hrep⟩ := h
  have hfits : s.1.Fits := hc ▸ ⟨hm.pos, hm.fits⟩
  have hblocks : s.1.blocks = m.blocks := by rw [hc]; rfl
  cases a with
  | acquire =>
    obtain ⟨hreturn, d, hd, huse'⟩ := membAlloc_eq hfits huse
    rw [hblocks] at hreturn huse'
    have hsnd : (membAlloc s.1).2 = { m with count := d } := by rw [hd, hc]
    have hpair : membAlloc s.1 = (m.blocks.find? (· ∉ xs), { m with count := d }) :=
      Prod.ext hreturn hsnd
    have huse'' : m.Blocks { m with count := d } (xs ++ (m.blocks.find? (· ∉ xs)).toList) :=
      ⟨d, rfl, by rw [hc] at huse'; exact huse'⟩
    unfold PoolCall.run PoolCall.apply
    dsimp only
    rw [hpair]
    cases hfind : m.blocks.find? (· ∉ xs) with
    | none =>
      rw [hfind] at huse''
      refine ⟨_, rfl, huse'', ?_⟩
      rw [Option.toList_none, List.append_nil]
      exact hrep
    | some p =>
      rw [hfind] at huse''
      have hp : p ∉ xs := by simpa using List.find?_some hfind
      have helse : Elsewhere (Function.update elems list xs) list p := by
        intro j hj
        rw [Function.update_of_ne hj]
        exact hother p (List.mem_of_find?_eq_some hfind) j hj
      obtain ⟨t, ht, hadd⟩ := listAdd_eq hrep helse hlen
      rw [Function.update_self, Function.update_idem, List.erase_of_not_mem hp] at hadd
      refine ⟨({ m with count := d }, t), ?_, huse'', hadd⟩
      dsimp only
      rw [ht]
      rfl
  | release p =>
    obtain ⟨-, d, hd, huse'⟩ := membFree_eq hfits huse p
    obtain ⟨t, ht, hremove⟩ := listRemove_eq (x := p) hrep hlen
    rw [Function.update_self, Function.update_idem] at hremove
    refine ⟨_, by rw [PoolCall.run, ht]; rfl, ⟨d, ?_, ?_⟩, hremove⟩
    · rw [hd, hc]
    · rw [hd]
      exact huse'

/-- A pool from `memb_init` and an empty list on: no block is given out while it is used, and none is lost. -/
theorem pool_of_calls (hm : m.Fits) (hother : ∀ p ∈ m.blocks, Elsewhere elems list p) (μ : Nat → U8)
    {l : Lists κ Nat} (hl : Represents l (Function.update elems list [])) (calls : List PoolCall) :
    ∃ s, callAll (PoolCall.run m.num.toNat list) ((membInit m μ).1, l) calls =
        some ((applyAll (PoolCall.apply m.blocks) [] calls).1, s) ∧
      Pooled m list elems s (applyAll (PoolCall.apply m.blocks) [] calls).2 := by
  have hstart : Pooled m list elems ((membInit m μ).1, l) [] := ⟨⟨_, rfl, inUse_init m μ⟩, hl⟩
  have hall : ∀ xs, AllAllowed (fun _ _ => True) (PoolCall.apply m.blocks) xs calls := by
    induction calls with
    | nil => exact fun _ => trivial
    | cons a as ih => exact fun xs => ⟨trivial, ih _⟩
  exact callAll_of_simulation (fun _ _ a h _ => a.run_eq hm hother h) hstart (hall [])

end

/-- All three blocks are acquired, the second is released and acquired again. -/
theorem pool_of_calls_threeBlocks :
    ∃ s, callAll (PoolCall.run 3 (0 : Fin 2)) ((membInit threeBlocks fun _ => 0).1, ⟨fun _ => none, fun _ => none⟩)
        [.acquire, .acquire, .acquire, .acquire, .release 1010, .acquire] =
      some ([some 1000, some 1010, some 1020, none, none, some 1010], s) ∧
      Pooled threeBlocks 0 (fun _ => []) s [1000, 1020, 1010] := by
  have hstart : Represents (⟨fun _ => none, fun _ => none⟩ : Lists (Fin 2) Nat)
      (Function.update (fun _ => []) 0 []) := by
    rw [Function.update_eq_self]
    exact represents_start _
  exact pool_of_calls threeBlocks_fits (fun p _ k _ => List.not_mem_nil) (fun _ => 0) hstart
    [.acquire, .acquire, .acquire, .acquire, .release 1010, .acquire]

end Unet4Cooja.Contiki
