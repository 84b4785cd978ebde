import Unet4Cooja.Lib.ForRange
import Unet4Cooja.Packet

/-!
# The up-route table (`unet_router.c`)

`RTableUp` is the table `rtable_up`; `unetRouterUpTableClear`, `...EntryFind`, `...EntryAdd` and
`...EntryGet` are its operations, each with what it does to the table (`unetRouterUpTableClear_eq`,
`entryFind_eq_some`, `entryFind_eq_none`, `entryAdd_found`, `entryAdd_new`).
-/

namespace Unet4Cooja
open Lib

abbrev rtableUpEntriesMaxNum : Nat := 100

/-- `unet_routing_table_up_t`. -/
structure RouteEntry where
  nextHop : U16
  destAddr64 : Addr64
  deriving DecidableEq, Inhabited

/-- `rtable_up`. Indices from `RTABLE_UP_ENTRIES_MAX_NUM` on stand for the memory after the array. -/
structure RTableUp where
  entryIndex : Nat
  table : Nat → RouteEntry
  deriving Inhabited

/-- The free entry `unet_router_up_table_clear` writes. -/
def RouteEntry.free : RouteEntry := ⟨0, fun _ => 0⟩

def unetRouterUpTableClear (t : RTableUp) : RTableUp :=
  forRange rtableUpEntriesMaxNum
    (fun i t => { entryIndex := 0, table := Function.update t.table i .free }) t

def unetRouterUpTableEntryFind (t : RTableUp) (dest64 : Addr64) : Option Nat :=
  firstBelow rtableUpEntriesMaxNum fun i => (t.table i).destAddr64 = dest64

def unetRouterUpTableEntryAdd (t : RTableUp) (nextHop : U16) (dest64 : Addr64) : RTableUp :=
  match unetRouterUpTableEntryFind t dest64 with
  | some i => { t with table := Function.update t.table i { t.table i with nextHop := nextHop } }
  | none =>
    { entryIndex := (t.entryIndex + 1) % rtableUpEntriesMaxNum
      table := Function.update t.table t.entryIndex ⟨nextHop, dest64⟩ }

def unetRouterUpTableEntryGet (t : RTableUp) (idx : Nat) : U16 := (t.table idx).nextHop

section
variable {t : RTableUp} {S dest : Addr64} {e k : Nat} {nextHop : U16}

theorem unetRouterUpTableClear_eq (t : RTableUp) :
    unetRouterUpTableClear t =
      { entryIndex := 0
        table := fun i => if i < rtableUpEntriesMaxNum then .free else t.table i } := by
  have key : ∀ k, forRange (k + 1)
      (fun i t => { entryIndex := 0, table := Function.update t.table i .free }) t =
        { entryIndex := 0, table := fun i => if i < k + 1 then .free else t.table i } := by
    intro k
    induction k with
    | zero =>
      rw [forRange, forRange]
      congr 1
      funext i
      rw [Function.update_apply]
      simp
    | succ k ih =>
      rw [forRange, ih]
      congr 1
      funext i
      rw [Function.update_apply]
      dsimp only
      rcases lt_trichotomy i (k + 1) with h | rfl | h
      · rw [if_neg h.ne, if_pos h, if_pos (by omega)]
      · rw [if_pos rfl, if_pos (Nat.lt_succ_self _)]
      · rw [if_neg h.ne', if_neg (by omega), if_neg (by omega)]
  exact key 99

theorem unetRouterUpTableClear_table (hk : k < rtableUpEntriesMaxNum) :
    (unetRouterUpTableClear t).table k = .free := by
  rw [unetRouterUpTableClear_eq]
  exact if_pos hk

theorem clear_index (t : RTableUp) : (unetRouterUpTableClear t).entryIndex = 0 := by
  rw [unetRouterUpTableClear_eq]

theorem entryFind_eq_some : unetRouterUpTableEntryFind t S = some e ↔
    e < rtableUpEntriesMaxNum ∧ (t.table e).destAddr64 = S ∧ ∀ j < e, (t.table j).destAddr64 ≠ S := by
  unfold unetRouterUpTableEntryFind
  simp [firstBelow_eq_some]

theorem entryFind_eq_none : unetRouterUpTableEntryFind t S = none ↔
    ∀ j < rtableUpEntriesMaxNum, (t.table j).destAddr64 ≠ S := by
  unfold unetRouterUpTableEntryFind
  simp [firstBelow_eq_none]

theorem entryAdd_found (hf : unetRouterUpTableEntryFind t dest = some e) :
    unetRouterUpTableEntryAdd t nextHop dest =
      { t with table := Function.update t.table e { t.table e with nextHop := nextHop } } := by
  simp [unetRouterUpTableEntryAdd, hf]

theorem entryAdd_new (hf : unetRouterUpTableEntryFind t dest = none) :
    unetRouterUpTableEntryAdd t nextHop dest =
      { entryIndex := (t.entryIndex + 1) % rtableUpEntriesMaxNum
        table := Function.update t.table t.entryIndex ⟨nextHop, dest⟩ } := by
  simp [unetRouterUpTableEntryAdd, hf]

end

end Unet4Cooja
