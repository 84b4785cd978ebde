import Unet4Cooja.Lib.FifoMap
import Unet4Cooja.RouteTable

/-!
# The up-route table as a map

* `RouteOp` : the additions and clears, on the table (`RouteOp.apply`) and on the map that remembers the last
  `RTABLE_UP_ENTRIES_MAX_NUM` new destinations (`RouteOp.note`);
* `StoresRoutes` : the table holds the map, and every operation keeps it so;
* `upTable_refines` : what a search finds after any operations.
-/

namespace Unet4Cooja
open Lib

/-- The destinations inserted since the last clear, and the next hop of the latest addition for each. -/
abbrev RouteMap := FifoMap rtableUpEntriesMaxNum Addr64 U16

inductive RouteOp
  | add (nextHop : U16) (dest : Addr64)
  | clear

namespace RouteOp

def apply (t : RTableUp) : RouteOp → RTableUp
  | .add nextHop dest => unetRouterUpTableEntryAdd t nextHop dest
  | .clear => unetRouterUpTableClear t

def note (m : RouteMap) : RouteOp → RouteMap
  | .add nextHop dest => m.add dest nextHop
  | .clear => .empty

/-- The destination is not the address of the free entries. -/
def HasDest : RouteOp → Prop
  | .add _ dest => dest ≠ RouteEntry.free.destAddr64
  | .clear => True

end RouteOp

/-- The table after the calls `ops`, the last one at the end. -/
def RTableUp.after (t : RTableUp) (ops : List RouteOp) : RTableUp := ops.foldl RouteOp.apply t

def RouteMap.after (ops : List RouteOp) : RouteMap := ops.foldl RouteOp.note FifoMap.empty

def RouteEntry.pair (r : RouteEntry) : Addr64 × U16 := (r.destAddr64, r.nextHop)

def StoresRoutes (t : RTableUp) (m : RouteMap) : Prop :=
  Stores RouteEntry.free.destAddr64 t.entryIndex (RouteEntry.pair ∘ t.table) m

section
variable {t : RTableUp} {m : RouteMap} {S : Addr64} {i : Nat}

theorem storesRoutes_clear (t : RTableUp) : StoresRoutes (unetRouterUpTableClear t) .empty := by
  unfold StoresRoutes
  rw [clear_index]
  refine Stores.empty fun i hi => ?_
  rw [Function.comp_apply, unetRouterUpTableClear_table hi]
  rfl

theorem StoresRoutes.add (h : StoresRoutes t m) (nextHop : U16) (hS : S ≠ RouteEntry.free.destAddr64) :
    StoresRoutes (unetRouterUpTableEntryAdd t nextHop S) (m.add S nextHop) := by
  unfold StoresRoutes
  cases hf : unetRouterUpTableEntryFind t S with
  | some e =>
    obtain ⟨he, hd, _⟩ := entryFind_eq_some.mp hf
    rw [entryAdd_found hf]
    dsimp only
    rw [Function.comp_update, hd]
    exact Stores.update h he hd hS nextHop
  | none =>
    have hno : S ∉ m.live := by
      intro hlive
      obtain ⟨j, hj, hd⟩ := (Stores.exists_iff h (by decide) hS).mpr hlive
      exact entryFind_eq_none.mp hf j hj hd
    rw [entryAdd_new hf]
    dsimp only
    rw [Function.comp_update]
    exact Stores.insert h (by decide) hno nextHop

theorem StoresRoutes.step {op : RouteOp} (h : StoresRoutes t m) (hop : op.HasDest) :
    StoresRoutes (op.apply t) (op.note m) := by
  cases op with
  | add nextHop dest => exact h.add nextHop hop
  | clear => exact storesRoutes_clear t

theorem storesRoutes_after (t : RTableUp) {ops : List RouteOp} (hops : ∀ op ∈ ops, op.HasDest) :
    StoresRoutes ((unetRouterUpTableClear t).after ops) (.after ops) := by
  induction ops using List.reverseRecOn with
  | nil => exact storesRoutes_clear t
  | append_singleton ops op ih =>
    unfold RTableUp.after RouteMap.after at ih ⊢
    rw [List.foldl_append, List.foldl_append]
    exact (ih fun o ho => hops o (List.mem_append_left _ ho)).step
      (hops op (List.mem_append_right _ (List.mem_singleton_self op)))

end

/-- After any calls on an empty table, a search finds a destination exactly if it was inserted since the last clear
and fewer than `RTABLE_UP_ENTRIES_MAX_NUM` destinations were inserted after it; the entry has the next hop of the
latest addition, and no destination is in two entries. -/
theorem upTable_refines (t : RTableUp) (ops : List RouteOp) (hops : ∀ op ∈ ops, op.HasDest) (S : Addr64)
    (hS : S ≠ RouteEntry.free.destAddr64) :
    ((∃ i, unetRouterUpTableEntryFind ((unetRouterUpTableClear t).after ops) S = some i) ↔
      ∃ before later, (RouteMap.after ops).inserted = before ++ S :: later ∧ S ∉ later ∧
        later.length < rtableUpEntriesMaxNum) ∧
    (∀ i, unetRouterUpTableEntryFind ((unetRouterUpTableClear t).after ops) S = some i →
      (RouteMap.after ops).value S =
        some (unetRouterUpTableEntryGet ((unetRouterUpTableClear t).after ops) i)) ∧
    ∀ i < rtableUpEntriesMaxNum, ∀ j < rtableUpEntriesMaxNum,
      (((unetRouterUpTableClear t).after ops).table i).destAddr64 = S →
        (((unetRouterUpTableClear t).after ops).table j).destAddr64 = S → i = j := by
  have h := storesRoutes_after t hops
  generalize (unetRouterUpTableClear t).after ops = u at h ⊢
  refine ⟨?_, fun i hi => ?_, fun i hi j hj hd hd' => ?_⟩
  · rw [← FifoMap.mem_live_iff, ← Stores.exists_iff h (by decide) hS]
    constructor
    · rintro ⟨i, hi⟩
      obtain ⟨hlt, hd, _⟩ := entryFind_eq_some.mp hi
      exact ⟨i, hlt, hd⟩
    · rintro ⟨i, hlt, hd⟩
      exact firstBelow_isSome hlt (decide_eq_true hd)
  · obtain ⟨hlt, hd, _⟩ := entryFind_eq_some.mp hi
    exact Stores.value h hlt hd hS
  · exact Stores.unique h hi hj hd hd' hS

/-- A route that is added, updated and found. -/
theorem upTable_refines_updated :
    ∃ i, unetRouterUpTableEntryFind ((unetRouterUpTableClear default).after
        [.add 7 (fun _ => 1), .add 8 (fun _ => 1)]) (fun _ => 1) = some i ∧
      unetRouterUpTableEntryGet ((unetRouterUpTableClear default).after
        [.add 7 (fun _ => 1), .add 8 (fun _ => 1)]) i = 8 := by
  have hops : ∀ op ∈ [RouteOp.add 7 (fun _ => 1), .add 8 (fun _ => 1)], op.HasDest := by
    intro op hop
    simp only [List.mem_cons, List.not_mem_nil, or_false] at hop
    rcases hop with rfl | rfl <;> exact (by decide : (fun _ => 1 : Addr64) ≠ RouteEntry.free.destAddr64)
  obtain ⟨hfound, hvalue, _⟩ := upTable_refines default _ hops (fun _ => 1) (by decide)
  obtain ⟨i, hi⟩ := hfound.mpr ⟨[], [], by decide, by simp, by decide⟩
  refine ⟨i, hi, ?_⟩
  have hlast : (RouteMap.after [.add 7 (fun _ => 1), .add 8 (fun _ => 1)]).value (fun _ => 1) = some 8 := by
    decide
  exact Option.some.inj ((hvalue i hi).symm.trans hlast)

end Unet4Cooja
