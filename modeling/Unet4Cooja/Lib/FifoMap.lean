import Mathlib.Data.List.Nodup
import Unet4Cooja.Lib.Ring

/-!
# Maps that forget the oldest key

* `FifoMap` : the keys in the order of their insertion and the latest value of each; the last `cap` insertions are
  `live`, and no key is live twice;
* `mem_live_iff` : a key is live if it was inserted and fewer than `cap` keys were inserted after it;
* `Stores` : a ring of `cap` slots with an index for the next insertion holds the live keys, with `Stores.update`
  and `Stores.insert` for the two ways to add a key, and what a search finds (`Stores.exists_iff`, `Stores.value`,
  `Stores.unique`).
-/

namespace Lib

variable {cap : Nat} {α β : Type*}

/-- The keys inserted since the last clear, the oldest first, and the latest value of each. -/
structure FifoMap (cap : Nat) (α β : Type*) where
  inserted : List α
  value : α → Option β
  nodup : (inserted.drop (inserted.length - cap)).Nodup

namespace FifoMap

/-- The keys of the last `cap` insertions. -/
def live (m : FifoMap cap α β) : List α := m.inserted.drop (m.inserted.length - cap)

def empty : FifoMap cap α β := ⟨[], fun _ => none, by simp⟩

variable (m : FifoMap cap α β) {d e : α} {v : β} {k i j : Nat}

theorem nodup_append_drop {l : List α} (hl : (l.drop (l.length - cap)).Nodup)
    (hd : d ∉ l.drop (l.length - cap)) : ((l ++ [d]).drop ((l ++ [d]).length - cap)).Nodup := by
  rw [List.length_append, List.length_singleton]
  rcases Nat.eq_zero_or_pos cap with rfl | hpos
  · rw [List.drop_of_length_le (by simp)]
    exact List.nodup_nil
  · have hsub : (l.drop (l.length + 1 - cap)).Sublist (l.drop (l.length - cap)) :=
      List.drop_sublist_drop_left l (by omega)
    rw [List.drop_append_of_le_length (by omega)]
    refine List.nodup_append.mpr ⟨hl.sublist hsub, List.nodup_singleton d, ?_⟩
    intro a ha b hb hab
    rw [List.mem_singleton.mp hb] at hab
    exact hd (hsub.subset (hab ▸ ha))

/-- A live key gets a new value; any other key is inserted. -/
def add [DecidableEq α] (d : α) (v : β) : FifoMap cap α β :=
  if h : d ∈ m.live then { m with value := Function.update m.value d (some v) }
  else ⟨m.inserted ++ [d], Function.update m.value d (some v), nodup_append_drop m.nodup h⟩

theorem mem_live_iff_getElem? :
    d ∈ m.live ↔ ∃ k, m.inserted[k]? = some d ∧ m.inserted.length ≤ k + cap := by
  unfold live
  rw [List.mem_iff_getElem?]
  constructor
  · rintro ⟨i, hi⟩
    rw [List.getElem?_drop] at hi
    exact ⟨_, hi, by omega⟩
  · rintro ⟨k, hk, hlen⟩
    refine ⟨k - (m.inserted.length - cap), ?_⟩
    rw [List.getElem?_drop, Nat.add_sub_cancel' (by omega)]
    exact hk

/-- A key is live if it was inserted, and fewer than `cap` keys were inserted after it. -/
theorem mem_live_iff : d ∈ m.live ↔
    ∃ before after, m.inserted = before ++ d :: after ∧ d ∉ after ∧ after.length < cap := by
  constructor
  · intro hd
    obtain ⟨before, after, hsplit⟩ := List.append_of_mem hd
    unfold live at hsplit
    have hno : d ∉ after := by
      have hnodup := m.nodup
      rw [hsplit, List.nodup_append] at hnodup
      exact (List.nodup_cons.mp hnodup.2.1).1
    refine ⟨m.inserted.take (m.inserted.length - cap) ++ before, after, ?_, hno, ?_⟩
    · rw [List.append_assoc, ← hsplit, List.take_append_drop]
    · have hlen := congrArg List.length hsplit
      rw [List.length_drop, List.length_append, List.length_cons] at hlen
      omega
  · rintro ⟨before, after, hsplit, _, hlt⟩
    rw [mem_live_iff_getElem?]
    refine ⟨before.length, ?_, ?_⟩
    · rw [hsplit]
      simp
    · rw [hsplit, List.length_append, List.length_cons]
      omega

theorem live_inj (hk : m.inserted[k]? = some d) (hlk : m.inserted.length ≤ k + cap)
    (hj : m.inserted[j]? = some d) (hlj : m.inserted.length ≤ j + cap) : k = j := by
  have hkl : k < m.inserted.length := (List.getElem?_eq_some_iff.mp hk).1
  have hget : ∀ l, m.inserted.length ≤ l + cap → m.live[l - (m.inserted.length - cap)]? = m.inserted[l]? := by
    intro l hl
    unfold live
    rw [List.getElem?_drop, Nat.add_sub_cancel' (by omega)]
  have hlive : k - (m.inserted.length - cap) < m.live.length := by
    unfold live
    rw [List.length_drop]
    omega
  have heq := (List.getElem?_inj hlive m.nodup).mp
    ((hget k hlk).trans (hk.trans (hj.symm.trans (hget j hlj).symm)))
  have hjl : j < m.inserted.length := (List.getElem?_eq_some_iff.mp hj).1
  omega

end FifoMap

open FifoMap

/-- The slots hold the live keys with their values, `index` is the slot of the next insertion, and a slot that was
not used yet has the key `free`. -/
structure Stores (free : α) (index : Nat) (slot : Nat → α × β) (m : FifoMap cap α β) : Prop where
  index : index = m.inserted.length % cap
  live : ∀ k d, m.inserted[k]? = some d → m.inserted.length ≤ k + cap →
    (slot (k % cap)).1 = d ∧ m.value d = some (slot (k % cap)).2
  unused : ∀ i < cap, m.inserted.length ≤ i → (slot i).1 = free

namespace Stores
variable {free d : α} {index i j : Nat} {slot : Nat → α × β} {m : FifoMap cap α β} {v : β}

theorem empty (h : ∀ i < cap, (slot i).1 = free) : Stores free 0 slot (.empty : FifoMap cap α β) where
  index := (Nat.zero_mod cap).symm
  live k d hk _ := by simp [FifoMap.empty] at hk
  unused i hi _ := h i hi

theorem exists_live (h : Stores free index slot m) (hi : i < cap) (hf : (slot i).1 ≠ free) :
    ∃ k, m.inserted[k]? = some (slot i).1 ∧ m.inserted.length ≤ k + cap ∧ k % cap = i := by
  have hlen : i < m.inserted.length := by
    by_contra hle
    exact hf (h.unused i hi (Nat.le_of_not_lt hle))
  have hdm := Nat.div_add_mod (m.inserted.length - 1 - i) cap
  have hml := Nat.mod_lt (m.inserted.length - 1 - i) (Nat.zero_lt_of_lt hi)
  have hk : (i + cap * ((m.inserted.length - 1 - i) / cap)) % cap = i := by
    rw [Nat.add_mul_mod_self_left, Nat.mod_eq_of_lt hi]
  obtain ⟨d, hd⟩ : ∃ d, m.inserted[i + cap * ((m.inserted.length - 1 - i) / cap)]? = some d :=
    ⟨_, List.getElem?_eq_getElem (by omega)⟩
  obtain ⟨hslot, _⟩ := h.live _ d hd (by omega)
  rw [hk] at hslot
  refine ⟨_, ?_, by omega, hk⟩
  rw [hslot]
  exact hd

theorem exists_iff (h : Stores free index slot m) (hcap : 0 < cap) (hd : d ≠ free) :
    (∃ i < cap, (slot i).1 = d) ↔ d ∈ m.live := by
  rw [mem_live_iff_getElem?]
  constructor
  · rintro ⟨i, hi, rfl⟩
    obtain ⟨k, hk, hlen, _⟩ := h.exists_live hi hd
    exact ⟨k, hk, hlen⟩
  · rintro ⟨k, hk, hlen⟩
    exact ⟨k % cap, Nat.mod_lt k hcap, (h.live k d hk hlen).1⟩

theorem value (h : Stores free index slot m) (hi : i < cap) (hk : (slot i).1 = d) (hd : d ≠ free) :
    m.value d = some (slot i).2 := by
  subst hk
  obtain ⟨k, hk, hlen, rfl⟩ := h.exists_live hi hd
  exact (h.live k _ hk hlen).2

theorem unique (h : Stores free index slot m) (hi : i < cap) (hj : j < cap) (hki : (slot i).1 = d)
    (hkj : (slot j).1 = d) (hd : d ≠ free) : i = j := by
  obtain ⟨k, hk, hlen, rfl⟩ := h.exists_live hi (hki ▸ hd)
  obtain ⟨l, hl, hlen', rfl⟩ := h.exists_live hj (hkj ▸ hd)
  rw [hki] at hk
  rw [hkj] at hl
  rw [m.live_inj hk hlen hl hlen']

variable [DecidableEq α]

theorem update (h : Stores free index slot m) (hi : i < cap) (hk : (slot i).1 = d) (hd : d ≠ free) (v : β) :
    Stores free index (Function.update slot i (d, v)) (m.add d v) := by
  have hcap : 0 < cap := Nat.zero_lt_of_lt hi
  rw [FifoMap.add, dif_pos ((h.exists_iff hcap hd).mp ⟨i, hi, hk⟩)]
  refine ⟨h.index, fun k e hke hlen => ?_, fun j hj hlen => ?_⟩
  · obtain ⟨hslot, hval⟩ := h.live k e hke hlen
    dsimp only
    by_cases hki : k % cap = i
    · have he : e = d := by rw [← hslot, hki, hk]
      rw [hki, he, Function.update_self, Function.update_self]
      exact ⟨rfl, rfl⟩
    · have hne : e ≠ d := by
        rintro rfl
        exact hki (h.unique (Nat.mod_lt k hcap) hi hslot hk hd)
      rw [Function.update_of_ne hki, Function.update_of_ne hne]
      exact ⟨hslot, hval⟩
  · have hji : j ≠ i := by
      rintro rfl
      exact hd (hk.symm.trans (h.unused j hj hlen))
    rw [Function.update_of_ne hji]
    exact h.unused j hj hlen

theorem insert (h : Stores free index slot m) (hcap : 0 < cap) (hd : d ∉ m.live) (v : β) :
    Stores free ((index + 1) % cap) (Function.update slot index (d, v)) (m.add d v) := by
  rw [FifoMap.add, dif_neg hd]
  refine ⟨?_, fun k e hk hlen => ?_, fun i hi hlen => ?_⟩
  · rw [h.index, List.length_append, List.length_singleton, Nat.mod_add_mod]
  · dsimp only at hk hlen ⊢
    rw [List.length_append, List.length_singleton] at hlen
    rcases Nat.lt_or_ge k m.inserted.length with hlt | hge
    · rw [List.getElem?_append_left hlt] at hk
      -- an older key has another slot
      have hslot : k % cap ≠ index := by
        rw [h.index]
        intro he
        have hdiff : k % cap = (k + (m.inserted.length - k)) % cap := by
          rwa [Nat.add_sub_cancel' hlt.le]
        have := Ring.add_mod_inj (a := k) (i := 0) (j := m.inserted.length - k) hcap (by omega) hdiff
        omega
      have hne : e ≠ d := by
        rintro rfl
        exact hd ((mem_live_iff_getElem? m).mpr ⟨k, hk, by omega⟩)
      rw [Function.update_of_ne hslot, Function.update_of_ne hne]
      exact h.live k e hk (by omega)
    · have hkl : k = m.inserted.length := by
        have := (List.getElem?_eq_some_iff.mp hk).1
        rw [List.length_append, List.length_singleton] at this
        omega
      rw [hkl] at hk ⊢
      have he : d = e := by simpa using hk
      rw [← h.index, Function.update_self, he, Function.update_self]
      exact ⟨rfl, rfl⟩
  · dsimp only at hlen
    rw [List.length_append, List.length_singleton] at hlen
    have hne : i ≠ index := by
      rw [h.index, Nat.mod_eq_of_lt (by omega)]
      omega
    rw [Function.update_of_ne hne]
    exact h.unused i hi (by omega)

end Stores

end Lib
