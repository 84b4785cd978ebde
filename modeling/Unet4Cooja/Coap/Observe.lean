import Unet4Cooja.Contiki.Memb
import Unet4Cooja.Coap.Message
import Unet4Cooja.Lib.Runs

/-!
# Observers (`er-coap-observe.c`)

* `CoapObserver`, `ObserverSys` : the observers in their blocks, and the list of those that are registered;
* `removeObservers` : the loop of the functions that remove observers; `removeObservers_eq` : it ends with the first
  observer that it removes;
* `coapAddObserver`, `coapAddObserver_eq`, `refused_iff` : registering;
* `ObserverAct`, `observerStep`, `unique_of_runs` : what is registered after any calls.
-/

namespace Unet4Cooja.Coap
open Lib Contiki

/-- `coap_observer_t`, without `next`; `url` is a pointer. -/
structure CoapObserver where
  url : Nat
  addr : U64
  port : U16
  tokenLen : U8
  token : Nat → U8
  lastMid : U16
  obsCounter : U32

/-- `observers_memb` with its counts, `observers_list` among the lists of the mote, and the blocks. -/
structure ObserverSys (κ : Type*) where
  memb : Memb
  lists : Lists κ Nat
  obs : Nat → CoapObserver

section
variable {κ : Type*} [DecidableEq κ] (fuel : Nat) (observersList : κ) (s : ObserverSys κ)

/-! ## Removal -/

def coapRemoveObserver (o : Nat) : Option (ObserverSys κ) :=
  let m := (membFree s.memb o).2
  (listRemove fuel s.lists observersList o).map fun l => { s with memb := m, lists := l }

/-- The loop over `observers_list` that removes the observers with `p`, with `removed`. -/
def removeFromObs (p : CoapObserver → Bool) : Nat → Nat → Option Nat → ObserverSys κ → Option (Nat × ObserverSys κ)
  | _, removed, none, s => some (removed, s)
  | 0, _, some _, _ => none
  | rounds + 1, removed, some obs, s =>
    if p (s.obs obs) then
      (coapRemoveObserver fuel observersList s obs).bind fun s =>
        removeFromObs p rounds (removed + 1) (s.lists.next obs) s
    else removeFromObs p rounds removed (s.lists.next obs) s

def removeObservers (p : CoapObserver → Bool) : Option (Nat × ObserverSys κ) :=
  removeFromObs fuel observersList p fuel 0 (s.lists.head observersList) s

variable (text : Nat → List U8) (addr : U64) (port : U16)

def CoapObserver.isClient (o : CoapObserver) : Bool := o.addr = addr ∧ o.port = port

/-- `memcmp` compares as many bytes as the registered URL has. -/
def CoapObserver.isUri (o : CoapObserver) (uri : Nat) : Bool :=
  o.url = uri ∨ (text o.url).isPrefixOf (text uri)

def coapRemoveObserverByClient : Option (Nat × ObserverSys κ) :=
  removeObservers fuel observersList s fun o => o.isClient addr port

def coapRemoveObserverByToken (token : Nat → U8) (tokenLen : Nat) : Option (Nat × ObserverSys κ) :=
  removeObservers fuel observersList s fun o =>
    o.isClient addr port && decide (o.tokenLen.toNat = tokenLen) &&
      decide (slice o.token 0 tokenLen = slice token 0 tokenLen)

/-- Without a client, `addr` is `NULL`. -/
def coapRemoveObserverByUri (client : Option (U64 × U16)) (uri : Nat) : Option (Nat × ObserverSys κ) :=
  removeObservers fuel observersList s fun o =>
    (client.elim true fun c => o.isClient c.1 c.2) && o.isUri text uri

def coapRemoveObserverByMid (mid : U16) : Option (Nat × ObserverSys κ) :=
  removeObservers fuel observersList s fun o => o.isClient addr port && decide (o.lastMid = mid)

/-! ## Registration -/

/-- What `coap_add_observer` writes into a block; the counter of a block that is used again stays what it was. -/
def CoapObserver.register (o : CoapObserver) (token : Nat → U8) (tokenLen uri : Nat) : CoapObserver :=
  { o with url := uri, addr := addr, port := port, tokenLen := BitVec.ofNat 8 tokenLen
           token := store o.token 0 (slice token 0 tokenLen), lastMid := 0 }

def coapAddObserver (token : Nat → U8) (tokenLen uri : Nat) : Option (Option Nat × ObserverSys κ) :=
  (coapRemoveObserverByUri fuel observersList s text (some (addr, port)) uri).bind fun r =>
    match membAlloc r.2.memb with
    | (none, m) => some (none, { r.2 with memb := m })
    | (some o, m) =>
      (listAdd fuel r.2.lists observersList o).map fun l =>
        (some o, ⟨m, l, Function.update r.2.obs o ((r.2.obs o).register addr port token tokenLen uri)⟩)

end

/-! ## What is registered -/

section
variable {κ : Type*} [DecidableEq κ] {m : Memb} {observersList : κ} {elems : κ → List Nat} {xs pre rest : List Nat}
  {s t : ObserverSys κ} {p : CoapObserver → Bool} {o : Option Nat} {obs rounds : Nat}

/-- The blocks that are used are the elements `xs` of `observers_list`; the other lists have the elements `elems`. -/
abbrev Observed (m : Memb) (observersList : κ) (elems : κ → List Nat) (s : ObserverSys κ) (xs : List Nat) : Prop :=
  Pooled m observersList elems (s.memb, s.lists) xs

theorem Observed.chain (h : Observed m observersList elems s xs) :
    Chain s.lists.next (s.lists.head observersList) xs none := by
  have hchain := h.lists.chain observersList
  rwa [Function.update_self] at hchain

theorem Observed.nodup (h : Observed m observersList elems s xs) : xs.Nodup := by
  obtain ⟨_, _, huse⟩ := h.blocks
  exact huse.nodup

theorem Observed.length_le' (h : Observed m observersList elems s xs) : xs.length ≤ m.num.toNat := by
  have hlen := h.length_le
  rwa [Function.update_self] at hlen

theorem coapRemoveObserver_eq (hm : m.Fits) (hother : ∀ p ∈ m.blocks, Elsewhere elems observersList p)
    (h : Observed m observersList elems s xs) (hobs : obs ∈ xs) :
    ∃ t, coapRemoveObserver m.num.toNat observersList s obs = some t ∧ t.obs = s.obs ∧
      t.lists.next obs = none ∧ Observed m observersList elems t (xs.erase obs) := by
  obtain ⟨s', hrun, hpooled⟩ := PoolCall.run_eq hm hother h (.release obs)
  obtain ⟨l, hl, hs'⟩ := Option.map_eq_some_iff.mp hrun
  obtain rfl := (Prod.mk.inj hs').2
  refine ⟨{ s with memb := (membFree s.memb obs).2, lists := l }, ?_, rfl, ?_, hpooled⟩
  · unfold coapRemoveObserver
    dsimp only
    rw [show listRemove m.num.toNat s.lists observersList obs = some l from hl]
    rfl
  · exact listRemove_next h.lists h.length_le (by rwa [Function.update_self]) hl

theorem removeFromObs_eq (removed : Nat) (hm : m.Fits) (hother : ∀ p ∈ m.blocks, Elsewhere elems observersList p)
    (h : Observed m observersList elems s (pre ++ rest)) (hpre : ∀ x ∈ pre, ¬ p (s.obs x) = true)
    (hc : Chain s.lists.next o rest none) (hrounds : rest.length ≤ rounds) :
    ∃ t, removeFromObs m.num.toNat observersList p rounds removed o s =
        some (removed + (if rest.any fun x => p (s.obs x) then 1 else 0), t) ∧
      t.obs = s.obs ∧ Observed m observersList elems t ((pre ++ rest).eraseP fun x => p (s.obs x)) := by
  induction rest generalizing pre rounds o with
  | nil =>
    obtain rfl : o = none := hc
    refine ⟨s, ?_, rfl, ?_⟩
    · unfold removeFromObs
      rfl
    · rw [List.append_nil] at h ⊢
      rwa [List.eraseP_of_forall_not hpre]
  | cons x rest ih =>
    obtain ⟨rfl, hnext⟩ := hc
    obtain ⟨n, rfl⟩ : ∃ n, rounds = n + 1 := ⟨rounds - 1, by rw [List.length_cons] at hrounds; omega⟩
    rw [removeFromObs]
    by_cases hx : p (s.obs x)
    · rw [if_pos hx, List.any_cons, hx, Bool.true_or, if_pos rfl]
      obtain ⟨t, ht, hobs, hnull, hpooled⟩ := coapRemoveObserver_eq hm hother h
        (List.mem_append_right _ List.mem_cons_self)
      have hxpre : x ∉ pre := fun hmem => hpre x hmem hx
      rw [List.erase_append_right _ hxpre, List.erase_cons_head] at hpooled
      refine ⟨t, ?_, hobs, ?_⟩
      · rw [ht, Option.bind_some, hnull]
        unfold removeFromObs
        rfl
      · have herase : List.eraseP (fun b => p (s.obs b)) (x :: rest) = rest := List.eraseP_cons_of_pos hx
        rwa [List.eraseP_append_right _ hpre, herase]
    · have hassoc : pre ++ x :: rest = (pre ++ [x]) ++ rest := by simp
      rw [if_neg hx, List.any_cons, Bool.eq_false_iff.mpr hx, Bool.false_or, hassoc]
      rw [hassoc] at h
      apply ih h _ hnext (by rw [List.length_cons] at hrounds; omega)
      intro y hy
      rcases List.mem_append.mp hy with hy | hy
      · exact hpre y hy
      · rwa [List.mem_singleton.mp hy]

theorem countP_eraseP {α : Type*} (p : α → Bool) (l : List α) : (l.eraseP p).countP p = l.countP p - 1 := by
  induction l with
  | nil => rfl
  | cons a l ih =>
    by_cases ha : p a
    · rw [List.eraseP_cons_of_pos ha, List.countP_cons_of_pos ha, Nat.add_sub_cancel]
    · rw [List.eraseP_cons_of_neg ha, List.countP_cons_of_neg ha, List.countP_cons_of_neg ha, ih]

theorem filter_not_eraseP {α : Type*} (p : α → Bool) (l : List α) :
    (l.eraseP p).filter (fun a => !p a) = l.filter fun a => !p a := by
  induction l with
  | nil => rfl
  | cons a l ih =>
    by_cases ha : p a
    · rw [List.eraseP_cons_of_pos ha, List.filter_cons_of_neg (by simp [ha])]
    · rw [List.eraseP_cons_of_neg ha, List.filter_cons, List.filter_cons, ih]

theorem removeObservers_eq (hm : m.Fits) (hother : ∀ p ∈ m.blocks, Elsewhere elems observersList p)
    (h : Observed m observersList elems s xs) (p : CoapObserver → Bool) :
    ∃ t, removeObservers m.num.toNat observersList s p = some (if xs.any fun x => p (s.obs x) then 1 else 0, t) ∧
      t.obs = s.obs ∧ Observed m observersList elems t (xs.eraseP fun x => p (s.obs x)) := by
  have hpre : ∀ x ∈ ([] : List Nat), ¬ p (s.obs x) = true := fun _ hx => absurd hx List.not_mem_nil
  have hrun := removeFromObs_eq 0 hm hother h hpre h.chain h.length_le'
  rw [Nat.zero_add] at hrun
  exact hrun

/-- A function that removes observers takes the first of them off the list, if there is any, and returns 1 then; all
the others stay there in order. -/
theorem removeObservers_count (hm : m.Fits) (hother : ∀ p ∈ m.blocks, Elsewhere elems observersList p)
    (h : Observed m observersList elems s xs) (p : CoapObserver → Bool) :
    ∃ t xs', removeObservers m.num.toNat observersList s p =
        some (min 1 (xs.countP fun x => p (s.obs x)), t) ∧ Observed m observersList elems t xs' ∧
      t.obs = s.obs ∧ xs' = xs.eraseP (fun x => p (s.obs x)) ∧
      (xs'.countP fun x => p (t.obs x)) = (xs.countP fun x => p (s.obs x)) - 1 ∧
      (xs'.filter fun x => !p (t.obs x)) = xs.filter fun x => !p (s.obs x) := by
  obtain ⟨t, ht, hobs, hpooled⟩ := removeObservers_eq hm hother h p
  refine ⟨t, _, ?_, hpooled, hobs, rfl, ?_, ?_⟩
  · rw [ht]
    by_cases hany : xs.any fun x => p (s.obs x)
    · have hpos : 0 < xs.countP fun x => p (s.obs x) := by
        rw [List.countP_pos_iff]
        exact List.any_eq_true.mp hany
      rw [if_pos hany, Nat.min_eq_left hpos]
    · have hzero : (xs.countP fun x => p (s.obs x)) = 0 := by
        rw [List.countP_eq_zero]
        exact fun x hx hp => hany (List.any_eq_true.mpr ⟨x, hx, hp⟩)
      rw [if_neg hany, hzero]
      rfl
  · rw [hobs]
    exact countP_eraseP _ _
  · rw [hobs]
    exact filter_not_eraseP _ _

def replaces (text : Nat → List U8) (addr : U64) (port : U16) (uri : Nat) (o : CoapObserver) : Bool :=
  o.isClient addr port && o.isUri text uri

theorem coapAddObserver_eq (hm : m.Fits) (hother : ∀ p ∈ m.blocks, Elsewhere elems observersList p)
    (h : Observed m observersList elems s xs) (text : Nat → List U8) (addr : U64) (port : U16) (token : Nat → U8)
    (tokenLen uri : Nat) :
    ∃ t, coapAddObserver m.num.toNat observersList s text addr port token tokenLen uri =
        some (m.blocks.find? (· ∉ xs.eraseP fun x => replaces text addr port uri (s.obs x)), t) ∧
      (∀ o, m.blocks.find? (· ∉ xs.eraseP fun x => replaces text addr port uri (s.obs x)) = some o →
        t.obs = Function.update s.obs o ((s.obs o).register addr port token tokenLen uri) ∧
        Observed m observersList elems t (xs.eraseP (fun x => replaces text addr port uri (s.obs x)) ++ [o])) ∧
      (m.blocks.find? (· ∉ xs.eraseP fun x => replaces text addr port uri (s.obs x)) = none →
        t.obs = s.obs ∧
        Observed m observersList elems t (xs.eraseP fun x => replaces text addr port uri (s.obs x))) := by
  obtain ⟨r, hr, hobs, hpooled⟩ := removeObservers_eq hm hother h (replaces text addr port uri)
  have hr' : coapRemoveObserverByUri m.num.toNat observersList s text (some (addr, port)) uri = some (_, r) := hr
  generalize hys : (xs.eraseP fun x => replaces text addr port uri (s.obs x)) = ys at hpooled ⊢
  obtain ⟨s', hrun, hacquired⟩ := PoolCall.run_eq hm hother hpooled .acquire
  unfold coapAddObserver
  rw [hr', Option.bind_some]
  unfold PoolCall.run PoolCall.apply at hrun
  unfold PoolCall.apply at hacquired
  dsimp only at hrun hacquired ⊢
  cases halloc : membAlloc r.memb with
  | mk o m' =>
    rw [halloc] at hrun
    cases o with
    | none =>
      obtain ⟨hnone, rfl⟩ := Prod.mk.inj (Option.some.inj hrun)
      rw [← hnone] at hacquired ⊢
      refine ⟨{ r with memb := m' }, rfl, fun o ho => absurd ho.symm (Option.some_ne_none o), fun _ => ⟨hobs, ?_⟩⟩
      rwa [Option.toList_none, List.append_nil] at hacquired
    | some o =>
      obtain ⟨l, hl, hs'⟩ := Option.map_eq_some_iff.mp hrun
      obtain ⟨hsome, rfl⟩ := Prod.mk.inj hs'
      rw [← hsome] at hacquired ⊢
      refine ⟨_, by dsimp only; rw [hl]; rfl, fun o' ho' => ?_, fun hnone => absurd hnone (Option.some_ne_none o)⟩
      obtain rfl := Option.some.inj ho'
      exact ⟨by rw [hobs], hacquired⟩

/-- A registration is refused if and only if all blocks are used and it replaces none of the relationships. -/
theorem refused_iff (hm : m.Fits) (hother : ∀ p ∈ m.blocks, Elsewhere elems observersList p)
    (h : Observed m observersList elems s xs) (text : Nat → List U8) (addr : U64) (port : U16) (token : Nat → U8)
    (tokenLen uri : Nat) :
    (∃ t, coapAddObserver m.num.toNat observersList s text addr port token tokenLen uri = some (none, t)) ↔
      xs.length = m.num.toNat ∧ ∀ x ∈ xs, ¬ replaces text addr port uri (s.obs x) = true := by
  obtain ⟨t, ht, -, -⟩ := coapAddObserver_eq hm hother h text addr port token tokenLen uri
  obtain ⟨c, hc, huse⟩ := h.blocks
  have hsub : xs ⊆ m.blocks := by
    have hsub := huse.subset
    rwa [hc] at hsub
  have hlen : m.blocks.length = m.num.toNat := by
    unfold Memb.blocks
    rw [List.length_map, List.length_range]
  rw [ht]
  have hfind : (∃ t', some (m.blocks.find? (· ∉ xs.eraseP fun x => replaces text addr port uri (s.obs x)), t) =
      some ((none : Option Nat), t')) ↔ m.blocks ⊆ xs.eraseP fun x => replaces text addr port uri (s.obs x) := by
    constructor
    · rintro ⟨t', ht'⟩ x hx
      have hnone := (Prod.mk.inj (Option.some.inj ht')).1
      simpa using List.find?_eq_none.mp hnone x hx
    · intro hall
      refine ⟨t, congrArg some (Prod.ext ?_ rfl)⟩
      rw [List.find?_eq_none]
      intro x hx
      simpa using hall hx
  rw [hfind]
  constructor
  · intro hall
    have hle := (hm.nodup_blocks.subperm hall).length_le
    have hmax := h.length_le'
    have hnone : ∀ x ∈ xs, ¬ replaces text addr port uri (s.obs x) = true := by
      intro x hx hp
      have herase := List.length_eraseP_of_mem (p := fun x => replaces text addr port uri (s.obs x)) hx hp
      have hpos := List.length_pos_of_mem hx
      omega
    rw [List.eraseP_of_forall_not hnone] at hle
    exact ⟨by omega, hnone⟩
  · rintro ⟨hfull, hnone⟩
    rw [List.eraseP_of_forall_not hnone]
    have hperm := (h.nodup.subperm hsub).perm_of_length_le (by omega)
    exact hperm.symm.subset

end

/-! ## Runs -/

/-- A call of a function, or what a notification writes into a block. -/
inductive ObserverAct
  | add (addr : U64) (port : U16) (token : Nat → U8) (tokenLen uri : Nat)
  | removeByClient (addr : U64) (port : U16)
  | removeByToken (addr : U64) (port : U16) (token : Nat → U8) (tokenLen : Nat)
  | removeByUri (client : Option (U64 × U16)) (uri : Nat)
  | removeByMid (addr : U64) (port mid : U16)
  | notify (obs : Nat) (mid : U16) (counter : U32)

section
variable {κ : Type*} [DecidableEq κ]

def observerStep (fuel : Nat) (observersList : κ) (text : Nat → List U8) (s : ObserverSys κ) :
    ObserverAct → Option (ObserverSys κ)
  | .add addr port token tokenLen uri =>
    (coapAddObserver fuel observersList s text addr port token tokenLen uri).map Prod.snd
  | .removeByClient addr port => (coapRemoveObserverByClient fuel observersList s addr port).map Prod.snd
  | .removeByToken addr port token tokenLen =>
    (coapRemoveObserverByToken fuel observersList s addr port token tokenLen).map Prod.snd
  | .removeByUri client uri => (coapRemoveObserverByUri fuel observersList s text client uri).map Prod.snd
  | .removeByMid addr port mid => (coapRemoveObserverByMid fuel observersList s addr port mid).map Prod.snd
  | .notify obs mid counter =>
    some { s with obs := Function.update s.obs obs { s.obs obs with lastMid := mid, obsCounter := counter } }

/-- An observer is on the list. -/
def Listed (observersList : κ) (s : ObserverSys κ) (obs : Nat) : Prop :=
  ∃ xs, Chain s.lists.next (s.lists.head observersList) xs none ∧ obs ∈ xs

/-- What is registered is replaced only if it is for the same resource: its URL does not begin that of another
resource. -/
def ReplacesSame (observersList : κ) (text : Nat → List U8) (s : ObserverSys κ) : ObserverAct → Prop
  | .add addr port _ _ uri => ∀ obs, Listed observersList s obs → replaces text addr port uri (s.obs obs) →
      text (s.obs obs).url = text uri
  | _ => True

/-- Two observers are the same client and observe the same resource. -/
def SameRelationship (text : Nat → List U8) (o o' : CoapObserver) : Prop :=
  o.addr = o'.addr ∧ o.port = o'.port ∧ text o.url = text o'.url

variable {m : Memb} {observersList : κ} {elems : κ → List Nat} {s s' : ObserverSys κ} {text : Nat → List U8}

/-- No client observes a resource twice. -/
def Unique (text : Nat → List U8) (s : ObserverSys κ) (xs : List Nat) : Prop :=
  xs.Pairwise fun x y => ¬SameRelationship text (s.obs x) (s.obs y)

theorem forall_not_of_eraseP {α : Type*} {p : α → Bool} {xs : List α} (h : xs.Pairwise fun x y => ¬(p x ∧ p y)) :
    ∀ x ∈ xs.eraseP p, ¬ p x = true := by
  induction xs with
  | nil => exact fun x hx => absurd hx List.not_mem_nil
  | cons y ys ih =>
    obtain ⟨hy, hys⟩ := List.pairwise_cons.mp h
    intro x hx
    by_cases hp : p y
    · rw [List.eraseP_cons_of_pos hp] at hx
      exact fun hpx => hy x hx ⟨hp, hpx⟩
    · rw [List.eraseP_cons_of_neg hp] at hx
      rcases List.mem_cons.mp hx with rfl | hx
      · exact hp
      · exact ih hys x hx

omit [DecidableEq κ] in
theorem Unique.congr {xs : List Nat} (h : Unique text s xs)
    (hobs : ∀ x ∈ xs, (s'.obs x).addr = (s.obs x).addr ∧ (s'.obs x).port = (s.obs x).port ∧
      (s'.obs x).url = (s.obs x).url) : Unique text s' xs := by
  apply List.Pairwise.imp_of_mem _ h
  intro x y hx hy hne hsame
  obtain ⟨hxa, hxp, hxu⟩ := hobs x hx
  obtain ⟨hya, hyp, hyu⟩ := hobs y hy
  obtain ⟨ha, hp, hu⟩ := hsame
  apply hne
  refine ⟨?_, ?_, ?_⟩
  · rw [← hxa, ← hya, ha]
  · rw [← hxp, ← hyp, hp]
  · rw [← hxu, ← hyu, hu]

def Kept (m : Memb) (observersList : κ) (elems : κ → List Nat) (text : Nat → List U8) (s : ObserverSys κ) : Prop :=
  ∃ xs, Observed m observersList elems s xs ∧ Unique text s xs

theorem Kept.remove (hm : m.Fits) (hother : ∀ p ∈ m.blocks, Elsewhere elems observersList p)
    (h : Kept m observersList elems text s) {p : CoapObserver → Bool}
    (hs : (removeObservers m.num.toNat observersList s p).map Prod.snd = some s') :
    Kept m observersList elems text s' := by
  obtain ⟨xs, hxs, hunique⟩ := h
  obtain ⟨t, ht, hobs, hpooled⟩ := removeObservers_eq hm hother hxs p
  rw [ht] at hs
  obtain rfl := Option.some.inj hs
  refine ⟨_, hpooled, ?_⟩
  have hsub : Unique text s (xs.eraseP fun x => p (s.obs x)) := hunique.sublist List.eraseP_sublist
  exact hsub.congr fun x _ => by rw [hobs]; exact ⟨rfl, rfl, rfl⟩

theorem Kept.add (hm : m.Fits) (hother : ∀ p ∈ m.blocks, Elsewhere elems observersList p)
    (h : Kept m observersList elems text s) {addr : U64} {port : U16} {token : Nat → U8} {tokenLen uri : Nat}
    (hok : ReplacesSame observersList text s (.add addr port token tokenLen uri))
    (hs : (coapAddObserver m.num.toNat observersList s text addr port token tokenLen uri).map Prod.snd = some s') :
    Kept m observersList elems text s' := by
  obtain ⟨xs, hxs, hunique⟩ := h
  obtain ⟨t, ht, hsome, hnone⟩ := coapAddObserver_eq hm hother hxs text addr port token tokenLen uri
  rw [ht] at hs
  obtain rfl := Option.some.inj hs
  have hclient : ∀ x ∈ xs, replaces text addr port uri (s.obs x) →
      (s.obs x).addr = addr ∧ (s.obs x).port = port ∧ text (s.obs x).url = text uri := by
    intro x hx hp
    have htext := hok x ⟨xs, hxs.chain, hx⟩ hp
    unfold replaces CoapObserver.isClient at hp
    simp only [Bool.and_eq_true, decide_eq_true_eq] at hp
    exact ⟨hp.1.1, hp.1.2, htext⟩
  -- Two relationships that are replaced would be the same.
  have hfirst : xs.Pairwise fun x y =>
      ¬(replaces text addr port uri (s.obs x) ∧ replaces text addr port uri (s.obs y)) := by
    apply List.Pairwise.imp_of_mem _ hunique
    rintro x y hx hy hne ⟨hpx, hpy⟩
    obtain ⟨hxa, hxp, hxu⟩ := hclient x hx hpx
    obtain ⟨hya, hyp, hyu⟩ := hclient y hy hpy
    exact hne ⟨hxa.trans hya.symm, hxp.trans hyp.symm, hxu.trans hyu.symm⟩
  have hothers := forall_not_of_eraseP hfirst
  have hsub : Unique text s (xs.eraseP fun x => replaces text addr port uri (s.obs x)) :=
    hunique.sublist List.eraseP_sublist
  cases hfind : m.blocks.find? (· ∉ xs.eraseP fun x => replaces text addr port uri (s.obs x)) with
  | none =>
    obtain ⟨hobs, hpooled⟩ := hnone hfind
    exact ⟨_, hpooled, hsub.congr fun x _ => by rw [hobs]; exact ⟨rfl, rfl, rfl⟩⟩
  | some o =>
    obtain ⟨hobs, hpooled⟩ := hsome o hfind
    have ho : o ∉ xs.eraseP fun x => replaces text addr port uri (s.obs x) := by
      simpa using List.find?_some hfind
    have hsame : ∀ x ∈ xs.eraseP (fun x => replaces text addr port uri (s.obs x)), t.obs x = s.obs x := by
      intro x hx
      rw [hobs]
      exact Function.update_of_ne (ne_of_mem_of_not_mem hx ho) _ _
    refine ⟨_, hpooled, List.pairwise_append.mpr ⟨?_, List.pairwise_singleton _ _, ?_⟩⟩
    · exact hsub.congr fun x hx => by rw [hsame x hx]; exact ⟨rfl, rfl, rfl⟩
    · intro x hx y hy
      obtain rfl := List.mem_singleton.mp hy
      rw [hsame x hx, hobs, Function.update_self]
      rintro ⟨ha, hp, hu⟩
      apply hothers x hx
      unfold replaces CoapObserver.isClient CoapObserver.isUri
      have hbegins : (text (s.obs x).url).isPrefixOf (text uri) = true := by
        rw [List.isPrefixOf_iff_prefix]
        exact hu ▸ List.prefix_refl _
      rw [hbegins]
      simpa using ⟨ha, hp⟩

theorem kept_step (hm : m.Fits) (hother : ∀ p ∈ m.blocks, Elsewhere elems observersList p)
    (h : Kept m observersList elems text s) {a : ObserverAct} (hok : ReplacesSame observersList text s a)
    (hs : observerStep m.num.toNat observersList text s a = some s') : Kept m observersList elems text s' := by
  cases a with
  | add addr port token tokenLen uri => exact h.add hm hother hok hs
  | removeByClient addr port => exact h.remove hm hother hs
  | removeByToken addr port token tokenLen => exact h.remove hm hother hs
  | removeByUri client uri => exact h.remove hm hother hs
  | removeByMid addr port mid => exact h.remove hm hother hs
  | notify obs mid counter =>
    obtain rfl := Option.some.inj hs
    obtain ⟨xs, hxs, hunique⟩ := h
    refine ⟨xs, hxs, hunique.congr fun x _ => ?_⟩
    dsimp only
    by_cases hx : x = obs
    · subst hx
      rw [Function.update_self]
      exact ⟨rfl, rfl, rfl⟩
    · rw [Function.update_of_ne hx]
      exact ⟨rfl, rfl, rfl⟩

/-- In every run in which no registered URL begins the URL of another resource that its client registers for, no
client observes a resource twice, and the registered observers are the blocks that are used. -/
theorem unique_of_runs (hm : m.Fits) (hother : ∀ p ∈ m.blocks, Elsewhere elems observersList p)
    (hstart : Observed m observersList elems s []) {as : List ObserverAct}
    (hruns : Runs (observerStep m.num.toNat observersList text) (ReplacesSame observersList text) s as s') :
    ∃ xs, Observed m observersList elems s' xs ∧ Unique text s' xs :=
  hruns.invariant (I := Kept m observersList elems text) ⟨[], hstart, List.Pairwise.nil⟩
    fun _ _ _ h hok hs => kept_step hm hother h hok hs

end

def noObserver : ObserverSys (Fin 2) where
  memb := (membInit threeBlocks fun _ => 0).1
  lists := ⟨fun _ => none, fun _ => none⟩
  obs := fun _ => ⟨0, 0, 0, 0, fun _ => 0, 0, 0⟩

theorem observed_noObserver : Observed threeBlocks (0 : Fin 2) (fun _ => []) noObserver [] where
  blocks := ⟨_, rfl, inUse_init threeBlocks fun _ => 0⟩
  lists := by
    rw [Function.update_eq_self]
    exact represents_start _

def letters (uri : Nat) : List U8 := [BitVec.ofNat 8 uri]

theorem replacesSame_letters {κ : Type*} {observersList : κ} {s : ObserverSys κ} (a : ObserverAct) :
    ReplacesSame observersList letters s a := by
  cases a with
  | add addr port token tokenLen uri =>
    intro obs _ hp
    unfold replaces CoapObserver.isUri at hp
    simp only [Bool.and_eq_true, decide_eq_true_eq] at hp
    rcases hp.2 with hurl | hbegins
    · rw [hurl]
    · exact (List.isPrefixOf_iff_prefix.mp hbegins).eq_of_length rfl
  | removeByClient | removeByToken | removeByUri | removeByMid | notify => trivial

/-- One client observes three resources, and all blocks are used. -/
def threeObservers : ObserverSys (Fin 2) where
  memb := { threeBlocks with count := fun i => if i < 3 then 1 else 0 }
  lists := ⟨fun k => if k = 0 then some 1000 else none,
    fun p => if p = 1000 then some 1010 else if p = 1010 then some 1020 else none⟩
  obs := fun p => ⟨p, 7, 5683, 2, fun _ => 1, 0, 0⟩

theorem observed_threeObservers :
    Observed threeBlocks (0 : Fin 2) (fun _ => []) threeObservers [1000, 1010, 1020] where
  blocks := ⟨_, rfl, by decide, by decide, by decide⟩
  lists := ⟨Fin.forall_fin_two.mpr ⟨⟨rfl, rfl, rfl, rfl⟩, rfl⟩, by decide, by decide⟩

/-- Another client is refused; the same client may register again for its second resource and gets its block. While a
block is free nobody is refused. -/
theorem refused_iff_threeObservers :
    (∃ t, coapAddObserver 3 (0 : Fin 2) threeObservers letters 8 5683 (fun _ => 1) 2 1010 = some (none, t)) ∧
      (¬∃ t, coapAddObserver 3 (0 : Fin 2) threeObservers letters 7 5683 (fun _ => 9) 2 1010 = some (none, t)) ∧
      (∃ t, coapAddObserver 3 (0 : Fin 2) threeObservers letters 7 5683 (fun _ => 9) 2 1010 = some (some 1010, t)) ∧
      ¬∃ t, coapAddObserver 3 (0 : Fin 2) noObserver letters 8 5683 (fun _ => 1) 2 1010 = some (none, t) := by
  have hother : ∀ p ∈ threeBlocks.blocks, Elsewhere (fun _ : Fin 2 => []) 0 p := fun _ _ _ _ => List.not_mem_nil
  refine ⟨?_, ?_, ⟨_, rfl⟩, ?_⟩
  · exact (refused_iff threeBlocks_fits hother observed_threeObservers letters 8 5683 (fun _ => 1) 2 1010).mpr
      ⟨rfl, by decide⟩
  · intro hrefused
    have hnone := ((refused_iff threeBlocks_fits hother observed_threeObservers letters 7 5683 (fun _ => 9) 2 1010).mp
      hrefused).2
    exact hnone 1010 (by decide) (by decide)
  · intro hrefused
    have hfull := ((refused_iff threeBlocks_fits hother observed_noObserver letters 8 5683 (fun _ => 1) 2 1010).mp
      hrefused).1
    exact absurd hfull (by decide)

def twoObservers : ObserverSys (Fin 2) where
  memb := { threeBlocks with count := fun i => if i < 2 then 1 else 0 }
  lists := ⟨fun k => if k = 0 then some 1000 else none, fun p => if p = 1000 then some 1010 else none⟩
  obs := fun p => ⟨p, 7, 5683, 2, fun _ => 1, 0, 0⟩

theorem observed_twoObservers : Observed threeBlocks (0 : Fin 2) (fun _ => []) twoObservers [1000, 1010] where
  blocks := ⟨_, rfl, by decide, by decide, by decide⟩
  lists := ⟨Fin.forall_fin_two.mpr ⟨⟨rfl, rfl, rfl⟩, rfl⟩, by decide, by decide⟩

/-- The second one stays. -/
theorem removeObservers_count_twoObservers :
    ∃ t, removeObservers 3 (0 : Fin 2) twoObservers (fun o => o.isClient 7 5683) = some (1, t) ∧
      Observed threeBlocks (0 : Fin 2) (fun _ => []) t [1010] ∧ (t.obs 1010).isClient 7 5683 = true := by
  obtain ⟨t, xs, ht, hxs, hobs, rfl, -, -⟩ := removeObservers_count threeBlocks_fits (fun _ _ _ _ => List.not_mem_nil)
    observed_twoObservers fun o => o.isClient 7 5683
  exact ⟨t, ht, hxs, by rw [hobs]; rfl⟩

/-- A client registers for two resources, and for the first one again. -/
theorem unique_of_runs_twice :
    ∃ s xs, exec (observerStep 3 (0 : Fin 2) letters) noObserver
        [.add 7 5683 (fun _ => 1) 2 0x61, .add 7 5683 (fun _ => 2) 2 0x62, .notify 1000 9 1,
          .add 7 5683 (fun _ => 3) 2 0x61] = some s ∧
      Observed threeBlocks (0 : Fin 2) (fun _ => []) s xs ∧ Unique letters s xs := by
  have hexec : ∃ s, exec (observerStep 3 (0 : Fin 2) letters) noObserver
      [.add 7 5683 (fun _ => 1) 2 0x61, .add 7 5683 (fun _ => 2) 2 0x62, .notify 1000 9 1,
        .add 7 5683 (fun _ => 3) 2 0x61] = some s := ⟨_, rfl⟩
  obtain ⟨s, hs⟩ := hexec
  have hruns : Runs (observerStep 3 (0 : Fin 2) letters) (ReplacesSame 0 letters) noObserver _ s :=
    (Runs.of_exec hs).mono fun _ a _ => replacesSame_letters a
  obtain ⟨xs, hxs, hunique⟩ :=
    unique_of_runs threeBlocks_fits (fun _ _ _ _ => List.not_mem_nil) observed_noObserver hruns
  exact ⟨s, xs, hs, hxs, hunique⟩

end Unet4Cooja.Coap
