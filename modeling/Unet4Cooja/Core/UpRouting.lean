import Unet4Cooja.Core.UpDelivery

/-!
# Packets that cannot be routed up

* `addRoutes_find` : what a search finds of an address that has not been added since the last clear;
* `HandedOver`, `ReleasedUnsent` : what becomes of `packet_up` once the ack task has decided;
* `unroutableUp_sent` : an unroutable packet is handed to `unet_packet_output`, and not released
  before.
-/

namespace Unet4Cooja
open Lib

/-! ## The route table -/

/-- The table after a clear and the additions `adds`, the last one first. -/
def addRoutes (t : RTableUp) : List (U16 × Addr64) → RTableUp
  | [] => unetRouterUpTableClear t
  | x :: adds => unetRouterUpTableEntryAdd (addRoutes t adds) x.1 x.2

section
variable {t : RTableUp} {adds : List (U16 × Addr64)} {a : Addr64} {k : Nat}

theorem unetRouterUpTableEntryAdd_dest (nextHop : U16) :
    ((unetRouterUpTableEntryAdd t nextHop a).table k).destAddr64 = (t.table k).destAddr64 ∨
      ((unetRouterUpTableEntryAdd t nextHop a).table k).destAddr64 = a := by
  unfold unetRouterUpTableEntryAdd
  cases unetRouterUpTableEntryFind t a with
  | some i =>
    left
    show (Function.update t.table i _ k).destAddr64 = _
    by_cases hki : k = i
    · subst hki
      rw [Function.update_self]
    · rw [Function.update_of_ne hki]
  | none =>
    show (Function.update t.table t.entryIndex _ k).destAddr64 = _ ∨
      (Function.update t.table t.entryIndex _ k).destAddr64 = _
    by_cases hki : k = t.entryIndex
    · right
      rw [hki, Function.update_self]
    · left
      rw [Function.update_of_ne hki]

theorem addRoutes_dest (hk : k < rtableUpEntriesMaxNum) :
    ((addRoutes t adds).table k).destAddr64 = RouteEntry.free.destAddr64 ∨
      ∃ x ∈ adds, ((addRoutes t adds).table k).destAddr64 = x.2 := by
  induction adds with
  | nil =>
    left
    show ((unetRouterUpTableClear t).table k).destAddr64 = _
    rw [unetRouterUpTableClear_table hk]
  | cons x adds ih =>
    rcases unetRouterUpTableEntryAdd_dest (t := addRoutes t adds) (a := x.2) (k := k) x.1 with he | he
    · rcases ih with hf | ⟨y, hy, hd⟩
      · exact .inl (he.trans hf)
      · exact .inr ⟨y, List.mem_cons_of_mem _ hy, he.trans hd⟩
    · exact .inr ⟨x, List.mem_cons_self, he⟩

/-- A search for an address that has not been added finds nothing, or a free entry if it is the
address of the free entries. -/
theorem addRoutes_find (ha : ∀ x ∈ adds, x.2 ≠ a) :
    unetRouterUpTableEntryFind (addRoutes t adds) a = none ∨ a = RouteEntry.free.destAddr64 := by
  cases hf : unetRouterUpTableEntryFind (addRoutes t adds) a with
  | none => exact .inl rfl
  | some k =>
    obtain ⟨hk, hd, _⟩ := firstBelow_eq_some.mp hf
    have hd : ((addRoutes t adds).table k).destAddr64 = a := of_decide_eq_true hd
    rcases addRoutes_dest hk with hz | ⟨x, hx, he⟩
    · exact .inr (hd.symm.trans hz)
    · exact absurd (he.symm.trans hd) (ha x hx)

end

/-- The hop limit of `p` is 0, or its destination has not been added since the last clear. -/
def Unroutable (n : Node) (p : Packet) : Prop :=
  p.packet unetHopLimit = 0 ∨
    ∃ t adds, n.rtableUp = addRoutes t adds ∧ ∀ x ∈ adds, x.2 ≠ p.addr64At unetDest64

/-- `unet_router_up` does not touch an unroutable packet, unless its destination is the address of
the free entries. -/
theorem Unroutable.unetRouterUp {n : Node} {p : Packet} (h : Unroutable n p) :
    (unetRouterUp n p).2.2 = p ∨
      (p.addr64At unetDest64 = RouteEntry.free.destAddr64 ∧ p.packet unetHopLimit ≠ 0) := by
  unfold Unet4Cooja.unetRouterUp
  by_cases hhop : p.packet unetHopLimit = 0
  · left
    split
    · rfl
    · rw [if_pos hhop]
  · obtain ⟨t, adds, ht, hadds⟩ := h.resolve_left hhop
    rcases addRoutes_find (t := t) hadds with hf | hz
    · left
      rw [ht, hf]
    · exact .inr ⟨hz, hhop⟩

/-! ## The packet after the decision -/

variable {σ : Type} {dev : DeviceType} {s t : Sys σ} {a : Act σ}

/-- `UNET_Router_Up_Task` calls `unet_packet_output`. -/
def TransmitsUp (s : Sys σ) : Act σ → Prop
  | .up _ => s.up = .output
  | _ => False

/-- A run from `s` hands `p` to `unet_packet_output`, and `packet_up` is not released before. -/
def HandedOver [DecidableEq σ] (dev : DeviceType) (s : Sys σ) (p : Packet) : Prop :=
  ∃ as t, Runs (sysStep dev) (fun u _ => u.packetUp.state ≠ .idle) s as t ∧
    t.packetUp.state ≠ .idle ∧ t.up = .output ∧ t.packetUp = p

/-- A run from `s` releases `packet_up` without a transmission. -/
def ReleasedUnsent [DecidableEq σ] (dev : DeviceType) (s : Sys σ) : Prop :=
  ∃ as t, Runs (sysStep dev) (fun u a => ¬ TransmitsUp u a) s as t ∧ t.packetUp.state = .idle

/-- `packet_up` is never handed to `unet_packet_output`, and it is released. -/
def DroppedUnsent [DecidableEq σ] (dev : DeviceType) (s : Sys σ) : Prop :=
  (∀ p, ¬ HandedOver dev s p) ∧ ReleasedUnsent dev s

/-- The packet in `packet_up` is on its way to its first transmission. -/
def Pending (s : Sys σ) : Prop :=
  s.upAck = .post ∨ 0 < s.routerUpRouteRequest ∨ s.up = .claim ∨ s.up = .output

theorem Pending.same (h : Pending s) (e : SameUp s t) : Pending t := by
  unfold Pending
  rw [e.upAck, e.routeRequests, e.up]
  exact h

theorem Pending.upAckStep {ok : Bool} (h : Pending s) (hs : Unet4Cooja.upAckStep s ok = some t) :
    Pending t := by
  unfold Unet4Cooja.upAckStep at hs
  cases hpc : s.upAck with
  | wait =>
    have h := h.resolve_left (by rw [hpc]; decide)
    rw [hpc] at hs
    rcases osSemPend_eq_some.mp hs with ⟨_, _, hs⟩ | ⟨_, _, hs⟩ <;> cases hs
    exact .inr h
  | sendAck =>
    have h := h.resolve_left (by rw [hpc]; decide)
    rw [hpc] at hs
    cases hs
    exact .inr h
  | decide =>
    have h := h.resolve_left (by rw [hpc]; decide)
    rw [hpc] at hs
    dsimp only at hs
    split at hs <;> cases hs
    · exact .inr h
    · exact .inl rfl
  | post =>
    rw [hpc] at hs
    cases hs
    exact .inr (.inl (osSemPost_pos _))

theorem Pending.upStep {ok : Bool} (h : Pending s) (hok : s.up ≠ .output)
    (hs : Unet4Cooja.upStep s ok = some t) : Pending t := by
  unfold Unet4Cooja.upStep at hs
  cases hpc : s.up with
  | pendRoute =>
    rw [hpc] at hs
    rcases osSemPend_eq_some.mp hs with ⟨_, _, hs⟩ | ⟨_, _, hs⟩ <;> cases hs
    exact .inr (.inr (.inl rfl))
  | claim => rw [hpc] at hs; cases hs; exact .inr (.inr (.inr rfl))
  | output => exact absurd hpc hok
  | setWait =>
    simp only [Pending, hpc, reduceCtorEq, or_false] at h
    rw [hpc] at hs
    cases hs
    exact h.imp_right .inl
  | pendAck =>
    simp only [Pending, hpc, reduceCtorEq, or_false] at h
    rw [hpc] at hs
    rcases osSemPend_eq_some.mp hs with ⟨_, _, hs⟩ | ⟨_, _, hs⟩ <;> cases hs <;> exact h.imp_right .inl
  | acked =>
    simp only [Pending, hpc, reduceCtorEq, or_false] at h
    rw [hpc] at hs
    cases hs
    exact h.imp_right .inl
  | timedOut =>
    simp only [Pending, hpc, reduceCtorEq, or_false] at h
    rw [hpc] at hs
    dsimp only at hs
    split at hs <;> cases hs <;> exact h.imp_right .inl

variable [DecidableEq σ]

theorem Pending.not_idle {o : Owner σ} (h : Pending s) (ho : OwnedUp o s) :
    s.packetUp.state ≠ .idle := by
  intro hi
  obtain rfl := ho.eq_nobody hi
  have hack : s.upAck.handles = false := ho.ackTask
  have hup : s.up.transmits = false := ho.transmitter
  rcases h with h | h | h | h
  · rw [h] at hack
    cases hack
  · rw [ho.routeRequests] at h
    cases h
  · rw [h] at hup
    cases hup
  · rw [h] at hup
    cases hup

theorem Pending.sendStep {i : σ} {d : SendRequest} (h : Pending s)
    (hs : Unet4Cooja.sendStep s i d = some t) : Pending t := by
  have hmono : s.routerUpRouteRequest ≤ t.routerUpRouteRequest ∧ t.upAck = s.upAck := by
    unfold Unet4Cooja.sendStep at hs
    cases hpc : s.sender i with
    | idle =>
      rw [hpc] at hs
      dsimp only at hs
      split at hs <;> split at hs <;> cases hs <;> exact ⟨Nat.le_refl _, rfl⟩
    | downHeader =>
      rw [hpc] at hs; dsimp only at hs; split at hs <;> cases hs <;> exact ⟨Nat.le_refl _, rfl⟩
    | downRoute =>
      rw [hpc] at hs; dsimp only at hs; split at hs <;> cases hs <;> exact ⟨Nat.le_refl _, rfl⟩
    | upRoute =>
      rw [hpc] at hs; dsimp only at hs; split at hs <;> cases hs <;> exact ⟨Nat.le_refl _, rfl⟩
    | upPost =>
      rw [hpc] at hs
      cases hs
      refine ⟨?_, rfl⟩
      show _ ≤ osSemPost _
      unfold osSemPost
      split <;> omega
    | _ => rw [hpc] at hs; cases hs; exact ⟨Nat.le_refl _, rfl⟩
  unfold Pending
  rw [hmono.2, sendStep_up hs]
  exact h.imp_right (Or.imp_left fun hpos => Nat.lt_of_lt_of_le hpos hmono.1)

theorem Pending.step (h : Pending s) (hok : ¬ TransmitsUp s a) (hs : sysStep dev s a = some t) :
    Pending t := by
  cases a with
  | input p tag crc =>
    rcases packetInput_eq (Option.some.inj hs) with rfl | ⟨_, _, hh⟩
    · exact h
    · cases hh <;> exact h
  | verify => cases hs; exact h
  | downAck ok => exact h.same (downAckStep_sameUp hs)
  | down ok => exact h.same (downStep_sameUp hs)
  | link ok => exact h.same (linkTaskStep_sameUp hs)
  | upAck ok => exact h.upAckStep hs
  | up ok => exact h.upStep hok hs
  | send i d => exact h.sendStep hs

theorem Pending.not_releasedUnsent {o : Owner σ} (h : Pending s) (ho : OwnedUp o s) :
    ¬ ReleasedUnsent dev s := by
  rintro ⟨as, t, r, hi⟩
  obtain ⟨⟨o', ho'⟩, h'⟩ := r.invariant (I := fun u => (∃ o, OwnedUp o u) ∧ Pending u) ⟨⟨o, ho⟩, h⟩
    fun u a v ⟨⟨_, ho⟩, h⟩ hok hs => ⟨ho.step hs, h.step hok hs⟩
  exact h'.not_idle ho' hi

/-- After the decision to route a packet the ack task posts it, and `UNET_Router_Up_Task` takes it
up. -/
theorem handedOver_of_post (ho : OwnedUp .ackTask s) (hpost : s.upAck = .post) :
    HandedOver dev s s.packetUp := by
  have hup : s.up = .pendRoute := by
    have hno : s.up.transmits = false := ho.transmitter
    cases hpc : s.up with
    | pendRoute => rfl
    | _ => rw [hpc] at hno; cases hno
  have hne : s.packetUp.state ≠ .idle := Pending.not_idle (.inl hpost) ho
  have hpos := osSemPost_pos s.routerUpRouteRequest
  have h1 : sysStep dev s (.upAck true) =
      some { s with routerUpRouteRequest := osSemPost s.routerUpRouteRequest, upAck := .wait } := by
    simp [sysStep, Unet4Cooja.upAckStep, hpost]
  have h2 : sysStep dev
      { s with routerUpRouteRequest := osSemPost s.routerUpRouteRequest, upAck := .wait } (.up true) =
      some { s with
        routerUpRouteRequest := osSemPost s.routerUpRouteRequest - 1
        upAck := .wait
        up := .claim } := by
    simp [sysStep, Unet4Cooja.upStep, hup, osSemPend, hpos]
  have r : Runs (sysStep dev) (fun u _ => u.packetUp.state ≠ .idle) s
      ([] ++ [.upAck true] ++ [.up true] ++ [.up true])
      { s with
        routerUpRouteRequest := osSemPost s.routerUpRouteRequest - 1
        upAck := .wait
        upRetries := 3
        up := .output } := .snoc (.snoc (.snoc .nil hne h1) hne h2) hne rfl
  exact ⟨_, _, r, hne, rfl, rfl⟩

/-- The ack task posts every packet for another node, whatever `unet_router_up` returned. -/
theorem upAckStep_decide (dev : DeviceType) (ok : Bool) (hpc : s.upAck = .decide)
    (hdest : s.packetUp.addr64At unetDest64 ≠ s.node.addr64) :
    ∃ t, sysStep dev s (.upAck ok) = some t ∧ t.upAck = .post ∧
      t.packetUp = (unetRouterUp s.node s.packetUp).2.2 := by
  simp only [sysStep, Unet4Cooja.upAckStep, hpc, if_neg hdest]
  exact ⟨_, rfl, rfl, rfl⟩

/-- An unroutable packet for another node is handed to `unet_packet_output`, mostly as it came, and it
is not released before. -/
theorem unroutableUp_sent {s₀ : Sys σ} {as : List (Act σ)} {ok : Bool} (h0 : SysStart dev s₀)
    (r : Runs (sysStep dev) Free s₀ as s) (hpc : s.upAck = .decide)
    (hdest : s.packetUp.addr64At unetDest64 ≠ s.node.addr64) (hun : Unroutable s.node s.packetUp)
    (hs : sysStep dev s (.upAck ok) = some t) :
    ¬ DroppedUnsent dev t ∧ HandedOver dev t t.packetUp ∧ ¬ ReleasedUnsent dev t ∧
      (t.packetUp = s.packetUp ∨
        s.packetUp.addr64At unetDest64 = RouteEntry.free.destAddr64 ∧
          s.packetUp.packet unetHopLimit ≠ 0) := by
  obtain ⟨o, ho⟩ := OwnedUp.of_runs h0 (.snoc r trivial hs)
  obtain ⟨t', hs', ht⟩ := upAckStep_decide dev ok hpc hdest
  rw [hs] at hs'
  cases hs'
  obtain rfl := ho.eq_ackTask (by rw [ht.1]; rfl)
  have hover : HandedOver dev t t.packetUp := handedOver_of_post ho ht.1
  refine ⟨fun hd => hd.1 _ hover, hover, Pending.not_releasedUnsent (.inl ht.1) ho, ?_⟩
  rw [ht.2]
  exact hun.unetRouterUp

/-- A frame for the node with the address 5 whose hop limit is 0 is received and acknowledged. -/
def unroutableActs : List (Act (Fin 1)) :=
  [.input ((netFrame 2 unicastUp 7).setByte unetDest64 5) 0 true, .upAck true, .upAck true]

theorem unroutableActs_decide :
    ∃ s : Sys (Fin 1), Runs (sysStep .router) Free (startedSys .router (Fin 1)) unroutableActs s ∧
      s.upAck = .decide ∧ s.packetUp.addr64At unetDest64 ≠ s.node.addr64 ∧
      Unroutable s.node s.packetUp := by
  have hrun : (exec (sysStep .router) (startedSys .router (Fin 1)) unroutableActs).map
      (fun s => (s.upAck, decide (s.packetUp.addr64At unetDest64 = s.node.addr64),
        s.packetUp.packet unetHopLimit)) = some (.decide, false, 0) := by decide +kernel
  obtain ⟨s, hs, hst⟩ := Option.map_eq_some_iff.mp hrun
  simp only [Prod.mk.injEq, decide_eq_false_iff_not] at hst
  exact ⟨s, Runs.of_exec hs, hst.1, hst.2.1, .inl hst.2.2⟩

theorem unroutableUp_sent_unroutableActs :
    ∃ s t : Sys (Fin 1), s.upAck = .decide ∧ Unroutable s.node s.packetUp ∧
      sysStep .router s (.upAck true) = some t ∧ HandedOver .router t t.packetUp ∧
      ¬ ReleasedUnsent .router t := by
  obtain ⟨s, r, hpc, hdest, hun⟩ := unroutableActs_decide
  obtain ⟨t, hs, _⟩ := upAckStep_decide .router true hpc hdest
  have hsent := unroutableUp_sent (startedSys_start _ _) r hpc hdest hun hs
  exact ⟨s, t, hpc, hun, hs, hsent.2.1, hsent.2.2.1⟩

/-- The decision does not drop an unroutable packet. -/
theorem droppedUnsent_fails :
    ¬ ∀ (s₀ s t : Sys (Fin 1)) (as : List (Act (Fin 1))), SysStart .router s₀ →
      Runs (sysStep .router) Free s₀ as s → s.upAck = .decide →
      s.packetUp.addr64At unetDest64 ≠ s.node.addr64 → Unroutable s.node s.packetUp →
      sysStep .router s (.upAck true) = some t → DroppedUnsent .router t := by
  intro h
  obtain ⟨s, r, hpc, hdest, hun⟩ := unroutableActs_decide
  obtain ⟨t, hs, hpost, _⟩ := upAckStep_decide .router true hpc hdest
  obtain ⟨o, ho⟩ := OwnedUp.of_runs (startedSys_start _ _) (.snoc r trivial hs)
  obtain rfl := ho.eq_ackTask (by rw [hpost]; rfl)
  exact (h _ s t _ (startedSys_start _ _) r hpc hdest hun hs).1 _ (handedOver_of_post ho hpost)

end Unet4Cooja
