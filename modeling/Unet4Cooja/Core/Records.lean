import Unet4Cooja.Core.Ownership
import Unet4Cooja.Link.LastId

/-!
# What the ack task remembers of a neighbour

A neighbour `b` numbers its packets: `f k` is the sequence number of packet `k`.

* `RecordInv` : the slots of `b` show 0 or the number of the last packet recorded from `b`, and a
  packet marked as a duplicate carries that number;
* `NumberedBy`, `SourceUsed` : the `UNICAST_DOWN` frames that are accepted from `b` carry the numbers
  `f`, and none is accepted from the address of a free slot;
* `droppedAsDuplicate_of_runs` : with the numbers of `node_seq_num_get_next`, a packet is dropped as
  a duplicate only at a multiple of 255 numbers from the last one recorded;
* `droppedAsDuplicate_fails` : a packet 255 numbers later is dropped.
-/

namespace Unet4Cooja
open Lib

/-- The ack task has not yet looked at the duplicate flag. -/
def DownAckPc.unchecked : DownAckPc → Bool
  | .sendAck | .checkDup => true
  | _ => false

/-- The ack task has not yet recorded the sequence number. -/
def DownAckPc.unrecorded : DownAckPc → Bool
  | .sendAck | .checkDup | .record => true
  | _ => false

variable {σ : Type}

/-- `packet_down` holds a received packet whose duplicate flag is still to be looked at. -/
def Unchecked (s : Sys σ) : Prop := 0 < s.routerDownAckRequest ∨ s.downAck.unchecked = true

/-- `packet_down` holds a received packet whose sequence number is still to be recorded. -/
def Unrecorded (s : Sys σ) : Prop := 0 < s.routerDownAckRequest ∨ s.downAck.unrecorded = true

/-- The slots of `b` and the packet in `packet_down` agree with the packets recorded from `b`. -/
structure RecordInv (f : Nat → U8) (b : U16) (s : Sys σ) : Prop where
  free : FreeSlotsClear s.node
  unique : UniqueSlots s.node
  last : ∀ i < neighbourhoodSize, (s.node.neighbourhood i).addr16b = b →
    (s.node.neighbourhood i).neighborLastID = 0 ∨
      ∃ k, s.taken b = some k ∧ (s.node.neighbourhood i).neighborLastID = f k
  source : Unrecorded s → s.packetDown.sourceAddr16 ≠ unusedAddr
  number : Unrecorded s → s.packetDown.sourceAddr16 = b → s.packetDown.info.seqNum = f s.downTag
  flag : Unchecked s → s.packetDown.sourceAddr16 = b → s.packetDown.info.duplicated = true →
    f s.downTag = 0 ∨ ∃ k, s.taken b = some k ∧ f k = f s.downTag

/-- A `UNICAST_DOWN` frame that is accepted from `b` carries the number of the packet it is a copy
of. -/
def NumberedBy (f : Nat → U8) (b : U16) (s : Sys σ) : Act σ → Prop
  | .input p tag crc =>
    p.supported = true → crc = true → p.packet unetPktType = unicastDown →
      s.packetDown.state = .idle → p.macSource = b → p.packet macSeqNum = f tag
  | _ => True

/-- No `UNICAST_DOWN` frame is accepted from the address of a free slot. -/
def SourceUsed (s : Sys σ) : Act σ → Prop
  | .input p _ crc =>
    p.supported = true → crc = true → p.packet unetPktType = unicastDown →
      s.packetDown.state = .idle → p.macSource ≠ unusedAddr
  | _ => True

namespace RecordInv
variable {f : Nat → U8} {b : U16} {dev : DeviceType} {s t : Sys σ}

theorem Unchecked.unrecorded (h : Unchecked s) : Unrecorded s := by
  rcases h with h | h
  · exact .inl h
  · right
    cases hpc : s.downAck with
    | sendAck => rfl
    | checkDup => rfl
    | _ => rw [hpc] at h; cases h

theorem quiet (h : RecordInv f b s) (hk : KeepsLast s.node t.node) (ht : t.taken = s.taken)
    (hrec : Unrecorded t → Unrecorded s ∧ t.packetDown.info = s.packetDown.info ∧
      t.downTag = s.downTag)
    (hchk : Unchecked t → Unchecked s) : RecordInv f b t := by
  have hsrc : Unrecorded t → t.packetDown.sourceAddr16 = s.packetDown.sourceAddr16 := by
    intro hu
    unfold Packet.sourceAddr16
    rw [(hrec hu).2.1]
  refine ⟨h.free.of_keeps hk, hk.unique h.unique, fun i hi ha => ?_, fun hu => ?_, fun hu hb => ?_,
    fun hu hb hd => ?_⟩
  · rcases hk.last i hi with h0 | ⟨haddr, hlast⟩
    · exact .inl h0
    · rw [hlast, ht]
      exact h.last i hi (haddr.symm.trans ha)
  · rw [hsrc hu]
    exact h.source (hrec hu).1
  · obtain ⟨hus, hinfo, htag⟩ := hrec hu
    rw [hsrc hu] at hb
    rw [hinfo, htag]
    exact h.number hus hb
  · obtain ⟨_, hinfo, htag⟩ := hrec (Unchecked.unrecorded hu)
    rw [hsrc (Unchecked.unrecorded hu)] at hb
    rw [hinfo] at hd
    rw [ht, htag]
    exact h.flag (hchk hu) hb hd

theorem sameRecords (h : RecordInv f b s) (e : SameRecords s t)
    (hp : Unrecorded s → t.packetDown.info = s.packetDown.info) : RecordInv f b t := by
  have hrec : Unrecorded t → Unrecorded s := by
    unfold Unrecorded
    rw [e.requests, e.downAck]
    exact id
  have hchk : Unchecked t → Unchecked s := by
    unfold Unchecked
    rw [e.requests, e.downAck]
    exact id
  exact h.quiet (.of_eq e.neighbourhood) e.taken (fun hu => ⟨hrec hu, hp (hrec hu), e.downTag⟩) hchk

theorem record (h : RecordInv f b s) (hu : Unrecorded s) (ht : ¬ Unrecorded t)
    (hn : t.node = linkSetNeighborSeqnum s.node s.packetDown)
    (htaken : t.taken = Function.update s.taken s.packetDown.sourceAddr16 (some s.downTag)) :
    RecordInv f b t := by
  have hsrc := h.source hu
  refine ⟨fun i hi ha => ?_, fun i hi j hj he hne => ?_, fun i hi ha => ?_, fun hu' => absurd hu' ht,
    fun hu' => absurd hu' ht, fun hu' => absurd (Unchecked.unrecorded hu') ht⟩
  · rw [hn, linkSetNeighborSeqnum_addr] at ha
    have hno : (s.node.neighbourhood i).addr16b ≠ s.packetDown.sourceAddr16 :=
      fun he => hsrc (he.symm.trans ha)
    rw [hn, linkSetNeighborSeqnum_slot h.unique hsrc hi, if_neg hno]
    exact h.free i hi ha
  · rw [hn, linkSetNeighborSeqnum_addr, linkSetNeighborSeqnum_addr] at he
    rw [hn, linkSetNeighborSeqnum_addr] at hne
    exact h.unique i hi j hj he hne
  · rw [hn, linkSetNeighborSeqnum_addr] at ha
    rw [hn, htaken, linkSetNeighborSeqnum_slot h.unique hsrc hi]
    by_cases hb : b = s.packetDown.sourceAddr16
    · rw [if_pos (ha.trans hb), ← hb, Function.update_self]
      exact .inr ⟨_, rfl, h.number hu hb.symm⟩
    · rw [if_neg fun he => hb (ha.symm.trans he), Function.update_of_ne hb]
      exact h.last i hi ha

/-! ## Steps -/

theorem input {p : Packet} {tag : Nat} {crc : Bool} (h : RecordInv f b s)
    (hnum : NumberedBy f b s (.input p tag crc)) (hsrc : SourceUsed s (.input p tag crc)) :
    RecordInv f b (ieee802154PacketInput dev s p tag crc) := by
  generalize ht : ieee802154PacketInput dev s p tag crc = t
  rcases packetInput_eq ht with rfl | ⟨hsup, hcrc, hh⟩
  · exact h
  cases hh with
  | dropped => exact h
  | link => exact h.quiet (linkPacketProcess_keepsLast dev h.free) rfl (fun hu => ⟨hu, rfl, rfl⟩) id
  | up _ _ =>
    exact h.quiet (linkSetNeighborActivity_keepsLast _ _) rfl (fun hu => ⟨hu, rfl, rfl⟩) id
  | ackUp _ _ _ => exact h.quiet (.of_eq rfl) rfl (fun hu => ⟨hu, rfl, rfl⟩) id
  | ackDown _ _ _ _ => exact h.quiet (.of_eq rfl) rfl (fun hu => ⟨hu, rfl, rfl⟩) id
  | down htype hidle =>
    have hne := hsrc hsup hcrc htype hidle
    have hnum := hnum hsup hcrc htype hidle
    have hk : KeepsLast s.node (acceptDown s (p.macInput s.node) tag).node := by
      refine KeepsLast.trans ?_ (linkSetNeighborActivity_keepsLast _ _)
      exact .of_eq rfl
    refine ⟨h.free.of_keeps hk, hk.unique h.unique, fun i hi ha => ?_, fun _ => hne,
      fun _ hb => hnum hb, fun _ hb hd => ?_⟩
    · rcases hk.last i hi with h0 | ⟨haddr, hlast⟩
      · exact .inl h0
      · rw [hlast]
        exact h.last i hi (haddr.symm.trans ha)
    · -- the flag was set because the slot of `b` showed the number of the packet
      have hb : p.macSource = b := hb
      have hd : (_ && linkPacketIsDuplicated s.node p.macSource (p.packet macSeqNum)) = true := hd
      rw [Bool.and_eq_true] at hd
      obtain ⟨i, hfind, hseq⟩ := linkPacketIsDuplicated_iff.mp hd.2
      obtain ⟨hi, ha⟩ := findNeighbor_eq_some hfind
      rw [hnum hb] at hseq
      rcases h.last i hi (ha.trans hb) with h0 | ⟨k, hk, hlast⟩
      · exact .inl (hseq.symm.trans h0)
      · exact .inr ⟨k, hk, hlast.symm.trans hseq⟩

theorem start {s₀ : Sys σ} (h : SysStart dev s₀) : RecordInv f b s₀ := by
  obtain ⟨n, hn⟩ := h.node
  have hu : ¬ Unrecorded s₀ := by
    rintro (hpos | hpc)
    · rw [h.downCounts.1] at hpos
      exact Nat.lt_irrefl 0 hpos
    · rw [h.tasks.1] at hpc
      cases hpc
  refine ⟨?_, ?_, fun i hi _ => .inl ?_, fun hu' => absurd hu' hu, fun hu' => absurd hu' hu,
    fun hu' => absurd (Unchecked.unrecorded hu') hu⟩
  · rw [hn]
    exact linkInit_freeSlotsClear dev n
  · rw [hn]
    exact linkInit_uniqueSlots dev n
  · rw [hn]
    exact (linkInit_slot dev n hi).2

variable [DecidableEq σ] {o : Owner σ}

theorem owner_of_unrecorded (ho : Owned o s) (hu : Unrecorded s) : o = .received ∨ o = .ackTask := by
  rcases hu with hpos | hpc
  · exact .inl (ho.eq_received hpos)
  · refine .inr (ho.eq_ackTask ?_)
    cases hpc' : s.downAck with
    | wait => rw [hpc'] at hpc; cases hpc
    | post => rw [hpc'] at hpc; cases hpc
    | _ => rfl

theorem downAckStep {ok : Bool} (h : RecordInv f b s) (ho : Owned o s)
    (hs : Unet4Cooja.downAckStep s ok = some t) : RecordInv f b t := by
  by_cases hack : s.downAck.handles = true
  · obtain rfl := ho.eq_ackTask hack
    have hno := ho.no_request rfl
    -- from the check on, only what the place of the task says is to be done
    have hdone : ∀ {u : Sys σ}, u.routerDownAckRequest = s.routerDownAckRequest →
        u.downAck.unrecorded = false → ¬ Unrecorded u := by
      intro u hr hpc hu
      rcases hu with hpos | hpc'
      · exact hno (hr ▸ hpos)
      · rw [hpc] at hpc'
        cases hpc'
    unfold Unet4Cooja.downAckStep at hs
    cases hpc : s.downAck with
    | wait => rw [hpc] at hack; cases hack
    | post => rw [hpc] at hack; cases hack
    | sendAck =>
      rw [hpc] at hs
      cases hs
      exact h.quiet (.of_eq rfl) rfl (fun _ => ⟨.inr (by rw [hpc]; rfl), rfl, rfl⟩)
        fun _ => .inr (by rw [hpc]; rfl)
    | checkDup =>
      rw [hpc] at hs
      dsimp only at hs
      split at hs <;> cases hs
      · exact h.quiet (.of_eq rfl) rfl (fun hu => absurd hu (hdone rfl rfl)) fun hu =>
          absurd (Unchecked.unrecorded hu) (hdone rfl rfl)
      · refine h.quiet (.of_eq rfl) rfl (fun _ => ⟨.inr (by rw [hpc]; rfl), rfl, rfl⟩) fun _ => ?_
        exact .inr (by rw [hpc]; rfl)
    | record =>
      rw [hpc] at hs
      cases hs
      exact h.record (.inr (by rw [hpc]; rfl)) (hdone rfl rfl) rfl rfl
    | decide =>
      rw [hpc] at hs
      dsimp only at hs
      split at hs <;> cases hs <;>
        exact h.quiet (.of_eq rfl) rfl (fun hu => absurd hu (hdone rfl rfl)) fun hu =>
          absurd (Unchecked.unrecorded hu) (hdone rfl rfl)
    | route =>
      rw [hpc] at hs
      dsimp only at hs
      split at hs
      all_goals
        rename_i hr
        cases hs
        exact h.quiet (.of_eq (unetRouterDownStart_tables hr).neighbourhood) rfl
          (fun hu => absurd hu (hdone rfl rfl)) fun hu =>
          absurd (Unchecked.unrecorded hu) (hdone rfl rfl)
    | routeEnd pIdx =>
      rw [hpc] at hs
      cases hs
      exact h.quiet (.of_eq rfl) rfl (fun hu => absurd hu (hdone rfl rfl)) fun hu =>
        absurd (Unchecked.unrecorded hu) (hdone rfl rfl)
  · unfold Unet4Cooja.downAckStep at hs
    cases hpc : s.downAck with
    | wait =>
      rw [hpc] at hs
      rcases osSemPend_eq_some.mp hs with ⟨_, hpos, hs⟩ | ⟨_, _, hs⟩ <;> cases hs
      exact h.quiet (.of_eq rfl) rfl (fun _ => ⟨.inl hpos, rfl, rfl⟩) fun _ => .inl hpos
    | post =>
      rw [hpc] at hs
      cases hs
      refine h.quiet (.of_eq rfl) rfl (fun hu => ⟨.inl ?_, rfl, rfl⟩) fun hu => .inl ?_
      · exact hu.resolve_right (by rintro ⟨⟩)
      · exact hu.resolve_right (by rintro ⟨⟩)
    | _ => rw [hpc] at hack; exact absurd rfl hack

theorem step {a : Act σ} (h : RecordInv f b s) (ho : Owned o s) (hnum : NumberedBy f b s a)
    (hsrc : SourceUsed s a) (hs : sysStep dev s a = some t) : RecordInv f b t := by
  cases a with
  | input p tag crc => cases hs; exact h.input hnum hsrc
  | verify =>
    cases hs
    exact h.quiet (linkVerifyNeighbourhood_keepsLast dev s.node) rfl (fun hu => ⟨hu, rfl, rfl⟩) id
  | downAck ok => exact h.downAckStep ho hs
  | _ =>
    obtain ⟨e, hp⟩ := ho.otherStep hs nofun nofun nofun
    apply h.sameRecords e
    intro hu
    rw [hp (owner_of_unrecorded ho hu)]

end RecordInv

/-! ## Duplicates -/

/-- What is recorded of `b` is a packet that was delivered or routed, or is about to be. -/
def TakenInv (b : U16) (s : Sys σ) : Prop :=
  ∀ k, s.taken b = some k → (b, k) ∈ s.handledDown ∨
    (s.downAck = .decide ∧ s.packetDown.sourceAddr16 = b ∧ s.downTag = k)

namespace TakenInv
variable {b : U16} {dev : DeviceType} {s t : Sys σ}

theorem same (h : TakenInv b s) (ht : t.taken = s.taken) (hh : t.handledDown = s.handledDown)
    (hd : s.downAck = .decide → t.downAck = .decide ∧ t.packetDown.info = s.packetDown.info ∧
      t.downTag = s.downTag) : TakenInv b t := by
  intro k hk
  rw [ht] at hk
  rw [hh]
  rcases h k hk with hmem | ⟨hpc, hb, htag⟩
  · exact .inl hmem
  · obtain ⟨hpc', hinfo, htag'⟩ := hd hpc
    refine .inr ⟨hpc', ?_, htag'.trans htag⟩
    unfold Packet.sourceAddr16
    rw [hinfo]
    exact hb

theorem downAckStep {ok : Bool} (h : TakenInv b s)
    (hs : Unet4Cooja.downAckStep s ok = some t) : TakenInv b t := by
  unfold Unet4Cooja.downAckStep at hs
  cases hpc : s.downAck with
  | wait =>
    rw [hpc] at hs
    rcases osSemPend_eq_some.mp hs with ⟨_, _, hs⟩ | ⟨_, _, hs⟩ <;> cases hs
    exact h.same rfl rfl fun hd => by rw [hpc] at hd; cases hd
  | checkDup =>
    rw [hpc] at hs
    dsimp only at hs
    split at hs <;> cases hs <;> exact h.same rfl rfl fun hd => by rw [hpc] at hd; cases hd
  | record =>
    rw [hpc] at hs
    cases hs
    intro k hk
    by_cases hb : b = s.packetDown.sourceAddr16
    · refine .inr ⟨rfl, hb.symm, ?_⟩
      have hk : Function.update s.taken s.packetDown.sourceAddr16 (some s.downTag) b = some k := hk
      rw [hb, Function.update_self] at hk
      exact Option.some.inj hk
    · have hk : Function.update s.taken s.packetDown.sourceAddr16 (some s.downTag) b = some k := hk
      rw [Function.update_of_ne hb] at hk
      left
      refine (h k hk).resolve_right fun hd => ?_
      rw [hpc] at hd
      cases hd.1
  | decide =>
    have hdec : ∀ k, s.taken b = some k →
        (b, k) ∈ (s.packetDown.sourceAddr16, s.downTag) :: s.handledDown := by
      intro k hk
      rcases h k hk with hmem | ⟨_, hb, htag⟩
      · exact List.mem_cons_of_mem _ hmem
      · rw [hb, htag]
        exact List.mem_cons_self
    rw [hpc] at hs
    dsimp only at hs
    split at hs <;> cases hs <;> exact fun k hk => .inl (hdec k hk)
  | route =>
    rw [hpc] at hs
    dsimp only at hs
    split at hs <;> cases hs <;> exact h.same rfl rfl fun hd => by rw [hpc] at hd; cases hd
  | _ =>
    rw [hpc] at hs
    cases hs
    exact h.same rfl rfl fun hd => by rw [hpc] at hd; cases hd

variable [DecidableEq σ] {o : Owner σ}

theorem step {a : Act σ} (h : TakenInv b s) (ho : Owned o s) (hs : sysStep dev s a = some t) :
    TakenInv b t := by
  have hack : s.downAck = .decide → o = .ackTask := fun hpc => ho.eq_ackTask (by rw [hpc]; rfl)
  cases a with
  | input p tag crc =>
    rcases packetInput_eq (Option.some.inj hs) with rfl | ⟨_, _, hh⟩
    · exact h
    · cases hh with
      | down _ hidle =>
        obtain rfl := ho.eq_nobody hidle
        exact h.same rfl rfl fun hd => by cases hack hd
      | _ => exact h.same rfl rfl fun hd => ⟨hd, rfl, rfl⟩
  | verify => cases hs; exact h.same rfl rfl fun hd => ⟨hd, rfl, rfl⟩
  | downAck ok => exact h.downAckStep hs
  | _ =>
    obtain ⟨e, hp⟩ := ho.otherStep hs nofun nofun nofun
    apply h.same e.taken e.handledDown
    intro hd
    rw [hp (.inr (hack hd))]
    exact ⟨e.downAck.trans hd, rfl, e.downTag⟩

end TakenInv

/-- The number a node in the state `n` gives its packet number `k`, from 0 on. -/
def seqNumber (n : Node) (k : Nat) : U8 :=
  (nodeSeqNumGetNext ((fun m => (nodeSeqNumGetNext m).2)^[k] n)).1

theorem seqNumber_eq (n : Node) (k : Nat) : seqNumber n k = bump^[k] (bump n.seqNum) := by
  unfold seqNumber
  induction k generalizing n with
  | zero => rfl
  | succ k ih =>
    rw [Function.iterate_succ_apply, Function.iterate_succ_apply]
    exact ih (nodeSeqNumGetNext n).2

theorem seqNumber_inj (n : Node) (k l : Nat) : seqNumber n k = seqNumber n l ↔ k ≡ l [MOD 255] := by
  rw [seqNumber_eq, seqNumber_eq]
  exact bump_iterate_inj (by decide) (bump_ne_zero (by decide) n.seqNum) k l

theorem seqNumber_ne_zero (n : Node) (k : Nat) : seqNumber n k ≠ 0 :=
  bump_ne_zero (by decide) _

/-- A packet of the neighbour `b` that the ack task drops as a duplicate has the number of the last
packet recorded from `b`: it is a copy of that packet, or a multiple of 255 numbers away from it. -/
theorem droppedAsDuplicate_of_runs [DecidableEq σ] {dev : DeviceType} {s₀ s : Sys σ}
    {as : List (Act σ)} (b : U16) (nb : Node) (h0 : SysStart dev s₀)
    (r : Runs (sysStep dev)
      (fun s a => WakeOk dev s a ∧ NumberedBy (seqNumber nb) b s a ∧ SourceUsed s a) s₀ as s)
    (hpc : s.downAck = .checkDup) (hb : s.packetDown.sourceAddr16 = b)
    (hdup : s.packetDown.info.duplicated = true) :
    ∃ k, s.taken b = some k ∧ (b, k) ∈ s.handledDown ∧ s.downTag ≡ k [MOD 255] := by
  obtain ⟨⟨_, ho⟩, hrec, htaken⟩ := r.invariant
    (I := fun s => (∃ o, Owned o s) ∧ RecordInv (seqNumber nb) b s ∧ TakenInv b s)
    ⟨⟨_, Owned.start h0⟩, RecordInv.start h0, fun k hk => by rw [h0.history.2.1] at hk; cases hk⟩
    fun _ _ _ ⟨⟨_, ho⟩, hrec, htaken⟩ hok hs =>
      ⟨ho.step hok.1 hs, hrec.step ho hok.2.1 hok.2.2 hs, htaken.step ho hs⟩
  have hu : Unchecked s := .inr (by rw [hpc]; rfl)
  obtain ⟨k, hk, hf⟩ := (hrec.flag hu hb hdup).resolve_left (seqNumber_ne_zero nb _)
  refine ⟨k, hk, ?_, ((seqNumber_inj nb _ _).mp hf).symm⟩
  refine (htaken k hk).resolve_right fun hd => ?_
  rw [hpc] at hd
  cases hd.1

instance {n : Nat} (f : Nat → U8) (b : U16) (s : Sys (Fin n)) (a : Act (Fin n)) :
    Decidable (NumberedBy f b s a) :=
  match a with
  | .input .. => inferInstanceAs (Decidable (_ → _))
  | .verify | .downAck _ | .down _ | .link _ | .upAck _ | .up _ | .send .. => .isTrue trivial

instance {n : Nat} (s : Sys (Fin n)) (a : Act (Fin n)) : Decidable (SourceUsed s a) :=
  match a with
  | .input .. => inferInstanceAs (Decidable (_ → _))
  | .verify | .downAck _ | .down _ | .link _ | .upAck _ | .up _ | .send .. => .isTrue trivial

/-- The coordinator, with the address 1, is a neighbour; its first packet is received and delivered,
and then a frame with the same number, which is a copy of packet `tag`. -/
def sameNumberActs (tag : Nat) : List (Act (Fin 1)) :=
  [.input advFrame 0 true, .input (netFrame 1 unicastDown 1) 0 true] ++
    List.replicate 5 (.downAck true) ++
    [.input (netFrame 1 unicastDown 1) tag true, .downAck true, .downAck true]

theorem sameNumberActs_runs (tag : Nat) (h : tag = 0 ∨ tag = 255) :
    ∃ s : Sys (Fin 1), Runs (sysStep .router)
        (fun s a => WakeOk .router s a ∧ NumberedBy (seqNumber default) 1 s a ∧ SourceUsed s a)
        (startedSys .router (Fin 1)) (sameNumberActs tag) s ∧
      s.downAck = .checkDup ∧ s.packetDown.sourceAddr16 = 1 ∧
      s.packetDown.info.duplicated = true ∧ s.downTag = tag ∧ s.handledDown = [(1, 0)] := by
  have hrun : ((exec (guarded (sysStep .router)
      (fun s a => WakeOk .router s a ∧ NumberedBy (seqNumber default) 1 s a ∧ SourceUsed s a))
      (startedSys .router (Fin 1)) (sameNumberActs tag)).map fun s =>
        decide (s.downAck = .checkDup ∧ s.packetDown.sourceAddr16 = 1 ∧
          s.packetDown.info.duplicated = true ∧ s.downTag = tag ∧ s.handledDown = [(1, 0)])) =
      some true := by
    rcases h with rfl | rfl
    · decide +kernel
    · decide +kernel
  obtain ⟨s, hs, hst⟩ := Option.map_eq_some_iff.mp hrun
  exact ⟨s, Runs.of_exec_guarded hs, of_decide_eq_true hst⟩

theorem droppedAsDuplicate_sameNumberActs :
    ∃ s : Sys (Fin 1), s.downAck = .checkDup ∧ s.packetDown.info.duplicated = true ∧
      ∃ k, s.taken 1 = some k ∧ (1, k) ∈ s.handledDown ∧ s.downTag ≡ k [MOD 255] := by
  obtain ⟨s, r, hpc, hb, hdup, _⟩ := sameNumberActs_runs 0 (.inl rfl)
  exact ⟨s, hpc, hdup, droppedAsDuplicate_of_runs 1 default (startedSys_start _ _) r hpc hb hdup⟩

/-- Before the neighbour 1 gets the first slot, a packet from the address of a free slot has left its
number there. -/
def unusedSourceActs : List (Act (Fin 1)) :=
  let q := netFrame 1 unicastDown 1
  let unused := q |>.setByte macSrc16 0xFE |>.setByte (macSrc16 + 1) 0xFF
  [.input unused 0 true] ++ List.replicate 5 (.downAck true) ++
    [.input advFrame 0 true, .input q 0 true, .downAck true, .downAck true]

/-- The task that transmits takes the packet from the ack task, and `unet_send` routes its own with
the number 2 before the ack task records the number. -/
def stolenActs : List (Act (Fin 1)) :=
  [.input advFrame 0 true, .input (netFrame 1 unicastDown 1) 0 true, .downAck true, .downAck true,
      .downAck true] ++ List.replicate 4 (.link true) ++ List.replicate 7 (.down true) ++
    [.input (netFrame 1 unicastAckDown 1) 0 true, .down true, .down true] ++
    List.replicate 4 (.send 0 sendByte) ++ [.downAck true, .downAck true] ++
    [.input (netFrame 1 unicastDown 2) 1 true, .downAck true, .downAck true]

/-- The packet that a neighbour numbers 255 numbers after the last one recorded is dropped; and so are
others if a packet comes from the address of a free slot, or if the ack task loses its packet to the
task that transmits. -/
theorem droppedAsDuplicate_fails :
    (¬ ∀ (nb : Node) (b : U16) (s₀ s : Sys (Fin 1)) (as : List (Act (Fin 1))), SysStart .router s₀ →
      Runs (sysStep .router)
        (fun s a => WakeOk .router s a ∧ NumberedBy (seqNumber nb) b s a ∧ SourceUsed s a) s₀ as s →
      s.downAck = .checkDup → s.packetDown.sourceAddr16 = b → (b, s.downTag) ∉ s.handledDown →
      s.packetDown.info.duplicated = false) ∧
    (¬ ∀ (nb : Node) (b : U16) (s₀ s : Sys (Fin 1)) (as : List (Act (Fin 1))), SysStart .router s₀ →
      Runs (sysStep .router) (fun s a => WakeOk .router s a ∧ NumberedBy (seqNumber nb) b s a)
        s₀ as s →
      s.downAck = .checkDup → s.packetDown.sourceAddr16 = b → s.packetDown.info.duplicated = true →
      ∃ k, (b, k) ∈ s.handledDown ∧ s.downTag ≡ k [MOD 255]) ∧
    ¬ ∀ (nb : Node) (b : U16) (s₀ s : Sys (Fin 1)) (as : List (Act (Fin 1))), SysStart .router s₀ →
      Runs (sysStep .router) (fun s a => NumberedBy (seqNumber nb) b s a ∧ SourceUsed s a) s₀ as s →
      s.downAck = .checkDup → s.packetDown.sourceAddr16 = b → s.packetDown.info.duplicated = true →
      ∃ k, (b, k) ∈ s.handledDown ∧ s.downTag ≡ k [MOD 255] := by
  refine ⟨fun h => ?_, fun h => ?_, fun h => ?_⟩
  · obtain ⟨s, r, hpc, hb, hdup, htag, hhandled⟩ := sameNumberActs_runs 255 (.inr rfl)
    have hfresh : ((1 : U16), s.downTag) ∉ s.handledDown := by
      rw [htag, hhandled]
      decide
    have hno := h default 1 _ s _ (startedSys_start _ _) r hpc hb hfresh
    rw [hdup] at hno
    cases hno
  · have hrun : ((exec (guarded (sysStep .router)
        (fun s a => WakeOk .router s a ∧ NumberedBy (seqNumber default) 1 s a))
        (startedSys .router (Fin 1)) unusedSourceActs).map fun s =>
          decide (s.downAck = .checkDup ∧ s.packetDown.sourceAddr16 = 1 ∧
            s.packetDown.info.duplicated = true ∧ s.handledDown = [(unusedAddr, 0)])) =
        some true := by decide +kernel
    obtain ⟨s, hs, hst⟩ := Option.map_eq_some_iff.mp hrun
    obtain ⟨hpc, hb, hdup, hhandled⟩ := of_decide_eq_true hst
    obtain ⟨k, hk, _⟩ := h default 1 _ s _ (startedSys_start _ _) (Runs.of_exec_guarded hs) hpc hb
      hdup
    rw [hhandled] at hk
    simp [unusedAddr] at hk
  · have hrun : ((exec (guarded (sysStep .router)
        (fun s a => NumberedBy (seqNumber default) 1 s a ∧ SourceUsed s a))
        (startedSys .router (Fin 1)) stolenActs).map fun s =>
          decide (s.downAck = .checkDup ∧ s.packetDown.sourceAddr16 = 1 ∧
            s.packetDown.info.duplicated = true ∧ s.downTag = 1 ∧ s.handledDown = [(1, 0)])) =
        some true := by decide +kernel
    obtain ⟨s, hs, hst⟩ := Option.map_eq_some_iff.mp hrun
    obtain ⟨hpc, hb, hdup, htag, hhandled⟩ := of_decide_eq_true hst
    obtain ⟨k, hk, hmod⟩ := h default 1 _ s _ (startedSys_start _ _) (Runs.of_exec_guarded hs) hpc hb
      hdup
    rw [hhandled, List.mem_singleton] at hk
    rw [(Prod.mk.inj hk).2, htag] at hmod
    exact absurd hmod (by decide)

end Unet4Cooja
