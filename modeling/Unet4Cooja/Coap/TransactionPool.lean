import Unet4Cooja.Coap.Retransmission
import Unet4Cooja.Contiki.Memb

/-!
# The pool of transactions

`Coap.Transactions` has a list of the open transactions and takes the first block that is not in it. The source has
`transactions_memb` and `transactions_list`.

* `closedBy`, `openedBy` : the transaction that a step closes, and the one it opens; `coapStep_list`;
* `poolCall`, `poolCalls` : the call of the pool that a step makes, and those of a run, with what they return;
* `transactions_pooled` : along every run these calls return so, and the list and the blocks in use are those of the
  model.
-/

namespace Unet4Cooja
open Lib Contiki

/-! ## What a step does to the list -/

def CoapTransaction.LastSend (x : CoapTransaction) : Prop := ¬(x.Con ∧ x.retransCounter < coapMaxRetransmit)

instance CoapTransaction.decidableLastSend (x : CoapTransaction) : Decidable x.LastSend :=
  inferInstanceAs (Decidable (¬(_ ∧ _)))

/-- The transaction that `coap_check_transactions` closes. -/
def closedByCheck (null : TimerState) (s : CoapSys) : Option TransactionId :=
  (s.list.find? fun t => s.timerState t null = .stopped).filter fun t =>
    CoapTransaction.LastSend { s.block t with retransCounter := (s.block t).retransCounter + 1 }

def closedBy (null : TimerState) (s : CoapSys) : CoapAct → Option TransactionId
  | .send t _ => if (s.block t).LastSend then some t else none
  | .clear t => some t
  | .callback .. =>
    match s.pc with
    | .expired p => if (s.timer p).funcCb = some coapCheckTransactionsCb then closedByCheck null s else none
    | .idle | .finish .. => none
  | .create .. | .write .. | .expire _ | .finish | .other .. => none

def openedBy (s : CoapSys) : CoapAct → Option TransactionId
  | .create .. => s.freeBlock
  | .write .. | .send .. | .clear _ | .expire _ | .callback .. | .finish | .other .. => none

section
variable {s s' : CoapSys} {null : TimerState} {a : CoapAct}

theorem coapNewTransaction_list (s : CoapSys) (mid : U16) (addr : U64) (port : U16) :
    (s.coapNewTransaction mid addr port).list = s.list ++ s.freeBlock.toList := by
  cases hfree : s.freeBlock with
  | none =>
    rw [coapNewTransaction_none hfree, Option.toList_none, List.append_nil]
  | some t => exact (created_of_freeBlock hfree mid addr port).list

theorem coapSendTransaction_list (s : CoapSys) (t : TransactionId) (random : U16) :
    (s.coapSendTransaction t random).list = if (s.block t).LastSend then s.list.erase t else s.list := by
  unfold CoapSys.coapSendTransaction
  dsimp only
  by_cases hcon : (s.block t).Con
  · rw [if_pos hcon]
    by_cases hlt : (s.block t).retransCounter < coapMaxRetransmit
    · have hlast : ¬(s.block t).LastSend := not_not_intro ⟨hcon, hlt⟩
      rw [if_pos hlt, if_neg hlast]
      split <;> rfl
    · have hlast : (s.block t).LastSend := fun h => hlt h.2
      rw [if_neg hlt, if_pos hlast]
      rfl
  · have hlast : (s.block t).LastSend := fun h => hcon h.1
    rw [if_neg hcon, if_pos hlast]
    rfl

theorem retransmit_list (s : CoapSys) (t : TransactionId) (random : U16) :
    (s.retransmit t random).2.list =
      if CoapTransaction.LastSend { s.block t with retransCounter := (s.block t).retransCounter + 1 } then
        s.list.erase t
      else s.list := by
  have hsent := coapSendTransaction_list
    (s.setBlock t { s.block t with retransCounter := (s.block t).retransCounter + 1 }) t random
  rw [setBlock_self] at hsent
  unfold CoapSys.retransmit
  dsimp only
  split <;> exact hsent

theorem coapCheckTransactions_list (s : CoapSys) (null : TimerState) (random : U16) :
    (s.coapCheckTransactions null random).2.list = (closedByCheck null s).elim s.list s.list.erase := by
  unfold CoapSys.coapCheckTransactions closedByCheck
  cases s.list.find? fun t => s.timerState t null = .stopped with
  | none => rfl
  | some t =>
    refine (retransmit_list s t random).trans ?_
    rw [Option.filter_some]
    by_cases hlast :
        CoapTransaction.LastSend { s.block t with retransCounter := (s.block t).retransCounter + 1 }
    · rw [if_pos hlast, if_pos (decide_eq_true hlast)]
      rfl
    · rw [if_neg hlast, if_neg (fun h => hlast (of_decide_eq_true h))]
      rfl

theorem coapStep_list (h : coapStep null s a = some s') :
    s'.list = (closedBy null s a).elim s.list s.list.erase ++ (openedBy s a).toList := by
  cases a with
  | create mid addr port =>
    obtain rfl := Option.some.inj h
    exact coapNewTransaction_list s mid addr port
  | callback random again =>
    rw [openedBy, Option.toList_none, List.append_nil]
    obtain ⟨p, hpc, ⟨hcb, rfl⟩ | ⟨hcb, again, rfl⟩⟩ := callback_cases h
    · simp only [closedBy, hpc, if_pos hcb]
      exact coapCheckTransactions_list s null random
    · simp only [closedBy, hpc, if_neg hcb]
      rfl
  | finish =>
    obtain ⟨p, again, -, rfl⟩ := finish_cases h
    exact (List.append_nil _).symm
  | send t random =>
    obtain ⟨-, h⟩ := Option.ite_none_right_eq_some.mp h
    obtain rfl := Option.some.inj h
    rw [openedBy, Option.toList_none, List.append_nil, coapSendTransaction_list, closedBy]
    split <;> rfl
  | write | clear | expire | other =>
    obtain ⟨-, h⟩ := Option.ite_none_right_eq_some.mp h
    obtain rfl := Option.some.inj h
    exact (List.append_nil _).symm

end

/-! ## The calls of a run -/

/-- The block of a transaction. -/
def transactionBlock (m : Memb) (t : TransactionId) : Nat := m.block t.val

/-- The call that a step makes, with what it returns: `memb_alloc` and `list_add`, or `list_remove` and
`memb_free`. -/
def poolCall (m : Memb) (null : TimerState) (s : CoapSys) (a : CoapAct) : Option (PoolCall × Option Nat) :=
  match a with
  | .create .. => some (.acquire, (openedBy s a).map (transactionBlock m))
  | _ => (closedBy null s a).map fun t => (.release (transactionBlock m t), none)

def poolCalls (m : Memb) (null : TimerState) (s : CoapSys) (as : List CoapAct) : List (PoolCall × Option Nat) :=
  observe (coapStep null) (fun s calls a => calls ++ (poolCall m null s a).toList) s [] as

section
variable {κ : Type*} [DecidableEq κ] {m : Memb} {list : κ} {elems : κ → List Nat} {q q' : Memb × Lists κ Nat}
  {s s' : CoapSys} {null : TimerState} {a : CoapAct}

/-- The pool has what the list of the model says. -/
def PooledAs (m : Memb) (list : κ) (elems : κ → List Nat) (q : Memb × Lists κ Nat) (s : CoapSys) : Prop :=
  Pooled m list elems q (s.list.map (transactionBlock m))

theorem transactionBlock_injective (hm : m.Fits) : Function.Injective (transactionBlock m) :=
  fun _ _ h => Fin.ext (hm.block_inj h)

theorem apply_acquire (hm : m.Fits) (hnum : m.num.toNat = coapMaxOpenTransactions) (s : CoapSys) :
    PoolCall.acquire.apply m.blocks (s.list.map (transactionBlock m)) =
      (s.freeBlock.map (transactionBlock m), (s.list ++ s.freeBlock.toList).map (transactionBlock m)) := by
  have hfind : m.blocks.find? (· ∉ s.list.map (transactionBlock m)) = s.freeBlock.map (transactionBlock m) := by
    have hblocks : m.blocks = (List.finRange coapMaxOpenTransactions).map (transactionBlock m) := by
      unfold Memb.blocks
      rw [hnum]
      rfl
    rw [hblocks, List.find?_map]
    unfold CoapSys.freeBlock
    congr 2
    funext t
    simp only [Function.comp_apply, List.mem_map_of_injective (transactionBlock_injective hm)]
  unfold PoolCall.apply
  rw [hfind, List.map_append]
  cases s.freeBlock <;> rfl

theorem apply_release (hm : m.Fits) (s : CoapSys) (t : TransactionId) :
    (PoolCall.release (transactionBlock m t)).apply m.blocks (s.list.map (transactionBlock m)) =
      (none, (s.list.erase t).map (transactionBlock m)) :=
  congrArg (Prod.mk none) (List.map_erase (transactionBlock_injective hm) s.list).symm

theorem step_pooled (hm : m.Fits) (hnum : m.num.toNat = coapMaxOpenTransactions)
    (hother : ∀ p ∈ m.blocks, Elsewhere elems list p) (h : PooledAs m list elems q s)
    (hs : coapStep null s a = some s') :
    ∃ q', callAll (PoolCall.run m.num.toNat list) q ((poolCall m null s a).toList.map Prod.fst) =
        some ((poolCall m null s a).toList.map Prod.snd, q') ∧ PooledAs m list elems q' s' := by
  have hone : ∀ (call : PoolCall) (o : Option Nat), poolCall m null s a = some (call, o) →
      call.apply m.blocks (s.list.map (transactionBlock m)) = (o, s'.list.map (transactionBlock m)) →
      ∃ q', callAll (PoolCall.run m.num.toNat list) q ((poolCall m null s a).toList.map Prod.fst) =
        some ((poolCall m null s a).toList.map Prod.snd, q') ∧ PooledAs m list elems q' s' := by
    intro call o hcall happly
    obtain ⟨q', hrun, hpooled⟩ := call.run_eq hm hother h
    rw [happly] at hrun hpooled
    refine ⟨q', ?_, hpooled⟩
    rw [hcall]
    show callAll _ q [call] = some ([o], q')
    rw [callAll, hrun]
    rfl
  have hlist := coapStep_list hs
  by_cases hcreate : ∃ mid addr port, a = .create mid addr port
  · obtain ⟨mid, addr, port, rfl⟩ := hcreate
    refine hone .acquire _ rfl ?_
    rw [apply_acquire hm hnum, hlist]
    rfl
  · have hcall : poolCall m null s a = (closedBy null s a).map fun t => (.release (transactionBlock m t), none) := by
      cases a with
      | create mid addr port => exact absurd ⟨mid, addr, port, rfl⟩ hcreate
      | _ => rfl
    have hopened : openedBy s a = none := by
      cases a with
      | create mid addr port => exact absurd ⟨mid, addr, port, rfl⟩ hcreate
      | _ => rfl
    rw [hopened, Option.toList_none, List.append_nil] at hlist
    cases hclosed : closedBy null s a with
    | none =>
      rw [hcall, hclosed]
      refine ⟨q, rfl, ?_⟩
      unfold PooledAs
      rw [hlist, hclosed]
      exact h
    | some t =>
      refine hone (.release (transactionBlock m t)) none (by rw [hcall, hclosed]; rfl) ?_
      rw [apply_release hm, hlist, hclosed]
      rfl

/-- Every run of the transactions is one of the pool: opening a transaction allocates its block and puts it into the
list, closing one takes it out and frees it, and then the blocks in use and the list of them are those of the model. -/
theorem transactions_pooled (hm : m.Fits) (hnum : m.num.toNat = coapMaxOpenTransactions)
    (hother : ∀ p ∈ m.blocks, Elsewhere elems list p) (μ : Nat → U8) {l : Lists κ Nat}
    (hl : Represents l (Function.update elems list [])) {block : TransactionId → CoapTransaction} {as : List CoapAct}
    (r : Runs (coapStep null) Free (coapStart block) as s) :
    ∃ q, callAll (PoolCall.run m.num.toNat list) ((membInit m μ).1, l)
        ((poolCalls m null (coapStart block) as).map Prod.fst) =
          some ((poolCalls m null (coapStart block) as).map Prod.snd, q) ∧
      PooledAs m list elems q s := by
  refine r.observed (I := fun t (calls : List (PoolCall × Option Nat)) => ∃ q,
    callAll (PoolCall.run m.num.toNat list) ((membInit m μ).1, l) (calls.map Prod.fst) =
      some (calls.map Prod.snd, q) ∧ PooledAs m list elems q t) ?_ ?_
  · exact ⟨_, rfl, ⟨_, rfl, inUse_init m μ⟩, hl⟩
  · rintro t calls a u ⟨q, hrun, hq⟩ - hs
    obtain ⟨q', hrun', hq'⟩ := step_pooled hm hnum hother hq hs
    refine ⟨q', ?_, hq'⟩
    rw [List.map_append, callAll_append, hrun, Option.bind_some, hrun', List.map_append]
    rfl

end

def fourBlocks : Memb where
  size := 10
  num := 4
  count := fun _ => 0
  mem := 1000

theorem fourBlocks_fits : fourBlocks.Fits := ⟨by decide, by decide⟩

/-- Two transactions are opened, and the first is closed; its block is taken again. Then the second is sent, which is
not confirmable, and the third, which is, until it has been sent often enough. -/
def pooledActs : List CoapAct :=
  [.create 1 0 5683, .create 2 0 5683, .clear 0, .create 3 0 5683, .write 1 1 fun _ => 0x50, .send 1 0,
    .write 0 1 fun _ => 0x40, .send 0 0] ++ (List.replicate 4 [.expire 0, .callback 0 0, .finish]).flatten ++
    [.create 4 0 5683]

theorem transactions_pooled_fourBlocks : ∃ s q,
    Runs (coapStep .notUsed) Free (coapStart clearedBlocks) pooledActs s ∧
    callAll (PoolCall.run 4 (0 : Fin 2)) ((membInit fourBlocks fun _ => 0).1, ⟨fun _ => none, fun _ => none⟩)
        [.acquire, .acquire, .release 1000, .acquire, .release 1010, .release 1000, .acquire] =
      some ([some 1000, some 1010, none, some 1000, none, none, some 1000], q) ∧
    Pooled fourBlocks 0 (fun _ => []) q [1000] := by
  have hstart : Represents (⟨fun _ => none, fun _ => none⟩ : Lists (Fin 2) Nat)
      (Function.update (fun _ => []) 0 []) := by
    rw [Function.update_eq_self]
    exact represents_start _
  have hrun : (exec (coapStep .notUsed) (coapStart clearedBlocks) pooledActs).map (·.list) = some [0] := by
    decide +kernel
  have hcalls : poolCalls fourBlocks .notUsed (coapStart clearedBlocks) pooledActs =
      [(.acquire, some 1000), (.acquire, some 1010), (.release 1000, none), (.acquire, some 1000),
        (.release 1010, none), (.release 1000, none), (.acquire, some 1000)] := by
    decide +kernel
  obtain ⟨s, hs, hlist⟩ := Option.map_eq_some_iff.mp hrun
  have hruns := Runs.of_exec hs
  obtain ⟨q, hall, hq⟩ := transactions_pooled fourBlocks_fits rfl (fun _ _ _ _ => List.not_mem_nil)
    (fun _ => 0) hstart hruns
  rw [hcalls] at hall
  unfold PooledAs at hq
  rw [hlist] at hq
  exact ⟨s, q, hruns, hall, hq⟩

end Unet4Cooja
