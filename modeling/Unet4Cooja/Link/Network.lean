import Unet4Cooja.Lib.Feasible
import Unet4Cooja.Link.Moves

/-!
# The collection tree of a network

* `Net`, `netStep` : nodes that broadcast link packets, receive any packet that was ever sent, at
  any strength, and check their neighbourhood at any time;
* `ParentOf` : the parent pointers, `Net.view` : the network as a distance vector;
* `NetAct.Feasible` : the parent searches that cannot meet an old depth of the searching node;
* `noCycle_of_runs` : if every search is feasible, the parent pointers never form a cycle.
-/

namespace Unet4Cooja
open Lib

variable {ι : Type}

/-- The nodes, and every link packet sent so far with its sender. -/
structure Net (ι : Type) where
  nodes : ι → Node
  air : List (ι × Packet)

/-- `deliver k x rssi lqi` : node `x` receives the `k`-th packet that was sent. -/
inductive NetAct (ι : Type)
  | transmit (x : ι)
  | deliver (k : Nat) (x : ι) (rssi lqi : U8)
  | verify (x : ι)

/-- A packet with the signal strength and quality the radio notes at reception. -/
def Packet.received (p : Packet) (rssi lqi : U8) : Packet :=
  { p with info := { p.info with rssi := rssi, lqi := lqi } }

section Step
variable [DecidableEq ι] (root : ι)

def deviceType (x : ι) : DeviceType := if x = root then .panCoordinator else .router

def netStep (net : Net ι) : NetAct ι → Option (Net ι)
  | .transmit x =>
    let n := linkPacketCreate (deviceType root x) (net.nodes x)
    some { nodes := Function.update net.nodes x n, air := net.air ++ [(x, n.linkPkt)] }
  | .deliver k x rssi lqi =>
    match net.air[k]? with
    | some (s, p) =>
      if s = x then none
      else
        let n := linkPacketProcess (deviceType root x) (net.nodes x) (p.received rssi lqi)
        some { net with nodes := Function.update net.nodes x n }
    | none => none
  | .verify x =>
    let n := linkVerifyNeighbourhood (deviceType root x) (net.nodes x)
    some { net with nodes := Function.update net.nodes x n }

/-- Every node has an initialised table and no parent, and its own address. -/
structure NetStart (net : Net ι) : Prop where
  air : net.air = []
  node : ∀ x, ∃ n, net.nodes x = linkInit (deviceType root x) n
  addr_injective : Function.Injective fun x => (net.nodes x).addr16
  addr_ne_unused : ∀ x, (net.nodes x).addr16 ≠ unusedAddr

end Step

/-- `NODE_PARENTINDEX` of `i` names the slot of `j`. -/
def ParentOf (net : Net ι) (i j : ι) : Prop :=
  (net.nodes i).parentIndex ≠ noParent ∧ (net.nodes i).parent.addr16b = (net.nodes j).addr16

/-- The distance `d` of node `j` is stored in some table or carried by some packet. -/
def Known (net : Net ι) (j : ι) (d : Nat) : Prop :=
  (∃ i, ∃ k < neighbourhoodSize, ((net.nodes i).neighbourhood k).addr16b = (net.nodes j).addr16 ∧
    ((net.nodes i).neighbourhood k).neighborDistance.toNat = d) ∨
  ∃ p, (j, p) ∈ net.air ∧ (p.packet unetCtrlMsgDistance).toNat = d

/-- The network as a distance vector; the coordinator needs no parent to be attached. -/
def Net.view (root : ι) (net : Net ι) : View ι where
  up := ParentOf net
  attached i := i = root ∨ (net.nodes i).parentIndex ≠ noParent
  depth i := (net.nodes i).distance.toNat
  known := Known net

/-- The distance `d` of a neighbour is a feasible choice for `x`: the depth `d + 1` is at most every
known distance of `x` and below the depth of every child of `x`. -/
def FeasibleChoice (net : Net ι) (x : ι) (d : U8) : Prop :=
  (∀ e, Known net x e → d.toNat < e) ∧
    ∀ i, ParentOf net i x → d.toNat + 1 < (net.nodes i).distance.toNat

/-- A router that searches for a parent keeps the one it has, or every neighbour it could choose
is a feasible choice. -/
def NetAct.Feasible (root : ι) (net : Net ι) : NetAct ι → Prop
  | .transmit _ => True
  | .deliver k x rssi lqi => ∀ s p, net.air[k]? = some (s, p) → x ≠ root →
      (p.packet unetCtrlMsgPacketType = neighborAdv ∨
        p.packet unetCtrlMsgPacketType = neighborAdvReset) →
      (p.packet unetCtrlMsgNbCount).toNat < neighbourhoodSize →
      KeepsParent (net.nodes x) (p.received rssi lqi) ∨
        ∀ a d, OffersAfter (net.nodes x) (p.received rssi lqi) a d → d ≠ 0xFF →
          FeasibleChoice net x d
  | .verify x => x ≠ root →
      HasParent (net.nodes x) ∨
        ∀ a d, Offers (net.nodes x) a d → d ≠ 0xFF → FeasibleChoice net x d

/-! ## The invariant -/

structure NetInv (root : ι) (net : Net ι) : Prop where
  addr_injective : Function.Injective fun x => (net.nodes x).addr16
  addr_ne_unused : ∀ x, (net.nodes x).addr16 ≠ unusedAddr
  sender : ∀ s p, (s, p) ∈ net.air → p.linkAddr16 = (net.nodes s).addr16
  root_noParent : (net.nodes root).parentIndex = noParent
  root_distance : (net.nodes root).distance = 0
  router : ∀ x, x ≠ root → ParentInv False (net.nodes x)
  view : (net.view root).Inv

section Moves
variable [DecidableEq ι] {root : ι} {net : Net ι} {x : ι} {n' : Node} {air : List (ι × Packet)}

/-- The network after node `x` became `n'` and the packets sent became `air`. -/
def Net.set (net : Net ι) (x : ι) (n' : Node) (air : List (ι × Packet)) : Net ι :=
  { nodes := Function.update net.nodes x n', air := air }

@[simp] theorem Net.set_self : (net.set x n' air).nodes x = n' := Function.update_self ..

theorem Net.set_of_ne {i : ι} (h : i ≠ x) : (net.set x n' air).nodes i = net.nodes i :=
  Function.update_of_ne h ..

theorem Net.set_addr16 (ha : n'.addr16 = (net.nodes x).addr16) (i : ι) :
    ((net.set x n' air).nodes i).addr16 = (net.nodes i).addr16 := by
  by_cases hi : i = x
  · rw [hi, Net.set_self, ha]
  · rw [Net.set_of_ne hi]

/-- A table of free slots, old entries and entries of packets on the air adds nothing known. -/
theorem known_of_slots (h : NetInv root net) (ha : n'.addr16 = (net.nodes x).addr16)
    (hslots : ∀ k < neighbourhoodSize, (n'.neighbourhood k).addr16b = unusedAddr ∨
      ((n'.neighbourhood k).addr16b = ((net.nodes x).neighbourhood k).addr16b ∧
        (n'.neighbourhood k).neighborDistance =
          ((net.nodes x).neighbourhood k).neighborDistance) ∨
      ∃ s p, (s, p) ∈ net.air ∧ (n'.neighbourhood k).addr16b = p.linkAddr16 ∧
        (n'.neighbourhood k).neighborDistance = p.packet unetCtrlMsgDistance)
    {j : ι} {d : Nat} (hk : Known (net.set x n' air) j d) :
    Known net j d ∨ ∃ p, (j, p) ∈ air ∧ (p.packet unetCtrlMsgDistance).toNat = d := by
  rcases hk with ⟨i, k, hlt, haddr, hd⟩ | hair
  · rw [Net.set_addr16 ha] at haddr
    by_cases hi : i = x
    · subst hi
      rw [Net.set_self] at haddr hd
      rcases hslots k hlt with hu | ⟨hsa, hsd⟩ | ⟨s, p, hmem, hpa, hpd⟩
      · exact absurd (haddr.symm.trans hu) (h.addr_ne_unused j)
      · rw [hsa] at haddr
        rw [hsd] at hd
        exact .inl (.inl ⟨i, k, hlt, haddr, hd⟩)
      · have hs : s = j :=
          h.addr_injective ((h.sender s p hmem).symm.trans (hpa.symm.trans haddr))
        rw [hpd] at hd
        exact .inl (.inr ⟨p, hs ▸ hmem, hd⟩)
    · rw [Net.set_of_ne hi] at haddr hd
      exact .inl (.inl ⟨i, k, hlt, haddr, hd⟩)
  · exact .inr hair

theorem view_step {O : U16 → U8 → Prop} {K : Prop} (ha : n'.addr16 = (net.nodes x).addr16)
    (hroot : x = root → n'.distance = (net.nodes x).distance)
    (hknown : ∀ j d, Known (net.set x n' air) j d →
      Known net j d ∨ (j = x ∧ d = n'.distance.toNat))
    (hmove : Moved O K (net.nodes x) n')
    (hoffer : ∀ j d, O (net.nodes j).addr16 d → Known net j d.toNat)
    (hfeas : K ∨ ∀ a d, O a d → d ≠ 0xFF → FeasibleChoice net x d) :
    View.Step x (net.view root) ((net.set x n' air).view root) := by
  have hup : ∀ i j, i ≠ x → ParentOf (net.set x n' air) i j → ParentOf net i j := by
    intro i j hi hp
    rw [ParentOf, Net.set_of_ne hi, Net.set_addr16 ha] at hp
    exact hp
  have hself : ∀ j, ParentOf (net.set x n' air) x j →
      n'.parentIndex ≠ noParent ∧ n'.parent.addr16b = (net.nodes j).addr16 := by
    intro j hp
    rwa [ParentOf, Net.set_self, Net.set_addr16 ha] at hp
  have hdepth : ((net.set x n' air).view root).depth x = n'.distance.toNat :=
    congrArg (fun n : Node => n.distance.toNat) Net.set_self
  have hatt : ((net.set x n' air).view root).attached x ↔ x = root ∨ n'.parentIndex ≠ noParent := by
    show (x = root ∨ ((net.set x n' air).nodes x).parentIndex ≠ noParent) ↔ _
    rw [Net.set_self]
  refine ⟨hup, fun i hi => ?_, fun i hi => ?_, fun j d hk => ?_, fun hatt' => ?_,
    fun j hj => hatt.mpr (.inr (hself j hj).1), fun j hj => ?_⟩
  · show (i = root ∨ ((net.set x n' air).nodes i).parentIndex ≠ noParent) ↔ _
    rw [Net.set_of_ne hi]
    rfl
  · exact congrArg (fun n : Node => n.distance.toNat) (Net.set_of_ne hi)
  · rw [hdepth]
    exact hknown j d hk
  · rw [hdepth]
    rcases hatt.mp hatt' with hx | hne
    · exact .inl ⟨.inl hx, (congrArg BitVec.toNat (hroot hx)).le⟩
    · cases hmove with
      | kept hi hd _ => exact .inl ⟨.inr (hi ▸ hne), (congrArg BitVec.toNat hd).le⟩
      | lost hi => exact absurd hi hne
      | chose d _ hd ho hk =>
        rcases hfeas with hK | hf
        · exact .inl ⟨.inr (hk hK).1, (hk hK).2⟩
        · -- `d + 1` fits a byte
          have hlt := n'.distance.isLt
          have hdff : d ≠ 0xFF := by
            rintro rfl
            rw [hd] at hlt
            exact absurd hlt (by decide)
          obtain ⟨h1, h2⟩ := hf _ d ho hdff
          rw [hd]
          exact .inr ⟨fun e he => h1 e he, fun i hi => h2 i hi⟩
  · obtain ⟨hne, haddr⟩ := hself j hj
    rw [hdepth]
    cases hmove with
    | kept hi hd hp =>
      have hne' : (net.nodes x).parentIndex ≠ noParent := hi ▸ hne
      exact .inl ⟨⟨hne', (hp hne').symm.trans haddr⟩, congrArg BitVec.toNat hd⟩
    | lost hi => exact absurd hi hne
    | chose d _ hd ho _ =>
      rw [haddr] at ho
      exact .inr ⟨d.toNat, hoffer j d ho, by omega⟩

theorem netInv_set (h : NetInv root net) (ha : n'.addr16 = (net.nodes x).addr16)
    (hair : ∀ s p, (s, p) ∈ air → (s, p) ∈ net.air ∨ (s = x ∧ p.linkAddr16 = n'.addr16))
    (hroot : x = root → n'.parentIndex = noParent ∧ n'.distance = 0)
    (hrouter : x ≠ root → ParentInv False n')
    (hview : View.Step x (net.view root) ((net.set x n' air).view root)) :
    NetInv root (net.set x n' air) := by
  refine ⟨fun i j hij => ?_, fun i => ?_, fun s p hs => ?_, ?_, ?_, fun i hi => ?_,
    h.view.step hview⟩
  · simp only [Net.set_addr16 ha] at hij
    exact h.addr_injective hij
  · rw [Net.set_addr16 ha]
    exact h.addr_ne_unused i
  · rw [Net.set_addr16 ha]
    rcases hair s p hs with hold | ⟨rfl, hp⟩
    · exact h.sender s p hold
    · exact hp.trans ha
  · by_cases hx : root = x
    · rw [hx, Net.set_self]
      exact (hroot hx.symm).1
    · rw [Net.set_of_ne hx]
      exact h.root_noParent
  · by_cases hx : root = x
    · rw [hx, Net.set_self]
      exact (hroot hx.symm).2
    · rw [Net.set_of_ne hx]
      exact h.root_distance
  · by_cases hix : i = x
    · rw [hix, Net.set_self]
      exact hrouter (hix ▸ hi)
    · rw [Net.set_of_ne hix]
      exact h.router i hi

theorem netInv_transmit (h : NetInv root net) (x : ι) :
    NetInv root (net.set x (linkPacketCreate (deviceType root x) (net.nodes x))
      (net.air ++ [(x, (linkPacketCreate (deviceType root x) (net.nodes x)).linkPkt)])) := by
  have hsame := linkPacketCreate_same (deviceType root x) (net.nodes x)
  obtain ⟨hpa, hpd⟩ := linkPacketCreate_packet (deviceType root x) (net.nodes x)
  have ha : (linkPacketCreate (deviceType root x) (net.nodes x)).addr16 = (net.nodes x).addr16 :=
    rfl
  generalize linkPacketCreate (deviceType root x) (net.nodes x) = n' at hsame hpa hpd ha ⊢
  refine netInv_set h ha (fun s p hs => ?_) (fun hx => ?_)
    (fun hx => (h.router x hx).of_same hsame) ?_
  · rcases List.mem_append.mp hs with hold | hnew
    · exact .inl hold
    · rw [List.mem_singleton] at hnew
      cases hnew
      exact .inr ⟨rfl, hpa.trans ha.symm⟩
  · subst hx
    exact ⟨hsame.parentIndex.trans h.root_noParent, hsame.distance.trans h.root_distance⟩
  · refine view_step (O := fun _ _ => False) (K := True) ha (fun _ => hsame.distance)
      (fun j d hk => ?_) (.kept hsame.parentIndex hsame.distance fun _ => ?_)
      (fun _ _ hf => hf.elim) (.inl trivial)
    · rcases known_of_slots h ha (fun k _ => .inr (.inl ⟨hsame.addr k, hsame.slotDistance k⟩)) hk
        with hold | ⟨p, hp, hd⟩
      · exact .inl hold
      · rcases List.mem_append.mp hp with hold | hnew
        · exact .inl (.inr ⟨p, hold, hd⟩)
        · rw [List.mem_singleton] at hnew
          cases hnew
          rw [hpd] at hd
          exact .inr ⟨rfl, by rw [hsame.distance, hd]⟩
    · rw [Node.parent, hsame.parentIndex]
      exact hsame.addr _

theorem deviceType_of_ne (hx : x ≠ root) : deviceType root x = .router := if_neg hx

theorem deviceType_root : deviceType root root = .panCoordinator := if_pos rfl

/-- A step that sends nothing, with the node's own facts about its move. -/
theorem netInv_move {O : U16 → U8 → Prop} {K : Prop} (h : NetInv root net)
    (ha : n'.addr16 = (net.nodes x).addr16)
    (hslots : ∀ k < neighbourhoodSize, (n'.neighbourhood k).addr16b = unusedAddr ∨
      ((n'.neighbourhood k).addr16b = ((net.nodes x).neighbourhood k).addr16b ∧
        (n'.neighbourhood k).neighborDistance =
          ((net.nodes x).neighbourhood k).neighborDistance) ∨
      ∃ s p, (s, p) ∈ net.air ∧ (n'.neighbourhood k).addr16b = p.linkAddr16 ∧
        (n'.neighbourhood k).neighborDistance = p.packet unetCtrlMsgDistance)
    (hroot : x = root → n'.parentIndex = noParent ∧ n'.distance = 0)
    (hrouter : x ≠ root → ParentInv False n' ∧ Moved O K (net.nodes x) n' ∧
      (∀ j d, O (net.nodes j).addr16 d → Known net j d.toNat) ∧
      (K ∨ ∀ a d, O a d → d ≠ 0xFF → FeasibleChoice net x d)) :
    NetInv root (net.set x n' net.air) := by
  have hknown : ∀ j d, Known (net.set x n' net.air) j d →
      Known net j d ∨ (j = x ∧ d = n'.distance.toNat) := by
    intro j d hk
    rcases known_of_slots h ha hslots hk with hold | ⟨p, hp, hd⟩
    · exact .inl hold
    · exact .inl (.inr ⟨p, hp, hd⟩)
  refine netInv_set h ha (fun s p hs => .inl hs) hroot (fun hx => (hrouter hx).1) ?_
  by_cases hx : x = root
  · obtain ⟨hi, hd⟩ := hroot hx
    have hi' : n'.parentIndex = (net.nodes x).parentIndex := by
      rw [hi, hx, h.root_noParent]
    have hd' : n'.distance = (net.nodes x).distance := by
      rw [hd, hx, h.root_distance]
    refine view_step (O := fun _ _ => False) (K := True) ha (fun _ => hd') hknown
      (.kept hi' hd' fun hne => ?_) (fun _ _ hf => hf.elim) (.inl trivial)
    rw [hx] at hne
    exact absurd h.root_noParent hne
  · obtain ⟨_, hmove, hoffer, hfeas⟩ := hrouter hx
    exact view_step ha (fun hr => absurd hr hx) hknown hmove hoffer hfeas

theorem netInv_deliver (h : NetInv root net) {k : Nat} {s : ι} {p : Packet} {rssi lqi : U8}
    (hk : net.air[k]? = some (s, p)) (hok : (NetAct.deliver k x rssi lqi).Feasible root net) :
    NetInv root (net.set x
      (linkPacketProcess (deviceType root x) (net.nodes x) (p.received rssi lqi)) net.air) := by
  have hmem : (s, p) ∈ net.air := List.mem_of_getElem? hk
  have hsrc : (p.received rssi lqi).linkAddr16 = (net.nodes s).addr16 := h.sender s p hmem
  refine netInv_move h (linkPacketProcess_addr16 _ _ _) (fun k hk => ?_) (fun hx => ?_)
    fun hx => ⟨?_, deviceType_of_ne hx ▸ linkPacketProcess_moved (h.router x hx), ?_, ?_⟩
  · rcases linkPacketProcess_slots (deviceType root x) (net.nodes x) (p.received rssi lqi) hk
      with hu | hold | hnew
    · exact .inl hu
    · exact .inr (.inl hold)
    · exact .inr (.inr ⟨s, p, hmem, hnew⟩)
  · subst hx
    rw [deviceType_root]
    exact linkPacketProcess_coordinator h.root_noParent h.root_distance
  · rw [deviceType_of_ne hx]
    refine (h.router x hx).linkPacketProcess fun i _ _ => ⟨?_, False.elim⟩
    rw [hsrc]
    exact h.addr_ne_unused s
  · rintro j d ⟨ho, -, -⟩
    rcases ho with ⟨_, _, _, haddr, hd⟩ | ⟨_, i, hi, _, haddr, hd⟩
    · have hj : j = s := h.addr_injective (haddr.trans hsrc)
      exact .inr ⟨p, hj ▸ hmem, by rw [hd]; rfl⟩
    · exact .inl ⟨x, i, hi, haddr, by rw [hd]⟩
  · by_cases hadv : (p.packet unetCtrlMsgPacketType = neighborAdv ∨
        p.packet unetCtrlMsgPacketType = neighborAdvReset) ∧
        (p.packet unetCtrlMsgNbCount).toNat < neighbourhoodSize
    · rcases hok s p hk hx hadv.1 hadv.2 with hkeep | hfeas
      · exact .inl hkeep
      · exact .inr fun a d ho hd => hfeas a d ho.1 hd
    · exact .inr fun a d ho _ => absurd ho.2 hadv

theorem netInv_verify (h : NetInv root net) (hok : (NetAct.verify x).Feasible root net) :
    NetInv root (net.set x
      (linkVerifyNeighbourhood (deviceType root x) (net.nodes x)) net.air) := by
  refine netInv_move h (linkVerifyNeighbourhood_addr16 _ _) (fun k hk => ?_) (fun hx => ?_)
    fun hx => ⟨?_, deviceType_of_ne hx ▸ linkVerifyNeighbourhood_moved (h.router x hx), ?_, hok hx⟩
  · rcases linkVerifyNeighbourhood_slots (deviceType root x) (net.nodes x) hk with he | he
    · rw [he]
      exact .inr (.inl ⟨rfl, rfl⟩)
    · rw [he]
      exact .inl rfl
  · subst hx
    rw [deviceType_root]
    obtain ⟨hi, hd⟩ := linkVerifyNeighbourhood_coordinator (net.nodes x)
    exact ⟨hi.trans h.root_noParent, hd.trans h.root_distance⟩
  · rw [deviceType_of_ne hx]
    exact (h.router x hx).linkVerifyNeighbourhood
  · rintro j d ⟨i, hi, _, haddr, hd⟩
    exact .inl ⟨x, i, hi, haddr, by rw [hd]⟩

theorem netInv_start (h : NetStart root net) : NetInv root net := by
  have hslot : ∀ x k, k < neighbourhoodSize →
      ((net.nodes x).neighbourhood k).addr16b = unusedAddr := by
    intro x k hk
    obtain ⟨n, hn⟩ := h.node x
    rw [hn, linkInit, linkNeighborTableInit_slot _ hk]
    rfl
  have hpar : ∀ x, (net.nodes x).parentIndex = noParent ∧
      (net.nodes x).distance = nodeDistanceInit (deviceType root x) := by
    intro x
    obtain ⟨n, hn⟩ := h.node x
    rw [hn, linkInit, linkNeighborTableInit_eq]
    exact ⟨rfl, rfl⟩
  refine ⟨h.addr_injective, h.addr_ne_unused, ?_, (hpar root).1, ?_, fun x hx => ?_, ?_, ?_, ?_⟩
  · rw [h.air]
    intro s p hs
    cases hs
  · rw [(hpar root).2, deviceType_root]
    rfl
  · obtain ⟨n, hn⟩ := h.node x
    rw [hn, deviceType_of_ne hx]
    exact ParentInv.linkNeighborTableInit rfl rfl
  · exact fun i _ hu => absurd (hpar i).1 hu.1
  · rintro j d - (⟨i, k, hk, haddr, _⟩ | ⟨p, hp, _⟩)
    · exact absurd (haddr.symm.trans (hslot i k hk)) (h.addr_ne_unused j)
    · rw [h.air] at hp
      cases hp
  · exact fun i _ hu _ => absurd (hpar i).1 hu.1

theorem netInv_step {a : NetAct ι} {net' : Net ι} (h : NetInv root net)
    (hok : a.Feasible root net) (hs : netStep root net a = some net') : NetInv root net' := by
  cases a with
  | transmit x =>
    cases hs
    exact netInv_transmit h x
  | deliver k x rssi lqi =>
    simp only [netStep] at hs
    cases hk : net.air[k]? with
    | none =>
      rw [hk] at hs
      cases hs
    | some sp =>
      obtain ⟨s, p⟩ := sp
      rw [hk] at hs
      dsimp only at hs
      split at hs
      · cases hs
      · cases hs
        exact netInv_deliver h hk hok
  | verify x =>
    cases hs
    exact netInv_verify h hok

/-- If every parent search is feasible, the parent pointers never form a cycle. -/
theorem noCycle_of_runs {net₀ : Net ι} {acts : List (NetAct ι)} (h₀ : NetStart root net₀)
    (h : Runs (netStep root) (fun net a => a.Feasible root net) net₀ acts net) (i : ι) :
    ¬ Relation.TransGen (ParentOf net) i i := by
  have hinv : NetInv root net :=
    h.invariant (netInv_start h₀) fun _ _ _ hi hok hs => netInv_step hi hok hs
  exact hinv.view.no_cycle i

end Moves

/-! ## A network of three nodes -/

instance (net : Net (Fin 3)) (i j : Fin 3) : Decidable (ParentOf net i j) := by
  unfold ParentOf; infer_instance

def threeNodes : Net (Fin 3) where
  nodes x := linkInit (deviceType 0 x) { (default : Node) with addr16L := BitVec.ofNat 8 x }
  air := []

theorem threeNodes_start : NetStart 0 threeNodes := by
  refine ⟨rfl, fun x => ⟨_, rfl⟩, ?_, ?_⟩
  · show ∀ i j : Fin 3, (threeNodes.nodes i).addr16 = (threeNodes.nodes j).addr16 → i = j
    decide +kernel
  · decide +kernel

def askActs : List (NetAct (Fin 3)) := [.transmit 1, .deliver 0 0 9 9, .transmit 0]

def answered : Net (Fin 3) := (exec (netStep 0) threeNodes askActs).getD threeNodes

/-- Router 1 takes the answer: it knows nobody else, and nothing below 0xFF is known of it. -/
theorem answered_feasible : (NetAct.deliver 1 1 9 9).Feasible 0 answered := by
  intro s p hk _ _ _
  have hdist : ∀ sp, answered.air[1]? = some sp → sp.2.packet unetCtrlMsgDistance = 0 := by
    rintro sp ⟨⟩
    decide +kernel
  have htables : ∀ i : Fin 3, ∀ k < neighbourhoodSize,
      ((answered.nodes i).neighbourhood k).addr16b = (answered.nodes 1).addr16 →
        0 < ((answered.nodes i).neighbourhood k).neighborDistance.toNat := by decide +kernel
  have hair : ∀ sp ∈ answered.air, sp.1 = 1 → 0 < (sp.2.packet unetCtrlMsgDistance).toNat := by
    decide +kernel
  have hchild : ∀ i, ParentOf answered i 1 → 1 < (answered.nodes i).distance.toNat := by
    decide +kernel
  have hempty : ∀ i < neighbourhoodSize, ((answered.nodes 1).neighbourhood i).symmetric = false := by
    decide +kernel
  refine .inr fun a d ho _ => ?_
  rcases ho with ⟨_, _, _, _, hd⟩ | ⟨_, i, hi, hs, _, _⟩
  · have hd0 : d = 0 := hd.trans (hdist (s, p) hk)
    rw [hd0]
    refine ⟨fun e he => ?_, hchild⟩
    rcases he with ⟨i, k, hk, ha, rfl⟩ | ⟨q, hq, rfl⟩
    · exact htables i k hk ha
    · exact hair (1, q) hq rfl
  · rw [hempty i hi] at hs
    cases hs

theorem noCycle_join :
    ∃ net, netStep 0 answered (.deliver 1 1 9 9) = some net ∧ ParentOf net 1 0 ∧
      ∀ i, ¬ Relation.TransGen (ParentOf net) i i := by
  refine ⟨_, rfl, by decide +kernel, ?_⟩
  have hroot : (NetAct.deliver 0 0 9 9).Feasible 0 (threeNodes.set 1
      (linkPacketCreate .router (threeNodes.nodes 1))
      [(1, (linkPacketCreate .router (threeNodes.nodes 1)).linkPkt)]) :=
    fun _ _ _ hx => absurd rfl hx
  have hask : Runs (netStep 0) (fun net a => a.Feasible 0 net) threeNodes askActs answered :=
    .snoc (.snoc (.snoc .nil trivial rfl) hroot rfl) trivial rfl
  exact noCycle_of_runs threeNodes_start (.snoc hask answered_feasible rfl)

/-- Router 2 joins through router 1, which then hears nothing from the coordinator for two checks
and after that the advertisement of router 2. -/
def loopActs : List (NetAct (Fin 3)) :=
  askActs ++ [.deliver 1 1 9 9, .transmit 2, .deliver 2 1 9 9, .transmit 1, .deliver 3 2 9 9,
    .verify 1, .verify 1, .transmit 2, .deliver 4 1 9 9]

/-- A router that lost its parent takes a former child as its new one. -/
theorem noCycle_fails :
    ¬ ∀ (ι : Type) [DecidableEq ι] (root : ι) (net₀ net : Net ι) (acts : List (NetAct ι)),
      NetStart root net₀ → Runs (netStep root) Free net₀ acts net →
        ∀ i, ¬ Relation.TransGen (ParentOf net) i i := by
  intro h
  refine h (Fin 3) 0 threeNodes _ loopActs threeNodes_start (Runs.of_exec rfl) 1 ?_
  refine .tail (.single (b := 2) ?_) ?_
  · decide +kernel
  · decide +kernel

end Unet4Cooja
