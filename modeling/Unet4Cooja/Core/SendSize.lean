import Unet4Cooja.Core.NextHop
import Unet4Cooja.Core.Sockets

/-!
# The size of an own packet (`unet_send`)

* `acquireLoop`, `unetPacketUpSendto`, `unetPacketDownSend`, `unetSend` : a whole call of `unet_send`;
* `Routable` : the routing decision of the call succeeds;
* `Fits` : the call stays inside the array and passes on a size the radio takes;
* `sendFits_iff` : what lengths and destinations fit;
* `sendFits_fails` : 93 bytes to the PAN coordinator.
-/

namespace Unet4Cooja
open Lib

def maxTranspTime : U16 := 1000

def retLimit (retTime : U16) : Nat :=
  let retTime := if retTime = 0 then 10 else retTime
  let retTime := if maxTranspTime < retTime then maxTranspTime else retTime
  (maxTranspTime / retTime).toNat

/-- `packet_acquire_up` and `packet_acquire_down`: the buffer is not given away twice. -/
def packetAcquire (p : Packet) : Option Packet :=
  if p.state = .idle then some { p with state := .startRoute } else none

/-- The loop of `unet_send`, which finds `buffer k` at its try `k`. There is no result where it
returns -1. -/
def acquireLoop (buffer : Nat → Packet) (retLimit retCnt : Nat) : Option Packet :=
  match packetAcquire (buffer retCnt) with
  | some p => some p
  | none =>
    if retCnt + 1 < retLimit then acquireLoop buffer retLimit (retCnt + 1) else none
termination_by retLimit - retCnt

def unetPacketUpSendto (n : Node) (p : Packet) (dest : Addr64) (payloadLen : U8) :
    RouteResult × Node × Packet :=
  unetRouterUp n (unetPacketUpHeader n p dest payloadLen)

/-- `unet_packet_down_send`. The result is `none` where `unet_router_down` never returns. -/
def unetPacketDownSend (n : Node) (p : Packet) (payloadLen : U8) :
    Option RouteResult × Node × Packet :=
  if routeToBasestationLost ≤ n.distance then (some .destinationUnreachable, n, p)
  else
    match unetRouterDown n (unetPacketDownHeader n p payloadLen) with
    | (none, n, p) => (none, n, p)
    | (some false, n, p) => (some .destinationUnreachable, n, p)
    | (some true, n, p) => (some .packetSendOk, n, p)

def packetRelease (p : Packet) : Packet := { p with state := .idle }

/-- The end of both routes in `unet_send`: a packet that is not sent is given up. -/
def releaseUnsent : Option RouteResult × Node × Packet → Option RouteResult × Node × Packet
  | (none, n, p) => (none, n, p)
  | (some .packetSendOk, n, p) => (some .packetSendOk, n, p)
  | (some res, n, p) => (some res, n, packetRelease p)

/-- `unet_send` once it has the buffer `p`. -/
def sendAcquired (upRoute : Bool) (n : Node) (p : Packet) (d : SendRequest) :
    Option RouteResult × Node × Packet :=
  let p := d.fill p
  if upRoute then
    let (res, n, p) := unetPacketUpSendto n p d.destAddress d.payloadLen
    releaseUnsent (some res, n, p)
  else releaseUnsent (unetPacketDownSend n p d.payloadLen)

/-- What a call meets: the PAN address at its start, the buffer of its route at every try to acquire it,
and the node once it has the buffer. -/
structure SendScene where
  panId64 : Addr64
  buffer : Nat → Packet
  node : Node

/-- What a call does: it gives up with -1, or it writes to the buffer it has acquired. -/
inductive SendOutcome
  | denied
  | wrote (acquired : Packet) (res : Option RouteResult) (node : Node) (left : Packet)

def SendScene.upRoute (c : SendScene) (d : SendRequest) : Bool := c.panId64 ≠ d.destAddress

def unetSend (c : SendScene) (retTime : U16) (d : SendRequest) : SendOutcome :=
  match acquireLoop c.buffer (retLimit retTime) 0 with
  | none => .denied
  | some p =>
    let (res, n, left) := sendAcquired (c.upRoute d) c.node p d
    .wrote p res n left

/-- A call gives up without the buffer, or it writes only inside `packet[MAX_PACKET_SIZE]`; a size it
passes on is that of the frame, and `cc2520_write` accepts it. -/
def Fits (length : U8) : SendOutcome → Prop
  | .denied => True
  | .wrote acquired res _ left =>
    (∀ k, maxPacketSize ≤ k → left.packet k = acquired.packet k) ∧
      (res = some .packetSendOk →
        left.info.size.toNat = 33 + length.toNat ∧ left.info.size.toNat ≤ 125)

/-- Whatever bytes the caller sends. -/
def SendFits (c : SendScene) (retTime : U16) (d : SendRequest) : Prop :=
  ∀ bytes, Fits d.length (unetSend c retTime { d with buffer := bytes })

/-- The routing decision of the call succeeds: there is a parent, or an entry for the destination. -/
def SendScene.Routable (c : SendScene) (d : SendRequest) : Prop :=
  if c.upRoute d then ∃ e, unetRouterUpTableEntryFind c.node.rtableUp d.destAddress = some e
  else c.node.distance < routeToBasestationLost ∧ c.node.parentIndex.toNat < neighbourhoodSize

/-- Another task has the buffer at every try. -/
def SendScene.Refused (c : SendScene) (retTime : U16) : Prop :=
  ∀ k < retLimit retTime, (c.buffer k).state ≠ .idle

/-! ## The buffer -/

theorem retLimit_pos (retTime : U16) : 0 < retLimit retTime := by
  unfold retLimit
  dsimp only
  rw [BitVec.toNat_udiv]
  by_cases h0 : retTime = 0
  · rw [if_pos h0]
    decide
  · rw [if_neg h0]
    by_cases hmax : maxTranspTime < retTime
    · rw [if_pos hmax]
      decide
    · rw [if_neg hmax]
      apply Nat.div_pos (BitVec.not_lt.mp hmax)
      exact Nat.pos_of_ne_zero fun h => h0 (BitVec.eq_of_toNat_eq h)

theorem packetAcquire_eq_none {p : Packet} : packetAcquire p = none ↔ p.state ≠ .idle := by
  unfold packetAcquire
  split <;> simp_all

theorem acquireLoop_eq_none {buffer : Nat → Packet} {limit c : Nat} (hc : c < limit) :
    acquireLoop buffer limit c = none ↔ ∀ k, c ≤ k → k < limit → (buffer k).state ≠ .idle := by
  induction hm : limit - c generalizing c with
  | zero => omega
  | succ m ih =>
    rw [acquireLoop]
    cases ha : packetAcquire (buffer c) with
    | some p =>
      refine ⟨nofun, fun h => ?_⟩
      rw [packetAcquire_eq_none.mpr (h c (Nat.le_refl c) hc)] at ha
      cases ha
    | none =>
      dsimp only
      have hfirst := packetAcquire_eq_none.mp ha
      by_cases hlast : c + 1 < limit
      · rw [if_pos hlast, ih hlast (by omega)]
        constructor
        · intro h k hk hlim
          rcases Nat.eq_or_lt_of_le hk with rfl | hlt
          · exact hfirst
          · exact h k hlt hlim
        · exact fun h k hk hlim => h k (Nat.le_of_succ_le hk) hlim
      · rw [if_neg hlast]
        refine ⟨fun _ k hk hlim => ?_, fun _ => rfl⟩
        obtain rfl : k = c := by omega
        exact hfirst

theorem acquireLoop_refused {c : SendScene} {retTime : U16} :
    acquireLoop c.buffer (retLimit retTime) 0 = none ↔ c.Refused retTime := by
  rw [acquireLoop_eq_none (retLimit_pos retTime)]
  exact ⟨fun h k hk => h k (Nat.zero_le k) hk, fun h k _ hk => h k hk⟩

/-! ## The headers -/

/-- The value of `PKTINFO_SIZE`, modulo 256. -/
def SendRequest.size (d : SendRequest) : U8 :=
  d.payloadLen + unetNwkHeaderSize + unetLlcHeaderSize + unetMacHeaderSize

section
variable {n n' : Node} {p q : Packet} {d : SendRequest} {dest : Addr64}

theorem SendRequest.size_toNat (d : SendRequest) : d.size.toNat = (33 + d.length.toNat) % 256 := by
  unfold SendRequest.size SendRequest.payloadLen unetNwkHeaderSize unetLlcHeaderSize unetMacHeaderSize
  bv_omega

theorem setAddr64_addr64At (p : Packet) (k : Nat) (a : Addr64) : (p.setAddr64 k a).addr64At k = a := by
  funext i
  simp [Packet.setAddr64, Packet.addr64At]

theorem unetPacketUpHeader_dest (n : Node) (p : Packet) (dest : Addr64) (len : U8) :
    (unetPacketUpHeader n p dest len).addr64At unetDest64 = dest := by
  funext i
  have hi : (unetPacketUpHeader n p dest len).packet (unetDest64 + i) =
      (((p.setAddr64 unetDest64 dest).setByte llcProto unetLlcProtoNumber).packet
        (unetDest64 + i)) := by
    simp [unetPacketUpHeader, Packet.setSize, unetHeaderSet, Packet.setByte_packet, Packet.setAddr64]
  unfold Packet.addr64At
  rw [hi, Packet.setByte_of_ne _ _ (by simp only [llcProto, unetDest64]; omega)]
  exact congrFun (setAddr64_addr64At p unetDest64 dest) i

theorem unetHeaderSet_hopLimit (p : Packet) (type hop next : U8) (src dst : Addr64) (len : U8) :
    (unetHeaderSet p type hop next src dst len).packet unetHopLimit = hop := by
  have h64 : unetHopLimit < unetDest64 := by decide
  have h64' : unetHopLimit < unetSrc64 := by decide
  simp [unetHeaderSet, h64, h64']

theorem unetPacketUpHeader_hopLimit (n : Node) (p : Packet) (dest : Addr64) (len : U8) :
    (unetPacketUpHeader n p dest len).packet unetHopLimit = 0xFF :=
  unetHeaderSet_hopLimit p unicastUp 0xFF nextHeaderUnetApp n.addr64 dest len

theorem unetPacketDownHeader_hopLimit (n : Node) (p : Packet) (len : U8) :
    (unetPacketDownHeader n p len).packet unetHopLimit = 0xFF :=
  unetHeaderSet_hopLimit p unicastDown 0xFF nextHeaderUnetApp n.addr64 n.panId64 len

theorem unetPacketUpHeader_payload (n : Node) (p : Packet) (dest : Addr64) (len : U8) :
    SamePayload p (unetPacketUpHeader n p dest len) := unetHeaderSet_payload p _ _ _ _ _ _

theorem unetPacketDownHeader_payload (n : Node) (p : Packet) (len : U8) :
    SamePayload p (unetPacketDownHeader n p len) := unetHeaderSet_payload p _ _ _ _ _ _

/-! ## The two routes -/

theorem unetRouterUp_size (n : Node) (p : Packet) : (unetRouterUp n p).2.2.info.size = p.info.size := by
  unfold unetRouterUp
  split
  · rfl
  · split <;> rfl

theorem unetRouterUp_ok : (unetRouterUp n p).1 = .packetSendOk ↔
    (∃ e, unetRouterUpTableEntryFind n.rtableUp (p.addr64At unetDest64) = some e) ∧
      p.packet unetHopLimit ≠ 0 := by
  unfold unetRouterUp
  cases hf : unetRouterUpTableEntryFind n.rtableUp (p.addr64At unetDest64) with
  | none => simp
  | some e =>
    dsimp only
    by_cases hhop : p.packet unetHopLimit = 0
    · rw [if_pos hhop]
      exact ⟨nofun, fun h => absurd hhop h.2⟩
    · rw [if_neg hhop]
      exact ⟨fun _ => ⟨⟨e, rfl⟩, hhop⟩, fun _ => rfl⟩

/-- Whether the packet is sent or not, the headers it gets here end before the payload. -/
theorem unetRouterDown_kept (n : Node) (p : Packet) :
    SamePayload p (unetRouterDown n p).2.2 ∧ (unetRouterDown n p).2.2.info.size = p.info.size := by
  by_cases hhop : p.packet unetHopLimit = 0
  · rw [unetRouterDown_used hhop]
    exact ⟨SamePayload.refl p, rfl⟩
  · have hdec := decHopLimit_payload p
    by_cases hpar : n.parentIndex = noParent
    · rw [unetRouterDown_noParent hhop hpar]
      exact ⟨hdec, rfl⟩
    · rw [unetRouterDown_parent hhop hpar]
      split
      · exact ⟨hdec.trans (setNextHop_payload _ (downTaken n p) _), rfl⟩
      · exact ⟨hdec, rfl⟩

theorem unetRouterDown_ok (hhop : p.packet unetHopLimit ≠ 0) :
    (unetRouterDown n p).1 = some true ↔ n.parentIndex.toNat < neighbourhoodSize := by
  by_cases hpar : n.parentIndex = noParent
  · rw [unetRouterDown_noParent hhop hpar, hpar]
    exact ⟨nofun, fun h => absurd h (by decide)⟩
  · rw [unetRouterDown_parent hhop hpar]
    split <;> simp [*]

structure RouteEnd (d : SendRequest) (p : Packet) (routable : Prop)
    (x : Option RouteResult × Node × Packet) : Prop where
  payload : SamePayload (d.fill p) x.2.2
  ok : x.1 = some .packetSendOk ↔ routable
  size : x.1 = some .packetSendOk → x.2.2.info.size = d.size

theorem RouteEnd.release {routable : Prop} {x : Option RouteResult × Node × Packet}
    (h : RouteEnd d p routable x) : RouteEnd d p routable (releaseUnsent x) := by
  obtain ⟨hpay, hok, hsize⟩ := h
  rcases x with ⟨_ | r, n', q⟩
  · exact ⟨hpay, hok, hsize⟩
  · cases r <;> exact ⟨hpay, hok, hsize⟩

theorem unetPacketUpSendto_end (n : Node) (p : Packet) (d : SendRequest) :
    RouteEnd d p (∃ e, unetRouterUpTableEntryFind n.rtableUp d.destAddress = some e)
      (some (unetPacketUpSendto n (d.fill p) d.destAddress d.payloadLen).1,
        (unetPacketUpSendto n (d.fill p) d.destAddress d.payloadLen).2) where
  payload := (unetPacketUpHeader_payload n (d.fill p) d.destAddress d.payloadLen).trans
    (unetRouterUp_payload n _)
  ok := by
    rw [Option.some.injEq, unetPacketUpSendto, unetRouterUp_ok, unetPacketUpHeader_dest,
      unetPacketUpHeader_hopLimit]
    exact and_iff_left (by decide)
  size := fun _ => unetRouterUp_size n _

theorem unetPacketDownSend_end (n : Node) (p : Packet) (d : SendRequest) :
    RouteEnd d p
      (n.distance < routeToBasestationLost ∧ n.parentIndex.toNat < neighbourhoodSize)
      (unetPacketDownSend n (d.fill p) d.payloadLen) := by
  unfold unetPacketDownSend
  by_cases hlost : routeToBasestationLost ≤ n.distance
  · rw [if_pos hlost]
    refine ⟨SamePayload.refl _, ⟨nofun, fun h => ?_⟩, nofun⟩
    exact absurd hlost (BitVec.not_le.mpr h.1)
  · rw [if_neg hlost]
    have hnear : n.distance < routeToBasestationLost := BitVec.not_le.mp hlost
    obtain ⟨hkept, hsize⟩ := unetRouterDown_kept n (unetPacketDownHeader n (d.fill p) d.payloadLen)
    have hpay := (unetPacketDownHeader_payload n (d.fill p) d.payloadLen).trans hkept
    have hok := unetRouterDown_ok (n := n) (p := unetPacketDownHeader n (d.fill p) d.payloadLen)
      (by rw [unetPacketDownHeader_hopLimit]; decide)
    rw [and_iff_right hnear, ← hok]
    rcases hr : unetRouterDown n (unetPacketDownHeader n (d.fill p) d.payloadLen) with ⟨r, n', q⟩
    rw [hr] at hpay hsize
    rcases r with _ | _ | _
    · exact ⟨hpay, by simp, nofun⟩
    · exact ⟨hpay, by simp, nofun⟩
    · exact ⟨hpay, by simp, fun _ => hsize⟩

theorem sendAcquired_end (c : SendScene) (p : Packet) (d : SendRequest) :
    RouteEnd d p (c.Routable d) (sendAcquired (c.upRoute d) c.node p d) := by
  unfold SendScene.Routable sendAcquired
  cases c.upRoute d with
  | true => exact (unetPacketUpSendto_end c.node p d).release
  | false => exact (unetPacketDownSend_end c.node p d).release

/-! ## What fits -/

theorem fill_packet_after (d : SendRequest) (p : Packet) {k : Nat} (hk : maxPacketSize ≤ k) :
    (d.fill p).packet k =
      if k < unetAppHeaderStart + d.length.toNat then d.buffer (k - unetAppHeaderStart)
      else p.packet k := by
  have hne : ∀ j < unetAppHeaderStart, k ≠ j := fun j hj e => by
    simp only [maxPacketSize, unetAppHeaderStart] at hk hj
    omega
  have hstart : unetAppHeaderStart ≤ k := Nat.le_trans (by decide) hk
  unfold SendRequest.fill
  simp only [hstart, true_and]
  rw [Packet.setByte_of_ne _ _ (hne _ (by decide)), Packet.setByte_of_ne _ _ (hne _ (by decide)),
    Packet.setByte_of_ne _ _ (hne _ (by decide))]

/-- The `memcpy` of `unet_send` ends with the array for 93 bytes; from 94 bytes on it overwrites what
follows, unless that happens to hold the same bytes. -/
theorem fill_inside (d : SendRequest) (p : Packet) :
    (∀ bytes k, maxPacketSize ≤ k →
        (SendRequest.fill { d with buffer := bytes } p).packet k = p.packet k) ↔
      d.length.toNat ≤ 93 := by
  constructor
  · intro h
    by_contra hlong
    have hfirst := h (fun i => p.packet (i + unetAppHeaderStart) + 1) maxPacketSize (Nat.le_refl _)
    rw [fill_packet_after _ _ (Nat.le_refl _), if_pos] at hfirst
    · dsimp only at hfirst
      rw [show maxPacketSize - unetAppHeaderStart + unetAppHeaderStart = maxPacketSize from rfl]
        at hfirst
      bv_omega
    · simp only [maxPacketSize, unetAppHeaderStart]
      omega
  · intro hshort bytes k hk
    rw [fill_packet_after _ _ hk, if_neg]
    simp only [maxPacketSize, unetAppHeaderStart] at hk ⊢
    omega

theorem size_fits (d : SendRequest) :
    (d.size.toNat = 33 + d.length.toNat ∧ d.size.toNat ≤ 125) ↔ d.length.toNat ≤ 92 := by
  have hlen := d.length.isLt
  rw [d.size_toNat]
  omega

theorem fits_wrote (c : SendScene) (p : Packet) (d : SendRequest) :
    Fits d.length (.wrote p (sendAcquired (c.upRoute d) c.node p d).1
        (sendAcquired (c.upRoute d) c.node p d).2.1 (sendAcquired (c.upRoute d) c.node p d).2.2) ↔
      (∀ k, maxPacketSize ≤ k → (d.fill p).packet k = p.packet k) ∧
        (c.Routable d → d.length.toNat ≤ 92) := by
  have hend := sendAcquired_end c p d
  unfold Fits
  apply and_congr
  · constructor
    · intro h k hk
      rw [← hend.payload k (Nat.le_trans (by decide) hk)]
      exact h k hk
    · intro h k hk
      rw [hend.payload k (Nat.le_trans (by decide) hk)]
      exact h k hk
  · constructor
    · intro h hr
      have hok := hend.ok.mpr hr
      have hsize := h hok
      rw [hend.size hok] at hsize
      exact (size_fits d).mp hsize
    · intro h hok
      rw [hend.size hok]
      exact (size_fits d).mpr (h (hend.ok.mp hok))

/-- With the buffer `p`, the array bounds the length, and so does the radio where the packet is sent. -/
theorem sendFits_acquired {c : SendScene} {retTime : U16}
    (h : acquireLoop c.buffer (retLimit retTime) 0 = some p) :
    SendFits c retTime d ↔ d.length.toNat ≤ 93 ∧ (c.Routable d → d.length.toNat ≤ 92) := by
  rw [← fill_inside d p]
  unfold SendFits unetSend
  rw [h]
  constructor
  · intro hfits
    exact ⟨fun bytes => ((fits_wrote c p { d with buffer := bytes }).mp (hfits bytes)).1,
      ((fits_wrote c p d).mp (hfits d.buffer)).2⟩
  · intro ⟨hin, hlen⟩ bytes
    exact (fits_wrote c p { d with buffer := bytes }).mpr ⟨hin bytes, hlen⟩

end

/-- `unet_send` respects the frame size for 92 bytes and less; for 93 where the packet is not sent; and
where it never gets the buffer. -/
theorem sendFits_iff (c : SendScene) (retTime : U16) (d : SendRequest) :
    SendFits c retTime d ↔
      c.Refused retTime ∨ d.length.toNat ≤ 92 ∨ (d.length.toNat = 93 ∧ ¬c.Routable d) := by
  rw [← acquireLoop_refused]
  cases hacq : acquireLoop c.buffer (retLimit retTime) 0 with
  | none =>
    refine ⟨fun _ => .inl rfl, fun _ bytes => ?_⟩
    unfold unetSend
    rw [hacq]
    trivial
  | some p =>
    rw [sendFits_acquired hacq, or_iff_right (Option.some_ne_none p)]
    constructor
    · rintro ⟨hlen, hr⟩
      by_cases hroute : c.Routable d
      · exact .inl (hr hroute)
      · rcases Nat.eq_or_lt_of_le hlen with h93 | hlt
        · exact .inr ⟨h93, hroute⟩
        · exact .inl (Nat.le_of_lt_succ hlt)
    · rintro (h92 | ⟨h93, hroute⟩)
      · exact ⟨Nat.le_succ_of_le h92, fun _ => h92⟩
      · exact ⟨Nat.le_of_eq h93, fun hr => absurd hr hroute⟩

/-- The PAN coordinator is one hop away, and `packet_down` is idle. -/
def nearRoot : SendScene where
  panId64 := fun _ => 0xFF
  buffer := fun _ => default
  node := { (default : Node) with distance := 1, parentIndex := 0 }

/-- 93 bytes fill the array, and a frame of 126 bytes is passed on. -/
theorem sendFits_fails :
    ¬∀ (c : SendScene) (retTime : U16) (d : SendRequest), SendFits c retTime d := by
  intro h
  have hfull := h nearRoot 10 ⟨fun _ => 0xFF, 1, 2, 93, fun _ => 0⟩
  have hacq : acquireLoop nearRoot.buffer (retLimit 10) 0 =
      some { (default : Packet) with state := .startRoute } := by
    rw [acquireLoop]
    rfl
  have hroute : nearRoot.Routable ⟨fun _ => 0xFF, 1, 2, 93, fun _ => 0⟩ := by
    unfold SendScene.Routable
    rw [if_neg (by decide)]
    decide
  have hlen := ((sendFits_acquired hacq).mp hfull).2 hroute
  revert hlen
  decide

end Unet4Cooja
