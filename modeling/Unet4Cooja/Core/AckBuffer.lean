import Unet4Cooja.Core.Header

/-!
# The ack of a network packet (`packet_ack_t`, `link_packet_create_ack`)

An ack task copies the beginning of a packet into a `packet_ack_t`, which it uses through a `packet_t *`.

* `Field`, `Field.offset`, `packetAckSize` : where a field of a `packet_t` lies, and how large a `packet_ack_t` is;
* `ackFields` : the fields an ack task uses;
* `AckScene`, `AckScene.RoundTrip` : an ack on its way to the node whose packet waits for it;
* `ackFields_inside_iff`, `ack_header_iff`, `AckScene.Sent.answers` : what is inside, what the header is, and what
  that node does;
* `ackRoundTrip_never` : two bytes of every ack are sent from behind the buffer.
-/

namespace Unet4Cooja

/-! ## The layout -/

/-- `PKTINFO_SIZE`, the first `packet_info_t`. -/
def pktinfoSize : Nat := 0

def pktinfoDest16H : Nat := 3

def pktinfoDest16L : Nat := 4

def pktinfoSeqNum : Nat := 7

def pktinfoMaxOpt : Nat := 12

def maxPacketAckSize : Nat := (unetMacHeaderSize + unetLlcHeaderSize + unetNwkHeaderSize).toNat

/-- `sizeof(packet_ack_t)`. -/
def packetAckSize : Nat := pktinfoMaxOpt + maxPacketAckSize

/-- What is used through a `packet_t *`. -/
inductive Field
  | info (opt : Nat)
  | packet (k : Nat)
  | state
  deriving DecidableEq, Repr

/-- The offset of a field in `packet_t`. -/
def Field.offset : Field → Nat
  | .info opt => opt
  | .packet k => pktinfoMaxOpt + k
  | .state => pktinfoMaxOpt + maxPacketSize

/-- The fields `ieee802154_header_set` reads and writes. -/
def headerSetFields : List Field :=
  [.packet macFrameCtrl, .packet (macFrameCtrl + 1), .info pktinfoSeqNum, .packet macSeqNum, .packet macPanid16,
   .packet (macPanid16 + 1), .info pktinfoDest16L, .packet macDest16, .info pktinfoDest16H, .packet (macDest16 + 1),
   .packet macSrc16, .packet (macSrc16 + 1), .packet macHeaderSize, .info pktinfoSize, .packet phyPktSize]

/-- The fields `link_packet_create_ack` reads and writes. -/
def createAckFields : List Field :=
  [.packet (macSrc16 + 1), .info pktinfoDest16H, .packet macSrc16, .info pktinfoDest16L, .packet macSeqNum,
   .info pktinfoSeqNum, .packet unetPktType, .info pktinfoSize] ++ headerSetFields

/-- The fields that `UNET_Router_Down_Ack_Task` uses through `ack` if `down`, and else
`UNET_Router_Up_Ack_Task`, with those of the functions they hand it to. -/
def ackFields (down : Bool) : List Field :=
  (if down then [.state] else []) ++ createAckFields ++
    [.packet macFrameCtrl, .info pktinfoSize, .info pktinfoDest16H, .info pktinfoDest16L, .info pktinfoSeqNum]

/-! ## The scene -/

/-- An ack task at work: which of the two, the node, the packet it acknowledges, what is in the ack buffer and
behind it, and the packet of the sender, which waits for the ack. -/
structure AckScene where
  down : Bool
  receiver : Node
  received : Packet
  buffer : Packet
  waiting : Packet

namespace AckScene

/-- The ack buffer when the ack is handed to the radio, with the memory behind it. -/
def ack (c : AckScene) : Packet := linkPacketCreateAck c.receiver (copyAck c.buffer c.received)

/-- The radio sends bytes of the buffer. -/
def SentFromInside (c : AckScene) : Prop :=
  ∀ k, macFrameCtrl ≤ k → k < macFrameCtrl + c.ack.info.size.toNat → (Field.packet k).offset < packetAckSize

/-- The task uses fields of the buffer. -/
def UsedInside (c : AckScene) : Prop := ∀ f ∈ ackFields c.down, f.offset < packetAckSize

/-- The network header is that of the packet, but for the bit `ACK_REQ`. -/
def SameHeader (c : AckScene) : Prop :=
  ∀ k, unetPktType ≤ k → k < unetHeaderEnd →
    c.ack.packet k = if k = unetPktType then c.received.packet k &&& ~~~ackReqMask else c.received.packet k

/-- Type, sequence number and source of the ack, as a node that receives it reads them, are those that the
waiting packet expects. -/
def Matches (c : AckScene) : Prop :=
  ∀ (x : Node) (rx : Packet), (∀ k, macFrameCtrl ≤ k → k < unetHeaderEnd → rx.packet k = c.ack.packet k) →
    (rx.macInput x).packet unetPktType = (if c.down then unicastAckDown else unicastAckUp) ∧
      (rx.macInput x).info.seqNum = c.waiting.info.seqNum ∧ (rx.macInput x).sourceAddr16 = c.waiting.destAddr16

def RoundTrip (c : AckScene) : Prop := c.SentFromInside ∧ c.UsedInside ∧ c.SameHeader ∧ c.Matches

/-- The packet was sent to the node that acknowledges it. -/
structure Sent (c : AckScene) : Prop where
  type : c.waiting.packet unetPktType = if c.down then unicastDown else unicastUp
  header : ∃ panid16 src16, c.waiting.HoldsMac ⟨true, c.waiting.info.seqNum, panid16, c.waiting.destAddr16, src16⟩
  addressed : c.waiting.destAddr16 = c.receiver.addr16
  received : ∀ k, macFrameCtrl ≤ k → k < unetHeaderEnd → c.received.packet k = c.waiting.packet k

end AckScene

/-! ## What is inside -/

theorem ack_size (c : AckScene) : c.ack.info.size = 30 := rfl

theorem ackFields_inside_iff (c : AckScene) : c.UsedInside ↔ c.down = false := by
  unfold AckScene.UsedInside
  cases c.down with
  | true => exact ⟨fun h => absurd (h .state (List.mem_cons_self)) (by decide), nofun⟩
  | false => exact ⟨fun _ => rfl, fun _ => by decide⟩

theorem not_sentFromInside (c : AckScene) : ¬ c.SentFromInside := by
  intro h
  have hlast := h 31 (by decide) (by rw [ack_size]; decide)
  exact absurd hlast (by decide)

/-! ## What the ack says -/

theorem linkPacketCreateAck_packet (n : Node) (p : Packet) {k : Nat} (hk : llcProto ≤ k) :
    (linkPacketCreateAck n p).packet k =
      if k = unetPktType then p.packet unetPktType &&& ~~~ackReqMask else p.packet k := by
  have hbyte := p.setByte_packet unetPktType k (p.packet unetPktType &&& ~~~ackReqMask)
  unfold linkPacketCreateAck
  dsimp only
  rw [ieee802154HeaderSet_packet _ _ _ _ hk]
  exact hbyte

theorem ack_packet (c : AckScene) {k : Nat} (hk : unetPktType ≤ k) :
    c.ack.packet k =
      if k = unetPktType then c.received.packet k &&& ~~~ackReqMask
      else if k < 30 then c.received.packet k else c.buffer.packet k := by
  unfold AckScene.ack
  rw [linkPacketCreateAck_packet _ _ (Nat.le_trans (by decide) hk)]
  by_cases h : k = unetPktType
  · rw [if_pos h, if_pos h, h]
    rfl
  · rw [if_neg h, if_neg h]
    rfl

/-- The header is right if the memory behind the buffer happens to hold the last two bytes of the destination. -/
theorem ack_header_iff (c : AckScene) :
    c.SameHeader ↔ c.buffer.packet 30 = c.received.packet 30 ∧ c.buffer.packet 31 = c.received.packet 31 := by
  constructor
  · intro h
    have h30 := h 30 (by decide) (by decide)
    have h31 := h 31 (by decide) (by decide)
    rw [ack_packet c (by decide)] at h30 h31
    exact ⟨h30, h31⟩
  · rintro ⟨h30, h31⟩ k hk hlt
    rw [ack_packet c hk]
    by_cases htype : k = unetPktType
    · rw [if_pos htype, if_pos htype]
    · rw [if_neg htype, if_neg htype]
      by_cases hcopy : k < 30
      · rw [if_pos hcopy]
      · rw [if_neg hcopy]
        have hlast : k = 30 ∨ k = 31 := by
          simp only [unetHeaderEnd] at hlt
          omega
        rcases hlast with rfl | rfl
        · exact h30
        · exact h31

theorem ack_holds (c : AckScene) :
    c.ack.HoldsMac ⟨true, c.received.packet macSeqNum, c.receiver.panid16,
      bytesToShort (c.received.packet (macSrc16 + 1)) (c.received.packet macSrc16), c.receiver.addr16⟩ :=
  ieee802154HeaderSet_holds c.receiver _ true

namespace AckScene.Sent
variable {c : AckScene}

/-- The ack carries the type, the sequence number and the source that the waiting packet expects. -/
theorem matches_waiting (h : c.Sent) : c.Matches := by
  intro x rx hrx
  obtain ⟨panid16, src16, hsent⟩ := h.header
  have hmac : rx.HoldsMac ⟨true, c.received.packet macSeqNum, c.receiver.panid16,
      bytesToShort (c.received.packet (macSrc16 + 1)) (c.received.packet macSrc16), c.receiver.addr16⟩ :=
    (ack_holds c).of_agree fun k h1 h2 => hrx k h1 (Nat.lt_trans h2 (by decide))
  refine ⟨?_, ?_, ?_⟩
  · have hcleared : rx.packet unetPktType = c.waiting.packet unetPktType &&& ~~~ackReqMask := by
      rw [hrx _ (by decide) (by decide), ack_packet c (Nat.le_refl _), if_pos rfl, h.received _ (by decide) (by decide)]
    have htype : (rx.macInput x).packet unetPktType = rx.packet unetPktType := rfl
    rw [htype, hcleared, h.type]
    cases c.down with
    | true => decide
    | false => decide
  · have hseq : (rx.macInput x).info.seqNum = rx.packet macSeqNum := rfl
    rw [hseq, hmac.seqNum, h.received _ (by decide) (by decide), hsent.seqNum]
  · have hsrc : (rx.macInput x).sourceAddr16 = c.receiver.addr16 := hmac.src16
    rw [hsrc, h.addressed]

theorem answers {σ : Type} (h : c.Sent) (dev : DeviceType) (s : Sys σ) (rx : Packet) (tag : Nat)
    (hrx : ∀ k, macFrameCtrl ≤ k → k < unetHeaderEnd → rx.packet k = c.ack.packet k)
    (hwait : if c.down then s.packetDown = c.waiting else s.packetUp = c.waiting)
    (hstate : c.waiting.state = .waitingAck) :
    unetPacketInput dev s (rx.macInput s.node) tag = if c.down then acceptAckDown s else acceptAckUp s := by
  obtain ⟨htype, hseq, hsrc⟩ := h.matches_waiting s.node rx hrx
  unfold unetPacketInput
  cases hdown : c.down with
  | true =>
    rw [hdown] at htype hwait
    simp only [if_true] at htype hwait
    rw [htype, hwait, if_neg (by decide), if_neg (by decide), if_neg (by decide), if_neg (by decide), if_pos rfl,
      if_pos ⟨hstate, hseq, hsrc⟩]
    rfl
  | false =>
    rw [hdown] at htype hwait
    simp only [Bool.false_eq_true, if_false] at htype hwait
    rw [htype, hwait, if_neg (by decide), if_neg (by decide), if_neg (by decide), if_pos rfl, if_pos ⟨hseq, hstate⟩]
    rfl

end AckScene.Sent

/-- No ack of a network packet is sound: the last two bytes that are sent lie behind the buffer. -/
theorem ackRoundTrip_never (c : AckScene) : ¬ c.RoundTrip :=
  fun h => not_sentFromInside c h.1

/-- A packet of the node with the address 7, which it waits to be acknowledged by the node with the address 1. -/
def ackScene : AckScene where
  down := true
  receiver := { (default : Node) with addr16L := 1 }
  received := setNextHop { (default : Node) with addr16L := 7 }
    ((default : Packet) |>.setByte unetPktType unicastDown |>.setByte 31 1) 1
  buffer := default
  waiting := setNextHop { (default : Node) with addr16L := 7 }
    ((default : Packet) |>.setByte unetPktType unicastDown |>.setByte 31 1) 1

theorem ackScene_sent : ackScene.Sent where
  type := rfl
  header := ⟨_, _, setNextHop_holds _ _ 1⟩
  addressed := by decide
  received := fun _ _ _ => rfl

/-- Its ack uses a field outside of the buffer, and has another destination. -/
theorem ackScene_fails : ¬ ∀ c : AckScene, c.Sent → c.RoundTrip := by
  intro h
  have hheader := (h ackScene ackScene_sent).2.2.1
  exact absurd ((ack_header_iff ackScene).mp hheader).2 (by decide)

end Unet4Cooja
