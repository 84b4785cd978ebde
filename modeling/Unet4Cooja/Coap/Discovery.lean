import Unet4Cooja.Coap.BlockingRequest

/-!
# Discovery

One mote asks another for its list of resources, with the datagrams in between.

* `Motes`, `Transfer`, `exchange`, `transfer` : the loop of the client over a net that loses nothing;
* `discoverPacket`, `discoverMessage` : the request of a round; `asks_discover` : what the server reads of it;
* `Discoverable`, `discover_answer` : the service answers with the chunk that is asked for;
* `Fetched`, `exchange_fetched` : one round;
* `transfer_complete` : the whole list.
-/

namespace Unet4Cooja.Coap
open Lib

def wellKnownPath : List U8 :=
  [0x2E, 0x77, 0x65, 0x6C, 0x6C, 0x2D, 0x6B, 0x6E, 0x6F, 0x77, 0x6E, 0x2F, 0x63, 0x6F, 0x72, 0x65]

def wellKnownHandler (outOfScope : Nat) : Handler := fun services _ response m buffer size offset =>
  wellKnownCoreGetHandler services outOfScope m response buffer size.toNat offset

/-- The engine of the server, and where the client has the packet of its transaction and the datagrams it receives. -/
structure Motes where
  engine : Engine
  packet : Nat
  data : Nat

/-- The client, the memories of both motes, and `current_mid` of each. -/
structure Transfer where
  client : BlockingRequest
  clientMem : Mem
  serverMem : Mem
  clientMid : U16
  serverMid : U16

def IsRequest (p : CoapPacket) : Prop := coapGet ≤ p.code ∧ p.code ≤ coapDelete

instance (p : CoapPacket) : Decidable (IsRequest p) := inferInstanceAs (Decidable (_ ∧ _))

namespace Motes
variable (W : Motes)

/-- The server receives a datagram with a request, and answers. -/
def answer (m : Mem) (mid : U16) (datagram : List U8) : Option (List U8 × Mem × U16) :=
  match coapParseMessage (store m W.engine.data datagram) W.engine.data (BitVec.ofNat 16 datagram.length) with
  | .returned none message m =>
    if IsRequest message then
      match W.engine.coapReceiveRequest message m (mid + 1) with
      | (some reply, m) => some (reply, m, if message.type = coapTypeCon then mid else mid + 1)
      | (none, _) => none
    else none
  | _ => none

/-- The client receives a datagram, and the response of its transaction ends the wait. -/
def hear (client : BlockingRequest) (m : Mem) (mid : U16) (datagram : List U8) : Option (BlockingRequest × Mem) :=
  match coapParseMessage (store m W.data datagram) W.data (BitVec.ofNat 16 datagram.length) with
  | .returned none response m =>
    if ¬IsRequest response ∧ response.mid = mid then
      (requestStep client (.response mid response m)).map fun client => (client, m)
    else none
  | _ => none

/-- A round of the loop, if no datagram is lost. -/
def exchange (t : Transfer) : Option Transfer :=
  let mid := t.clientMid + 1
  let s := coapSerializeMessage (t.client.nextRequest mid) t.clientMem W.packet
  (W.answer t.serverMem t.serverMid (slice s.mem W.packet s.size)).bind fun (reply, serverMem, serverMid) =>
    (W.hear t.client s.mem mid reply).map fun (client, clientMem) => ⟨client, clientMem, serverMem, mid, serverMid⟩

/-- The loop; `none` if it has not ended after `fuel` rounds. -/
def transfer : Nat → Transfer → Option Transfer
  | 0, t => if t.client.running then none else some t
  | fuel + 1, t => if t.client.running then (W.exchange t).bind (transfer fuel) else some t

end Motes

/-! ## The request -/

def discoverPacket (path : Nat) (mid : U16) (j : Nat) : CoapPacket :=
  let p := coapInitMessage coapTypeCon coapGet mid
  let p := CoapPacket.setOption { p with uriPath := ⟨path, wellKnownPath.length⟩ } 11
  if j = 0 then p else CoapPacket.setOption { p with block2 := ⟨BitVec.ofNat 32 j, 0, 64, 0⟩ } 23

def discoverMessage (mid : U16) (j : Nat) : Message where
  type := coapTypeCon
  code := coapGet
  mid := mid
  token := []
  options
    | .uriPath => some (.bytes wellKnownPath)
    | .block2 => if j = 0 then none else some (.block ⟨BitVec.ofNat 32 j, 0, 64, 0⟩)
    | _ => none
  payload := []

section
variable {path packet j : Nat} {mid mid' : U16} {m : Mem}

theorem discoverPacket_message (h : Holds m path wellKnownPath) (mid : U16) (j : Nat) :
    (discoverPacket path mid j).message m = discoverMessage mid j := by
  have hpath : (Text.mk path wellKnownPath.length).value m = wellKnownPath := h
  unfold discoverPacket discoverMessage
  by_cases hj : j = 0
  · rw [if_pos hj, hj]
    unfold CoapPacket.message
    congr 1
    funext k
    cases k
    case uriPath => exact congrArg (fun x => some (OptionValue.bytes x)) hpath
    all_goals rfl
  · rw [if_neg hj]
    unfold CoapPacket.message
    congr 1
    funext k
    cases k
    case uriPath => exact congrArg (fun x => some (OptionValue.bytes x)) hpath
    case block2 => exact (if_neg hj).symm
    all_goals rfl

theorem discoverMessage_fits (hj : j < 2 ^ 20) (mid : U16) : (discoverMessage mid j).Fits where
  type := by
    show (0 : U8) < 4
    decide
  token := Nat.zero_le _
  options := by
    intro k value hvalue
    cases k
    case uriPath =>
      obtain rfl := Option.some.inj hvalue
      refine ⟨by decide, ?_⟩
      intro c hc
      obtain rfl := Option.some.inj hc
      decide
    case block2 =>
      change (if j = 0 then none else some _) = some value at hvalue
      split at hvalue
      · cases hvalue
      · obtain rfl := Option.some.inj hvalue
        refine ⟨Or.inr rfl, ?_, (by decide : (64 : U16).toNat < 4096)⟩
        rw [BitVec.toNat_ofNat]
        omega
    all_goals cases hvalue
  payload := Nat.zero_le _

theorem discoverMessage_header (mid : U16) (j : Nat) : (discoverMessage mid j).header.length ≤ 38 := by
  have hblock := length_intBytes_le (Block.mk (BitVec.ofNat 32 j) 0 64 0).value
  have hoptions : (discoverMessage mid j).optionList = [(11, wellKnownPath.take 11), (11, wellKnownPath.drop 12)] ∨
      (discoverMessage mid j).optionList = [(11, wellKnownPath.take 11), (11, wellKnownPath.drop 12),
        (23, intBytes (Block.mk (BitVec.ofNat 32 j) 0 64 0).value)] := by
    cases j with
    | zero => exact Or.inl rfl
    | succ j => exact Or.inr rfl
  have hnil : ∀ current, (encodeOptions current []).length = 0 := fun _ => rfl
  have htake : (wellKnownPath.take 11).length = 11 := rfl
  have hdrop : (wellKnownPath.drop 12).length = 4 := rfl
  have hlen : (encodeOptions 0 (discoverMessage mid j).optionList).length ≤ 34 := by
    rcases hoptions with h | h
    · rw [h]
      have h₁ := length_encodeOptions_cons_le 0 11 (wellKnownPath.take 11) [(11, wellKnownPath.drop 12)]
      have h₂ := length_encodeOptions_cons_le 11 11 (wellKnownPath.drop 12) []
      have h₃ := hnil 11
      omega
    · rw [h]
      have h₁ := length_encodeOptions_cons_le 0 11 (wellKnownPath.take 11) [(11, wellKnownPath.drop 12),
        (23, intBytes (Block.mk (BitVec.ofNat 32 j) 0 64 0).value)]
      have h₂ := length_encodeOptions_cons_le 11 11 (wellKnownPath.drop 12)
        [(23, intBytes (Block.mk (BitVec.ofNat 32 j) 0 64 0).value)]
      have h₃ := length_encodeOptions_cons_le 11 23 (intBytes (Block.mk (BitVec.ofNat 32 j) 0 64 0).value) []
      have h₄ := hnil 23
      omega
  unfold Message.header
  rw [List.length_append, List.length_append]
  exact Nat.add_le_add (Nat.le_refl 4) hlen

theorem discoverPacket_serialize (h : Holds m path wellKnownPath) (mid : U16) (j : Nat)
    (hapart : path + wellKnownPath.length ≤ packet ∨ packet + 38 ≤ path) :
    let s := coapSerializeMessage (discoverPacket path mid j) m packet
    s.size = (discoverMessage mid j).encode.length ∧ s.mem = store m packet (discoverMessage mid j).encode := by
  have hmessage := discoverPacket_message h mid j
  have hheader := discoverMessage_header mid j
  have hcode : (discoverPacket path mid j).code ≠ 0 := by
    unfold discoverPacket
    split <;> exact (by decide : (1 : U8) ≠ 0)
  have hpayload : (discoverPacket path mid j).payload = none ∧ (discoverPacket path mid j).payloadLen = 0 := by
    unfold discoverPacket
    split <;> exact ⟨rfl, rfl⟩
  have hreadable : Readable (discoverPacket path mid j) m packet (discoverMessage mid j).header.length := by
    have honly : ∀ k, (discoverPacket path mid j).isOption k → k = .uriPath ∨ k = .block2 := by
      intro k hk
      unfold discoverPacket at hk
      split at hk <;> cases k <;> first | exact Or.inl rfl | exact Or.inr rfl | cases hk
    have htext : (discoverPacket path mid j).text .uriPath = ⟨path, wellKnownPath.length⟩ := by
      unfold discoverPacket
      split <;> rfl
    constructor
    · intro k hk
      rcases honly k hk with rfl | rfl
      · rw [htext]
        exact hapart.imp id fun hle => Nat.le_trans (Nat.add_le_add_left hheader packet) hle
      · exact Or.inl (Nat.zero_le _)
    · intro k c hk hc
      rcases honly k hk with rfl | rfl
      · obtain rfl := Option.some.inj hc
        rw [htext]
        have hvalue : (Text.mk path wellKnownPath.length).value m = wellKnownPath := h
        rw [hvalue]
        decide
      · cases hc
  have hserialize := @serialize_eq _ m packet hcode (by rw [hmessage]; exact hreadable)
    (by rw [hmessage]; exact Nat.le_trans hheader (by decide)) (fun _ => hpayload.2)
    (by rw [hpayload.1, hpayload.2]; exact Or.inl (Nat.zero_le _))
  rw [hmessage] at hserialize
  dsimp only
  rw [hserialize]
  exact ⟨rfl, rfl⟩

end

/-! ## The server -/

section
variable {q : CoapPacket} {m : Mem} {msg : Message} {k : CoapOption} {value : OptionValue} {j : Nat} {mid : U16}
  {text : List U8}

theorem isOption_of_message (h : q.message m = msg) (hk : msg.options k = some value) :
    q.isOption k = true ∧ q.value m k = value := by
  rw [← h] at hk
  have hoption : (if q.isOption k then some (q.value m k) else none) = some value := hk
  split at hoption
  · rename_i hset
    exact ⟨hset, Option.some.inj hoption⟩
  · cases hoption

theorem not_isOption_of_message (h : q.message m = msg) (hk : msg.options k = none) : q.isOption k = false := by
  rw [← h] at hk
  have hoption : (if q.isOption k then some (q.value m k) else none) = none := hk
  split at hoption
  · cases hoption
  · rename_i hset
    exact Bool.eq_false_iff.mpr hset

def discoverBlock (j : Nat) : BlockRequest := ⟨BitVec.ofNat 32 j, 64, BitVec.ofNat 32 (j * 64)⟩

/-- What the server reads of the request for block `j`. -/
structure ReadsDiscover (q : CoapPacket) (m : Mem) (mid : U16) (j : Nat) : Prop where
  type : q.type = coapTypeCon
  code : q.code = coapGet
  mid : q.mid = mid
  token : q.tokenLen.toNat = 0
  unblocked : q.isOption .block1 = false
  path : q.isOption .uriPath = true ∧ q.uriPath.value m = wellKnownPath
  block : blockRequest q = discoverBlock j

theorem readsDiscover (h : q.message m = (discoverMessage mid j).received) (hj : j * 64 < 2 ^ 20) :
    ReadsDiscover q m mid j where
  type := congrArg Message.type h
  code := congrArg Message.code h
  mid := congrArg Message.mid h
  token := slice_eq_nil.mp (congrArg Message.token h)
  unblocked := not_isOption_of_message h rfl
  path := by
    obtain ⟨hset, hvalue⟩ := isOption_of_message (k := .uriPath) h rfl
    exact ⟨hset, OptionValue.bytes.inj hvalue⟩
  block := by
    unfold blockRequest
    by_cases hzero : j = 0
    · subst hzero
      have hset : q.isOption .block2 = false := not_isOption_of_message h rfl
      rw [hset]
      rfl
    · have hoption : (discoverMessage mid j).received.options .block2 =
          some (.block (Block.mk (BitVec.ofNat 32 j) 0 64 0).received) := by
        unfold Message.received discoverMessage
        dsimp only
        rw [if_neg hzero]
        rfl
      obtain ⟨hset, hvalue⟩ := isOption_of_message h hoption
      obtain ⟨hsize, hoffset⟩ := received_block 0 0 (Or.inr (Or.inr rfl)) hj
      have hblock : q.block2 = (Block.mk (BitVec.ofNat 32 j) 0 64 0).received := OptionValue.block.inj hvalue
      have hplace : (Block.mk (BitVec.ofNat 32 j) 0 64 0).received.offset = BitVec.ofNat 32 (j * 64) := by
        apply BitVec.eq_of_toNat_eq
        rw [hoffset, BitVec.toNat_ofNat, Nat.mod_eq_of_lt (by omega)]
        rfl
      rw [if_pos hset, hblock, hsize]
      dsimp only
      rw [hplace]
      rfl

theorem ReadsDiscover.asks (h : ReadsDiscover q m mid j) (hj : j * 64 < text.length) (htext : text.length ≤ 2 ^ 20) :
    Asks q text (discoverBlock j) where
  request := h.block
  unblocked := h.unblocked
  num := by
    unfold discoverBlock
    rw [BitVec.toNat_ofNat]
    omega
  size := (by decide : 16 ≤ (64 : U16).toNat)
  inside := by
    unfold discoverBlock
    rw [BitVec.toNat_ofNat, Nat.mod_eq_of_lt (by omega)]
    exact hj
  text := Nat.le_trans htext (by decide)

/-- `res_well_known_core` is active, and no resource before it handles its URL. -/
def Discoverable (services : List RestResource) (outOfScope : Nat) : Prop :=
  ∃ pre core post, services = pre ++ core :: post ∧ core.url = wellKnownPath ∧
    core.getHandler = some (wellKnownHandler outOfScope) ∧ core.flags &&& isObservable = 0 ∧
    ∀ r ∈ pre, r.url ≠ wellKnownPath ∧ (r.flags &&& hasSubResources ≠ 0 → ¬r.url <+: wellKnownPath)

theorem handles_iff (h : ReadsDiscover q m mid j) (r : RestResource) :
    r.handles m q = true ↔
      r.url = wellKnownPath ∨ r.flags &&& hasSubResources ≠ 0 ∧ r.url <+: wellKnownPath ∧ r.url ≠ wellKnownPath := by
  obtain ⟨hset, hvalue⟩ := h.path
  have hlen : q.uriPath.len = wellKnownPath.length := by
    have hlength := congrArg List.length hvalue
    unfold Text.value at hlength
    rwa [length_slice] at hlength
  have hbegins : r.url.length ≤ wellKnownPath.length →
      slice m q.uriPath.ptr r.url.length = wellKnownPath.take r.url.length := by
    intro hle
    rw [← hvalue]
    unfold Text.value
    rw [take_slice, hlen, Nat.min_eq_left hle]
  unfold RestResource.handles coapGetHeaderUriPath
  rw [if_pos hset]
  dsimp only
  rw [hlen, decide_eq_true_iff]
  constructor
  · rintro ⟨hsame | ⟨hshorter, hflag⟩, hslice⟩
    · rw [hbegins (Nat.le_of_eq hsame.symm), ← hsame, List.take_length] at hslice
      exact Or.inl hslice.symm
    · rw [hbegins (Nat.le_of_lt hshorter)] at hslice
      refine Or.inr ⟨hflag, List.prefix_iff_eq_take.mpr hslice.symm, fun heq => ?_⟩
      rw [heq] at hshorter
      exact Nat.lt_irrefl _ hshorter
  · rintro (heq | ⟨hflag, hprefixed, hne⟩)
    · rw [heq] at hbegins ⊢
      exact ⟨Or.inl rfl, (hbegins (Nat.le_refl _)).trans (List.take_length)⟩
    · have hle := hprefixed.length_le
      have hlt : r.url.length < wellKnownPath.length :=
        Nat.lt_of_le_of_ne hle fun heq => hne (hprefixed.eq_of_length heq)
      exact ⟨Or.inr ⟨hlt, hflag⟩, (hbegins hle).trans (List.prefix_iff_eq_take.mp hprefixed).symm⟩

theorem find_discoverable {services : List RestResource} {outOfScope : Nat} (h : ReadsDiscover q m mid j)
    (hd : Discoverable services outOfScope) :
    ∃ core, services.find? (·.handles m q) = some core ∧ core.getHandler = some (wellKnownHandler outOfScope) ∧
      core.flags &&& isObservable = 0 := by
  obtain ⟨pre, core, post, rfl, hurl, hhandler, hflags, hpre⟩ := hd
  refine ⟨core, ?_, hhandler, hflags⟩
  rw [List.find?_append, List.find?_eq_none.mpr, Option.none_or, List.find?_cons_of_pos]
  · exact (handles_iff h core).mpr (Or.inl hurl)
  · intro r hr hhandles
    obtain ⟨hne, hsub⟩ := hpre r hr
    rcases (handles_iff h r).mp hhandles with heq | ⟨hflag, hbegins, -⟩
    · exact hne heq
    · exact hsub hflag hbegins

def discoverAnswer (mid : U16) (text : List U8) (j : Nat) : Message where
  type := coapTypeAck
  code := content205
  mid := mid
  token := []
  options
    | .contentFormat => some (.int (applicationLinkFormat.setWidth 32))
    | .block2 => some (.block ⟨BitVec.ofNat 32 j, if text.length ≤ j * 64 + 64 then 0 else 1, 64, 0⟩)
    | _ => none
  payload := window (j * 64) 64 text

theorem discoverAnswer_fits (hj : j < 2 ^ 20) (mid : U16) (text : List U8) : (discoverAnswer mid text j).Fits where
  type := by
    show (2 : U8) < 4
    decide
  token := Nat.zero_le _
  options := by
    intro k value hvalue
    cases k
    case contentFormat =>
      obtain rfl := Option.some.inj hvalue
      show (40 : U32).toNat < 2 ^ 16
      decide
    case block2 =>
      obtain rfl := Option.some.inj hvalue
      refine ⟨Or.inr rfl, ?_, (by decide : (64 : U16).toNat < 4096)⟩
      rw [BitVec.toNat_ofNat]
      omega
    all_goals cases hvalue
  payload := by
    show (window _ _ _).length ≤ 64
    rw [length_window]
    omega

theorem discoverAnswer_length (mid : U16) (text : List U8) (j : Nat) :
    (discoverAnswer mid text j).encode.length ≤ 95 := by
  have hoptions : (discoverAnswer mid text j).optionList = [(12, intBytes 40), (23, intBytes
      (Block.mk (BitVec.ofNat 32 j) (if text.length ≤ j * 64 + 64 then 0 else 1) 64 0).value)] := rfl
  have hheader := length_header_le hoptions
  have htoken : (discoverAnswer mid text j).token.length = 0 := rfl
  have hpayload : (discoverAnswer mid text j).payload.length ≤ 64 := by
    show (window _ _ _).length ≤ 64
    rw [length_window]
    omega
  have := length_encode_le (discoverAnswer mid text j)
  omega

theorem ReadsDiscover.chunkAnswer (h : ReadsDiscover q m mid j) (hj : j * 64 < 2 ^ 20) (mid' : U16) (text : List U8) :
    Coap.chunkAnswer q mid' text (discoverBlock j) = discoverAnswer mid text j := by
  have htoken : slice q.token 0 q.tokenLen.toNat = [] := by rw [h.token]; rfl
  have hoffset : (discoverBlock j).offset.toNat = j * 64 := by
    unfold discoverBlock
    rw [BitVec.toNat_ofNat, Nat.mod_eq_of_lt (by omega)]
  have hsize : (discoverBlock j).size.toNat = 64 := rfl
  unfold Coap.chunkAnswer discoverAnswer moreAfter chunk
  rw [htoken, h.type, if_pos rfl, if_pos rfl, h.mid, hoffset, hsize]
  rfl

theorem discover_answer {E : Engine} {services : List RestResource} {outOfScope : Nat}
    {subscription : RestResource → CoapPacket → CoapPacket → CoapPacket}
    (hservice : E.service = some (restInvokeRestfulService services subscription))
    (hd : Discoverable services outOfScope) (h : ReadsDiscover q m mid j)
    (hj : j * 64 < (linkFormat (services.map (·.toResource))).length)
    (htext : (linkFormat (services.map (·.toResource))).length ≤ 2 ^ 20)
    (hinside : ChunkInside (services.map (·.toResource)) (j * 64) 64) (mid' : U16) :
    ∃ m', E.coapReceiveRequest q m mid' =
        (some (discoverAnswer mid (linkFormat (services.map (·.toResource))) j).encode, m') ∧
      Frame m m' E.packet (E.packet + 127) := by
  obtain ⟨core, hfind, hhandler, hflags⟩ := find_discoverable h hd
  have hmethod : core.handler (coapGetRestMethod q) = some (wellKnownHandler outOfScope) := by
    unfold coapGetRestMethod RestResource.handler
    rw [h.code, hhandler, if_pos ⟨by decide, rfl⟩]
  have hoffset : (discoverBlock j).offset.toNat = j * 64 := by
    unfold discoverBlock
    rw [BitVec.toNat_ofNat, Nat.mod_eq_of_lt (by omega)]
  have hint : (discoverBlock j).offset.toInt = ((j * 64 : Nat) : Int) := by
    rw [BitVec.toInt_eq_toNat_of_lt (by omega), hoffset]
  have hchunk := wellKnownCore_chunk (services.map (·.toResource)) outOfScope m (initResponse q mid')
    (E.packet + coapMaxHeaderSize) (by decide : 0 < 64) hj
  have hframe := wellKnownCore_frame hinside (by decide : 0 < 64) outOfScope m (initResponse q mid')
    (E.packet + coapMaxHeaderSize)
  have hserved := serve_chunk mid' hservice (h.asks hj htext) (by rw [h.token]; decide) (m := m)
    (e := wellKnownCoreGetHandler (services.map (·.toResource)) outOfScope m (initResponse q mid')
      (E.packet + coapMaxHeaderSize) 64 ((j * 64 : Nat) : Int))
    (by
      unfold restInvokeRestfulService
      rw [hfind]
      dsimp only
      rw [hmethod, hint]
      dsimp only
      rw [if_neg (not_not.mpr hflags)]
      rfl)
    (by rw [hoffset]; exact hchunk)
  rw [h.chunkAnswer (by omega)] at hserved
  refine ⟨_, hserved, ?_⟩
  have hlen := discoverAnswer_length mid (linkFormat (services.map (·.toResource))) j
  have h62 : coapMaxHeaderSize = 62 := rfl
  exact (hframe.mono (by omega) (by omega)).trans ((frame_store _ _ _).mono (Nat.le_refl _) (by omega))

/-- The two memories are the same, but for two buffers of the size of a packet. -/
def SameBut (m m' : Mem) (a b : Nat) : Prop := ∀ i, (i < a ∨ a + 127 ≤ i) → (i < b ∨ b + 127 ≤ i) → m' i = m i

theorem discoverMessage_length (mid : U16) (j : Nat) : (discoverMessage mid j).encode.length ≤ 39 :=
  Nat.le_trans (length_encode_le _) (Nat.add_le_add_right (discoverMessage_header mid j) 1)

theorem answer_discover {W : Motes} {services : List RestResource} {outOfScope : Nat}
    {subscription : RestResource → CoapPacket → CoapPacket → CoapPacket}
    (hservice : W.engine.service = some (restInvokeRestfulService services subscription))
    (hd : Discoverable services outOfScope) (hj : j * 64 < (linkFormat (services.map (·.toResource))).length)
    (htext : (linkFormat (services.map (·.toResource))).length ≤ 2 ^ 20)
    (hinside : ChunkInside (services.map (·.toResource)) (j * 64) 64) (m : Mem) (mid serverMid : U16) :
    ∃ m', W.answer m serverMid (discoverMessage mid j).encode =
        some ((discoverAnswer mid (linkFormat (services.map (·.toResource))) j).encode, m', serverMid) ∧
      SameBut m m' W.engine.data W.engine.packet := by
  have hfits := discoverMessage_fits (by omega : j < 2 ^ 20) mid
  have hlength := discoverMessage_length mid j
  have hlen : (BitVec.ofNat 16 (discoverMessage mid j).encode.length).toNat = (discoverMessage mid j).encode.length :=
    (BitVec.toNat_ofNat _ _).trans (Nat.mod_eq_of_lt (by omega))
  have hholds := holds_store m W.engine.data (discoverMessage mid j).encode
  obtain ⟨q, m₁, hparse, hmessage⟩ := parse_encode hfits hholds hlen
  have hframe := parse_encode_frame hfits hholds hlen hparse
  have hreads := readsDiscover hmessage (by omega)
  obtain ⟨m', hserved, hframe'⟩ := discover_answer hservice hd hreads hj htext hinside (serverMid + 1)
  refine ⟨m', ?_, ?_⟩
  · unfold Motes.answer
    rw [hparse]
    dsimp only
    have hrequest : IsRequest q := by
      unfold IsRequest
      rw [hreads.code]
      decide
    rw [if_pos hrequest, hserved]
    dsimp only
    rw [hreads.type, if_pos rfl]
  · intro i hdata hpacket
    have hstored := frame_store m W.engine.data (discoverMessage mid j).encode i (by omega)
    rw [hframe' i hpacket, hframe i (by omega), hstored]

end

/-! ## Rounds -/

section
variable {W : Motes} {text : List U8} {path j : Nat} {t t₀ : Transfer}

theorem nextRequest_discover {client : BlockingRequest} {mid' : U16} (hj : j ≤ 0x0FFFFF)
    (hrequest : client.request = discoverPacket path mid' (j - 1)) (hnum : client.blockNum = BitVec.ofNat 32 j)
    (mid : U16) : client.nextRequest mid = discoverPacket path mid j := by
  have hnat : (BitVec.ofNat 32 j).toNat = j := by
    rw [BitVec.toNat_ofNat]
    omega
  unfold BlockingRequest.nextRequest
  rw [hrequest, hnum]
  by_cases hzero : j = 0
  · rw [hzero]
    rfl
  · have hpos : 0 < BitVec.ofNat 32 j := by
      rw [BitVec.lt_def, hnat]
      exact Nat.pos_of_ne_zero hzero
    rw [if_pos hpos, coapSetHeaderBlock2_eq _ _ (by decide) (by decide) (by rw [hnat]; exact hj)]
    unfold discoverPacket
    rw [if_neg hzero]
    split
    · rfl
    · unfold CoapPacket.setOption
      dsimp only
      rw [Function.update_idem]
      rfl

structure Fetched (W : Motes) (text : List U8) (path : Nat) (t₀ : Transfer) (j : Nat) (t : Transfer) : Prop where
  request : ∃ mid, t.client.request = discoverPacket path mid (j - 1)
  blockNum : t.client.blockNum = BitVec.ofNat 32 j
  blockError : t.client.blockError = 0
  payloads : t.client.received.map (·.payload) = windows 64 j text
  running : t.client.running = true ↔ j * 64 < text.length
  path : Holds t.clientMem path wellKnownPath
  client : SameBut t₀.clientMem t.clientMem W.packet W.data
  server : SameBut t₀.serverMem t.serverMem W.engine.data W.engine.packet

theorem hear_discover {client : BlockingRequest} (hrunning : client.running = true) (hj : j < 2 ^ 20)
    (hnum : client.blockNum = BitVec.ofNat 32 j) (herror : client.blockError = 0) (m : Mem) (mid : U16) :
    ∃ client' m', W.hear client m mid (discoverAnswer mid text j).encode = some (client', m') ∧
      client'.request = client.nextRequest mid ∧ client'.blockNum = BitVec.ofNat 32 (j + 1) ∧ client'.blockError = 0 ∧
      client'.received.map (·.payload) = client.received.map (·.payload) ++ [window (j * 64) 64 text] ∧
      client'.running = decide (j * 64 + 64 < text.length) ∧
      ∀ i, (i < W.data ∨ W.data + 127 ≤ i) → m' i = m i := by
  have hfits := discoverAnswer_fits hj mid text
  have hlength := discoverAnswer_length mid text j
  have hlen : (BitVec.ofNat 16 (discoverAnswer mid text j).encode.length).toNat =
      (discoverAnswer mid text j).encode.length := (BitVec.toNat_ofNat _ _).trans (Nat.mod_eq_of_lt (by omega))
  have hholds := holds_store m W.data (discoverAnswer mid text j).encode
  obtain ⟨q, m', hparse, hmessage⟩ := parse_encode hfits hholds hlen
  have hframe := parse_encode_frame hfits hholds hlen hparse
  have hcode : q.code = content205 := congrArg Message.code hmessage
  have hmid : q.mid = mid := congrArg Message.mid hmessage
  obtain ⟨hset, hvalue⟩ := isOption_of_message (k := .block2) hmessage rfl
  have hblock : q.block2 = Block.received _ := OptionValue.block.inj hvalue
  have hmore : q.block2.more = if text.length ≤ j * 64 + 64 then 0 else 1 := by
    rw [hblock]
    show (if (if text.length ≤ j * 64 + 64 then 0 else 1 : U8) ≠ 0 then 1 else 0 : U8) = _
    split <;> simp_all
  have hresBlock : q.block2.num = BitVec.ofNat 32 j := by
    rw [hblock]
    rfl
  have hpayload : (q.message m').payload = window (j * 64) 64 text := congrArg Message.payload hmessage
  have hresponse : ¬IsRequest q ∧ q.mid = mid := by
    unfold IsRequest
    rw [hcode]
    exact ⟨by decide, hmid⟩
  have hstep : requestStep client (.response mid q m') =
      some ({ client with request := client.nextRequest mid }.takeResponse q m') := by
    unfold requestStep
    rw [if_pos hrunning]
  refine ⟨{ client with request := client.nextRequest mid }.takeResponse q m', m', ?_, ?_⟩
  · unfold Motes.hear
    rw [hparse]
    dsimp only
    rw [if_pos hresponse, hstep]
    rfl
  · unfold BlockingRequest.takeResponse BlockingRequest.readBlock2
    rw [if_pos hset, hmore, hresBlock]
    dsimp only
    rw [if_pos hnum.symm]
    refine ⟨rfl, ?_, herror, ?_, ?_, ?_⟩
    · show client.blockNum + 1 = _
      rw [hnum, BitVec.ofNat_add]
      rfl
    · show (client.received ++ [q.message m']).map (·.payload) = _
      rw [List.map_append, ← hpayload]
      rfl
    · rw [herror]
      apply decide_eq_decide.mpr
      by_cases hend : text.length ≤ j * 64 + 64
      · rw [if_pos hend]
        exact ⟨fun h => absurd rfl h.1, fun h => absurd hend (Nat.not_le.mpr h)⟩
      · rw [if_neg hend]
        exact ⟨fun _ => Nat.not_le.mp hend, fun _ => ⟨by decide, by decide⟩⟩
    · intro i hi
      have hstored := frame_store m W.data (discoverAnswer mid text j).encode i (by omega)
      rw [hframe i (by omega), hstored]

theorem exchange_fetched {services : List RestResource} {outOfScope : Nat}
    {subscription : RestResource → CoapPacket → CoapPacket → CoapPacket}
    (hservice : W.engine.service = some (restInvokeRestfulService services subscription))
    (hd : Discoverable services outOfScope) (htext : (linkFormat (services.map (·.toResource))).length ≤ 2 ^ 20)
    (hinside : ∀ j, ChunkInside (services.map (·.toResource)) (j * 64) 64)
    (hpacket : path + wellKnownPath.length ≤ W.packet ∨ W.packet + 127 ≤ path)
    (hdata : path + wellKnownPath.length ≤ W.data ∨ W.data + 127 ≤ path)
    (h : Fetched W (linkFormat (services.map (·.toResource))) path t₀ j t) (hrunning : t.client.running = true) :
    ∃ t', W.exchange t = some t' ∧ Fetched W (linkFormat (services.map (·.toResource))) path t₀ (j + 1) t' := by
  have hj := h.running.mp hrunning
  obtain ⟨mid', hrequest⟩ := h.request
  have hnext := nextRequest_discover (by omega : j ≤ 0x0FFFFF) hrequest h.blockNum (t.clientMid + 1)
  have happart : path + wellKnownPath.length ≤ W.packet ∨ W.packet + 38 ≤ path := by omega
  obtain ⟨hsize, hmem⟩ := discoverPacket_serialize h.path (t.clientMid + 1) j happart
  obtain ⟨ms, hanswer, hserver⟩ :=
    answer_discover (W := W) hservice hd hj htext (hinside j) t.serverMem (t.clientMid + 1) t.serverMid
  obtain ⟨client', mc, hhear, hrequest', hnum, herror, hpayloads, hrun, hclient⟩ :=
    hear_discover (W := W) hrunning (by omega) h.blockNum h.blockError
      (store t.clientMem W.packet (discoverMessage (t.clientMid + 1) j).encode) (t.clientMid + 1)
  have hlength := discoverMessage_length (t.clientMid + 1) j
  have hmc : ∀ i, (i < W.packet ∨ W.packet + 127 ≤ i) → (i < W.data ∨ W.data + 127 ≤ i) → mc i = t.clientMem i := by
    intro i hip hid
    rw [hclient i hid]
    exact frame_store _ _ _ i (by omega)
  refine ⟨⟨client', mc, ms, t.clientMid + 1, t.serverMid⟩, ?_, ?_⟩
  · unfold Motes.exchange
    dsimp only
    rw [hnext, hsize, hmem, slice_store, hanswer]
    dsimp only [Option.bind_some]
    rw [hhear]
    rfl
  · refine ⟨⟨t.clientMid + 1, hrequest'.trans hnext⟩, hnum, herror, ?_, ?_, ?_, ?_, ?_⟩
    · show client'.received.map (·.payload) = _
      rw [hpayloads, h.payloads, windows_succ]
    · show client'.running = true ↔ _
      rw [hrun, decide_eq_true_iff, Nat.succ_mul]
    · apply h.path.congr
      intro i hi hi'
      exact (hmc i (by omega) (by omega)).symm
    · intro i hip hid
      exact (hmc i hip hid).trans (h.client i hip hid)
    · intro i hid hip
      exact (hserver i hid hip).trans (h.server i hid hip)

theorem transfer_fetched {services : List RestResource} {outOfScope : Nat}
    {subscription : RestResource → CoapPacket → CoapPacket → CoapPacket}
    (hservice : W.engine.service = some (restInvokeRestfulService services subscription))
    (hd : Discoverable services outOfScope) (htext : (linkFormat (services.map (·.toResource))).length ≤ 2 ^ 20)
    (hinside : ∀ j, ChunkInside (services.map (·.toResource)) (j * 64) 64)
    (hpacket : path + wellKnownPath.length ≤ W.packet ∨ W.packet + 127 ≤ path)
    (hdata : path + wellKnownPath.length ≤ W.data ∨ W.data + 127 ≤ path) (fuel : Nat)
    (h : Fetched W (linkFormat (services.map (·.toResource))) path t₀ j t)
    (hfuel : (linkFormat (services.map (·.toResource))).length ≤ (j + fuel) * 64) :
    ∃ k t', W.transfer fuel t = some t' ∧ Fetched W (linkFormat (services.map (·.toResource))) path t₀ k t' ∧
      (linkFormat (services.map (·.toResource))).length ≤ k * 64 := by
  induction fuel generalizing j t with
  | zero =>
    have hstopped : ¬t.client.running = true := fun hrun => absurd (h.running.mp hrun) (Nat.not_lt.mpr hfuel)
    exact ⟨j, t, if_neg hstopped, h, hfuel⟩
  | succ fuel ih =>
    by_cases hrun : t.client.running = true
    · obtain ⟨t₁, hround, h₁⟩ := exchange_fetched hservice hd htext hinside hpacket hdata h hrun
      obtain ⟨k, t', hrest, hk⟩ := ih h₁ (by rw [Nat.add_right_comm]; exact hfuel)
      refine ⟨k, t', ?_, hk⟩
      rw [Motes.transfer, if_pos hrun, hround]
      exact hrest
    · exact ⟨j, t, if_neg hrun, h, Nat.not_lt.mp (mt h.running.mpr hrun)⟩

/-- If the chunks end where the buffer of the server has room for them, the client gets the whole list in its blocks,
and neither mote writes outside of its two buffers. -/
theorem transfer_complete {services : List RestResource} {outOfScope : Nat}
    {subscription : RestResource → CoapPacket → CoapPacket → CoapPacket}
    (hservice : W.engine.service = some (restInvokeRestfulService services subscription))
    (hd : Discoverable services outOfScope) (htext : (linkFormat (services.map (·.toResource))).length ≤ 2 ^ 20)
    (hinside : ∀ j, ChunkInside (services.map (·.toResource)) (j * 64) 64)
    (hpacket : path + wellKnownPath.length ≤ W.packet ∨ W.packet + 127 ≤ path)
    (hdata : path + wellKnownPath.length ≤ W.data ∨ W.data + 127 ≤ path) {mid : U16}
    (hclient : t₀.client = blockingRequest (discoverPacket path mid 0)) (hpath : Holds t₀.clientMem path wellKnownPath)
    {fuel : Nat} (hfuel : (linkFormat (services.map (·.toResource))).length ≤ fuel * 64) :
    ∃ t, W.transfer fuel t₀ = some t ∧
      (t.client.received.map (·.payload)).flatten = linkFormat (services.map (·.toResource)) ∧
      SameBut t₀.clientMem t.clientMem W.packet W.data ∧
      SameBut t₀.serverMem t.serverMem W.engine.data W.engine.packet := by
  have hnonempty : 0 < (linkFormat (services.map (·.toResource))).length := by
    obtain ⟨pre, core, post, rfl, -⟩ := hd
    rw [List.map_append, List.map_cons]
    have hlong := length_linkFormat_le (pre.map (·.toResource)) core.toResource (post.map (·.toResource))
    have hsnoc : linkFormat (pre.map (·.toResource) ++ [core.toResource]) =
        addLink (linkFormat (pre.map (·.toResource))) core.toResource := List.foldl_append
    have hlink := lt_addLink (linkFormat (pre.map (·.toResource))) core.toResource
    rw [hsnoc] at hlong
    omega
  have hstart : Fetched W (linkFormat (services.map (·.toResource))) path t₀ 0 t₀ := by
    refine ⟨⟨mid, by rw [hclient]; rfl⟩, by rw [hclient]; rfl, by rw [hclient]; rfl, by rw [hclient]; rfl, ?_, hpath,
      fun _ _ _ => rfl, fun _ _ _ => rfl⟩
    rw [hclient, Nat.zero_mul]
    exact iff_of_true rfl hnonempty
  obtain ⟨k, t, hrun, hfetched, hk⟩ :=
    transfer_fetched hservice hd htext hinside hpacket hdata fuel hstart (by rw [Nat.zero_add]; exact hfuel)
  refine ⟨t, hrun, ?_, hfetched.client, hfetched.server⟩
  rw [hfetched.payloads, flatten_windows hk]

end

def coreLink : Resource := ⟨wellKnownPath, [0x63, 0x74, 0x3D, 0x34, 0x30]⟩

/-- Behind `coreLink`, its URL ends where the first chunk ends. -/
def longLink : Resource := ⟨List.replicate 36 0x61, List.replicate 40 0x62⟩

def twoResources : List RestResource :=
  [⟨coreLink, 0, some (wellKnownHandler 0), none, none, none⟩, ⟨longLink, 0, none, none, none, none⟩]

def twoMotes : Motes where
  engine := ⟨some (restInvokeRestfulService twoResources fun _ _ response => response), 1000, 2000, fun _ => 0⟩
  packet := 3000
  data := 4000

def twoStart : Transfer where
  client := blockingRequest (discoverPacket 5000 0 0)
  clientMem := store (fun _ => 0) 5000 wellKnownPath
  serverMem := fun _ => 0
  clientMid := 7
  serverMid := 9

theorem transfer_complete_twoResources : ∃ t, twoMotes.transfer 2 twoStart = some t ∧
    (t.client.received.map (·.payload)).flatten = linkFormat (twoResources.map (·.toResource)) := by
  have hd : Discoverable twoResources 0 := ⟨[], _, _, rfl, rfl, rfl, rfl, fun r hr => absurd hr List.not_mem_nil⟩
  have hlen : (linkFormat (twoResources.map (·.toResource))).length = 106 := by decide
  have hinside : ∀ j, ChunkInside (twoResources.map (·.toResource)) (j * 64) 64 := by
    intro j
    cases j with
    | zero => exact Or.inr ⟨[coreLink], longLink, [], rfl, by decide, Or.inl (by decide)⟩
    | succ j =>
      refine Or.inl ?_
      rw [hlen]
      omega
  have hpacket : 5000 + wellKnownPath.length ≤ twoMotes.packet ∨ twoMotes.packet + 127 ≤ 5000 := by decide
  have hdata : 5000 + wellKnownPath.length ≤ twoMotes.data ∨ twoMotes.data + 127 ≤ 5000 := by decide
  have hfuel : (linkFormat (twoResources.map (·.toResource))).length ≤ 2 * 64 := by
    rw [hlen]
    decide
  have hclient : twoStart.client = blockingRequest (discoverPacket 5000 0 0) := rfl
  have hpath : Holds twoStart.clientMem 5000 wellKnownPath := holds_store _ _ _
  obtain ⟨t, hrun, htext, -⟩ := transfer_complete (W := twoMotes) rfl hd (by rw [hlen]; decide) hinside
    hpacket hdata hclient hpath hfuel
  exact ⟨t, hrun, htext⟩

end Unet4Cooja.Coap
