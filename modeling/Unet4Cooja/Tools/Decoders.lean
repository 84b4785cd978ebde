import Unet4Cooja.Link.RoundTrip
import Unet4Cooja.Tools.Analyzer
import Unet4Cooja.Tools.Hex2pkt

/-!
# The two decoders and the encoder

* `frameBytes`, `onAir`, `hexOf` : a frame as the radio logger and as the log of the node show it;
* `Names` : what the two decoders call a packet type and a next header;
* `AnalyzerAgrees`, `ScriptAgrees` : a decoder shows the values the sender has set;
* `scriptAgrees_iff`, `analyzerAgrees_iff` : when they do;
* `decoders_agree_iff` : for every built frame.
-/

namespace Unet4Cooja

/-- The bytes `unet_packet_output` hands to the radio. -/
def frameBytes (q : Packet) : List U8 := (List.range q.info.size.toNat).map fun k => q.packet (macFrameCtrl + k)

/-- The frame with its two check bytes, as the radio logger has it. -/
def onAir (q : Packet) (fcs0 fcs1 : U8) : List U8 := frameBytes q ++ [fcs0, fcs1]

/-- The frame as `packet_print` prints it. -/
def hexOf (q : Packet) : List String := (frameBytes q).map Hex2pkt.hexByte

structure Names where
  value : U8
  analyzer : String
  script : String

def typeNames : List Names :=
  [⟨broadcastLocalLink, "BROADCAST", "BROADCAST"⟩, ⟨unicastAckDown, "UNI ACK DOWN", "UNICAST ACK DOWN"⟩,
   ⟨unicastAckUp, "UNI ACK UP", "UNICAST ACK UP"⟩, ⟨unicastDown, "UNI DOWN", "UNICAST DOWN"⟩,
   ⟨unicastUp, "UNI UP", "UNICAST UP"⟩]

def headerNames : List Names :=
  [⟨nextHeaderUnetCtrlMsg, "UNET_CTRL", "UNET CONTROL"⟩, ⟨nextHeaderUnetApp, "UNET_APP", "UNET APP"⟩]

def addrHex (a : Addr64) : List String := List.ofFn fun i => Hex2pkt.hexByte (a i)

/-- The analyzer shows the values of the sender. -/
def AnalyzerAgrees (data : List U8) (m : MacHeader) (h : NetHeader) (a : Option Ports) : Prop :=
  ∃ r ids net, MicroNetAnalyzer.analyzePacket data = some r ∧ r.ids = some ids ∧ r.network = some net ∧
    (∃ x ∈ typeNames, x.value = h.type ∧ net.type = x.analyzer) ∧
    (∃ x ∈ headerNames, x.value = h.nextHeader ∧ net.nextHeader = x.analyzer) ∧
    net.hopLimit = h.hopLimit ∧ net.leng = h.payloadLen ∧ net.source = h.src64 ∧ net.destiny = h.dest64 ∧
    (∀ x ∈ a, ∃ app, net.application = some app ∧ app.srcPort = x.src ∧ app.dstPort = x.dest) ∧
    ids.dst = if m.dest16 = broadAddr then .bcast else .addr m.dest16

/-- The script shows the values of the sender. -/
def ScriptAgrees (hex : List String) (h : NetHeader) (a : Option Ports) : Prop :=
  ∃ rows, Hex2pkt.hex2pkt hex = some rows ∧
    (∃ x ∈ typeNames, x.value = h.type ∧ ⟨"uN[N] Pkt Type", [Hex2pkt.hexByte h.type], some x.script⟩ ∈ rows) ∧
    (∃ x ∈ headerNames, x.value = h.nextHeader ∧
      ⟨"uN[N] Next Header", [Hex2pkt.hexByte h.nextHeader], some x.script⟩ ∈ rows) ∧
    ⟨"uN[N] Hop Lim", [Hex2pkt.hexByte h.hopLimit], none⟩ ∈ rows ∧
    ⟨"uN[N] Payload Len", [Hex2pkt.hexByte h.payloadLen], none⟩ ∈ rows ∧
    ⟨"uN[N] Source", addrHex h.src64, none⟩ ∈ rows ∧
    ⟨"uN[N] Dest", addrHex h.dest64, none⟩ ∈ rows ∧
    ∀ x ∈ a, ⟨"uN[T] S Port", [Hex2pkt.hexByte x.src], none⟩ ∈ rows ∧
      ⟨"uN[T] D Port", [Hex2pkt.hexByte x.dest], none⟩ ∈ rows

section Frames
variable {q : Packet} {m : MacHeader} {h : NetHeader} {a : Option Ports}

theorem frameBytes_length (q : Packet) : (frameBytes q).length = q.info.size.toNat := by
  simp [frameBytes]

theorem frameBytes_get {k : Nat} (hk : k < q.info.size.toNat) : (frameBytes q)[k]? = some (q.packet (macFrameCtrl + k)) := by
  simp [frameBytes, hk]

theorem onAir_begins (fcs0 fcs1 : U8) : MicroNetAnalyzer.Begins (onAir q fcs0 fcs1) q q.info.size.toNat := by
  intro k hk
  unfold onAir
  rw [List.getElem?_append_left (by rw [frameBytes_length]; exact hk)]
  exact frameBytes_get hk

theorem hexOf_length (q : Packet) : (hexOf q).length = q.info.size.toNat := by
  simp [hexOf, frameBytes_length]

theorem hexOf_get {k : Nat} (hk : k < q.info.size.toNat) :
    (hexOf q)[k]? = some (Hex2pkt.hexByte (q.packet (macFrameCtrl + k))) := by
  simp [hexOf, frameBytes_get hk]

/-! ## The script -/

open Hex2pkt

/-- The name a line shows beside its first byte. -/
def nameOf (byte : String) : Shows → Option String
  | .bytes => none
  | .pktType => some (Hex2pkt.unetPktType byte)
  | .header => some (unetHeader byte)

theorem rowAt_hexOf (l : Line) {i : Nat} (hpos : 0 < l.count) (hend : i + l.count ≤ q.info.size.toNat) :
    rowAt (hexOf q) i l =
      some ⟨l.label, (List.range l.count).map fun j => hexByte (q.packet (macFrameCtrl + (i + j))),
        nameOf (hexByte (q.packet (macFrameCtrl + i))) l.shows⟩ := by
  have hbytes : bytesAt (hexOf q) i l.count =
      (List.range l.count).map fun j => hexByte (q.packet (macFrameCtrl + (i + j))) := by
    unfold bytesAt
    apply List.map_congr_left
    intro j hj
    have hj := List.mem_range.mp hj
    rw [List.getD_eq_getElem?_getD, hexOf_get (by omega)]
    rfl
  have hfirst := hexOf_get (q := q) (k := i) (by omega)
  unfold rowAt
  rw [hbytes]
  cases l.shows with
  | bytes => rfl
  | pktType => rw [hfirst]; rfl
  | header => rw [hfirst]; rfl

theorem line_mem {rows : List Row} (hr : hex2pkt (hexOf q) = some rows) (k : Nat) (hk : k < lines.length)
    (hpos : 0 < (lines.get ⟨k, hk⟩).count)
    (hend : offset lines k + (lines.get ⟨k, hk⟩).count ≤ q.info.size.toNat) :
    ⟨(lines.get ⟨k, hk⟩).label,
      (List.range (lines.get ⟨k, hk⟩).count).map fun j => hexByte (q.packet (macFrameCtrl + (offset lines k + j))),
      nameOf (hexByte (q.packet (macFrameCtrl + offset lines k))) (lines.get ⟨k, hk⟩).shows⟩ ∈ rows := by
  apply rowAt_mem hr hk
  · rw [hexOf_length]
    omega
  · rw [Nat.zero_add]
    exact rowAt_hexOf _ hpos hend

theorem header_lines {rows : List Row} (hr : hex2pkt (hexOf q) = some rows) (hh : q.HoldsNet h)
    (hsize : 30 ≤ q.info.size.toNat) :
    ⟨"uN[N] Pkt Type", [hexByte h.type], some (Hex2pkt.unetPktType (hexByte h.type))⟩ ∈ rows ∧
      ⟨"uN[N] Next Header", [hexByte h.nextHeader], some (unetHeader (hexByte h.nextHeader))⟩ ∈ rows ∧
      ⟨"uN[N] Hop Lim", [hexByte h.hopLimit], none⟩ ∈ rows ∧
      ⟨"uN[N] Payload Len", [hexByte h.payloadLen], none⟩ ∈ rows ∧
      ⟨"uN[N] Source", addrHex h.src64, none⟩ ∈ rows ∧ ⟨"uN[N] Dest", addrHex h.dest64, none⟩ ∈ rows := by
  rw [← hh.type, ← hh.nextHeader, ← hh.hopLimit, ← hh.payloadLen, ← hh.src64, ← hh.dest64]
  refine ⟨?_, ?_, ?_, ?_, ?_, ?_⟩
  · exact line_mem hr 6 (by decide) (by decide) (Nat.le_trans (by decide) hsize)
  · exact line_mem hr 9 (by decide) (by decide) (Nat.le_trans (by decide) hsize)
  · exact line_mem hr 8 (by decide) (by decide) (Nat.le_trans (by decide) hsize)
  · exact line_mem hr 7 (by decide) (by decide) (Nat.le_trans (by decide) hsize)
  · exact line_mem hr 10 (by decide) (by decide) (Nat.le_trans (by decide) hsize)
  · exact line_mem hr 11 (by decide) (by decide) (Nat.le_trans (by decide) hsize)

theorem line_of_label : ∀ k : Fin lines.length,
    ((lines.get k).label = "uN[N] Pkt Type" → k.val = 6) ∧ ((lines.get k).label = "uN[T] D Port" → k.val = 13) := by
  decide

theorem row_of_label {hex : List String} {rows : List Row} {row : Row} (hr : hex2pkt hex = some rows)
    (hmem : row ∈ rows) {k : Nat} (hk : k < lines.length) (happ : row.label ≠ "App")
    (hlabel : ∀ j : Fin lines.length, (lines.get j).label = row.label → j.val = k) :
    rowAt hex (offset lines k) (lines.get ⟨k, hk⟩) = some row := by
  rcases mem_rowsFrom hr hmem with h | ⟨j, hj, hrow⟩
  · exact absurd h happ
  · have hjk : j = k := hlabel ⟨j, hj⟩ (rowAt_shows hrow).1.symm
    subst hjk
    rw [Nat.zero_add] at hrow
    exact hrow

theorem type_line {hex : List String} {rows : List Row} {b name : String} (hr : hex2pkt hex = some rows)
    (hmem : ⟨"uN[N] Pkt Type", [b], some name⟩ ∈ rows) : name = Hex2pkt.unetPktType b := by
  have happ : "uN[N] Pkt Type" ≠ "App" := by decide
  obtain ⟨_, hbytes, hname⟩ := rowAt_shows
    (row_of_label hr hmem (k := 6) (by decide) happ fun j => (line_of_label j).1)
  have hb : b = hex.getD 10 "undefined" := (List.cons.inj hbytes).1
  rw [hb]
  exact Option.some.inj (hname rfl)

theorem destPort_line {hex : List String} {rows : List Row} {b : U8} (hr : hex2pkt hex = some rows)
    (hmem : ⟨"uN[T] D Port", [hexByte b], none⟩ ∈ rows) : 31 < hex.length := by
  have happ : "uN[T] D Port" ≠ "App" := by decide
  obtain ⟨_, hbytes, _⟩ := rowAt_shows
    (row_of_label hr hmem (k := 13) (by decide) happ fun j => (line_of_label j).2)
  have hb : hexByte b = hex.getD 31 "undefined" := (List.cons.inj hbytes).1
  by_contra hc
  rw [List.getD_eq_getElem?_getD, List.getElem?_eq_none (by omega)] at hb
  exact hexByte_ne_undefined b hb

theorem unetPktType_names : ∀ x ∈ typeNames,
    x.value ≠ unicastUp → Hex2pkt.unetPktType (hexByte x.value) = x.script := by
  decide

theorem unetPktType_up : ∀ x ∈ typeNames,
    x.value = unicastUp → Hex2pkt.unetPktType (hexByte unicastUp) ≠ x.script := by
  decide

theorem unetHeader_names : ∀ x ∈ headerNames, unetHeader (hexByte x.value) = x.script := by
  decide

/-- The script shows a frame right if it is not a `UNICAST_UP` packet and has the bytes of its ports. -/
theorem scriptAgrees_iff (hh : q.HoldsNet h) (ha : ∀ x ∈ a, q.ports = x) (htype : ∃ x ∈ typeNames, x.value = h.type)
    (hnext : ∃ x ∈ headerNames, x.value = h.nextHeader) (hsize : a = none → 30 ≤ q.info.size.toNat) :
    ScriptAgrees (hexOf q) h a ↔ h.type ≠ unicastUp ∧ (a ≠ none → 32 ≤ q.info.size.toNat) := by
  constructor
  · rintro ⟨rows, hr, ⟨x, hx, hval, hmem⟩, _, _, _, _, _, hports⟩
    have hname := type_line hr hmem
    refine ⟨fun hup => ?_, fun hsome => ?_⟩
    · rw [hup] at hname hval
      exact unetPktType_up x hx hval hname.symm
    · obtain ⟨y, hy⟩ := Option.ne_none_iff_exists'.mp hsome
      have hdest := destPort_line hr (hports y hy).2
      rw [hexOf_length] at hdest
      exact hdest
  · rintro ⟨hup, happ⟩
    have hlong : 30 ≤ q.info.size.toNat := by
      by_cases hnone : a = none
      · exact hsize hnone
      · exact Nat.le_trans (by decide) (happ hnone)
    obtain ⟨rows, hr⟩ : ∃ rows, hex2pkt (hexOf q) = some rows :=
      hex2pkt_isSome (by rw [hexOf_length]; omega)
    obtain ⟨hty, hnh, hhop, hlen, hsrc, hdest⟩ := header_lines hr hh hlong
    obtain ⟨x, hx, hxval⟩ := htype
    obtain ⟨y, hy, hyval⟩ := hnext
    refine ⟨rows, hr, ⟨x, hx, hxval, ?_⟩, ⟨y, hy, hyval, ?_⟩, hhop, hlen, hsrc, hdest, fun z hz => ?_⟩
    · rw [← unetPktType_names x hx (by rw [hxval]; exact hup), hxval]
      exact hty
    · rw [← unetHeader_names y hy, hyval]
      exact hnh
    · have hend : 32 ≤ q.info.size.toNat := happ (by rintro rfl; cases hz)
      rw [← ha z hz]
      exact ⟨line_mem hr 12 (by decide) (by decide) (Nat.le_trans (by decide) hend),
        line_mem hr 13 (by decide) (by decide) (Nat.le_trans (by decide) hend)⟩

/-! ## The analyzer -/

open MicroNetAnalyzer

theorem unetTypeString_names : ∀ x ∈ typeNames, unetTypeString x.value = x.analyzer := by
  decide

theorem unetNhheaderString_names : ∀ x ∈ headerNames, unetNhheaderString x.value = x.analyzer := by
  decide

/-- The destination is shown right if the test of the source gives the result of its own test. -/
theorem shown_iff (dest src : U16) :
    (if src = broadAddr then Shown.bcast else .addr dest) = (if dest = broadAddr then .bcast else .addr dest) ↔
      (dest = broadAddr ↔ src = broadAddr) := by
  by_cases hs : src = broadAddr
  · by_cases hd : dest = broadAddr
    · simp [hs, hd]
    · simp [hs, hd]
  · by_cases hd : dest = broadAddr
    · simp [hs, hd]
    · simp [hs, hd]

/-- The ports of a frame that has their bytes; the byte after them may be a check byte. -/
theorem analyzeApplication_ports (hsize : 32 ≤ q.info.size.toNat) {type : U8} (htype : type = unicastDown ∨ type = unicastUp)
    (fcs0 fcs1 : U8) :
    ∃ y, analyzeApplication (onAir q fcs0 fcs1) type nextHeaderUnetApp 30 = some (some y) ∧
      y.srcPort = q.ports.src ∧ y.dstPort = q.ports.dest := by
  have hsrc : (onAir q fcs0 fcs1)[30]? = some q.ports.src := onAir_begins fcs0 fcs1 30 (by omega)
  have hdest : (onAir q fcs0 fcs1)[30 + 1]? = some q.ports.dest := onAir_begins fcs0 fcs1 31 (by omega)
  have hlen : 30 + 2 < (onAir q fcs0 fcs1).length := by
    unfold onAir
    rw [List.length_append, frameBytes_length]
    simp only [List.length_cons, List.length_nil]
    omega
  refine ⟨⟨q.ports.src, q.ports.dest, (onAir q fcs0 fcs1)[30 + 2]⟩, ?_, rfl, rfl⟩
  unfold analyzeApplication
  rw [if_pos ⟨rfl, htype⟩, hsrc, hdest, List.getElem?_eq_getElem hlen]
  rfl

theorem analyzerAgrees_iff {data : List U8} {app : Option Application} (hd : Begins data q 30) (hm : q.HoldsMac m)
    (hh : q.HoldsNet h) (htype : ∃ x ∈ typeNames, x.value = h.type)
    (hnext : ∃ x ∈ headerNames, x.value = h.nextHeader)
    (happ : analyzeApplication data h.type h.nextHeader 30 = some app)
    (hports : ∀ x ∈ a, ∃ y, app = some y ∧ y.srcPort = x.src ∧ y.dstPort = x.dest) :
    AnalyzerAgrees data m h a ↔ (m.dest16 = broadAddr ↔ m.src16 = broadAddr) := by
  have heq := analyzePacket_eq hd hm hh
  rw [happ, Option.map_some] at heq
  unfold AnalyzerAgrees
  rw [heq]
  constructor
  · rintro ⟨r, ids, net, hr, hids, _, _, _, _, _, _, _, _, hdst⟩
    cases hr
    cases hids
    exact (shown_iff m.dest16 m.src16).mp hdst
  · intro hcond
    obtain ⟨x, hx, hxval⟩ := htype
    obtain ⟨y, hy, hyval⟩ := hnext
    refine ⟨_, _, _, rfl, rfl, rfl, ⟨x, hx, hxval, ?_⟩, ⟨y, hy, hyval, ?_⟩, rfl, rfl, rfl, rfl, hports, ?_⟩
    · rw [← unetTypeString_names x hx, hxval]
      rfl
    · rw [← unetNhheaderString_names y hy, hyval]
      rfl
    · exact (shown_iff m.dest16 m.src16).mpr hcond

/-! ## Built frames -/

variable {n : Node}

theorem Built.application {x : Ports} (b : Built n q m h (some x)) :
    h.nextHeader = nextHeaderUnetApp ∧ (h.type = unicastDown ∨ h.type = unicastUp) := by
  cases b with
  | downSend => exact ⟨rfl, .inl rfl⟩
  | upSendto => exact ⟨rfl, .inr rfl⟩

theorem Built.control (b : Built n q m h none) :
    h.nextHeader = nextHeaderUnetCtrlMsg ∧ (h.type = broadcastLocalLink ∨ h.type = unicastDown) ∧
      30 ≤ q.info.size.toNat := by
  have hsize := b.size
  cases b with
  | linkPacket dev =>
    obtain ⟨cnt, _, _, hcnt, _⟩ := linkPacketCreate_carries dev n
    exact ⟨rfl, .inl rfl, by omega⟩
  | routerAdv =>
    have hadv : 30 ≤ (frameSize 1).toNat := by decide
    rw [← hsize] at hadv
    exact ⟨rfl, .inr rfl, hadv⟩

theorem frameSize_ge (payloadLen : U8) : 32 ≤ (frameSize payloadLen).toNat ↔ 2 ≤ payloadLen ∧ payloadLen ≤ 225 := by
  unfold frameSize unetNwkHeaderSize unetLlcHeaderSize unetMacHeaderSize
  bv_omega

theorem mem_typeNames {type : U8} (h : type = broadcastLocalLink ∨ type = unicastDown ∨ type = unicastUp) :
    ∃ x ∈ typeNames, x.value = type := by
  rcases h with rfl | rfl | rfl
  · exact ⟨_, List.mem_cons_self, rfl⟩
  · exact ⟨⟨unicastDown, "UNI DOWN", "UNICAST DOWN"⟩, by simp [typeNames], rfl⟩
  · exact ⟨⟨unicastUp, "UNI UP", "UNICAST UP"⟩, by simp [typeNames], rfl⟩

theorem Built.names (b : Built n q m h none) :
    (∃ x ∈ typeNames, x.value = h.type) ∧ ∃ x ∈ headerNames, x.value = h.nextHeader := by
  obtain ⟨hnext, htype, _⟩ := b.control
  exact ⟨mem_typeNames (htype.imp_right .inl), ⟨_, List.mem_cons_self, hnext.symm⟩⟩

theorem Built.analyzerAgrees_iff (b : Built n q m h none) (fcs0 fcs1 : U8) :
    AnalyzerAgrees (onAir q fcs0 fcs1) m h none ↔ (m.dest16 = broadAddr ↔ m.src16 = broadAddr) := by
  obtain ⟨hm, hh⟩ := b.holds
  obtain ⟨hnext, _, hlong⟩ := b.control
  obtain ⟨htype', hnext'⟩ := b.names
  have happ : analyzeApplication (onAir q fcs0 fcs1) h.type h.nextHeader 30 = some none := by
    rw [hnext]
    exact if_neg fun hc => absurd hc.1 (by decide)
  have hd : Begins (onAir q fcs0 fcs1) q 30 := fun k hk => onAir_begins fcs0 fcs1 k (by omega)
  exact Unet4Cooja.analyzerAgrees_iff hd hm hh htype' hnext' happ fun x hx => absurd hx (Option.not_mem_none x)

/-- Both decoders show what the sender has set exactly if the packet is not a `UNICAST_UP` packet, if its 16-bit
source and destination are both the broadcast address or both not, and if the size of a packet with ports
covers them. -/
theorem decoders_agree_iff (b : Built n q m h a) (fcs0 fcs1 : U8) :
    AnalyzerAgrees (onAir q fcs0 fcs1) m h a ∧ ScriptAgrees (hexOf q) h a ↔
      h.type ≠ unicastUp ∧ (m.dest16 = broadAddr ↔ m.src16 = broadAddr) ∧
        (a ≠ none → 2 ≤ h.payloadLen ∧ h.payloadLen ≤ 225) := by
  obtain ⟨hm, hh⟩ := b.holds
  have hsize := b.size
  rw [← frameSize_ge, ← hsize]
  cases a with
  | none =>
    obtain ⟨htype', hnext'⟩ := b.names
    rw [b.analyzerAgrees_iff, scriptAgrees_iff hh (fun x hx => absurd hx (Option.not_mem_none x)) htype' hnext'
      fun _ => b.control.2.2]
    exact ⟨fun hc => ⟨hc.2.1, hc.1, hc.2.2⟩, fun hc => ⟨hc.2.1, hc.1, hc.2.2⟩⟩
  | some x =>
    obtain ⟨hnext, htype⟩ := b.application
    have hports := b.ports
    have htype' : ∃ x ∈ typeNames, x.value = h.type := mem_typeNames (.inr htype)
    have hnext' : ∃ x ∈ headerNames, x.value = h.nextHeader :=
      ⟨⟨nextHeaderUnetApp, "UNET_APP", "UNET APP"⟩, by simp [headerNames], hnext.symm⟩
    have hx : ∀ y ∈ some x, q.ports = y := by
      rintro y hy
      rw [Option.mem_some_iff] at hy
      rw [hports, hy]
    have hscript := scriptAgrees_iff hh hx htype' hnext' nofun
    -- without the bytes of the ports the script is wrong whatever the analyzer shows
    by_cases hlong : 32 ≤ q.info.size.toNat
    · obtain ⟨y, happ, hysrc, hydest⟩ := analyzeApplication_ports hlong htype fcs0 fcs1
      rw [← hnext] at happ
      have hd : Begins (onAir q fcs0 fcs1) q 30 := fun k hk => onAir_begins fcs0 fcs1 k (by omega)
      have hshown : ∀ z ∈ some x, ∃ w, some y = some w ∧ w.srcPort = z.src ∧ w.dstPort = z.dest := by
        intro z hz
        rw [← hx z hz]
        exact ⟨y, rfl, hysrc, hydest⟩
      rw [analyzerAgrees_iff hd hm hh htype' hnext' happ hshown, hscript]
      exact ⟨fun hc => ⟨hc.2.1, hc.1, hc.2.2⟩, fun hc => ⟨hc.2.1, hc.1, hc.2.2⟩⟩
    · constructor
      · rintro ⟨_, hs⟩
        exact absurd ((hscript.mp hs).2 nofun) hlong
      · rintro ⟨_, _, hs⟩
        exact absurd (hs nofun) hlong

end Frames

/-- A node with the address 7 whose neighbour in slot 0, with the address 1, is its parent. -/
def childNode : Node :=
  { (default : Node) with
    addr16L := 7
    neighbourhood := fun _ => { (default : UnetNeighborhood) with addr16b := 1 } }

/-- An own packet of three bytes after the network header on its way down. -/
theorem decoders_agree_down :
    ∃ q m h a, (unetPacketDownSend childNode default 3).2.2 = q ∧
      AnalyzerAgrees (onAir q 0 0) m h a ∧ ScriptAgrees (hexOf q) h a := by
  have hs : unetPacketDownSend childNode default 3 =
      (some .packetSendOk, (unetPacketDownSend childNode default 3).2.1, (unetPacketDownSend childNode default 3).2.2) :=
    rfl
  exact ⟨_, _, _, _, rfl, (decoders_agree_iff (.downSend hs) 0 0).mpr ⟨by decide, by decide, fun _ => by decide⟩⟩

/-- The link packet of the node with the address 7. -/
theorem decoders_differ_link :
    ¬ ∀ (n : Node) (q : Packet) (m : MacHeader) (h : NetHeader) (a : Option Ports), Built n q m h a →
      ∀ fcs0 fcs1, AnalyzerAgrees (onAir q fcs0 fcs1) m h a ∧ ScriptAgrees (hexOf q) h a := by
  intro hall
  have b := Built.linkPacket (n := childNode) .router
  have hsrc := (b.analyzerAgrees_iff 0 0).mp (hall _ _ _ _ _ b 0 0).1
  exact absurd (hsrc.mp rfl) (by decide)

end Unet4Cooja
