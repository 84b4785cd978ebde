import Unet4Cooja.Packet

/-!
# The packet script (`hex2pkt.js`)

* `hexByte` : a byte as `packet_print` prints it;
* `Row`, `rowAt`, `rowsFrom` : the lines that the loop of the script logs, up to its first `break`;
* `hex2pkt` : all of them, unless the script fails on a byte that is not there;
* `mem_rowsFrom`, `rowAt_mem` : what is logged are the lines that begin before the end of the message.
-/

namespace Unet4Cooja
namespace Hex2pkt

def hexDigit (d : Nat) : Char := if d < 10 then Char.ofNat (48 + d) else Char.ofNat (55 + d)

def hexByte (b : U8) : String := String.ofList [hexDigit (b.toNat / 16), hexDigit (b.toNat % 16)]

def unetPktType (type : String) : String :=
  if type = "00" then "BROADCAST"
  else if type = "01" then "UNICAST ACK DOWN"
  else if type = "02" then "UNICAST ACK UP"
  else if type = "05" then "UNICAST DOWN"
  else if type = "00" then "UNICAST UP"
  else if type = "0A" then "MULTICAST ACK UP"
  else if type = "0E" then "MULTICAST UP"
  else ""

def unetHeader (header : String) : String :=
  if header = "3B" then "NONE"
  else if header = "06" then "TCP"
  else if header = "11" then "UDP"
  else if header = "FD" then "UNET CONTROL"
  else if header = "FE" then "UNET APP"
  else if header = "FF" then "RESERVED"
  else ""

/-- How a line shows its bytes: alone, or the byte with the name of its type or of its header. -/
inductive Shows
  | bytes | pktType | header
  deriving DecidableEq, Repr

/-- A line of the loop: its label, the number of bytes it takes from `hex`, and how it shows them. -/
structure Line where
  label : String
  count : Nat
  shows : Shows
  deriving DecidableEq, Repr

def lines : List Line :=
  [⟨"MAC Frame Ctrl", 2, .bytes⟩, ⟨"MAC Seq Num", 1, .bytes⟩, ⟨"MAC PAN ID", 2, .bytes⟩, ⟨"MAC Dest", 2, .bytes⟩,
   ⟨"MAC Source", 2, .bytes⟩, ⟨"LLC", 1, .bytes⟩, ⟨"uN[N] Pkt Type", 1, .pktType⟩,
   ⟨"uN[N] Payload Len", 1, .bytes⟩, ⟨"uN[N] Hop Lim", 1, .bytes⟩, ⟨"uN[N] Next Header", 1, .header⟩,
   ⟨"uN[N] Source", 8, .bytes⟩, ⟨"uN[N] Dest", 8, .bytes⟩, ⟨"uN[T] S Port", 1, .bytes⟩,
   ⟨"uN[T] D Port", 1, .bytes⟩, ⟨"uN[T] App Len", 1, .bytes⟩]

/-- A line that was logged: its label, the bytes after it, and the name after these. -/
structure Row where
  label : String
  bytes : List String
  name : Option String
  deriving DecidableEq, Repr

/-- `hex[i++]` for each of `count` bytes; beyond the end it shows as `undefined`. -/
def bytesAt (hex : List String) (i count : Nat) : List String :=
  (List.range count).map fun j => hex.getD (i + j) "undefined"

/-- The line logged at `hex[i]`. `undefined` has no `equals`. -/
def rowAt (hex : List String) (i : Nat) (l : Line) : Option Row :=
  match l.shows with
  | .bytes => some ⟨l.label, bytesAt hex i l.count, none⟩
  | .pktType => hex[i]?.map fun type => ⟨l.label, bytesAt hex i l.count, some (unetPktType type)⟩
  | .header => hex[i]?.map fun header => ⟨l.label, bytesAt hex i l.count, some (unetHeader header)⟩

def rowsFrom (hex : List String) : Nat → List Line → Option (List Row)
  | i, [] => some [⟨"App", hex.drop i, none⟩]
  | i, l :: ls =>
    match rowAt hex i l with
    | none => none
    | some row => if i + l.count = hex.length then some [row] else (rowsFrom hex (i + l.count) ls).map (row :: ·)

def hex2pkt (hex : List String) : Option (List Row) := rowsFrom hex 0 lines

section
variable {hex : List String} {i : Nat} {l : Line} {ls : List Line} {row : Row} {rows : List Row}

theorem rowAt_shows (h : rowAt hex i l = some row) :
    row.label = l.label ∧ row.bytes = bytesAt hex i l.count ∧
      (l.shows = .pktType → row.name = some (unetPktType (hex.getD i "undefined"))) := by
  unfold rowAt at h
  split at h
  · rename_i hs
    cases h
    exact ⟨rfl, rfl, fun hp => by rw [hs] at hp; cases hp⟩
  · obtain ⟨b, hb, rfl⟩ := Option.map_eq_some_iff.mp h
    refine ⟨rfl, rfl, fun _ => ?_⟩
    rw [List.getD_eq_getElem?_getD, hb]
    rfl
  · rename_i hs
    obtain ⟨b, hb, rfl⟩ := Option.map_eq_some_iff.mp h
    exact ⟨rfl, rfl, fun hp => by rw [hs] at hp; cases hp⟩

def offset (ls : List Line) (k : Nat) : Nat := ((ls.take k).map Line.count).sum

theorem offset_cons (l : Line) (ls : List Line) (k : Nat) : offset (l :: ls) (k + 1) = l.count + offset ls k := by
  simp [offset]

theorem mem_rowsFrom (h : rowsFrom hex i ls = some rows) (hr : row ∈ rows) :
    row.label = "App" ∨ ∃ k, ∃ hk : k < ls.length, rowAt hex (i + offset ls k) (ls.get ⟨k, hk⟩) = some row := by
  induction ls generalizing i rows with
  | nil =>
    cases h
    rw [List.mem_singleton] at hr
    rw [hr]
    exact .inl rfl
  | cons l ls ih =>
    unfold rowsFrom at h
    split at h
    · cases h
    · rename_i row' hrow
      have hfirst : row = row' → row.label = "App" ∨ ∃ k, ∃ hk : k < (l :: ls).length,
          rowAt hex (i + offset (l :: ls) k) ((l :: ls).get ⟨k, hk⟩) = some row := by
        rintro rfl
        exact .inr ⟨0, Nat.succ_pos _, hrow⟩
      split at h
      · cases h
        exact hfirst (List.mem_singleton.mp hr)
      · obtain ⟨rest, hrest, rfl⟩ := Option.map_eq_some_iff.mp h
        rcases List.mem_cons.mp hr with heq | hmem
        · exact hfirst heq
        · rcases ih hrest hmem with happ | ⟨k, hk, hat⟩
          · exact .inl happ
          · refine .inr ⟨k + 1, Nat.succ_lt_succ hk, ?_⟩
            rw [offset_cons, ← Nat.add_assoc]
            exact hat

theorem rowAt_mem (h : rowsFrom hex i ls = some rows) {k : Nat} (hk : k < ls.length)
    (hlt : i + offset ls k < hex.length) (hrow : rowAt hex (i + offset ls k) (ls.get ⟨k, hk⟩) = some row) :
    row ∈ rows := by
  induction ls generalizing i rows k with
  | nil => exact absurd hk (Nat.not_lt_zero k)
  | cons l ls ih =>
    unfold rowsFrom at h
    cases k with
    | zero =>
      have hrow : rowAt hex i l = some row := hrow
      rw [hrow] at h
      dsimp only at h
      split at h
      · cases h
        exact List.mem_singleton_self _
      · obtain ⟨_, _, rfl⟩ := Option.map_eq_some_iff.mp h
        exact List.mem_cons_self
    | succ k =>
      rw [offset_cons, ← Nat.add_assoc] at hlt hrow
      split at h
      · cases h
      · rw [if_neg (by omega)] at h
        obtain ⟨rest, hrest, rfl⟩ := Option.map_eq_some_iff.mp h
        exact List.mem_cons_of_mem _ (ih hrest (Nat.lt_of_succ_lt_succ hk) hlt hrow)

theorem rowAt_isSome (h : l.shows ≠ .bytes → i < hex.length) : ∃ row, rowAt hex i l = some row := by
  unfold rowAt
  split
  · exact ⟨_, rfl⟩
  · rename_i hs
    have hlt := h (by rw [hs]; decide)
    exact ⟨_, by rw [List.getElem?_eq_getElem hlt]; rfl⟩
  · rename_i hs
    have hlt := h (by rw [hs]; decide)
    exact ⟨_, by rw [List.getElem?_eq_getElem hlt]; rfl⟩

/-- The script does not fail if the message has the two bytes whose names it looks up. -/
theorem rowsFrom_isSome
    (h : ∀ k, ∀ hk : k < ls.length, (ls.get ⟨k, hk⟩).shows ≠ .bytes → i + offset ls k < hex.length) :
    ∃ rows, rowsFrom hex i ls = some rows := by
  induction ls generalizing i with
  | nil => exact ⟨_, rfl⟩
  | cons l ls ih =>
    have hfirst : ∃ row, rowAt hex i l = some row := rowAt_isSome (h 0 (Nat.succ_pos _))
    obtain ⟨row, hrow⟩ := hfirst
    obtain ⟨rest, hrest⟩ := ih (i := i + l.count) fun k hk hs => by
      have hlt := h (k + 1) (Nat.succ_lt_succ hk) hs
      rw [offset_cons, ← Nat.add_assoc] at hlt
      exact hlt
    unfold rowsFrom
    rw [hrow, hrest]
    dsimp only
    split
    · exact ⟨_, rfl⟩
    · exact ⟨_, rfl⟩

theorem hex2pkt_isSome (h : 13 < hex.length) : ∃ rows, hex2pkt hex = some rows := by
  have hlines : ∀ k : Fin lines.length, (lines.get k).shows ≠ .bytes → offset lines k ≤ 13 := by decide
  apply rowsFrom_isSome
  intro k hk hs
  have hle : offset lines k ≤ 13 := hlines ⟨k, hk⟩ hs
  omega

theorem hexByte_ne_undefined (b : U8) : hexByte b ≠ "undefined" := by
  intro h
  have hlen := congrArg String.length h
  simp [hexByte] at hlen
  revert hlen
  decide

end

end Hex2pkt
end Unet4Cooja
