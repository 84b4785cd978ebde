import Unet4Cooja.Packet

/-!
# Formatted output (`stdio.c`, `drivers.c`)

* `CString`, `VaArg` : what the arguments of `print` are;
* `putc`, `putstring`, `xtoa`, `puth` : the helpers, with what they return and the bytes that have been put;
* `printSwitch`, `printPrecision`, `printConversion`, `printLoop`, `print` : the function;
* `none` is a read of the format beyond the memory that is given.

An `int` has 16 bits, a `long` 32. `pad` is written only.
-/

namespace Unet4Cooja

/-- A character as a `char`. -/
def ascii (c : Char) : U8 := BitVec.ofNat 8 c.toNat

/-! ## Arguments -/

/-- The memory a `char *` points to, where the string in it ends at `strlen`. -/
structure CString where
  chars : Nat → U8
  strlen : Nat
  ends : chars strlen = 0
  before : ∀ k < strlen, chars k ≠ 0

def CString.bytes (s : CString) : List U8 := (List.range s.strlen).map s.chars

/-- An argument, as `va_arg` reads it with each of the types. -/
structure VaArg where
  int : U16
  long : U32
  string : CString

/-! ## Helpers -/

def dv : List U32 := [1000000000, 100000000, 10000000, 1000000, 100000, 10000, 1000, 100, 10, 1]

/-- `putchar`: the byte is sent, and 1 returned. -/
def putchar (c : U8) (bytes : List U8) : U16 × List U8 := (1, bytes ++ [c])

/-- `putc`; `out` tells whether there is a defined output. -/
def putc (out : Bool) (c : U8) (bytes : List U8) : U16 × List U8 :=
  if out then (1, bytes ++ [c]) else putchar c bytes

/-- The loop of `putstring` over the bytes before the NUL. -/
def putstringLoop (out : Bool) : List U8 → U16 × List U8 → U16 × List U8
  | [], r => r
  | c :: s, (width, bytes) => putstringLoop out s (width + 1, (putc out c bytes).2)

def putstring (out : Bool) (s : CString) (bytes : List U8) : U16 × List U8 := putstringLoop out s.bytes (0, bytes)

/-- `while (x >= d) ++c, x -= d;`, at most so many rounds. -/
def xtoaDigit (d : U32) : Nat → U8 → U32 → U8 × U32
  | 0, c, x => (c, x)
  | n + 1, c, x => if d ≤ x then xtoaDigit d n (c + 1) (x - d) else (c, x)

/-- The loop of `xtoa` that ends with an odd power; `dv` has one at its end. -/
def xtoaLoop (out : Bool) : List U32 → U32 → U16 × List U8 → U16 × List U8
  | [], _, r => r
  | d :: dp, x, (size, bytes) =>
    let (c, x) := xtoaDigit d x.toNat (ascii '0') x
    let (n, bytes) := putc out c bytes
    if d &&& 1 = 0 then xtoaLoop out dp x (size + n, bytes) else (size + n, bytes)

def xtoa (out : Bool) (x : U32) (dp : List U32) (bytes : List U8) : U16 × List U8 :=
  if x ≠ 0 then xtoaLoop out (dp.dropWhile fun d => x < d) x (0, bytes) else putc out (ascii '0') bytes

def hex : List U8 := "0123456789abcdef".toList.map ascii

/-- `HEX`. -/
def upperHex : List U8 := "0123456789ABCDEF".toList.map ascii

def puth (out : Bool) (n : U16) (format : U8) (bytes : List U8) : U16 × List U8 :=
  let digits := if format = ascii 'X' then upperHex else hex
  (1, (putc out (digits.getD (n &&& 15).toNat 0) bytes).2)

/-! ## The function -/

/-- The variables of `print`: `size`, the bytes that have been put, and how many arguments have been read. -/
structure PrintState where
  size : U16
  bytes : List U8
  next : Nat
  deriving DecidableEq

/-- `size += f(out, ...)`. -/
def PrintState.put (s : PrintState) (f : List U8 → U16 × List U8) : PrintState :=
  { s with size := s.size + (f s.bytes).1, bytes := (f s.bytes).2 }

/-- `va_arg` has read the next argument. -/
def PrintState.skip (s : PrintState) (n : Nat) : PrintState := { s with next := s.next + n }

section
variable (out : Bool) (args : Nat → VaArg)

/-- `while(width-- > 0) size += puth(out, i >> (width*4), c);`. -/
def hexWidthLoop (i : U16) (c : U8) : Nat → PrintState → PrintState
  | 0, s => s
  | width + 1, s => hexWidthLoop i c width (s.put (puth out (i.sshiftRight (width * 4)) c))

/-- `do { size += puth(out, i%16, c); i /= 16; } while(i>0);`, at most so many rounds. -/
def hexLoop (c : U8) : Nat → U16 → PrintState → PrintState
  | 0, _, s => s
  | n + 1, i, s =>
    let s := s.put (puth out (i.srem 16) c)
    let i := i.sdiv 16
    if (0 : U16).slt i then hexLoop c n i s else s

/-- `-` before a negative number; `i` becomes what is left to convert. -/
def putSign {w : Nat} (signed : Bool) (i : BitVec w) (s : PrintState) : BitVec w × PrintState :=
  if signed ∧ i.slt 0 then (-i, s.put (putc out (ascii '-'))) else (i, s)

/-- The cases of the `switch` but `'.'` and 0; `default` is `bad_fmt`. -/
def printSwitch (c : U8) (width : U16) (s : PrintState) : PrintState :=
  let a := args s.next
  if c = ascii 'x' ∨ c = ascii 'X' then
    let s := s.skip 1
    if (0 : U16).slt width then hexWidthLoop out a.int c width.toNat s else hexLoop out c 4 a.int s
  else if c = ascii 's' then (s.skip 1).put (putstring out a.string)
  else if c = ascii 'c' then (s.skip 1).put (putc out (a.int.setWidth 8))
  else if c = ascii 'd' then
    let (i, s) := putSign out true a.int (s.skip 1)
    s.put (xtoa out (i.setWidth 32) (dv.drop 5))
  else if c = ascii 'i' ∨ c = ascii 'u' then
    let (i, s) := putSign out (c = ascii 'i') a.int (s.skip 1)
    s.put (xtoa out (i.setWidth 32) (dv.drop 5))
  else if c = ascii 'l' ∨ c = ascii 'n' then
    let (n, s) := putSign out (c = ascii 'l') a.long (s.skip 1)
    s.put (xtoa out n dv)
  else if c = ascii 'p' then
    let (n, s) := putSign out (c = ascii 'l') a.long (s.skip 1)
    s.put (xtoa out n dv)
  else s.put (putc out c)

/-- `for(;length>0;length--)` with `*s`, which is at the `k`-th byte. -/
def countedLoop (chars : Nat → U8) : Nat → Nat → PrintState → PrintState
  | 0, _, s => s
  | length + 1, k, s => countedLoop chars length (k + 1) (s.put (putc out (chars k)))

/-- The case `'.'`. -/
def printPrecision (format : List U8) (s : PrintState) : Option (List U8 × PrintState) :=
  match format with
  | [] => none
  | c :: format =>
    if c = ascii '*' then
      match format with
      | [] => none
      | c :: format =>
        if c = ascii 's' then
          let length := (args s.next).int.toNat
          let chars := (args (s.next + 1)).string.chars
          some (format, countedLoop out chars length 0 (s.skip 2))
        else some (format, s)
    else some (format, s)

/-- The loop over the zeros of a conversion. -/
def skipZeros : List U8 → Option (List U8)
  | [] => none
  | c :: format => if c = ascii '0' then skipZeros format else some (c :: format)

/-- The loop that reads `width`. -/
def readWidth (width : U16) : List U8 → Option (U16 × List U8)
  | [] => none
  | c :: format =>
    if ascii '0' ≤ c ∧ c ≤ ascii '9' then readWidth (width * 10 + (c - ascii '0').setWidth 16) format
    else some (width, c :: format)

/-- A conversion after its `%`, with the rest of the format; there is none for `goto end`. -/
def printConversion (format : List U8) (s : PrintState) : Option (Option (List U8) × PrintState) := do
  let format ← skipZeros format
  let (width, format) ← readWidth 0 format
  match format with
  | [] => none
  | c :: format =>
    if c = ascii '.' then
      let (format, s) ← printPrecision out args format s
      return (some format, s)
    else if c = 0 then return (none, s)
    else return (some format, printSwitch out args c width s)

/-- The loop of `print`, at most so many rounds; each reads a byte of the format. -/
def printLoop : Nat → List U8 → PrintState → Option PrintState
  | _, [], _ => none
  | 0, _ :: _, _ => none
  | n + 1, c :: format, s =>
    if c = 0 then some s
    else if c = ascii '%' then
      match printConversion out args format s with
      | none => none
      | some (none, s) => some s
      | some (some format, s) => printLoop n format s
    else printLoop n format (s.put (putc out c))

/-- `print`, where `format` is the memory from the format on. -/
def print (format : List U8) : Option PrintState :=
  (printLoop out args format.length format ⟨0, [], 0⟩).map fun s => s.put (putc out 0)

end

end Unet4Cooja
