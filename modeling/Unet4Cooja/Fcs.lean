import Unet4Cooja.Lib.Crc
import Unet4Cooja.Packet

/-!
# The frame check sequence (`ieee802154.c`)

* `byteReverse`, `ccittCrc16Table`, `ieee802154FcsCalc` : the functions of the source;
* `byteReverse_eq` : the multiplications mirror a byte;
* `ccittCrc16Table_isTable` : each entry of the table is eight shifts of its index;
* `ieee802154FcsCalc_eq` : the result has the two bytes of the bit-serial checksum, exchanged.
-/

namespace Unet4Cooja
open Lib

/-- `byte_reverse`; `unsigned long` has 32 bits. -/
def byteReverse (b : U8) : U8 :=
  let b : U32 := b.setWidth 32
  ((((b * 0x0802 &&& 0x22110) ||| (b * 0x8020 &&& 0x88440)) * 0x10101) >>> 16).setWidth 8

def ccittCrc16Table : List U16 :=
  [0x0000, 0x1021, 0x2042, 0x3063, 0x4084, 0x50a5, 0x60c6, 0x70e7, 0x8108, 0x9129, 0xa14a, 0xb16b,
   0xc18c, 0xd1ad, 0xe1ce, 0xf1ef, 0x1231, 0x0210, 0x3273, 0x2252, 0x52b5, 0x4294, 0x72f7, 0x62d6,
   0x9339, 0x8318, 0xb37b, 0xa35a, 0xd3bd, 0xc39c, 0xf3ff, 0xe3de, 0x2462, 0x3443, 0x0420, 0x1401,
   0x64e6, 0x74c7, 0x44a4, 0x5485, 0xa56a, 0xb54b, 0x8528, 0x9509, 0xe5ee, 0xf5cf, 0xc5ac, 0xd58d,
   0x3653, 0x2672, 0x1611, 0x0630, 0x76d7, 0x66f6, 0x5695, 0x46b4, 0xb75b, 0xa77a, 0x9719, 0x8738,
   0xf7df, 0xe7fe, 0xd79d, 0xc7bc, 0x48c4, 0x58e5, 0x6886, 0x78a7, 0x0840, 0x1861, 0x2802, 0x3823,
   0xc9cc, 0xd9ed, 0xe98e, 0xf9af, 0x8948, 0x9969, 0xa90a, 0xb92b, 0x5af5, 0x4ad4, 0x7ab7, 0x6a96,
   0x1a71, 0x0a50, 0x3a33, 0x2a12, 0xdbfd, 0xcbdc, 0xfbbf, 0xeb9e, 0x9b79, 0x8b58, 0xbb3b, 0xab1a,
   0x6ca6, 0x7c87, 0x4ce4, 0x5cc5, 0x2c22, 0x3c03, 0x0c60, 0x1c41, 0xedae, 0xfd8f, 0xcdec, 0xddcd,
   0xad2a, 0xbd0b, 0x8d68, 0x9d49, 0x7e97, 0x6eb6, 0x5ed5, 0x4ef4, 0x3e13, 0x2e32, 0x1e51, 0x0e70,
   0xff9f, 0xefbe, 0xdfdd, 0xcffc, 0xbf1b, 0xaf3a, 0x9f59, 0x8f78, 0x9188, 0x81a9, 0xb1ca, 0xa1eb,
   0xd10c, 0xc12d, 0xf14e, 0xe16f, 0x1080, 0x00a1, 0x30c2, 0x20e3, 0x5004, 0x4025, 0x7046, 0x6067,
   0x83b9, 0x9398, 0xa3fb, 0xb3da, 0xc33d, 0xd31c, 0xe37f, 0xf35e, 0x02b1, 0x1290, 0x22f3, 0x32d2,
   0x4235, 0x5214, 0x6277, 0x7256, 0xb5ea, 0xa5cb, 0x95a8, 0x8589, 0xf56e, 0xe54f, 0xd52c, 0xc50d,
   0x34e2, 0x24c3, 0x14a0, 0x0481, 0x7466, 0x6447, 0x5424, 0x4405, 0xa7db, 0xb7fa, 0x8799, 0x97b8,
   0xe75f, 0xf77e, 0xc71d, 0xd73c, 0x26d3, 0x36f2, 0x0691, 0x16b0, 0x6657, 0x7676, 0x4615, 0x5634,
   0xd94c, 0xc96d, 0xf90e, 0xe92f, 0x99c8, 0x89e9, 0xb98a, 0xa9ab, 0x5844, 0x4865, 0x7806, 0x6827,
   0x18c0, 0x08e1, 0x3882, 0x28a3, 0xcb7d, 0xdb5c, 0xeb3f, 0xfb1e, 0x8bf9, 0x9bd8, 0xabbb, 0xbb9a,
   0x4a75, 0x5a54, 0x6a37, 0x7a16, 0x0af1, 0x1ad0, 0x2ab3, 0x3a92, 0xfd2e, 0xed0f, 0xdd6c, 0xcd4d,
   0xbdaa, 0xad8b, 0x9de8, 0x8dc9, 0x7c26, 0x6c07, 0x5c64, 0x4c45, 0x3ca2, 0x2c83, 0x1ce0, 0x0cc1,
   0xef1f, 0xff3e, 0xcf5d, 0xdf7c, 0xaf9b, 0xbfba, 0x8fd9, 0x9ff8, 0x6e17, 0x7e36, 0x4e55, 0x5e74,
   0x2e93, 0x3eb2, 0x0ed1, 0x1ef0]

/-- One pass of the loop of `ieee802154_fcs_calc`. -/
def fcsByte (fcs : U16) (data : U8) : U16 :=
  let shortData := byteReverse data
  let tmp := hi fcs ^^^ shortData
  (fcs <<< 8) ^^^ ccittCrc16Table.getD tmp.toNat 0

/-- The loop of `ieee802154_fcs_calc` over `len` bytes from the pointer on. -/
def fcsLoop (fcs : U16) (data : Nat → U8) : Nat → U16
  | 0 => fcs
  | len + 1 => fcsLoop (fcsByte fcs (data 0)) (fun i => data (i + 1)) len

def ieee802154FcsCalc (data : Nat → U8) (len : U8) : U16 :=
  let fcs := fcsLoop 0 data len.toNat
  let tmp2 := byteReverse (hi fcs)
  let tmp3 := byteReverse (lo fcs)
  (tmp2.setWidth 16 <<< 8) ||| tmp3.setWidth 16

/-! ## The register of the other bit order -/

theorem byteReverse_eq (b : U8) : byteReverse b = b.reverse := by
  revert b
  decide +kernel

/-- `x^16 + x^12 + x^5 + 1`, most significant bit first. -/
abbrev ccittPoly : U16 := 0x1021

theorem ccittPoly_reverse : ccittPoly.reverse = 0x8408 := by decide

theorem ccittCrc16Table_isTable : IsTable ccittPoly fun i : U8 => ccittCrc16Table.getD i.toNat 0 := by
  unfold IsTable
  decide +kernel

theorem fcsByte_eq (fcs : U16) (data : U8) :
    fcsByte fcs data = tableWord (fun i : U8 => ccittCrc16Table.getD i.toNat 0) fcs data.reverse := by
  unfold fcsByte tableWord
  rw [byteReverse_eq]
  rfl

theorem fcsLoop_eq (fcs : U16) (data : Nat → U8) (len : Nat) :
    fcsLoop fcs data len =
      crcTable (fun i : U8 => ccittCrc16Table.getD i.toNat 0) fcs ((List.range len).map data) := by
  induction len generalizing fcs data with
  | zero => rfl
  | succ len ih =>
    rw [List.range_succ_eq_map, List.map_cons, List.map_map]
    calc fcsLoop fcs data (len + 1)
        = fcsLoop (fcsByte fcs (data 0)) (fun i => data (i + 1)) len := rfl
      _ = crcTable _ (fcsByte fcs (data 0)) ((List.range len).map fun i => data (i + 1)) := ih _ _
      _ = _ := by rw [fcsByte_eq]; rfl

theorem hi_reverse (x : U16) : hi x.reverse = (lo x).reverse := by
  ext i hi'
  have hpos : 15 - (8 + i) = 7 - i := by omega
  unfold hi lo
  simp [BitVec.getElem_reverse, BitVec.getLsbD_reverse, BitVec.getMsbD_eq_getLsbD, hpos]
  simp [hi', show 8 + i < 16 by omega, show 7 - i < 8 by omega]

theorem lo_reverse (x : U16) : lo x.reverse = (hi x).reverse := by
  ext i hi'
  have hpos : 15 - i = 8 + (7 - i) := by omega
  unfold hi lo
  simp [BitVec.getElem_reverse, BitVec.getLsbD_reverse, BitVec.getMsbD_eq_getLsbD, hpos]
  simp [hi', show i < 16 by omega, show 7 - i < 8 by omega]

theorem bytesToShort_or (h l : U8) : (h.setWidth 16 <<< 8) ||| l.setWidth 16 = bytesToShort h l := by
  unfold bytesToShort
  rw [BitVec.add_eq_or_of_and_eq_zero]
  ext i hi'
  simp
  intro hge _
  exact BitVec.getLsbD_of_ge l i hge

/-- The bit-serial reflected CRC-16-CCITT with initial value 0. -/
def crc16Ccitt (data : List U8) : U16 := crcReflected 0x8408 0 data

/-- The checksum of any bytes is their bit-serial reflected CRC-16-CCITT with its two bytes exchanged. -/
theorem ieee802154FcsCalc_eq (data : Nat → U8) (len : U8) :
    ieee802154FcsCalc data len =
      bytesToShort (lo (crc16Ccitt ((List.range len.toNat).map data)))
        (hi (crc16Ccitt ((List.range len.toNat).map data))) := by
  have hcrc : crc16Ccitt ((List.range len.toNat).map data) = (fcsLoop 0 data len.toNat).reverse := by
    rw [fcsLoop_eq, crcTable_reverse ccittCrc16Table_isTable (by decide), ccittPoly_reverse]
    rfl
  rw [hcrc, hi_reverse, lo_reverse, ← byteReverse_eq, ← byteReverse_eq, ← bytesToShort_or]
  rfl

/-- The check value of the nine digits is 0x2189. -/
example : ieee802154FcsCalc (fun i => BitVec.ofNat 8 (0x31 + i)) 9 = 0x8921 := by decide +kernel

end Unet4Cooja
