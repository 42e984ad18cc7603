import Mathlib.Data.List.Basic

/-! `keycodes.h`, `keysymdef.h` and `macroman.c`: ADB virtual keycodes, X keysyms, and the map from
keysyms to MacRoman characters.
-/

namespace MiniVnc

/-! ADB virtual keycodes. -/
namespace KeyCode

def command : UInt8 := 55
def shift : UInt8 := 56
def lock : UInt8 := 57
def option : UInt8 := 58
def ctrl : UInt8 := 59

def kpDecimal : UInt8 := 0x41
def kpMultiply : UInt8 := 0x43
def kpPlus : UInt8 := 0x45
def kpDivide : UInt8 := 0x4B
def kpEnter : UInt8 := 0x4C
def kpMinus : UInt8 := 0x4E
def kp0 : UInt8 := 0x52

end KeyCode

def xkKpEnter : UInt32 := 0xff8d
def xkKpMultiply : UInt32 := 0xffaa
def xkKpAdd : UInt32 := 0xffab
def xkKpSubtract : UInt32 := 0xffad
def xkKpDecimal : UInt32 := 0xffae
def xkKpDivide : UInt32 := 0xffaf
def xkKp0 : UInt32 := 0xffb0
def xkKp9 : UInt32 := 0xffb9
def xkShiftL : UInt32 := 0xffe1
def xkShiftR : UInt32 := 0xffe2
def xkControlL : UInt32 := 0xffe3
def xkControlR : UInt32 := 0xffe4
def xkCapsLock : UInt32 := 0xffe5
def xkMetaL : UInt32 := 0xffe7
def xkMetaR : UInt32 := 0xffe8
def xkAltL : UInt32 := 0xffe9
def xkAltR : UInt32 := 0xffea
def xkSuperL : UInt32 := 0xffeb
def xkSuperR : UInt32 := 0xffec
def xkHyperL : UInt32 := 0xffed
def xkHyperR : UInt32 := 0xffee

/-- The initialised elements of `keysyms_ff`. -/
def keysymsFf : List (UInt8 × UInt8) :=
  [
    (0x08, 0x08), (0x09, 0x09), (0x0d, 0x0d), (0x1b, 0x1b), (0xff, 0x7f), (0x50, 0x01),
    (0x51, 0x1c), (0x52, 0x1e), (0x53, 0x1f), (0x54, 0x1d), (0x55, 0x0b), (0x56, 0x0c),
    (0x57, 0x04), (0x63, 0x05), (0x6a, 0x05)
  ]

/-- The initialised elements of `keysyms_00`. -/
def keysyms00 : List (UInt8 × UInt8) :=
  [
    (0xa0, 0xca), (0xa1, 0xc1), (0xa2, 0xa2), (0xa3, 0xa3), (0xa4, 0xdb), (0xa5, 0xb4),
    (0xa7, 0xa4), (0xa8, 0xac), (0xa9, 0xa9), (0xaa, 0xbb), (0xab, 0xc7), (0xac, 0xc2),
    (0xad, 0x2d), (0xae, 0xa8), (0xaf, 0xf8), (0xb0, 0xa1), (0xb1, 0xb1), (0xb4, 0xab),
    (0xb5, 0xb5), (0xb6, 0xa6), (0xb7, 0xe1), (0xb8, 0xfc), (0xba, 0xbc), (0xbb, 0xc8),
    (0xbf, 0xc0), (0xc0, 0xcb), (0xc1, 0xe7), (0xc2, 0xe5), (0xc3, 0xcc), (0xc4, 0x80),
    (0xc5, 0x81), (0xc6, 0xae), (0xc7, 0x82), (0xc8, 0xe9), (0xc9, 0x83), (0xca, 0xe6),
    (0xcb, 0xe8), (0xcc, 0xed), (0xcd, 0xea), (0xce, 0xeb), (0xcf, 0xec), (0xd1, 0x84),
    (0xd2, 0xf1), (0xd3, 0xee), (0xd4, 0xef), (0xd5, 0xcd), (0xd6, 0x85), (0xd8, 0xaf),
    (0xd9, 0xf4), (0xda, 0xf2), (0xdb, 0xf3), (0xdc, 0x86), (0xdf, 0xa7), (0xe0, 0x88),
    (0xe1, 0x87), (0xe2, 0x89), (0xe3, 0x8b), (0xe4, 0x8a), (0xe5, 0x8c), (0xe6, 0xbe),
    (0xe7, 0x8d), (0xe8, 0x8f), (0xe9, 0x8e), (0xea, 0x90), (0xeb, 0x91), (0xec, 0x93),
    (0xed, 0x92), (0xee, 0x94), (0xef, 0x95), (0xf1, 0x96), (0xf2, 0x98), (0xf3, 0x97),
    (0xf4, 0x99), (0xf5, 0x9b), (0xf6, 0x9a), (0xf7, 0xd6), (0xf8, 0xbf), (0xf9, 0x9d),
    (0xfa, 0x9c), (0xfb, 0x9e), (0xfc, 0x9f), (0xff, 0xd8)
  ]

/-- The cases of the switch of `keysym_to_macroman`. -/
def looseBits : List (UInt32 × UInt8) :=
  [
    (0x0af1, 0xa0), (0x0ae6, 0xa5), (0x0ac9, 0xaa), (0x08bd, 0xad), (0x08c2, 0xb0),
    (0x08bc, 0xb2), (0x08be, 0xb3), (0x08ef, 0xb6), (0x07d2, 0xb7), (0x07d0, 0xb8),
    (0x07f0, 0xb9), (0x08bf, 0xba), (0x07d9, 0xbd), (0x08d6, 0xc3), (0x08f6, 0xc4),
    (0x07c4, 0xc6), (0x0aae, 0xc9), (0x13bc, 0xce), (0x13bd, 0xcf), (0x0aaa, 0xd0),
    (0x0aa9, 0xd1), (0x0ad2, 0xd2), (0x0ad3, 0xd3), (0x0ad0, 0xd4), (0x0ad1, 0xd5),
    (0x13be, 0xd9), (0x0af2, 0xe0), (0x0afd, 0xe2), (0x0afe, 0xe3), (0x02b9, 0xf5),
    (0x1002248, 0xc5), (0x10025CA, 0xd7), (0x1002044, 0xda), (0x1002039, 0xdc),
    (0x100203a, 0xdd), (0x100FB01, 0xde), (0x100FB02, 0xdf), (0x100F8FF, 0xf0),
    (0x10002C6, 0xf6), (0x10002DC, 0xf7), (0x10002D8, 0xf9), (0x10002D9, 0xfa),
    (0x10002da, 0xfb), (0x10002DD, 0xfd), (0x10002DB, 0xfe), (0x10002C7, 0xff), (0x20ac, 0xdb)
  ]

/-- The source takes the keysym as an `int`, and no test comes out differently for it. -/
def keysymToMacroman (keysym : UInt32) : UInt8 :=
  if 0x20 ≤ keysym ∧ keysym ≤ 0x7f then
    keysym.toUInt8
  else if keysym &&& 0xff00 = 0xff00 then
    (keysymsFf.lookup (keysym &&& 0xff).toUInt8).getD 0
  else if keysym &&& 0xff00 = 0x0000 then
    (keysyms00.lookup (keysym &&& 0xff).toUInt8).getD 0
  else
    (looseBits.lookup keysym).getD 0

end MiniVnc
