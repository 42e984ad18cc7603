import MiniVnc.Library.Memory

/-! The expansion tables of `luts.c`: one source byte, or half of one, as the 8-bit pixels it
holds.
-/

namespace MiniVnc
open Library.Memory

/-- Four 1-bit pixels. -/
def lut1bit : List Nat :=
  [
    0x00000000, 0x00000001, 0x00000100, 0x00000101,
    0x00010000, 0x00010001, 0x00010100, 0x00010101,
    0x01000000, 0x01000001, 0x01000100, 0x01000101,
    0x01010000, 0x01010001, 0x01010100, 0x01010101
  ]

/-- Four 2-bit pixels. -/
def lut2bit : List Nat :=
  [
    0x00000000, 0x00000001, 0x00000002, 0x00000003, 0x00000100, 0x00000101, 0x00000102, 0x00000103,
    0x00000200, 0x00000201, 0x00000202, 0x00000203, 0x00000300, 0x00000301, 0x00000302, 0x00000303,
    0x00010000, 0x00010001, 0x00010002, 0x00010003, 0x00010100, 0x00010101, 0x00010102, 0x00010103,
    0x00010200, 0x00010201, 0x00010202, 0x00010203, 0x00010300, 0x00010301, 0x00010302, 0x00010303,
    0x00020000, 0x00020001, 0x00020002, 0x00020003, 0x00020100, 0x00020101, 0x00020102, 0x00020103,
    0x00020200, 0x00020201, 0x00020202, 0x00020203, 0x00020300, 0x00020301, 0x00020302, 0x00020303,
    0x00030000, 0x00030001, 0x00030002, 0x00030003, 0x00030100, 0x00030101, 0x00030102, 0x00030103,
    0x00030200, 0x00030201, 0x00030202, 0x00030203, 0x00030300, 0x00030301, 0x00030302, 0x00030303,
    0x01000000, 0x01000001, 0x01000002, 0x01000003, 0x01000100, 0x01000101, 0x01000102, 0x01000103,
    0x01000200, 0x01000201, 0x01000202, 0x01000203, 0x01000300, 0x01000301, 0x01000302, 0x01000303,
    0x01010000, 0x01010001, 0x01010002, 0x01010003, 0x01010100, 0x01010101, 0x01010102, 0x01010103,
    0x01010200, 0x01010201, 0x01010202, 0x01010203, 0x01010300, 0x01010301, 0x01010302, 0x01010303,
    0x01020000, 0x01020001, 0x01020002, 0x01020003, 0x01020100, 0x01020101, 0x01020102, 0x01020103,
    0x01020200, 0x01020201, 0x01020202, 0x01020203, 0x01020300, 0x01020301, 0x01020302, 0x01020303,
    0x01030000, 0x01030001, 0x01030002, 0x01030003, 0x01030100, 0x01030101, 0x01030102, 0x01030103,
    0x01030200, 0x01030201, 0x01030202, 0x01030203, 0x01030300, 0x01030301, 0x01030302, 0x01030303,
    0x02000000, 0x02000001, 0x02000002, 0x02000003, 0x02000100, 0x02000101, 0x02000102, 0x02000103,
    0x02000200, 0x02000201, 0x02000202, 0x02000203, 0x02000300, 0x02000301, 0x02000302, 0x02000303,
    0x02010000, 0x02010001, 0x02010002, 0x02010003, 0x02010100, 0x02010101, 0x02010102, 0x02010103,
    0x02010200, 0x02010201, 0x02010202, 0x02010203, 0x02010300, 0x02010301, 0x02010302, 0x02010303,
    0x02020000, 0x02020001, 0x02020002, 0x02020003, 0x02020100, 0x02020101, 0x02020102, 0x02020103,
    0x02020200, 0x02020201, 0x02020202, 0x02020203, 0x02020300, 0x02020301, 0x02020302, 0x02020303,
    0x02030000, 0x02030001, 0x02030002, 0x02030003, 0x02030100, 0x02030101, 0x02030102, 0x02030103,
    0x02030200, 0x02030201, 0x02030202, 0x02030203, 0x02030300, 0x02030301, 0x02030302, 0x02030303,
    0x03000000, 0x03000001, 0x03000002, 0x03000003, 0x03000100, 0x03000101, 0x03000102, 0x03000103,
    0x03000200, 0x03000201, 0x03000202, 0x03000203, 0x03000300, 0x03000301, 0x03000302, 0x03000303,
    0x03010000, 0x03010001, 0x03010002, 0x03010003, 0x03010100, 0x03010101, 0x03010102, 0x03010103,
    0x03010200, 0x03010201, 0x03010202, 0x03010203, 0x03010300, 0x03010301, 0x03010302, 0x03010303,
    0x03020000, 0x03020001, 0x03020002, 0x03020003, 0x03020100, 0x03020101, 0x03020102, 0x03020103,
    0x03020200, 0x03020201, 0x03020202, 0x03020203, 0x03020300, 0x03020301, 0x03020302, 0x03020303,
    0x03030000, 0x03030001, 0x03030002, 0x03030003, 0x03030100, 0x03030101, 0x03030102, 0x03030103,
    0x03030200, 0x03030201, 0x03030202, 0x03030203, 0x03030300, 0x03030301, 0x03030302, 0x03030303
  ]

/-- Two 4-bit pixels. -/
def lut4bit : List Nat :=
  [
    0x0000, 0x0001, 0x0002, 0x0003, 0x0004, 0x0005, 0x0006, 0x0007,
    0x0008, 0x0009, 0x000a, 0x000b, 0x000c, 0x000d, 0x000e, 0x000f,
    0x0100, 0x0101, 0x0102, 0x0103, 0x0104, 0x0105, 0x0106, 0x0107,
    0x0108, 0x0109, 0x010a, 0x010b, 0x010c, 0x010d, 0x010e, 0x010f,
    0x0200, 0x0201, 0x0202, 0x0203, 0x0204, 0x0205, 0x0206, 0x0207,
    0x0208, 0x0209, 0x020a, 0x020b, 0x020c, 0x020d, 0x020e, 0x020f,
    0x0300, 0x0301, 0x0302, 0x0303, 0x0304, 0x0305, 0x0306, 0x0307,
    0x0308, 0x0309, 0x030a, 0x030b, 0x030c, 0x030d, 0x030e, 0x030f,
    0x0400, 0x0401, 0x0402, 0x0403, 0x0404, 0x0405, 0x0406, 0x0407,
    0x0408, 0x0409, 0x040a, 0x040b, 0x040c, 0x040d, 0x040e, 0x040f,
    0x0500, 0x0501, 0x0502, 0x0503, 0x0504, 0x0505, 0x0506, 0x0507,
    0x0508, 0x0509, 0x050a, 0x050b, 0x050c, 0x050d, 0x050e, 0x050f,
    0x0600, 0x0601, 0x0602, 0x0603, 0x0604, 0x0605, 0x0606, 0x0607,
    0x0608, 0x0609, 0x060a, 0x060b, 0x060c, 0x060d, 0x060e, 0x060f,
    0x0700, 0x0701, 0x0702, 0x0703, 0x0704, 0x0705, 0x0706, 0x0707,
    0x0708, 0x0709, 0x070a, 0x070b, 0x070c, 0x070d, 0x070e, 0x070f,
    0x0800, 0x0801, 0x0802, 0x0803, 0x0804, 0x0805, 0x0806, 0x0807,
    0x0808, 0x0809, 0x080a, 0x080b, 0x080c, 0x080d, 0x080e, 0x080f,
    0x0900, 0x0901, 0x0902, 0x0903, 0x0904, 0x0905, 0x0906, 0x0907,
    0x0908, 0x0909, 0x090a, 0x090b, 0x090c, 0x090d, 0x090e, 0x090f,
    0x0a00, 0x0a01, 0x0a02, 0x0a03, 0x0a04, 0x0a05, 0x0a06, 0x0a07,
    0x0a08, 0x0a09, 0x0a0a, 0x0a0b, 0x0a0c, 0x0a0d, 0x0a0e, 0x0a0f,
    0x0b00, 0x0b01, 0x0b02, 0x0b03, 0x0b04, 0x0b05, 0x0b06, 0x0b07,
    0x0b08, 0x0b09, 0x0b0a, 0x0b0b, 0x0b0c, 0x0b0d, 0x0b0e, 0x0b0f,
    0x0c00, 0x0c01, 0x0c02, 0x0c03, 0x0c04, 0x0c05, 0x0c06, 0x0c07,
    0x0c08, 0x0c09, 0x0c0a, 0x0c0b, 0x0c0c, 0x0c0d, 0x0c0e, 0x0c0f,
    0x0d00, 0x0d01, 0x0d02, 0x0d03, 0x0d04, 0x0d05, 0x0d06, 0x0d07,
    0x0d08, 0x0d09, 0x0d0a, 0x0d0b, 0x0d0c, 0x0d0d, 0x0d0e, 0x0d0f,
    0x0e00, 0x0e01, 0x0e02, 0x0e03, 0x0e04, 0x0e05, 0x0e06, 0x0e07,
    0x0e08, 0x0e09, 0x0e0a, 0x0e0b, 0x0e0c, 0x0e0d, 0x0e0e, 0x0e0f,
    0x0f00, 0x0f01, 0x0f02, 0x0f03, 0x0f04, 0x0f05, 0x0f06, 0x0f07,
    0x0f08, 0x0f09, 0x0f0a, 0x0f0b, 0x0f0c, 0x0f0d, 0x0f0e, 0x0f0f
  ]

/-- Field `index` of a source byte that holds pixels of `depth` bits, the first of them in the
most significant bits.
-/
def bitField (depth source index : Nat) : UInt8 :=
  UInt8.ofNat (source / 2 ^ (8 - depth - depth * index) % 2 ^ depth)

/-- Both halves of a byte, looked up in the table, are its eight pixels. -/
theorem lut1bit_bytes
    : ∀ source < 256, ∀ k < 4,
        byteOf (lut1bit.getD (source / 16) 0) 4 k = bitField 1 source k
        ∧ byteOf (lut1bit.getD (source % 16) 0) 4 k = bitField 1 source (4 + k) := by
  decide +kernel

/-- What holds of every entry beside its index holds of the look-up at an index. -/
theorem getD_bytes {table : List Nat} {width depth : Nat}
    (entries
      : ∀ entry ∈ table.zipIdx,
          ∀ k < width, byteOf entry.1 width k = bitField depth entry.2 k)
    {source : Nat} (inside : source < table.length)
    : ∀ k < width, byteOf (table.getD source 0) width k = bitField depth source k := by
  have found : (table[source], source) ∈ table.zipIdx := by
    apply List.mem_zipIdx_iff_getElem?.mpr
    exact List.getElem?_eq_getElem inside
  have looked : table.getD source 0 = table[source] := by simp [inside]
  rw [looked]
  exact entries _ found

theorem lut2bit_bytes {source : Nat} (byte : source < 256)
    : ∀ k < 4, byteOf (lut2bit.getD source 0) 4 k = bitField 2 source k := by
  have length : lut2bit.length = 256 := by decide +kernel
  exact getD_bytes (by decide +kernel) (length ▸ byte)

theorem lut4bit_bytes {source : Nat} (byte : source < 256)
    : ∀ k < 2, byteOf (lut4bit.getD source 0) 2 k = bitField 4 source k := by
  have length : lut4bit.length = 256 := by decide +kernel
  exact getD_bytes (by decide +kernel) (length ▸ byte)

/-- A bound on a table's entries bounds every look-up in it. -/
theorem getD_lt {table : List Nat} {bound : Nat} (positive : 0 < bound)
    (entries : ∀ entry ∈ table, entry < bound) (index : Nat)
    : table.getD index 0 < bound := by
  rw [List.getD_eq_getElem?_getD]
  cases found : table[index]? with
  | none => exact positive
  | some entry => exact entries entry (List.mem_of_getElem? found)

theorem lut1bit_lt (index : Nat) : lut1bit.getD index 0 < 256 ^ 4 :=
  getD_lt (by decide) (by decide +kernel) index

theorem lut2bit_lt (index : Nat) : lut2bit.getD index 0 < 256 ^ 4 :=
  getD_lt (by decide) (by decide +kernel) index

theorem lut4bit_lt (index : Nat) : lut4bit.getD index 0 < 256 ^ 2 :=
  getD_lt (by decide) (by decide +kernel) index

end MiniVnc
