import MiniVnc.Library.Memory

/-! The RFB messages of `vnc_types.h`: C structs in the 68k layout (big-endian, 2-byte
alignment), read in place from memory and written out as the bytes the struct occupies.
-/

namespace MiniVnc
open Library.Memory

/-- An `unsigned short` stored at `p`. -/
def ushortAt (mem : Mem) (p : Nat) : UInt16 := UInt16.ofNat (read mem p 2)

/-- An `unsigned long` stored at `p`. -/
def ulongAt (mem : Mem) (p : Nat) : UInt32 := UInt32.ofNat (read mem p 4)

/-- The two bytes of an `unsigned short`. -/
def ushortBytes (v : UInt16) : List UInt8 := [byteOf v.toNat 2 0, byteOf v.toNat 2 1]

/-- The four bytes of an `unsigned long`. -/
def ulongBytes (v : UInt32) : List UInt8 :=
  [byteOf v.toNat 4 0, byteOf v.toNat 4 1, byteOf v.toNat 4 2, byteOf v.toNat 4 3]

/-- A short whose two bytes are those of `v` is `v`. -/
theorem ushortAt_eq {mem : Mem} {p : Nat} {v : UInt16}
    (high : mem p = byteOf v.toNat 2 0) (low : mem (p + 1) = byteOf v.toNat 2 1)
    : ushortAt mem p = v := by
  have word : read mem p 2 = v.toNat := by
    apply (read_eq_iff v.toNat_lt).mpr
    intro k hk
    rcases k with _ | _ | k
    · exact high
    · exact low
    · omega
  rw [ushortAt, word, UInt16.ofNat_toNat]

/-- A long whose four bytes are those of `v` is `v`. -/
theorem ulongAt_eq {mem : Mem} {p : Nat} {v : UInt32}
    (b0 : mem p = byteOf v.toNat 4 0) (b1 : mem (p + 1) = byteOf v.toNat 4 1)
    (b2 : mem (p + 2) = byteOf v.toNat 4 2) (b3 : mem (p + 3) = byteOf v.toNat 4 3)
    : ulongAt mem p = v := by
  have word : read mem p 4 = v.toNat := by
    apply (read_eq_iff v.toNat_lt).mpr
    intro k hk
    rcases k with _ | _ | _ | _ | k
    · exact b0
    · exact b1
    · exact b2
    · exact b3
    · omega
  rw [ulongAt, word, UInt32.ofNat_toNat]

theorem ushortAt_congr {left right : Mem} {p q : Nat}
    (same : ∀ k < 2, left (p + k) = right (q + k))
    : ushortAt left p = ushortAt right q := by
  rw [ushortAt, ushortAt, read_congr same]

theorem ulongAt_congr {left right : Mem} {p q : Nat}
    (same : ∀ k < 4, left (p + k) = right (q + k))
    : ulongAt left p = ulongAt right q := by
  rw [ulongAt, ulongAt, read_congr same]

/-- Two blocks hold the same `size` bytes at `p` and at `q`. -/
abbrev SameBytes (left right : Mem) (p q size : Nat) : Prop :=
  ∀ k < size, left (p + k) = right (q + k)

/-- A field of two blocks with the same bytes has the same bytes. -/
theorem SameBytes.field {left right : Mem} {p q size : Nat} (same : SameBytes left right p q size)
    (offset : Nat) {width : Nat} (fits : offset + width ≤ size)
    : SameBytes left right (p + offset) (q + offset) width := by
  intro k hk
  have whole := same (offset + k) (by omega)
  simpa only [Nat.add_assoc] using whole

theorem SameBytes.byte {left right : Mem} {p q size : Nat} (same : SameBytes left right p q size)
    (offset : Nat) (fits : offset < size)
    : left (p + offset) = right (q + offset) :=
  same offset fits

theorem SameBytes.ushort {left right : Mem} {p q size : Nat}
    (same : SameBytes left right p q size) (offset : Nat) (fits : offset + 2 ≤ size)
    : ushortAt left (p + offset) = ushortAt right (q + offset) :=
  ushortAt_congr (same.field offset fits)

theorem SameBytes.ulong {left right : Mem} {p q size : Nat}
    (same : SameBytes left right p q size) (offset : Nat) (fits : offset + 4 ≤ size)
    : ulongAt left (p + offset) = ulongAt right (q + offset) :=
  ulongAt_congr (same.field offset fits)

/-- The three padding bytes some of the structs carry. -/
structure Padding where
  first : UInt8
  second : UInt8
  third : UInt8
deriving Repr, DecidableEq

def Padding.at (mem : Mem) (p : Nat) : Padding := ⟨mem p, mem (p + 1), mem (p + 2)⟩

def Padding.bytes (padding : Padding) : List UInt8 :=
  [padding.first, padding.second, padding.third]

/-- The client message types the server knows; the codes 1 and 7 to 255 name none. -/
inductive ClientMessageType where
  | mSetPixelFormat
  | mSetEncodings
  | mFBUpdateRequest
  | mKeyEvent
  | mPointerEvent
  | mClientCutText
deriving Repr, DecidableEq

def ClientMessageType.code : ClientMessageType → UInt8
  | mSetPixelFormat => 0
  | mSetEncodings => 2
  | mFBUpdateRequest => 3
  | mKeyEvent => 4
  | mPointerEvent => 5
  | mClientCutText => 6

def ClientMessageType.ofCode? : UInt8 → Option ClientMessageType
  | 0 => some mSetPixelFormat
  | 2 => some mSetEncodings
  | 3 => some mFBUpdateRequest
  | 4 => some mKeyEvent
  | 5 => some mPointerEvent
  | 6 => some mClientCutText
  | _ => none

@[simp]
theorem ClientMessageType.ofCode?_code (type : ClientMessageType)
    : ofCode? type.code = some type := by
  cases type <;> rfl

theorem ClientMessageType.code_of_ofCode? {byte : UInt8} {type : ClientMessageType}
    (known : ofCode? byte = some type)
    : byte = type.code := by
  unfold ofCode? at known
  split at known <;> simp only [Option.some.injEq, reduceCtorEq] at known <;> subst known <;> rfl

structure VNCRect where
  x : UInt16
  y : UInt16
  w : UInt16
  h : UInt16
deriving Repr, DecidableEq

def VNCRect.at (mem : Mem) (p : Nat) : VNCRect :=
  ⟨ushortAt mem p, ushortAt mem (p + 2), ushortAt mem (p + 4), ushortAt mem (p + 6)⟩

def VNCRect.bytes (rect : VNCRect) : List UInt8 :=
  ushortBytes rect.x ++ ushortBytes rect.y ++ ushortBytes rect.w ++ ushortBytes rect.h

structure VNCPixelFormat where
  bitsPerPixel : UInt8
  depth : UInt8
  bigEndian : UInt8
  trueColour : UInt8
  redMax : UInt16
  greenMax : UInt16
  blueMax : UInt16
  redShift : UInt8
  greenShift : UInt8
  blueShift : UInt8
  padding : Padding
deriving Repr, DecidableEq

def VNCPixelFormat.at (mem : Mem) (p : Nat) : VNCPixelFormat where
  bitsPerPixel := mem p
  depth := mem (p + 1)
  bigEndian := mem (p + 2)
  trueColour := mem (p + 3)
  redMax := ushortAt mem (p + 4)
  greenMax := ushortAt mem (p + 6)
  blueMax := ushortAt mem (p + 8)
  redShift := mem (p + 10)
  greenShift := mem (p + 11)
  blueShift := mem (p + 12)
  padding := .at mem (p + 13)

def VNCPixelFormat.bytes (format : VNCPixelFormat) : List UInt8 :=
  [format.bitsPerPixel, format.depth, format.bigEndian, format.trueColour]
  ++ ushortBytes format.redMax ++ ushortBytes format.greenMax ++ ushortBytes format.blueMax
  ++ [format.redShift, format.greenShift, format.blueShift] ++ format.padding.bytes

structure VNCSetPixFormat where
  message : UInt8
  padding : Padding
  format : VNCPixelFormat
deriving Repr, DecidableEq

def VNCSetPixFormat.at (mem : Mem) (p : Nat) : VNCSetPixFormat :=
  ⟨mem p, .at mem (p + 1), .at mem (p + 4)⟩

def VNCSetPixFormat.bytes (evt : VNCSetPixFormat) : List UInt8 :=
  evt.message :: (evt.padding.bytes ++ evt.format.bytes)

structure VNCSetEncoding where
  message : UInt8
  padding : UInt8
  numberOfEncodings : UInt16
deriving Repr, DecidableEq

def VNCSetEncoding.at (mem : Mem) (p : Nat) : VNCSetEncoding :=
  ⟨mem p, mem (p + 1), ushortAt mem (p + 2)⟩

def VNCSetEncoding.bytes (evt : VNCSetEncoding) : List UInt8 :=
  evt.message :: evt.padding :: ushortBytes evt.numberOfEncodings

structure VNCSetEncodingOne where
  message : UInt8
  padding : UInt8
  numberOfEncodings : UInt16
  encoding : UInt32
deriving Repr, DecidableEq

def VNCSetEncodingOne.at (mem : Mem) (p : Nat) : VNCSetEncodingOne :=
  ⟨mem p, mem (p + 1), ushortAt mem (p + 2), ulongAt mem (p + 4)⟩

structure VNCFBUpdateReq where
  message : UInt8
  incremental : UInt8
  rect : VNCRect
deriving Repr, DecidableEq

def VNCFBUpdateReq.at (mem : Mem) (p : Nat) : VNCFBUpdateReq :=
  ⟨mem p, mem (p + 1), .at mem (p + 2)⟩

def VNCFBUpdateReq.bytes (evt : VNCFBUpdateReq) : List UInt8 :=
  evt.message :: evt.incremental :: evt.rect.bytes

structure VNCKeyEvent where
  message : UInt8
  down : UInt8
  padding : UInt16
  key : UInt32
deriving Repr, DecidableEq

def VNCKeyEvent.at (mem : Mem) (p : Nat) : VNCKeyEvent :=
  ⟨mem p, mem (p + 1), ushortAt mem (p + 2), ulongAt mem (p + 4)⟩

def VNCKeyEvent.bytes (evt : VNCKeyEvent) : List UInt8 :=
  evt.message :: evt.down :: (ushortBytes evt.padding ++ ulongBytes evt.key)

structure VNCPointerEvent where
  message : UInt8
  btnMask : UInt8
  x : UInt16
  y : UInt16
deriving Repr, DecidableEq

def VNCPointerEvent.at (mem : Mem) (p : Nat) : VNCPointerEvent :=
  ⟨mem p, mem (p + 1), ushortAt mem (p + 2), ushortAt mem (p + 4)⟩

def VNCPointerEvent.bytes (evt : VNCPointerEvent) : List UInt8 :=
  evt.message :: evt.btnMask :: (ushortBytes evt.x ++ ushortBytes evt.y)

structure VNCClientCutText where
  message : UInt8
  padding : Padding
  length : UInt32
deriving Repr, DecidableEq

def VNCClientCutText.at (mem : Mem) (p : Nat) : VNCClientCutText :=
  ⟨mem p, .at mem (p + 1), ulongAt mem (p + 4)⟩

def VNCClientCutText.bytes (evt : VNCClientCutText) : List UInt8 :=
  evt.message :: (evt.padding.bytes ++ ulongBytes evt.length)

-----------------------------------------------------------------------------------------
-- A struct is determined by the bytes it occupies
-----------------------------------------------------------------------------------------

section Congruence

variable {left right : Mem} {p q : Nat}

theorem Padding.at_congr (same : SameBytes left right p q 3)
    : Padding.at left p = Padding.at right q := by
  simp only [Padding.at, Padding.mk.injEq]
  exact ⟨same.byte 0 (by omega), same.byte 1 (by omega), same.byte 2 (by omega)⟩

theorem VNCRect.at_congr (same : SameBytes left right p q 8)
    : VNCRect.at left p = VNCRect.at right q := by
  simp only [VNCRect.at, VNCRect.mk.injEq]
  exact ⟨same.ushort 0 (by omega), same.ushort 2 (by omega), same.ushort 4 (by omega),
    same.ushort 6 (by omega)⟩

theorem VNCPixelFormat.at_congr (same : SameBytes left right p q 16)
    : VNCPixelFormat.at left p = VNCPixelFormat.at right q := by
  simp only [VNCPixelFormat.at, VNCPixelFormat.mk.injEq]
  exact ⟨same.byte 0 (by omega), same.byte 1 (by omega), same.byte 2 (by omega),
    same.byte 3 (by omega), same.ushort 4 (by omega), same.ushort 6 (by omega),
    same.ushort 8 (by omega), same.byte 10 (by omega), same.byte 11 (by omega),
    same.byte 12 (by omega), Padding.at_congr (same.field 13 (by omega))⟩

theorem VNCSetPixFormat.at_congr (same : SameBytes left right p q 20)
    : VNCSetPixFormat.at left p = VNCSetPixFormat.at right q := by
  simp only [VNCSetPixFormat.at, VNCSetPixFormat.mk.injEq]
  exact ⟨same.byte 0 (by omega), Padding.at_congr (same.field 1 (by omega)),
    VNCPixelFormat.at_congr (same.field 4 (by omega))⟩

theorem VNCSetEncoding.at_congr (same : SameBytes left right p q 4)
    : VNCSetEncoding.at left p = VNCSetEncoding.at right q := by
  simp only [VNCSetEncoding.at, VNCSetEncoding.mk.injEq]
  exact ⟨same.byte 0 (by omega), same.byte 1 (by omega), same.ushort 2 (by omega)⟩

theorem VNCSetEncodingOne.at_congr (same : SameBytes left right p q 8)
    : VNCSetEncodingOne.at left p = VNCSetEncodingOne.at right q := by
  simp only [VNCSetEncodingOne.at, VNCSetEncodingOne.mk.injEq]
  exact ⟨same.byte 0 (by omega), same.byte 1 (by omega), same.ushort 2 (by omega),
    same.ulong 4 (by omega)⟩

theorem VNCFBUpdateReq.at_congr (same : SameBytes left right p q 10)
    : VNCFBUpdateReq.at left p = VNCFBUpdateReq.at right q := by
  simp only [VNCFBUpdateReq.at, VNCFBUpdateReq.mk.injEq]
  exact ⟨same.byte 0 (by omega), same.byte 1 (by omega),
    VNCRect.at_congr (same.field 2 (by omega))⟩

theorem VNCKeyEvent.at_congr (same : SameBytes left right p q 8)
    : VNCKeyEvent.at left p = VNCKeyEvent.at right q := by
  simp only [VNCKeyEvent.at, VNCKeyEvent.mk.injEq]
  exact ⟨same.byte 0 (by omega), same.byte 1 (by omega), same.ushort 2 (by omega),
    same.ulong 4 (by omega)⟩

theorem VNCPointerEvent.at_congr (same : SameBytes left right p q 6)
    : VNCPointerEvent.at left p = VNCPointerEvent.at right q := by
  simp only [VNCPointerEvent.at, VNCPointerEvent.mk.injEq]
  exact ⟨same.byte 0 (by omega), same.byte 1 (by omega), same.ushort 2 (by omega),
    same.ushort 4 (by omega)⟩

theorem VNCClientCutText.at_congr (same : SameBytes left right p q 8)
    : VNCClientCutText.at left p = VNCClientCutText.at right q := by
  simp only [VNCClientCutText.at, VNCClientCutText.mk.injEq]
  exact ⟨same.byte 0 (by omega), Padding.at_congr (same.field 1 (by omega)),
    same.ulong 4 (by omega)⟩

end Congruence

-----------------------------------------------------------------------------------------
-- Server to client
-----------------------------------------------------------------------------------------

/-- `mFBUpdate` and `mSetCMapEntries`, the server messages that are sent. -/
inductive ServerMessageType where
  | mFBUpdate
  | mSetCMapEntries
deriving Repr, DecidableEq

def ServerMessageType.code : ServerMessageType → UInt8
  | mFBUpdate => 0
  | mSetCMapEntries => 1

/-- `mRawEncoding` -/
def mRawEncoding : UInt32 := 0

structure VNCColour where
  red : UInt16
  green : UInt16
  blue : UInt16
deriving Repr, DecidableEq

def VNCColour.bytes (colour : VNCColour) : List UInt8 :=
  ushortBytes colour.red ++ ushortBytes colour.green ++ ushortBytes colour.blue

structure VNCSetColourMapHeader where
  message : UInt8
  padding : UInt8
  firstColour : UInt16
  numColours : UInt16
deriving Repr, DecidableEq

def VNCSetColourMapHeader.bytes (hdr : VNCSetColourMapHeader) : List UInt8 :=
  [hdr.message, hdr.padding] ++ ushortBytes hdr.firstColour ++ ushortBytes hdr.numColours

structure VNCFBUpdate where
  message : UInt8
  padding : UInt8
  numRects : UInt16
  rect : VNCRect
  encodingType : UInt32
deriving Repr, DecidableEq

def VNCFBUpdate.bytes (hdr : VNCFBUpdate) : List UInt8 :=
  [hdr.message, hdr.padding] ++ ushortBytes hdr.numRects ++ hdr.rect.bytes
    ++ ulongBytes hdr.encodingType

/-- `sizeof` of the struct a message type is dispatched as. A SetEncodings message starts
with the four-byte `VNCSetEncoding`; `sizeofVNCSetEncodingOne` follows below.
-/
def ClientMessageType.sizeof : ClientMessageType → Nat
  | mSetPixelFormat => 20
  | mSetEncodings => 4
  | mFBUpdateRequest => 10
  | mKeyEvent => 8
  | mPointerEvent => 6
  | mClientCutText => 8

/-- `sizeof(VNCSetEncodingOne)`. -/
def sizeofVNCSetEncodingOne : Nat := 8

/-- `sizeof(VNCClientMessages)`, the union all of these are received into. -/
def sizeofVNCClientMessages : Nat := 20

end MiniVnc
