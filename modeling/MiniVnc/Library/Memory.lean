import Mathlib.Algebra.Ring.Int.Defs
import Mathlib.Algebra.Ring.Nat
import Mathlib.Data.List.Basic

/-! Byte-addressed memory with big-endian words of any width, and its byte-list images. -/

namespace Library.Memory

/-- A memory block; an address is the offset from the start of the block. -/
abbrev Mem := Nat → UInt8

/-- The `width` bytes from `addr` on, read as one big-endian number. -/
def read (mem : Mem) (addr : Nat) : Nat → Nat
  | 0 => 0
  | width + 1 => read mem addr width * 256 + (mem (addr + width)).toNat

/-- Byte `index` of the big-endian representation of `value` in `width` bytes. -/
def byteOf (value width index : Nat) : UInt8 :=
  UInt8.ofNat (value / 256 ^ (width - 1 - index))

/-- Store `value` big-endian in the `width` bytes from `addr` on. -/
def write (mem : Mem) (addr width value : Nat) : Mem :=
  fun k => if addr ≤ k ∧ k < addr + width then byteOf value width (k - addr) else mem k

/-- A word of `width` bytes is below `256 ^ width`, by induction on the width. -/
theorem read_lt (mem : Mem) (addr width : Nat) : read mem addr width < 256 ^ width := by
  induction width with
  | zero => simp [read]
  | succ width ih =>
      have byte := (mem (addr + width)).toNat_lt
      have step : (read mem addr width + 1) * 256 ≤ 256 ^ width * 256 :=
        Nat.mul_le_mul_right 256 ih
      rw [read, Nat.pow_succ]
      omega

/-- Reading depends only on the bytes of the word. -/
theorem read_congr {left right : Mem} {addr other width : Nat}
    (same : ∀ k < width, left (addr + k) = right (other + k))
    : read left addr width = read right other width := by
  induction width with
  | zero => rfl
  | succ width ih =>
      rw [read, read, ih (fun k hk => same k (Nat.lt_succ_of_lt hk)),
        same width (Nat.lt_succ_self width)]

/-- Splitting a word off its bytes gives the bytes back, by induction on the width. -/
theorem byteOf_read (mem : Mem) (addr width k : Nat) (hk : k < width)
    : byteOf (read mem addr width) width k = mem (addr + k) := by
  induction width with
  | zero => omega
  | succ width ih =>
      have byte := (mem (addr + width)).toNat_lt
      rcases Nat.lt_succ_iff_lt_or_eq.mp hk with earlier | last
      · have shift : width + 1 - 1 - k = (width - 1 - k) + 1 := by omega
        have drop : (read mem addr width * 256 + (mem (addr + width)).toNat)
            / 256 ^ (width - 1 - k + 1) = read mem addr width / 256 ^ (width - 1 - k) := by
          rw [Nat.pow_succ', ← Nat.div_div_eq_div_mul]
          congr 1
          omega
        rw [← ih earlier, byteOf, byteOf, read, shift, drop]
      · subst last
        rw [byteOf, read]
        have zero : k + 1 - 1 - k = 0 := by omega
        rw [zero, Nat.pow_zero, Nat.div_one]
        apply UInt8.toNat_inj.mp
        rw [UInt8.toNat_ofNat']
        omega

/-- A word is determined by its bytes: it reads as `value` exactly when every byte of it
is the byte of `value`. Witness: `byteOf_read` one way, byte-wise congruence the other.
-/
theorem read_eq_iff {mem : Mem} {addr width value : Nat} (fits : value < 256 ^ width)
    : read mem addr width = value ↔ ∀ k < width, mem (addr + k) = byteOf value width k := by
  constructor
  · intro same k hk
    rw [← same, byteOf_read mem addr width k hk]
  · intro same
    induction width generalizing value with
    | zero => simp only [read]; simp at fits; omega
    | succ width ih =>
        have quotient : value / 256 < 256 ^ width := by
          rw [Nat.pow_succ] at fits
          exact Nat.div_lt_of_lt_mul (by rwa [Nat.mul_comm])
        have upper := ih quotient (fun k hk => by
          rw [same k (by omega), byteOf, byteOf, Nat.div_div_eq_div_mul, ← Nat.pow_succ']
          congr 3
          omega)
        have lower : (mem (addr + width)).toNat = value % 256 := by
          rw [same width (by omega), byteOf, UInt8.toNat_ofNat']
          simp
        rw [read, upper, lower]
        omega

/-- A store is invisible outside its bytes. -/
theorem write_outside {mem : Mem} {addr width value k : Nat}
    (outside : k < addr ∨ addr + width ≤ k)
    : write mem addr width value k = mem k := by
  rw [write, if_neg (by omega)]

/-- A store puts the bytes of its value in place. -/
theorem write_inside {mem : Mem} {addr width value k : Nat} (hk : k < width)
    : write mem addr width value (addr + k) = byteOf value width k := by
  rw [write, if_pos (by omega), Nat.add_sub_cancel_left]

-----------------------------------------------------------------------------------------
-- Byte lists in memory
-----------------------------------------------------------------------------------------

/-- The `count` bytes of `mem` from `addr` on. -/
def slice (mem : Mem) (addr count : Nat) : List UInt8 :=
  (List.range count).map (fun k => mem (addr + k))

/-- A block that starts with the bytes of `data`. -/
def load (data : List UInt8) : Mem :=
  fun k => data.getD k 0

/-- Copy `data` over the bytes from `addr` on, as `memcpy` does. -/
def copyIn (mem : Mem) (addr : Nat) (data : List UInt8) : Mem :=
  fun k => if addr ≤ k ∧ k < addr + data.length then data.getD (k - addr) 0 else mem k

@[simp]
theorem slice_length (mem : Mem) (addr count : Nat) : (slice mem addr count).length = count := by
  simp [slice]

@[simp]
theorem slice_zero (mem : Mem) (addr : Nat) : slice mem addr 0 = [] :=
  rfl

/-- A slice splits at any point. -/
theorem slice_add (mem : Mem) (addr first rest : Nat)
    : slice mem addr (first + rest)
      = slice mem addr first ++ slice mem (addr + first) rest := by
  simp [slice, List.range_add, Nat.add_assoc]

/-- A slice of `count` rows of the same width is its rows, by induction on their number. -/
theorem slice_mul (mem : Mem) (addr count width : Nat)
    : slice mem addr (count * width)
      = (List.range count).flatMap fun k => slice mem (addr + k * width) width := by
  induction count with
  | zero => simp
  | succ count ih =>
      rw [Nat.succ_mul, slice_add, ih, List.range_succ, List.flatMap_append]
      simp

/-- A non-empty slice starts with the byte at its address. -/
theorem slice_succ (mem : Mem) (addr count : Nat)
    : slice mem addr (count + 1) = mem addr :: slice mem (addr + 1) count := by
  rw [Nat.add_comm count 1, slice_add]
  rfl

theorem slice_headD (mem : Mem) (addr : Nat) {count : Nat} (positive : 0 < count)
    : (slice mem addr count).headD 0 = mem addr := by
  obtain ⟨rest, rfl⟩ := Nat.exists_eq_succ_of_ne_zero (Nat.ne_of_gt positive)
  rw [slice_succ]
  rfl

/-- Slices agree when the bytes they cover agree. -/
theorem slice_congr {left right : Mem} {addr other count : Nat}
    (same : ∀ k < count, left (addr + k) = right (other + k))
    : slice left addr count = slice right other count := by
  apply List.map_congr_left
  intro k hk
  exact same k (List.mem_range.mp hk)

theorem slice_getElem {mem : Mem} {addr count k : Nat} (hk : k < (slice mem addr count).length)
    : (slice mem addr count)[k] = mem (addr + k) := by
  simp [slice]

theorem slice_getElem? {mem : Mem} {addr count k : Nat} (hk : k < count)
    : (slice mem addr count)[k]? = some (mem (addr + k)) := by
  simp [slice, hk]

/-- Loading a slice reads the same bytes. -/
theorem load_slice {mem : Mem} {addr count k : Nat} (hk : k < count)
    : load (slice mem addr count) k = mem (addr + k) := by
  simp [load, slice, hk]

/-- A whole list is read back from where it was copied to. -/
theorem slice_copyIn (mem : Mem) (addr : Nat) (data : List UInt8)
    : slice (copyIn mem addr data) addr data.length = data := by
  apply List.ext_getElem (by simp)
  intro k hk inside
  rw [slice_getElem, copyIn, if_pos (by omega), Nat.add_sub_cancel_left]
  simp [inside]

/-- Bytes below the target of a copy stay. -/
theorem copyIn_below {mem : Mem} {addr k : Nat} {data : List UInt8} (hk : k < addr)
    : copyIn mem addr data k = mem k := by
  rw [copyIn, if_neg (by omega)]

/-- Bytes inside the target of a copy are those of the data. -/
theorem copyIn_inside {mem : Mem} {addr k : Nat} {data : List UInt8} (inside : k < data.length)
    : copyIn mem addr data (addr + k) = data.getD k 0 := by
  rw [copyIn, if_pos (by omega), Nat.add_sub_cancel_left]

/-- The bytes from `addr` on are those of the list. -/
def Holds (mem : Mem) (addr : Nat) (data : List UInt8) : Prop :=
  slice mem addr data.length = data

theorem holds_append {mem : Mem} {addr : Nat} {first rest : List UInt8}
    : Holds mem addr (first ++ rest)
      ↔ Holds mem addr first ∧ Holds mem (addr + first.length) rest := by
  rw [Holds, List.length_append, slice_add]
  constructor
  · intro held
    exact List.append_inj held (slice_length mem addr first.length)
  · rintro ⟨before, behind⟩
    rw [before, behind]

theorem holds_cons {mem : Mem} {addr : Nat} {byte : UInt8} {rest : List UInt8}
    : Holds mem addr (byte :: rest) ↔ mem addr = byte ∧ Holds mem (addr + 1) rest := by
  rw [Holds, List.length_cons, slice_succ, List.cons.injEq, Holds]

end Library.Memory
