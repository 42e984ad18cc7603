import MiniVnc.FrameBuffer.Luts
import MiniVnc.Library.Loop

/-! The `fb_copy_n_row` functions: one row of the hardware framebuffer is copied into the
8-bit frame, and the part of it that was different is noted.
-/

namespace MiniVnc
open Library.Memory Library.Loop

/-- What a row copy leaves: the frame it wrote to, its result and `*xstart_`, `*xend_`. -/
structure RowCopy where
  frame : Mem
  changed : Bool
  xstart : Int
  xend : Int

/-- The locals of a row copy before the loop; `xend` is not initialised. -/
def RowCopy.start (frame : Mem) (uninitialised : Int) : RowCopy where
  frame := frame
  changed := false
  xstart := -1
  xend := uninitialised

/-- Compare word `i` of the row at `dst` with `pixes`, its `size` pixels, and store them when
they are different.
-/
def copyWord (dst size i pixes : Nat) (row : RowCopy) : RowCopy :=
  if read row.frame (dst + i * size) size ≠ pixes then
    { frame := write row.frame (dst + i * size) size pixes
      changed := if row.xstart = -1 then true else row.changed
      xstart := if row.xstart = -1 then (i * size : Nat) else row.xstart
      xend := (i * size + (size - 1) : Nat) }
  else
    row

/-- The loop body of `fb_copy_8_row`, which sets `changed` at every difference. -/
def copyWord8 (dst src : Nat) (screen : Mem) (i : Nat) (row : RowCopy) : RowCopy :=
  if read row.frame (dst + i * 4) 4 ≠ read screen (src + i * 4) 4 then
    { frame := write row.frame (dst + i * 4) 4 (read screen (src + i * 4) 4)
      changed := true
      xstart := if row.xstart < 0 then (i * 4 : Nat) else row.xstart
      xend := (i * 4 + 3 : Nat) } -- last byte of this int
  else
    row

/-- A row function: from the frame and the screen, row offsets `dst` and `src` in them, and
the width. The last argument is what the uninitialised `xend` holds.
-/
abbrev CopyRow := Mem → Mem → Nat → Nat → Nat → Int → RowCopy

def fbCopy8Row : CopyRow := fun frame screen dst src width uninitialised =>
  upTo (copyWord8 dst src screen) (.start frame uninitialised) (width / 4)

def fbCopy1Row : CopyRow := fun frame screen dst src width uninitialised =>
  upTo
    (fun i row =>
      let pixes1 := lut1bit.getD ((screen (src + i)).toNat / 16) 0
      let pixes2 := lut1bit.getD ((screen (src + i)).toNat % 16) 0
      copyWord dst 4 (i * 2 + 1) pixes2 (copyWord dst 4 (i * 2) pixes1 row))
    (.start frame uninitialised) (width / 8)

def fbCopy2Row : CopyRow := fun frame screen dst src width uninitialised =>
  upTo (fun i => copyWord dst 4 i (lut2bit.getD (screen (src + i)).toNat 0))
    (.start frame uninitialised) (width / 4)

def fbCopy4Row : CopyRow := fun frame screen dst src width uninitialised =>
  upTo (fun i => copyWord dst 2 i (lut4bit.getD (screen (src + i)).toNat 0))
    (.start frame uninitialised) (width / 2)

/-- The row function for a pixel size, as far as there is one. -/
def copyRow? (vpPixelSize : Nat) : Option CopyRow :=
  if vpPixelSize = 1 then some fbCopy1Row
  else if vpPixelSize = 2 then some fbCopy2Row
  else if vpPixelSize = 4 then some fbCopy4Row
  else if vpPixelSize = 8 then some fbCopy8Row
  else none

/-- Pixel `x` of the row at `src`, of `depth` bits, the first pixel of a byte in its most
significant bits.
-/
def pixel (depth : Nat) (screen : Mem) (src x : Nat) : UInt8 :=
  bitField depth (screen (src + x / (8 / depth))).toNat (x % (8 / depth))

/-- The copy granule: so many pixels are compared at once. -/
def granule (depth : Nat) : Nat := if depth = 4 then 2 else 4

/-- The part of a row of `width` pixels that is copied: whole source words only. -/
def coveredWidth (depth width : Nat) : Nat :=
  if depth = 1 then width / 8 * 8
  else if depth = 4 then width / 2 * 2
  else width / 4 * 4

-----------------------------------------------------------------------------------------
-- What a row copy does
-----------------------------------------------------------------------------------------

/-- The pixels of a row up to `count` that share a granule with one that is different. -/
def touched (size : Nat) (old new : Nat → UInt8) (count : Nat) : Set Nat :=
  {x | x < count ∧ ∃ x', x' / size = x / size ∧ new x' ≠ old x'}

/-- The extent a row copy reports: `xstart` and `xend` are meant only after a change. -/
inductive RowExtent (marked : Set Nat) : Bool → Int → Int → Prop
  | clean {xend} (empty : marked = ∅) : RowExtent marked false (-1) xend
  | dirty {low high : Nat} (least : IsLeast marked low) (greatest : IsGreatest marked high)
    : RowExtent marked true low high

/-- The first `count` pixels of the row at `dst` are the pixels `new`, the rest of the frame is
as it was in `old`, and the touched part is noted.
-/
structure RowCopied (old : Mem) (new : Nat → UInt8) (dst size count : Nat) (row : RowCopy)
    : Prop where
  copied : ∀ x < count, row.frame (dst + x) = new x
  kept : ∀ k, k < dst ∨ dst + count ≤ k → row.frame k = old k
  extent
    : RowExtent (touched size (fun x => old (dst + x)) new count) row.changed row.xstart row.xend

theorem RowCopied.start (old : Mem) (new : Nat → UInt8) (dst size : Nat) (uninitialised : Int)
    : RowCopied old new dst size 0 (.start old uninitialised) := by
  refine ⟨?_, fun k _ => rfl, .clean ?_⟩
  · intro x none
    exact absurd none (Nat.not_lt_zero x)
  · exact Set.eq_empty_iff_forall_notMem.mpr (fun x inside => Nat.not_lt_zero x inside.1)

/-- A granule without a difference adds nothing to the touched pixels. -/
theorem touched_same {size i : Nat} {old new : Nat → UInt8} (positive : 0 < size)
    (same : ∀ k < size, new (i * size + k) = old (i * size + k))
    : touched size old new ((i + 1) * size) = touched size old new (i * size) := by
  ext x
  constructor
  · intro member
    rcases member with ⟨below, x', together, differs⟩
    refine ⟨?_, x', together, differs⟩
    by_contra inside
    have quotient : x / size = i := by
      apply Nat.div_eq_of_lt_le
      · exact Nat.le_of_not_lt inside
      · exact below
    apply differs
    have split := Nat.div_add_mod x' size
    rw [together, quotient, Nat.mul_comm] at split
    rw [← split]
    exact same _ (Nat.mod_lt x' positive)
  · intro member
    rcases member with ⟨below, x', together, differs⟩
    refine ⟨Nat.lt_of_lt_of_le below ?_, x', together, differs⟩
    exact Nat.mul_le_mul_right size (Nat.le_succ i)

/-- A granule with a difference adds all its pixels. -/
theorem touched_different {size i k : Nat} {old new : Nat → UInt8} (inside : k < size)
    (differs : new (i * size + k) ≠ old (i * size + k))
    : touched size old new ((i + 1) * size)
      = touched size old new (i * size) ∪ Set.Ico (i * size) ((i + 1) * size) := by
  have quotient {x : Nat} (low : i * size ≤ x) (high : x < (i + 1) * size) : x / size = i :=
    Nat.div_eq_of_lt_le low high
  ext x
  constructor
  · intro member
    rcases member with ⟨below, witness⟩
    by_cases earlier : x < i * size
    · exact Or.inl ⟨earlier, witness⟩
    · exact Or.inr ⟨Nat.le_of_not_lt earlier, below⟩
  · intro member
    rcases member with ⟨below, witness⟩ | ⟨low, high⟩
    · exact ⟨Nat.lt_of_lt_of_le below (Nat.mul_le_mul_right size (Nat.le_succ i)), witness⟩
    · refine ⟨high, i * size + k, ?_, differs⟩
      rw [quotient low high, quotient (Nat.le_add_right _ _)]
      rw [Nat.succ_mul]
      exact Nat.add_lt_add_left inside _

/-- Marking a stretch behind everything marked so far moves the end, and sets the start when it
was not set.
-/
theorem RowExtent.extend {marked : Set Nat} {changed : Bool} {xstart xend : Int} {low size : Nat}
    (extent : RowExtent marked changed xstart xend) (positive : 0 < size)
    (before : ∀ x ∈ marked, x < low)
    : RowExtent (marked ∪ Set.Ico low (low + size)) (if xstart = -1 then true else changed)
        (if xstart = -1 then (low : Nat) else xstart) ((low + (size - 1) : Nat)) := by
  have least : IsLeast (Set.Ico low (low + size)) low := by
    refine ⟨⟨Nat.le_refl low, by omega⟩, ?_⟩
    intro x inside
    exact inside.1
  have greatest : IsGreatest (Set.Ico low (low + size)) (low + (size - 1)) := by
    refine ⟨⟨by omega, by omega⟩, ?_⟩
    intro x marked
    rcases marked with ⟨_, high⟩
    omega
  cases extent with
  | clean empty =>
      rw [empty, Set.empty_union]
      exact .dirty least greatest
  | @dirty first last least' greatest' =>
      have started : ¬((first : Int) = -1) := by omega
      rw [if_neg started, if_neg started]
      have first_le : min first low = first :=
        Nat.min_eq_left (Nat.le_of_lt (before first least'.1))
      have last_le : max last (low + (size - 1)) = low + (size - 1) := by
        apply Nat.max_eq_right
        have := before last greatest'.1
        omega
      have joined := least'.union least
      have joined' := greatest'.union greatest
      rw [first_le] at joined
      rw [last_le] at joined'
      exact .dirty joined joined'

/-- One word of a row: it is copied, and noted when it was different. By cases on the
comparison.
-/
theorem RowCopied.copyWord {old : Mem} {new : Nat → UInt8} {dst size i pixes : Nat}
    {row : RowCopy} (copied : RowCopied old new dst size (i * size) row) (positive : 0 < size)
    (fits : pixes < 256 ^ size) (bytes : ∀ k < size, byteOf pixes size k = new (i * size + k))
    : RowCopied old new dst size ((i + 1) * size) (copyWord dst size i pixes row) := by
  have next : (i + 1) * size = i * size + size := Nat.succ_mul i size
  have kept : ∀ k < size, row.frame (dst + i * size + k) = old (dst + i * size + k) := by
    intro k _
    exact copied.kept _ (Or.inr (Nat.le_add_right _ _))
  by_cases same : read row.frame (dst + i * size) size = pixes
  · have agree : ∀ k < size, row.frame (dst + i * size + k) = new (i * size + k) := by
      intro k hk
      rw [(read_eq_iff fits).mp same k hk, bytes k hk]
    rw [MiniVnc.copyWord, if_neg (not_not_intro same)]
    refine ⟨?_, ?_, ?_⟩
    · intro x below
      by_cases earlier : x < i * size
      · exact copied.copied x earlier
      · obtain ⟨k, rfl⟩ := Nat.exists_eq_add_of_le (Nat.le_of_not_lt earlier)
        have inside := agree k (by omega)
        rwa [Nat.add_assoc] at inside
    · intro k outside
      exact copied.kept k (by omega)
    · rw [touched_same positive]
      · exact copied.extent
      · intro k hk
        rw [← agree k hk, kept k hk, Nat.add_assoc]
  · have differs : ∃ k < size, new (i * size + k) ≠ old (dst + (i * size + k)) := by
      by_contra none
      push Not at none
      apply same
      apply (read_eq_iff fits).mpr
      intro k hk
      rw [bytes k hk, none k hk, kept k hk, Nat.add_assoc]
    obtain ⟨k, inside, differs⟩ := differs
    rw [MiniVnc.copyWord, if_pos same]
    refine ⟨?_, ?_, ?_⟩
    · intro x below
      by_cases earlier : x < i * size
      · rw [← copied.copied x earlier]
        exact write_outside (Or.inl (by omega))
      · obtain ⟨k, rfl⟩ := Nat.exists_eq_add_of_le (Nat.le_of_not_lt earlier)
        rw [← Nat.add_assoc, ← bytes k (by omega)]
        exact write_inside (by omega)
    · intro k outside
      rw [← copied.kept k (by omega)]
      exact write_outside (by omega)
    · rw [touched_different inside differs, next]
      exact copied.extent.extend positive (fun x marked => marked.1)

/-- A row copied word by word, by the invariant rule of the loop. -/
theorem rowCopied_words {old : Mem} {new : Nat → UInt8} {dst size count : Nat}
    {word : Nat → Nat} (positive : 0 < size) (fits : ∀ i < count, word i < 256 ^ size)
    (bytes : ∀ i < count, ∀ k < size, byteOf (word i) size k = new (i * size + k))
    (uninitialised : Int)
    : RowCopied old new dst size (count * size)
        (upTo (fun i => copyWord dst size i (word i)) (.start old uninitialised) count) := by
  refine upTo_invariant (fun i row => RowCopied old new dst size (i * size) row) ?_ ?_
  · rw [Nat.zero_mul]
    exact .start old new dst size uninitialised
  · intro i hi row copied
    exact copied.copyWord positive (fits i hi) (bytes i hi)

/-- The extra assignment to `changed` in `fb_copy_8_row` makes no difference: `xstart` is set at
the first difference in all four functions.
-/
theorem copyWord8_eq {marked : Set Nat} {dst src i : Nat} {screen : Mem} {row : RowCopy}
    (extent : RowExtent marked row.changed row.xstart row.xend)
    : copyWord8 dst src screen i row
      = copyWord dst 4 i (read screen (src + i * 4) 4) row := by
  obtain ⟨frame, changed, xstart, xend⟩ := row
  cases extent with
  | clean empty => rfl
  | @dirty low high least greatest =>
      have notNegative : ¬(Int.ofNat low < 0) := Int.not_lt.mpr (Int.natCast_nonneg low)
      have notUnset : ¬(Int.ofNat low = -1) := by
        intro unset
        cases unset
      simp only [copyWord8, copyWord, notNegative, notUnset, ↓reduceIte]

/-- The indexed depths have a row function. -/
theorem copyRow?_known {depth : Nat} (indexed : depth = 1 ∨ depth = 2 ∨ depth = 4 ∨ depth = 8)
    : ∃ copy, copyRow? depth = some copy := by
  rcases indexed with rfl | rfl | rfl | rfl <;> exact ⟨_, rfl⟩

/-- And no others have. -/
theorem copyRow?_indexed {depth : Nat} {copy : CopyRow} (known : copyRow? depth = some copy)
    : depth = 1 ∨ depth = 2 ∨ depth = 4 ∨ depth = 8 := by
  unfold copyRow? at known
  split_ifs at known <;> omega

/-- A row function copies the covered part of a row of `depth` bits per pixel. -/
def CopiesDepth (depth : Nat) (copy : CopyRow) : Prop :=
  ∀ frame screen dst src width uninitialised,
    RowCopied frame (pixel depth screen src) dst (granule depth) (coveredWidth depth width)
      (copy frame screen dst src width uninitialised)

theorem fbCopy8Row_copies : CopiesDepth 8 fbCopy8Row := by
  intro frame screen dst src width uninitialised
  have start := RowCopied.start frame (pixel 8 screen src) dst 4 uninitialised
  refine upTo_invariant
    (fun i row => RowCopied frame (pixel 8 screen src) dst 4 (i * 4) row) start ?_
  intro i _ row copied
  rw [copyWord8_eq copied.extent]
  refine copied.copyWord (by decide) (read_lt screen (src + i * 4) 4) ?_
  intro k hk
  rw [byteOf_read _ _ _ _ hk, pixel, bitField]
  simp [Nat.add_assoc]

/-- Each iteration of the 1-bit copy stores two words. -/
theorem fbCopy1Row_copies : CopiesDepth 1 fbCopy1Row := by
  intro frame screen dst src width uninitialised
  have start := RowCopied.start frame (pixel 1 screen src) dst 4 uninitialised
  refine upTo_invariant
    (fun i row => RowCopied frame (pixel 1 screen src) dst 4 (i * 8) row) start ?_
  intro i _ row copied
  have byte := (screen (src + i)).toNat_lt
  have first : ∀ k < 4,
      byteOf (lut1bit.getD ((screen (src + i)).toNat / 16) 0) 4 k
        = pixel 1 screen src (i * 2 * 4 + k) := by
    intro k hk
    have place : (i * 2 * 4 + k) / 8 = i ∧ (i * 2 * 4 + k) % 8 = k := by omega
    rw [(lut1bit_bytes _ byte k hk).1, pixel, place.1, place.2]
  have second : ∀ k < 4,
      byteOf (lut1bit.getD ((screen (src + i)).toNat % 16) 0) 4 k
        = pixel 1 screen src ((i * 2 + 1) * 4 + k) := by
    intro k hk
    have place : ((i * 2 + 1) * 4 + k) / 8 = i ∧ ((i * 2 + 1) * 4 + k) % 8 = 4 + k := by omega
    rw [(lut1bit_bytes _ byte k hk).2, pixel, place.1, place.2]
  have from_ : i * 8 = i * 2 * 4 := by omega
  have to_ : (i + 1) * 8 = (i * 2 + 1 + 1) * 4 := by omega
  rw [from_] at copied
  rw [to_]
  have half := copied.copyWord (by decide) (lut1bit_lt _) first
  exact half.copyWord (by decide) (lut1bit_lt _) second

theorem fbCopy2Row_copies : CopiesDepth 2 fbCopy2Row := by
  intro frame screen dst src width uninitialised
  refine rowCopied_words (by decide) (fun i _ => lut2bit_lt _) ?_ uninitialised
  intro i _ k hk
  have byte := (screen (src + i)).toNat_lt
  have place : (i * 4 + k) / 4 = i ∧ (i * 4 + k) % 4 = k := by omega
  rw [lut2bit_bytes byte k hk, pixel, place.1, place.2]

theorem fbCopy4Row_copies : CopiesDepth 4 fbCopy4Row := by
  intro frame screen dst src width uninitialised
  refine rowCopied_words (by decide) (fun i _ => lut4bit_lt _) ?_ uninitialised
  intro i _ k hk
  have byte := (screen (src + i)).toNat_lt
  have place : (i * 2 + k) / 2 = i ∧ (i * 2 + k) % 2 = k := by omega
  rw [lut4bit_bytes byte k hk, pixel, place.1, place.2]

/-- The row function of a pixel size copies rows of that depth. -/
theorem copyRow?_copies {depth : Nat} {copy : CopyRow} (known : copyRow? depth = some copy)
    : CopiesDepth depth copy := by
  unfold copyRow? at known
  split_ifs at known with one two four eight
  · cases known
    exact one ▸ fbCopy1Row_copies
  · cases known
    exact two ▸ fbCopy2Row_copies
  · cases known
    exact four ▸ fbCopy4Row_copies
  · cases known
    exact eight ▸ fbCopy8Row_copies

end MiniVnc
