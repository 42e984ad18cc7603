import MiniVnc.FrameBuffer.Bounds
import MiniVnc.Library.Granules
import MiniVnc.Updates.Framing

/-! The dirty rectangle is exact: with its columns rounded out to the copy granule, it is the
smallest one around the bytes of the frame that have changed.
-/

namespace MiniVnc
open Library Library.Memory Library.Stream Library.Granules

/-- The bytes of the frame that are different. -/
def changedBytes (old new : Mem) : Set Nat := {k | new k ≠ old k}

/-- The rows and columns of bytes in a frame whose rows are `width` bytes long. -/
def rowsOf (width : Nat) (bytes : Set Nat) : Set Nat := (fun k => k / width) '' bytes

def columnsOf (width : Nat) (bytes : Set Nat) : Set Nat := (fun k => k % width) '' bytes

/-- The rectangle contains the bytes, and its columns are whole granules. -/
structure FbRect.Encloses (rect : FbRect) (size width : Nat) (bytes : Set Nat) : Prop where
  left : (size : Int) ∣ rect.x1
  right : (size : Int) ∣ rect.x2 + 1
  columns : ∀ x ∈ columnsOf width bytes, rect.x1 ≤ x ∧ (x : Int) ≤ rect.x2
  rows : ∀ y ∈ rowsOf width bytes, rect.y1 ≤ y ∧ (y : Int) ≤ rect.y2

/-- The rectangle lies inside the other. -/
structure FbRect.Within (rect other : FbRect) : Prop where
  left : other.x1 ≤ rect.x1
  right : rect.x2 ≤ other.x2
  top : other.y1 ≤ rect.y1
  bottom : rect.y2 ≤ other.y2

/-- The smallest rectangle of whole granules around the bytes: it lies inside every other. -/
structure FbRect.SmallestAround (rect : FbRect) (size width : Nat) (bytes : Set Nat) : Prop where
  encloses : rect.Encloses size width bytes
  smallest : ∀ other : FbRect, other.Encloses size width bytes → rect.Within other
  top : ∃ y1, IsLeast (rowsOf width bytes) y1 ∧ rect.y1 = (y1 : Nat)
  bottom : ∃ y2, IsGreatest (rowsOf width bytes) y2 ∧ rect.y2 = (y2 : Nat)

/-- What is noted about a frame of `height` rows of `width` bytes, of which `bytes` have changed. -/
structure ExactDirty (size width height : Nat) (bytes : Set Nat) (lastChanged : Bool)
    (lastDirty : FbRect)
    : Prop where
  onScreen : ∀ k ∈ bytes, k < height * width
  noted : lastChanged = true ↔ bytes.Nonempty
  changed : bytes.Nonempty → lastDirty.SmallestAround size width bytes
  unchanged : bytes = ∅ → lastDirty = ⟨0, 0, 0, 0⟩
  columns : 0 ≤ lastDirty.x1 ∧ lastDirty.x1 ≤ lastDirty.x2 ∧ lastDirty.x2 < width
  rows : 0 ≤ lastDirty.y1 ∧ lastDirty.y1 ≤ lastDirty.y2 ∧ lastDirty.y2 < height

/-- The copied part of a row is made of whole granules. -/
theorem granule_dvd_coveredWidth (depth width : Nat)
    : granule depth ∣ coveredWidth depth width := by
  unfold granule coveredWidth
  split_ifs <;> omega

theorem granule_pos (depth : Nat) : 0 < granule depth := by
  unfold granule
  split_ifs <;> decide

/-- Pixels of one granule are copied together. -/
theorem lt_coveredWidth_of_together {depth width x x' : Nat}
    (inside : x < coveredWidth depth width)
    (together : x' / granule depth = x / granule depth)
    : x' < coveredWidth depth width := by
  obtain ⟨words, covered⟩ := granule_dvd_coveredWidth depth width
  rw [covered, Nat.mul_comm] at inside ⊢
  rw [← Nat.div_lt_iff_lt_mul (granule_pos depth)] at inside ⊢
  rwa [together]

theorem place_div {width x y : Nat} (inside : x < width) : (y * width + x) / width = y := by
  rw [Nat.mul_comm, Nat.mul_add_div (by omega), Nat.div_eq_of_lt inside, Nat.add_zero]

theorem place_mod {width x y : Nat} (inside : x < width) : (y * width + x) % width = x := by
  rw [Nat.mul_comm, Nat.mul_add_mod, Nat.mod_eq_of_lt inside]

/-- The bounds of the rows and of the rounded columns are the corners of the smallest rectangle. -/
theorem smallestAround {size width x1 x2 y1 y2 : Nat} {bytes : Set Nat} (positive : 0 < size)
    (left : IsLeast (rounded size (columnsOf width bytes)) x1)
    (right : IsGreatest (rounded size (columnsOf width bytes)) x2)
    (top : IsLeast (rowsOf width bytes) y1) (bottom : IsGreatest (rowsOf width bytes) y2)
    : FbRect.SmallestAround ⟨x1, x2, y1, y2⟩ size width bytes where
  encloses :=
    { left := Int.natCast_dvd_natCast.mpr (dvd_of_isLeast positive left)
      right := by
        have last := Int.natCast_dvd_natCast.mpr (dvd_of_isGreatest positive right)
        push_cast at last
        exact last
      columns := fun x member =>
        ⟨Int.ofNat_le.mpr (left.2 (subset_rounded member)),
          Int.ofNat_le.mpr (right.2 (subset_rounded member))⟩
      rows := fun y member =>
        ⟨Int.ofNat_le.mpr (top.2 member), Int.ofNat_le.mpr (bottom.2 member)⟩ }
  smallest := by
    intro other encloses
    refine ⟨?_, ?_, ?_, ?_⟩
    · exact le_of_isLeast positive left encloses.left fun x member => (encloses.columns x member).1
    · exact ge_of_isGreatest positive right encloses.right
        fun x member => (encloses.columns x member).2
    · exact (encloses.rows y1 top.1).1
    · exact (encloses.rows y2 bottom.1).2
  top := ⟨y1, top, rfl⟩
  bottom := ⟨y2, bottom, rfl⟩

section Copied

variable {copy : ScreenCopy} {height : Nat} {fb : FrameBuffer}

/-- The bytes that have changed are the copied pixels that were different. -/
theorem Copied.changedBytes_iff (copied : Copied copy height fb) (k : Nat)
    : k ∈ changedBytes copy.old fb.frameToSend
      ↔ ∃ y < height, ∃ x < coveredWidth copy.depth copy.width,
          k = y * copy.width + x ∧ copy.row y x ≠ copy.old (y * copy.width + x) := by
  constructor
  · intro changed
    rcases copied.kept k with same | ⟨y, below, x, inside, rfl⟩
    · exact absurd same changed
    · refine ⟨y, below, x, inside, rfl, ?_⟩
      rw [← copied.copied y below x inside]
      exact changed
  · rintro ⟨y, below, x, inside, rfl, differs⟩
    rw [← copied.copied y below x inside] at differs
    exact differs

/-- The touched rows are the rows of the changed bytes. -/
theorem Copied.rows_eq (copied : Copied copy height fb)
    : copy.rows height = rowsOf copy.width (changedBytes copy.old fb.frameToSend) := by
  have width := coveredWidth_le copy.depth copy.width
  ext y
  constructor
  · rintro ⟨below, x, touched⟩
    obtain ⟨inside, x', together, differs⟩ := touched
    have inside' := lt_coveredWidth_of_together inside together
    refine ⟨y * copy.width + x', ?_, place_div (inside'.trans_le width)⟩
    exact (copied.changedBytes_iff _).mpr ⟨y, below, x', inside', rfl, differs⟩
  · rintro ⟨k, changed, rfl⟩
    obtain ⟨y, below, x, inside, rfl, differs⟩ := (copied.changedBytes_iff k).mp changed
    simp only [place_div (inside.trans_le width)]
    exact ⟨below, x, inside, x, rfl, differs⟩

/-- The touched columns are the columns of the changed bytes, rounded out. -/
theorem Copied.columns_eq (copied : Copied copy height fb)
    : copy.columns height
      = rounded (granule copy.depth)
          (columnsOf copy.width (changedBytes copy.old fb.frameToSend)) := by
  have width := coveredWidth_le copy.depth copy.width
  ext x
  constructor
  · rintro ⟨y, below, inside, x', together, differs⟩
    have inside' := lt_coveredWidth_of_together inside together
    refine ⟨x', ⟨y * copy.width + x', ?_, place_mod (inside'.trans_le width)⟩, together⟩
    exact (copied.changedBytes_iff _).mpr ⟨y, below, x', inside', rfl, differs⟩
  · rintro ⟨_, ⟨k, changed, rfl⟩, together⟩
    obtain ⟨y, below, x', inside, rfl, differs⟩ := (copied.changedBytes_iff k).mp changed
    simp only [place_mod (inside.trans_le width)] at together
    exact ⟨y, below, lt_coveredWidth_of_together inside together.symm, x', together, differs⟩

/-- Every changed byte belongs to a row of the screen. -/
theorem Copied.onScreen (copied : Copied copy height fb)
    : ∀ k ∈ changedBytes copy.old fb.frameToSend, k < height * copy.width := by
  intro k changed
  obtain ⟨y, below, x, inside, rfl, _⟩ := (copied.changedBytes_iff k).mp changed
  have width := inside.trans_le (coveredWidth_le copy.depth copy.width)
  have next : (y + 1) * copy.width ≤ height * copy.width := Nat.mul_le_mul_right _ below
  rw [Nat.succ_mul] at next
  omega

/-- By cases on whether anything was touched. -/
theorem Copied.exact (copied : Copied copy height fb) (wide : 0 < copy.width) (tall : 0 < height)
    : ExactDirty (granule copy.depth) copy.width height
        (changedBytes copy.old fb.frameToSend) fb.lastChanged fb.lastDirty := by
  have onScreen := copied.onScreen
  have dirty := copied.dirty
  have narrow : ∀ x ∈ copy.columns height, x < copy.width := by
    rintro x ⟨y, _, touched⟩
    exact touched.1.trans_le (coveredWidth_le copy.depth copy.width)
  have low : ∀ y ∈ copy.rows height, y < height := fun y touched => touched.1
  rw [copied.columns_eq] at dirty narrow
  rw [copied.rows_eq] at dirty low
  generalize changedBytes copy.old fb.frameToSend = bytes at onScreen dirty narrow low ⊢
  generalize fb.lastChanged = changed at dirty ⊢
  generalize fb.lastDirty = rect at dirty ⊢
  have size := granule_pos copy.depth
  cases dirty with
  | unchanged noRow noColumn =>
      have none : bytes = ∅ := Set.image_eq_empty.mp noRow
      subst none
      refine ⟨onScreen, by simp, fun some_ => absurd some_ (by simp), fun _ => rfl, ?_, ?_⟩
      · exact ⟨le_rfl, le_rfl, Int.natCast_pos.mpr wide⟩
      · exact ⟨le_rfl, le_rfl, Int.natCast_pos.mpr tall⟩
  | @changed x1 x2 y1 y2 left right top bottom =>
      have some_ : bytes.Nonempty := Set.image_nonempty.mp ⟨y1, top.1⟩
      refine ⟨onScreen, iff_of_true rfl some_, fun _ => ?_, fun none => ?_, ?_, ?_⟩
      · exact smallestAround size left right top bottom
      · exact absurd none some_.ne_empty
      · exact ⟨Int.natCast_nonneg x1, Int.ofNat_le.mpr (left.2 right.1),
          Int.ofNat_lt.mpr (narrow x2 right.1)⟩
      · exact ⟨Int.natCast_nonneg y1, Int.ofNat_le.mpr (top.2 bottom.1),
          Int.ofNat_lt.mpr (low y2 bottom.1)⟩

end Copied

/-- On a screen of any size and depth, whatever its content and whatever the frame before, the
dirty rectangle that an update leaves is exact.
-/
theorem lastDirty_exact {driver : Driver} {fb fb' : FrameBuffer}
    (updated : fbUpdate driver fb = .ok () fb') (wide : 0 < fb'.vi.videoScrX)
    (tall : 0 < fb'.vi.videoScrY)
    : (fb'.vp.vpPixelSize = 1 ∨ fb'.vp.vpPixelSize = 2 ∨ fb'.vp.vpPixelSize = 4
        ∨ fb'.vp.vpPixelSize = 8)
      ∧ ExactDirty (granule fb'.vp.vpPixelSize) fb'.vi.videoScrX fb'.vi.videoScrY
          (changedBytes fb.frameToSend fb'.frameToSend) fb'.lastChanged fb'.lastDirty := by
  obtain ⟨copy, known⟩ := fbUpdate_known updated tall
  refine ⟨copyRow?_indexed known, ?_⟩
  exact (fbUpdate_ok updated).copied.exact wide tall

theorem lastDirty_exact_small
    : ∃ fb', fbUpdate (smallDriver (fun _ => 7) 0) blankSession.fb = .ok () fb'
        ∧ ExactDirty (granule fb'.vp.vpPixelSize) fb'.vi.videoScrX fb'.vi.videoScrY
            (changedBytes blankSession.fb.frameToSend fb'.frameToSend) fb'.lastChanged
            fb'.lastDirty := by
  obtain ⟨fb', updated⟩ :=
    fbUpdate_returns (smallDriver_answers (fun _ => 7) 0) blankSession.fb
  have screen : fb'.vi = smallScreen := (Option.some.inj (fbUpdate_ok updated).metadata).symm
  refine ⟨fb', updated, (lastDirty_exact updated ?_ ?_).2⟩
  · rw [screen]
    decide
  · rw [screen]
    decide

end MiniVnc
