import MiniVnc.FrameBuffer.Update

/-! What `fb_update` does to the frame: every covered pixel becomes the screen's, and the dirty
rectangle is the extent of the granules that were different.
-/

namespace MiniVnc
open Library.Memory Library.Loop Library.Stream

/-- The copy of one screen content into the frame `old`, in a given geometry. -/
structure ScreenCopy where
  old : Mem
  screen : Mem
  depth : Nat
  rowBytes : Nat
  width : Nat

namespace ScreenCopy

/-- The pixels of row `y` of the screen. -/
def row (copy : ScreenCopy) (y : Nat) : Nat → UInt8 :=
  pixel copy.depth copy.screen (y * copy.rowBytes)

/-- The columns of row `y` that share a granule with a pixel that is different. -/
def touchedRow (copy : ScreenCopy) (y : Nat) : Set Nat :=
  touched (granule copy.depth) (fun x => copy.old (y * copy.width + x)) (copy.row y)
    (coveredWidth copy.depth copy.width)

/-- The rows above `count` with a difference. -/
def rows (copy : ScreenCopy) (count : Nat) : Set Nat :=
  {y | y < count ∧ (copy.touchedRow y).Nonempty}

/-- The touched columns of the rows above `count`. -/
def columns (copy : ScreenCopy) (count : Nat) : Set Nat :=
  {x | ∃ y < count, x ∈ copy.touchedRow y}

end ScreenCopy

theorem coveredWidth_le (depth width : Nat) : coveredWidth depth width ≤ width := by
  unfold coveredWidth
  split_ifs <;> exact Nat.div_mul_le_self _ _

/-- The first `count` rows have been copied and their differences noted. -/
structure Scanned (copy : ScreenCopy) (count : Nat) (scan : Scan) : Prop where
  copied
    : ∀ y < count, ∀ x < coveredWidth copy.depth copy.width,
        scan.frame (y * copy.width + x) = copy.row y x
  kept
    : ∀ k, scan.frame k = copy.old k
        ∨ ∃ y < count, ∃ x < coveredWidth copy.depth copy.width, k = y * copy.width + x
  vertical
    : Extent 0xFFFFFFFF (copy.rows count) scan.changed scan.lowYChange scan.highYChange
  horizontal
    : Extent 0xFFFFFFFF (copy.columns count) scan.changed scan.lowXChange scan.highXChange

theorem Scanned.start (copy : ScreenCopy) : Scanned copy 0 (.start copy.old) := by
  refine ⟨?_, fun k => Or.inl rfl, .nothing ?_, .nothing ?_⟩
  · intro y none
    exact absurd none (Nat.not_lt_zero y)
  · exact Set.eq_empty_iff_forall_notMem.mpr (fun y inside => Nat.not_lt_zero y inside.1)
  · refine Set.eq_empty_iff_forall_notMem.mpr ?_
    intro x marked
    rcases marked with ⟨y, none, _⟩
    exact Nat.not_lt_zero y none

/-- Rows still to come are as they were. -/
theorem Scanned.untouched {copy : ScreenCopy} {count : Nat} {scan : Scan}
    (scanned : Scanned copy count scan) {k : Nat} (behind : count * copy.width ≤ k)
    : scan.frame k = copy.old k := by
  rcases scanned.kept k with same | ⟨y, below, x, inside, rfl⟩
  · exact same
  · have covered := coveredWidth_le copy.depth copy.width
    have next : (y + 1) * copy.width ≤ count * copy.width :=
      Nat.mul_le_mul_right _ (Nat.succ_le_of_lt below)
    rw [Nat.succ_mul] at next
    omega

theorem ScreenCopy.rows_succ (copy : ScreenCopy) (count : Nat)
    : copy.rows (count + 1)
      = copy.rows count ∪ {y | y = count ∧ (copy.touchedRow count).Nonempty} := by
  ext y
  constructor
  · intro member
    rcases member with ⟨below, some_⟩
    rcases Nat.lt_succ_iff_lt_or_eq.mp below with earlier | rfl
    · exact Or.inl ⟨earlier, some_⟩
    · exact Or.inr ⟨rfl, some_⟩
  · intro member
    rcases member with ⟨earlier, some_⟩ | ⟨rfl, some_⟩
    · exact ⟨Nat.lt_succ_of_lt earlier, some_⟩
    · exact ⟨Nat.lt_succ_self _, some_⟩

theorem ScreenCopy.columns_succ (copy : ScreenCopy) (count : Nat)
    : copy.columns (count + 1) = copy.columns count ∪ copy.touchedRow count := by
  ext x
  constructor
  · intro member
    rcases member with ⟨y, below, inside⟩
    rcases Nat.lt_succ_iff_lt_or_eq.mp below with earlier | rfl
    · exact Or.inl ⟨y, earlier, inside⟩
    · exact Or.inr inside
  · intro member
    rcases member with ⟨y, earlier, inside⟩ | inside
    · exact ⟨y, Nat.lt_succ_of_lt earlier, inside⟩
    · exact ⟨count, Nat.lt_succ_self count, inside⟩

theorem toUnsigned_natCast {value : Nat} (fits : value < 2 ^ 32)
    : toUnsigned value = value := by
  unfold toUnsigned
  omega

/-- A row function keeps a line's extent as it found it: on the frame as it was. -/
theorem Scanned.rowExtent {copy : ScreenCopy} {i : Nat} {scan : Scan} {row : RowCopy}
    (scanned : Scanned copy i scan)
    (copied : RowCopied scan.frame (copy.row i) (i * copy.width) (granule copy.depth)
      (coveredWidth copy.depth copy.width) row)
    : RowExtent (copy.touchedRow i) row.changed row.xstart row.xend := by
  have same
      : (fun x => scan.frame (i * copy.width + x)) = fun x => copy.old (i * copy.width + x) := by
    funext x
    exact scanned.untouched (Nat.le_add_right _ _)
  have extent := copied.extent
  rw [same] at extent
  exact extent

section Line

variable {copy : ScreenCopy} {i : Nat} {scan : Scan} {row : RowCopy}

/-- The rows done stay done while row `i` is copied: they lie before it. -/
theorem Scanned.line_copied (scanned : Scanned copy i scan)
    (copied : RowCopied scan.frame (copy.row i) (i * copy.width) (granule copy.depth)
      (coveredWidth copy.depth copy.width) row)
    {y x : Nat} (below : y < i + 1) (inside : x < coveredWidth copy.depth copy.width)
    : (scan.line i row).frame (y * copy.width + x) = copy.row y x := by
  have covered := coveredWidth_le copy.depth copy.width
  rcases Nat.lt_succ_iff_lt_or_eq.mp below with earlier | rfl
  · have apart : y * copy.width + x < i * copy.width := by
      have next : (y + 1) * copy.width ≤ i * copy.width :=
        Nat.mul_le_mul_right _ (Nat.succ_le_of_lt earlier)
      rw [Nat.succ_mul] at next
      omega
    rw [← scanned.copied y earlier x inside]
    exact copied.kept _ (Or.inl apart)
  · exact copied.copied x inside

theorem Scanned.line_kept (scanned : Scanned copy i scan)
    (copied : RowCopied scan.frame (copy.row i) (i * copy.width) (granule copy.depth)
      (coveredWidth copy.depth copy.width) row)
    (k : Nat)
    : (scan.line i row).frame k = copy.old k
      ∨ ∃ y < i + 1, ∃ x < coveredWidth copy.depth copy.width, k = y * copy.width + x := by
  by_cases here : i * copy.width ≤ k ∧ k < i * copy.width + coveredWidth copy.depth copy.width
  · exact Or.inr ⟨i, Nat.lt_succ_self i, k - i * copy.width, by omega, by omega⟩
  · have same : (scan.line i row).frame k = scan.frame k := copied.kept k (by omega)
    rw [same]
    rcases scanned.kept k with old | ⟨y, below, x, inside, place⟩
    · exact Or.inl old
    · exact Or.inr ⟨y, Nat.lt_succ_of_lt below, x, inside, place⟩

/-- The vertical extent takes in row `i` if anything on it has changed. -/
theorem Scanned.line_vertical (scanned : Scanned copy i scan)
    (extent : RowExtent (copy.touchedRow i) row.changed row.xstart row.xend)
    (rowFits : i < 2 ^ 31)
    : Extent 0xFFFFFFFF (copy.rows (i + 1)) (scan.line i row).changed
        (scan.line i row).lowYChange (scan.line i row).highYChange := by
  rw [copy.rows_succ]
  obtain ⟨frame, changed, xstart, xend⟩ := row
  cases extent with
  | clean empty =>
      have none : {y | y = i ∧ (copy.touchedRow i).Nonempty} = ∅ := by
        rw [empty]
        simp
      simpa [Scan.line] using scanned.vertical.union_empty none
  | dirty least greatest =>
      have only : {y | y = i ∧ (copy.touchedRow i).Nonempty} = {i} := by
        ext y
        exact ⟨fun inside => inside.1, fun same => ⟨same, _, least.1⟩⟩
      rw [only]
      have joined := scanned.vertical.union isLeast_singleton isGreatest_singleton
        (show i ≤ 0xFFFFFFFF by omega)
      simpa [Scan.line] using joined

/-- The horizontal extent takes in the columns touched on row `i`. -/
theorem Scanned.line_horizontal (scanned : Scanned copy i scan)
    (extent : RowExtent (copy.touchedRow i) row.changed row.xstart row.xend)
    (widthFits : copy.width < 2 ^ 31)
    : Extent 0xFFFFFFFF (copy.columns (i + 1)) (scan.line i row).changed
        (scan.line i row).lowXChange (scan.line i row).highXChange := by
  have covered := coveredWidth_le copy.depth copy.width
  have inner : ∀ x ∈ copy.touchedRow i, x < 2 ^ 31 := by
    intro x inside
    have := inside.1
    omega
  rw [copy.columns_succ]
  obtain ⟨frame, changed, xstart, xend⟩ := row
  cases extent with
  | clean empty => simpa [Scan.line] using scanned.horizontal.union_empty empty
  | @dirty low high least greatest =>
      have lowFits := inner low least.1
      have highFits := inner high greatest.1
      have joined := scanned.horizontal.union least greatest
        (show low ≤ 0xFFFFFFFF by omega)
      have lowUnsigned : toUnsigned low = low := toUnsigned_natCast (by omega)
      have highUnsigned : toUnsigned high = high := toUnsigned_natCast (by omega)
      simpa [Scan.line, lowUnsigned, highUnsigned] using joined

/-- One row more: it is copied, and the extents take it in. -/
theorem Scanned.line (scanned : Scanned copy i scan)
    (copied : RowCopied scan.frame (copy.row i) (i * copy.width) (granule copy.depth)
      (coveredWidth copy.depth copy.width) row)
    (rowFits : i < 2 ^ 31) (widthFits : copy.width < 2 ^ 31)
    : Scanned copy (i + 1) (scan.line i row) where
  copied := fun _ below _ inside => scanned.line_copied copied below inside
  kept := scanned.line_kept copied
  vertical := scanned.line_vertical (scanned.rowExtent copied) rowFits
  horizontal := scanned.line_horizontal (scanned.rowExtent copied) widthFits

end Line

-----------------------------------------------------------------------------------------
-- Whole updates
-----------------------------------------------------------------------------------------

/-- The copy an update of the frame `fb` makes with the answers of `driver`. -/
def Driver.copyOf (driver : Driver) (vi : Video) (vp : VPBlock) (fb : FrameBuffer)
    : ScreenCopy where
  old := fb.frameToSend
  screen := driver.screen
  depth := vp.vpPixelSize
  rowBytes := vp.vpRowBytes
  width := vi.videoScrX

/-- The first rows are scanned as specified, by induction on their number. -/
theorem scanRows_scanned {driver : Driver} {fb : FrameBuffer} {count : Nat} {scan : Scan}
    (rowFits : count ≤ 2 ^ 31) (h : scanRows driver fb count = .ok scan)
    : Scanned (driver.copyOf fb.vi fb.vp fb) count scan := by
  induction count generalizing scan with
  | zero =>
      cases h
      exact .start (driver.copyOf fb.vi fb.vp fb)
  | succ i ih =>
      rw [scanRows] at h
      cases earlier : scanRows driver fb i with
      | error e =>
          rw [earlier] at h
          cases h
      | ok before =>
          rw [earlier] at h
          have scanned := ih (by omega) earlier
          cases known : copyRow? fb.vp.vpPixelSize with
          | none =>
              simp only [known] at h
              cases h
          | some copy =>
              simp only [known] at h
              cases h
              exact scanned.line (copyRow?_copies known _ _ _ _ _ _) (by omega) fb.vi.xFits

/-- With a supported pixel size the scan does not fail. -/
theorem scanRows_returns {driver : Driver} {fb : FrameBuffer} {copy : CopyRow}
    (known : copyRow? fb.vp.vpPixelSize = some copy) (count : Nat)
    : ∃ scan, scanRows driver fb count = .ok scan := by
  induction count with
  | zero => exact ⟨_, rfl⟩
  | succ i ih =>
      obtain ⟨scan, before⟩ := ih
      simp only [scanRows, before, known]
      exact ⟨_, rfl⟩

/-- The dirty rectangle for the touched `rows` and `columns`: their extent, or all zero. -/
inductive LastDirty (rows columns : Set Nat) : Bool → FbRect → Prop
  | unchanged (noRow : rows = ∅) (noColumn : columns = ∅)
    : LastDirty rows columns false ⟨0, 0, 0, 0⟩
  | changed {x1 x2 y1 y2 : Nat} (left : IsLeast columns x1) (right : IsGreatest columns x2)
    (top : IsLeast rows y1) (bottom : IsGreatest rows y2)
    : LastDirty rows columns true ⟨x1, x2, y1, y2⟩

/-- A dirty rectangle is never empty: even all zero it stands for the pixel at the origin. -/
theorem LastDirty.height_pos {rows columns : Set Nat} {changed : Bool} {dirty : FbRect}
    (h : LastDirty rows columns changed dirty)
    : 0 < dirty.height := by
  cases h with
  | unchanged noRow noColumn => decide
  | changed left right top bottom =>
      have ordered := top.2 bottom.1
      simp only [FbRect.height]
      omega

theorem LastDirty.width_pos {rows columns : Set Nat} {changed : Bool} {dirty : FbRect}
    (h : LastDirty rows columns changed dirty)
    : 0 < dirty.width := by
  cases h with
  | unchanged noRow noColumn => decide
  | changed left right top bottom =>
      have ordered := left.2 right.1
      simp only [FbRect.width]
      omega

/-- The frame after an update, and the rectangle of it that is noted as dirty. -/
structure Copied (copy : ScreenCopy) (height : Nat) (fb : FrameBuffer) : Prop where
  copied
    : ∀ y < height, ∀ x < coveredWidth copy.depth copy.width,
        fb.frameToSend (y * copy.width + x) = copy.row y x
  kept
    : ∀ k, fb.frameToSend k = copy.old k
        ∨ ∃ y < height, ∃ x < coveredWidth copy.depth copy.width, k = y * copy.width + x
  dirty : LastDirty (copy.rows height) (copy.columns height) fb.lastChanged fb.lastDirty

/-- A byte of the frame belongs to one pixel. -/
theorem place_inj {width x y x' y' : Nat} (inside : x < width) (inside' : x' < width)
    (same : y * width + x = y' * width + x')
    : y = y' ∧ x = x' := by
  rcases Nat.lt_trichotomy y y' with above | rfl | below
  · have next : (y + 1) * width ≤ y' * width := Nat.mul_le_mul_right width above
    rw [Nat.succ_mul] at next
    omega
  · exact ⟨rfl, Nat.add_left_cancel same⟩
  · have next : (y' + 1) * width ≤ y * width := Nat.mul_le_mul_right width below
    rw [Nat.succ_mul] at next
    omega

/-- Every pixel that has changed lies in a touched row and column. -/
theorem Copied.touched {copy : ScreenCopy} {height : Nat} {fb : FrameBuffer}
    (copied : Copied copy height fb) {x y : Nat} (inside : x < copy.width)
    (changed : fb.frameToSend (y * copy.width + x) ≠ copy.old (y * copy.width + x))
    : y ∈ copy.rows height ∧ x ∈ copy.columns height := by
  rcases copied.kept (y * copy.width + x) with same | ⟨y', below, x', covered, place⟩
  · exact absurd same changed
  · have width := coveredWidth_le copy.depth copy.width
    obtain ⟨rfl, rfl⟩ := place_inj inside (covered.trans_le width) place
    have touched : x ∈ copy.touchedRow y := by
      refine ⟨covered, x, rfl, ?_⟩
      rw [copied.copied y below x covered] at changed
      exact changed
    exact ⟨⟨below, x, touched⟩, y, below, touched⟩

/-- The dirty rectangle contains the touched rows and columns. -/
theorem LastDirty.contains {rows columns : Set Nat} {changed : Bool} {dirty : FbRect}
    (h : LastDirty rows columns changed dirty) {x y : Nat} (row : y ∈ rows)
    (column : x ∈ columns)
    : (dirty.x1 ≤ x ∧ x ≤ dirty.x2) ∧ dirty.y1 ≤ y ∧ y ≤ dirty.y2 := by
  cases h with
  | unchanged noRow noColumn =>
      rw [noRow] at row
      cases row
  | changed left right top bottom =>
      have ordered := And.intro (left.2 column) (right.2 column)
      have ordered' := And.intro (top.2 row) (bottom.2 row)
      simp only
      omega

theorem toSigned_eq {value : Nat} (fits : value < 2 ^ 31) : toSigned value = value :=
  if_pos fits

/-- `copyScreen` replaces the frame and the dirty rectangle, and nothing else. -/
theorem copyScreen_ok {driver : Driver} {fb fb' : FrameBuffer}
    (h : copyScreen driver fb = .ok () fb')
    : Copied (driver.copyOf fb.vi fb.vp fb) fb.vi.videoScrY fb'
      ∧ fb' = { fb with
          frameToSend := fb'.frameToSend
          lastChanged := fb'.lastChanged
          lastDirty := fb'.lastDirty } := by
  rw [copyScreen, get_bind] at h
  cases scans : scanRows driver fb fb.vi.videoScrY with
  | error e =>
      rw [scans] at h
      cases h
  | ok scan =>
      rw [scans] at h
      cases h
      have scanned := scanRows_scanned (Nat.le_of_lt fb.vi.yFits) scans
      refine ⟨⟨scanned.copied, scanned.kept, ?_⟩, rfl⟩
      have vertical := scanned.vertical
      have horizontal := scanned.horizontal
      obtain ⟨frame, changed, lowY, highY, lowX, highX⟩ := scan
      cases vertical with
      | nothing noRow =>
          cases horizontal with
          | nothing noColumn => exact .unchanged noRow noColumn
      | something top bottom =>
          cases horizontal with
          | something left right =>
              have rowFits
                  : ∀ y ∈ (driver.copyOf fb.vi fb.vp fb).rows fb.vi.videoScrY, y < 2 ^ 31 :=
                fun y inside => inside.1.trans fb.vi.yFits
              have columnFits
                  : ∀ x ∈ (driver.copyOf fb.vi fb.vp fb).columns fb.vi.videoScrY, x < 2 ^ 31 := by
                intro x marked
                rcases marked with ⟨y, _, inside⟩
                exact (inside.1.trans_le (coveredWidth_le _ _)).trans fb.vi.xFits
              simp only [↓reduceIte, toSigned_eq (rowFits _ top.1),
                toSigned_eq (rowFits _ bottom.1), toSigned_eq (columnFits _ left.1),
                toSigned_eq (columnFits _ right.1)]
              exact .changed left right top bottom

theorem copyScreen_returns {driver : Driver} {fb : FrameBuffer} {copy : CopyRow}
    (known : copyRow? fb.vp.vpPixelSize = some copy)
    : ∃ fb', copyScreen driver fb = .ok () fb' := by
  obtain ⟨scan, scans⟩ := @scanRows_returns driver fb copy known fb.vi.videoScrY
  simp only [copyScreen, get_bind, scans]
  exact ⟨_, rfl⟩

end MiniVnc
