import MiniVnc.FrameBuffer.Bounds

/-! Where `fb_update` reads the memory that is mapped at `physed_fb`. -/

namespace MiniVnc
open Library.Memory Library.Loop Library.Stream Library.Accesses

/-- The accesses to the one object `physed_fb`. -/
abbrev ScreenLog := List (Access Unit)

/-- `count` words of `size` bytes are read from `src` on. -/
def wordReads (src size count : Nat) : ScreenLog :=
  (List.range count).flatMap fun i => reads () (src + i * size : Nat) size

/-- A word that is different is read again to be stored, at the same place. -/
def fbCopy8RowReads (src width : Nat) : ScreenLog := wordReads src 4 (width / 4)

/-- Every byte is read twice, for its halves. -/
def fbCopy1RowReads (src width : Nat) : ScreenLog := wordReads src 1 (width / 8)

def fbCopy2RowReads (src width : Nat) : ScreenLog := wordReads src 1 (width / 4)

def fbCopy4RowReads (src width : Nat) : ScreenLog := wordReads src 1 (width / 2)

/-- The reads of the row function for a pixel size. -/
def copyRowReads (vpPixelSize src width : Nat) : ScreenLog :=
  if vpPixelSize = 1 then fbCopy1RowReads src width
  else if vpPixelSize = 2 then fbCopy2RowReads src width
  else if vpPixelSize = 4 then fbCopy4RowReads src width
  else if vpPixelSize = 8 then fbCopy8RowReads src width
  else []

/-- The reads of the first `count` iterations of the row loop. -/
def scanRowsReads (fb : FrameBuffer) (count : Nat) : ScreenLog :=
  (List.range count).flatMap fun i =>
    copyRowReads fb.vp.vpPixelSize (i * fb.vp.vpRowBytes) fb.vi.videoScrX

def fbUpdateReads (driver : Driver) (fb : FrameBuffer) : ScreenLog :=
  match fbRefresh driver fb with
  | .ok _ fb => scanRowsReads fb fb.vi.videoScrY
  | .error _ _ => []

/-- The bytes of a row that are read: those of the part that is copied. -/
def sourceBytes (depth width : Nat) : Nat := coveredWidth depth width * depth / 8

theorem sourceBytes_one (width : Nat) : sourceBytes 1 width = width / 8 := by
  have covered : coveredWidth 1 width = width / 8 * 8 := rfl
  rw [sourceBytes, covered]
  omega

theorem sourceBytes_two (width : Nat) : sourceBytes 2 width = width / 4 := by
  have covered : coveredWidth 2 width = width / 4 * 4 := rfl
  rw [sourceBytes, covered]
  omega

theorem sourceBytes_four (width : Nat) : sourceBytes 4 width = width / 2 := by
  have covered : coveredWidth 4 width = width / 2 * 2 := rfl
  rw [sourceBytes, covered]
  omega

theorem sourceBytes_eight (width : Nat) : sourceBytes 8 width = width / 4 * 4 := by
  have covered : coveredWidth 8 width = width / 4 * 4 := rfl
  rw [sourceBytes, covered]
  omega

/-- They are bytes of a row that has space for its pixels. -/
theorem sourceBytes_le {depth width rowBytes : Nat} (wide : width * depth ≤ 8 * rowBytes)
    : sourceBytes depth width ≤ rowBytes := by
  have covered : coveredWidth depth width ≤ width := by
    unfold coveredWidth
    split_ifs <;> exact Nat.div_mul_le_self _ _
  have bits : coveredWidth depth width * depth ≤ width * depth :=
    Nat.mul_le_mul_right depth covered
  rw [sourceBytes]
  omega

-----------------------------------------------------------------------------------------
-- The bytes that are read
-----------------------------------------------------------------------------------------

theorem mem_reads_iff {start count : Nat} {offset : Int}
    : Access.read () offset ∈ reads () (start : Int) count
      ↔ ∃ b < count, offset = (start + b : Nat) := by
  simp [reads, eq_comm]

/-- Words that follow each other are one run of bytes. -/
theorem mem_wordReads_iff {src size count : Nat} {offset : Int} (positive : 0 < size)
    : Access.read () offset ∈ wordReads src size count
      ↔ ∃ b < count * size, offset = (src + b : Nat) := by
  simp only [wordReads, List.mem_flatMap, List.mem_range, mem_reads_iff]
  constructor
  · rintro ⟨i, below, b, inside, rfl⟩
    have words : (i + 1) * size ≤ count * size := Nat.mul_le_mul_right size below
    have next : (i + 1) * size = i * size + size := Nat.succ_mul i size
    exact ⟨i * size + b, by omega, by omega⟩
  · rintro ⟨b, below, rfl⟩
    refine ⟨b / size, Nat.div_lt_of_lt_mul (by rwa [Nat.mul_comm]), b % size,
      Nat.mod_lt b positive, ?_⟩
    have split := Nat.div_add_mod' b size
    omega

/-- The bytes a row function reads, by cases on the depth. -/
theorem mem_copyRowReads_iff {depth : Nat} {copy : CopyRow} (known : copyRow? depth = some copy)
    {src width : Nat} {offset : Int}
    : Access.read () offset ∈ copyRowReads depth src width
      ↔ ∃ b < sourceBytes depth width, offset = (src + b : Nat) := by
  rcases copyRow?_indexed known with rfl | rfl | rfl | rfl
  · rw [sourceBytes_one, ← Nat.mul_one (width / 8)]
    exact mem_wordReads_iff Nat.one_pos
  · rw [sourceBytes_two, ← Nat.mul_one (width / 4)]
    exact mem_wordReads_iff Nat.one_pos
  · rw [sourceBytes_four, ← Nat.mul_one (width / 2)]
    exact mem_wordReads_iff Nat.one_pos
  · rw [sourceBytes_eight]
    exact mem_wordReads_iff (Nat.succ_pos 3)

theorem mem_scanRowsReads_iff {fb : FrameBuffer} {copy : CopyRow}
    (known : copyRow? fb.vp.vpPixelSize = some copy) {count : Nat} {offset : Int}
    : Access.read () offset ∈ scanRowsReads fb count
      ↔ ∃ y < count, ∃ b < sourceBytes fb.vp.vpPixelSize fb.vi.videoScrX,
          offset = (y * fb.vp.vpRowBytes + b : Nat) := by
  simp only [scanRowsReads, List.mem_flatMap, List.mem_range, mem_copyRowReads_iff known]

/-- The reads lie below `size` exactly when the last of them does, if there are any. -/
theorem scanRowsReads_below_iff {fb : FrameBuffer} {copy : CopyRow}
    (known : copyRow? fb.vp.vpPixelSize = some copy) (count : Nat) (size : Int)
    : (∀ offset, Access.read () offset ∈ scanRowsReads fb count → offset < size)
      ↔ count = 0 ∨ sourceBytes fb.vp.vpPixelSize fb.vi.videoScrX = 0
        ∨ ((count - 1) * fb.vp.vpRowBytes
            + sourceBytes fb.vp.vpPixelSize fb.vi.videoScrX : Nat) ≤ size := by
  simp only [mem_scanRowsReads_iff known]
  generalize sourceBytes fb.vp.vpPixelSize fb.vi.videoScrX = bytes
  constructor
  · intro inside
    rcases Nat.eq_zero_or_pos count with none | rows
    · exact Or.inl none
    · rcases Nat.eq_zero_or_pos bytes with none | some_
      · exact Or.inr (Or.inl none)
      · have last := inside _ ⟨count - 1, by omega, bytes - 1, by omega, rfl⟩
        exact Or.inr (Or.inr (by omega))
  · rintro (rfl | rfl | last) offset ⟨y, row, b, byte, rfl⟩
    · exact absurd row (Nat.not_lt_zero y)
    · exact absurd byte (Nat.not_lt_zero b)
    · have rows : y * fb.vp.vpRowBytes ≤ (count - 1) * fb.vp.vpRowBytes :=
        Nat.mul_le_mul_right _ (by omega)
      omega

-----------------------------------------------------------------------------------------
-- Nothing else is read
-----------------------------------------------------------------------------------------

/-- The result of a row function depends on the bytes it reads only. -/
theorem copyRow_screen_congr {depth : Nat} {copy : CopyRow}
    (known : copyRow? depth = some copy) {left right : Mem} {src width : Nat}
    (same
      : ∀ k : Nat, Access.read () (k : Int) ∈ copyRowReads depth src width →
          left k = right k)
    (frame : Mem) (dst : Nat) (uninitialised : Int)
    : copy frame left dst src width uninitialised
      = copy frame right dst src width uninitialised := by
  have byte : ∀ b < sourceBytes depth width, left (src + b) = right (src + b) := by
    intro b below
    exact same (src + b) ((mem_copyRowReads_iff known).mpr ⟨b, below, rfl⟩)
  unfold copyRow? at known
  split_ifs at known with one two four eight
  · cases known
    rw [one, sourceBytes_one] at byte
    refine upTo_congr fun i below => ?_
    rw [byte i below]
  · cases known
    rw [two, sourceBytes_two] at byte
    refine upTo_congr fun i below => ?_
    rw [byte i below]
  · cases known
    rw [four, sourceBytes_four] at byte
    refine upTo_congr fun i below => ?_
    rw [byte i below]
  · cases known
    rw [eight, sourceBytes_eight] at byte
    refine upTo_congr fun i below => ?_
    have word : read left (src + i * 4) 4 = read right (src + i * 4) 4 := by
      refine read_congr fun k inside => ?_
      rw [Nat.add_assoc]
      exact byte (i * 4 + k) (by omega)
    funext row
    rw [copyWord8, copyWord8, word]

/-- What the rows leave depends on the bytes they read only, by induction on them. -/
theorem scanRows_screen_congr {driver : Driver} {other : Mem} {fb : FrameBuffer} {count : Nat}
    (same
      : ∀ k : Nat, Access.read () (k : Int) ∈ scanRowsReads fb count →
          driver.screen k = other k)
    : scanRows { driver with screen := other } fb count = scanRows driver fb count := by
  induction count with
  | zero => rfl
  | succ i ih =>
      rw [scanRowsReads, List.range_succ, List.flatMap_append] at same
      have before := ih fun k member => same k (List.mem_append_left _ member)
      have last : ∀ k : Nat, Access.read () (k : Int)
          ∈ copyRowReads fb.vp.vpPixelSize (i * fb.vp.vpRowBytes) fb.vi.videoScrX →
            driver.screen k = other k := by
        intro k member
        exact same k (List.mem_append_right _ (by simpa using member))
      rw [scanRows, scanRows, before]
      cases known : copyRow? fb.vp.vpPixelSize with
      | none => rfl
      | some copy =>
          simp only [copyRow_screen_congr known last]

/-- An update depends on the bytes it reads only. -/
theorem fbUpdate_screen_congr {driver : Driver} {other : Mem} {fb : FrameBuffer}
    (same
      : ∀ k : Nat, Access.read () (k : Int) ∈ fbUpdateReads driver fb →
          driver.screen k = other k)
    : fbUpdate { driver with screen := other } fb = fbUpdate driver fb := by
  have refreshes : fbRefresh { driver with screen := other } = fbRefresh driver := rfl
  rw [fbUpdate_eq, fbUpdate_eq, refreshes]
  cases refresh : fbRefresh driver fb with
  | error e fb' => rw [bind_error refresh, bind_error refresh]
  | ok done fb' =>
      rw [fbUpdateReads, refresh] at same
      rw [bind_ok refresh, bind_ok refresh, copyScreen, copyScreen, get_bind, get_bind,
        scanRows_screen_congr same]

end MiniVnc
