import Mathlib.Tactic.Ring
import MiniVnc.FrameBuffer.Palette
import MiniVnc.Library.Accesses

/-! Where `fb_update` reads and writes `frame_to_send`, and where the dirty cursor reads it. -/

namespace MiniVnc
open Library.Memory Library.Loop Library.Stream Library.Accesses

/-- The accesses to the one object `frame_to_send`. -/
abbrev FrameLog := List (Access Unit)

/-- The accesses of `copyWord`: the word is written only when it is different. -/
def copyWordAccesses (dst size i pixes : Nat) (row : RowCopy) : FrameLog :=
  reads () (dst + i * size : Nat) size
  ++ if read row.frame (dst + i * size) size ≠ pixes then writes () (dst + i * size : Nat) size
    else []

/-- The accesses of a row function to its row of the frame. -/
abbrev RowAccesses := Mem → Mem → Nat → Nat → Nat → Int → FrameLog

def fbCopy8RowAccesses : RowAccesses := fun frame screen dst src width uninitialised =>
  loopAccesses (copyWord8 dst src screen)
    (fun i => copyWordAccesses dst 4 i (read screen (src + i * 4) 4))
    (.start frame uninitialised) (width / 4)

def fbCopy1RowAccesses : RowAccesses := fun frame screen dst src width uninitialised =>
  loopAccesses
    (fun i row =>
      let pixes1 := lut1bit.getD ((screen (src + i)).toNat / 16) 0
      let pixes2 := lut1bit.getD ((screen (src + i)).toNat % 16) 0
      copyWord dst 4 (i * 2 + 1) pixes2 (copyWord dst 4 (i * 2) pixes1 row))
    (fun i row =>
      let pixes1 := lut1bit.getD ((screen (src + i)).toNat / 16) 0
      let pixes2 := lut1bit.getD ((screen (src + i)).toNat % 16) 0
      copyWordAccesses dst 4 (i * 2) pixes1 row
      ++ copyWordAccesses dst 4 (i * 2 + 1) pixes2 (copyWord dst 4 (i * 2) pixes1 row))
    (.start frame uninitialised) (width / 8)

def fbCopy2RowAccesses : RowAccesses := fun frame screen dst src width uninitialised =>
  loopAccesses (fun i => copyWord dst 4 i (lut2bit.getD (screen (src + i)).toNat 0))
    (fun i => copyWordAccesses dst 4 i (lut2bit.getD (screen (src + i)).toNat 0))
    (.start frame uninitialised) (width / 4)

def fbCopy4RowAccesses : RowAccesses := fun frame screen dst src width uninitialised =>
  loopAccesses (fun i => copyWord dst 2 i (lut4bit.getD (screen (src + i)).toNat 0))
    (fun i => copyWordAccesses dst 2 i (lut4bit.getD (screen (src + i)).toNat 0))
    (.start frame uninitialised) (width / 2)

/-- The accesses of the row function for a pixel size. -/
def copyRowAccesses (vpPixelSize : Nat) : RowAccesses :=
  if vpPixelSize = 1 then fbCopy1RowAccesses
  else if vpPixelSize = 2 then fbCopy2RowAccesses
  else if vpPixelSize = 4 then fbCopy4RowAccesses
  else if vpPixelSize = 8 then fbCopy8RowAccesses
  else fun _ _ _ _ _ _ => []

/-- The accesses of the first `count` iterations of the row loop, of which there are none behind an
error.
-/
def scanRowsAccesses (driver : Driver) (fb : FrameBuffer) : Nat → FrameLog
  | 0 => []
  | i + 1 =>
      scanRowsAccesses driver fb i
      ++ match scanRows driver fb i with
        | .ok scan =>
            copyRowAccesses fb.vp.vpPixelSize scan.frame driver.screen (i * fb.vi.videoScrX)
              (i * fb.vp.vpRowBytes) fb.vi.videoScrX (driver.uninitialised i)
        | .error _ => []

/-- What `fb_update` does before it copies. -/
def fbRefresh (driver : Driver) : EStateM SessionError FrameBuffer Unit := do
  fbGetVideoInfo driver
  fbUpdateClut driver

def fbUpdateAccesses (driver : Driver) (fb : FrameBuffer) : FrameLog :=
  match fbRefresh driver fb with
  | .ok _ fb => scanRowsAccesses driver fb fb.vi.videoScrY
  | .error _ _ => []

/-- The reads at the dirty cursor as it goes down, for at most `fuel` rows. -/
def cursorReads : Nat → FrameBuffer → FrameLog
  | 0, _ => []
  | fuel + 1, fb =>
      if fbMoreDirty fb then
        reads () (fbDirtyCursorPtr fb) (fbSizeAtDirtyCursor fb).toNat
        ++ cursorReads fuel (fbAdvanceDirtyCursor fb)
      else
        []

/-- The reads of the loop in `vnc_send_body_raw`. -/
def dirtyReads (fb : FrameBuffer) : FrameLog :=
  cursorReads fb.lastDirty.height.toNat (fbResetDirtyCursor fb)

-----------------------------------------------------------------------------------------
-- The row functions
-----------------------------------------------------------------------------------------

section Rows

variable {frameSize : Nat}

theorem copyWordAccesses_inside_iff {dst size i pixes : Nat} {row : RowCopy} (positive : 0 < size)
    : InBounds (fun _ => frameSize) (copyWordAccesses dst size i pixes row)
      ↔ dst + (i + 1) * size ≤ frameSize := by
  have next : (i + 1) * size = i * size + size := Nat.succ_mul i size
  have block : (size = 0 ∨ 0 ≤ ((dst + i * size : Nat) : Int)
        ∧ ((dst + i * size : Nat) : Int) + size ≤ frameSize)
      ↔ dst + (i + 1) * size ≤ frameSize := by
    omega
  rw [copyWordAccesses, inBounds_append, inBounds_reads, block]
  split
  · rw [inBounds_writes, block, and_self]
  · rw [and_iff_left inBounds_nil]

/-- A row of words stays inside exactly when its last word does. -/
theorem words_inside_iff (dst size count : Nat)
    : (∀ i < count, dst + (i + 1) * size ≤ frameSize)
      ↔ count = 0 ∨ dst + count * size ≤ frameSize := by
  constructor
  · intro inside
    cases count with
    | zero => exact Or.inl rfl
    | succ count => exact Or.inr (inside count (Nat.lt_succ_self count))
  · rintro (rfl | inside) i below
    · exact absurd below (Nat.not_lt_zero i)
    · have words : (i + 1) * size ≤ count * size := Nat.mul_le_mul_right size below
      omega

/-- The accesses of a row function for a depth are to the covered part of its row. -/
theorem copyRowAccesses_inside_iff {depth : Nat} {copy : CopyRow}
    (known : copyRow? depth = some copy) (frame screen : Mem) (dst src width : Nat)
    (uninitialised : Int)
    : InBounds (fun _ => frameSize)
          (copyRowAccesses depth frame screen dst src width uninitialised)
      ↔ coveredWidth depth width = 0 ∨ dst + coveredWidth depth width ≤ frameSize := by
  unfold copyRow? at known
  split_ifs at known with one two four eight
  · subst one
    have accesses : copyRowAccesses 1 = fbCopy1RowAccesses := rfl
    simp only [accesses, fbCopy1RowAccesses, inBounds_loop, inBounds_append,
      copyWordAccesses_inside_iff (Nat.succ_pos _)]
    have both : ∀ i : Nat,
        (dst + (i * 2 + 1) * 4 ≤ frameSize ∧ dst + (i * 2 + 1 + 1) * 4 ≤ frameSize)
          ↔ dst + (i + 1) * 8 ≤ frameSize := by
      intro i
      omega
    have covered : coveredWidth 1 width = width / 8 * 8 := rfl
    simp only [both, words_inside_iff, covered]
    omega
  · subst two
    have covered : coveredWidth 2 width = width / 4 * 4 := rfl
    have accesses : copyRowAccesses 2 = fbCopy2RowAccesses := rfl
    simp only [accesses, fbCopy2RowAccesses, inBounds_loop,
      copyWordAccesses_inside_iff (Nat.succ_pos _), words_inside_iff, covered]
    omega
  · subst four
    have covered : coveredWidth 4 width = width / 2 * 2 := rfl
    have accesses : copyRowAccesses 4 = fbCopy4RowAccesses := rfl
    simp only [accesses, fbCopy4RowAccesses, inBounds_loop,
      copyWordAccesses_inside_iff (Nat.succ_pos _), words_inside_iff, covered]
    omega
  · subst eight
    have covered : coveredWidth 8 width = width / 4 * 4 := rfl
    have accesses : copyRowAccesses 8 = fbCopy8RowAccesses := rfl
    simp only [accesses, fbCopy8RowAccesses, inBounds_loop,
      copyWordAccesses_inside_iff (Nat.succ_pos _), words_inside_iff, covered]
    omega

end Rows

theorem mem_writes {k offset count : Nat} (inside : offset ≤ k ∧ k < offset + count)
    : (Access.write () (k : Int)) ∈ writes () (offset : Int) count := by
  refine List.mem_map.mpr ⟨k - offset, List.mem_range.mpr (by omega), ?_⟩
  congr 1
  omega

/-- A word that is not written is left alone. -/
theorem copyWord_kept {dst size i pixes k : Nat} {row : RowCopy}
    (none : Access.write () (k : Int) ∉ copyWordAccesses dst size i pixes row)
    : (copyWord dst size i pixes row).frame k = row.frame k := by
  rw [copyWordAccesses, List.mem_append, not_or] at none
  unfold copyWord
  split
  · next different =>
      have none := none.2
      rw [if_pos different] at none
      by_contra changed
      refine none (mem_writes ?_)
      by_contra outside
      exact changed (write_outside (by omega))
  · rfl

theorem copyWord8_kept {dst src i k : Nat} {screen : Mem} {row : RowCopy}
    (none
      : Access.write () (k : Int)
          ∉ copyWordAccesses dst 4 i (read screen (src + i * 4) 4) row)
    : (copyWord8 dst src screen i row).frame k = row.frame k := by
  rw [← copyWord_kept none]
  unfold copyWord8 copyWord
  split <;> rfl

/-- What a row function does not write it leaves alone. -/
theorem copyRow_kept {depth k : Nat} {copy : CopyRow} (known : copyRow? depth = some copy)
    {frame screen : Mem} {dst src width : Nat} {uninitialised : Int}
    (none
      : Access.write () (k : Int)
          ∉ copyRowAccesses depth frame screen dst src width uninitialised)
    : (copy frame screen dst src width uninitialised).frame k = frame k := by
  unfold copyRow? at known
  split_ifs at known with one two four eight
  · subst one
    cases known
    have accesses : copyRowAccesses 1 = fbCopy1RowAccesses := rfl
    rw [accesses] at none
    refine kept_of_notMem_loop (fun row : RowCopy => row.frame k) ?_ none
    intro i row none
    rw [List.mem_append, not_or] at none
    exact (copyWord_kept none.2).trans (copyWord_kept none.1)
  · subst two
    cases known
    have accesses : copyRowAccesses 2 = fbCopy2RowAccesses := rfl
    rw [accesses] at none
    exact kept_of_notMem_loop (fun row : RowCopy => row.frame k) (fun _ _ => copyWord_kept) none
  · subst four
    cases known
    have accesses : copyRowAccesses 4 = fbCopy4RowAccesses := rfl
    rw [accesses] at none
    exact kept_of_notMem_loop (fun row : RowCopy => row.frame k) (fun _ _ => copyWord_kept) none
  · subst eight
    cases known
    have accesses : copyRowAccesses 8 = fbCopy8RowAccesses := rfl
    rw [accesses] at none
    exact kept_of_notMem_loop (fun row : RowCopy => row.frame k) (fun _ _ => copyWord8_kept) none

-----------------------------------------------------------------------------------------
-- The whole update
-----------------------------------------------------------------------------------------

/-- The rows' accesses stay inside exactly when every pixel copied has its place in the frame: by
induction on the rows.
-/
theorem scanRowsAccesses_inside_iff {driver : Driver} {fb : FrameBuffer} {copy : CopyRow}
    (known : copyRow? fb.vp.vpPixelSize = some copy) (frameSize count : Nat)
    : InBounds (fun _ => frameSize) (scanRowsAccesses driver fb count)
      ↔ ∀ y < count, ∀ x < coveredWidth fb.vp.vpPixelSize fb.vi.videoScrX,
          y * fb.vi.videoScrX + x < frameSize := by
  induction count with
  | zero => simp [scanRowsAccesses]
  | succ i ih =>
      obtain ⟨scan, scans⟩ := @scanRows_returns driver fb copy known i
      rw [scanRowsAccesses, inBounds_append, ih, scans]
      dsimp only
      rw [copyRowAccesses_inside_iff known]
      generalize coveredWidth fb.vp.vpPixelSize fb.vi.videoScrX = covered
      constructor
      · rintro ⟨before, last⟩ y below x inside
        rcases Nat.lt_succ_iff_lt_or_eq.mp below with earlier | rfl
        · exact before y earlier x inside
        · omega
      · intro all
        refine ⟨fun y below => all y (Nat.lt_succ_of_lt below), ?_⟩
        cases covered with
        | zero => exact Or.inl rfl
        | succ last =>
            have end_ := all i (Nat.lt_succ_self i) last (Nat.lt_succ_self last)
            exact Or.inr (by omega)

/-- A pixel size without a row function accesses nothing. -/
theorem scanRowsAccesses_unknown {driver : Driver} {fb : FrameBuffer}
    (unknown : copyRow? fb.vp.vpPixelSize = none) (count : Nat)
    : scanRowsAccesses driver fb count = [] := by
  have nothing : ∀ frame screen dst src width uninitialised,
      copyRowAccesses fb.vp.vpPixelSize frame screen dst src width uninitialised = [] := by
    intro frame screen dst src width uninitialised
    unfold copyRow? at unknown
    unfold copyRowAccesses
    split_ifs at unknown ⊢
    rfl
  induction count with
  | zero => rfl
  | succ i ih =>
      rw [scanRowsAccesses, ih, List.nil_append]
      split
      · exact nothing _ _ _ _ _ _
      · rfl

/-- The first row of an unknown pixel size ends the scan. -/
theorem scanRows_unknown {driver : Driver} {fb : FrameBuffer}
    (unknown : copyRow? fb.vp.vpPixelSize = none) (i : Nat)
    : ∃ e, scanRows driver fb (i + 1) = .error e := by
  induction i with
  | zero => exact ⟨.unsupportedColourDepth, by simp [scanRows, unknown, bind, Except.bind]⟩
  | succ i ih =>
      obtain ⟨e, ended⟩ := ih
      refine ⟨e, ?_⟩
      rw [scanRows, ended]
      rfl

/-- What the rows do not write they leave alone, by induction on them. -/
theorem scanRows_kept {driver : Driver} {fb : FrameBuffer} {k count : Nat} {scan : Scan}
    (scans : scanRows driver fb count = .ok scan)
    (none : Access.write () (k : Int) ∉ scanRowsAccesses driver fb count)
    : scan.frame k = fb.frameToSend k := by
  induction count generalizing scan with
  | zero =>
      cases scans
      rfl
  | succ i ih =>
      rw [scanRowsAccesses, List.mem_append, not_or] at none
      rw [scanRows] at scans
      cases before : scanRows driver fb i with
      | error e =>
          rw [before] at scans
          cases scans
      | ok earlier =>
          rw [before] at scans none
          cases known : copyRow? fb.vp.vpPixelSize with
          | none =>
              simp only [known] at scans
              cases scans
          | some copy =>
              simp only [known] at scans
              cases scans
              exact (copyRow_kept known none.2).trans (ih before none.1)

theorem fbUpdate_eq (driver : Driver)
    : fbUpdate driver = (fbRefresh driver >>= fun _ => copyScreen driver) := by
  simp only [fbUpdate, fbRefresh, bind_assoc]

/-- Before the copy an update leaves the frame alone. -/
theorem fbRefresh_ok {driver : Driver} {fb fb' : FrameBuffer}
    (h : fbRefresh driver fb = .ok () fb')
    : driver.metadata = some fb'.vi ∧ driver.mode = some fb'.vp
      ∧ fb'.frameToSend = fb.frameToSend ∧ fb'.frameSize = fb.frameSize := by
  obtain ⟨_, informed, first, second⟩ := bind_eq_ok.mp h
  obtain ⟨vi, vp, metadata, mode, rfl⟩ := fbGetVideoInfo_ok.mp first
  obtain ⟨_, rest⟩ := fbUpdateClut_ok second
  rw [rest]
  exact ⟨metadata, mode, rfl, rfl⟩

/-- The driver answers what an update asks before it copies the screen. -/
structure Driver.Informs (driver : Driver) (fb : FrameBuffer) (vi : Video) (vp : VPBlock)
    : Prop where
  metadata : driver.metadata = some vi
  mode : driver.mode = some vp
  clutHash : ∃ hash, driver.clutHash = some hash
  clutChunk : paletteDue driver fb → ∀ i < 32, ∃ chunk, driver.clutChunk i = some chunk

theorem Driver.informs_iff {driver : Driver} {fb : FrameBuffer} {vi : Video} {vp : VPBlock}
    : driver.Informs fb vi vp
      ↔ ∃ fb', fbRefresh driver fb = .ok () fb' ∧ fb'.vi = vi ∧ fb'.vp = vp := by
  constructor
  · intro informs
    obtain ⟨hash, hashed⟩ := informs.clutHash
    have first : fbGetVideoInfo driver fb = .ok () { fb with vi, vp } :=
      fbGetVideoInfo_ok.mpr ⟨vi, vp, informs.metadata, informs.mode, rfl⟩
    obtain ⟨fb', second⟩ := @fbUpdateClut_returns driver hash hashed { fb with vi, vp }
      informs.clutChunk
    obtain ⟨_, rest⟩ := fbUpdateClut_ok second
    refine ⟨fb', (bind_ok first).trans second, ?_, ?_⟩ <;> rw [rest]
  · rintro ⟨fb', refresh, rfl, rfl⟩
    obtain ⟨metadata, mode, _⟩ := fbRefresh_ok refresh
    obtain ⟨_, informed, first, second⟩ := bind_eq_ok.mp refresh
    obtain ⟨vi, vp, _, _, rfl⟩ := fbGetVideoInfo_ok.mp first
    obtain ⟨clut, _⟩ := fbUpdateClut_ok second
    cases clut with
    | kept hash notDue =>
        refine ⟨metadata, mode, ⟨_, hash⟩, fun due => absurd due ?_⟩
        have notDue' : fb.clutChanged = false := notDue
        have hash' : driver.clutHash = some fb.clutHash := hash
        rw [paletteDue, notDue', hash', bne_self_eq_false]
        decide
    | fetched hash _ _ chunks =>
        refine ⟨metadata, mode, ⟨_, hash⟩, fun _ i below => ?_⟩
        obtain ⟨chunk, answered, _⟩ := chunks i below
        exact ⟨chunk, answered⟩

/-- An update stays inside a frame exactly when it has a place for every pixel that is copied, if
the update gets that far.
-/
theorem fbUpdateAccesses_inside_iff {driver : Driver} {fb : FrameBuffer} {frameSize : Nat}
    : InBounds (fun _ => frameSize) (fbUpdateAccesses driver fb)
      ↔ ∀ vi vp copy, driver.Informs fb vi vp → copyRow? vp.vpPixelSize = some copy →
          ∀ y < vi.videoScrY, ∀ x < coveredWidth vp.vpPixelSize vi.videoScrX,
            y * vi.videoScrX + x < frameSize := by
  have informs {fb' : FrameBuffer} (refresh : fbRefresh driver fb = .ok () fb') {vi : Video}
      {vp : VPBlock} (asked : driver.Informs fb vi vp)
      : fb'.vi = vi ∧ fb'.vp = vp := by
    obtain ⟨metadata, mode, _⟩ := fbRefresh_ok refresh
    exact ⟨Option.some.inj (metadata.symm.trans asked.metadata),
      Option.some.inj (mode.symm.trans asked.mode)⟩
  rw [fbUpdateAccesses]
  cases refresh : fbRefresh driver fb with
  | error e fb' =>
      refine iff_of_true inBounds_nil ?_
      intro _ _ _ asked
      obtain ⟨_, returned, _⟩ := Driver.informs_iff.mp asked
      rw [refresh] at returned
      cases returned
  | ok done fb' =>
      dsimp only
      cases known : copyRow? fb'.vp.vpPixelSize with
      | none =>
          rw [scanRowsAccesses_unknown known]
          refine iff_of_true inBounds_nil ?_
          intro _ _ _ asked some_
          obtain ⟨rfl, rfl⟩ := informs refresh asked
          rw [known] at some_
          cases some_
      | some copy =>
          rw [scanRowsAccesses_inside_iff known]
          constructor
          · intro places _ _ _ asked _
            obtain ⟨rfl, rfl⟩ := informs refresh asked
            exact places
          · intro all
            exact all _ _ copy (Driver.informs_iff.mpr ⟨fb', refresh, rfl, rfl⟩) known

/-- An update that ends the session has not touched the frame. -/
theorem fbUpdateAccesses_error {driver : Driver} {fb fb' : FrameBuffer} {e : SessionError}
    (h : fbUpdate driver fb = .error e fb')
    : fbUpdateAccesses driver fb = [] := by
  rw [fbUpdateAccesses]
  cases refresh : fbRefresh driver fb with
  | error e' informed => rfl
  | ok done informed =>
      rw [fbUpdate_eq, bind_ok refresh] at h
      dsimp only
      cases known : copyRow? informed.vp.vpPixelSize with
      | none => exact scanRowsAccesses_unknown known _
      | some copy =>
          obtain ⟨_, returned⟩ := @copyScreen_returns driver informed copy known
          rw [returned] at h
          cases h

/-- A pixel size without a row function ends the session, if there is a row to copy. -/
theorem fbUpdate_unknown {driver : Driver} {vi : Video} {vp : VPBlock} (fb : FrameBuffer)
    (metadata : driver.metadata = some vi) (mode : driver.mode = some vp)
    (unknown : copyRow? vp.vpPixelSize = none) (rows : 0 < vi.videoScrY)
    : ∃ e fb', fbUpdate driver fb = .error e fb' := by
  rw [fbUpdate_eq]
  cases refresh : fbRefresh driver fb with
  | error e fb' => exact ⟨e, fb', bind_error refresh⟩
  | ok done fb' =>
      obtain ⟨metadata', mode', _⟩ := fbRefresh_ok refresh
      obtain rfl := Option.some.inj (metadata'.symm.trans metadata)
      obtain rfl := Option.some.inj (mode'.symm.trans mode)
      obtain ⟨i, last⟩ := Nat.exists_eq_succ_of_ne_zero (Nat.ne_of_gt rows)
      obtain ⟨e, ended⟩ := @scanRows_unknown driver fb' unknown i
      refine ⟨e, fb', ?_⟩
      rw [bind_ok refresh, copyScreen, get_bind, last, ended]
      rfl

/-- An update that has copied a row had a row function for it. -/
theorem fbUpdate_known {driver : Driver} {fb fb' : FrameBuffer}
    (h : fbUpdate driver fb = .ok () fb') (rows : 0 < fb'.vi.videoScrY)
    : ∃ copy, copyRow? fb'.vp.vpPixelSize = some copy := by
  have updated := fbUpdate_ok h
  cases known : copyRow? fb'.vp.vpPixelSize with
  | some copy => exact ⟨copy, rfl⟩
  | none =>
      obtain ⟨e, last, ended⟩ := fbUpdate_unknown fb updated.metadata updated.mode known rows
      rw [ended] at h
      cases h

theorem fbUpdate_informs {driver : Driver} {fb fb' : FrameBuffer}
    (h : fbUpdate driver fb = .ok () fb')
    : driver.Informs fb fb'.vi fb'.vp := by
  have updated := fbUpdate_ok h
  rw [fbUpdate_eq] at h
  obtain ⟨_, informed, refresh, _⟩ := bind_eq_ok.mp h
  obtain ⟨metadata, mode, _⟩ := fbRefresh_ok refresh
  have vi : informed.vi = fb'.vi := Option.some.inj (metadata.symm.trans updated.metadata)
  have vp : informed.vp = fb'.vp := Option.some.inj (mode.symm.trans updated.mode)
  exact Driver.informs_iff.mpr ⟨informed, refresh, vi, vp⟩

/-- An update returns exactly when the driver answers what it asks and there is a row function for
each row.
-/
theorem fbUpdate_returns_iff {driver : Driver} {fb : FrameBuffer}
    : (∃ fb', fbUpdate driver fb = .ok () fb')
      ↔ ∃ vi vp, driver.Informs fb vi vp
          ∧ (0 < vi.videoScrY → copyRow? vp.vpPixelSize ≠ none) := by
  constructor
  · rintro ⟨fb', update⟩
    refine ⟨fb'.vi, fb'.vp, fbUpdate_informs update, fun rows => ?_⟩
    obtain ⟨copy, known⟩ := fbUpdate_known update rows
    rw [known]
    exact Option.some_ne_none _
  · rintro ⟨vi, vp, informs, depth⟩
    obtain ⟨informed, refresh, rfl, rfl⟩ := Driver.informs_iff.mp informs
    rw [fbUpdate_eq, bind_ok refresh]
    rcases Nat.eq_zero_or_pos informed.vi.videoScrY with noRow | rows
    · simp only [copyScreen, get_bind, noRow, scanRows]
      exact ⟨_, rfl⟩
    · obtain ⟨copy, known⟩ := Option.ne_none_iff_exists'.mp (depth rows)
      exact copyScreen_returns known

/-- The frame is as it was where the update has not written it. -/
theorem fbUpdate_kept {driver : Driver} {fb fb' : FrameBuffer} {k : Nat}
    (h : fbUpdate driver fb = .ok () fb')
    (none : Access.write () (k : Int) ∉ fbUpdateAccesses driver fb)
    : fb'.frameToSend k = fb.frameToSend k := by
  rw [fbUpdate_eq] at h
  obtain ⟨_, informed, refresh, copied⟩ := bind_eq_ok.mp h
  obtain ⟨_, _, frame, _⟩ := fbRefresh_ok refresh
  rw [fbUpdateAccesses, refresh] at none
  rw [copyScreen, get_bind] at copied
  cases scans : scanRows driver informed informed.vi.videoScrY with
  | error e =>
      rw [scans] at copied
      cases copied
  | ok scan =>
      rw [scans] at copied
      cases copied
      rw [← frame]
      exact scanRows_kept scans none

-----------------------------------------------------------------------------------------
-- The dirty cursor
-----------------------------------------------------------------------------------------

/-- The cursor reads a stretch of each row, by induction on the rows that are left. -/
theorem cursorReads_eq {count : Nat} {fb : FrameBuffer}
    (left : fb.lastDirty.height = fb.dirtyCursor.numberOfIncrements + count)
    : cursorReads count fb
      = (List.range count).flatMap fun (k : Nat) =>
          reads () (fb.dirtyCursor.offset + k * fb.dirtyCursor.nextRowOffset)
            fb.lastDirty.width.toNat := by
  induction count generalizing fb with
  | zero => rfl
  | succ count ih =>
      have more : fbMoreDirty fb = true := by
        simp only [fbMoreDirty, left, decide_eq_true_eq]
        omega
      have rest := @ih (fbAdvanceDirtyCursor fb) (by
        simp only [fbAdvanceDirtyCursor, left]
        push_cast
        ring)
      rw [cursorReads, if_pos more, rest, List.range_succ_eq_map, List.flatMap_cons,
        List.flatMap_map]
      congr 1
      · simp [fbDirtyCursorPtr, fbSizeAtDirtyCursor]
      · refine List.flatMap_congr fun k _ => ?_
        simp only [fbAdvanceDirtyCursor]
        congr 1
        push_cast
        ring

/-- The cursor stays inside a frame that has a place for every row of the dirty rectangle. -/
theorem dirtyReads_inside {fb : FrameBuffer} {frameSize x1 x2 y1 y2 : Nat}
    (corners : fb.lastDirty = ⟨x1, x2, y1, y2⟩) (ordered : x1 ≤ x2 ∧ y1 ≤ y2)
    (places : ∀ y ≤ y2, y * fb.vi.videoScrX + x2 < frameSize)
    : InBounds (fun _ => frameSize) (dirtyReads fb) := by
  have height : fb.lastDirty.height = (y2 + 1 - y1 : Nat) := by
    rw [corners]
    show (y2 : Int) + 1 - y1 = _
    omega
  have width : fb.lastDirty.width = (x2 + 1 - x1 : Nat) := by
    rw [corners]
    show (x2 : Int) + 1 - x1 = _
    omega
  have left : (fbResetDirtyCursor fb).lastDirty.height
      = (fbResetDirtyCursor fb).dirtyCursor.numberOfIncrements
        + (fb.lastDirty.height.toNat : Nat) := by
    simp only [fbResetDirtyCursor, height]
    omega
  rw [dirtyReads, cursorReads_eq left]
  intro access member
  obtain ⟨k, below, member⟩ := List.mem_flatMap.mp member
  rw [List.mem_range, height] at below
  have row : InBounds (fun _ => frameSize)
      (reads () ((y1 + k : Nat) * fb.vi.videoScrX + x1 : Nat) (x2 + 1 - x1)) := by
    have place := places (y1 + k) (by omega)
    rw [inBounds_reads]
    omega
  have same : (fbResetDirtyCursor fb).dirtyCursor.offset
        + k * (fbResetDirtyCursor fb).dirtyCursor.nextRowOffset
      = ((y1 + k : Nat) * fb.vi.videoScrX + x1 : Nat) := by
    simp only [fbResetDirtyCursor, corners]
    push_cast
    ring
  have wide : (fbResetDirtyCursor fb).lastDirty.width = (x2 + 1 - x1 : Nat) := width
  rw [same, wide] at member
  exact row access member

end MiniVnc
