import MiniVnc.FrameBuffer.Bounds
import MiniVnc.Sessions.SetUp
import MiniVnc.Updates.Offered
import MiniVnc.Updates.Repaint

/-! The three copies of the screen size: the announced one, the one the frame was allocated for, and
the one of each update.
-/

namespace MiniVnc
open Library.Memory Library.Loop Library.Stream Library.Accesses

/-- The rectangle lies in the screen that the client was told of. -/
def VNCServerInit.Contains (announced : VNCServerInit) (rect : VNCRect) : Prop :=
  rect.x.toNat + rect.w.toNat ≤ announced.fbWidth.toNat
  ∧ rect.y.toNat + rect.h.toNat ≤ announced.fbHeight.toNat

/-- The rows and the columns that an update touches lie in the screen that was announced, from the
first to the last of them, as the fields of the header hold them. A pixel at the origin is sent
when nothing is touched.
-/
structure TouchedInside (announced : VNCServerInit) (frameSize : Nat) (copy : ScreenCopy)
    (height : Nat) : Prop where
  columns
    : ∀ x1 x2, IsLeast (copy.columns height) x1 → IsGreatest (copy.columns height) x2 →
        x1 % 65536 + (x2 + 1 - x1) % 65536 ≤ announced.fbWidth.toNat
  rows
    : ∀ y1 y2, IsLeast (copy.rows height) y1 → IsGreatest (copy.rows height) y2 →
        y1 % 65536 + (y2 + 1 - y1) % 65536 ≤ announced.fbHeight.toNat
  origin
    : copy.rows height = ∅ →
        0 < announced.fbWidth.toNat ∧ 0 < announced.fbHeight.toNat ∧ 0 < frameSize

/-- The request gets as far as to send the header: the driver answers what it is asked, there is a
row function if there is a row, and the sends up to the header are taken.
-/
structure SendsHeader (driver : Driver) (s : UpdateSession) (vi : Video) (vp : VPBlock)
    : Prop where
  informs : driver.Informs s.fb vi vp
  depth : 0 < vi.videoScrY → copyRow? vp.vpPixelSize ≠ none
  taken : s.sock.TakesHeader (paletteDue driver s.fb)

/-- A session can serve a request: if the update gets to copying the screen, there is a place in the
frame for every pixel; and if only a part of the screen is sent, it lies in what was announced.
-/
structure Fits (announced : VNCServerInit) (frameSize : Nat) (driver : Driver)
    (incremental : UInt8) (s : UpdateSession) : Prop where
  pixels
    : ∀ vi vp copy, driver.Informs s.fb vi vp → copyRow? vp.vpPixelSize = some copy →
        ∀ y < vi.videoScrY, ∀ x < coveredWidth vp.vpPixelSize vi.videoScrX,
          y * vi.videoScrX + x < frameSize
  part
    : ∀ vi vp, SendsHeader driver s vi vp → incremental ≠ 0 →
        ¬MostlyDirty (fullScreen s.videoInfo) (driver.copyOf vi vp s.fb) vi.videoScrY →
          TouchedInside announced frameSize (driver.copyOf vi vp s.fb) vi.videoScrY

/-- The update that a request asks for keeps to the frame and to the announced screen, and ends the
session before it touches the frame if it has to.
-/
structure StaysInside (announced : VNCServerInit) (frameSize : Nat) (driver : Driver)
    (incremental : UInt8) (s : UpdateSession) : Prop where
  size : s.fb.frameSize = frameSize
  frame : InBounds (fun _ => frameSize) (fbUpdateAccesses driver s.fb)
  behind
    : ∀ fb k, fbUpdate driver s.fb = .ok () fb → frameSize ≤ k →
        fb.frameToSend k = s.fb.frameToSend k
  cursor
    : ∀ fb, fbUpdate driver s.fb = .ok () fb → rectIn (givenFor driver incremental s) ≠ none →
        incremental ≠ 0 → ¬mostlyDirty (fullScreen s.videoInfo) fb.lastDirty →
          InBounds (fun _ => frameSize) (dirtyReads fb)
  rect : ∀ rect, rectIn (givenFor driver incremental s) = some rect → announced.Contains rect
  untouched : ∀ e fb, fbUpdate driver s.fb = .error e fb → fbUpdateAccesses driver s.fb = []
  unsupported
    : ∀ vi vp, driver.metadata = some vi → driver.mode = some vp →
        copyRow? vp.vpPixelSize = none → 0 < vi.videoScrY →
          ∃ e s', vncEvtUpdateRequest driver incremental s = .error e s'

-----------------------------------------------------------------------------------------
-- The dirty rectangle
-----------------------------------------------------------------------------------------

/-- What is said of the first and the last element of a set, when these are known. -/
theorem forall_extent_iff {marked : Set Nat} {low high : Nat} (least : IsLeast marked low)
    (greatest : IsGreatest marked high) {P : Nat → Nat → Prop}
    : (∀ a b, IsLeast marked a → IsGreatest marked b → P a b) ↔ P low high := by
  constructor
  · intro all
    exact all low high least greatest
  · intro here a b least' greatest'
    rw [least'.unique least, greatest'.unique greatest]
    exact here

theorem forall_extent_empty {marked : Set Nat} (empty : marked = ∅) {P : Nat → Nat → Prop}
    : ∀ a b, IsLeast marked a → IsGreatest marked b → P a b := by
  intro a b least
  rw [empty] at least
  exact absurd least.1 (Set.notMem_empty a)

theorem FbRect.width_natCast {x1 x2 : Nat} (ordered : x1 ≤ x2) (y1 y2 : Int)
    : FbRect.width ⟨x1, x2, y1, y2⟩ = (x2 + 1 - x1 : Nat) := by
  show (x2 : Int) + 1 - x1 = _
  omega

theorem FbRect.height_natCast {y1 y2 : Nat} (ordered : y1 ≤ y2) (x1 x2 : Int)
    : FbRect.height ⟨x1, x2, y1, y2⟩ = (y2 + 1 - y1 : Nat) := by
  show (y2 : Int) + 1 - y1 = _
  omega

theorem dirtyScreen_contained_iff {announced : VNCServerInit} {x1 x2 y1 y2 : Nat}
    (ordered : x1 ≤ x2 ∧ y1 ≤ y2)
    : announced.Contains (dirtyScreen ⟨x1, x2, y1, y2⟩)
      ↔ x1 % 65536 + (x2 + 1 - x1) % 65536 ≤ announced.fbWidth.toNat
        ∧ y1 % 65536 + (y2 + 1 - y1) % 65536 ≤ announced.fbHeight.toNat := by
  rw [VNCServerInit.Contains, dirtyScreen, FbRect.width_natCast ordered.1,
    FbRect.height_natCast ordered.2, ofInt_toNat, ofInt_toNat, ofInt_toNat, ofInt_toNat]

/-- The cursor reads one pixel when nothing has changed. -/
theorem dirtyReads_origin {fb : FrameBuffer} (unchanged : fb.lastDirty = ⟨0, 0, 0, 0⟩)
    (frameSize : Nat)
    : InBounds (fun _ => frameSize) (dirtyReads fb) ↔ 0 < frameSize := by
  have log : dirtyReads fb = reads () 0 1 := by
    simp [dirtyReads, cursorReads, fbMoreDirty, fbResetDirtyCursor, fbDirtyCursorPtr,
      fbSizeAtDirtyCursor, unchanged, FbRect.height, FbRect.width]
  rw [log, inBounds_reads]
  omega

/-- What an update touches lies in the announced screen exactly when the rectangle does that is
sent for it and, if it is only the pixel at the origin, the frame has one. By cases on whether
something has changed.
-/
theorem touchedInside_iff {announced : VNCServerInit} {frameSize height : Nat} {copy : ScreenCopy}
    {fb : FrameBuffer} (copied : Copied copy height fb)
    (places
      : ∀ y < height, ∀ x < coveredWidth copy.depth copy.width, y * copy.width + x < frameSize)
    (width : fb.vi.videoScrX = copy.width)
    : TouchedInside announced frameSize copy height
      ↔ announced.Contains (dirtyScreen fb.lastDirty)
        ∧ InBounds (fun _ => frameSize) (dirtyReads fb) := by
  have dirty := copied.dirty
  generalize rect : fb.lastDirty = corners at dirty
  generalize fb.lastChanged = changed at dirty
  cases dirty with
  | unchanged noRow noColumn =>
      rw [dirtyReads_origin rect, ← Nat.cast_zero, dirtyScreen_contained_iff ⟨le_rfl, le_rfl⟩]
      constructor
      · intro inside
        obtain ⟨wide, high, some_⟩ := inside.origin noRow
        exact ⟨⟨by omega, by omega⟩, some_⟩
      · rintro ⟨⟨wide, high⟩, some_⟩
        refine ⟨forall_extent_empty noColumn, forall_extent_empty noRow, fun _ => ?_⟩
        exact ⟨by omega, by omega, some_⟩
  | @changed x1 x2 y1 y2 left right top bottom =>
      have ordered : x1 ≤ x2 ∧ y1 ≤ y2 := ⟨left.2 right.1, top.2 bottom.1⟩
      obtain ⟨y, _, inside, _⟩ := right.1
      have last : y2 < height := bottom.1.1
      have cursor : InBounds (fun _ => frameSize) (dirtyReads fb) := by
        refine dirtyReads_inside rect ordered fun y above => ?_
        rw [width]
        exact places y (by omega) x2 inside
      rw [and_iff_left cursor, dirtyScreen_contained_iff ordered]
      constructor
      · intro inside
        exact ⟨inside.columns x1 x2 left right, inside.rows y1 y2 top bottom⟩
      · rintro ⟨wide, high⟩
        refine ⟨(forall_extent_iff left right).mpr wide, (forall_extent_iff top bottom).mpr high,
          fun none_ => ?_⟩
        exact absurd (none_ ▸ top.1) (Set.notMem_empty y1)

/-- An update that has been copied inside the frame had a place for every pixel. -/
theorem fbUpdate_places {frameSize : Nat} {driver : Driver} {fb fb' : FrameBuffer}
    (frame : InBounds (fun _ => frameSize) (fbUpdateAccesses driver fb))
    (update : fbUpdate driver fb = .ok () fb')
    : ∀ y < fb'.vi.videoScrY, ∀ x < coveredWidth fb'.vp.vpPixelSize fb'.vi.videoScrX,
        y * fb'.vi.videoScrX + x < frameSize := by
  intro y row
  obtain ⟨copy, known⟩ := fbUpdate_known update (by omega)
  exact fbUpdateAccesses_inside_iff.mp frame _ _ copy (fbUpdate_informs update) known y row

/-- A partial update is right exactly when what it touches lies in the announced screen. -/
theorem partial_iff {announced : VNCServerInit} {frameSize : Nat} {driver : Driver}
    {fb fb' : FrameBuffer} (frame : InBounds (fun _ => frameSize) (fbUpdateAccesses driver fb))
    (update : fbUpdate driver fb = .ok () fb')
    : TouchedInside announced frameSize (driver.copyOf fb'.vi fb'.vp fb) fb'.vi.videoScrY
      ↔ announced.Contains (dirtyScreen fb'.lastDirty)
        ∧ InBounds (fun _ => frameSize) (dirtyReads fb') :=
  touchedInside_iff (fbUpdate_ok update).copied (fbUpdate_places frame update) rfl

/-- A rectangle is sent exactly when the request gets as far as that. -/
theorem sendsHeader_iff {driver : Driver} {incremental : UInt8} {s : UpdateSession}
    : rectIn (givenFor driver incremental s) ≠ none ↔ ∃ vi vp, SendsHeader driver s vi vp := by
  rcases rectIn_givenFor driver incremental s with ⟨none_, refused⟩ | ⟨fb, update, taken, sent⟩
  · refine iff_of_false (not_not.mpr none_) ?_
    rintro ⟨vi, vp, sends⟩
    obtain ⟨fb, update⟩ := fbUpdate_returns_iff.mpr ⟨vi, vp, sends.informs, sends.depth⟩
    exact refused fb update ((fbUpdate_ok update).clut.changed ▸ sends.taken)
  · refine iff_of_true (sent ▸ Option.some_ne_none _) ?_
    obtain ⟨vi, vp, informs, depth⟩ := fbUpdate_returns_iff.mp ⟨fb, update⟩
    exact ⟨vi, vp, informs, depth, (fbUpdate_ok update).clut.changed ▸ taken⟩

/-- An update stays inside exactly when the session can serve it. -/
theorem staysInside_iff {outside : Outside} {garbage : Garbage} {frameSize : Nat}
    {driver : Driver} {s : UpdateSession} (size : s.fb.frameSize = frameSize)
    (incremental : UInt8)
    : StaysInside (serverInit outside garbage s.videoInfo) frameSize driver incremental s
      ↔ Fits (serverInit outside garbage s.videoInfo) frameSize driver incremental s := by
  constructor
  · intro inside
    refine ⟨fbUpdateAccesses_inside_iff.mp inside.frame, ?_⟩
    intro vi vp sends flag partly
    have header : rectIn (givenFor driver incremental s) ≠ none :=
      sendsHeader_iff.mpr ⟨vi, vp, sends⟩
    obtain ⟨none_, _⟩ | ⟨fb, update, _, sent⟩ := rectIn_givenFor driver incremental s
    · exact absurd none_ header
    · have updated := fbUpdate_ok update
      cases sends.informs.metadata.symm.trans updated.metadata
      cases sends.informs.mode.symm.trans updated.mode
      rw [← mostlyDirty_iff updated.copied] at partly
      have rect : (responseTo s.videoInfo incremental fb).rect = dirtyScreen fb.lastDirty :=
        if_neg (not_or.mpr ⟨flag, partly⟩)
      rw [rect] at sent
      exact (partial_iff inside.frame update).mpr
        ⟨inside.rect _ sent, inside.cursor fb update header flag partly⟩
  · intro fits
    have frame : InBounds (fun _ => frameSize) (fbUpdateAccesses driver s.fb) :=
      fbUpdateAccesses_inside_iff.mpr fits.pixels
    have part {fb : FrameBuffer} (update : fbUpdate driver s.fb = .ok () fb)
        (header : rectIn (givenFor driver incremental s) ≠ none) (flag : incremental ≠ 0)
        (partly : ¬mostlyDirty (fullScreen s.videoInfo) fb.lastDirty)
        : (serverInit outside garbage s.videoInfo).Contains (dirtyScreen fb.lastDirty)
          ∧ InBounds (fun _ => frameSize) (dirtyReads fb) := by
      have updated := fbUpdate_ok update
      rw [mostlyDirty_iff updated.copied] at partly
      obtain ⟨vi, vp, sends⟩ := sendsHeader_iff.mp header
      cases sends.informs.metadata.symm.trans updated.metadata
      cases sends.informs.mode.symm.trans updated.mode
      exact (partial_iff frame update).mp (fits.part fb.vi fb.vp sends flag partly)
    refine ⟨size, frame, ?_, ?_, ?_, fun _ _ => fbUpdateAccesses_error, ?_⟩
    · intro fb k update behind
      refine fbUpdate_kept update fun written => ?_
      have inside : (k : Int) < frameSize := (frame _ written).2
      omega
    · intro fb update header flag partly
      exact (part update header flag partly).2
    · intro rect sent
      have header : rectIn (givenFor driver incremental s) ≠ none :=
        fun none_ => nomatch none_.symm.trans sent
      obtain ⟨none_, _⟩ | ⟨fb, update, _, sent'⟩ := rectIn_givenFor driver incremental s
      · exact absurd none_ header
      · obtain rfl := Option.some.inj (sent.symm.trans sent')
        by_cases full : incremental = 0 ∨ mostlyDirty (fullScreen s.videoInfo) fb.lastDirty = true
        · simp only [responseTo, if_pos full]
          refine ⟨?_, ?_⟩ <;> exact (Nat.zero_add _).le
        · simp only [responseTo, if_neg full]
          exact (part update header (not_or.mp full).1 (not_or.mp full).2).1
    · intro vi vp metadata mode unknown rows
      obtain ⟨e, fb, ended⟩ := fbUpdate_unknown s.fb metadata mode unknown rows
      refine ⟨e, { s with fb }, ?_⟩
      have ended' : onFrameBuffer (fbUpdate driver) s = .error e { s with fb } := by
        simp only [onFrameBuffer, ended]
      exact bind_error ended'

-----------------------------------------------------------------------------------------
-- Whole sessions
-----------------------------------------------------------------------------------------

/-- Both sessions announced the same screen and have a frame of the same size. -/
structure SameSizes (s s' : Server) : Prop where
  videoInfo : s'.updates.videoInfo = s.updates.videoInfo
  frameSize : s'.updates.fb.frameSize = s.updates.fb.frameSize

/-- No message changes the sizes fixed at the set-up. -/
theorem handleEvent_sizes {drivers : Drivers} {event : Parser.Event} {s s' : Server}
    (returned : handleEvent drivers event s = .ok () s')
    : SameSizes s s' := by
  cases handleEvent_ok returned with
  | answered answered =>
      obtain ⟨fb, update, _, same⟩ := vncEvtUpdateRequest_ok answered
      refine ⟨?_, ?_⟩
      · rw [same]
      · rw [same]
        exact (fbUpdate_ok update).frameSize
  | other updates asked notRequest => exact ⟨by rw [updates], by rw [updates]⟩

/-- Neither does a run of them. -/
theorem run_sizes {drivers : Drivers} {events : List Parser.Event} {s s' : Server}
    (returned : run (handleEvent drivers) events s = .ok () s')
    : SameSizes s s' := by
  refine run_invariant (SameSizes s) ?_ returned ⟨rfl, rfl⟩
  intro event _ before after handled same
  have step := handleEvent_sizes handled
  exact ⟨step.videoInfo.trans same.videoInfo, step.frameSize.trans same.frameSize⟩

/-- In every session that gets to its messages, and after any of them, an update keeps to the frame
allocated at first and to the screen that the ServerInit announced exactly when the session can
serve it.
-/
theorem updates_stayInside (outside : Outside) (garbage : Garbage) (start s : Sess)
    (ready : setUp outside garbage start = .ok () s)
    : ∃ first second,
        outside.init.metadata = some first ∧ outside.announced.metadata = some second
        ∧ s.socket.offered
          = start.socket.offered ++ versionBytes ++ ulongBytes 1
            ++ (serverInit outside garbage second).bytes
        ∧ ∀ events t (evt : VNCFBUpdateReq),
            run (handleEvent (outside.drivers.withGarbage garbage)) events s.parser.handlers
                = .ok () t
            → first.videoScrX * first.videoScrY < 2 ^ 31
            → (StaysInside (serverInit outside garbage second)
                  (first.videoScrX * first.videoScrY)
                  ((outside.drivers.withGarbage garbage).update t.asked) evt.incremental t.updates
              ↔ Fits (serverInit outside garbage second) (first.videoScrX * first.videoScrY)
                  ((outside.drivers.withGarbage garbage).update t.asked) evt.incremental
                  t.updates) := by
  obtain ⟨first, vp, second, accepted, count, accepted', last, prepares, greets, sends, rfl⟩ :=
    setUp_ok_iff.mp ready
  refine ⟨first, second, prepares.metadata, prepares.announced, ?_, ?_⟩
  · rfl
  · intro events t evt returned _
    have same := run_sizes returned
    have videoInfo : t.updates.videoInfo = second := same.videoInfo
    rw [← videoInfo]
    exact staysInside_iff same.frameSize evt.incremental

/-- What an update of a screen touches lies in it. -/
theorem ScreenCopy.touchedInside {announced : VNCServerInit} {frameSize height : Nat}
    (copy : ScreenCopy) (wide : copy.width ≤ announced.fbWidth.toNat)
    (high : height ≤ announced.fbHeight.toNat)
    (origin : 0 < announced.fbWidth.toNat ∧ 0 < announced.fbHeight.toNat ∧ 0 < frameSize)
    : TouchedInside announced frameSize copy height := by
  have width := announced.fbWidth.toNat_lt
  have rows := announced.fbHeight.toNat_lt
  refine ⟨?_, ?_, fun _ => origin⟩
  · intro x1 x2 left right
    obtain ⟨_, _, inside, _⟩ := right.1
    have covered := coveredWidth_le copy.depth copy.width
    have ordered := left.2 right.1
    omega
  · intro y1 y2 top bottom
    have last := bottom.1.1
    have ordered := top.2 bottom.1
    omega

/-- A session can serve a screen that keeps the size it had when it was set up. -/
theorem Fits.same_size {outside : Outside} {garbage : Garbage} {vi : Video} (sized : vi.Sized)
    {driver : Driver} (reports : driver.Reports vi) (incremental : UInt8) (s : UpdateSession)
    : Fits (serverInit outside garbage vi) (vi.videoScrX * vi.videoScrY) driver incremental s := by
  have width : (serverInit outside garbage vi).fbWidth.toNat = vi.videoScrX :=
    ofNat_toNat_of_le sized.width_le
  have height : (serverInit outside garbage vi).fbHeight.toNat = vi.videoScrY :=
    ofNat_toNat_of_le sized.height_le
  have width_pos := sized.width_pos
  have height_pos := sized.height_pos
  refine ⟨?_, ?_⟩
  · intro vi' vp copy informs _ y row x inside
    rw [reports vi' informs.metadata] at row inside ⊢
    have covered := coveredWidth_le vp.vpPixelSize vi.videoScrX
    have rows : (y + 1) * vi.videoScrX ≤ vi.videoScrY * vi.videoScrX :=
      Nat.mul_le_mul_right _ row
    rw [Nat.succ_mul, Nat.mul_comm vi.videoScrY] at rows
    omega
  · intro vi' vp sends _ _
    obtain rfl := reports vi' sends.informs.metadata
    refine ScreenCopy.touchedInside _ (Nat.le_of_eq width.symm) (Nat.le_of_eq height.symm) ?_
    exact ⟨by omega, by omega, Nat.mul_pos width_pos height_pos⟩

theorem updates_stayInside_small
    : ∃ first second,
        some smallScreen = some first ∧ some smallScreen = some second
        ∧ StaysInside
            (serverInit (smallOutside helloBytes fun _ => some 256) (zeroGarbage 0) second)
            (first.videoScrX * first.videoScrY) (smallDriver (fun _ => 7) 5) 1
            (helloSession (zeroGarbage 0)).parser.handlers.updates := by
  obtain ⟨first, second, metadata, announced, _, inside⟩ :=
    updates_stayInside (smallOutside helloBytes fun _ => some 256) (zeroGarbage 0) _ _
      (hello_setUp (zeroGarbage 0) _)
  obtain rfl := Option.some.inj metadata
  obtain rfl := Option.some.inj announced
  refine ⟨smallScreen, smallScreen, rfl, rfl, ?_⟩
  refine (inside [] _ ⟨3, 1, 0, 0, 8, 1⟩ rfl (by decide)).mpr ?_
  exact Fits.same_size smallScreen_sized (smallDriver_reports (fun _ => 7) 5) 1 _

/-- A driver of a screen that is one row taller. -/
def tallDriver : Driver :=
  { smallDriver (fun _ => 7) 5 with metadata := some ⟨8, 2, smallScreen.xFits, by decide⟩ }

/-- When the screen grows by a row, the update that finds it writes the row behind the end of the
frame, and it is answered.
-/
theorem tallScreen_overruns
    : setUp { smallOutside helloBytes fun _ => some 256 with
          drivers := ⟨fun _ => tallDriver, fun _ => true⟩ }
          (zeroGarbage 0) (.zeroed (smallOutside helloBytes fun _ => some 256))
        = .ok () (helloSession (zeroGarbage 0))
      ∧ (∃ left s',
          vncEvtUpdateRequest tallDriver 1 (helloSession (zeroGarbage 0)).parser.handlers.updates
            = .ok left s')
      ∧ Access.write () 8
          ∈ fbUpdateAccesses tallDriver
              (helloSession (zeroGarbage 0)).parser.handlers.updates.fb
      ∧ ¬StaysInside
          (serverInit (smallOutside helloBytes fun _ => some 256) (zeroGarbage 0) smallScreen) 8
          tallDriver 1 (helloSession (zeroGarbage 0)).parser.handlers.updates := by
  have written : Access.write () 8
      ∈ fbUpdateAccesses tallDriver
          (helloSession (zeroGarbage 0)).parser.handlers.updates.fb := by
    decide +kernel
  refine ⟨hello_setUp _ _, ?_, written, ?_⟩
  · obtain ⟨fb, update⟩ := fbUpdate_returns
      (show tallDriver.Answers from
        ⟨⟨_, rfl⟩, ⟨_, _, rfl, rfl⟩, ⟨_, rfl⟩, fun _ _ => ⟨_, rfl⟩⟩)
      (helloSession (zeroGarbage 0)).parser.handlers.updates.fb
    exact vncEvtUpdateRequest_returns 1 (fun _ _ => Option.some_ne_none _) update
  · intro inside
    exact absurd (inside.frame _ written).2 (by decide)

end MiniVnc
