import MiniVnc.Updates.Response

/-! Whole sessions of update requests on a screen that keeps its size. -/

namespace MiniVnc
open Library.Memory Library.Loop Library.Stream

/-- A FramebufferUpdateRequest, with what the update it asks for gets from outside. -/
structure Request where
  driver : Driver
  incremental : UInt8

def serve (request : Request) : Update Unit := do
  let _ ← vncEvtUpdateRequest request.driver request.incremental

/-- The set-up of a session, as far as updates depend on it. -/
def openSession (first second : Driver) (malloced : Option Mem) (mapped : Bool)
    : Update Unit := do
  onFrameBuffer (fbInit first malloced mapped)
  sessionSetupVideoInfo second

/-- If the driver answers, it reports the screen `vi`. -/
def Driver.Reports (driver : Driver) (vi : Video) : Prop :=
  ∀ vi', driver.metadata = some vi' → vi' = vi

/-- A screen size the protocol and the row functions can handle. -/
structure Video.Proper (vi : Video) : Prop where
  width_pos : 0 < vi.videoScrX
  width_dvd : 8 ∣ vi.videoScrX
  height_pos : 0 < vi.videoScrY
  width_le : vi.videoScrX ≤ 65535
  height_le : vi.videoScrY ≤ 65535
  area : vi.videoScrX * vi.videoScrY < 2 ^ 31

/-- A screen size the protocol can announce, of any width. -/
structure Video.Sized (vi : Video) : Prop where
  width_pos : 0 < vi.videoScrX
  height_pos : 0 < vi.videoScrY
  width_le : vi.videoScrX ≤ 65535
  height_le : vi.videoScrY ≤ 65535
  area : vi.videoScrX * vi.videoScrY < 2 ^ 31

theorem Video.Proper.sized {vi : Video} (proper : vi.Proper) : vi.Sized :=
  ⟨proper.width_pos, proper.height_pos, proper.width_le, proper.height_le, proper.area⟩

/-- The session has been set up on the screen `vi`. -/
structure Serving (vi : Video) (s : UpdateSession) : Prop where
  videoInfo : s.videoInfo = vi
  frameSize : s.fb.frameSize = vi.videoScrX * vi.videoScrY

/-- The frame buffer that `fb_init` leaves. -/
def FrameBuffer.initial (vi : Video) (vp : VPBlock) (frame : Mem) : FrameBuffer where
  vp := vp
  vi := vi
  frameToSend := frame
  frameSize := vi.videoScrX * vi.videoScrY
  lastChanged := false
  lastDirty := ⟨0, 0, 0, 0⟩
  dirtyCursor := ⟨0, 0, 0⟩
  clutChanged := false
  clutHash := 0
  clut := fun _ => 0
  vncClut := fun _ => ⟨0, 0, 0⟩

theorem fbInit_ok_iff {driver : Driver} {malloced : Option Mem} {mapped : Bool}
    {fb fb' : FrameBuffer} {value : Unit}
    : fbInit driver malloced mapped fb = .ok value fb'
      ↔ ∃ vi vp frame, driver.metadata = some vi ∧ driver.mode = some vp
          ∧ malloced = some frame ∧ mapped = true ∧ fb' = .initial vi vp frame := by
  constructor
  · intro returned
    rw [fbInit, set_bind] at returned
    obtain ⟨_, informed, first, rest⟩ := bind_eq_ok.mp returned
    obtain ⟨vi, vp, metadata, mode, rfl⟩ := fbGetVideoInfo_ok.mp first
    rw [modify_bind] at rest
    obtain ⟨frame, allocated, rest⟩ := ioctl_bind_ok.mp rest
    rw [modify_bind] at rest
    cases mapped with
    | false => cases rest
    | true =>
        cases rest
        exact ⟨vi, vp, frame, metadata, mode, allocated, rfl, rfl⟩
  · rintro ⟨vi, vp, frame, metadata, mode, rfl, rfl, rfl⟩
    rw [fbInit, set_bind, fbGetVideoInfo, metadata, mode]
    rfl

/-- A session starts out serving the screen both its copies of the size are read from. -/
theorem openSession_serving {first second : Driver} {malloced : Option Mem} {mapped : Bool}
    {vi : Video} {s s' : UpdateSession} (firstReports : first.Reports vi)
    (secondReports : second.Reports vi)
    (h : openSession first second malloced mapped s = .ok () s')
    : Serving vi s' ∧ s'.sock = s.sock := by
  obtain ⟨_, opened, init, h⟩ := bind_eq_ok.mp h
  obtain ⟨fb, inited, rfl⟩ := onFrameBuffer_ok init
  obtain ⟨vi', vp, frame, metadata, _, _, _, rfl⟩ := fbInit_ok_iff.mp inited
  obtain ⟨videoInfo, metadata', h⟩ := ioctl_bind_ok.mp h
  cases h
  refine ⟨⟨secondReports _ metadata', ?_⟩, rfl⟩
  rw [← firstReports vi' metadata]
  rfl

/-- What a request that is answered does to a serving session. -/
structure Answered (vi : Video) (request : Request) (s s' : UpdateSession) (fb : FrameBuffer)
    : Prop where
  update : fbUpdate request.driver s.fb = .ok () fb
  sameVi : fb.vi = vi
  frameSize : fb.frameSize = vi.videoScrX * vi.videoScrY
  frame : s'.fb.frameToSend = fb.frameToSend
  took : s.sock.Took (responseTo vi request.incremental fb).bytes s'.sock
  serving : Serving vi s'

theorem serve_ok {vi : Video} {request : Request} {s s' : UpdateSession} (serving : Serving vi s)
    (reports : request.driver.Reports vi) (h : serve request s = .ok () s')
    : ∃ fb, Answered vi request s s' fb := by
  obtain ⟨left, last, answered, returned⟩ := bind_eq_ok.mp h
  cases returned
  obtain ⟨fb, update, took, lastEq⟩ := vncEvtUpdateRequest_ok answered
  have updated := fbUpdate_ok update
  have frameSize : fb.frameSize = vi.videoScrX * vi.videoScrY :=
    updated.frameSize.trans serving.frameSize
  rw [serving.videoInfo] at took
  refine ⟨fb, update, reports _ updated.metadata, frameSize, ?_, took, ?_, ?_⟩
  · rw [lastEq]
  · rw [lastEq]
    exact serving.videoInfo
  · rw [lastEq]
    exact frameSize

/-- Requests keep the session serving, however many of them. -/
theorem run_serve_serving {vi : Video} {s t : UpdateSession} (serving : Serving vi s)
    {requests : List Request} (reports : ∀ request ∈ requests, request.driver.Reports vi)
    (returned : run serve requests s = .ok () t)
    : Serving vi t := by
  refine run_invariant (Serving vi) ?_ returned serving
  intro request member before after served serving
  obtain ⟨_, answered⟩ := serve_ok serving (reports request member) served
  exact answered.serving

/-- Unless a `send` fails, a request is served whose ioctls are answered. -/
theorem serve_total {request : Request} (answers : request.driver.Answers)
    : Total UpdateSession.Accepting (serve request) := by
  intro s accepting
  obtain ⟨fb, update⟩ := fbUpdate_returns answers s.fb
  obtain ⟨left, s', answered⟩ :=
    vncEvtUpdateRequest_returns request.incremental accepting update
  obtain ⟨_, _, took, _⟩ := vncEvtUpdateRequest_ok answered
  refine ⟨(), s', bind_ok answered, fun n length => ?_⟩
  rw [took.results]
  exact accepting n length

/-- With a driver that answers and a socket that accepts, a whole run is served. -/
theorem run_serve_returns {requests : List Request}
    (answers : ∀ request ∈ requests, request.driver.Answers) {s : UpdateSession}
    (accepting : s.Accepting)
    : ∃ t, run serve requests s = .ok () t := by
  have total : Total UpdateSession.Accepting (run serve requests) :=
    run_total fun request member => serve_total (answers request member)
  obtain ⟨_, t, returned, _⟩ := total s accepting
  exact ⟨t, returned⟩

/-- Unless a `send` fails, a request that ends the session sends nothing. -/
theorem serve_error {request : Request} {s s' : UpdateSession} {e : SessionError}
    (accepting : s.Accepting) (h : serve request s = .error e s')
    : s'.sock = s.sock := by
  cases answered : vncEvtUpdateRequest request.driver request.incremental s with
  | ok left middle =>
      have returned : serve request s = .ok () middle := bind_ok answered
      rw [returned] at h
      cases h
  | error e' middle =>
      have ended : serve request s = .error e' middle := bind_error answered
      rw [ended] at h
      cases h
      exact vncEvtUpdateRequest_error accepting answered

/-- The corners of the dirty rectangle after an update of a screen that is not empty. -/
structure Corners (vi : Video) (dirty : FbRect) (x1 x2 y1 y2 : Nat) : Prop where
  corners : dirty = ⟨x1, x2, y1, y2⟩
  left_le : x1 ≤ x2
  right_lt : x2 < vi.videoScrX
  top_le : y1 ≤ y2
  bottom_lt : y2 < vi.videoScrY

theorem Corners.width {vi : Video} {dirty : FbRect} {x1 x2 y1 y2 : Nat}
    (corners : Corners vi dirty x1 x2 y1 y2)
    : dirty.width = (x2 + 1 - x1 : Nat) := by
  have ordered := corners.left_le
  rw [corners.corners]
  show (x2 : Int) + 1 - x1 = _
  omega

theorem Corners.height {vi : Video} {dirty : FbRect} {x1 x2 y1 y2 : Nat}
    (corners : Corners vi dirty x1 x2 y1 y2)
    : dirty.height = (y2 + 1 - y1 : Nat) := by
  have ordered := corners.top_le
  rw [corners.corners]
  show (y2 : Int) + 1 - y1 = _
  omega

theorem Answered.corners {vi : Video} {request : Request} {s s' : UpdateSession}
    {fb : FrameBuffer} (answered : Answered vi request s s' fb) (sized : vi.Sized)
    : ∃ x1 x2 y1 y2, Corners vi fb.lastDirty x1 x2 y1 y2 := by
  have copied := (fbUpdate_ok answered.update).copied
  rw [answered.sameVi] at copied
  have dirty := copied.dirty
  generalize fb.lastDirty = rect at dirty ⊢
  generalize fb.lastChanged = changed at dirty
  cases dirty with
  | unchanged noRow noColumn =>
      exact ⟨0, 0, 0, 0, rfl, Nat.le_refl 0, sized.width_pos, Nat.le_refl 0, sized.height_pos⟩
  | @changed x1 x2 y1 y2 left right top bottom =>
      refine ⟨x1, x2, y1, y2, rfl, left.2 right.1, ?_, top.2 bottom.1, bottom.1.1⟩
      obtain ⟨y, _, inside⟩ := right.1
      exact inside.1.trans_le (coveredWidth_le _ _)

end MiniVnc
