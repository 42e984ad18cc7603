import Mathlib.Data.List.Forall2
import MiniVnc.Updates.Serving

/-! The server's update stream is well framed: every answered request appends one response,
whose header announces exactly the bytes that follow it.
-/

namespace MiniVnc
open Library.Memory Library.Loop Library.Stream

/-- A response is well framed for the screen `vi` and the frame buffer `fb` it is taken from.
-/
structure WellFramed (vi : Video) (fb : FrameBuffer) (response : Response) : Prop where
  colours
    : ∀ colours, response.colourMap = some colours →
        colourMapHeader.numColours = 256 ∧ colourMapHeader.bytes.length = 6
        ∧ colours.length = 256 ∧ ∀ colour ∈ colours, colour.bytes.length = 6
  width_pos : 1 ≤ response.rect.w.toNat
  height_pos : 1 ≤ response.rect.h.toNat
  right : response.rect.x.toNat + response.rect.w.toNat ≤ vi.videoScrX
  bottom : response.rect.y.toNat + response.rect.h.toNat ≤ vi.videoScrY
  rows
    : response.body
      = (List.range response.rect.h.toNat).flatMap fun k =>
          slice fb.frameToSend
            ((response.rect.y.toNat + k) * vi.videoScrX + response.rect.x.toNat)
            response.rect.w.toNat
  length : response.body.length = response.rect.w.toNat * response.rect.h.toNat
  inside
    : ∀ k < response.rect.h.toNat,
        (response.rect.y.toNat + k) * vi.videoScrX + response.rect.x.toNat
            + response.rect.w.toNat
          ≤ fb.frameSize

/-- Pieces of the same length, by induction on them. -/
theorem flatMap_length {α β : Type} {bytes : α → List β} {size : Nat}
    (each : ∀ value, (bytes value).length = size) (values : List α)
    : (values.flatMap bytes).length = values.length * size := by
  induction values with
  | nil => simp
  | cons value values ih =>
      rw [List.flatMap_cons, List.length_append, ih, each, List.length_cons, Nat.succ_mul]
      omega

/-- The elements of pieces of the same length, by induction on the pieces. -/
theorem flatMap_getElem? {α β : Type} {bytes : α → List β} {size : Nat}
    (each : ∀ value, (bytes value).length = size) (values : List α) {j k : Nat} (inside : k < size)
    : (values.flatMap bytes)[j * size + k]? = values[j]? >>= fun value => (bytes value)[k]? := by
  induction values generalizing j with
  | nil => simp
  | cons value values ih =>
      rw [List.flatMap_cons]
      cases j with
      | zero =>
          rw [Nat.zero_mul, Nat.zero_add, List.getElem?_append_left (by rw [each]; exact inside)]
          rfl
      | succ j =>
          have behind : (j + 1) * size + k - size = j * size + k := by
            rw [Nat.succ_mul]
            omega
          rw [List.getElem?_append_right (by rw [each, Nat.succ_mul]; omega), each, behind, ih,
            List.getElem?_cons_succ]

theorem rows_length {α : Type} (row : Nat → List α) {width : Nat} (count : Nat)
    (each : ∀ k, (row k).length = width)
    : ((List.range count).flatMap row).length = width * count := by
  rw [flatMap_length each, List.length_range, Nat.mul_comm]

/-- A rectangle inside the screen stays inside the frame, row by row. -/
theorem row_inside {width height x w y h : Nat} (right : x + w ≤ width) (bottom : y + h ≤ height)
    : ∀ k < h, (y + k) * width + x + w ≤ width * height := by
  intro k hk
  have row : (y + k + 1) * width ≤ height * width := Nat.mul_le_mul_right width (by omega)
  rw [Nat.succ_mul, Nat.mul_comm height] at row
  omega

theorem ofNat_toNat_of_le {value : Nat} (fits : value ≤ 65535)
    : (UInt16.ofNat value).toNat = value := by
  rw [UInt16.toNat_ofNat']
  omega

/-- A field of the header holds a number modulo 2 ^ 16. -/
theorem ofInt_toNat (value : Nat) : (UInt16.ofInt value).toNat = value % 65536 := by
  rw [UInt16.ofInt, UInt16.toNat_ofNat']
  omega

theorem ofInt_toNat_of_le {value : Nat} (fits : value ≤ 65535)
    : (UInt16.ofInt value).toNat = value := by
  rw [ofInt_toNat]
  omega

/-- The header holds the dirty rectangle of a screen without truncation. -/
theorem Corners.header {vi : Video} (sized : vi.Sized) {dirty : FbRect} {x1 x2 y1 y2 : Nat}
    (corners : Corners vi dirty x1 x2 y1 y2)
    : (dirtyScreen dirty).x.toNat = x1 ∧ (dirtyScreen dirty).y.toNat = y1
      ∧ (dirtyScreen dirty).w.toNat = x2 + 1 - x1
      ∧ (dirtyScreen dirty).h.toNat = y2 + 1 - y1 := by
  have width_le := sized.width_le
  have height_le := sized.height_le
  have right_lt := corners.right_lt
  have bottom_lt := corners.bottom_lt
  have left_le := corners.left_le
  have top_le := corners.top_le
  refine ⟨?_, ?_, ?_, ?_⟩
  · rw [dirtyScreen, corners.corners]
    exact ofInt_toNat_of_le (by omega)
  · rw [dirtyScreen, corners.corners]
    exact ofInt_toNat_of_le (by omega)
  · rw [dirtyScreen, corners.width]
    exact ofInt_toNat_of_le (by omega)
  · rw [dirtyScreen, corners.height]
    exact ofInt_toNat_of_le (by omega)

/-- A well-framed response from its rectangle: the rest follows from where the rectangle lies
and from the rows.
-/
theorem WellFramed.of_rect {vi : Video} {fb : FrameBuffer} {response : Response}
    (frameSize : fb.frameSize = vi.videoScrX * vi.videoScrY)
    (colours : ∀ colours, response.colourMap = some colours → colours.length = 256)
    (width_pos : 1 ≤ response.rect.w.toNat) (height_pos : 1 ≤ response.rect.h.toNat)
    (right : response.rect.x.toNat + response.rect.w.toNat ≤ vi.videoScrX)
    (bottom : response.rect.y.toNat + response.rect.h.toNat ≤ vi.videoScrY)
    (rows
      : response.body
        = (List.range response.rect.h.toNat).flatMap fun k =>
            slice fb.frameToSend
              ((response.rect.y.toNat + k) * vi.videoScrX + response.rect.x.toNat)
              response.rect.w.toNat)
    : WellFramed vi fb response where
  colours := fun map sent => ⟨rfl, rfl, colours map sent, fun _ _ => rfl⟩
  width_pos := width_pos
  height_pos := height_pos
  right := right
  bottom := bottom
  rows := rows
  length := by
    rw [rows]
    exact rows_length _ _ (fun k => slice_length _ _ _)
  inside := by
    rw [frameSize]
    exact row_inside right bottom

/-- A colour map that is sent has 256 colours. -/
theorem responseTo_colours {vi : Video} {incremental : UInt8} {fb : FrameBuffer}
    {colours : List VNCColour} (sent : (responseTo vi incremental fb).colourMap = some colours)
    : colours.length = 256 := by
  simp only [responseTo] at sent
  split at sent
  · cases sent
    simp
  · cases sent

/-- The whole screen is well framed: its rows follow one another in the frame. -/
theorem Answered.wellFramed_fullScreen {vi : Video} {request : Request} {s s' : UpdateSession}
    {fb : FrameBuffer} (answered : Answered vi request s s' fb) (sized : vi.Sized)
    (full : request.incremental = 0 ∨ mostlyDirty (fullScreen vi) fb.lastDirty = true)
    : WellFramed vi s'.fb (responseTo vi request.incremental fb) := by
  have rect : (responseTo vi request.incremental fb).rect = fullScreen vi := if_pos full
  have body : (responseTo vi request.incremental fb).body
      = slice fb.frameToSend 0 fb.frameSize := if_pos full
  have w : (fullScreen vi).w.toNat = vi.videoScrX := ofNat_toNat_of_le sized.width_le
  have h : (fullScreen vi).h.toNat = vi.videoScrY := ofNat_toNat_of_le sized.height_le
  have x : (fullScreen vi).x.toNat = 0 := rfl
  have y : (fullScreen vi).y.toNat = 0 := rfl
  refine .of_rect answered.serving.frameSize (fun _ => responseTo_colours) ?_ ?_ ?_ ?_ ?_
  · rw [rect, w]
    exact sized.width_pos
  · rw [rect, h]
    exact sized.height_pos
  · rw [rect, w, x, Nat.zero_add]
  · rw [rect, h, y, Nat.zero_add]
  · rw [body, rect, w, h, x, y, answered.frame, answered.frameSize, Nat.mul_comm, slice_mul]
    simp

/-- The cursor of the dirty rectangle walks down the rows of the frame. -/
theorem Corners.rowOffset {vi : Video} {dirty : FbRect} {x1 x2 y1 y2 : Nat}
    (corners : Corners vi dirty x1 x2 y1 y2) (k : Nat)
    : (dirty.y1 * vi.videoScrX + dirty.x1 + k * vi.videoScrX : Int).toNat
      = (y1 + k) * vi.videoScrX + x1 := by
  rw [corners.corners]
  have cast : ((y1 : Int) * vi.videoScrX + x1 + k * vi.videoScrX : Int)
      = ((y1 + k) * vi.videoScrX + x1 : Nat) := by
    push_cast
    ring
  rw [cast]
  rfl

/-- The dirty rectangle is well framed: it lies in the screen, with a pixel at least. -/
theorem Answered.wellFramed_dirtyScreen {vi : Video} {request : Request} {s s' : UpdateSession}
    {fb : FrameBuffer} (answered : Answered vi request s s' fb) (sized : vi.Sized)
    (part : ¬ (request.incremental = 0 ∨ mostlyDirty (fullScreen vi) fb.lastDirty = true))
    : WellFramed vi s'.fb (responseTo vi request.incremental fb) := by
  obtain ⟨x1, x2, y1, y2, corners⟩ := answered.corners sized
  have rect : (responseTo vi request.incremental fb).rect = dirtyScreen fb.lastDirty :=
    if_neg part
  have body : (responseTo vi request.incremental fb).body = dirtyBody fb := if_neg part
  have left_le := corners.left_le
  have right_lt := corners.right_lt
  have top_le := corners.top_le
  have bottom_lt := corners.bottom_lt
  obtain ⟨x, y, w, h⟩ := corners.header sized
  refine .of_rect answered.serving.frameSize (fun _ => responseTo_colours) ?_ ?_ ?_ ?_ ?_
  · rw [rect, w]
    omega
  · rw [rect, h]
    omega
  · rw [rect, w, x]
    omega
  · rw [rect, h, y]
    omega
  · rw [body, rect, w, h, x, y, dirtyBody, corners.height, corners.width, answered.frame,
      answered.sameVi]
    exact List.flatMap_congr fun k _ => by rw [corners.rowOffset k]; rfl

/-- The response to a request is well framed. By cases on whether it is the whole screen or the
dirty rectangle.
-/
theorem Answered.wellFramed {vi : Video} {request : Request} {s s' : UpdateSession}
    {fb : FrameBuffer} (answered : Answered vi request s s' fb) (sized : vi.Sized)
    : WellFramed vi s'.fb (responseTo vi request.incremental fb) := by
  by_cases full : request.incremental = 0
      ∨ mostlyDirty (fullScreen vi) fb.lastDirty = true
  · exact answered.wellFramed_fullScreen sized full
  · exact answered.wellFramed_dirtyScreen sized full

/-- A run of update requests appends one well-framed response for each request it answers; a
request that is not answered sends nothing. By induction on the requests.
-/
theorem serve_wellFramed {vi : Video} (proper : vi.Proper) {s : UpdateSession}
    (serving : Serving vi s) (full : ∀ n length, s.sock.results n length = some length)
    {requests : List Request} (reports : ∀ request ∈ requests, request.driver.Reports vi)
    : ∃ responses : List Response,
        List.Forall₂ (fun s' response => WellFramed vi s'.fb response)
            (states serve requests s) responses
        ∧ (endState (run serve requests s)).sock.sent
          = s.sock.sent ++ responses.flatMap Response.bytes := by
  induction requests generalizing s with
  | nil => exact ⟨[], .nil, by simp [endState]⟩
  | cons request rest ih =>
      cases served : serve request s with
      | ok done s' =>
          obtain ⟨fb, answered⟩ := serve_ok serving (reports request (by simp)) served
          have full' : ∀ n length, s'.sock.results n length = some length := by
            rw [answered.took.results]
            exact full
          obtain ⟨responses, framed, sent⟩ := ih answered.serving full'
            (fun request' member => reports request' (by simp [member]))
          refine ⟨responseTo vi request.incremental fb :: responses, ?_, ?_⟩
          · rw [states, served]
            exact .cons (answered.wellFramed proper.sized) framed
          · rw [run, bind_ok served, sent, answered.took.sent full, List.flatMap_cons,
              List.append_assoc]
      | error e s' =>
          have accepting : s.Accepting := fun n length => by simp [full n length]
          refine ⟨[], ?_, ?_⟩
          · rw [states, served]
            exact .nil
          · rw [run, bind_error served]
            have nothing : s'.sock = s.sock := serve_error accepting served
            simp [endState, nothing]

/-- From the set-up of a session on, with a screen of constant size and a socket that accepts
everything, the bytes sent for any requests are well-framed responses, one for each request
that is answered; and every request is answered when the driver answers its ioctls.
-/
theorem updateStream_wellFramed (vi : Video) (proper : vi.Proper) (first second : Driver)
    (firstReports : first.Reports vi) (secondReports : second.Reports vi)
    (malloced : Option Mem) (mapped : Bool) (blank s : UpdateSession)
    (opened : openSession first second malloced mapped blank = .ok () s)
    (full : ∀ n length, blank.sock.results n length = some length) (requests : List Request)
    (reports : ∀ request ∈ requests, request.driver.Reports vi)
    : ∃ responses : List Response,
        List.Forall₂ (fun s' response => WellFramed vi s'.fb response)
            (states serve requests s) responses
        ∧ (endState (run serve requests s)).sock.sent
          = s.sock.sent ++ responses.flatMap Response.bytes
        ∧ (∀ t, run serve requests s = .ok () t → responses.length = requests.length)
        ∧ ((∀ request ∈ requests, request.driver.Answers)
          → (∃ t, run serve requests s = .ok () t) ∧ responses.length = requests.length) := by
  obtain ⟨serving, sock⟩ := openSession_serving firstReports secondReports opened
  have full' : ∀ n length, s.sock.results n length = some length := by
    rw [sock]
    exact full
  have accepting : s.Accepting := fun n length => by simp [full' n length]
  obtain ⟨responses, framed, sent⟩ := serve_wellFramed proper serving full' reports
  have counted (t : UpdateSession) (returned : run serve requests s = .ok () t)
      : responses.length = requests.length := by
    rw [← framed.length_eq, states_length returned]
  refine ⟨responses, framed, sent, counted, ?_⟩
  intro answers
  obtain ⟨t, returned⟩ := run_serve_returns answers accepting
  exact ⟨⟨t, returned⟩, counted t returned⟩

/-- An 8 by 1 screen. -/
def smallScreen : Video := ⟨8, 1, by decide, by decide⟩

theorem smallScreen_sized : smallScreen.Sized :=
  ⟨by decide, by decide, by decide, by decide, by decide⟩

/-- A driver of the small screen, at 8 bits a pixel, with a palette of zeros. -/
def smallDriver (screen : Mem) (hash : UInt32) : Driver where
  metadata := some smallScreen
  mode := some ⟨8, 8⟩
  clutHash := some hash
  clutChunk := fun _ => some fun _ => 0
  screen := screen
  uninitialised := fun _ => 0

/-- A session before its set-up, with a socket that accepts everything. -/
def blankSession : UpdateSession where
  sock := ⟨fun _ length => some length, 0, [], []⟩
  videoInfo := smallScreen
  fb :=
    { vp := ⟨0, 0⟩, vi := smallScreen, frameToSend := fun _ => 0, frameSize := 0,
      lastChanged := false, lastDirty := ⟨0, 0, 0, 0⟩, dirtyCursor := ⟨0, 0, 0⟩,
      clutChanged := false, clutHash := 0, clut := fun _ => 0, vncClut := fun _ => ⟨0, 0, 0⟩ }

theorem smallDriver_reports (screen : Mem) (hash : UInt32)
    : (smallDriver screen hash).Reports smallScreen := by
  intro vi' reported
  exact (Option.some.inj reported).symm

theorem smallDriver_answers (screen : Mem) (hash : UInt32) : (smallDriver screen hash).Answers :=
  ⟨⟨_, rfl⟩, ⟨_, _, rfl, rfl⟩, ⟨_, rfl⟩, fun _ _ => ⟨_, rfl⟩⟩

theorem updateStream_wellFramed_small
    : ∃ s, openSession (smallDriver (fun _ => 7) 5) (smallDriver (fun _ => 7) 5)
          (some fun _ => 0) true blankSession = .ok () s
        ∧ ∃ responses : List Response,
            List.Forall₂ (fun s' response => WellFramed smallScreen s'.fb response)
                (states serve [⟨smallDriver (fun _ => 7) 5, 1⟩] s) responses
            ∧ (endState (run serve [⟨smallDriver (fun _ => 7) 5, 1⟩] s)).sock.sent
              = s.sock.sent ++ responses.flatMap Response.bytes
            ∧ (∃ t, run serve [⟨smallDriver (fun _ => 7) 5, 1⟩] s = .ok () t)
            ∧ responses.length = 1 := by
  refine ⟨_, rfl, ?_⟩
  obtain ⟨responses, framed, sent, _, all⟩ := updateStream_wellFramed smallScreen
    ⟨by decide, by decide, by decide, by decide, by decide, by decide⟩
    (smallDriver (fun _ => 7) 5) (smallDriver (fun _ => 7) 5) (smallDriver_reports _ _)
    (smallDriver_reports _ _) (some fun _ => 0) true blankSession _ rfl (fun _ _ => rfl)
    [⟨smallDriver (fun _ => 7) 5, 1⟩] (by simpa using smallDriver_reports (fun _ => 7) 5)
  obtain ⟨returned, length⟩ := all (by simpa using smallDriver_answers (fun _ => 7) 5)
  exact ⟨responses, framed, sent, returned, length⟩

end MiniVnc
