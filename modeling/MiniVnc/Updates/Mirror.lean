import Mathlib.Data.List.GetD
import MiniVnc.Updates.Framing

/-! A client that applies every update it receives to a mirror of the screen sees what the
hardware framebuffer holds.
-/

namespace MiniVnc
open Library.Memory Library.Loop Library.Stream

/-- The client's copy of the screen, by column and row. -/
abbrev Mirror := Nat → Nat → UInt8

def VNCRect.Contains (rect : VNCRect) (x y : Nat) : Prop :=
  rect.x.toNat ≤ x ∧ x < rect.x.toNat + rect.w.toNat
  ∧ rect.y.toNat ≤ y ∧ y < rect.y.toNat + rect.h.toNat

instance (rect : VNCRect) (x y : Nat) : Decidable (rect.Contains x y) :=
  inferInstanceAs (Decidable (_ ∧ _ ∧ _ ∧ _))

/-- Overwrite a rectangle with a raw body, row by row. -/
def overwrite (rect : VNCRect) (body : List UInt8) (mirror : Mirror) : Mirror := fun x y =>
  if rect.Contains x y then
    body.getD ((y - rect.y.toNat) * rect.w.toNat + (x - rect.x.toNat)) 0
  else
    mirror x y

/-- Read one server message: the mirror after it, and the bytes behind it. A colour map is
skipped.
-/
def receiveMessage (bytes : List UInt8) (mirror : Mirror) : Option (List UInt8 × Mirror) :=
  if bytes.head? = some ServerMessageType.mSetCMapEntries.code then
    let size := 6 + 6 * (ushortAt (load bytes) 4).toNat
    if size ≤ bytes.length then some (bytes.drop size, mirror) else none
  else if bytes.head? = some ServerMessageType.mFBUpdate.code
      ∧ ushortAt (load bytes) 2 = 1 ∧ ulongAt (load bytes) 12 = mRawEncoding then
    let rect := VNCRect.at (load bytes) 4
    let size := rect.w.toNat * rect.h.toNat
    if 16 + size ≤ bytes.length then
      some (bytes.drop (16 + size), overwrite rect ((bytes.drop 16).take size) mirror)
    else
      none
  else
    none

/-- Read all messages; every message takes a byte, so their number is bounded by the length.
-/
def receive : Nat → List UInt8 → Mirror → Option Mirror
  | _, [], mirror => some mirror
  | 0, _ :: _, _ => none
  | fuel + 1, byte :: rest, mirror => do
      let (bytes, mirror) ← receiveMessage (byte :: rest) mirror
      receive fuel bytes mirror

theorem receive_message {bytes rest : List UInt8} {mirror mirror' : Mirror} {fuel : Nat}
    (started : bytes ≠ []) (read : receiveMessage bytes mirror = some (rest, mirror'))
    : receive (fuel + 1) bytes mirror = receive fuel rest mirror' := by
  cases bytes with
  | nil => exact absurd rfl started
  | cons byte more =>
      rw [receive, read]
      rfl

/-- An update message is read as its rectangle and body. -/
theorem receiveMessage_update (rect : VNCRect) {body : List UInt8} (rest : List UInt8)
    (mirror : Mirror) (length : body.length = rect.w.toNat * rect.h.toNat)
    : receiveMessage ((updateHeader rect).bytes ++ body ++ rest) mirror
      = some (rest, overwrite rect body mirror) := by
  have rectRead : VNCRect.at (load ((updateHeader rect).bytes ++ body ++ rest)) 4 = rect := by
    rw [List.append_assoc]
    exact VNCRect.at_header rect (body ++ rest)
  have one : ushortAt (load ((updateHeader rect).bytes ++ body ++ rest)) 2 = 1 :=
    ushortAt_eq rfl rfl
  have raw : ulongAt (load ((updateHeader rect).bytes ++ body ++ rest)) 12 = mRawEncoding :=
    ulongAt_eq rfl rfl rfl rfl
  have header : (updateHeader rect).bytes.length = 16 := rfl
  have notMap : ((updateHeader rect).bytes ++ body ++ rest).head?
      ≠ some ServerMessageType.mSetCMapEntries.code := by
    show some ServerMessageType.mFBUpdate.code ≠ _
    decide
  have update : ((updateHeader rect).bytes ++ body ++ rest).head?
      = some ServerMessageType.mFBUpdate.code := rfl
  have enough : 16 + rect.w.toNat * rect.h.toNat
      ≤ ((updateHeader rect).bytes ++ body ++ rest).length := by
    simp only [List.length_append, header, length]
    omega
  have behind : ((updateHeader rect).bytes ++ body ++ rest).drop 16 = body ++ rest := by
    rw [List.append_assoc]
    rfl
  have rest' : ((updateHeader rect).bytes ++ body ++ rest).drop
      (16 + rect.w.toNat * rect.h.toNat) = rest := by
    rw [← List.drop_drop, behind, ← length, List.drop_left]
  have body' : (((updateHeader rect).bytes ++ body ++ rest).drop 16).take
      (rect.w.toNat * rect.h.toNat) = body := by
    rw [behind, ← length, List.take_left]
  rw [receiveMessage, if_neg notMap, if_pos ⟨update, one, raw⟩]
  simp only [rectRead, if_pos enough, rest', body']

/-- A colour map message is skipped. -/
theorem receiveMessage_colourMap {colours : List VNCColour} (rest : List UInt8)
    (mirror : Mirror) (length : colours.length = 256)
    : receiveMessage (colourMapHeader.bytes ++ colours.flatMap VNCColour.bytes ++ rest) mirror
      = some (rest, mirror) := by
  have count : ushortAt
      (load (colourMapHeader.bytes ++ colours.flatMap VNCColour.bytes ++ rest)) 4 = 256 :=
    ushortAt_eq rfl rfl
  have whole : (colourMapHeader.bytes ++ colours.flatMap VNCColour.bytes).length
      = 6 + 6 * (256 : UInt16).toNat := by
    rw [List.length_append, colours_length, length]
    rfl
  have enough : 6 + 6 * (256 : UInt16).toNat
      ≤ (colourMapHeader.bytes ++ colours.flatMap VNCColour.bytes ++ rest).length := by
    rw [List.length_append, whole]
    exact Nat.le_add_right _ _
  have rest' : (colourMapHeader.bytes ++ colours.flatMap VNCColour.bytes ++ rest).drop
      (6 + 6 * (256 : UInt16).toNat) = rest := by
    rw [← whole, List.drop_left]
  have map : (colourMapHeader.bytes ++ colours.flatMap VNCColour.bytes ++ rest).head?
      = some ServerMessageType.mSetCMapEntries.code := rfl
  rw [receiveMessage, if_pos map]
  simp only [count, if_pos enough, rest']

/-- A response is read as its update: after the colour map, if there is one. -/
theorem receive_response {response : Response} (rest : List UInt8) (mirror : Mirror)
    (colours : ∀ colours, response.colourMap = some colours → colours.length = 256)
    (length : response.body.length = response.rect.w.toNat * response.rect.h.toNat)
    {fuel : Nat} (enough : (response.bytes ++ rest).length ≤ fuel)
    : ∃ fuel', rest.length ≤ fuel'
        ∧ receive fuel (response.bytes ++ rest) mirror
          = receive fuel' rest (overwrite response.rect response.body mirror) := by
  obtain ⟨map, rect, body⟩ := response
  have started : (updateHeader rect).bytes ++ body ++ rest ≠ [] := by
    intro empty
    exact absurd empty (List.cons_ne_nil _ _)
  have header : (updateHeader rect).bytes.length = 16 := rfl
  have update := receiveMessage_update rect rest mirror length
  cases map with
  | none =>
      simp only [Response.bytes, List.nil_append] at enough ⊢
      obtain ⟨fuel, rfl⟩ : ∃ left, fuel = left + 1 := by
        refine ⟨fuel - 1, ?_⟩
        simp only [List.length_append, header] at enough
        omega
      refine ⟨fuel, ?_, receive_message started update⟩
      simp only [List.length_append, header] at enough
      omega
  | some sent =>
      have skipped := receiveMessage_colourMap ((updateHeader rect).bytes ++ body ++ rest) mirror
        (colours sent rfl)
      have split : (Response.mk (some sent) rect body).bytes ++ rest
          = colourMapHeader.bytes ++ sent.flatMap VNCColour.bytes
            ++ ((updateHeader rect).bytes ++ body ++ rest) := by
        simp only [Response.bytes, List.append_assoc]
      rw [split] at enough ⊢
      obtain ⟨fuel, rfl⟩ : ∃ left, fuel = left + 1 + 1 := by
        refine ⟨fuel - 2, ?_⟩
        simp only [List.length_append, header] at enough
        omega
      refine ⟨fuel, ?_, ?_⟩
      · simp only [List.length_append, header] at enough
        omega
      · have startedMap : colourMapHeader.bytes ++ sent.flatMap VNCColour.bytes
            ++ ((updateHeader rect).bytes ++ body ++ rest) ≠ [] := by
          intro empty
          exact absurd empty (List.cons_ne_nil _ _)
        rw [receive_message startedMap skipped, receive_message started update]

-----------------------------------------------------------------------------------------
-- The mirror follows the frame
-----------------------------------------------------------------------------------------

/-- The mirror holds the frame of the session. -/
def Synchronised (vi : Video) (s : UpdateSession) (mirror : Mirror) : Prop :=
  ∀ x < vi.videoScrX, ∀ y < vi.videoScrY, mirror x y = s.fb.frameToSend (y * vi.videoScrX + x)

/-- On a screen whose width is a multiple of 8 every pixel is covered. -/
theorem coveredWidth_eq {depth width : Nat} (multiple : 8 ∣ width)
    : coveredWidth depth width = width := by
  unfold coveredWidth
  split_ifs <;> omega

/-- An index into rows of one width finds its row. -/
theorem rows_getD {row : Nat → List UInt8} {width count k j : Nat}
    (each : ∀ k, (row k).length = width) (rowInside : k < count) (inside : j < width)
    : ((List.range count).flatMap row).getD (k * width + j) 0 = (row k).getD j 0 := by
  rw [List.getD_eq_getElem?_getD, flatMap_getElem? each _ inside, List.getElem?_range rowInside,
    List.getD_eq_getElem?_getD]
  rfl

/-- The body of a well-framed response holds the frame's pixels in its rectangle. -/
theorem WellFramed.overwrite_inside {vi : Video} {fb : FrameBuffer} {response : Response}
    (framed : WellFramed vi fb response) (mirror : Mirror) {x y : Nat}
    (inside : response.rect.Contains x y)
    : overwrite response.rect response.body mirror x y
      = fb.frameToSend (y * vi.videoScrX + x) := by
  obtain ⟨left, right, top, bottom⟩ := inside
  rw [overwrite, if_pos ⟨left, right, top, bottom⟩, framed.rows,
    rows_getD (fun k => slice_length _ _ _) (by omega) (by omega)]
  have column : x - response.rect.x.toNat < response.rect.w.toNat := by omega
  have row : response.rect.y.toNat + (y - response.rect.y.toNat) = y := by omega
  have byte := @load_slice fb.frameToSend
    ((response.rect.y.toNat + (y - response.rect.y.toNat)) * vi.videoScrX
      + response.rect.x.toNat) response.rect.w.toNat _ column
  rw [load] at byte
  rw [byte, row]
  congr 1
  omega

/-- A whole-screen response covers every pixel. -/
theorem fullScreen_contains {vi : Video} (proper : vi.Proper) {x y : Nat}
    (column : x < vi.videoScrX) (row : y < vi.videoScrY)
    : (fullScreen vi).Contains x y := by
  have w : (fullScreen vi).w.toNat = vi.videoScrX := ofNat_toNat_of_le proper.width_le
  have h : (fullScreen vi).h.toNat = vi.videoScrY := ofNat_toNat_of_le proper.height_le
  refine ⟨Nat.zero_le x, ?_, Nat.zero_le y, ?_⟩
  · rw [w]
    exact Nat.lt_of_lt_of_le column (Nat.le_add_left _ _)
  · rw [h]
    exact Nat.lt_of_lt_of_le row (Nat.le_add_left _ _)

/-- A pixel outside the response's rectangle has not changed in the frame: the response is not
the whole screen, and every difference lies in the dirty rectangle.
-/
theorem Answered.outside {vi : Video} {request : Request} {s s' : UpdateSession}
    {fb : FrameBuffer} (answered : Answered vi request s s' fb) (proper : vi.Proper) {x y : Nat}
    (column : x < vi.videoScrX) (row : y < vi.videoScrY)
    (outside : ¬(responseTo vi request.incremental fb).rect.Contains x y)
    : request.incremental ≠ 0
      ∧ fb.frameToSend (y * vi.videoScrX + x) = s.fb.frameToSend (y * vi.videoScrX + x) := by
  have partly : ¬(request.incremental = 0
      ∨ mostlyDirty (fullScreen vi) fb.lastDirty = true) := by
    intro full
    have rect : (responseTo vi request.incremental fb).rect = fullScreen vi := if_pos full
    rw [rect] at outside
    exact outside (fullScreen_contains proper column row)
  refine ⟨fun none => partly (Or.inl none), ?_⟩
  by_contra changed
  obtain ⟨x1, x2, y1, y2, corners⟩ := answered.corners proper.sized
  have rect : (responseTo vi request.incremental fb).rect = dirtyScreen fb.lastDirty :=
    if_neg partly
  obtain ⟨xEq, yEq, wEq, hEq⟩ := corners.header proper.sized
  have copied := (fbUpdate_ok answered.update).copied
  rw [answered.sameVi] at copied
  obtain ⟨touchedRow, touchedColumn⟩ := copied.touched column changed
  have contained := copied.dirty.contains touchedRow touchedColumn
  rw [corners.corners] at contained
  apply outside
  rw [rect, VNCRect.Contains, xEq, yEq, wEq, hEq]
  have left_le := corners.left_le
  have top_le := corners.top_le
  simp only at contained
  omega

/-- The update makes the frame show the screen. -/
theorem Answered.shows {vi : Video} {request : Request} {s s' : UpdateSession}
    {fb : FrameBuffer} (answered : Answered vi request s s' fb) (proper : vi.Proper)
    {vp : VPBlock} (mode : request.driver.mode = some vp) {x y : Nat}
    (column : x < vi.videoScrX) (row : y < vi.videoScrY)
    : s'.fb.frameToSend (y * vi.videoScrX + x)
      = pixel vp.vpPixelSize request.driver.screen (y * vp.vpRowBytes) x := by
  have updated := fbUpdate_ok answered.update
  have copied := updated.copied
  have sameVp : fb.vp = vp := Option.some.inj (updated.mode.symm.trans mode)
  rw [answered.sameVi, sameVp] at copied
  rw [answered.frame]
  refine copied.copied y row x ?_
  show x < coveredWidth vp.vpPixelSize vi.videoScrX
  rw [coveredWidth_eq proper.width_dvd]
  exact column

/-- An answered request leaves a client synchronised that was so before, and any client when it
is not incremental. By cases on whether a pixel lies in the response's rectangle.
-/
theorem Answered.synchronised {vi : Video} {request : Request} {s s' : UpdateSession}
    {fb : FrameBuffer} (answered : Answered vi request s s' fb) (proper : vi.Proper)
    {mirror : Mirror} (before : request.incremental ≠ 0 → Synchronised vi s mirror)
    : Synchronised vi s' (overwrite (responseTo vi request.incremental fb).rect
        (responseTo vi request.incremental fb).body mirror) := by
  intro x column y row
  by_cases inside : (responseTo vi request.incremental fb).rect.Contains x y
  · exact (answered.wellFramed proper.sized).overwrite_inside mirror inside
  · obtain ⟨incremental, same⟩ := answered.outside proper column row inside
    rw [overwrite, if_neg inside, answered.frame, same]
    exact before incremental x column y row

/-- A client reads what a run of requests offers to the socket and is synchronised after it, by
induction on the requests: the first makes it so unless it was so already.
-/
theorem serve_synchronised {vi : Video} (proper : vi.Proper) {s t : UpdateSession}
    (serving : Serving vi s) {requests : List Request}
    (reports : ∀ request ∈ requests, request.driver.Reports vi)
    (returned : run serve requests s = .ok () t) {mirror : Mirror}
    (before
      : (∀ request, requests.head? = some request → request.incremental ≠ 0)
        → Synchronised vi s mirror)
    : ∃ bytes, t.sock.offered = s.sock.offered ++ bytes
        ∧ ∀ fuel, bytes.length ≤ fuel
          → ∃ mirror', receive fuel bytes mirror = some mirror' ∧ Synchronised vi t mirror' := by
  induction requests generalizing s mirror with
  | nil =>
      cases returned
      refine ⟨[], by simp, fun fuel _ => ⟨mirror, by cases fuel <;> rfl, before ?_⟩⟩
      intro request none
      cases none
  | cons request rest ih =>
      obtain ⟨_, middle, served, later⟩ := bind_eq_ok.mp returned
      obtain ⟨fb, answered⟩ := serve_ok serving (reports request (by simp)) served
      have framed := answered.wellFramed proper.sized
      have synchronised : Synchronised vi middle
          (overwrite (responseTo vi request.incremental fb).rect
            (responseTo vi request.incremental fb).body mirror) := by
        refine answered.synchronised proper fun incremental => before ?_
        intro request' first
        cases first
        exact incremental
      obtain ⟨bytes, offered, read⟩ := ih answered.serving
        (fun request' member => reports request' (by simp [member])) later
        (fun _ => synchronised)
      refine ⟨(responseTo vi request.incremental fb).bytes ++ bytes, ?_, ?_⟩
      · rw [offered, answered.took.offered, List.append_assoc]
      · intro fuel enough
        obtain ⟨fuel', enough', receives⟩ :=
          receive_response bytes mirror (fun colours sent => (framed.colours colours sent).2.2.1)
            framed.length enough
        rw [receives]
        exact read fuel' enough'

/-- The driver answers with the screen `vi` in an indexed mode whose rows hold the width. -/
structure Driver.Shows (driver : Driver) (vi : Video) (vp : VPBlock) : Prop where
  metadata : driver.metadata = some vi
  mode : driver.mode = some vp
  depth : vp.vpPixelSize = 1 ∨ vp.vpPixelSize = 2 ∨ vp.vpPixelSize = 4 ∨ vp.vpPixelSize = 8
  rowBytes : vi.videoScrX * vp.vpPixelSize ≤ 8 * vp.vpRowBytes
  clutHash : ∃ hash, driver.clutHash = some hash
  clutChunk : ∀ i < 32, ∃ chunk, driver.clutChunk i = some chunk

theorem Driver.Shows.reports {driver : Driver} {vi : Video} {vp : VPBlock}
    (shows_ : driver.Shows vi vp)
    : driver.Reports vi := by
  intro vi' reported
  exact Option.some.inj (reported.symm.trans shows_.metadata)

theorem Driver.Shows.answers {driver : Driver} {vi : Video} {vp : VPBlock}
    (shows_ : driver.Shows vi vp)
    : driver.Answers := by
  obtain ⟨copy, known⟩ := copyRow?_known shows_.depth
  exact ⟨⟨vi, shows_.metadata⟩, ⟨vp, copy, shows_.mode, known⟩, shows_.clutHash,
    shows_.clutChunk⟩

/-- After any requests of which the first is not incremental, the client's mirror shows the
hardware framebuffer as the last of them read it: every pixel is the field of the depth the
screen then had. The session answers all of them unless a `send` fails.
-/
theorem mirror_shows_screen (vi : Video) (proper : vi.Proper) (first second : Driver)
    (firstReports : first.Reports vi) (secondReports : second.Reports vi)
    (malloced : Option Mem) (mapped : Bool) (blank s : UpdateSession)
    (opened : openSession first second malloced mapped blank = .ok () s)
    (requests : List Request) (last : Request)
    (firstFull
      : ∀ request, (requests ++ [last]).head? = some request → request.incremental = 0)
    (shows_ : ∀ request ∈ requests ++ [last], ∃ vp, request.driver.Shows vi vp)
    : (blank.Accepting → ∃ t, run serve (requests ++ [last]) s = .ok () t)
      ∧ ∀ t, run serve (requests ++ [last]) s = .ok () t
          → ∃ bytes, t.sock.offered = s.sock.offered ++ bytes
              ∧ ∀ mirror₀, ∃ mirror, receive bytes.length bytes mirror₀ = some mirror
                  ∧ ∀ vp, last.driver.mode = some vp
                    → ∀ x < vi.videoScrX, ∀ y < vi.videoScrY,
                        mirror x y
                        = pixel vp.vpPixelSize last.driver.screen (y * vp.vpRowBytes) x := by
  obtain ⟨serving, sock⟩ := openSession_serving firstReports secondReports opened
  have reports : ∀ request ∈ requests ++ [last], request.driver.Reports vi := by
    intro request member
    obtain ⟨vp, showsVp⟩ := shows_ request member
    exact showsVp.reports
  constructor
  · intro accepting
    have accepting' : s.Accepting := by
      intro n length
      rw [sock]
      exact accepting n length
    refine run_serve_returns (fun request member => ?_) accepting'
    obtain ⟨vp, showsVp⟩ := shows_ request member
    exact showsVp.answers
  · intro t returned
    have unsynchronised (mirror : Mirror)
        (incremental
          : ∀ request, (requests ++ [last]).head? = some request → request.incremental ≠ 0)
        : Synchronised vi s mirror := by
      obtain ⟨request, head⟩ : ∃ request, (requests ++ [last]).head? = some request := by
        cases requests with
        | nil => exact ⟨last, rfl⟩
        | cons request rest => exact ⟨request, rfl⟩
      exact absurd (firstFull request head) (incremental request head)
    have split := returned
    rw [run_append] at split
    obtain ⟨_, middle, before, final⟩ := bind_eq_ok.mp split
    rw [run_singleton] at final
    have serving' := run_serve_serving serving
      (fun request member => reports request (by simp [member])) before
    obtain ⟨fb, answered⟩ := serve_ok serving' (reports last (by simp)) final
    obtain ⟨bytes, offered, _⟩ :=
      serve_synchronised proper serving reports returned (unsynchronised fun _ _ => 0)
    refine ⟨bytes, offered, fun mirror₀ => ?_⟩
    obtain ⟨bytes', offered', read⟩ :=
      serve_synchronised proper serving reports returned (unsynchronised mirror₀)
    have same : bytes' = bytes := List.append_cancel_left (offered'.symm.trans offered)
    subst same
    obtain ⟨mirror, received, synchronised⟩ := read bytes'.length (Nat.le_refl _)
    refine ⟨mirror, received, ?_⟩
    intro vp mode x column y row
    rw [synchronised x column y row, answered.shows proper mode column row]

/-- The small screen in its 8-bit mode, and then in its 1-bit mode with another palette. -/
def smallRequest : Request := ⟨smallDriver (fun _ => 7) 5, 0⟩

def monochromeRequest : Request :=
  ⟨{ smallDriver (fun _ => 0x12) 6 with mode := some ⟨1, 1⟩ }, 1⟩

theorem mirror_shows_screen_small
    : ∃ s, openSession (smallDriver (fun _ => 7) 5) (smallDriver (fun _ => 7) 5)
          (some fun k => UInt8.ofNat k) true blankSession = .ok () s
        ∧ (blankSession.Accepting
          → ∃ t, run serve ([smallRequest] ++ [monochromeRequest]) s = .ok () t)
        ∧ ∀ t, run serve ([smallRequest] ++ [monochromeRequest]) s = .ok () t
            → ∃ bytes, t.sock.offered = s.sock.offered ++ bytes
                ∧ ∀ mirror₀, ∃ mirror, receive bytes.length bytes mirror₀ = some mirror
                    ∧ ∀ vp, monochromeRequest.driver.mode = some vp
                      → ∀ x < 8, ∀ y < 1,
                          mirror x y
                          = pixel vp.vpPixelSize monochromeRequest.driver.screen
                              (y * vp.vpRowBytes) x := by
  refine ⟨_, rfl, ?_⟩
  refine mirror_shows_screen smallScreen
    ⟨by decide, by decide, by decide, by decide, by decide, by decide⟩
    (smallDriver (fun _ => 7) 5) (smallDriver (fun _ => 7) 5) (smallDriver_reports _ _)
    (smallDriver_reports _ _) (some fun k => UInt8.ofNat k) true blankSession _ rfl
    [smallRequest] monochromeRequest ?_ ?_
  · intro request first
    cases first
    rfl
  · intro request member
    rcases List.mem_append.mp member with earlier | last
    · cases List.mem_singleton.mp earlier
      exact ⟨⟨8, 8⟩, rfl, rfl, by decide, by decide, ⟨5, rfl⟩, fun _ _ => ⟨_, rfl⟩⟩
    · cases List.mem_singleton.mp last
      exact ⟨⟨1, 1⟩, rfl, rfl, by decide, by decide, ⟨6, rfl⟩, fun _ _ => ⟨_, rfl⟩⟩

end MiniVnc
