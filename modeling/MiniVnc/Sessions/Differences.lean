import MiniVnc.FrameBuffer.ExactDirty
import MiniVnc.Library.Machines
import MiniVnc.Sessions.Picture
import MiniVnc.Sessions.TypedText

/-! What a session sends is the differences between the pictures that its requests find: a server
that keeps no more than the last picture and the hash of the last palette sends the same.
-/

namespace MiniVnc
open Library.Memory Library.Loop Library.Stream Library.Machines

/-- What a client has been told: the pixels of the screen, row by row, and a palette's hash. -/
structure Picture where
  pixels : Mem
  hash : UInt32

/-- The pixels on the driver's screen in the mode `vp`. -/
def Driver.pixels (driver : Driver) (vi : Video) (vp : VPBlock) : Mem := fun k =>
  pixel vp.vpPixelSize driver.screen (k / vi.videoScrX * vp.vpRowBytes) (k % vi.videoScrX)

/-- The palette that the driver hands over, chunk by chunk. -/
def Driver.palette (driver : Driver) : Mem := fun k =>
  match driver.clutChunk (k / 64) with
  | some chunk => chunk (k % 64)
  | none => 0

/-- The places of the screen at which two frames are different. -/
def differences (vi : Video) (old new : Mem) : Set Nat :=
  {k | k < vi.videoScrY * vi.videoScrX ∧ new k ≠ old k}

/-- The pixels of a rectangle of the screen, row by row. -/
def VNCRect.cut (rect : VNCRect) (vi : Video) (pixels : Mem) : List UInt8 :=
  (List.range rect.h.toNat).flatMap fun k =>
    slice pixels ((rect.y.toNat + k) * vi.videoScrX + rect.x.toNat) rect.w.toNat

/-- The response tells a client that has been told of `old` what the request finds, and `new` is
what it has been told then: the palette if its hash is another one, and the smallest rectangle of
whole granules around the differences, or the whole screen if the client asks for it or if the
rectangle is large.
-/
structure Tells (vi : Video) (old : Picture) (request : Request) (vp : VPBlock) (dirty : FbRect)
    (response : Response) (new : Picture) : Prop where
  mode : request.driver.mode = some vp
  pixels : new.pixels = request.driver.pixels vi vp
  hash : request.driver.clutHash = some new.hash
  smallest
    : ∃ changed, ExactDirty (granule vp.vpPixelSize) vi.videoScrX vi.videoScrY
        (differences vi old.pixels new.pixels) changed dirty
  colours
    : response.colourMap
      = if new.hash = old.hash then none else some (coloursOf request.driver.palette)
  rect
    : response.rect
      = if request.incremental = 0 ∨ mostlyDirty (fullScreen vi) dirty = true then
          fullScreen vi
        else
          dirtyScreen dirty
  body : response.body = response.rect.cut vi new.pixels

/-- The server as a machine that answers requests with responses. -/
def tells (vi : Video) : Machine Picture Request Response := fun old request response new =>
  ∃ vp dirty, Tells vi old request vp dirty response new

-----------------------------------------------------------------------------------------
-- The responses are determined by the pictures
-----------------------------------------------------------------------------------------

/-- Rectangles that lie in each other are the same. -/
theorem FbRect.Within.antisymm {rect other : FbRect} (inside : rect.Within other)
    (around : other.Within rect)
    : rect = other := by
  obtain ⟨x1, x2, y1, y2⟩ := rect
  obtain ⟨x1', x2', y1', y2'⟩ := other
  obtain ⟨left, right, top, bottom⟩ := inside
  obtain ⟨left', right', top', bottom'⟩ := around
  simp only at left right top bottom left' right' top' bottom'
  rw [FbRect.mk.injEq]
  exact ⟨le_antisymm left' left, le_antisymm right right', le_antisymm top' top,
    le_antisymm bottom bottom'⟩

/-- There is one dirty rectangle for the bytes that have changed. -/
theorem ExactDirty.unique {size width height : Nat} {bytes : Set Nat} {changed changed' : Bool}
    {dirty dirty' : FbRect} (exact : ExactDirty size width height bytes changed dirty)
    (exact' : ExactDirty size width height bytes changed' dirty')
    : dirty = dirty' := by
  rcases bytes.eq_empty_or_nonempty with none | some_
  · rw [exact.unchanged none, exact'.unchanged none]
  · have smallest := exact.changed some_
    have smallest' := exact'.changed some_
    exact (smallest.smallest dirty' smallest'.encloses).antisymm
      (smallest'.smallest dirty smallest.encloses)

theorem Tells.unique {vi : Video} {old new new' : Picture} {request : Request}
    {vp vp' : VPBlock} {dirty dirty' : FbRect} {response response' : Response}
    (tells : Tells vi old request vp dirty response new)
    (tells' : Tells vi old request vp' dirty' response' new')
    : response = response' ∧ new = new' := by
  obtain rfl := Option.some.inj (tells.mode.symm.trans tells'.mode)
  have hash : new.hash = new'.hash := Option.some.inj (tells.hash.symm.trans tells'.hash)
  have pixels : new.pixels = new'.pixels := tells.pixels.trans tells'.pixels.symm
  have same : new = new' := by
    obtain ⟨pixels_, hash_⟩ := new
    cases pixels
    cases hash
    rfl
  subst same
  obtain ⟨_, exact⟩ := tells.smallest
  obtain ⟨_, exact'⟩ := tells'.smallest
  obtain rfl := exact.unique exact'
  have rect : response.rect = response'.rect := tells.rect.trans tells'.rect.symm
  have body : response.body = response'.body := by rw [tells.body, tells'.body, rect]
  have colours : response.colourMap = response'.colourMap :=
    tells.colours.trans tells'.colours.symm
  obtain ⟨map, rect_, body_⟩ := response
  cases colours
  cases rect
  cases body
  exact ⟨rfl, rfl⟩

theorem tells_functional (vi : Video) : Functional (tells vi) := by
  rintro _ _ _ _ _ _ ⟨vp, dirty, first⟩ ⟨vp', dirty', second⟩
  exact first.unique second

-----------------------------------------------------------------------------------------
-- What the server sends
-----------------------------------------------------------------------------------------

/-- The session has told its client of the picture: its frame shows it, and the hash is stored. -/
structure Knows (vi : Video) (u : UpdateSession) (picture : Picture) : Prop where
  cleared : u.fb.clutChanged = false
  hash : u.fb.clutHash = picture.hash
  pixels : ∀ k < vi.videoScrY * vi.videoScrX, u.fb.frameToSend k = picture.pixels k

/-- Chunks that have been fetched are the palette's. -/
theorem Fetched.palette {driver : Driver} {clut : Mem} (fetched : Fetched driver 32 clut) {k : Nat}
    (below : k < 2048)
    : clut k = driver.palette k := by
  obtain ⟨chunk, answered, stored⟩ := fetched (k / 64) (by omega)
  have byte := stored (k % 64) (Nat.mod_lt k (by decide))
  rw [Nat.div_add_mod'] at byte
  rw [Driver.palette, answered]
  exact byte

/-- The colour map is sent when the hash is another one. By cases on whether it was fetched. -/
theorem Answered.colours {vi : Video} {request : Request} {u u' : UpdateSession}
    {fb : FrameBuffer} (answered : Answered vi request u u' fb)
    (cleared : u.fb.clutChanged = false)
    : request.driver.clutHash = some fb.clutHash
      ∧ (responseTo vi request.incremental fb).colourMap
        = if fb.clutHash = u.fb.clutHash then none
          else some (coloursOf request.driver.palette) := by
  cases (fbUpdate_ok answered.update).clut with
  | kept hash _ sameHash unset _ =>
      refine ⟨sameHash ▸ hash, ?_⟩
      rw [if_pos sameHash]
      simp only [responseTo, unset, Bool.false_eq_true, ↓reduceIte]
  | fetched hash due set chunks colours =>
      refine ⟨hash, ?_⟩
      have other : fb.clutHash ≠ u.fb.clutHash := by
        rcases due with flag | other
        · rw [cleared] at flag
          cases flag
        · exact other.symm
      rw [if_neg other]
      simp only [responseTo, set, ↓reduceIte]
      refine congrArg some (List.map_congr_left fun i inside => ?_)
      have small := List.mem_range.mp inside
      rw [colours i small]
      exact colourAt_congr fun k below => chunks.palette (by omega)

/-- The frame then shows the screen, place by place. -/
theorem Answered.pixels {vi : Video} {request : Request} {u u' : UpdateSession}
    {fb : FrameBuffer} (answered : Answered vi request u u' fb) (proper : vi.Proper)
    {k : Nat} (inside : k < vi.videoScrY * vi.videoScrX)
    : fb.frameToSend k = request.driver.pixels vi fb.vp k := by
  have column : k % vi.videoScrX < vi.videoScrX := Nat.mod_lt k proper.width_pos
  have row : k / vi.videoScrX < vi.videoScrY :=
    (Nat.div_lt_iff_lt_mul proper.width_pos).mpr inside
  have shown := answered.shows proper (fbUpdate_ok answered.update).mode column row
  rw [answered.frame, Nat.div_add_mod'] at shown
  exact shown

/-- The bytes of the frame that change are the places where the pictures differ. -/
theorem Answered.changedBytes {vi : Video} {request : Request} {u u' : UpdateSession}
    {fb : FrameBuffer} (answered : Answered vi request u u' fb) (proper : vi.Proper) {old : Mem}
    (known : ∀ k < vi.videoScrY * vi.videoScrX, u.fb.frameToSend k = old k)
    : changedBytes u.fb.frameToSend fb.frameToSend
      = differences vi old (request.driver.pixels vi fb.vp) := by
  have copied := (fbUpdate_ok answered.update).copied
  rw [answered.sameVi] at copied
  ext k
  constructor
  · intro changed
    have inside := copied.onScreen k changed
    refine ⟨inside, ?_⟩
    rw [← answered.pixels proper inside, ← known k inside]
    exact changed
  · rintro ⟨inside, differs⟩
    rw [← answered.pixels proper inside, ← known k inside] at differs
    exact differs

/-- One request: the response tells the client the differences. -/
theorem Answered.tells {vi : Video} {request : Request} {u u' : UpdateSession}
    {fb : FrameBuffer} (answered : Answered vi request u u' fb)
    (served : serve request u = .ok () u') (proper : vi.Proper) {old : Picture}
    (knows : Knows vi u old)
    : Tells vi old request fb.vp fb.lastDirty (responseTo vi request.incremental fb)
          ⟨request.driver.pixels vi fb.vp, fb.clutHash⟩
      ∧ Knows vi u' ⟨request.driver.pixels vi fb.vp, fb.clutHash⟩ := by
  obtain ⟨_, _, handled, returned⟩ := bind_eq_ok.mp served
  cases returned
  obtain ⟨fb', update, _, rest⟩ := vncEvtUpdateRequest_ok handled
  cases answered.update.symm.trans update
  have updated := fbUpdate_ok update
  obtain ⟨hash, colours⟩ := answered.colours knows.cleared
  have framed := answered.wellFramed proper.sized
  have shown (k : Nat) (inside : k < vi.videoScrY * vi.videoScrX)
      : u'.fb.frameToSend k = request.driver.pixels vi fb.vp k := by
    rw [answered.frame]
    exact answered.pixels proper inside
  refine ⟨⟨updated.mode, rfl, hash, ⟨fb.lastChanged, ?_⟩, ?_, rfl, ?_⟩, ?_, ?_, shown⟩
  · have copied := updated.copied
    rw [answered.sameVi] at copied
    have exact_ := copied.exact proper.width_pos proper.height_pos
    have bytes := answered.changedBytes proper knows.pixels
    rw [← bytes]
    exact exact_
  · rw [colours, knows.hash]
  · rw [framed.rows, VNCRect.cut]
    refine List.flatMap_congr fun k row => slice_congr fun i column => shown _ ?_
    have inside := framed.inside k (List.mem_range.mp row)
    rw [answered.serving.frameSize, Nat.mul_comm vi.videoScrX] at inside
    omega
  · rw [rest]
  · rw [rest]

/-- A run of requests tells the client of the picture that each finds, by induction on them. -/
theorem run_serve_tells {vi : Video} (proper : vi.Proper) {u t : UpdateSession}
    (serving : Serving vi u) {old : Picture} (knows : Knows vi u old) {requests : List Request}
    (reports : ∀ request ∈ requests, request.driver.Reports vi)
    (returned : run serve requests u = .ok () t)
    : ∃ responses new, Exchanges (tells vi) old requests responses new
        ∧ u.sock.Took (responses.flatMap Response.bytes) t.sock := by
  induction requests generalizing u old with
  | nil =>
      cases returned
      exact ⟨[], old, .nil, .nothing _⟩
  | cons request rest ih =>
      obtain ⟨_, middle, served, later⟩ := bind_eq_ok.mp returned
      obtain ⟨fb, answered⟩ := serve_ok serving (reports request (by simp)) served
      obtain ⟨told, knows'⟩ := answered.tells served proper knows
      obtain ⟨responses, new, exchanges, took⟩ := ih answered.serving knows'
        (fun request' member => reports request' (by simp [member])) later
      exact ⟨_, new, .cons ⟨_, _, told⟩ exchanges, answered.took.append took⟩

-----------------------------------------------------------------------------------------
-- A screen that rests
-----------------------------------------------------------------------------------------

/-- What is sent when nothing has changed: the pixel at the origin. -/
def Response.resting (origin : UInt8) : Response where
  colourMap := none
  rect := ⟨0, 0, 1, 1⟩
  body := [origin]

theorem Response.resting_length (origin : UInt8) : (Response.resting origin).bytes.length = 17 :=
  rfl

/-- The request asks for changes, and finds what the client has been told of. -/
structure FindsSame (vi : Video) (old : Picture) (request : Request) : Prop where
  incremental : request.incremental ≠ 0
  hash : request.driver.clutHash = some old.hash
  pixels
    : ∀ vp, request.driver.mode = some vp → ∀ k < vi.videoScrY * vi.videoScrX,
        request.driver.pixels vi vp k = old.pixels k

/-- The same pixels on the screen, and the same palette. -/
structure Picture.Same (vi : Video) (old new : Picture) : Prop where
  hash : new.hash = old.hash
  pixels : ∀ k < vi.videoScrY * vi.videoScrX, new.pixels k = old.pixels k

/-- A single pixel is not most of a screen. -/
theorem origin_not_mostlyDirty {vi : Video} (proper : vi.Proper)
    : ¬mostlyDirty (fullScreen vi) ⟨0, 0, 0, 0⟩ = true := by
  intro mostly
  have w : (fullScreen vi).w.toNat = vi.videoScrX := ofNat_toNat_of_le proper.width_le
  have wide := of_decide_eq_true mostly
  rw [w] at wide
  have one : FbRect.width ⟨0, 0, 0, 0⟩ = 1 := rfl
  rw [one] at wide
  obtain ⟨words, width⟩ := proper.width_dvd
  have positive := proper.width_pos
  omega

theorem Tells.resting {vi : Video} (proper : vi.Proper) {old new : Picture} {request : Request}
    {vp : VPBlock} {dirty : FbRect} {response : Response}
    (tells : Tells vi old request vp dirty response new) (same : FindsSame vi old request)
    : response = .resting (old.pixels 0) ∧ old.Same vi new := by
  have hash : new.hash = old.hash := Option.some.inj (tells.hash.symm.trans same.hash)
  have pixels : ∀ k < vi.videoScrY * vi.videoScrX, new.pixels k = old.pixels k := by
    rw [tells.pixels]
    exact same.pixels vp tells.mode
  refine ⟨?_, ⟨hash, pixels⟩⟩
  have none_ : differences vi old.pixels new.pixels = ∅ :=
    Set.eq_empty_of_forall_notMem fun k differs => differs.2 (pixels k differs.1)
  obtain ⟨_, exact_⟩ := tells.smallest
  obtain rfl := exact_.unchanged none_
  have part : ¬(request.incremental = 0
      ∨ mostlyDirty (fullScreen vi) ⟨0, 0, 0, 0⟩ = true) :=
    not_or.mpr ⟨same.incremental, origin_not_mostlyDirty proper⟩
  have rect : response.rect = ⟨0, 0, 1, 1⟩ := tells.rect.trans (if_neg part)
  have colours : response.colourMap = none := tells.colours.trans (if_pos hash)
  have body : response.body = [old.pixels 0] := by
    rw [tells.body, rect, ← pixels 0 (Nat.mul_pos proper.height_pos proper.width_pos)]
    simp [VNCRect.cut, slice]
  obtain ⟨map, rect_, body_⟩ := response
  cases colours
  cases rect
  cases body
  rfl

/-- As long as nothing changes one pixel is sent for each request: the picture stays as it was. -/
theorem exchanges_resting {vi : Video} (proper : vi.Proper) {old new : Picture}
    {requests : List Request} {responses : List Response}
    (exchanges : Exchanges (tells vi) old requests responses new)
    (same : ∀ request ∈ requests, FindsSame vi old request)
    : responses = List.replicate requests.length (.resting (old.pixels 0)) := by
  refine exchanges.constant (Picture.Same vi old) ?_ ⟨rfl, fun _ _ => rfl⟩
  rintro request member picture response picture' ⟨hash, pixels⟩ ⟨vp, dirty, told⟩
  obtain ⟨incremental, hash', pixels'⟩ := same request member
  have finds : FindsSame vi picture request := by
    refine ⟨incremental, hash ▸ hash', fun vp mode k inside => ?_⟩
    rw [pixels' vp mode k inside, pixels k inside]
  obtain ⟨rfl, ⟨hash'', pixels''⟩⟩ := told.resting proper finds
  have origin := pixels 0 (Nat.mul_pos proper.height_pos proper.width_pos)
  refine ⟨by rw [origin], ⟨hash''.trans hash, fun k inside => ?_⟩⟩
  rw [pixels'' k inside, pixels k inside]

-----------------------------------------------------------------------------------------
-- Whole sessions
-----------------------------------------------------------------------------------------

/-- A session starts with what `malloc` has left in the frame, and no hash. -/
theorem setUp_knows {outside : Outside} {garbage : Garbage} {sock fd : Nat} {s : Sess}
    (ready : setUp outside garbage (.opened outside sock fd) = .ok () s) (vi : Video)
    : Knows vi s.server.updates ⟨garbage.frame, 0⟩ := by
  obtain ⟨_, _, _, _, _, _, _, _, _, _, rfl⟩ := setUp_ok_iff.mp ready
  exact ⟨rfl, rfl, fun _ _ => rfl⟩

/-- What a session tells its client. -/
theorem session_tells {outside : Outside} {garbage : Garbage} {sock fd : Nat} {s : Sess}
    (opens : outside.opens = true)
    (ready : setUp outside garbage (.opened outside sock fd) = .ok () s)
    (full : ∀ n length, outside.sends n length = some length) {vi : Video} (proper : vi.Proper)
    (first : outside.init.Reports vi) (announced : outside.announced.Reports vi)
    (reports : ∀ n, (outside.drivers.update n).Reports vi)
    : ∃ answered responses new,
        answered <+: requestsIn outside garbage sock fd
        ∧ (requestsIn outside garbage sock fd).length ≤ answered.length + 1
        ∧ (handleSession outside garbage sock fd).sess.socket.sent
          = greeting outside garbage vi ++ responses.flatMap Response.bytes
        ∧ Exchanges (tells vi) ⟨garbage.frame, 0⟩ answered responses new := by
  obtain ⟨results, sent, _, serving⟩ := setUp_greeting ready full first announced
  have reports' : ∀ request ∈ requestsIn outside garbage sock fd, request.driver.Reports vi :=
    requestsOf_forall fun n _ => reports n
  obtain ⟨answered, front, many, _, u, returned, all⟩ :=
    session_answers opens ready full first announced reports'
  obtain ⟨responses, new, exchanges, took⟩ :=
    run_serve_tells proper serving (setUp_knows ready vi)
      (fun request member => reports' request (front.subset member)) returned
  refine ⟨answered, responses, new, front, many, ?_, exchanges⟩
  have full' : ∀ n length, s.server.updates.sock.results n length = some length := by
    intro n length
    exact (congrFun (congrFun results n) length).trans (full n length)
  have start : s.server.updates.sock.sent = greeting outside garbage vi := sent
  rw [all, took.sent full', start]

/-- On a screen that keeps its size, and with a socket that takes everything, all that a session
sends behind its greeting is determined by the pictures that its requests find one after another:
each response tells the client where its picture differs from the one before.
-/
theorem session_sends_differences (outside : Outside) (garbage : Garbage) (sock fd : Nat)
    (opens : outside.opens = true) (s : Sess)
    (ready : setUp outside garbage (.opened outside sock fd) = .ok () s)
    (full : ∀ n length, outside.sends n length = some length) (vi : Video) (proper : vi.Proper)
    (first : outside.init.Reports vi) (announced : outside.announced.Reports vi)
    (reports : ∀ n, (outside.drivers.update n).Reports vi)
    : ∃ answered responses new,
        answered <+: requestsIn outside garbage sock fd
        ∧ (requestsIn outside garbage sock fd).length ≤ answered.length + 1
        ∧ (handleSession outside garbage sock fd).sess.socket.sent
          = greeting outside garbage vi ++ responses.flatMap Response.bytes
        ∧ Exchanges (tells vi) ⟨garbage.frame, 0⟩ answered responses new
        ∧ ∀ responses' new',
            Exchanges (tells vi) ⟨garbage.frame, 0⟩ answered responses' new' →
              responses' = responses := by
  obtain ⟨answered, responses, new, front, many, sent, exchanges⟩ :=
    session_tells opens ready full proper first announced reports
  exact ⟨answered, responses, new, front, many, sent, exchanges,
    fun _ _ exchanges' => (exchanges'.unique (tells_functional vi) exchanges).1⟩

theorem session_sends_differences_asking
    : ∃ answered responses new,
        answered <+: requestsIn (smallTalk askingBytes) (zeroGarbage 0) 4 3
        ∧ (requestsIn (smallTalk askingBytes) (zeroGarbage 0) 4 3).length ≤ answered.length + 1
        ∧ (handleSession (smallTalk askingBytes) (zeroGarbage 0) 4 3).sess.socket.sent
          = greeting (smallTalk askingBytes) (zeroGarbage 0) smallScreen
            ++ responses.flatMap Response.bytes
        ∧ Exchanges (tells smallScreen) ⟨(zeroGarbage 0).frame, 0⟩ answered responses new
        ∧ ∀ responses' new',
            Exchanges (tells smallScreen) ⟨(zeroGarbage 0).frame, 0⟩ answered responses' new' →
              responses' = responses := by
  obtain ⟨s, ready⟩ := smallTalk_ready askingBytes 4 3
  exact session_sends_differences (smallTalk askingBytes) (zeroGarbage 0) 4 3 rfl s ready
    (fun _ _ => rfl) smallScreen smallScreen_proper (smallDriver_reports _ _)
    (smallDriver_reports _ _) (fun _ => smallDriver_reports _ _)

/-- The request asks for changes, and finds the picture that the other has found. -/
structure FindsNothingNew (vi : Video) (before request : Request) : Prop where
  incremental : request.incremental ≠ 0
  hash : request.driver.clutHash = before.driver.clutHash
  pixels
    : ∀ vp vp', before.driver.mode = some vp → request.driver.mode = some vp' →
        ∀ k < vi.videoScrY * vi.videoScrX,
          request.driver.pixels vi vp' k = before.driver.pixels vi vp k

/-- From any moment of a session on, for as long as neither the pixels nor the palette change, a
request for changes is answered with 17 bytes: no colours, and the pixel at the origin.
-/
theorem resting_screen_costs (outside : Outside) (garbage : Garbage) (sock fd : Nat)
    (opens : outside.opens = true) (s : Sess)
    (ready : setUp outside garbage (.opened outside sock fd) = .ok () s)
    (full : ∀ n length, outside.sends n length = some length) (vi : Video) (proper : vi.Proper)
    (first : outside.init.Reports vi) (announced : outside.announced.Reports vi)
    (reports : ∀ n, (outside.drivers.update n).Reports vi)
    : ∃ answered responses new,
        answered <+: requestsIn outside garbage sock fd
        ∧ (requestsIn outside garbage sock fd).length ≤ answered.length + 1
        ∧ (handleSession outside garbage sock fd).sess.socket.sent
          = greeting outside garbage vi ++ responses.flatMap Response.bytes
        ∧ Exchanges (tells vi) ⟨garbage.frame, 0⟩ answered responses new
        ∧ ∀ front last quiet behind, answered = front ++ last :: quiet ++ behind →
            (∀ request ∈ quiet, FindsNothingNew vi last request) →
              ∃ earlier later vp known told,
                last.driver.mode = some vp
                ∧ Exchanges (tells vi) ⟨garbage.frame, 0⟩ (front ++ [last]) earlier known
                ∧ Exchanges (tells vi) known quiet
                    (List.replicate quiet.length (.resting (last.driver.pixels vi vp 0))) told
                ∧ Exchanges (tells vi) told behind later new
                ∧ responses
                  = earlier
                    ++ List.replicate quiet.length (.resting (last.driver.pixels vi vp 0))
                    ++ later
                ∧ ((List.replicate quiet.length
                      (Response.resting (last.driver.pixels vi vp 0))).flatMap
                    Response.bytes).length
                  = 17 * quiet.length := by
  obtain ⟨answered, responses, new, isFront, many, sent, exchanges⟩ :=
    session_tells opens ready full proper first announced reports
  refine ⟨answered, responses, new, isFront, many, sent, exchanges, ?_⟩
  rintro front last quiet behind rfl nothingNew
  rw [List.append_assoc] at exchanges
  obtain ⟨earlier, _, known, rfl, _, before, exchanges⟩ := exchanges.of_append
  cases exchanges with
  | @cons _ picture _ _ response _ _ tells exchanges =>
      have known' := before.snoc tells
      obtain ⟨vp, dirty, told⟩ := tells
      obtain ⟨resting, later, picture', rfl, _, exchanges, behind'⟩ := exchanges.of_append
      have same : ∀ request ∈ quiet, FindsSame vi picture request := by
        intro request member
        obtain ⟨incremental, hash, pixels⟩ := nothingNew request member
        refine ⟨incremental, hash.trans told.hash, fun vp' mode k inside => ?_⟩
        rw [pixels vp vp' told.mode mode k inside, told.pixels]
      have rests := exchanges_resting proper exchanges same
      rw [told.pixels] at rests
      subst rests
      refine ⟨earlier ++ [response], later, vp, picture, picture', told.mode, known', exchanges,
        behind', by simp, ?_⟩
      rw [List.length_flatMap, List.map_replicate, Response.resting_length,
        List.sum_replicate_nat, Nat.mul_comm]

/-- A client that asks for the whole screen and then twice for changes. -/
def watching : List Parser.ClientMessage :=
  [.fbUpdateRequest 0 ⟨0, 0, 8, 1⟩, .fbUpdateRequest 1 ⟨0, 0, 8, 1⟩,
    .fbUpdateRequest 1 ⟨0, 0, 8, 1⟩]

/-- The server whose screen rests answers its second request with the pixel at the origin. -/
theorem resting_screen_costs_watching
    : ∃ first later : List Response,
        first.length = 1
        ∧ (handleSession (smallTalk (watching.flatMap Parser.ClientMessage.encode)) (zeroGarbage 0)
            4 3).sess.socket.sent
          = greeting (smallTalk (watching.flatMap Parser.ClientMessage.encode)) (zeroGarbage 0)
              smallScreen
            ++ (first ++ [Response.resting 7] ++ later).flatMap Response.bytes := by
  obtain ⟨s, ready⟩ := smallTalk_ready (watching.flatMap Parser.ClientMessage.encode) 4 3
  obtain ⟨answered, responses, new, front, many, sent, _, rests⟩ :=
    resting_screen_costs (smallTalk (watching.flatMap Parser.ClientMessage.encode))
      (zeroGarbage 0) 4 3 rfl s ready (fun _ _ => rfl) smallScreen smallScreen_proper
      (smallDriver_reports _ _) (smallDriver_reports _ _) (fun _ => smallDriver_reports _ _)
  have calls := @smallTalk_calls watching (by decide) (by decide) 4 3
  have requests : requestsIn (smallTalk (watching.flatMap Parser.ClientMessage.encode))
      (zeroGarbage 0) 4 3
      = [⟨smallDriver (fun _ => 7) 5, 0⟩, ⟨smallDriver (fun _ => 7) 5, 1⟩,
          ⟨smallDriver (fun _ => 7) 5, 1⟩] := by
    rw [requestsIn, calls]
    rfl
  rw [requests] at front many
  obtain ⟨rest, split⟩ := front
  rcases answered with _ | ⟨full, _ | ⟨change, behind⟩⟩
  · simp at many
  · simp at many
  · obtain ⟨rfl, more⟩ := List.cons.inj split
    obtain ⟨rfl, _⟩ := List.cons.inj more
    have nothingNew : FindsNothingNew smallScreen ⟨smallDriver (fun _ => 7) 5, 0⟩
        ⟨smallDriver (fun _ => 7) 5, 1⟩ := by
      refine ⟨by decide, rfl, fun vp vp' mode mode' k _ => ?_⟩
      obtain rfl := Option.some.inj (mode.symm.trans mode')
      rfl
    obtain ⟨earlier, later, vp, _, _, mode, told, _, _, same, _⟩ :=
      rests [] _ [_] behind rfl (List.forall_mem_singleton.mpr nothingNew)
    obtain rfl := Option.some.inj mode
    exact ⟨earlier, later, told.length_eq.symm, sent.trans (congrArg _ (congrArg _ same))⟩

end MiniVnc
