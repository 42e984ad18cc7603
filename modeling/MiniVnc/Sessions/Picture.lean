import MiniVnc.Sessions.Conversation
import MiniVnc.Sessions.Viewer

/-! What a viewer shows that reads everything a session sends: the Mac's picture. -/

namespace MiniVnc
open Library.Memory Library.Loop Library.Stream Library.Reading

/-- The colour on the Mac's screen at a place, in the mode `vp` and with the palette `clut`. -/
def Driver.picture (driver : Driver) (vp : VPBlock) (clut : Mem) (x y : Nat) : VNCColour :=
  colourAt clut (pixel vp.vpPixelSize driver.screen (y * vp.vpRowBytes) x).toNat

/-- The palettes have hashes other than zero that tell them apart. -/
structure ToldApart (cluts : Set Mem) : Prop where
  nonzero : ∀ clut ∈ cluts, Kernel.fbClutHash clut ≠ 0
  injective
    : ∀ clut ∈ cluts, ∀ clut' ∈ cluts, Kernel.fbClutHash clut = Kernel.fbClutHash clut'
        → SameClut clut clut'

/-- The hash is that of `clut`, and the first `count` entries of the chunks are its entries. -/
structure Driver.HoldsTo (driver : Driver) (count : Nat) (clut : Mem) : Prop where
  hash : ∀ hash, driver.clutHash = some hash → hash = Kernel.fbClutHash clut
  chunk
    : ∀ i < 32, ∀ chunk, driver.clutChunk i = some chunk →
        ∀ k < 64, i * 64 + k < 8 * count → chunk k = Kernel.fbClutChunk clut i k

theorem Driver.Holds.to {driver : Driver} {clut : Mem} (holds : driver.Holds clut) (count : Nat)
    : driver.HoldsTo count clut :=
  ⟨holds.hash, fun i asked chunk answered k below _ => holds.chunk i asked chunk answered k below⟩

/-- The first colours that are fetched are those of the palette. -/
theorem Driver.HoldsTo.colours {driver : Driver} {count : Nat} {clut : Mem}
    (holds : driver.HoldsTo count clut) (few : count ≤ 256) {fetched : Mem}
    (chunks : Fetched driver 32 fetched) {i : Nat} (inside : i < count)
    : colourAt fetched i = colourAt clut i := by
  obtain ⟨chunk, answered, stored⟩ := chunks (i / 8) (by omega)
  refine colourAt_congr fun k below => ?_
  have place : i / 8 * 64 + (8 * (i % 8) + k) = 8 * i + k := by omega
  have byte := holds.chunk (i / 8) (by omega) chunk answered (8 * (i % 8) + k) (by omega)
    (by omega)
  rw [← place, stored (8 * (i % 8) + k) (by omega), byte, Kernel.fbClutChunk]

/-- The viewer has the first `count` colours of the palette whose hash is stored, if one is. -/
structure Coloured (count : Nat) (cluts : Set Mem) (u : UpdateSession) (viewer : Viewer)
    : Prop where
  cleared : u.fb.clutChanged = false
  stored
    : u.fb.clutHash = 0
      ∨ ∃ clut ∈ cluts, u.fb.clutHash = Kernel.fbClutHash clut
          ∧ ∀ i < count, viewer.colours i = colourAt clut i

/-- What a response does to a viewer. -/
def Response.apply (viewer : Viewer) (response : Response) : Viewer :=
  response.messages.foldl ServerMessage.apply viewer

theorem Response.apply_pixels (viewer : Viewer) (response : Response)
    : (response.apply viewer).pixels = overwrite response.rect response.body viewer.pixels := by
  obtain ⟨map, rect, body⟩ := response
  cases map <;> rfl

theorem Response.apply_none {response : Response} (none : response.colourMap = none)
    (viewer : Viewer)
    : (response.apply viewer).colours = viewer.colours := by
  obtain ⟨map, rect, body⟩ := response
  cases none
  rfl

theorem Response.apply_some {response : Response} {colours : List VNCColour}
    (map : response.colourMap = some colours) (viewer : Viewer) (i : Nat)
    : (response.apply viewer).colours i = colours.getD i (viewer.colours i) := by
  obtain ⟨map, rect, body⟩ := response
  cases map
  rfl

/-- An answered request leaves the viewer with the colours of the kernel's palette. By cases on
whether the palette was fetched: if not, its hash is the stored one, and so are the colours.
-/
theorem Answered.coloured {vi : Video} {request : Request} {u u' : UpdateSession}
    {fb : FrameBuffer} (answered : Answered vi request u u' fb)
    (served : serve request u = .ok () u') {cluts : Set Mem} (apart : ToldApart cluts)
    {count : Nat} (few : count ≤ 256) {clut : Mem} (member : clut ∈ cluts)
    (holds : request.driver.HoldsTo count clut) {viewer : Viewer}
    (coloured : Coloured count cluts u viewer)
    : Coloured count cluts u' ((responseTo vi request.incremental fb).apply viewer)
      ∧ ∀ i < count,
          ((responseTo vi request.incremental fb).apply viewer).colours i = colourAt clut i := by
  obtain ⟨_, _, handled, returned⟩ := bind_eq_ok.mp served
  cases returned
  obtain ⟨fb', update, _, rest⟩ := vncEvtUpdateRequest_ok handled
  cases answered.update.symm.trans update
  have cleared : u'.fb.clutChanged = false := by rw [rest]
  have hash : u'.fb.clutHash = fb.clutHash := by rw [rest]
  have shows_ (colours
      : ∀ i < count,
          ((responseTo vi request.incremental fb).apply viewer).colours i = colourAt clut i)
      (stored : fb.clutHash = Kernel.fbClutHash clut)
      : Coloured count cluts u' ((responseTo vi request.incremental fb).apply viewer) :=
    ⟨cleared, Or.inr ⟨clut, member, hash.trans stored, colours⟩⟩
  cases (fbUpdate_ok update).clut with
  | kept sameHash _ same unset _ =>
      have known : u.fb.clutHash = Kernel.fbClutHash clut := holds.hash _ sameHash
      have none : (responseTo vi request.incremental fb).colourMap = none := by
        simp only [responseTo, unset, Bool.false_eq_true, ↓reduceIte]
      have colours : ∀ i < count,
          ((responseTo vi request.incremental fb).apply viewer).colours i
            = colourAt clut i := by
        intro i inside
        rw [Response.apply_none none]
        rcases coloured.stored with zero | ⟨clut', member', hash', colours⟩
        · exact absurd (known.symm.trans zero) (apart.nonzero clut member)
        · have same := apart.injective clut' member' clut member (hash'.symm.trans known)
          rw [colours i inside]
          exact colourAt_congr fun k _ => same _ (by omega)
      exact ⟨shows_ colours (same.trans known), colours⟩
  | fetched newHash _ set chunks sent =>
      have map : (responseTo vi request.incremental fb).colourMap
          = some ((List.range 256).map fb.vncClut) := by
        simp only [responseTo, set, ↓reduceIte]
      have colours : ∀ i < count,
          ((responseTo vi request.incremental fb).apply viewer).colours i
            = colourAt clut i := by
        intro i inside
        rw [Response.apply_some map, List.getD_eq_getElem _ _ (by simp; omega), List.getElem_map,
          List.getElem_range, sent i (by omega), holds.colours few chunks inside]
      exact ⟨shows_ colours (holds.hash _ newHash), colours⟩

/-- What a request needs for its answer to be shown as it should. -/
structure Presents (vi : Video) (count : Nat) (cluts : Set Mem) (request : Request) : Prop where
  reports : request.driver.Reports vi
  holds : ∃ clut ∈ cluts, request.driver.HoldsTo count clut

/-- In the mode `vp` the values of all pixels are below `count`. -/
def Driver.PixelsBelow (driver : Driver) (vp : VPBlock) (count : Nat) : Prop :=
  ∀ x y, (pixel vp.vpPixelSize driver.screen (y * vp.vpRowBytes) x).toNat < count

/-- After an answered request the viewer shows the Mac's picture. -/
theorem Answered.pictured {vi : Video} {request : Request} {u u' : UpdateSession}
    {fb : FrameBuffer} (answered : Answered vi request u u' fb)
    (served : serve request u = .ok () u') (proper : vi.Proper) {cluts : Set Mem}
    (apart : ToldApart cluts) {count : Nat} (few : count ≤ 256) {viewer : Viewer}
    (coloured : Coloured count cluts u viewer)
    (before : request.incremental ≠ 0 → Synchronised vi u viewer.pixels) {vp : VPBlock}
    (mode : request.driver.mode = some vp) (below : request.driver.PixelsBelow vp count)
    {clut : Mem} (member : clut ∈ cluts) (holds : request.driver.HoldsTo count clut)
    : ∀ x < vi.videoScrX, ∀ y < vi.videoScrY,
        ((responseTo vi request.incremental fb).apply viewer).shown x y
        = request.driver.picture vp clut x y := by
  intro x column y row
  have synchronised := answered.synchronised proper before
  have value : ((responseTo vi request.incremental fb).apply viewer).pixels x y
      = pixel vp.vpPixelSize request.driver.screen (y * vp.vpRowBytes) x := by
    rw [Response.apply_pixels, synchronised x column y row]
    exact answered.shows proper mode column row
  rw [Viewer.shown, Driver.picture, value]
  exact (answered.coloured served apart few member holds coloured).2 _ (below x y)

/-- Requests that are served keep the viewer's pixels and colours, by induction on them. -/
theorem run_serve_viewed {vi : Video} (proper : vi.Proper) {cluts : Set Mem}
    (apart : ToldApart cluts) {count : Nat} (few : count ≤ 256) {u t : UpdateSession}
    (serving : Serving vi u) {requests : List Request}
    (presents : ∀ request ∈ requests, Presents vi count cluts request)
    (returned : run serve requests u = .ok () t)
    : ∃ messages : List ServerMessage,
        (∀ message ∈ messages, message.Framed)
        ∧ u.sock.Took (messages.flatMap ServerMessage.bytes) t.sock
        ∧ ∀ viewer, Coloured count cluts u viewer
          → Coloured count cluts t (messages.foldl ServerMessage.apply viewer)
            ∧ (((∀ request, requests.head? = some request → request.incremental ≠ 0)
                → Synchronised vi u viewer.pixels)
              → Synchronised vi t (messages.foldl ServerMessage.apply viewer).pixels) := by
  induction requests generalizing u with
  | nil =>
      cases returned
      refine ⟨[], fun _ none => absurd none List.not_mem_nil, .nothing _, ?_⟩
      intro viewer coloured
      refine ⟨coloured, fun synchronised => synchronised ?_⟩
      intro request none
      cases none
  | cons request rest ih =>
      obtain ⟨_, middle, served, later⟩ := bind_eq_ok.mp returned
      obtain ⟨reports, clut, member, holds⟩ := presents request (by simp)
      obtain ⟨fb, answered⟩ := serve_ok serving reports served
      have framed := answered.wellFramed proper.sized
      obtain ⟨messages, framed', took, viewed⟩ := ih answered.serving
        (fun request' member => presents request' (by simp [member])) later
      refine ⟨(responseTo vi request.incremental fb).messages ++ messages, ?_, ?_, ?_⟩
      · intro message among
        rcases List.mem_append.mp among with first | later'
        · exact framed.messages message first
        · exact framed' message later'
      · rw [List.flatMap_append, Response.messages_bytes]
        exact answered.took.append took
      · intro viewer coloured
        rw [List.foldl_append]
        obtain ⟨coloured', synchronised⟩ :=
          viewed _ (answered.coloured served apart few member holds coloured).1
        refine ⟨coloured', fun before => synchronised fun _ => ?_⟩
        show Synchronised vi middle ((responseTo vi request.incremental fb).apply viewer).pixels
        rw [Response.apply_pixels]
        refine answered.synchronised proper fun incremental => before ?_
        intro request' first
        cases first
        exact incremental

/-- The viewer shows the Mac's picture as `request` found it. -/
def Viewer.Shows (viewer : Viewer) (vi : Video) (cluts : Set Mem) (request : Request) : Prop :=
  ∀ vp, request.driver.mode = some vp → ∀ clut ∈ cluts, request.driver.Holds clut →
    ∀ x < vi.videoScrX, ∀ y < vi.videoScrY,
      viewer.shown x y = request.driver.picture vp clut x y

/-- It does as far as the first `count` colours go. -/
def Viewer.ShowsTo (viewer : Viewer) (vi : Video) (count : Nat) (cluts : Set Mem)
    (request : Request) : Prop :=
  ∀ vp, request.driver.mode = some vp → request.driver.PixelsBelow vp count →
    ∀ clut ∈ cluts, request.driver.HoldsTo count clut →
      ∀ x < vi.videoScrX, ∀ y < vi.videoScrY,
        viewer.shown x y = request.driver.picture vp clut x y

theorem Viewer.ShowsTo.shows {viewer : Viewer} {vi : Video} {cluts : Set Mem} {request : Request}
    (shows_ : viewer.ShowsTo vi 256 cluts request)
    : viewer.Shows vi cluts request := by
  intro vp mode clut member holds
  exact shows_ vp mode (fun x y => UInt8.toNat_lt _) clut member (holds.to 256)

/-- After requests that are served, of which the first is not incremental, the viewer shows the
picture as the last of them found it. By cases on whether there is a last.
-/
theorem run_serve_pictured {vi : Video} (proper : vi.Proper) {cluts : Set Mem}
    (apart : ToldApart cluts) {count : Nat} (few : count ≤ 256) {u t : UpdateSession}
    (serving : Serving vi u) {requests : List Request}
    (presents : ∀ request ∈ requests, Presents vi count cluts request)
    (whole : ∀ request, requests.head? = some request → request.incremental = 0)
    (returned : run serve requests u = .ok () t)
    : ∃ messages : List ServerMessage,
        (∀ message ∈ messages, message.Framed)
        ∧ u.sock.Took (messages.flatMap ServerMessage.bytes) t.sock
        ∧ ∀ viewer, Coloured count cluts u viewer
          → ∀ last, requests.getLast? = some last
            → (messages.foldl ServerMessage.apply viewer).ShowsTo vi count cluts last := by
  rcases requests.eq_nil_or_concat with rfl | ⟨init, last, rfl⟩
  · cases returned
    refine ⟨[], fun _ none => absurd none List.not_mem_nil, .nothing _, ?_⟩
    intro viewer _ last none
    cases none
  · rw [List.concat_eq_append] at presents whole returned ⊢
    rw [run_append] at returned
    obtain ⟨_, middle, before, final⟩ := bind_eq_ok.mp returned
    rw [run_singleton] at final
    obtain ⟨messages, framed, took, viewed⟩ := run_serve_viewed proper apart few serving
      (fun request member => presents request (by simp [member])) before
    have serving' := run_serve_serving serving
      (fun request member => (presents request (by simp [member])).reports) before
    obtain ⟨fb, answered⟩ := serve_ok serving' (presents last (by simp)).reports final
    have framed' := answered.wellFramed proper.sized
    refine ⟨messages ++ (responseTo vi last.incremental fb).messages, ?_, ?_, ?_⟩
    · intro message among
      rcases List.mem_append.mp among with first | later
      · exact framed message first
      · exact framed'.messages message later
    · rw [List.flatMap_append, Response.messages_bytes]
      exact took.append answered.took
    · intro viewer coloured last' isLast vp mode below clut member holds
      rw [List.getLast?_append, List.getLast?_singleton, Option.some_or] at isLast
      cases isLast
      rw [List.foldl_append]
      obtain ⟨coloured', synchronised⟩ := viewed viewer coloured
      refine answered.pictured final proper apart few coloured' ?_ mode below member holds
      -- an incremental request is not the first, so the one before it was for the whole screen
      intro incremental
      refine synchronised fun none => ?_
      cases init with
      | nil => exact absurd (whole last rfl) incremental
      | cons request rest => exact absurd (whole request rfl) (none request rfl)

/-- Before its first request a session has stored no hash, and any viewer will do. -/
theorem setUp_coloured {outside : Outside} {garbage : Garbage} {sock fd : Nat} {s : Sess}
    (ready : setUp outside garbage (.opened outside sock fd) = .ok () s) (count : Nat)
    (cluts : Set Mem) (viewer : Viewer)
    : Coloured count cluts s.server.updates viewer := by
  obtain ⟨_, _, _, _, _, _, _, _, _, _, rfl⟩ := setUp_ok_iff.mp ready
  exact ⟨rfl, Or.inl rfl⟩

/-- A viewer that reads everything that a session sends shows the Mac's picture, as the last request
that was answered found it, when every request of the session can be presented.
-/
theorem session_presented {outside : Outside} {garbage : Garbage} {sock fd : Nat} {s : Sess}
    (opens : outside.opens = true)
    (ready : setUp outside garbage (.opened outside sock fd) = .ok () s)
    (full : ∀ n length, outside.sends n length = some length) {vi : Video} (proper : vi.Proper)
    (first : outside.init.Reports vi) (announced : outside.announced.Reports vi)
    {cluts : Set Mem} (apart : ToldApart cluts) {count : Nat} (few : count ≤ 256)
    (presents : ∀ request ∈ requestsIn outside garbage sock fd, Presents vi count cluts request)
    (whole
      : ∀ request, (requestsIn outside garbage sock fd).head? = some request →
          request.incremental = 0)
    : ∃ answered,
        HasAnswered outside garbage sock fd s answered
        ∧ ∀ viewer₀, ∃ viewer,
            view ((handleSession outside garbage sock fd).sess.socket.sent.drop 50) viewer₀
              = some viewer
            ∧ ∀ last, answered.getLast? = some last → viewer.ShowsTo vi count cluts last := by
  obtain ⟨results, sent, _, serving⟩ := setUp_greeting ready full first announced
  obtain ⟨answered, has⟩ :=
    session_answers opens ready full first announced
      fun request member => (presents request member).reports
  refine ⟨answered, has, ?_⟩
  obtain ⟨front, _, _, u, returned, all⟩ := has
  have among : ∀ request ∈ answered, Presents vi count cluts request :=
    fun request member => presents request (front.subset member)
  have whole' : ∀ request, answered.head? = some request → request.incremental = 0 := by
    intro request head
    refine whole request ?_
    obtain ⟨rest, same⟩ := front
    rw [← same, List.head?_append, head, Option.some_or]
  obtain ⟨messages, framed, took, shown⟩ :=
    run_serve_pictured proper apart few serving among whole' returned
  have full' : ∀ n length, s.server.updates.sock.results n length = some length := by
    intro n length
    exact (congrFun (congrFun results n) length).trans (full n length)
  have stream : (handleSession outside garbage sock fd).sess.socket.sent.drop 50
      = messages.flatMap ServerMessage.bytes := by
    have start : s.server.updates.sock.sent = greeting outside garbage vi := sent
    rw [all, took.sent full', start, ← greeting_length outside garbage vi, List.drop_left]
  intro viewer₀
  refine ⟨_, (congrArg (view · viewer₀) stream).trans (view_messages framed viewer₀), ?_⟩
  intro last isLast
  exact shown viewer₀ (setUp_coloured ready count cluts viewer₀) last isLast

/-- A viewer that reads everything that a session sends, from its first byte to its last, shows the
Mac's picture in the Mac's colours, as the last request that was answered found it: on a screen
that keeps its size, in any indexed modes, with palettes that have hashes other than zero that
tell them apart and do not change during an update, with a socket that takes everything, and for
a client whose first request is for the whole screen.
-/
theorem session_shows_picture (outside : Outside) (garbage : Garbage) (sock fd : Nat)
    (opens : outside.opens = true) (s : Sess)
    (ready : setUp outside garbage (.opened outside sock fd) = .ok () s)
    (full : ∀ n length, outside.sends n length = some length) (vi : Video) (proper : vi.Proper)
    (first : outside.init.Reports vi) (announced : outside.announced.Reports vi)
    (cluts : Set Mem) (apart : ToldApart cluts)
    (presents
      : ∀ n, (outside.drivers.update n).Reports vi
          ∧ ∃ clut ∈ cluts, (outside.drivers.update n).Holds clut)
    (whole
      : ∀ request, (requestsIn outside garbage sock fd).head? = some request →
          request.incremental = 0)
    : ∃ answered,
        HasAnswered outside garbage sock fd s answered
        ∧ ∀ viewer₀, ∃ viewer,
            view ((handleSession outside garbage sock fd).sess.socket.sent.drop 50) viewer₀
              = some viewer
            ∧ ∀ last, answered.getLast? = some last → viewer.Shows vi cluts last := by
  have presents' : ∀ request ∈ requestsIn outside garbage sock fd,
      Presents vi 256 cluts request := by
    refine requestsOf_forall fun n _ => ?_
    obtain ⟨reports, clut, member, holds⟩ := presents n
    have holds' := holds.to 256
    exact ⟨reports, clut, member, holds'.hash, holds'.chunk⟩
  obtain ⟨answered, has, viewed⟩ := session_presented opens ready full proper first
    announced apart (Nat.le_refl 256) presents' whole
  refine ⟨answered, has, fun viewer₀ => ?_⟩
  obtain ⟨viewer, read, shown⟩ := viewed viewer₀
  exact ⟨viewer, read, fun last isLast => (shown last isLast).shows⟩

/-- A black palette is told apart from zero, and from nothing else. -/
theorem blackClut_toldApart : ToldApart {blackClut} where
  nonzero := by
    rintro clut rfl
    rw [fbClutHash_blackClut]
    decide
  injective := by
    rintro clut rfl clut' rfl _ k _
    rfl

/-- The client that says hello, on a Mac whose updates are answered by any drivers. -/
def helloOn (drivers : Drivers) : Outside :=
  { clutOutside blackClut with drivers }

theorem helloOn_setUp (drivers : Drivers)
    : ∃ s, setUp (helloOn drivers) (zeroGarbage 0) (.opened (helloOn drivers) 4 3) = .ok () s :=
  ⟨_, setUp_ok_iff.mpr ⟨smallScreen, ⟨8, 8⟩, smallScreen, 12, 256, 4, 34,
    ⟨rfl, rfl, rfl, rfl, rfl⟩,
    ⟨rfl, rfl, List.cons_ne_nil _ _, rfl, Option.some_ne_none _, List.cons_ne_nil _ _⟩, rfl,
    rfl⟩⟩

/-- Its first request is for the whole screen, and is its only one when it is answered. -/
theorem helloOn_requests (drivers : Drivers)
    : requestsIn (helloOn drivers) (zeroGarbage 0) 4 3
          <+: [⟨(drivers.withGarbage (zeroGarbage 0)).update 0, 0⟩]
      ∧ ((drivers.update 0).Answers
        → requestsIn (helloOn drivers) (zeroGarbage 0) 4 3
          = [⟨(drivers.withGarbage (zeroGarbage 0)).update 0, 0⟩]) := by
  obtain ⟨s, ready⟩ := helloOn_setUp drivers
  obtain ⟨heard, _, all⟩ := @session_hears (helloOn drivers) (zeroGarbage 0) 4 3 s rfl ready
    (fun _ => Option.some_ne_none _) ⟨256, rfl, by decide⟩
    [.fbUpdateRequest 0 ⟨0, 0, 8, 1⟩] (by decide) (by decide) rfl
  have events : [Parser.ClientMessage.fbUpdateRequest 0 ⟨0, 0, 8, 1⟩].flatMap
      Parser.ClientMessage.events = [.updateRequest ⟨3, 0, 0, 0, 8, 1⟩] := rfl
  have same : (helloOn drivers).drivers = drivers := rfl
  rw [events] at heard
  rw [events, same] at all
  refine ⟨requestsOf_front (drivers.withGarbage (zeroGarbage 0)) 0 heard, fun answers => ?_⟩
  obtain ⟨results, _, none_, _⟩ := @setUp_greeting _ _ _ _ _ ready (fun _ _ => rfl) smallScreen
    (smallDriver_reports _ _) (smallDriver_reports _ _)
  have answers' : ((drivers.withGarbage (zeroGarbage 0)).update s.server.asked).Answers := by
    rw [none_]
    exact answers.withGarbage (zeroGarbage 0)
  have accepting : s.server.updates.Accepting := by
    intro n length
    have takes := congrFun (congrFun results n) length
    exact takes.trans_ne (Option.some_ne_none _)
  obtain ⟨_, t, served, _⟩ := @serve_total
    ⟨(drivers.withGarbage (zeroGarbage 0)).update s.server.asked, 0⟩ answers' s.server.updates
    accepting
  have handled : handleEvent (drivers.withGarbage (zeroGarbage 0))
      (.updateRequest ⟨3, 0, 0, 0, 8, 1⟩) s.server
      = .ok () { s.server with asked := s.server.asked + 1, updates := t } := by
    rw [handleEvent_request, onUpdates_ok_iff]
    exact ⟨t, served, rfl⟩
  rw [requestsIn, all _ ((run_singleton _ _ _).trans handled), same]
  rfl

theorem helloOn_answers {drivers : Drivers} (answers : (drivers.update 0).Answers)
    : ∀ request ∈ requestsIn (helloOn drivers) (zeroGarbage 0) 4 3, request.driver.Answers := by
  rw [(helloOn_requests drivers).2 answers, List.forall_mem_singleton]
  exact answers.withGarbage (zeroGarbage 0)

theorem helloOn_whole (drivers : Drivers)
    : ∀ request, (requestsIn (helloOn drivers) (zeroGarbage 0) 4 3).head? = some request →
        request.incremental = 0 := by
  intro request first
  obtain ⟨rest, same⟩ := (helloOn_requests drivers).1
  have head := congrArg List.head? same
  rw [List.head?_append, first, Option.some_or] at head
  obtain rfl := Option.some.inj head
  rfl

theorem smallScreen_proper : smallScreen.Proper :=
  ⟨by decide, by decide, by decide, by decide, by decide, by decide⟩

/-- A viewer that has been sent nothing, and shows white. -/
def newViewer : Viewer where
  pixels := fun _ _ => 0
  colours := fun _ => ⟨0xffff, 0xffff, 0xffff⟩

/-- The client that says hello asks for the whole screen, on a Mac with the black palette, and is
shown it.
-/
theorem session_shows_picture_black
    : ∃ viewer,
        view
            ((handleSession (clutOutside blackClut) (zeroGarbage 0) 4 3).sess.socket.sent.drop 50)
            newViewer
          = some viewer
        ∧ ∀ x < 8, ∀ y < 1,
            viewer.shown x y = (clutDriver blackClut).picture ⟨8, 8⟩ blackClut x y := by
  obtain ⟨s, ready⟩ := helloOn_setUp (clutOutside blackClut).drivers
  have presents (n : Nat)
      : ((clutOutside blackClut).drivers.update n).Reports smallScreen
        ∧ ∃ clut ∈ ({blackClut} : Set Mem), ((clutOutside blackClut).drivers.update n).Holds clut :=
    ⟨fun _ reported => (Option.some.inj reported).symm, blackClut, rfl,
      clutDriver_holds blackClut⟩
  obtain ⟨answered, has, viewed⟩ :=
    session_shows_picture (clutOutside blackClut) (zeroGarbage 0) 4 3 rfl s ready
      (fun _ _ => rfl) smallScreen smallScreen_proper (smallDriver_reports _ _)
      (smallDriver_reports _ _) {blackClut} blackClut_toldApart presents
      (helloOn_whole (clutOutside blackClut).drivers)
  have answers : ((clutOutside blackClut).drivers.update 0).Answers := clutDriver_answers blackClut
  have requests := (helloOn_requests (clutOutside blackClut).drivers).2 answers
  have all := (has.all (helloOn_answers answers)).trans requests
  obtain ⟨viewer, read, shown⟩ := viewed newViewer
  refine ⟨viewer, read, ?_⟩
  refine shown _ (congrArg List.getLast? all) ⟨8, 8⟩ rfl blackClut rfl ?_
  exact clutDriver_holds blackClut

end MiniVnc
