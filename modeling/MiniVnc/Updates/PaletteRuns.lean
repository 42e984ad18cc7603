import MiniVnc.Kernel.Crc32
import MiniVnc.Library.Stretches
import MiniVnc.Updates.Framing

/-! Sessions in which the kernel's palette may change at any moment: the hash and the 32
chunks of one update are read at different moments, and may belong to different palettes.
-/

namespace MiniVnc
open Library.Memory Library.Loop Library.Stream Library.Stretches

/-- The kernel's CLUT at every moment. Each step of an update request takes a moment, so the
CLUT may change in any way between any two of them.
-/
abbrev History := Nat → Mem

/-- Both blocks hold the same 2048-byte CLUT. -/
abbrev SameClut (left right : Mem) : Prop := ∀ k < 2048, left k = right k

/-- The answers during an update whose hash read is at `start`: chunk `i` is read `i + 1`
moments later.
-/
def Driver.during (driver : Driver) (history : History) (start : Nat) : Driver :=
  { driver with
    clutHash := some (Kernel.fbClutHash (history start))
    clutChunk := fun i => some (Kernel.fbClutChunk (history (start + 1 + i)) i) }

/-- A request that is handled `wait` moments after the one before it. -/
structure TimedRequest where
  wait : Nat
  driver : Driver
  incremental : UInt8

/-- A session with the moment that comes next, that of the last step taken, and the colour map it
last sent.
-/
structure TimedSession where
  now : Nat
  ended : Nat
  session : UpdateSession
  lastMap : Option (List VNCColour)

/-- The colours in bytes given to `send`, if these start with a colour map. -/
def colourMapIn (bytes : List UInt8) : Option (List VNCColour) :=
  if colourMapHeader.bytes.isPrefixOf bytes then
    some ((List.range 256).map fun i => VNCColour.at (load bytes) (6 + 6 * i))
  else
    none

/-- Handle one request with the answers of `driver`. The hash read has the moment `start`, the 32
chunks and the sending of the colour map the 33 moments behind it when the palette is fetched;
else these pass.
-/
def serveAt (driver : Driver) (start : Nat) (incremental : UInt8)
    : EStateM SessionError TimedSession Unit := fun s =>
  match serve ⟨driver, incremental⟩ s.session with
  | .error e session => .error e { s with session }
  | .ok _ session =>
      .ok ()
        { now := start + 34
          ended :=
            if (endState (fbUpdate driver s.session.fb)).clutChanged then start + 33 else start
          session := session
          lastMap :=
            (colourMapIn (session.sock.offered.drop s.session.sock.offered.length)).or
              s.lastMap }

/-- Handle one request, with the palette that the kernel has at each moment. -/
def timedServe (history : History) (request : TimedRequest)
    : EStateM SessionError TimedSession Unit := fun s =>
  let start := s.now + request.wait
  serveAt (request.driver.during history start) start request.incremental s

/-- The colours of a CLUT. -/
def coloursOf (clut : Mem) : List VNCColour := (List.range 256).map (colourAt clut)

/-- The colours that are fetched after a hash read at `start`. -/
def coloursRead (history : History) (start : Nat) : List VNCColour :=
  (List.range 256).map fun i => colourAt (history (start + 1 + i / 8)) i

/-- The CLUTs that occur have non-zero hashes that tell them apart. -/
structure Distinguished (history : History) : Prop where
  nonzero : ∀ t, Kernel.fbClutHash (history t) ≠ 0
  injective
    : ∀ t u, Kernel.fbClutHash (history t) = Kernel.fbClutHash (history u)
        → SameClut (history t) (history u)

/-- The moments of the hash reads of requests, of which the first is free to start from `now` on.
-/
def startsFrom : Nat → List TimedRequest → List Nat
  | _, [] => []
  | now, request :: rest => (now + request.wait) :: startsFrom (now + request.wait + 34) rest

/-- The moment that comes next when they have been handled. -/
def nowAfter : Nat → List TimedRequest → Nat
  | now, [] => now
  | now, request :: rest => nowAfter (now + request.wait + 34) rest

/-- The moments `t` and `u` have CLUTs of the same hash. -/
abbrev SameHash (history : History) (t u : Nat) : Prop :=
  Kernel.fbClutHash (history t) = Kernel.fbClutHash (history u)

/-- After hash reads at `starts`: the stored hash is that of the last, and the colour map last sent
is what was fetched when the hash was first that.
-/
structure Tracks (history : History) (starts : List Nat) (s : TimedSession) : Prop where
  cleared : s.session.fb.clutChanged = false
  stored
    : match starts.getLast? with
      | none => s.session.fb.clutHash = 0
      | some last =>
          s.session.fb.clutHash = Kernel.fbClutHash (history last)
          ∧ ∃ first, StretchFrom (SameHash history · last) starts first
              ∧ s.lastMap = some (coloursRead history first)

/-- Colours depend on the entry's bytes only. -/
theorem colourAt_congr {left right : Mem} {i j : Nat}
    (same : ∀ k < 8, left (8 * i + k) = right (8 * j + k))
    : colourAt left i = colourAt right j := by
  have bytes : SameBytes left right (8 * i) (8 * j) 8 := same
  simp only [colourAt, VNCColour.mk.injEq]
  exact ⟨bytes.ushort 2 (by omega), bytes.ushort 4 (by omega), bytes.ushort 6 (by omega)⟩

theorem coloursOf_congr {left right : Mem} (same : SameClut left right)
    : coloursOf left = coloursOf right := by
  refine List.map_congr_left fun i member => ?_
  have inside := List.mem_range.mp member
  exact colourAt_congr fun k hk => same _ (by omega)

/-- A fetch stores the colours its chunk reads see: entry `i` comes with chunk `i / 8`. -/
theorem fetched_colours {history : History} {driver : Driver} {start : Nat} {clut : Mem}
    (fetched : Fetched (driver.during history start) 32 clut)
    : coloursOf clut = coloursRead history start := by
  refine List.map_congr_left fun i member => ?_
  have inside := List.mem_range.mp member
  obtain ⟨chunk, answered, stored⟩ := fetched (i / 8) (by omega)
  cases answered
  refine colourAt_congr fun k hk => ?_
  have byte := stored (8 * (i % 8) + k) (by omega)
  rw [Kernel.fbClutChunk] at byte
  have place : i / 8 * 64 + (8 * (i % 8) + k) = 8 * i + k := by omega
  rw [place] at byte
  exact byte

/-- The colour map of a response can be read off the bytes that are given for it. -/
theorem Response.colourMapIn (response : Response)
    (all : ∀ colours, response.colourMap = some colours → colours.length = 256)
    : MiniVnc.colourMapIn response.bytes = response.colourMap := by
  obtain ⟨map, rect, body⟩ := response
  cases map with
  | none => rfl
  | some colours =>
      have starts : colourMapHeader.bytes.isPrefixOf (Response.bytes ⟨some colours, rect, body⟩) :=
        rfl
      have length := all colours rfl
      rw [MiniVnc.colourMapIn, if_pos starts]
      have lengths : ((List.range 256).map fun i =>
            VNCColour.at (load (Response.bytes ⟨some colours, rect, body⟩)) (6 + 6 * i)).length
          = colours.length := by
        rw [List.length_map, List.length_range, length]
      refine congrArg some (List.ext_getElem lengths fun i below inside => ?_)
      have behind : 6 = colourMapHeader.bytes.length := rfl
      simp only [Response.bytes, List.append_assoc, List.getElem_map, List.getElem_range]
      rw [behind, VNCColour.at_append, ← behind, VNCColour.at_flatMap colours _ inside]

/-- What a request does to the palette and its track: nothing when the hash is the stored one,
else a fetch whose colours are sent.
-/
inductive Handled (history : History) (start : Nat) (s s' : TimedSession) : Prop
  | kept (hash : s.session.fb.clutHash = Kernel.fbClutHash (history start))
    (sameHash : s'.session.fb.clutHash = s.session.fb.clutHash)
    (sameMap : s'.lastMap = s.lastMap) (ended : s'.ended = start)
  | fetched (hash : s'.session.fb.clutHash = Kernel.fbClutHash (history start))
    (new : s.session.fb.clutHash ≠ Kernel.fbClutHash (history start))
    (map : s'.lastMap = some (coloursRead history start)) (ended : s'.ended = start + 33)

/-- One request, by cases on the palette's update. -/
theorem timedServe_ok {history : History} {request : TimedRequest} {s s' : TimedSession}
    (cleared : s.session.fb.clutChanged = false) (h : timedServe history request s = .ok () s')
    : s'.session.fb.clutChanged = false ∧ s'.now = s.now + request.wait + 34
      ∧ Handled history (s.now + request.wait) s s' := by
  cases served : serve ⟨request.driver.during history (s.now + request.wait),
      request.incremental⟩ s.session with
  | error e session =>
      simp only [timedServe, serveAt, served] at h
      cases h
  | ok done session =>
      obtain ⟨left, last, answered, returned⟩ := bind_eq_ok.mp served
      cases returned
      obtain ⟨fb, update, took, sessionEq⟩ := vncEvtUpdateRequest_ok answered
      have flag : session.fb.clutChanged = false := by rw [sessionEq]
      have hash : session.fb.clutHash = fb.clutHash := by rw [sessionEq]
      have given : session.sock.offered.drop s.session.sock.offered.length
          = (responseTo s.session.videoInfo request.incremental fb).bytes := by
        rw [took.offered, List.drop_left]
      have decoded := (responseTo s.session.videoInfo request.incremental fb).colourMapIn
        fun _ => responseTo_colours
      simp only [timedServe, serveAt, served, update, endState, given, decoded] at h
      cases h
      refine ⟨flag, rfl, ?_⟩
      cases (fbUpdate_ok update).clut with
      | kept sameHash _ sameStored unset _ =>
          refine .kept (Option.some.inj sameHash).symm (hash.trans sameStored) ?_ ?_
          · simp only [responseTo, unset, Bool.false_eq_true, ↓reduceIte, Option.none_or]
          · simp only [unset, Bool.false_eq_true, ↓reduceIte]
      | fetched newHash due set chunks colours =>
          have stored := Option.some.inj newHash
          have sent : (List.range 256).map fb.vncClut
              = coloursRead history (s.now + request.wait) := by
            rw [← fetched_colours chunks]
            exact List.map_congr_left fun i member => colours i (List.mem_range.mp member)
          refine .fetched (hash.trans stored.symm) ?_ ?_ ?_
          · rcases due with early | new
            · rw [cleared] at early
              cases early
            · rw [stored]
              exact new
          · simp only [responseTo, set, ↓reduceIte, Option.some_or, sent]
          · simp only [set, ↓reduceIte]

/-- A request keeps track of its session. -/
theorem Tracks.step {history : History} (distinguished : Distinguished history)
    {starts : List Nat} {request : TimedRequest} {s s' : TimedSession}
    (tracks : Tracks history starts s) (h : timedServe history request s = .ok () s')
    : Tracks history (starts ++ [s.now + request.wait]) s' := by
  obtain ⟨cleared, _, handled⟩ := timedServe_ok tracks.cleared h
  have stored := tracks.stored
  refine ⟨cleared, ?_⟩
  rw [List.getLast?_concat]
  cases handled with
  | kept hash sameHash sameMap _ =>
      refine ⟨sameHash.trans hash, ?_⟩
      cases before : starts.getLast? with
      | none =>
          rw [before] at stored
          exact absurd (hash.symm.trans stored) (distinguished.nonzero _)
      | some last =>
          rw [before] at stored
          obtain ⟨first, stretch, map⟩ := stored.2
          have same : SameHash history last (s.now + request.wait) := stored.1.symm.trans hash
          have stretch' := stretch.congr fun t =>
            (⟨fun old => old.trans same, fun new => new.trans same.symm⟩
              : SameHash history t last ↔ SameHash history t (s.now + request.wait))
          exact ⟨first, stretch'.snoc rfl, sameMap.trans map⟩
  | fetched hash new map _ =>
      refine ⟨hash, s.now + request.wait, stretchFrom_snoc ?_ rfl, map⟩
      intro last before same
      rw [before] at stored
      exact new (stored.1.trans same)

/-- So does a run of requests, by induction on them. -/
theorem Tracks.run {history : History} (distinguished : Distinguished history)
    {starts : List Nat} {requests : List TimedRequest} {s t : TimedSession}
    (tracks : Tracks history starts s) (returned : run (timedServe history) requests s = .ok () t)
    : Tracks history (starts ++ startsFrom s.now requests) t
      ∧ t.now = nowAfter s.now requests := by
  induction requests generalizing starts s with
  | nil =>
      cases returned
      rw [startsFrom, List.append_nil]
      exact ⟨tracks, rfl⟩
  | cons request rest ih =>
      obtain ⟨_, middle, served, others⟩ := bind_eq_ok.mp returned
      obtain ⟨_, now, _⟩ := timedServe_ok tracks.cleared served
      obtain ⟨tracks', now'⟩ := ih (tracks.step distinguished served) others
      rw [now] at tracks' now'
      rw [List.append_assoc] at tracks'
      exact ⟨tracks', now'⟩

/-- A session that has been set up and has sent no colour map yet. -/
def TimedSession.start (now : Nat) (session : UpdateSession) : TimedSession where
  now := now
  ended := now
  session := session
  lastMap := none

theorem openSession_tracks {first second : Driver} {malloced : Option Mem} {mapped : Bool}
    {blank s : UpdateSession} (opened : openSession first second malloced mapped blank = .ok () s)
    (history : History) (now : Nat)
    : Tracks history [] (.start now s) := by
  obtain ⟨_, _, init, h⟩ := bind_eq_ok.mp opened
  obtain ⟨fb, inited, rfl⟩ := onFrameBuffer_ok init
  obtain ⟨_, _, _, _, _, _, _, rfl⟩ := fbInit_ok_iff.mp inited
  obtain ⟨videoInfo, _, h⟩ := ioctl_bind_ok.mp h
  cases h
  exact ⟨rfl, rfl⟩

-----------------------------------------------------------------------------------------
-- Coherence
-----------------------------------------------------------------------------------------

/-- The CLUT is the same at every step of the request that takes `s` to `s'`. -/
def Quiet (history : History) (request : TimedRequest) (s s' : TimedSession) : Prop :=
  ∀ t, s.now + request.wait ≤ t → t ≤ s'.ended
    → SameClut (history (s.now + request.wait)) (history t)

/-- The requests that end with `request` do not find a CLUT again that was hashed but changed
before its colours were read: when the latest of them have all found the CLUT that `request`
finds, the chunk reads behind the first of these hash reads find its colours.
-/
def NotBack (history : History) (now : Nat) (requests : List TimedRequest)
    (request : TimedRequest) : Prop :=
  ∀ first,
    StretchFrom
        (fun t => SameClut (history t) (history (nowAfter now requests + request.wait)))
        (startsFrom now requests) first
    → coloursRead history first = coloursOf (history first)

/-- In every run, after a request during which the CLUT does not change, the colour map last
sent holds the colours of the current CLUT exactly when the CLUT is not back at one whose
fetch it had interrupted.
-/
theorem colourMap_coherent_iff (history : History) (distinguished : Distinguished history)
    (first second : Driver) (malloced : Option Mem) (mapped : Bool) (blank session : UpdateSession)
    (opened : openSession first second malloced mapped blank = .ok () session) (now : Nat)
    (requests : List TimedRequest) (before : TimedSession)
    (earlier : run (timedServe history) requests (.start now session) = .ok () before)
    (request : TimedRequest) (after : TimedSession)
    (handled : timedServe history request before = .ok () after)
    (quiet : Quiet history request before after)
    : after.lastMap = some (coloursOf (history after.ended))
      ↔ NotBack history now requests request := by
  obtain ⟨tracks, found⟩ := (openSession_tracks opened history now).run distinguished earlier
  obtain ⟨_, _, effect⟩ := timedServe_ok tracks.cleared handled
  have stored := tracks.stored
  have start : (TimedSession.start now session).now = now := rfl
  rw [List.nil_append, start] at stored
  rw [start] at found
  rw [NotBack, ← found]
  have sameHash (t u : Nat) : SameHash history t u ↔ SameClut (history t) (history u) :=
    ⟨distinguished.injective t u, Kernel.fbCrc32buf_congr⟩
  cases effect with
  | kept hash _ sameMap ended =>
      rw [ended, sameMap]
      cases ends : (startsFrom now requests).getLast? with
      | none =>
          rw [ends] at stored
          exact absurd (hash.symm.trans stored) (distinguished.nonzero _)
      | some last =>
          rw [ends] at stored
          obtain ⟨first, stretch, map⟩ := stored.2
          have same : SameHash history last (before.now + request.wait) :=
            stored.1.symm.trans hash
          have here := stretch.congr fun t =>
            (⟨fun old => (sameHash t _).mp (old.trans same),
              fun new => ((sameHash t _).mpr new).trans same.symm⟩
              : SameHash history t last
                ↔ SameClut (history t) (history (before.now + request.wait)))
          obtain ⟨_, _, _, all, _⟩ := id here
          rw [map, ← coloursOf_congr (all first List.mem_cons_self)]
          constructor
          · intro read first' stretch'
            rw [stretch'.unique here]
            exact Option.some.inj read
          · intro notBack
            exact congrArg some (notBack first here)
  | fetched hash new map ended =>
      have current : coloursOf (history after.ended)
          = coloursOf (history (before.now + request.wait)) :=
        (coloursOf_congr (quiet _ (by omega) (by omega))).symm
      have read : coloursRead history (before.now + request.wait)
          = coloursOf (history (before.now + request.wait)) := by
        refine List.map_congr_left fun i member => ?_
        have inside := List.mem_range.mp member
        exact colourAt_congr fun k hk => (quiet _ (by omega) (by omega) _ (by omega)).symm
      rw [map, current, read]
      constructor
      · intro _ first stretch
        obtain ⟨last, ends, same⟩ := stretch.last
        rw [ends] at stored
        exact absurd (stored.1.trans ((sameHash _ _).mpr same)) new
      · intro _
        rfl

/-- With ioctls that are answered and a socket that does not fail, a request is handled. -/
theorem timedServe_total {history : History} {request : TimedRequest}
    (answers : ∀ start, (request.driver.during history start).Answers)
    : Total (fun s => s.session.Accepting) (timedServe history request) := by
  intro s accepting
  obtain ⟨_, session, served, accepting'⟩ :=
    @serve_total ⟨request.driver.during history (s.now + request.wait), request.incremental⟩
      (answers _) s.session accepting
  simp only [timedServe, serveAt, served]
  exact ⟨_, _, rfl, accepting'⟩

-----------------------------------------------------------------------------------------
-- A palette that changes and changes back
-----------------------------------------------------------------------------------------

/-- A black CLUT, and one in which the last entry is a dark red. -/
def blackClut : Mem := fun _ => 0

def redClut : Mem := fun k => if k = 2042 then 1 else 0

/-- The CLUT is red while the chunks of the first update are read, and black before and after.
-/
def thereAndBack : History := fun t => if 1 ≤ t ∧ t ≤ 33 then redClut else blackClut

/-- The checksum of zero bytes, going on from a given value. -/
def crcOfZeros (crc : UInt32) (len : Nat) : UInt32 :=
  upTo (fun _ oldcrc32 => Kernel.updc32 0 oldcrc32) crc len

theorem crcOfZeros_add (crc : UInt32) (first rest : Nat)
    : crcOfZeros crc (first + rest) = crcOfZeros (crcOfZeros crc first) rest :=
  upTo_add _ _ _ _

/-- The checksum of 2032 zero bytes, evaluated in four parts. -/
theorem crcOfZeros_start : crcOfZeros 0xFFFFFFFF (512 + 512 + 512 + 496) = 3389269301 := by
  have first : crcOfZeros 0xFFFFFFFF 512 = 1297451655 := by decide +kernel
  have second : crcOfZeros 1297451655 512 = 273305809 := by decide +kernel
  have third : crcOfZeros 273305809 512 = 2481135233 := by decide +kernel
  have fourth : crcOfZeros 2481135233 496 = 3389269301 := by decide +kernel
  rw [crcOfZeros_add, crcOfZeros_add, crcOfZeros_add, first, second, third, fourth]

/-- A CLUT that is black up to its last two entries. -/
theorem fbClutHash_of_zeros {clut : Mem} (zeros : ∀ k < 2032, clut k = 0)
    : Kernel.fbClutHash clut
      = ~~~(upTo (fun i oldcrc32 => Kernel.updc32 (clut (2032 + i)) oldcrc32) 3389269301 16) := by
  have start : upTo (fun i oldcrc32 => Kernel.updc32 (clut i) oldcrc32) 0xFFFFFFFF 2032
      = 3389269301 := by
    rw [upTo_congr fun i hi => by rw [zeros i hi]]
    exact crcOfZeros_start
  rw [Kernel.fbClutHash, Kernel.fbCrc32buf, show 2048 = 2032 + 16 from rfl, upTo_add, start]

theorem fbClutHash_blackClut : Kernel.fbClutHash blackClut = 4058561182 := by
  have zeros : ∀ k < 2032, blackClut k = 0 := fun _ _ => rfl
  rw [fbClutHash_of_zeros zeros]
  decide +kernel

theorem fbClutHash_redClut : Kernel.fbClutHash redClut = 984901947 := by
  have zeros : ∀ k < 2032, redClut k = 0 := fun k hk => if_neg (by omega)
  rw [fbClutHash_of_zeros zeros]
  decide +kernel

theorem thereAndBack_distinguished : Distinguished thereAndBack := by
  have cases_ (t : Nat) : thereAndBack t = blackClut ∨ thereAndBack t = redClut := by
    by_cases during : 1 ≤ t ∧ t ≤ 33
    · exact Or.inr (if_pos during)
    · exact Or.inl (if_neg during)
  refine ⟨fun t => ?_, fun t u same => ?_⟩
  · rcases cases_ t with black | red
    · rw [black, fbClutHash_blackClut]
      decide
    · rw [red, fbClutHash_redClut]
      decide
  · rcases cases_ t with black | red <;> rcases cases_ u with black' | red'
    · rw [black, black']
      exact fun _ _ => rfl
    · rw [black, red', fbClutHash_blackClut, fbClutHash_redClut] at same
      exact absurd same (by decide)
    · rw [red, black', fbClutHash_blackClut, fbClutHash_redClut] at same
      exact absurd same (by decide)
    · rw [red, red']
      exact fun _ _ => rfl

/-- The fetch at the start reads colours the black CLUT does not have. -/
theorem thereAndBack_torn : coloursRead thereAndBack 0 ≠ coloursOf blackClut := by
  decide +kernel

/-- An update request on the small screen, right after the one before it. -/
def smallTimedRequest : TimedRequest := ⟨0, smallDriver (fun _ => 7) 0, 1⟩

theorem smallTimedRequest_total (history : History)
    : Total (fun s => s.session.Accepting) (timedServe history smallTimedRequest) :=
  timedServe_total fun _ => ⟨⟨_, rfl⟩, ⟨_, _, rfl, rfl⟩, ⟨_, rfl⟩, fun _ _ => ⟨_, rfl⟩⟩

/-- The session that is set up on the small screen. -/
theorem smallSession_opens
    : ∃ session, openSession (smallDriver (fun _ => 7) 0) (smallDriver (fun _ => 7) 0)
          (some fun _ => 0) true blankSession = .ok () session
        ∧ session.Accepting :=
  ⟨_, rfl, fun _ _ => Option.some_ne_none _⟩

theorem colourMap_coherent_iff_black
    : ∃ session after, openSession (smallDriver (fun _ => 7) 0) (smallDriver (fun _ => 7) 0)
          (some fun _ => 0) true blankSession = .ok () session
        ∧ timedServe (fun _ => blackClut) smallTimedRequest (.start 0 session) = .ok () after
        ∧ after.lastMap = some (coloursOf blackClut) := by
  have distinguished : Distinguished (fun _ => blackClut) := by
    refine ⟨fun _ => ?_, fun _ _ _ _ _ => rfl⟩
    rw [fbClutHash_blackClut]
    decide
  obtain ⟨session, opened, accepting⟩ := smallSession_opens
  obtain ⟨_, after, handled, _⟩ :=
    smallTimedRequest_total (fun _ => blackClut) (.start 0 session) accepting
  refine ⟨session, after, opened, handled, ?_⟩
  refine (colourMap_coherent_iff (fun _ => blackClut) distinguished _ _ _ _ _ session opened 0 []
    (.start 0 session) rfl smallTimedRequest after handled (fun _ _ _ _ _ => rfl)).mpr ?_
  -- there is no request before
  rintro _ ⟨_, _, split, _⟩
  exact absurd split.symm (by simp [startsFrom])

/-- When the CLUT changes while it is fetched and has changed back by the next request, the
client keeps colours that are not those of the CLUT, although the CLUT is quiet from then on.
-/
theorem colourMap_stale_after_return
    : Distinguished thereAndBack
      ∧ ∃ session before after,
          openSession (smallDriver (fun _ => 7) 0) (smallDriver (fun _ => 7) 0)
              (some fun _ => 0) true blankSession = .ok () session
          ∧ run (timedServe thereAndBack) [smallTimedRequest] (.start 0 session) = .ok () before
          ∧ timedServe thereAndBack smallTimedRequest before = .ok () after
          ∧ Quiet thereAndBack smallTimedRequest before after
          ∧ after.lastMap ≠ some (coloursOf (thereAndBack after.ended)) := by
  refine ⟨thereAndBack_distinguished, ?_⟩
  obtain ⟨session, opened, accepting⟩ := smallSession_opens
  obtain ⟨_, before, first, accepting'⟩ :=
    smallTimedRequest_total thereAndBack (.start 0 session) accepting
  obtain ⟨_, after, second, _⟩ := smallTimedRequest_total thereAndBack before accepting'
  have tracks := openSession_tracks opened thereAndBack 0
  obtain ⟨cleared, now, effect⟩ := timedServe_ok tracks.cleared first
  obtain ⟨_, _, effect'⟩ := timedServe_ok cleared second
  refine ⟨session, before, after, opened, ?_, second, ?_⟩
  · rw [run_singleton, first]
  · cases effect with
    | kept hash _ _ _ =>
        have zero : (TimedSession.start 0 session).session.fb.clutHash = 0 := tracks.stored
        exact absurd (hash.symm.trans zero) (thereAndBack_distinguished.nonzero _)
    | fetched hash _ map _ =>
        have now' : before.now = 34 := now
        have again : before.now + smallTimedRequest.wait = 34 := now'
        have black : thereAndBack 34 = blackClut := rfl
        rw [again] at effect'
        cases effect' with
        | fetched _ new _ _ => exact absurd hash new
        | kept _ _ sameMap ended =>
            refine ⟨?_, ?_⟩
            · intro t low high
              have only : t = before.now + smallTimedRequest.wait := by omega
              rw [only]
              exact fun _ _ => rfl
            · rw [sameMap, map, ended, black]
              intro same
              exact thereAndBack_torn (Option.some.inj same)

end MiniVnc
