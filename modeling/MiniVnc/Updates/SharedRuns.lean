import MiniVnc.Kernel.SharedPalette
import MiniVnc.Updates.PaletteRuns

/-! Sessions that share the kernel's driver with other processes: between any two ioctls of the
server there may be any calls of theirs, for any screen.
-/

namespace MiniVnc
open Library.Memory Library.Stream

/-- At every moment: what surrounds the driver, and the calls that other processes have made since
the moment before.
-/
structure Moments where
  machine : Nat → Kernel.Machine
  others : Nat → List (Kernel.Machine × Kernel.DriverCall)

/-- What the others leave when moment `t` has come. -/
def Moments.reach (kernel : Moments) (t : Nat) (vars : Kernel.Vars) : Kernel.Vars :=
  Kernel.leave (kernel.others t) vars

/-- What they leave over `count` moments from `t` on. -/
def Moments.idle (kernel : Moments) : Nat → Nat → Kernel.Vars → Kernel.Vars
  | _, 0, vars => vars
  | t, count + 1, vars => kernel.idle (t + 1) count (kernel.reach t vars)

/-- What the server's `FB_CLUT_HASH` at `start` leaves of the variables it finds. -/
def Moments.hashed (kernel : Moments) (devIndex start : Nat) (vars : Kernel.Vars) : Kernel.Vars :=
  Kernel.afterwards (Kernel.ioctlClutHash (kernel.machine start) devIndex) vars

/-- What is left when the first `count` chunks have been read after it. -/
def Moments.chunked (kernel : Moments) (devIndex start : Nat) (vars : Kernel.Vars)
    : Nat → Kernel.Vars
  | 0 => kernel.hashed devIndex start vars
  | i + 1 =>
      Kernel.afterwards
        (Kernel.ioctlClutChunk (kernel.machine (start + 1 + i)) devIndex (Int16.ofNat i))
        (kernel.reach (start + 1 + i) (kernel.chunked devIndex start vars i))

/-- The answers that the server gets to its palette ioctls, of which the first finds `vars`. -/
def Driver.sharing (driver : Driver) (kernel : Moments) (devIndex start : Nat)
    (vars : Kernel.Vars) : Driver :=
  { driver with
    clutHash := Kernel.answer (Kernel.ioctlClutHash (kernel.machine start) devIndex) vars
    clutChunk := fun i =>
      Kernel.answer
        (Kernel.ioctlClutChunk (kernel.machine (start + 1 + i)) devIndex (Int16.ofNat i))
        (kernel.reach (start + 1 + i) (kernel.chunked devIndex start vars i)) }

/-- None of them fails. -/
theorem Driver.Answers.sharing {driver : Driver} (answers : driver.Answers) (kernel : Moments)
    (devIndex start : Nat) (vars : Kernel.Vars)
    : (driver.sharing kernel devIndex start vars).Answers := by
  refine ⟨answers.metadata, answers.mode, ⟨_, Kernel.ioctlClutHash_answer _ _ _⟩, ?_⟩
  intro i asked
  have bytes := Kernel.chunkBytes_eq (kernel.machine (start + 1 + i)) devIndex
    (kernel.reach (start + 1 + i) (kernel.chunked devIndex start vars i)) asked
  obtain ⟨chunk, answered, _⟩ := Option.map_eq_some_iff.mp bytes
  exact ⟨chunk, answered⟩

/-- A session, and the driver's variables after the moments that have passed. -/
structure SharedSession where
  timed : TimedSession
  vars : Kernel.Vars

/-- What is left of the variables when a request has had its 34 moments. Those that a request which
fetches no palette does not need pass.
-/
def Moments.served (kernel : Moments) (devIndex start : Nat) (fetched : Bool) (vars : Kernel.Vars)
    : Kernel.Vars :=
  if fetched then
    kernel.reach (start + 33) (kernel.chunked devIndex start vars 32)
  else
    kernel.idle (start + 1) 33 (kernel.hashed devIndex start vars)

/-- Handle one request as `timedServe` does, with the palette that the driver hands over. -/
def sharedServe (kernel : Moments) (devIndex : Nat) (request : TimedRequest)
    : EStateM SessionError SharedSession Unit := fun s =>
  let start := s.timed.now + request.wait
  let vars := kernel.idle s.timed.now (request.wait + 1) s.vars
  let driver := request.driver.sharing kernel devIndex start vars
  let fetched := (endState (fbUpdate driver s.timed.session.fb)).clutChanged
  match serveAt driver start request.incremental s.timed with
  | .error e timed => .error e { s with timed }
  | .ok _ timed => .ok () { timed, vars := kernel.served devIndex start fetched vars }

-----------------------------------------------------------------------------------------
-- Chunks that agree
-----------------------------------------------------------------------------------------

/-- Of a chunk its 64 bytes are used only. -/
theorem copyClutChunks_congr {driver : Driver} {chunks : Nat → Option Mem} {count : Nat}
    (same
      : ∀ i < count,
          (driver.clutChunk i).map (fun data => slice data 0 64)
            = (chunks i).map fun data => slice data 0 64)
    : copyClutChunks driver count = copyClutChunks { driver with clutChunk := chunks } count := by
  induction count with
  | zero => rfl
  | succ i ih =>
      rw [copyClutChunks, copyClutChunks, ih fun j below => same j (by omega)]
      have bytes := same i (by omega)
      refine congrArg _ (funext fun _ => ?_)
      cases left : driver.clutChunk i with
      | none =>
          rw [left, Option.map_none] at bytes
          have right := Option.map_eq_none_iff.mp bytes.symm
          simp only [right]
      | some data =>
          rw [left, Option.map_some] at bytes
          obtain ⟨data', right, equal⟩ := Option.map_eq_some_iff.mp bytes.symm
          funext fb
          simp only [right, ioctl_some_bind, equal]

/-- The rows are copied from the screen alone. -/
theorem copyScreen_congr (driver : Driver) (chunks : Nat → Option Mem)
    : copyScreen driver = copyScreen { driver with clutChunk := chunks } := by
  have rows (fb : FrameBuffer) (count : Nat)
      : scanRows { driver with clutChunk := chunks } fb count = scanRows driver fb count := by
    induction count with
    | zero => rfl
    | succ i ih => rw [scanRows, scanRows, ih]
  simp only [copyScreen, rows]

theorem fbUpdate_congr {driver : Driver} {chunks : Nat → Option Mem}
    (same
      : ∀ i < 32,
          (driver.clutChunk i).map (fun data => slice data 0 64)
            = (chunks i).map fun data => slice data 0 64)
    : fbUpdate driver = fbUpdate { driver with clutChunk := chunks } := by
  have fetch : fetchClut driver = fetchClut { driver with clutChunk := chunks } := by
    rw [fetchClut, fetchClut, copyClutChunks_congr same]
  have clut : fbUpdateClut driver = fbUpdateClut { driver with clutChunk := chunks } := by
    rw [fbUpdateClut, fbUpdateClut, fetch]
  rw [fbUpdate, fbUpdate, clut, copyScreen_congr driver chunks]
  rfl

-----------------------------------------------------------------------------------------
-- What the driver answers
-----------------------------------------------------------------------------------------

/-- The screen `v` has the modes that are listed for it. -/
structure Cached (slots : Kernel.SlotManager) (devIndex : Nat) (v : Kernel.Video)
    (vars : Kernel.Vars) : Prop where
  screen : vars.videoDesc devIndex = v
  modes : ∀ k vpb, Kernel.ListedAs slots v k vpb → vars.fbVp devIndex k = vpb

section Cached

variable {slots : Kernel.SlotManager} {devIndex : Nat} {v : Kernel.Video} {vars : Kernel.Vars}

theorem Cached.same (cached : Cached slots devIndex v vars) {vars' : Kernel.Vars}
    (same : Kernel.SameTable vars vars')
    : Cached slots devIndex v vars' := by
  refine ⟨?_, ?_⟩
  · rw [same.videoDesc]
    exact cached.screen
  · rw [same.fbVp]
    exact cached.modes

/-- It keeps them whatever calls are made, opened again or not. -/
theorem Cached.leave (cached : Cached slots devIndex v vars) {nscreens : Nat}
    {steps : List (Kernel.Machine × Kernel.DriverCall)}
    (around : Kernel.Around slots nscreens steps vars)
    : Cached slots devIndex v (Kernel.leave steps vars) := by
  have filled := Kernel.filled_leave around
  refine ⟨?_, ?_⟩
  · rw [filled.videoDesc]
    exact cached.screen
  · intro k vpb listed
    by_cases opened : Kernel.Opens nscreens steps devIndex
    · exact filled.listed devIndex k vpb opened (cached.screen ▸ listed)
    · rw [filled.others devIndex k fun now => absurd now opened]
      exact cached.modes k vpb listed

theorem cached_of_opened {nscreens : Nat} {steps : List (Kernel.Machine × Kernel.DriverCall)}
    (around : Kernel.Around slots nscreens steps vars)
    (opened : Kernel.Opens nscreens steps devIndex)
    : Cached slots devIndex (vars.videoDesc devIndex) (Kernel.leave steps vars) := by
  have filled := Kernel.filled_leave around
  refine ⟨by rw [filled.videoDesc], ?_⟩
  intro k vpb listed
  exact filled.listed devIndex k vpb opened listed

end Cached

/-- At every moment the screen `v` is in a mode that is listed for it, and the Mac video driver
hands out a palette of at least `count` entries for that mode, and no more than `fb_c` has space
for; nor do the others read a palette that is larger.
-/
structure Moments.Shows (kernel : Moments) (slots : Kernel.SlotManager) (nscreens devIndex : Nat)
    (v : Kernel.Video) (count : Nat) (palette : History) : Prop where
  around
    : ∀ t vars, Cached slots devIndex v vars →
        Kernel.Around slots nscreens (kernel.others t) vars
  current
    : ∀ t, ∃ k vpb, Kernel.ListedAs slots v k vpb
        ∧ Kernel.fbCurrentMode (kernel.machine t) = 0x80 + (k : Nat)
        ∧ count ≤ Kernel.entriesFor vpb.vpPixelSize
        ∧ Kernel.entriesFor vpb.vpPixelSize ≤ 256
        ∧ (kernel.machine t).getEntries (Kernel.entriesFor vpb.vpPixelSize) = .ok (palette t)

section Shows

variable {kernel : Moments} {slots : Kernel.SlotManager} {nscreens devIndex count : Nat}
variable {v : Kernel.Video} {palette : History} {vars : Kernel.Vars}

theorem Moments.Shows.supplies (shows_ : kernel.Shows slots nscreens devIndex v count palette)
    (cached : Cached slots devIndex v vars) (t : Nat)
    : Kernel.Supplies (kernel.machine t) devIndex vars count (palette t) := by
  obtain ⟨k, vpb, listed, current, enough, _, handed⟩ := shows_.current t
  have index : Kernel.fbCurrentMode (kernel.machine t) - 0x80 = k := by omega
  have asked : Kernel.entriesAsked (kernel.machine t) devIndex vars
      = Kernel.entriesFor vpb.vpPixelSize := by
    rw [Kernel.entriesAsked, index, cached.modes k vpb listed]
  exact ⟨asked ▸ handed, asked ▸ enough⟩

/-- Whatever `fb_c` held, it holds the palette of the moment then. -/
theorem Moments.Shows.refreshed (shows_ : kernel.Shows slots nscreens devIndex v count palette)
    (cached : Cached slots devIndex v vars) (t : Nat) {k : Nat} (below : k < 8 * count)
    : Kernel.refreshedClut (kernel.machine t) devIndex vars k = palette t k := by
  obtain ⟨handed, enough⟩ := shows_.supplies cached t
  rw [Kernel.refreshedClut_supplied _ devIndex vars handed]
  exact if_pos (by omega)

theorem Moments.Shows.hash (shows_ : kernel.Shows slots nscreens devIndex v 256 palette)
    (cached : Cached slots devIndex v vars) (t : Nat)
    : Kernel.answer (Kernel.ioctlClutHash (kernel.machine t) devIndex) vars
      = some (Kernel.fbClutHash (palette t)) := by
  rw [Kernel.ioctlClutHash_answer]
  exact congrArg some (Kernel.fbCrc32buf_congr fun k below => shows_.refreshed cached t below)

theorem Moments.Shows.chunk (shows_ : kernel.Shows slots nscreens devIndex v 256 palette)
    (cached : Cached slots devIndex v vars) (t : Nat) {i : Nat} (asked : i < 32)
    : Kernel.chunkBytes (kernel.machine t) devIndex (Int16.ofNat i) vars
      = some (slice (Kernel.fbClutChunk (palette t) i) 0 64) := by
  rw [Kernel.chunkBytes_eq _ devIndex vars asked]
  refine congrArg some (slice_congr fun k below => ?_)
  rw [shows_.refreshed cached t (by omega), Kernel.fbClutChunk, Nat.zero_add]

theorem Moments.Shows.reach (shows_ : kernel.Shows slots nscreens devIndex v count palette)
    (cached : Cached slots devIndex v vars) (t : Nat)
    : Cached slots devIndex v (kernel.reach t vars) :=
  cached.leave (shows_.around t vars cached)

theorem Moments.Shows.idle (shows_ : kernel.Shows slots nscreens devIndex v count palette)
    (cached : Cached slots devIndex v vars) (t left : Nat)
    : Cached slots devIndex v (kernel.idle t left vars) := by
  induction left generalizing t vars with
  | zero => exact cached
  | succ left ih => exact ih (shows_.reach cached t) (t + 1)

theorem Cached.hashed (cached : Cached slots devIndex v vars) (kernel : Moments) (start : Nat)
    : Cached slots devIndex v (kernel.hashed devIndex start vars) :=
  cached.same (@Kernel.leaves_sameTable (kernel.machine start) (.clutHash devIndex) (by simp) vars)

/-- By induction on the chunks, each read after calls of others. -/
theorem Moments.Shows.chunked (shows_ : kernel.Shows slots nscreens devIndex v count palette)
    (cached : Cached slots devIndex v vars) (start chunks : Nat)
    : Cached slots devIndex v (kernel.chunked devIndex start vars chunks) := by
  induction chunks with
  | zero => exact cached.hashed kernel start
  | succ i ih =>
      have found := shows_.reach ih (start + 1 + i)
      exact found.same (@Kernel.leaves_sameTable (kernel.machine (start + 1 + i))
        (.clutChunk devIndex (Int16.ofNat i)) (by simp) _)

theorem Moments.Shows.served (shows_ : kernel.Shows slots nscreens devIndex v count palette)
    (cached : Cached slots devIndex v vars) (start : Nat) (fetched : Bool)
    : Cached slots devIndex v (kernel.served devIndex start fetched vars) := by
  cases fetched with
  | true => exact shows_.reach (shows_.chunked cached start 32) _
  | false => exact shows_.idle (cached.hashed kernel start) _ _

/-- An update gets from the driver what it would get from the Mac video driver. -/
theorem Moments.Shows.fbUpdate (shows_ : kernel.Shows slots nscreens devIndex v 256 palette)
    (cached : Cached slots devIndex v vars) (driver : Driver) (start : Nat)
    : fbUpdate (driver.sharing kernel devIndex start vars)
      = MiniVnc.fbUpdate (driver.during palette start) := by
  have chunks (i : Nat) (asked : i < 32)
      : ((driver.sharing kernel devIndex start vars).clutChunk i).map (fun data => slice data 0 64)
        = ((driver.during palette start).clutChunk i).map fun data => slice data 0 64 :=
    shows_.chunk (shows_.reach (shows_.chunked cached start i) (start + 1 + i)) (start + 1 + i)
      asked
  rw [fbUpdate_congr chunks, Driver.sharing, shows_.hash cached start]
  rfl

end Shows

-----------------------------------------------------------------------------------------
-- Runs
-----------------------------------------------------------------------------------------

/-- The same session, with the modes of its screen in the driver. -/
def Beside (slots : Kernel.SlotManager) (devIndex : Nat) (v : Kernel.Video) (s : SharedSession)
    (t : TimedSession) : Prop :=
  s.timed = t ∧ Cached slots devIndex v s.vars

/-- One request, by cases on what the server does with it. -/
theorem sharedServe_refines {kernel : Moments} {slots : Kernel.SlotManager}
    {nscreens devIndex : Nat} {v : Kernel.Video} {palette : History}
    (shows_ : kernel.Shows slots nscreens devIndex v 256 palette) (request : TimedRequest)
    (s : SharedSession) (t : TimedSession) (beside : Beside slots devIndex v s t)
    : Refines id (fun _ => Beside slots devIndex v) (Beside slots devIndex v)
        (sharedServe kernel devIndex request s) (timedServe palette request t) := by
  obtain ⟨rfl, cached⟩ := beside
  have found := shows_.idle cached s.timed.now (request.wait + 1)
  have update := shows_.fbUpdate found request.driver (s.timed.now + request.wait)
  have served
      : serveAt
          (request.driver.sharing kernel devIndex (s.timed.now + request.wait)
            (kernel.idle s.timed.now (request.wait + 1) s.vars))
          (s.timed.now + request.wait) request.incremental s.timed
        = timedServe palette request s.timed := by
    simp only [timedServe, serveAt, serve, vncEvtUpdateRequest, update]
  simp only [sharedServe, served]
  cases timedServe palette request s.timed with
  | error e timed => exact @Refines.error _ _ _ _ _ id _ _ e _ _ ⟨rfl, cached⟩
  | ok done timed => exact .ok ⟨rfl, shows_.served found _ _⟩

/-- In every run, whatever calls other processes make between any two ioctls of the server, and
for whichever screens: a server whose screen has been opened, and whose modes have 256 colours,
does and sends what it would if it read the palettes from the Mac video driver itself,
with `fb_c` to itself.
-/
theorem shared_palette_refines {kernel : Moments} {slots : Kernel.SlotManager} {nscreens : Nat}
    {devIndex : Nat} {vars : Kernel.Vars} {palette : History}
    {steps : List (Kernel.Machine × Kernel.DriverCall)}
    (around : Kernel.Around slots nscreens steps vars)
    (opened : Kernel.Opens nscreens steps devIndex)
    (shows_ : kernel.Shows slots nscreens devIndex (vars.videoDesc devIndex) 256 palette)
    (requests : List TimedRequest) (timed : TimedSession)
    : Refines id (fun _ => Beside slots devIndex (vars.videoDesc devIndex))
        (Beside slots devIndex (vars.videoDesc devIndex))
        (run (sharedServe kernel devIndex) requests ⟨timed, Kernel.leave steps vars⟩)
        (run (timedServe palette) requests timed) :=
  run_refines (fun request s t => sharedServe_refines shows_ request s t) requests
    ⟨rfl, cached_of_opened around opened⟩

/-- Screen 0 shows 8 bits per pixel, and another process keeps asking for the palette of screen 1,
which it opens again every time.
-/
def twoScreens : Moments where
  machine := fun _ => Kernel.twoModes 0x81
  others := fun _ => [(Kernel.twoModes 0x80, .opens 1), (Kernel.twoModes 0x80, .clutHash 1)]

theorem twoScreens_shows
    : twoScreens.Shows (Kernel.twoModes 0x81).slots 6 0 ⟨9, 480, 0xF9000000⟩ 256
        fun _ => blackClut := by
  refine ⟨?_, ?_⟩
  · intro t vars _
    refine Kernel.around_of_refusal (fun step member => ?_) vars
    have machine : step.1 = Kernel.twoModes 0x80 := by
      simp only [twoScreens, List.mem_cons, List.not_mem_nil, or_false] at member
      rcases member with rfl | rfl <;> rfl
    rw [machine]
    exact ⟨rfl, rfl, Kernel.twoModes_refuses 0x80⟩
  · intro t
    have current : Kernel.fbCurrentMode (Kernel.twoModes 0x81) = 0x80 + (1 : Nat) := by decide
    exact ⟨1, Kernel.wideMode 8 640, Kernel.twoModes_listed 0x81, current, by decide, by decide,
      rfl⟩

theorem shared_palette_refines_black
    : Refines id
        (fun _ => Beside (Kernel.twoModes 0x81).slots 0 ⟨9, 480, 0xF9000000⟩)
        (Beside (Kernel.twoModes 0x81).slots 0 ⟨9, 480, 0xF9000000⟩)
        (run (sharedServe twoScreens 0) [smallTimedRequest, smallTimedRequest]
          ⟨.start 0 blankSession,
            Kernel.leave [(Kernel.twoModes 0x80, .opens 0)]
              (Kernel.oneScreenVars (Kernel.wideMode 2 160))⟩)
        (run (timedServe fun _ => blackClut) [smallTimedRequest, smallTimedRequest]
          (.start 0 blankSession)) := by
  have around : Kernel.Around (Kernel.twoModes 0x81).slots 6
      [(Kernel.twoModes 0x80, .opens 0)] (Kernel.oneScreenVars (Kernel.wideMode 2 160)) :=
    ⟨⟨rfl, rfl, trivial⟩, trivial⟩
  exact @shared_palette_refines twoScreens (Kernel.twoModes 0x81).slots 6 0
    (Kernel.oneScreenVars (Kernel.wideMode 2 160)) (fun _ => blackClut) _ around
    ⟨by decide, _, List.mem_cons_self, rfl⟩ twoScreens_shows _ _

end MiniVnc
