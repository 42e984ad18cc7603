import MiniVnc.Kernel.Phys
import MiniVnc.Sessions.Picture
import MiniVnc.Updates.SharedRuns

/-! A session whose updates ask the kernel's driver, which other processes use as well: from the
modes that the Slot Manager lists and the palettes that the Mac video driver hands out to the
picture that a viewer shows.
-/

namespace MiniVnc
open Library.Memory Library.Stream

/-- Update `n` asks the driver from moment `start n` on, with `FB_MODE` and the palette ioctls, and
finds the variables that calls since the driver was loaded have left. Among these calls is one
that has opened the screen.
-/
structure Asks (drivers : Drivers) (kernel : Moments) (slots : Kernel.SlotManager)
    (nscreens devIndex : Nat) (loaded : Kernel.Vars) (start : Nat → Nat)
    (steps : Nat → List (Kernel.Machine × Kernel.DriverCall)) : Prop where
  around : ∀ n, Kernel.Around slots nscreens (steps n) loaded
  opened : ∀ n, Kernel.Opens nscreens (steps n) devIndex
  mode
    : ∀ n, (drivers.update n).mode
        = (Kernel.answer (Kernel.ioctlMode (kernel.machine (start n)) devIndex)
            (Kernel.leave (steps n) loaded)).map Kernel.VPBlock.seen
  palette
    : ∀ n, drivers.update n
        = (drivers.update n).sharing kernel devIndex (start n) (Kernel.leave (steps n) loaded)

/-- The first `count` entries of the palette stay as they are while update `n` asks for it. -/
def Steady (palette : History) (start : Nat → Nat) (count : Nat) : Prop :=
  ∀ n, ∀ i < 32, ∀ k < 8 * count, palette (start n) k = palette (start n + 1 + i) k

/-- `fb_c` when it is hashed for update `n`: the palette, and behind it what others have left. -/
def hashedClut (kernel : Moments) (devIndex : Nat) (loaded : Kernel.Vars) (start : Nat → Nat)
    (steps : Nat → List (Kernel.Machine × Kernel.DriverCall)) (n : Nat) : Mem :=
  Kernel.refreshedClut (kernel.machine (start n)) devIndex (Kernel.leave (steps n) loaded)

/-- The update requests ask the drivers one after the other. -/
theorem requestsOf_getElem? {drivers : Drivers} {n i : Nat} {events : List Parser.Event}
    {request : Request} (found : (requestsOf drivers n events)[i]? = some request)
    : request.driver = drivers.update (n + i) := by
  induction events generalizing n i with
  | nil => cases found
  | cons event events ih =>
      by_cases asks : ∃ evt, event = .updateRequest evt
      · obtain ⟨evt, rfl⟩ := asks
        rw [requestsOf_request] at found
        cases i with
        | zero =>
            obtain rfl := Option.some.inj found
            rfl
        | succ i =>
            rw [ih found]
            exact congrArg drivers.update (by omega)
      · rw [requestsOf_other _ _ fun evt same => asks ⟨evt, same⟩] at found
        exact ih found

section Asks

variable {drivers : Drivers} {kernel : Moments} {slots : Kernel.SlotManager}
variable {nscreens devIndex count : Nat} {loaded : Kernel.Vars} {start : Nat → Nat}
variable {steps : Nat → List (Kernel.Machine × Kernel.DriverCall)} {palette : History}

/-- The update is told the Slot Manager's block for the current mode. -/
theorem Asks.told (asks : Asks drivers kernel slots nscreens devIndex loaded start steps)
    (n : Nat) {k : Nat} {vpb : Kernel.VPBlock}
    (listed : Kernel.ListedAs slots (loaded.videoDesc devIndex) k vpb)
    (current : Kernel.fbCurrentMode (kernel.machine (start n)) = 0x80 + (k : Nat))
    : (drivers.update n).mode = some vpb.seen := by
  have filled := Kernel.filled_leave (asks.around n)
  have answer := filled.answers (asks.opened n) listed current
  rw [asks.mode n, answer]
  rfl

/-- The palette comes first in what is hashed. -/
theorem Asks.hashedClut (asks : Asks drivers kernel slots nscreens devIndex loaded start steps)
    (shows_ : kernel.Shows slots nscreens devIndex (loaded.videoDesc devIndex) count palette) (n : Nat)
    {k : Nat} (below : k < 8 * count)
    : hashedClut kernel devIndex loaded start steps n k = palette (start n) k :=
  shows_.refreshed (cached_of_opened (asks.around n) (asks.opened n)) (start n) below

/-- It gets the palette of its moment, as far as the Mac video driver hands it out. -/
theorem Asks.holdsTo (asks : Asks drivers kernel slots nscreens devIndex loaded start steps)
    (shows_ : kernel.Shows slots nscreens devIndex (loaded.videoDesc devIndex) count palette)
    (steady : Steady palette start count) (n : Nat)
    : (drivers.update n).HoldsTo count
        (MiniVnc.hashedClut kernel devIndex loaded start steps n) := by
  have cached := cached_of_opened (asks.around n)
    (asks.opened n)
  rw [asks.palette n]
  refine ⟨?_, ?_⟩
  · intro hash answered
    have hashed := Kernel.ioctlClutHash_answer (kernel.machine (start n)) devIndex
      (Kernel.leave (steps n) loaded)
    exact (Option.some.inj (hashed.symm.trans answered)).symm
  · intro i asked chunk answered k below inside
    have found := shows_.reach (shows_.chunked cached (start n) i) (start n + 1 + i)
    have bytes := Kernel.chunkBytes_eq (kernel.machine (start n + 1 + i)) devIndex
      (kernel.reach (start n + 1 + i)
        (kernel.chunked devIndex (start n) (Kernel.leave (steps n) loaded) i)) asked
    have answered' : Kernel.answer
        (Kernel.ioctlClutChunk (kernel.machine (start n + 1 + i)) devIndex (Int16.ofNat i))
        (kernel.reach (start n + 1 + i)
          (kernel.chunked devIndex (start n) (Kernel.leave (steps n) loaded) i))
        = some chunk := answered
    rw [Kernel.chunkBytes, answered', Option.map_some, Option.some_inj] at bytes
    have byte := congrArg (fun bytes => bytes[k]?) bytes
    rw [slice_getElem? below, slice_getElem? below, Nat.zero_add, Option.some_inj] at byte
    rw [byte, shows_.refreshed found _ inside, Kernel.fbClutChunk, asks.hashedClut shows_ n inside]
    exact (steady n i asked (i * 64 + k) inside).symm

end Asks

/-- The picture needs no more of the palette than there are values of pixels. -/
theorem picture_congr {driver : Driver} {vp : VPBlock} {count : Nat}
    (below : driver.PixelsBelow vp count) {clut clut' : Mem}
    (same : ∀ k < 8 * count, clut k = clut' k) (x y : Nat)
    : driver.picture vp clut x y = driver.picture vp clut' x y := by
  have value := below x y
  exact colourAt_congr fun k small => same _ (by omega)

/-- The values of pixels have as many bits as the mode says. -/
theorem pixelsBelow_depth (driver : Driver) {vp : VPBlock} {count : Nat}
    (deep : 2 ^ vp.vpPixelSize ≤ count)
    : driver.PixelsBelow vp count := by
  intro x y
  refine Nat.lt_of_lt_of_le ?_ deep
  rw [pixel, bitField, UInt8.toNat_ofNat']
  exact Nat.lt_of_le_of_lt (Nat.mod_le _ _) (Nat.mod_lt _ (Nat.two_pow_pos _))

/-- From the Mac's screen, through the driver that other processes use as well and at any moments,
to the client: on a screen that keeps its size and its depth, a viewer that reads everything that
a session sends shows at each place the colour that the Mac shows there, in the Slot Manager's
mode and with the Mac video driver's palette of the moment at which the last request was
answered. What others leave in `fb_c` behind the palette is hashed and sent with it, and makes no
difference to the picture.
-/
theorem session_shows_shared_screen (outside : Outside) (garbage : Garbage) (sock fd : Nat)
    (opens : outside.opens = true) (s : Sess)
    (ready : setUp outside garbage (.opened outside sock fd) = .ok () s)
    (full : ∀ n length, outside.sends n length = some length) (vi : Video) (proper : vi.Proper)
    (first : outside.init.Reports vi) (announced : outside.announced.Reports vi)
    (reports : ∀ n, (outside.drivers.update n).Reports vi) {kernel : Moments}
    {slots : Kernel.SlotManager} {nscreens devIndex : Nat} {loaded : Kernel.Vars}
    {start : Nat → Nat} {steps : Nat → List (Kernel.Machine × Kernel.DriverCall)}
    (asks : Asks outside.drivers kernel slots nscreens devIndex loaded start steps)
    {count : Nat} (few : count ≤ 256) {palette : History}
    (shows_ : kernel.Shows slots nscreens devIndex (loaded.videoDesc devIndex) count palette)
    (deep
      : ∀ n k vpb, Kernel.ListedAs slots (loaded.videoDesc devIndex) k vpb →
          Kernel.fbCurrentMode (kernel.machine (start n)) = 0x80 + (k : Nat) →
            2 ^ vpb.seen.vpPixelSize ≤ count)
    (steady : Steady palette start count)
    (apart : ToldApart (Set.range (hashedClut kernel devIndex loaded start steps)))
    (whole
      : ∀ request, (requestsIn outside garbage sock fd).head? = some request →
          request.incremental = 0)
    : ∃ answered,
        HasAnswered outside garbage sock fd s answered
        ∧ ∀ viewer₀, ∃ viewer,
            view ((handleSession outside garbage sock fd).sess.socket.sent.drop 50) viewer₀
              = some viewer
            ∧ ∀ n, answered.length = n + 1 →
                ∃ k vpb, Kernel.ListedAs slots (loaded.videoDesc devIndex) k vpb
                  ∧ Kernel.fbCurrentMode (kernel.machine (start n)) = 0x80 + (k : Nat)
                  ∧ ∀ x < vi.videoScrX, ∀ y < vi.videoScrY,
                      viewer.shown x y
                        = (outside.drivers.update n).picture vpb.seen (palette (start n)) x y
    := by
  have presents : ∀ request ∈ requestsIn outside garbage sock fd,
      Presents vi count (Set.range (hashedClut kernel devIndex loaded start steps)) request := by
    refine requestsOf_forall fun n _ => ?_
    have holds := asks.holdsTo shows_ steady n
    exact ⟨reports n, _, ⟨n, rfl⟩, holds.hash, holds.chunk⟩
  obtain ⟨answered, has, viewed⟩ :=
    session_presented opens ready full proper first announced apart few presents whole
  refine ⟨answered, has, fun viewer₀ => ?_⟩
  obtain ⟨viewer, read, shown⟩ := viewed viewer₀
  refine ⟨viewer, read, fun n length => ?_⟩
  obtain ⟨k, vpb, listed, current, _⟩ := shows_.current (start n)
  refine ⟨k, vpb, listed, current, ?_⟩
  have inside : n < answered.length := by omega
  have last : answered.getLast? = some answered[n] := by
    rw [List.getLast?_eq_getElem?, length, Nat.add_sub_cancel, List.getElem?_eq_getElem inside]
  have driver : answered[n].driver
      = (outside.drivers.withGarbage garbage).update n := by
    have found : (requestsIn outside garbage sock fd)[n]? = some answered[n] :=
      List.prefix_iff_getElem?.mp has.front n inside
    have asked := requestsOf_getElem? found
    rw [Nat.zero_add] at asked
    exact asked
  have holds : answered[n].driver.HoldsTo count
      (hashedClut kernel devIndex loaded start steps n) := by
    rw [driver]
    have holds := asks.holdsTo shows_ steady n
    exact ⟨holds.hash, holds.chunk⟩
  have mode : answered[n].driver.mode = some vpb.seen := by
    rw [driver]
    exact asks.told n listed current
  have below := fun driver : Driver => pixelsBelow_depth driver (deep n k vpb listed current)
  intro x column y row
  rw [shown answered[n] last vpb.seen mode (below _) _ ⟨n, rfl⟩ holds x column y row, driver,
    picture_congr (below _) (fun k small => asks.hashedClut shows_ n small) x y]
  rfl

/-- The small screen is screen 0, every update starts 40 moments after the one before it, and
another process keeps asking for the palette of screen 1.
-/
def sharedDriver (n : Nat) : Driver :=
  { (smallDriver (fun _ => 7) 0).sharing twoScreens 0 (40 * n)
      (Kernel.leave [(Kernel.twoModes 0x80, .opens 0)]
        (Kernel.oneScreenVars (Kernel.wideMode 2 160))) with
    mode := some (Kernel.wideMode 8 640).seen }

/-- The session of a client that says hello, on that driver. -/
def sharedOutside : Outside :=
  helloOn ⟨sharedDriver, fun _ => true⟩

theorem sharedOutside_update (n : Nat) : sharedOutside.drivers.update n = sharedDriver n := by
  rw [sharedOutside, helloOn]

theorem sharedDriver_asks
    : Asks sharedOutside.drivers twoScreens (Kernel.twoModes 0x81).slots 6 0
        (Kernel.oneScreenVars (Kernel.wideMode 2 160)) (40 * ·)
        fun _ => [(Kernel.twoModes 0x80, .opens 0)] := by
  have around : Kernel.Around (Kernel.twoModes 0x81).slots 6
      [(Kernel.twoModes 0x80, .opens 0)] (Kernel.oneScreenVars (Kernel.wideMode 2 160)) :=
    ⟨⟨rfl, rfl, trivial⟩, trivial⟩
  have opened : Kernel.Opens 6 [(Kernel.twoModes 0x80, .opens 0)] 0 :=
    ⟨by decide, _, List.mem_cons_self, rfl⟩
  have current : Kernel.fbCurrentMode (Kernel.twoModes 0x81) = 0x80 + (1 : Nat) := by decide
  refine ⟨fun _ => around, fun _ => opened, fun n => ?_, fun n => ?_⟩
  · have filled := Kernel.filled_leave around
    have answer := filled.answers opened (Kernel.twoModes_listed 0x81) current
    exact (congrArg (Option.map Kernel.VPBlock.seen) answer).symm
  · rw [sharedOutside_update, sharedDriver, Driver.sharing, Driver.sharing]

theorem Driver.Answers.inMode {driver : Driver} (answers : driver.Answers) {vp : VPBlock}
    {copy : CopyRow} (supported : copyRow? vp.vpPixelSize = some copy)
    : ({ driver with mode := some vp } : Driver).Answers :=
  ⟨answers.metadata, ⟨vp, copy, rfl, supported⟩, answers.clutHash, answers.clutChunk⟩

/-- All its ioctls are answered. -/
theorem sharedDriver_answers (n : Nat) : (sharedDriver n).Answers := by
  have answers := (smallDriver_answers (fun _ => 7) 0).sharing twoScreens 0 (40 * n)
    (Kernel.leave [(Kernel.twoModes 0x80, .opens 0)]
      (Kernel.oneScreenVars (Kernel.wideMode 2 160)))
  rw [sharedDriver]
  exact answers.inMode (show copyRow? 8 = some fbCopy8Row from rfl)

/-- What is hashed for an update is a black palette, in the place of the palette. -/
theorem sharedDriver_hashed (n : Nat)
    : SameClut
        (hashedClut twoScreens 0 (Kernel.oneScreenVars (Kernel.wideMode 2 160)) (40 * ·)
          (fun _ => [(Kernel.twoModes 0x80, .opens 0)]) n)
        blackClut :=
  fun _ below => sharedDriver_asks.hashedClut twoScreens_shows n below

/-- The hash covers nothing else. -/
theorem sharedDriver_toldApart
    : ToldApart
        (Set.range
          (hashedClut twoScreens 0 (Kernel.oneScreenVars (Kernel.wideMode 2 160)) (40 * ·)
            fun _ => [(Kernel.twoModes 0x80, .opens 0)])) where
  nonzero := by
    rintro clut ⟨n, rfl⟩
    rw [Kernel.fbClutHash, Kernel.fbCrc32buf_congr (sharedDriver_hashed n), ← Kernel.fbClutHash,
      fbClutHash_blackClut]
    decide
  injective := by
    rintro clut ⟨n, rfl⟩ clut' ⟨m, rfl⟩ _ k below
    rw [sharedDriver_hashed n k below, sharedDriver_hashed m k below]

/-- A client that asks for the whole screen is shown it in black. -/
theorem session_shows_shared_screen_black
    : ∃ viewer,
        view ((handleSession sharedOutside (zeroGarbage 0) 4 3).sess.socket.sent.drop 50) newViewer
          = some viewer
        ∧ ∀ x < 8, ∀ y < 1,
            viewer.shown x y
              = (sharedDriver 0).picture (Kernel.wideMode 8 640).seen blackClut x y := by
  obtain ⟨s, ready⟩ := helloOn_setUp ⟨sharedDriver, fun _ => true⟩
  have steady : Steady (fun _ => blackClut) (40 * ·) 256 := fun _ _ _ _ _ => rfl
  have eight (n k : Nat) (vpb : Kernel.VPBlock)
      (listed : Kernel.ListedAs (Kernel.twoModes 0x81).slots ⟨9, 480, 0xF9000000⟩ k vpb)
      (current : Kernel.fbCurrentMode (twoScreens.machine (40 * n)) = 0x80 + (k : Nat))
      : vpb = Kernel.wideMode 8 640 := by
    have mode : Kernel.fbCurrentMode (Kernel.twoModes 0x81) = 0x80 + (1 : Nat) := by decide
    have same : (0x80 : Int) + (k : Nat) = 0x80 + (1 : Nat) := current.symm.trans mode
    obtain rfl : k = 1 := by omega
    exact Except.ok.inj (listed.2.2.symm.trans (Kernel.twoModes_listed 0x81).2.2)
  have reports (n : Nat) : (sharedOutside.drivers.update n).Reports smallScreen :=
    fun _ reported => (Option.some.inj reported).symm
  obtain ⟨answered, has, viewed⟩ :=
    session_shows_shared_screen sharedOutside (zeroGarbage 0) 4 3 rfl s ready (fun _ _ => rfl)
      smallScreen smallScreen_proper (smallDriver_reports _ _) (smallDriver_reports _ _) reports
      sharedDriver_asks (Nat.le_refl 256) twoScreens_shows
      (fun n k vpb listed current => eight n k vpb listed current ▸ by decide) steady
      sharedDriver_toldApart (helloOn_whole _)
  have requests := (helloOn_requests ⟨sharedDriver, fun _ => true⟩).2 (sharedDriver_answers 0)
  have all := (has.all (helloOn_answers (sharedDriver_answers 0))).trans requests
  obtain ⟨viewer, read, shown⟩ := viewed newViewer
  refine ⟨viewer, read, ?_⟩
  obtain ⟨k, vpb, listed, current, shown⟩ := shown 0 (congrArg List.length all)
  rw [sharedOutside_update, eight 0 k vpb listed current] at shown
  exact shown

end MiniVnc
