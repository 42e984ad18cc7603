import MiniVnc.Sessions.SharedDriver

/-! The mapping of the screen that a session sets up once, and what its updates read of it in the
modes that come later.
-/

namespace MiniVnc
open Library.Memory Library.Accesses

section Asks

variable {drivers : Drivers} {kernel : Moments} {slots : Kernel.SlotManager}
variable {nscreens devIndex : Nat} {loaded : Kernel.Vars} {start : Nat → Nat}
variable {steps : Nat → List (Kernel.Machine × Kernel.DriverCall)}
variable {before : List (Kernel.Machine × Kernel.DriverCall)} {vi : Video}

/-- An update finds the modes that `FB_PHYS` has found, and is told of one of them. -/
theorem Asks.toldMode (asks : Asks drivers kernel slots nscreens devIndex loaded start steps)
    (around : Kernel.Around slots nscreens before loaded)
    (opened : Kernel.Opens nscreens before devIndex) {n cur : Nat}
    (shown
      : Kernel.Shown (kernel.machine (start n)) devIndex (Kernel.leave before loaded) vi cur)
    : (drivers.update n).mode
      = some ((Kernel.leave before loaded).fbVp devIndex cur).seen := by
  have filled := Kernel.filled_leave around
  have filled' := Kernel.filled_leave (asks.around n)
  have row := filled'.sameRow filled (asks.opened n) opened
  have index : Kernel.fbCurrentMode (kernel.machine (start n)) - 0x80 = cur := by
    rw [Kernel.fbCurrentMode, shown.current]
    omega
  have inside : ¬(cur : Int) ≥ Kernel.qdMaxModes := by
    have := shown.cached
    omega
  have answered : Kernel.answer (Kernel.ioctlMode (kernel.machine (start n)) devIndex)
        (Kernel.leave (steps n) loaded)
      = some ((Kernel.leave (steps n) loaded).fbVp devIndex cur) := by
    simp only [Kernel.answer, Kernel.ioctlMode, index, if_neg inside]
    rfl
  rw [asks.mode n, answered, Option.map_some, row]

end Asks

/-- What an update reads is inside a size that covers the reads in its mode. By cases on whether
the driver reports the screen; if it does not, nothing is read.
-/
theorem Kernel.Shown.reads_inside {machine : Kernel.Machine} {devIndex cur : Nat}
    {vars : Kernel.Vars} {vi : MiniVnc.Video} (shown : Kernel.Shown machine devIndex vars vi cur)
    {driver : Driver} (reports : driver.Reports vi)
    (mode : driver.mode = some (vars.fbVp devIndex cur).seen) {size : Int}
    (covers
      : Kernel.NothingRead vars devIndex vi cur ∨ Kernel.readsEnd vars devIndex vi cur ≤ size)
    {fb : FrameBuffer} {offset : Int} (read : .read () offset ∈ fbUpdateReads driver fb)
    : offset < size := by
  cases metadata : driver.metadata with
  | none =>
      rw [fbUpdateReads] at read
      cases refresh : fbRefresh driver fb with
      | error e fb' =>
          rw [refresh] at read
          exact absurd read List.not_mem_nil
      | ok done fb' =>
          have known := (fbRefresh_ok refresh).1
          rw [metadata] at known
          cases known
  | some vi' =>
      cases reports vi' metadata
      exact (shown.reads_below_iff size).mpr covers driver fb (shown.told.mpr ⟨metadata, mode⟩)
        offset read

/-- The first deep mode covers the modes that are not as deep, or have rows that are no longer. -/
theorem Kernel.Shown.covered {machine : Kernel.Machine} {devIndex cur m : Nat}
    {vars : Kernel.Vars} {vi : MiniVnc.Video} (shown : Kernel.Shown machine devIndex vars vi cur)
    (deep : IsLeast (Kernel.deepModes vars devIndex) m)
    (fits : Kernel.deepBytes vars devIndex m < 2 ^ 31)
    (longer
      : (vars.fbVp devIndex cur).vpPixelSize < (vars.fbVp devIndex m).vpPixelSize
        ∨ (vars.fbVp devIndex cur).vpRowBytes ≤ (vars.fbVp devIndex m).vpRowBytes)
    : Kernel.NothingRead vars devIndex vi cur
      ∨ Kernel.readsEnd vars devIndex vi cur
          ≤ (Kernel.sizeWith vars devIndex (some m)).toInt := by
  by_cases rows : vi.videoScrY = 0
  · exact Or.inl (Or.inl rows)
  · refine Or.inr ?_
    have rowBytes := longer.elim (shown.growing cur m shown.cached deep.1.1) id
    have covered := shown.readsEnd_le rowBytes rows
    have size : (Kernel.sizeWith vars devIndex (some m)).toInt
        = (Kernel.deepBytes vars devIndex m).bmod (2 ^ 32) := by
      rw [Kernel.sizeWith, Int32.toInt_mul, Int16.toInt_toInt32]
      rfl
    rw [size, Int.bmod_eq_of_le (by omega) (by omega)]
    exact covered

/-- The mapping of a session is set up once, in whatever mode the screen is then, with the size of
the first deep mode. It covers all that is read for any request of the session, whatever modes
the screen is switched to, and whatever other processes do with the driver before and between; so
no update depends on what lies behind it.
-/
theorem session_reads_mapped (outside : Outside) (garbage : Garbage) (sock fd : Nat) {vi : Video}
    (reports : ∀ n, (outside.drivers.update n).Reports vi) {kernel : Moments}
    {slots : Kernel.SlotManager} {nscreens devIndex : Nat} {loaded : Kernel.Vars}
    {start : Nat → Nat} {steps : Nat → List (Kernel.Machine × Kernel.DriverCall)}
    (asks : Asks outside.drivers kernel slots nscreens devIndex loaded start steps)
    {before : List (Kernel.Machine × Kernel.DriverCall)}
    (around : Kernel.Around slots nscreens before loaded)
    (opened : Kernel.Opens nscreens before devIndex) (machine : Kernel.Machine) (addr : UInt32)
    {m : Nat} (deep : IsLeast (Kernel.deepModes (Kernel.leave before loaded) devIndex) m)
    (fits : Kernel.deepBytes (Kernel.leave before loaded) devIndex m < 2 ^ 31)
    (shown
      : ∀ n, ∃ cur,
          Kernel.Shown (kernel.machine (start n)) devIndex (Kernel.leave before loaded) vi cur
          ∧ (((Kernel.leave before loaded).fbVp devIndex cur).vpPixelSize
                < ((Kernel.leave before loaded).fbVp devIndex m).vpPixelSize
              ∨ ((Kernel.leave before loaded).fbVp devIndex cur).vpRowBytes
                ≤ ((Kernel.leave before loaded).fbVp devIndex m).vpRowBytes))
    : ∃ size : Int32,
        (∀ a s v,
          .dophys a s v
              ∈ Kernel.usesOf (Kernel.fbPhys machine devIndex addr) (Kernel.leave before loaded)
            ↔ a = addr ∧ s = size ∧ v = (loaded.videoDesc devIndex).videoAddr)
        ∧ ∀ request ∈ requestsIn outside garbage sock fd, ∀ fb,
            (∀ offset,
              .read () offset ∈ fbUpdateReads request.driver fb → offset < size.toInt)
            ∧ ∀ screen : Mem,
                (∀ k : Nat, (k : Int) < size.toInt → request.driver.screen k = screen k) →
                  fbUpdate { request.driver with screen } fb = fbUpdate request.driver fb := by
  obtain ⟨found, calls, first⟩ :=
    Kernel.fbPhys_calls machine devIndex addr (Kernel.leave before loaded)
  obtain rfl := (first m).mpr deep
  have desc := (Kernel.filled_leave around).videoDesc
  rw [desc] at calls
  refine ⟨_, calls, requestsOf_forall fun n _ fb => ?_⟩
  obtain ⟨cur, shown, longer⟩ := shown n
  have inside (offset : Int)
      (read : .read () offset ∈ fbUpdateReads ((outside.drivers.withGarbage garbage).update n) fb)
      : offset < (Kernel.sizeWith (Kernel.leave before loaded) devIndex (some m)).toInt :=
    shown.reads_inside (reports n) (asks.toldMode around opened shown)
      (shown.covered deep fits longer) read
  exact ⟨inside, fun screen same => fbUpdate_screen_congr fun k read => same k (inside k read)⟩

/-- The table of the small screen: the two modes that are listed, and what was there before. -/
theorem sharedTable {k : Nat} (small : k < Kernel.qdMaxModes)
    : (Kernel.leave [(Kernel.twoModes 0x80, .opens 0)]
          (Kernel.oneScreenVars (Kernel.wideMode 2 160))).fbVp 0 k
      = if k = 0 then Kernel.wideMode 1 80
        else if k = 1 then Kernel.wideMode 8 640
        else Kernel.wideMode 2 160 := by
  match k, small with
  | 0, _ | 1, _ | 2, _ | 3, _ | 4, _ | 5, _ => rfl

/-- Its first deep mode is the second one. -/
theorem sharedTable_deep
    : IsLeast
        (Kernel.deepModes
          (Kernel.leave [(Kernel.twoModes 0x80, .opens 0)]
            (Kernel.oneScreenVars (Kernel.wideMode 2 160))) 0)
        1 := by
  refine ⟨⟨by decide, by decide⟩, ?_⟩
  rintro k ⟨small, deep⟩
  by_contra first
  obtain rfl : k = 0 := by omega
  rw [sharedTable small] at deep
  exact absurd deep (by decide)

/-- The mapping is set up when the screen has one bit per pixel, and is used when it has eight. -/
theorem session_reads_mapped_shared
    : ∃ size : Int32,
        (∀ a s v,
          .dophys a s v
              ∈ Kernel.usesOf (Kernel.fbPhys (Kernel.twoModes 0x80) 0 0x500000)
                  (Kernel.leave [(Kernel.twoModes 0x80, .opens 0)]
                    (Kernel.oneScreenVars (Kernel.wideMode 2 160)))
            ↔ a = 0x500000 ∧ s = size ∧ v = 0xF9000000)
        ∧ ∀ request ∈ requestsIn sharedOutside (zeroGarbage 0) 4 3, ∀ fb,
            (∀ offset,
              .read () offset ∈ fbUpdateReads request.driver fb → offset < size.toInt)
            ∧ ∀ screen : Mem,
                (∀ k : Nat, (k : Int) < size.toInt → request.driver.screen k = screen k) →
                  fbUpdate { request.driver with screen } fb = fbUpdate request.driver fb := by
  have around : Kernel.Around (Kernel.twoModes 0x81).slots 6
      [(Kernel.twoModes 0x80, .opens 0)] (Kernel.oneScreenVars (Kernel.wideMode 2 160)) :=
    ⟨⟨rfl, rfl, trivial⟩, trivial⟩
  have shown : Kernel.Shown (Kernel.twoModes 0x81) 0
      (Kernel.leave [(Kernel.twoModes 0x80, .opens 0)]
        (Kernel.oneScreenVars (Kernel.wideMode 2 160))) smallScreen 1 := by
    refine ⟨?_, by decide, by decide, Or.inr (Or.inr (Or.inr rfl)), by decide, by decide⟩
    intro i j small small'
    rw [sharedTable small, sharedTable small']
    split_ifs <;> decide
  exact session_reads_mapped sharedOutside (zeroGarbage 0) 4 3
    (fun _ _ reported => (Option.some.inj reported).symm) sharedDriver_asks around
    ⟨by decide, _, List.mem_cons_self, rfl⟩ (Kernel.twoModes 0x80) 0x500000 sharedTable_deep
    (by decide) fun _ => ⟨1, shown, Or.inr (Int16.le_refl _)⟩

end MiniVnc
