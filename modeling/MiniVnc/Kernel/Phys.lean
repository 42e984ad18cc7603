import Mathlib.Order.Bounds.Basic
import MiniVnc.FrameBuffer.ScreenReads
import MiniVnc.Kernel.Driver
import MiniVnc.Updates.Serving

/-! The size of the framebuffer that `FB_PHYS` maps, next to what the server reads of it. -/

namespace MiniVnc.Kernel
open Library.Memory Library.Stream Library.Accesses

/-- The block of a mode as the server sees it. -/
def VPBlock.seen (block : VPBlock) : MiniVnc.VPBlock :=
  ⟨block.vpPixelSize.toInt.toNat, block.vpRowBytes.toInt.toNat⟩

/-- A driver that answers every ioctl of an update, with a black palette. -/
def plainDriver (vi : MiniVnc.Video) (vp : MiniVnc.VPBlock) : MiniVnc.Driver where
  metadata := some vi
  mode := some vp
  clutHash := some 0
  clutChunk := fun _ => some fun _ => 0
  screen := fun _ => 0
  uninitialised := fun _ => 0

/-- The server is told of the screen `vi`, and of the mode that `FB_MODE` answers with. -/
structure Told (machine : Machine) (devIndex : Nat) (vars : Vars) (vi : MiniVnc.Video)
    (driver : MiniVnc.Driver) : Prop where
  metadata : driver.metadata = some vi
  mode : driver.mode = (answer (ioctlMode machine devIndex) vars).map VPBlock.seen

/-- The current mode is the entry `cur` of a table whose rows do not get shorter as the pixels get
deeper; it is one of those that the server knows, and the screen fits into its memory.
-/
structure Shown (machine : Machine) (devIndex : Nat) (vars : Vars) (vi : MiniVnc.Video)
    (cur : Nat) : Prop where
  growing
    : ∀ i j : Nat, i < qdMaxModes → j < qdMaxModes →
        (vars.fbVp devIndex i).vpPixelSize < (vars.fbVp devIndex j).vpPixelSize →
          (vars.fbVp devIndex i).vpRowBytes ≤ (vars.fbVp devIndex j).vpRowBytes
  cached : cur < qdMaxModes
  current : machine.csMode.toInt = 0x80 + cur
  indexed
    : (vars.fbVp devIndex cur).vpPixelSize = 1 ∨ (vars.fbVp devIndex cur).vpPixelSize = 2
      ∨ (vars.fbVp devIndex cur).vpPixelSize = 4 ∨ (vars.fbVp devIndex cur).vpPixelSize = 8
  wide
    : vi.videoScrX * (vars.fbVp devIndex cur).vpPixelSize.toInt
      ≤ 8 * (vars.fbVp devIndex cur).vpRowBytes.toInt
  high : vi.videoScrY ≤ (vars.videoDesc devIndex).videoMemY.toInt

/-- The modes of at least 8 bits per pixel, of which `fb_fb_size` takes the first. -/
def deepModes (vars : Vars) (devIndex : Nat) : Set Nat :=
  {m | m < qdMaxModes ∧ 8 ≤ (vars.fbVp devIndex m).vpPixelSize.toInt}

/-- The bytes of the first deep mode `m`, as an integer without a bound. -/
def deepBytes (vars : Vars) (devIndex m : Nat) : Int :=
  (vars.fbVp devIndex m).vpRowBytes.toInt * (vars.videoDesc devIndex).videoMemY.toInt

/-- Where the reads of the server in mode `cur` end. -/
def readsEnd (vars : Vars) (devIndex : Nat) (vi : MiniVnc.Video) (cur : Nat) : Nat :=
  let vp := (vars.fbVp devIndex cur).seen
  (vi.videoScrY - 1) * vp.vpRowBytes + sourceBytes vp.vpPixelSize vi.videoScrX

/-- The server reads nothing at all. -/
def NothingRead (vars : Vars) (devIndex : Nat) (vi : MiniVnc.Video) (cur : Nat) : Prop :=
  vi.videoScrY = 0
    ∨ sourceBytes (vars.fbVp devIndex cur).seen.vpPixelSize vi.videoScrX = 0

/-- `fb_fb_size`, given the mode it has found. -/
def sizeWith (vars : Vars) (devIndex : Nat) : Option Nat → Int32
  | none => -1
  | some m =>
      (vars.fbVp devIndex m).vpRowBytes.toInt32 * (vars.videoDesc devIndex).videoMemY

/-- A search that finds what it looks for where it starts has found the first. -/
theorem isLeast_here {wanted : Nat → Prop} {i left : Nat} (here : wanted i)
    : IsLeast {m | i ≤ m ∧ m < i + (left + 1) ∧ wanted m} i := by
  refine ⟨⟨Nat.le_refl i, by omega, here⟩, ?_⟩
  intro m inside
  exact inside.1

/-- Otherwise what is left to search is all there is. -/
theorem search_next {wanted : Nat → Prop} {i left : Nat} (elsewhere : ¬wanted i)
    : {m | i + 1 ≤ m ∧ m < i + 1 + left ∧ wanted m}
      = {m | i ≤ m ∧ m < i + (left + 1) ∧ wanted m} := by
  ext m
  constructor
  · rintro ⟨from_, to_, found⟩
    exact ⟨by omega, by omega, found⟩
  · rintro ⟨from_, to_, found⟩
    rcases Nat.eq_or_lt_of_le from_ with rfl | later
    · exact absurd found elsewhere
    · exact ⟨later, by omega, found⟩

/-- The loop returns the first deep mode from `i` on, and looks at modes only. By induction on the
modes that are left.
-/
theorem findMode8_ok (devIndex left i : Nat) (vars : Vars)
    : ∃ found more, findMode8 devIndex left i vars
          = .ok found { vars with uses := vars.uses ++ more }
        ∧ (∀ used ∈ more, ∃ mode, used = .fbVp devIndex mode)
        ∧ ∀ m, found = some m
            ↔ IsLeast
                {m | i ≤ m ∧ m < i + left ∧ 8 ≤ (vars.fbVp devIndex m).vpPixelSize.toInt} m := by
  induction left generalizing i vars with
  | zero =>
      refine ⟨none, [], by simp [findMode8]; rfl, by simp, ?_⟩
      intro m
      constructor
      · intro found
        cases found
      · intro least
        have from_ := least.1.1
        have to_ := least.1.2.1
        omega
  | succ left ih =>
      have looked : findMode8 devIndex (left + 1) i vars
          = (if (vars.fbVp devIndex i).vpPixelSize ≥ 8 then return some i
              else findMode8 devIndex left (i + 1) : Call (Option Nat))
            { vars with uses := vars.uses ++ [.fbVp devIndex i] } := rfl
      by_cases deep : (vars.fbVp devIndex i).vpPixelSize ≥ 8
      · rw [looked, if_pos deep]
        refine ⟨some i, [.fbVp devIndex i], rfl, by simp, ?_⟩
        have least := @isLeast_here (fun m : Nat => 8 ≤ (vars.fbVp devIndex m).vpPixelSize.toInt)
          i left (Int16.le_iff_toInt_le.mp deep)
        intro m
        rw [Option.some_inj]
        exact ⟨fun same => same ▸ least, fun other => least.unique other⟩
      · rw [looked, if_neg deep]
        obtain ⟨found, more, returned, modes, first⟩ :=
          ih (i + 1) { vars with uses := vars.uses ++ [.fbVp devIndex i] }
        refine ⟨found, .fbVp devIndex i :: more, by rw [returned]; simp, ?_, ?_⟩
        · intro used member
          rcases List.mem_cons.mp member with rfl | later
          · exact ⟨i, rfl⟩
          · exact modes used later
        · intro m
          have shallow : ¬8 ≤ (vars.fbVp devIndex i).vpPixelSize.toInt :=
            fun eight => deep (Int16.le_iff_toInt_le.mpr eight)
          have same := @search_next
            (fun m : Nat => 8 ≤ (vars.fbVp devIndex m).vpPixelSize.toInt) i left shallow
          rw [first m, same]

/-- `fb_fb_size` takes the first deep mode, if there is one. -/
theorem fbFbSize_ok (devIndex : Nat) (vars : Vars)
    : ∃ found more, fbFbSize devIndex vars
          = .ok (sizeWith vars devIndex found) { vars with uses := vars.uses ++ more }
        ∧ (∀ a size v, .dophys a size v ∉ more)
        ∧ ∀ m, found = some m ↔ IsLeast (deepModes vars devIndex) m := by
  obtain ⟨found, more, returned, modes, first⟩ := findMode8_ok devIndex qdMaxModes 0 vars
  have deep : {m | 0 ≤ m ∧ m < 0 + qdMaxModes
        ∧ 8 ≤ (vars.fbVp devIndex m).vpPixelSize.toInt}
      = deepModes vars devIndex := by
    ext m
    simp [deepModes]
  have noCall : ∀ a size v, .dophys a size v ∉ more := by
    intro a size v member
    obtain ⟨mode, same⟩ := modes _ member
    cases same
  rw [deep] at first
  cases found with
  | none =>
      refine ⟨none, more, ?_, noCall, first⟩
      rw [fbFbSize, bind_ok returned]
      rfl
  | some m =>
      refine ⟨some m, more ++ [.fbVp devIndex m, .videoDesc devIndex], ?_, ?_, first⟩
      · rw [fbFbSize, bind_ok returned]
        simp only [fbVpAt, videoDescAt, use, modify_bind, get_bind, bind_assoc, pure_bind]
        simp
        rfl
      · intro a size v member
        rcases List.mem_append.mp member with before | last
        · exact noCall a size v before
        · simp at last

/-- `fb_phys` calls `dophys` once, with the size found, whether that is one or not. -/
theorem fbPhys_calls (machine : Machine) (devIndex : Nat) (addr : UInt32) (vars : Vars)
    : ∃ found, (∀ a size v,
          .dophys a size v ∈ usesOf (fbPhys machine devIndex addr) vars
            ↔ a = addr ∧ size = sizeWith vars devIndex found
              ∧ v = (vars.videoDesc devIndex).videoAddr)
        ∧ ∀ m, found = some m ↔ IsLeast (deepModes vars devIndex) m := by
  obtain ⟨found, more, sized, noCall, first⟩ := fbFbSize_ok devIndex vars.fresh
  have uses : usesOf (fbPhys machine devIndex addr) vars
      = more ++ [.videoDesc devIndex,
          .dophys addr (sizeWith vars devIndex found)
            (vars.videoDesc devIndex).videoAddr] := by
    rw [usesOf, fbPhys, bind_ok sized]
    by_cases ok : machine.dophys = 0
    · simp only [videoDescAt, use, modify_bind, get_bind, bind_assoc, pure_bind, if_pos ok]
      simp
      rfl
    · simp only [videoDescAt, use, modify_bind, get_bind, bind_assoc, pure_bind, if_neg ok]
      simp
      rfl
  refine ⟨found, ?_, first⟩
  intro a size v
  rw [uses, List.mem_append]
  constructor
  · rintro (before | last)
    · exact absurd before (noCall a size v)
    · simpa using last
  · rintro ⟨rfl, rfl, rfl⟩
    exact Or.inr (by simp)

-----------------------------------------------------------------------------------------
-- What the server reads
-----------------------------------------------------------------------------------------

section Shown

variable {machine : Machine} {devIndex : Nat} {vars : Vars} {vi : MiniVnc.Video} {cur : Nat}

theorem Shown.answered (shown : Shown machine devIndex vars vi cur)
    : answer (ioctlMode machine devIndex) vars = some (vars.fbVp devIndex cur) := by
  have index : fbCurrentMode machine - 0x80 = cur := by
    rw [fbCurrentMode, shown.current]
    omega
  have inside : ¬(cur : Int) ≥ qdMaxModes := by
    have := shown.cached
    omega
  simp only [answer, ioctlMode, index, if_neg inside]
  rfl

theorem Shown.known (shown : Shown machine devIndex vars vi cur)
    : ∃ copy, copyRow? (vars.fbVp devIndex cur).seen.vpPixelSize = some copy := by
  apply copyRow?_known
  rcases shown.indexed with size | size | size | size <;> simp [VPBlock.seen, size]

theorem Shown.told (shown : Shown machine devIndex vars vi cur) {driver : MiniVnc.Driver}
    : Told machine devIndex vars vi driver
      ↔ driver.metadata = some vi
        ∧ driver.mode = some (vars.fbVp devIndex cur).seen := by
  constructor
  · intro told
    have mode := told.mode
    rw [shown.answered] at mode
    exact ⟨told.metadata, mode⟩
  · rintro ⟨metadata, mode⟩
    refine ⟨metadata, ?_⟩
    rw [shown.answered]
    exact mode

/-- A size covers the reads exactly when it covers the end of the last row, if anything is read.
One way a server has to get as far as to read it.
-/
theorem Shown.reads_below_iff (shown : Shown machine devIndex vars vi cur) (size : Int)
    : (∀ driver fb, Told machine devIndex vars vi driver →
          ∀ offset, .read () offset ∈ fbUpdateReads driver fb → offset < size)
      ↔ NothingRead vars devIndex vi cur ∨ readsEnd vars devIndex vi cur ≤ size := by
  obtain ⟨copy, known⟩ := shown.known
  have below (fb : FrameBuffer) (video : fb.vi = vi)
      (block : fb.vp = (vars.fbVp devIndex cur).seen)
      : (∀ offset, .read () offset ∈ scanRowsReads fb fb.vi.videoScrY → offset < size)
        ↔ NothingRead vars devIndex vi cur ∨ readsEnd vars devIndex vi cur ≤ size := by
    rw [← block] at known
    rw [scanRowsReads_below_iff known, video, block, ← or_assoc]
    rfl
  constructor
  · intro all
    have answers : (plainDriver vi (vars.fbVp devIndex cur).seen).Answers :=
      ⟨⟨vi, rfl⟩, ⟨_, copy, rfl, known⟩, ⟨0, rfl⟩, fun _ _ => ⟨_, rfl⟩⟩
    obtain ⟨_, updated⟩ :=
      fbUpdate_returns answers (.initial vi (vars.fbVp devIndex cur).seen fun _ => 0)
    rw [fbUpdate_eq] at updated
    obtain ⟨_, fb', refresh, _⟩ := bind_eq_ok.mp updated
    obtain ⟨metadata, mode, _⟩ := fbRefresh_ok refresh
    have told : Told machine devIndex vars vi
        (plainDriver vi (vars.fbVp devIndex cur).seen) :=
      shown.told.mpr ⟨rfl, rfl⟩
    have reads := all _ (.initial vi (vars.fbVp devIndex cur).seen fun _ => 0) told
    rw [fbUpdateReads, refresh] at reads
    exact (below fb' (Option.some.inj metadata).symm (Option.some.inj mode).symm).mp reads
  · intro covers driver fb told
    obtain ⟨metadata, mode⟩ := shown.told.mp told
    rw [fbUpdateReads]
    cases refresh : fbRefresh driver fb with
    | error e fb' => simp
    | ok done fb' =>
        obtain ⟨metadata', mode', _⟩ := fbRefresh_ok refresh
        have video := Option.some.inj (metadata'.symm.trans metadata)
        have block := Option.some.inj (mode'.symm.trans mode)
        exact (below fb' video block).mpr covers

/-- What the table and the screen promise: the rows of a longer mode cover the reads, row by row. -/
theorem Shown.readsEnd_le (shown : Shown machine devIndex vars vi cur) {m : Nat}
    (longer : (vars.fbVp devIndex cur).vpRowBytes ≤ (vars.fbVp devIndex m).vpRowBytes)
    (rows : vi.videoScrY ≠ 0)
    : (readsEnd vars devIndex vi cur : Int) ≤ deepBytes vars devIndex m := by
  have positive : 0 < (vars.fbVp devIndex cur).vpPixelSize.toInt := by
    rcases shown.indexed with size | size | size | size <;> rw [size] <;> decide
  have wide := shown.wide
  have pixels : 0 ≤ vi.videoScrX * (vars.fbVp devIndex cur).vpPixelSize.toInt :=
    Int.mul_nonneg (Int.natCast_nonneg _) (Int.le_of_lt positive)
  have depth : ((vars.fbVp devIndex cur).seen.vpPixelSize : Int)
      = (vars.fbVp devIndex cur).vpPixelSize.toInt :=
    Int.toNat_of_nonneg (Int.le_of_lt positive)
  have stride : ((vars.fbVp devIndex cur).seen.vpRowBytes : Int)
      = (vars.fbVp devIndex cur).vpRowBytes.toInt :=
    Int.toNat_of_nonneg (by omega)
  have row : sourceBytes (vars.fbVp devIndex cur).seen.vpPixelSize vi.videoScrX
      ≤ (vars.fbVp devIndex cur).seen.vpRowBytes := by
    rw [← depth, ← stride] at wide
    exact sourceBytes_le (by exact_mod_cast wide)
  have readsRows : readsEnd vars devIndex vi cur
      ≤ vi.videoScrY * (vars.fbVp devIndex cur).seen.vpRowBytes := by
    obtain ⟨y, last⟩ := Nat.exists_eq_succ_of_ne_zero rows
    rw [readsEnd, last, Nat.succ_mul]
    exact Nat.add_le_add_left row _
  calc
    (readsEnd vars devIndex vi cur : Int)
      ≤ vi.videoScrY * (vars.fbVp devIndex cur).vpRowBytes.toInt := by
        rw [← stride]
        exact_mod_cast readsRows
    _ ≤ (vars.videoDesc devIndex).videoMemY.toInt
          * (vars.fbVp devIndex m).vpRowBytes.toInt :=
        Int.mul_le_mul shown.high (Int16.le_iff_toInt_le.mp longer) (by omega)
          (by have := shown.high; omega)
    _ = deepBytes vars devIndex m := Int.mul_comm _ _

end Shown

end MiniVnc.Kernel
