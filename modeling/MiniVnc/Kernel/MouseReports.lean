import Mathlib.Data.Int.ModEq
import MiniVnc.Kernel.Pointer

/-! Outside the Mac environment: what the mouse's callback is told, as motions of six bits, adds up
to where the mouse is put.
-/

namespace MiniVnc.Kernel
open Library.Memory Library.Interrupts

-----------------------------------------------------------------------------------------
-- What a report says
-----------------------------------------------------------------------------------------

/-- The fields of the ADB data of a report. -/
def motionX (rebuff : Int32) : Int32 := rebuff &&& 0x3f

def motionY (rebuff : Int32) : Int32 := (rebuff >>> 8) &&& 0x3f

def buttonDown (rebuff : Int32) : Bool := rebuff.toBitVec.getLsbD 15

/-- Six bits as a signed number. -/
def signed (motion : Int32) : Int := motion.toInt.bmod 64

theorem mask_bit (i : Nat) : (0x3f#32).getLsbD i = decide (i < 6) := by
  by_cases inside : i < 32
  · revert i
    decide
  · rw [BitVec.getLsbD_of_ge _ _ (Nat.le_of_not_lt inside)]
    exact (decide_eq_false (by omega)).symm

theorem top_bit (i : Nat) : (0x8000#32).getLsbD i = decide (i = 15) := by
  by_cases inside : i < 32
  · revert i
    decide
  · rw [BitVec.getLsbD_of_ge _ _ (Nat.le_of_not_lt inside)]
    exact (decide_eq_false (by omega)).symm

/-- The report bit by bit. -/
theorem rebuffOf_bit (dx dy : Int32) (button : Int16) {i : Nat} (inside : i < 32)
    : (rebuffOf dx dy button).toBitVec.getLsbD i
      = (decide (i < 6) && dx.toBitVec.getLsbD i
        || decide (8 ≤ i) && decide (i < 14) && dy.toBitVec.getLsbD (i - 8)
        || decide (i = 15) && decide (button ≠ 0)) := by
  have low : Int32.toBitVec 0x3f = 0x3f#32 := by decide
  have shift : (Int32.toBitVec 8).smod 32 = 8#32 := by decide
  have top : ((1 : Int32) <<< (15 : Int32)).toBitVec = 0x8000#32 := by decide
  have fields : ((dx &&& (0x3f : Int32))
        ||| ((dy &&& (0x3f : Int32)) <<< (8 : Int32))).toBitVec.getLsbD i
      = (decide (i < 6) && dx.toBitVec.getLsbD i
        || decide (8 ≤ i) && decide (i < 14) && dy.toBitVec.getLsbD (i - 8)) := by
    simp only [Int32.toBitVec_or, Int32.toBitVec_and, Int32.toBitVec_shiftLeft, low, shift,
      BitVec.getLsbD_or, BitVec.getLsbD_and, BitVec.shiftLeft_eq', BitVec.getLsbD_shiftLeft,
      mask_bit]
    grind
  unfold rebuffOf
  dsimp only
  split
  case isTrue pressed =>
    rw [Int32.toBitVec_or, BitVec.getLsbD_or, fields, top, top_bit, decide_eq_true pressed,
      Bool.and_true]
  case isFalse released =>
    rw [fields, decide_eq_false released, Bool.and_false, Bool.or_false]

theorem motionX_rebuffOf (dx dy : Int32) (button : Int16)
    : motionX (rebuffOf dx dy button) = dx &&& 0x3f := by
  apply Int32.toBitVec_inj.mp
  apply BitVec.eq_of_getLsbD_eq
  intro i inside
  have low : Int32.toBitVec 0x3f = 0x3f#32 := by decide
  simp only [motionX, Int32.toBitVec_and, BitVec.getLsbD_and, low, mask_bit,
    rebuffOf_bit dx dy button inside]
  grind

theorem motionY_rebuffOf (dx dy : Int32) (button : Int16)
    : motionY (rebuffOf dx dy button) = dy &&& 0x3f := by
  apply Int32.toBitVec_inj.mp
  apply BitVec.eq_of_getLsbD_eq
  intro i inside
  have low : Int32.toBitVec 0x3f = 0x3f#32 := by decide
  have shift : ((Int32.toBitVec 8).smod 32).toNat = 8 := by decide
  simp only [motionY, Int32.toBitVec_and, Int32.toBitVec_shiftRight, BitVec.getLsbD_and, low,
    mask_bit, BitVec.sshiftRight_eq', BitVec.getLsbD_sshiftRight, shift]
  by_cases field : i < 6
  · rw [if_pos (by omega), rebuffOf_bit dx dy button (by omega)]
    grind
  · simp [field]

theorem buttonDown_rebuffOf (dx dy : Int32) (button : Int16)
    : buttonDown (rebuffOf dx dy button) = decide (button ≠ 0) := by
  rw [buttonDown, rebuffOf_bit dx dy button (by decide)]
  simp

/-- Wrapping to a word keeps the low six bits. -/
theorem bmod_word_emod (n : Int) : n.bmod (2 ^ 32) % 64 = n % 64 := by
  have divides : (64 : Int) ∣ ((2 ^ 32 : Nat) : Int) := by decide
  rw [← Int.emod_emod_of_dvd (n.bmod (2 ^ 32)) divides, Int.bmod_emod,
    Int.emod_emod_of_dvd n divides]

/-- The six bits of a difference are the difference modulo 64. -/
theorem masked_sub (x y : Int32) : ((x - y) &&& 0x3f).toInt = (x.toInt - y.toInt) % 64 := by
  have masked (z : Int32) : (z &&& 0x3f).toInt = z.toInt % 64 := by
    have low : (z &&& 0x3f).toBitVec.toNat = z.toBitVec.toNat % 64 := by
      rw [Int32.toBitVec_and, BitVec.toNat_and]
      exact Nat.and_two_pow_sub_one_eq_mod _ 6
    have small := Nat.mod_lt z.toBitVec.toNat (show 0 < 64 by decide)
    rw [← Int32.toInt_toBitVec, ← Int32.toInt_toBitVec, BitVec.toInt_eq_toNat_bmod,
      BitVec.toInt_eq_toNat_bmod, bmod_word_emod, low, Int.bmod_def]
    omega
  rw [masked, Int32.toInt_sub, bmod_word_emod]

-----------------------------------------------------------------------------------------
-- A mouse and its reports
-----------------------------------------------------------------------------------------

/-- A mouse outside the Mac environment, and the calls of its callback so far. -/
structure RawMouse where
  uiDevices : Int32
  x : Int32
  y : Int32
  mode : Int32
  call : Int32
  reports : List Called

/-- The call is one of a mouse's. -/
def Called.isReport (id : Nat) (called : Called) : Bool :=
  called.id = id ∧ called.action = .mouseChange

def Devices.rawMouse {κ : Type} (others : Others κ) (id : Nat) (devices : Devices κ)
    : RawMouse where
  uiDevices := devices.uiDevices
  x := devices.mouseX id
  y := devices.mouseY id
  mode := (others.mouse id .mode).read devices.rest
  call := (others.mouse id .intr).read devices.rest
  reports := devices.called.filter (·.isReport id)

/-- The report of a move. -/
def RawMouse.report (id : Nat) (raw : RawMouse) (mouse : FbMouse) : Called :=
  ⟨raw.call, id, .mouseChange,
    rebuffOf (mouse.x.toInt32 - raw.x) (mouse.y.toInt32 - raw.y) mouse.button, 3⟩

/-- What one `FB_MOVE_MOUSE` does to it. -/
def RawMouse.moved (id : Nat) (raw : RawMouse) (mouse : FbMouse) : RawMouse :=
  { raw with
    x := mouse.x.toInt32
    y := mouse.y.toInt32
    reports := raw.reports ++ if raw.mode ≠ 0 then [raw.report id mouse] else [] }

/-- What an ioctl does to it: moves of other mice do nothing. -/
def RawMouse.after (id : Nat) (raw : RawMouse) (request : Attached × InputRequest) : RawMouse :=
  if request.1.videoMouseInd = id then request.2.moves.foldl (RawMouse.moved id) raw else raw

section

variable {κ ι : Type} {others : Others κ} {id : Nat}

/-- The other drivers leave the mouse where it is, with its mode and callback. -/
structure LeavesRaw (others : Others κ) (irq : Source ι (Devices κ)) (id : Nat) : Prop where
  handle : ∀ i devices, (irq.handle i devices).rawMouse others id = devices.rawMouse others id
  callback : ∀ called devices,
    (others.callback called devices).rawMouse others id = devices.rawMouse others id

/-- A callback that is called is a report, or not seen. -/
theorem rawMouse_callback {irq : Source ι (Devices κ)} (leaves : LeavesRaw others irq id)
    {called : Called} {ends : Unit → RawMouse → Prop} {raw : RawMouse}
    (after : ends () { raw with reports := raw.reports ++ [called].filter (·.isReport id) })
    : (callCallback others called).Ends (Devices.rawMouse others id) ends raw := by
  intro devices seen
  have reports : devices.called.filter (·.isReport id) = raw.reports :=
    congrArg RawMouse.reports seen
  show ends () { (others.callback called devices).rawMouse others id with
    reports := (devices.called ++ [called]).filter (·.isReport id) }
  rw [leaves.callback, seen, List.filter_append, reports]
  exact after

/-- A step on the position ends as it should when its view does. -/
theorem rawMouse_setMouse {act : Devices κ → Devices κ} (change : RawMouse → RawMouse)
    (changes : ∀ devices, (act devices).rawMouse others id = change (devices.rawMouse others id))
    {ends : Unit → RawMouse → Prop} {raw : RawMouse} (after : ends () (change raw))
    : (setMouse act).Ends (Devices.rawMouse others id) ends raw := by
  intro devices seen
  show ends () ((act devices).rawMouse others id)
  rw [changes devices, seen]
  exact after

/-- A move of the mouse itself. -/
theorem peekingMoveMouseTo_rawMouse {irq : Source ι (Devices κ)}
    (leaves : LeavesRaw others irq id) (x y button : Int16) {raw : RawMouse}
    (free : raw.uiDevices = 0)
    : (peekingMoveMouseTo others id x y button).Ends (Devices.rawMouse others id)
        (fun _ later => later = raw.moved id ⟨x, y, button⟩) raw := by
  refine .look fun devices seen => ?_
  have same : devices.uiDevices = raw.uiDevices := congrArg RawMouse.uiDevices seen
  rw [if_neg (not_not.mpr (same.trans free))]
  refine .look fun devices seen => ?_
  have mode : (others.mouse id .mode).read devices.rest = raw.mode := congrArg RawMouse.mode seen
  have call : (others.mouse id .intr).read devices.rest = raw.call := congrArg RawMouse.call seen
  rw [mode, call]
  refine .look fun devices seen => ?_
  have across : devices.mouseX id = raw.x := congrArg RawMouse.x seen
  rw [across]
  refine .look fun devices seen => ?_
  have down : devices.mouseY id = raw.y := congrArg RawMouse.y seen
  rw [down]
  refine .bind (rawMouse_setMouse (fun raw => { raw with x := x.toInt32 }) (fun devices => ?_) ?_)
  · simp [Devices.rawMouse]
  refine .bind (rawMouse_setMouse (fun raw => { raw with y := y.toInt32 }) (fun devices => ?_) ?_)
  · simp [Devices.rawMouse]
  refine .bind (rawMouse_setMouse (fun raw => raw) (fun devices => rfl) ?_)
  split
  case isTrue on =>
    refine rawMouse_callback leaves ?_
    simp [RawMouse.moved, RawMouse.report, Called.isReport, on]
  case isFalse off =>
    show _ = raw.moved id ⟨x, y, button⟩
    simp [RawMouse.moved, off]

/-- A move of another mouse. -/
theorem peekingMoveMouseTo_other {irq : Source ι (Devices κ)} (leaves : LeavesRaw others irq id)
    {other : Nat} (different : other ≠ id) (x y button : Int16) {raw : RawMouse}
    (free : raw.uiDevices = 0)
    : (peekingMoveMouseTo others other x y button).Ends (Devices.rawMouse others id)
        (fun _ later => later = raw) raw := by
  refine .look fun devices seen => ?_
  have same : devices.uiDevices = raw.uiDevices := congrArg RawMouse.uiDevices seen
  rw [if_neg (not_not.mpr (same.trans free))]
  refine .look fun _ _ => .look fun _ _ => .look fun _ _ => ?_
  refine .bind (rawMouse_setMouse (fun raw => raw) (fun devices => ?_) ?_)
  · simp [Devices.rawMouse, different.symm]
  refine .bind (rawMouse_setMouse (fun raw => raw) (fun devices => ?_) ?_)
  · simp [Devices.rawMouse, different.symm]
  refine .bind (rawMouse_setMouse (fun raw => raw) (fun devices => rfl) ?_)
  split
  · refine rawMouse_callback leaves ?_
    simp [Called.isReport, different]
  · rfl

theorem peekingKchr_rawMouse {irq : Source ι (Devices κ)} (leaves : LeavesRaw others irq id)
    (key : Nat) (kchr flags : Int32) (raw : RawMouse)
    : (peekingKchr others key kchr flags).Ends (Devices.rawMouse others id)
        (fun _ later => later = raw) raw := by
  refine .look fun _ _ => rawMouse_callback leaves ?_
  simp [Called.isReport]

/-- One ioctl, by cases on the request. -/
theorem peekingIoctl_rawMouse {irq : Source ι (Devices κ)} (leaves : LeavesRaw others irq id)
    (vsrc : Attached) (request : InputRequest) {raw : RawMouse} (free : raw.uiDevices = 0)
    : (peekingIoctl others vsrc request).Ends (Devices.rawMouse others id)
        (fun _ later => later = raw.after id (vsrc, request)) raw := by
  have idle {request : InputRequest} (none : request.moves = [])
      : raw.after id (vsrc, request) = raw := by
    rw [RawMouse.after, none, List.foldl_nil, ite_self]
  cases request with
  | moveMouse mouse =>
      refine .bind ?_
      by_cases mine : vsrc.videoMouseInd = id
      · rw [mine]
        refine (peekingMoveMouseTo_rawMouse leaves _ _ _ free).weaken fun _ later moved => ?_
        show later = _
        rw [moved, RawMouse.after, if_pos mine]
        rfl
      · refine (peekingMoveMouseTo_other leaves mine _ _ _ free).weaken fun _ later moved => ?_
        show later = _
        rw [moved, RawMouse.after, if_neg mine]
  | kbMode => exact .look fun _ _ => (idle rfl).symm
  | mouseState => exact .look fun _ _ => (idle rfl).symm
  | kbKchr i =>
      refine .bind ((peekingKchr_rawMouse leaves _ _ _ raw).weaken fun _ later same => ?_)
      exact same.trans (idle rfl).symm
  | kbKeypress key flags =>
      refine .bind ((peekingKchr_rawMouse leaves _ _ _ raw).weaken fun _ later same => ?_)
      exact same.trans (idle rfl).symm

theorem foldl_moved_raw (moves : List FbMouse) (raw : RawMouse)
    : let after := moves.foldl (RawMouse.moved id) raw
      after.uiDevices = raw.uiDevices ∧ after.mode = raw.mode ∧ after.call = raw.call := by
  induction moves generalizing raw with
  | nil => exact ⟨rfl, rfl, rfl⟩
  | cons mouse moves ih => exact ih (raw.moved id mouse)

theorem RawMouse.after_uiDevices (raw : RawMouse) (request : Attached × InputRequest)
    : (raw.after id request).uiDevices = raw.uiDevices := by
  rw [RawMouse.after]
  split
  · exact (foldl_moved_raw _ raw).1
  · rfl

/-- The moves of a mouse among ioctls. -/
def movesOfMouse (id : Nat) (requests : List (Attached × InputRequest)) : List FbMouse :=
  requests.flatMap fun request => if request.1.videoMouseInd = id then request.2.moves else []

theorem foldl_after (requests : List (Attached × InputRequest)) (raw : RawMouse)
    : requests.foldl (RawMouse.after id) raw
      = (movesOfMouse id requests).foldl (RawMouse.moved id) raw := by
  rw [movesOfMouse, List.foldl_flatMap]
  congr 1
  funext raw request
  rw [RawMouse.after]
  split <;> rfl

/-- Over any ioctls the mouse does as its moves among them say. -/
theorem fbInputIoctls_rawMouse {irq : Source ι (Devices κ)} (leaves : LeavesRaw others irq id)
    {requests : List (Attached × InputRequest)} {cpu last : Cpu (Devices κ)}
    {log : List (ι × Devices κ)} {answers : List (List Int32)}
    (free : cpu.memory.uiDevices = 0)
    (run : Runs irq (fbInputIoctls others requests) cpu log answers last)
    : last.memory.rawMouse others id
      = (movesOfMouse id requests).foldl (RawMouse.moved id) (cpu.memory.rawMouse others id) := by
  rw [← foldl_after]
  refine fbInputIoctls_folds (fun raw : RawMouse => raw.uiDevices = 0) leaves.handle ?_ free run
  intro vsrc request raw free
  refine (peekingIoctl_rawMouse leaves vsrc request free).weaken fun _ later moved => ?_
  exact ⟨moved, moved ▸ (raw.after_uiDevices _).trans free⟩

end

-----------------------------------------------------------------------------------------
-- Adding up
-----------------------------------------------------------------------------------------

/-- The data of the reports of moves, from a position on. -/
def dataFrom (x y : Int32) : List FbMouse → List Int32
  | [] => []
  | mouse :: moves =>
      rebuffOf (mouse.x.toInt32 - x) (mouse.y.toInt32 - y) mouse.button
        :: dataFrom mouse.x.toInt32 mouse.y.toInt32 moves

theorem foldl_moved_reports (id : Nat) (moves : List FbMouse) (raw : RawMouse)
    (on : raw.mode ≠ 0)
    : (moves.foldl (RawMouse.moved id) raw).reports
      = raw.reports
        ++ (dataFrom raw.x raw.y moves).map fun data =>
          ⟨raw.call, id, .mouseChange, data, 3⟩ := by
  induction moves generalizing raw with
  | nil => simp [dataFrom]
  | cons mouse moves ih =>
      rw [List.foldl_cons, ih (raw.moved id mouse) on]
      simp [RawMouse.moved, RawMouse.report, dataFrom, on]

/-- The motions add up to the way from one position to another, as far as six bits can tell. -/
def AddsUp (reports : List Int32) (start after : RawMouse) : Prop :=
  ((reports.map fun data => (motionX data).toInt).sum ≡ after.x.toInt - start.x.toInt [ZMOD 64])
  ∧ ((reports.map fun data => (motionY data).toInt).sum ≡ after.y.toInt - start.y.toInt [ZMOD 64])

/-- The motions, taken as signed numbers, are the way from one position to another. -/
def AddsUpSigned (reports : List Int32) (start after : RawMouse) : Prop :=
  (reports.map fun data => signed (motionX data)).sum = after.x.toInt - start.x.toInt
  ∧ (reports.map fun data => signed (motionY data)).sum = after.y.toInt - start.y.toInt

/-- No move is longer than a signed number of six bits can say. -/
def NoLeap (x y : Int32) : List FbMouse → Prop
  | [] => True
  | mouse :: moves =>
      (-32 ≤ mouse.x.toInt32.toInt - x.toInt ∧ mouse.x.toInt32.toInt - x.toInt < 32)
      ∧ (-32 ≤ mouse.y.toInt32.toInt - y.toInt ∧ mouse.y.toInt32.toInt - y.toInt < 32)
      ∧ NoLeap mouse.x.toInt32 mouse.y.toInt32 moves

/-- By induction on the moves: each position is subtracted once and added once. -/
theorem dataFrom_addsUp (id : Nat) (moves : List FbMouse) (raw : RawMouse)
    : AddsUp (dataFrom raw.x raw.y moves) raw (moves.foldl (RawMouse.moved id) raw) := by
  induction moves generalizing raw with
  | nil => simp [AddsUp, dataFrom]
  | cons mouse moves ih =>
      obtain ⟨across, down⟩ := ih (raw.moved id mouse)
      simp only [AddsUp, dataFrom, List.map_cons, List.sum_cons, List.foldl_cons,
        motionX_rebuffOf, motionY_rebuffOf, masked_sub]
      dsimp only [RawMouse.moved] at across down ⊢
      unfold Int.ModEq at across down ⊢
      omega

/-- A difference of no more than six bits is its six bits as a signed number. -/
theorem signed_masked_sub {x y : Int32} (lower : -32 ≤ x.toInt - y.toInt)
    (upper : x.toInt - y.toInt < 32)
    : signed ((x - y) &&& 0x3f) = x.toInt - y.toInt := by
  rw [signed, masked_sub, Int.bmod_def]
  omega

/-- By induction on the moves, as modulo 64. -/
theorem dataFrom_addsUpSigned (id : Nat) (moves : List FbMouse) (raw : RawMouse)
    (short : NoLeap raw.x raw.y moves)
    : AddsUpSigned (dataFrom raw.x raw.y moves) raw (moves.foldl (RawMouse.moved id) raw) := by
  induction moves generalizing raw with
  | nil => simp [AddsUpSigned, dataFrom]
  | cons mouse moves ih =>
      obtain ⟨shortX, shortY, later⟩ := short
      obtain ⟨across, down⟩ := ih (raw.moved id mouse) later
      simp only [AddsUpSigned, dataFrom, List.map_cons, List.sum_cons, List.foldl_cons,
        motionX_rebuffOf, motionY_rebuffOf, signed_masked_sub shortX.1 shortX.2,
        signed_masked_sub shortY.1 shortY.2]
      dsimp only [RawMouse.moved] at across down ⊢
      omega

theorem dataFrom_buttons (x y : Int32) (moves : List FbMouse)
    : (dataFrom x y moves).map buttonDown = moves.map fun mouse => decide (mouse.button ≠ 0) := by
  induction moves generalizing x y with
  | nil => rfl
  | cons mouse moves ih => rw [dataFrom, List.map_cons, List.map_cons, ih, buttonDown_rebuffOf]

/-- Over any ioctls outside the Mac environment, a mouse whose mode is on reports every move of it
and none twice, with the button as it is given. The motions add up to the way of the mouse modulo
64, and as signed numbers to the way itself when no move leaps too far.
-/
theorem mouse_reports_add_up {κ ι : Type} {others : Others κ} {irq : Source ι (Devices κ)}
    {id : Nat} (leaves : LeavesRaw others irq id) {requests : List (Attached × InputRequest)}
    {cpu last : Cpu (Devices κ)} {log : List (ι × Devices κ)} {answers : List (List Int32)}
    (free : cpu.memory.uiDevices = 0) (on : (cpu.memory.rawMouse others id).mode ≠ 0)
    (run : Runs irq (fbInputIoctls others requests) cpu log answers last)
    : let start := cpu.memory.rawMouse others id
      let after := last.memory.rawMouse others id
      let moves := movesOfMouse id requests
      ∃ reports : List Int32,
        after.reports
          = start.reports ++ reports.map (fun data => ⟨start.call, id, .mouseChange, data, 3⟩)
        ∧ reports.map buttonDown = moves.map (fun mouse => decide (mouse.button ≠ 0))
        ∧ AddsUp reports start after
        ∧ (NoLeap start.x start.y moves → AddsUpSigned reports start after) := by
  intro start after moves
  have moved : after = moves.foldl (RawMouse.moved id) start :=
    fbInputIoctls_rawMouse leaves free run
  refine ⟨dataFrom start.x start.y moves, ?_, dataFrom_buttons _ _ moves, ?_, fun short => ?_⟩
  · rw [moved]
    exact foldl_moved_reports id moves start on
  · rw [moved]
    exact dataFrom_addsUp id moves start
  · rw [moved]
    exact dataFrom_addsUpSigned id moves start short

/-- A press two pixels into the screen, and a release two to the right of it and one up. -/
def dragRequests : List (Attached × InputRequest) :=
  [(⟨0, 0⟩, .moveMouse ⟨10, 5, 1⟩), (⟨0, 0⟩, .kbMode), (⟨0, 0⟩, .moveMouse ⟨12, 4, 0⟩)]

/-- A clock interrupts the drag. -/
theorem mouse_reports_add_up_drag
    : let start := quietDevices.rawMouse quietOthers 0
      let after := (ioctlsAlone quietOthers dragRequests ticked).2.rawMouse quietOthers 0
      let moves := movesOfMouse 0 dragRequests
      ∃ reports : List Int32,
        after.reports
          = start.reports ++ reports.map (fun data => ⟨start.call, 0, .mouseChange, data, 3⟩)
        ∧ reports.map buttonDown = moves.map (fun mouse => decide (mouse.button ≠ 0))
        ∧ AddsUp reports start after
        ∧ (NoLeap start.x start.y moves → AddsUpSigned reports start after) := by
  have leaves : LeavesRaw quietOthers ticking 0 := ⟨fun _ _ => rfl, fun _ _ => rfl⟩
  have on : (quietDevices.rawMouse quietOthers 0).mode ≠ 0 := by decide
  have alone := @fbInputIoctls_runs _ _ quietOthers ticking dragRequests 0 ticked
  have run : Runs ticking (fbInputIoctls quietOthers dragRequests) ⟨0, quietDevices⟩
      [((), quietDevices)] _ _ :=
    .interrupt () (by decide) alone
  exact mouse_reports_add_up leaves rfl on run

end MiniVnc.Kernel
