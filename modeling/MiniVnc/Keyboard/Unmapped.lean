import MiniVnc.Keyboard.HeldKeys
import MiniVnc.Keyboard.Routes

/-! What is injected for keysyms that have no MacRoman character. -/

namespace MiniVnc
open Library.Memory Library.Stream Library.FirstMatch

/-- The session with another answer of the driver to the codes it is given. -/
def KeySession.answering (s : KeySession) (accepts : Nat → UInt8 → Bool) : KeySession :=
  { s with keyboard := { s.keyboard with accepts } }

/-- Whatever the driver answers, no key code is injected. -/
def InjectsNothing (evt : VNCKeyEvent) (s : KeySession) : Prop :=
  ∀ accepts,
    (endState (vncEvtKey evt (s.answering accepts))).keyboard.injected = s.keyboard.injected

/-- The codes an event injects in ASCII and MAC modes. -/
def asciiCodes (evt : VNCKeyEvent) : List UInt8 :=
  if keysymToMacroman evt.key > 127 ∨ evt.down = 0 then [] else [keysymToMacroman evt.key]

theorem vncEvtKeyAscii_eq (evt : VNCKeyEvent)
    : vncEvtKeyAscii evt = run doKey (asciiCodes evt) := by
  rw [vncEvtKeyAscii, asciiCodes]
  by_cases large : keysymToMacroman evt.key > 127
  · simp only [large, true_or, if_true]
    rfl
  · by_cases down : evt.down = 0
    · simp only [large, down, or_true, if_true, if_false, ne_eq, not_true]
      rfl
    · simp only [large, down, or_self, if_false, ne_eq, not_false_eq_true, if_true]
      rfl

/-- The codes of an event that finds the keyboard in a mode. -/
def codesIn (mode : KeyMode) (state : KchrState) (evt : VNCKeyEvent) : List UInt8 :=
  match mode with
  | .araw => arawCodes state evt
  | .ascii | .mac => asciiCodes evt
  | .other _ => []

/-- No answer of the driver lets codes be injected exactly when there are none. -/
theorem run_doKey_nothing_iff (codes : List UInt8) (s : KeySession)
    : (∀ accepts, (endState (run doKey codes (s.answering accepts))).keyboard.injected
        = s.keyboard.injected)
      ↔ codes = [] := by
  constructor
  · intro nothing
    have accepting : (s.answering fun _ _ => true).Accepting := fun _ _ => rfl
    have total : Total KeySession.Accepting (run doKey codes) :=
      run_total fun code _ => doKey_total code
    obtain ⟨_, s', returned, _⟩ := total (s.answering fun _ _ => true) accepting
    have injected := (run_doKey_ok returned).injected
    have same := nothing fun _ _ => true
    rw [returned] at same
    rw [show s'.keyboard.injected = _ from same] at injected
    exact List.append_right_eq_self.mp injected.symm
  · rintro rfl accepts
    rfl

theorem kbMode_ok {s : KeySession} {mode : KeyMode}
    (read : s.keyboard.mode s.keyboard.modeReads = some mode)
    : kbMode s = .ok mode s.modeRead := by
  simp only [kbMode, read]

theorem kbMode_error {s : KeySession} (read : s.keyboard.mode s.keyboard.modeReads = none)
    : kbMode s = .error .keyboardIoctlFailed s.modeRead := by
  simp only [kbMode, read]

/-- Asking for the mode once more injects nothing. -/
theorem discardMode_injected (s : KeySession)
    : (endState ((discard kbMode : Keys Unit) s)).keyboard.injected = s.keyboard.injected := by
  have known : (discard kbMode : Keys Unit) = (kbMode >>= fun _ => pure ()) := rfl
  cases read : s.keyboard.mode s.keyboard.modeReads with
  | none =>
      rw [known, bind_error (kbMode_error read)]
      rfl
  | some mode =>
      rw [known, bind_ok (kbMode_ok read)]
      rfl

/-- An event injects the codes of its mode, if it is one that is told apart. -/
theorem vncEvtKey_codes (evt : VNCKeyEvent) {s : KeySession} {mode : KeyMode}
    (known : ∀ other, mode ≠ .other other)
    (read : s.keyboard.mode s.keyboard.modeReads = some mode)
    : vncEvtKey evt s = run doKey (codesIn mode s.kchr evt) s.modeRead := by
  have got := kbMode_ok read
  cases mode with
  | araw => exact vncEvtKey_araw evt read
  | ascii =>
      rw [vncEvtKey, bind_ok got]
      exact congrFun (vncEvtKeyAscii_eq evt) _
  | mac =>
      rw [vncEvtKey, bind_ok got]
      exact congrFun (vncEvtKeyAscii_eq evt) _
  | other mode => exact absurd rfl (known mode)

/-- An event injects nothing when its mode cannot be read, or has no codes for it. -/
theorem injectsNothing_iff (evt : VNCKeyEvent) (s : KeySession)
    : InjectsNothing evt s
      ↔ ∀ mode, s.keyboard.mode s.keyboard.modeReads = some mode →
          codesIn mode s.kchr evt = [] := by
  have answers : ∀ mode, (∀ other, mode ≠ .other other)
      → s.keyboard.mode s.keyboard.modeReads = some mode
      → (InjectsNothing evt s ↔ codesIn mode s.kchr evt = []) := by
    intro mode known read
    rw [← run_doKey_nothing_iff _ s.modeRead]
    refine forall_congr' fun accepts => ?_
    have handled := @vncEvtKey_codes evt (s.answering accepts) mode known read
    rw [handled]
    rfl
  cases read : s.keyboard.mode s.keyboard.modeReads with
  | none =>
      refine iff_of_true (fun accepts => ?_) (by simp)
      have failed := @kbMode_error (s.answering accepts) read
      rw [vncEvtKey, bind_error failed]
      rfl
  | some mode =>
      simp only [Option.some.injEq, forall_eq']
      cases mode with
      | araw => exact answers .araw (by simp) read
      | ascii => exact answers .ascii (by simp) read
      | mac => exact answers .mac (by simp) read
      | other mode =>
          refine iff_of_true (fun accepts => ?_) rfl
          have got := @kbMode_ok (s.answering accepts) (.other mode) read
          rw [vncEvtKey, bind_ok got]
          exact discardMode_injected _

/-- The layout has neither a key nor a dead key for the character 0; or its key is that of the
carriage return, and goes up.
-/
def Unmapped (kchr : Mem) (down : UInt8) : Prop :=
  match first (characterAt kchr) (keyPlaces kchr) 0 with
  | some place => down = 0 ∧ place.2 = 0x24
  | none => ∀ pair ∈ deadPairs kchr, pair.substitute ≠ 0

/-- By cases on what the layout has for the character 0. -/
theorem arawCodes_nothing_iff {kchr : Mem} (output : Int → UInt8) {evt : VNCKeyEvent}
    (plain : specialKey? evt.key = none) (unmapped : keysymToMacroman evt.key = 0)
    : arawCodes (builtFrom kchr output) evt = [] ↔ Unmapped kchr evt.down := by
  rw [arawCodes, strokeFor, Unmapped]
  simp only [plain, unmapped]
  cases typed : first (characterAt kchr) (keyPlaces kchr) 0 with
  | some place =>
      obtain ⟨_, _, small⟩ := first_place typed
      have key : UInt8.ofNat place.2 = 0x24 ↔ place.2 = 0x24 := by
        rw [← UInt8.toNat_inj, UInt8.toNat_ofNat', Nat.mod_eq_of_lt (by omega)]
        rfl
      rw [keys_single _ typed]
      by_cases down : evt.down = 0
      all_goals
        by_cases cr : place.2 = 0x24
      all_goals
        simp [down, key, cr, Stroke.downCodes, Keypresses.up, vkeyToKeypresses]
  | none =>
      cases found : first DeadPair.substitute (deadPairs kchr) 0 with
      | some pair =>
          obtain ⟨same, before, rest, split, _⟩ := first_eq_some found
          have listed : pair ∈ deadPairs kchr := by simp [split]
          refine iff_of_false ?_ fun never => never pair listed same
          rw [keys_dead _ typed found]
          by_cases down : evt.down = 0
          all_goals simp [down, Stroke.downCodes, Keypresses.up, vkeyToKeypresses]
      | none =>
          refine iff_of_true ?_ (first_eq_none_iff.mp found)
          rw [keys_nothing _ typed found]
          by_cases down : evt.down = 0
          all_goals simp [down, Stroke.downCodes, Keypresses.up, vkeyToKeypresses]

/-- A key event without a character injects nothing exactly when its mode has nothing for the
character 0: no key-down in ASCII and MAC modes, and in ARAW mode no key or dead key for it in the
layout, but for the key-up of a carriage return.
-/
theorem unmapped_injectsNothing_iff (chunks : Nat → Option Mem) (stack data : Mem)
    (state : KchrState) (evt : VNCKeyEvent) (s : KeySession)
    (loaded : s.kchr = kchrLoad chunks stack data state)
    (unmapped : keysymToMacroman evt.key = 0)
    (plain
      : s.keyboard.mode s.keyboard.modeReads = some .araw → specialKey? evt.key = none)
    : InjectsNothing evt s
      ↔ match s.keyboard.mode s.keyboard.modeReads with
        | some .araw => Unmapped (grabKchr chunks stack data 32).1 evt.down
        | some .ascii | some .mac => evt.down = 0
        | some (.other _) | none => True := by
  have built : kchrLoad chunks stack data state
      = builtFrom (grabKchr chunks stack data 32).1 state.modifiers := rfl
  have ascii : asciiCodes evt = [] ↔ evt.down = 0 := by
    rw [asciiCodes, unmapped]
    by_cases down : evt.down = 0 <;> simp [down]
  rw [injectsNothing_iff, loaded, built]
  cases read : s.keyboard.mode s.keyboard.modeReads with
  | none => simp
  | some mode =>
      simp only [Option.some.injEq, forall_eq']
      cases mode with
      | araw => exact arawCodes_nothing_iff _ (plain read) unmapped
      | ascii => exact ascii
      | mac => exact ascii
      | other mode => simp [codesIn]

/-- The chunks of a layout with one key table, which is empty: its first key has the character 0. -/
def emptyTable (chunk : Nat) : Option Mem :=
  some fun i => if chunk * 96 + i = 0x103 then 1 else 0

/-- A session whose keyboard is in a mode, with this layout. -/
def blankKeyboard (mode : KeyMode) : KeySession :=
  { arawSession (kchrLoad emptyTable (fun _ => 0) (fun _ => 0) .zeroed) with
    keyboard := ⟨fun _ => some mode, 0, fun _ _ => true, []⟩ }

theorem blankKeyboard_kchr (mode : KeyMode)
    : (blankKeyboard mode).kchr = kchrLoad emptyTable (fun _ => 0) (fun _ => 0) .zeroed := by
  rw [blankKeyboard, arawSession]

/-- A function key in ARAW mode injects this key. -/
theorem unmapped_injectsNothing_iff_function
    : ¬InjectsNothing (keyEvent 0xffbe 1) (blankKeyboard .araw) := by
  intro nothing
  have character : keysymToMacroman (keyEvent 0xffbe 1).key = 0 := by decide
  have plain : specialKey? (keyEvent 0xffbe 1).key = none := by decide
  rw [unmapped_injectsNothing_iff emptyTable (fun _ => 0) (fun _ => 0) .zeroed
    (keyEvent 0xffbe 1) (blankKeyboard .araw) (blankKeyboard_kchr .araw) character fun _ => plain]
    at nothing
  have typed : first (characterAt (grabKchr emptyTable (fun _ => 0) (fun _ => 0) 32).1)
      (keyPlaces (grabKchr emptyTable (fun _ => 0) (fun _ => 0) 32).1) 0 = some (0, 0) := by
    decide +kernel
  simp only [blankKeyboard, Unmapped, typed] at nothing
  exact absurd nothing.1 (by decide)

/-- The shift key alone, in ASCII mode, injects the code 0. -/
theorem shift_injects
    : keysymToMacroman xkShiftL = 0
      ∧ ¬InjectsNothing (keyEvent xkShiftL 1) (blankKeyboard .ascii) := by
  refine ⟨by decide, fun nothing => ?_⟩
  have codes := (injectsNothing_iff _ _).mp nothing .ascii rfl
  exact absurd codes (by decide)

end MiniVnc
