import MiniVnc.Keyboard.KeyEvents

/-! What key events inject in ARAW mode. Every keysym has a stroke: keys that its key-down taps,
and keys that it holds until the key-up.
-/

namespace MiniVnc
open Library.Stream

/-- The keys of a keysym: those pressed and released by the key-down, and those that stay down
until the key-up.
-/
structure Stroke where
  tapped : Keypresses
  held : Keypresses
deriving Repr, DecidableEq

/-- The codes for releasing the keys. -/
def Keypresses.up (kp : Keypresses) : List UInt8 := kp.keys.reverse.map (· ||| 0x80)

/-- Special keys and single characters are held, but a carriage return is only tapped. Of a two
key sequence the first is tapped and the second held.
-/
def strokeFor (state : KchrState) (keysym : UInt32) : Stroke :=
  match specialKey? keysym with
  | some key => ⟨.empty, rawKeypress key⟩
  | none =>
      let kc := kchrKeysForChar state (keysymToMacroman keysym)
      if kc.snd.valid ≠ 0 then ⟨vkeyToKeypresses kc.fst, vkeyToKeypresses kc.snd⟩
      else if kc.fst.keycode = 0x24 then ⟨vkeyToKeypresses kc.fst, .empty⟩
      else ⟨.empty, vkeyToKeypresses kc.fst⟩

def Stroke.downCodes (stroke : Stroke) : List UInt8 :=
  stroke.tapped.keys ++ stroke.tapped.up ++ stroke.held.keys

/-- The codes an event injects in ARAW mode. -/
def arawCodes (state : KchrState) (evt : VNCKeyEvent) : List UInt8 :=
  if evt.down ≠ 0 then (strokeFor state evt.key).downCodes else (strokeFor state evt.key).held.up

theorem doKeyUp_eq (kp : Keypresses) : doKeyUp kp = run doKey kp.up :=
  (run_map ..).symm

@[simp]
theorem Keypresses.empty_keys : Keypresses.empty.keys = [] :=
  rfl

@[simp]
theorem doKeyDown_empty : doKeyDown .empty = pure () :=
  rfl

@[simp]
theorem doKeyUp_empty : doKeyUp .empty = pure () :=
  rfl

/-- A key-down taps the one keys and holds the others. -/
theorem run_downCodes (stroke : Stroke)
    : run doKey stroke.downCodes
      = (do
          doKeyDown stroke.tapped
          doKeyUp stroke.tapped
          doKeyDown stroke.held) := by
  rw [Stroke.downCodes, run_append, run_append, ← doKeyUp_eq, bind_assoc]
  rfl

/-- `vnc_evt_key_araw` injects the codes of the event and does nothing else, by cases on the
kind of the keysym.
-/
theorem vncEvtKeyAraw_eq (evt : VNCKeyEvent) (s : KeySession)
    : vncEvtKeyAraw evt s = run doKey (arawCodes s.kchr evt) s := by
  simp only [arawCodes, apply_ite (run doKey), run_downCodes, ← doKeyUp_eq]
  rw [vncEvtKeyAraw, strokeFor, keysymSpecialToKeypresses]
  cases special : specialKey? evt.key with
  | some key => by_cases down : evt.down = 0 <;> simp [down, rawKeypress]
  | none =>
      simp only [Keypresses.empty_keys, List.length_nil, ne_eq, not_true]
      by_cases two : (kchrKeysForChar s.kchr (keysymToMacroman evt.key)).snd.valid = 0
      · by_cases down : evt.down = 0
        all_goals
          by_cases cr : (kchrKeysForChar s.kchr (keysymToMacroman evt.key)).fst.keycode = 0x24
        all_goals simp [two, cr, down]
      · by_cases down : evt.down = 0 <;> simp [two, down]

/-- The keyboard stays in ARAW mode. -/
abbrev KeySession.InAraw (s : KeySession) : Prop := ∀ n, s.keyboard.mode n = some .araw

/-- The keyboard accepts every code. -/
abbrev KeySession.Accepting (s : KeySession) : Prop := ∀ n code, s.keyboard.accepts n code = true

/-- Between the two states the codes have been injected. -/
structure Injected (s : KeySession) (codes : List UInt8) (s' : KeySession) : Prop where
  kchr : s'.kchr = s.kchr
  mode : s'.keyboard.mode = s.keyboard.mode
  accepts : s'.keyboard.accepts = s.keyboard.accepts
  injected : s'.keyboard.injected = s.keyboard.injected ++ codes

theorem Injected.nothing (s : KeySession) : Injected s [] s :=
  ⟨rfl, rfl, rfl, (List.append_nil _).symm⟩

theorem Injected.append {s middle s' : KeySession} {codes more : List UInt8}
    (first : Injected s codes middle) (rest : Injected middle more s')
    : Injected s (codes ++ more) s' where
  kchr := rest.kchr.trans first.kchr
  mode := rest.mode.trans first.mode
  accepts := rest.accepts.trans first.accepts
  injected := by rw [rest.injected, first.injected, List.append_assoc]

theorem doKey_ok {code : UInt8} {s s' : KeySession} (h : doKey code s = .ok () s')
    : Injected s [code] s' := by
  rw [doKey] at h
  split at h
  · cases h
    exact ⟨rfl, rfl, rfl, rfl⟩
  · cases h

/-- Codes are injected one after another, by induction on them. -/
theorem run_doKey_ok {codes : List UInt8} {s s' : KeySession} (h : run doKey codes s = .ok () s')
    : Injected s codes s' := by
  induction codes generalizing s with
  | nil =>
      cases h
      exact .nothing _
  | cons code rest ih =>
      obtain ⟨_, middle, first, later⟩ := bind_eq_ok.mp h
      exact (doKey_ok first).append (ih later)

theorem Injected.modeRead (s : KeySession) : Injected s [] s.modeRead :=
  ⟨rfl, rfl, rfl, (List.append_nil _).symm⟩

/-- In ARAW mode an event is left to `vnc_evt_key_araw`. -/
theorem vncEvtKey_araw (evt : VNCKeyEvent) {s : KeySession}
    (araw : s.keyboard.mode s.keyboard.modeReads = some .araw)
    : vncEvtKey evt s = run doKey (arawCodes s.kchr evt) s.modeRead := by
  have mode : kbMode s = .ok .araw s.modeRead := by
    simp only [kbMode, araw]
  rw [vncEvtKey, bind_ok mode]
  exact vncEvtKeyAraw_eq evt s.modeRead

theorem vncEvtKey_eq (evt : VNCKeyEvent) {s : KeySession} (araw : s.InAraw)
    : vncEvtKey evt s = run doKey (arawCodes s.kchr evt) s.modeRead :=
  vncEvtKey_araw evt (araw _)

theorem vncEvtKey_ok {evt : VNCKeyEvent} {s s' : KeySession} (araw : s.InAraw)
    (h : vncEvtKey evt s = .ok () s')
    : Injected s (arawCodes s.kchr evt) s' := by
  rw [vncEvtKey_eq evt araw] at h
  exact (Injected.modeRead s).append (run_doKey_ok h)

/-- A sequence of events injects the codes of one event after another. -/
theorem run_vncEvtKey_ok {events : List VNCKeyEvent} {s s' : KeySession} (araw : s.InAraw)
    (h : run vncEvtKey events s = .ok () s')
    : Injected s (events.flatMap (arawCodes s.kchr)) s' := by
  induction events generalizing s with
  | nil =>
      cases h
      exact .nothing _
  | cons evt rest ih =>
      obtain ⟨_, middle, first, later⟩ := bind_eq_ok.mp h
      have injected := vncEvtKey_ok araw first
      have still : middle.InAraw := fun n => (congrFun injected.mode n).trans (araw n)
      have tail := ih still later
      rw [injected.kchr] at tail
      exact injected.append tail

theorem doKey_total (code : UInt8) : Total KeySession.Accepting (doKey code) := by
  intro s accepting
  refine ⟨(), _, if_pos (accepting _ _), accepting⟩

/-- An event is handled as long as the keyboard accepts every code. -/
theorem vncEvtKey_total (evt : VNCKeyEvent)
    : Total (fun s => s.InAraw ∧ s.Accepting) (vncEvtKey evt) := by
  intro s ready
  rcases ready with ⟨araw, accepting⟩
  obtain ⟨_, s', returned, accepting'⟩ :=
    run_total (fun code _ => doKey_total code) s.modeRead accepting
  rw [← vncEvtKey_eq evt araw] at returned
  have injected := vncEvtKey_ok araw returned
  exact ⟨(), s', returned, fun n => (congrFun injected.mode n).trans (araw n), accepting'⟩

end MiniVnc
