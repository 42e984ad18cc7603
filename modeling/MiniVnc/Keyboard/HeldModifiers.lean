import MiniVnc.Keyboard.HeldKeys

/-! Modifiers that the client holds. Nothing keeps track of them: an event that presses a modifier
key for a character of its own releases it as well.
-/

namespace MiniVnc
open Library.Stream Library.Switches

/-- The last code is the one that releases the key. -/
def Keypresses.Drops (kp : Keypresses) (key : UInt8) : Prop :=
  kp.keys.getLast? = some (key ||| 0x80)

instance (kp : Keypresses) (key : UInt8) : Decidable (kp.Drops key) :=
  inferInstanceAs (Decidable (_ = _))

/-- The event lets go of the key: it is the key-up of a keysym that holds it, or a key-down that
only taps it, or one that drops it.
-/
def LetsGo (state : KchrState) (key : UInt8) (evt : VNCKeyEvent) : Prop :=
  if evt.down = 0 then
    (strokeFor state evt.key).held.Uses key
  else
    (strokeFor state evt.key).held.Drops key
      ∨ (strokeFor state evt.key).tapped.Uses key ∧ ¬ (strokeFor state evt.key).held.Uses key

instance (state : KchrState) (key : UInt8) (evt : VNCKeyEvent)
    : Decidable (LetsGo state key evt) :=
  inferInstanceAs (Decidable (ite (evt.down = 0) _ (_ ∨ _)))

/-- Every code but the last puts a key down. -/
def Keypresses.Plain (kp : Keypresses) : Prop := ∀ code ∈ kp.keys.dropLast, code < 0x80

theorem modifierKeys_plain {modifiers code : UInt8} (member : code ∈ modifierKeys modifiers)
    : code < 0x80 := by
  obtain ⟨bit, inside, rfl⟩ := List.mem_map.mp member
  have all : modifierBits.all fun bit => bit.2 < 0x80 := by decide
  exact of_decide_eq_true (List.all_eq_true.mp all bit (List.mem_filter.mp inside).1)

theorem vkeyToKeypresses_plain (vk : KchrVkeypress) : (vkeyToKeypresses vk).Plain := by
  intro code member
  rw [vkeyToKeypresses] at member
  split at member
  · cases member
  · rw [List.dropLast_concat] at member
    exact modifierKeys_plain member

/-- The held keys of every stroke are plain, by cases on the kind of the keysym. -/
theorem strokeFor_plain (state : KchrState) (keysym : UInt32)
    : (strokeFor state keysym).held.Plain := by
  rw [strokeFor]
  cases specialKey? keysym with
  | some key =>
      intro code member
      cases member
  | none =>
      dsimp only
      split
      · exact vkeyToKeypresses_plain _
      · split
        · intro code member
          cases member
        · exact vkeyToKeypresses_plain _

theorem release_split : ∀ code : UInt8, ¬ code < 0x80 → code = (code &&& 0x7f) ||| 0x80 :=
  forall_byte (by decide +kernel)

/-- Plain keypresses end with the release of a key exactly when they drop it. -/
theorem Keypresses.Plain.last?_off_iff {kp : Keypresses} (plain : kp.Plain) {key : UInt8}
    (ordinary : key < 0x80)
    : last? (kp.keys.map keyOp) key = some false ↔ kp.Drops key := by
  rw [Keypresses.Drops]
  rcases List.eq_nil_or_concat kp.keys with none | ⟨earlier, code, split⟩
  · simp [none]
  · rw [Keypresses.Plain, split, List.concat_eq_append, List.dropLast_concat] at plain
    rw [split, List.concat_eq_append, List.map_append, last?_append, List.map_singleton,
      last?_singleton, keyOp_key, keyOp_isOn, List.getLast?_concat, Option.some_inj]
    by_cases same : code &&& 0x7f = key
    · subst same
      by_cases pressed : code < 0x80
      · have other : code ≠ (code &&& 0x7f) ||| 0x80 := by
          intro release
          exact (release_key _ ordinary).2 (release ▸ pressed)
        simp [pressed, other]
      · simp [pressed, ← release_split code pressed]
    · have other : code ≠ key ||| 0x80 := by
        intro same
        rcases same with rfl
        exact same (release_key key ordinary).1
      have before : last? (earlier.map keyOp) key ≠ some false := by
        intro last
        obtain ⟨op, member, _, off⟩ := last?_mem last
        obtain ⟨code', inside, rfl⟩ := List.mem_map.mp member
        rw [keyOp_isOn, decide_eq_false_iff_not] at off
        exact off (plain code' inside)
      simp [same, other, before]

/-- The last operation of an event on a key is a release exactly when it lets go of it. -/
theorem last?_keyOps_off_iff {state : KchrState} {evt : VNCKeyEvent} {key : UInt8}
    (ordinary : key < 0x80)
    : last? (keyOps state evt) key = some false ↔ LetsGo state key evt := by
  have plain := strokeFor_plain state evt.key
  rw [LetsGo]
  by_cases down : evt.down = 0
  · rw [last?_keyOps_up down, if_pos down]
    simp
  · rw [last?_keyOps_down down, if_neg down, ← plain.last?_off_iff ordinary]
    by_cases held : (strokeFor state evt.key).held.Uses key
    · simp [held]
    · simp [held, last?_keys_eq_none_iff.mpr held]

/-- Special keys are ordinary key codes: those of the table, and the ten digits. -/
theorem specialKey?_ordinary {keysym : UInt32} {key : UInt8}
    (special : specialKey? keysym = some key)
    : key < 0x80 := by
  rw [specialKey?] at special
  split at special
  · next keypad =>
      have low : 0xffb0 ≤ keysym.toNat := UInt32.le_iff_toNat_le.mp keypad.1
      have high : keysym.toNat ≤ 0xffb9 := UInt32.le_iff_toNat_le.mp keypad.2
      have base : xkKp0.toNat = 0xffb0 := rfl
      have first : KeyCode.kp0.toNat = 0x52 := rfl
      rw [← Option.some_inj.mp special, UInt8.lt_iff_toNat_lt, UInt8.toNat_add,
        UInt32.toNat_toUInt8, UInt32.toNat_sub_of_le _ _ keypad.1, base, first]
      change _ < 128
      omega
  · obtain ⟨before, rest, split, _⟩ := List.lookup_eq_some_iff.mp special
    have all : specialKeys.all fun entry => entry.2 < 0x80 := by decide
    exact of_decide_eq_true (List.all_eq_true.mp all (keysym, key) (by simp [split]))

/-- The key-down of a special keysym leaves its key down. -/
theorem last?_keyOps_special {state : KchrState} {press : VNCKeyEvent} {key : UInt8}
    (special : specialKey? press.key = some key) (down : press.down ≠ 0)
    : last? (keyOps state press) key = some true := by
  have ordinary := specialKey?_ordinary special
  have plain : ∀ key : UInt8, key < 0x80 → key &&& 0x7f = key := forall_byte (by decide +kernel)
  rw [last?_keyOps_down down, strokeFor, special]
  simp [rawKeypress, Keypresses.Uses, plain key ordinary, last?_singleton, keyOp_key, keyOp_isOn,
    ordinary]

/-- A special key that the client has pressed, such as a modifier, is down after every event from
then on exactly when none of these events lets go of it. Only the last operation of each event on
the key matters.
-/
theorem heldKey_stays_iff {s final : KeySession} (araw : s.InAraw) (before : List VNCKeyEvent)
    (press : VNCKeyEvent) (following : List VNCKeyEvent) {key : UInt8}
    (special : specialKey? press.key = some key) (down : press.down ≠ 0)
    (handled : run vncEvtKey (before ++ press :: following) s = .ok () final)
    : (∀ part later, part <+: following →
          run vncEvtKey (before ++ press :: part) s = .ok () later →
            keyDown later.keyboard.injected key = true)
      ↔ ∀ evt ∈ following, ¬ LetsGo s.kchr key evt := by
  let pressed :=
    after (keyDown s.keyboard.injected) ((before ++ [press]).flatMap (keyOps s.kchr))
  have on : pressed key = true := by
    change after _ _ key = true
    rw [after_eq, List.flatMap_append, last?_append, List.flatMap_singleton,
      last?_keyOps_special special down]
    rfl
  have leaves : ∀ part later, run vncEvtKey (before ++ press :: part) s = .ok () later →
      keyDown later.keyboard.injected key
        = after pressed (part.flatMap (keyOps s.kchr)) key := by
    intro part later returned
    rw [keyDown_run araw returned, ← after_append, ← List.flatMap_append, List.append_assoc]
    rfl
  have returns : ∀ part, part <+: following →
      ∃ later, run vncEvtKey (before ++ press :: part) s = .ok () later := by
    intro part initial
    rcases initial with ⟨rest, rfl⟩
    have split : before ++ press :: (part ++ rest) = (before ++ press :: part) ++ rest := by simp
    rw [split, run_append] at handled
    obtain ⟨_, later, returned, _⟩ := bind_eq_ok.mp handled
    exact ⟨later, returned⟩
  have blocks
      : (∀ part, part <+: following → after pressed (part.flatMap (keyOps s.kchr)) key = true)
        ↔ ∀ evt ∈ following, ¬ LetsGo s.kchr key evt := by
    simp only [← last?_keyOps_off_iff (specialKey?_ordinary special)]
    exact stays_on_iff on
  rw [← blocks]
  constructor
  · intro stays part initial
    obtain ⟨later, returned⟩ := returns part initial
    rw [← leaves part later returned]
    exact stays part later initial returned
  · intro stays part later initial returned
    rw [leaves part later returned]
    exact stays part initial

/-- A held shift key stays down while `a` is typed. -/
theorem heldKey_stays_iff_plainA
    : ∃ final, run vncEvtKey [keyEvent xkShiftL 1, keyEvent 0x61 1, keyEvent 0x61 0]
          (arawSession oneKeyLayout) = .ok () final
        ∧ keyDown final.keyboard.injected KeyCode.shift = true := by
  have shift : specialKey? (keyEvent xkShiftL 1).key = some KeyCode.shift := by decide
  obtain ⟨final, returned⟩ := arawSession_handles oneKeyLayout
    [keyEvent xkShiftL 1, keyEvent 0x61 1, keyEvent 0x61 0]
  have stays := heldKey_stays_iff (fun _ => rfl) [] (keyEvent xkShiftL 1)
    [keyEvent 0x61 1, keyEvent 0x61 0] shift (by decide) returned
  exact ⟨final, returned, stays.mpr (by decide) _ final (List.prefix_refl _) returned⟩

/-- A held shift key does not survive the key-up of `A`, which holds it as well. -/
theorem heldShift_released
    : ∃ final, run vncEvtKey [keyEvent xkShiftL 1, keyEvent 0x41 1, keyEvent 0x41 0]
          (arawSession oneKeyLayout) = .ok () final
        ∧ (arawSession oneKeyLayout).InAraw
        ∧ specialKey? xkShiftL = some KeyCode.shift
        ∧ specialKey? 0x41 ≠ some KeyCode.shift
        ∧ keyDown final.keyboard.injected KeyCode.shift = false := by
  obtain ⟨final, returned⟩ := arawSession_handles oneKeyLayout
    [keyEvent xkShiftL 1, keyEvent 0x41 1, keyEvent 0x41 0]
  refine ⟨final, returned, fun _ => rfl, by decide, by decide, ?_⟩
  rw [keyDown_run (fun _ => rfl) returned]
  decide

end MiniVnc
