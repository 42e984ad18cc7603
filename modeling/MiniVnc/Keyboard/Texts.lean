import MiniVnc.Keyboard.Typing

/-! Typing whole texts: characters that are pressed and released one after another are typed as they
are, and leave the keyboard as it was.
-/

namespace MiniVnc
open Library.Memory Library.Loop Library.FirstMatch Library.Stream

/-- The key events press and release the keys of a text, one after another. -/
inductive PressesText : List UInt32 → List VNCKeyEvent → Prop
  | nil : PressesText [] []
  | char {press release text events} (same : release.key = press.key) (down : press.down ≠ 0)
    (up : release.down = 0) (rest : PressesText text events)
    : PressesText (press.key :: text) (press :: release :: events)

/-- The keysym has a character that is typed as it is on this layout. -/
structure CanType (kchr : Mem) (keysym : UInt32) : Prop where
  ordinary : specialKey? keysym = none
  nonzero : keysymToMacroman keysym ≠ 0
  typeable : Typeable kchr (keysymToMacroman keysym)
  clear : ¬Shadowed kchr (keysymToMacroman keysym)

section Strokes

variable {state : KchrState} {kchr : Mem} (inverts : Inverts state kchr)
  (wellFormed : WellFormed kchr)
include inverts wellFormed

/-- Pressing and releasing the key of a character types it, and leaves the keyboard idle. -/
theorem CanType.stroke {keysym : UInt32} (can : CanType kchr keysym) {typist : Typist}
    (idle : typist.modifiers = 0 ∧ typist.dead = none)
    : typist.codes kchr
          ((strokeFor state keysym).downCodes ++ (strokeFor state keysym).held.up)
        = { typist with typed := typist.typed ++ [keysymToMacroman keysym] } := by
  have same := (typedFor_eq_iff can.typeable).mpr can.clear
  rw [typedFor] at same
  cases onKey : first (characterAt kchr) (keyPlaces kchr) (keysymToMacroman keysym) with
  | some place =>
      have occurs := first_isSome_iff.mp (Option.isSome_iff_exists.mpr ⟨place, onKey⟩)
      exact character_stroke inverts wellFormed can.ordinary can.nonzero occurs idle
  | none =>
      have absent := first_eq_none_iff.mp onKey
      have given : ∃ pair ∈ deadPairs kchr, pair.substitute = keysymToMacroman keysym := by
        rcases can.typeable with ⟨place, member, same⟩ | given
        · exact absurd same (absent place member)
        · exact given
      obtain ⟨pair, found⟩ := Option.isSome_iff_exists.mp (first_isSome_iff.mpr given)
      rw [onKey, found] at same
      have typed : completed kchr (some (pair.table, pair.keycode)) pair.completor
          = keysymToMacroman keysym := same
      rw [substitute_stroke inverts wellFormed can.ordinary absent found idle, typed]

/-- A text is typed as it is, by induction on its characters. -/
theorem PressesText.typed {text : List UInt32} {events : List VNCKeyEvent}
    (presses : PressesText text events) (can : ∀ keysym ∈ text, CanType kchr keysym)
    {typist : Typist}
    (idle : typist.modifiers = 0 ∧ typist.dead = none)
    : typist.codes kchr (events.flatMap (arawCodes state))
      = { typist with typed := typist.typed ++ text.map keysymToMacroman } := by
  induction presses generalizing typist with
  | nil => simp [Typist.codes]
  | @char press release text events same down up rest ih =>
      have codes : (press :: release :: events).flatMap (arawCodes state)
          = ((strokeFor state press.key).downCodes ++ (strokeFor state press.key).held.up)
            ++ events.flatMap (arawCodes state) := by
        rw [List.flatMap_cons, List.flatMap_cons, arawCodes, if_pos down, arawCodes,
          if_neg (not_not.mpr up), same, List.append_assoc]
      have later := @ih (fun keysym member => can keysym (by simp [member]))
        { typist with typed := typist.typed ++ [keysymToMacroman press.key] } idle
      rw [codes, Typist.codes_append, (can press.key (by simp)).stroke inverts wellFormed idle,
        later]
      simp

end Strokes

end MiniVnc
