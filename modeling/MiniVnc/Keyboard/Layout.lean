import MiniVnc.Keyboard.Kchr
import MiniVnc.Keyboard.Keysyms
import MiniVnc.Library.FirstMatch

/-! What a KCHR means: the characters of its keys, its dead keys, and what a sequence of key
codes types through it.
-/

namespace MiniVnc
open Library.Memory Library.Loop Library.FirstMatch

/-- The character of a key in a table. -/
def characterOf (kchr : Mem) (table keycode : Nat) : UInt8 :=
  kchr (charTables + table * 0x80 + keycode)

/-- The keys of all tables in reading order, each with its table. -/
def keyPlaces (kchr : Mem) : List (Nat × Nat) :=
  (List.range (tableCount kchr)).flatMap fun table =>
    (List.range 0x80).map fun keycode => (table, keycode)

/-- The character at a place. -/
def characterAt (kchr : Mem) (place : Nat × Nat) : UInt8 := characterOf kchr place.1 place.2

/-- A completor of a dead key, with the character that substitutes the two. -/
structure DeadPair where
  table : UInt8
  keycode : UInt8
  completor : UInt8
  substitute : UInt8
deriving Repr, DecidableEq

/-- The completors of the dead key whose record starts at `cursor`. -/
def deadPairsAt (kchr : Mem) (cursor count : Nat) : List DeadPair :=
  (List.range count).map fun j =>
    ⟨kchr cursor, kchr (cursor + 1), kchr (cursor + 4 + 2 * j), kchr (cursor + 4 + 2 * j + 1)⟩

/-- How many dead keys there are. -/
def deadCount (kchr : Mem) : Nat := countAt kchr (deadKeys kchr)

/-- Where the record of a dead key starts. Each ends with its two-byte no match char. -/
def deadRecord (kchr : Mem) : Nat → Nat
  | 0 => deadKeys kchr + 2
  | i + 1 => deadRecord kchr i + 4 + 2 * countAt kchr (deadRecord kchr i + 2) + 2

/-- The completors of all dead keys in reading order. -/
def deadPairs (kchr : Mem) : List DeadPair :=
  (List.range (deadCount kchr)).flatMap fun i =>
    deadPairsAt kchr (deadRecord kchr i) (countAt kchr (deadRecord kchr i + 2))

/-- Some record is for this key of this table. -/
def IsDeadKey (kchr : Mem) (table keycode : UInt8) : Prop :=
  ∃ i < deadCount kchr,
    kchr (deadRecord kchr i) = table ∧ kchr (deadRecord kchr i + 1) = keycode

instance (kchr : Mem) (table keycode : UInt8) : Decidable (IsDeadKey kchr table keycode) :=
  inferInstanceAs (Decidable (∃ i < deadCount kchr, _))

/-- What a dead key and a completor give: the substitute of their first pair. -/
def substituteFor (kchr : Mem) (table keycode completor : UInt8) : Option UInt8 :=
  ((deadPairs kchr).find? fun pair =>
    pair.table = table ∧ pair.keycode = keycode ∧ pair.completor = completor).map
      DeadPair.substitute

/-- The bit of `modifiers` that a modifier key stands for. -/
def modifierBit (keycode : UInt8) : Option UInt8 :=
  if keycode = KeyCode.command then some kchrCmdKey
  else if keycode = KeyCode.shift then some kchrShiftKey
  else if keycode = KeyCode.lock then some kchrLockKey
  else if keycode = KeyCode.option then some kchrOptionKey
  else if keycode = KeyCode.ctrl then some kchrCtrlKey
  else none

/-- A KCHR whose parts fit together. -/
structure WellFormed (kchr : Mem) : Prop where
  someTable : 1 ≤ tableCount kchr
  fewTables : tableCount kchr ≤ kchrNtables
  fits : deadRecord kchr (deadCount kchr) ≤ 3072
  selects : ∀ modifiers < 0x80, (kchr (2 + modifiers)).toNat < tableCount kchr
  selected : ∀ table < tableCount kchr, ∃ modifiers < 32, (kchr (2 + modifiers)).toNat = table
  deadTable : ∀ i < deadCount kchr, (kchr (deadRecord kchr i)).toNat < tableCount kchr
  deadKeycode
    : ∀ i < deadCount kchr, (kchr (deadRecord kchr i + 1)).toNat < 0x80
        ∧ modifierBit (kchr (deadRecord kchr i + 1)) = none
  deadSilent
    : ∀ i < deadCount kchr,
        characterOf kchr (kchr (deadRecord kchr i)).toNat (kchr (deadRecord kchr i + 1)).toNat
          = 0
  completors
    : ∀ pair ∈ deadPairs kchr, pair.completor ≠ 0
        ∧ ∃ place ∈ keyPlaces kchr, characterAt kchr place = pair.completor
  modifierKeys
    : ∀ table < tableCount kchr, ∀ keycode : UInt8, modifierBit keycode ≠ none →
        characterOf kchr table keycode.toNat = 0

-----------------------------------------------------------------------------------------
-- Typing
-----------------------------------------------------------------------------------------

/-- The state of the keyboard a KCHR is used with: the modifiers held, the dead key that waits
for its completor, and the characters typed so far.
-/
structure Typist where
  modifiers : UInt8
  dead : Option (UInt8 × UInt8)
  typed : List UInt8
deriving Repr, DecidableEq

/-- No key held and nothing typed. -/
def Typist.idle : Typist := ⟨0, none, []⟩

/-- What a character types after the dead key that waits for it, if there is one. -/
def completed (kchr : Mem) (dead : Option (UInt8 × UInt8)) (character : UInt8) : UInt8 :=
  match dead with
  | none => character
  | some (table, keycode) => (substituteFor kchr table keycode character).getD character

/-- A key that is not a modifier goes down. A key without a character may be a dead key; a key
with one completes the dead key before it, or types its own character.
-/
def Typist.strike (kchr : Mem) (keycode : UInt8) (typist : Typist) : Typist :=
  let table := kchr (2 + typist.modifiers.toNat)
  let character := characterOf kchr table.toNat keycode.toNat
  if character = 0 then
    if IsDeadKey kchr table keycode then { typist with dead := some (table, keycode) }
    else typist
  else
    { typist with dead := none, typed := typist.typed ++ [completed kchr typist.dead character] }

/-- A key code arrives; the top bit says that the key goes up. -/
def Typist.code (kchr : Mem) (typist : Typist) (code : UInt8) : Typist :=
  if code < 0x80 then
    match modifierBit code with
    | some bit => { typist with modifiers := typist.modifiers ||| bit }
    | none => typist.strike kchr code
  else
    match modifierBit (code &&& 0x7f) with
    | some bit => { typist with modifiers := typist.modifiers &&& ~~~bit }
    | none => typist

/-- The codes arrive one after another. -/
def Typist.codes (kchr : Mem) (typist : Typist) (codes : List UInt8) : Typist :=
  codes.foldl (Typist.code kchr) typist

end MiniVnc
