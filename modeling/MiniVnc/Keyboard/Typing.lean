import MiniVnc.Keyboard.HeldKeys
import MiniVnc.Keyboard.Inverse

/-! Typing end to end: the codes injected for a character, read forward through the KCHR they were
found in, type this character.
-/

namespace MiniVnc
open Library.Memory Library.Loop Library.FirstMatch Library.Stream

/-- What a code does to the modifiers held. -/
def heldAfter (modifiers code : UInt8) : UInt8 :=
  if code < 0x80 then modifiers ||| (modifierBit code).getD 0
  else modifiers &&& ~~~((modifierBit (code &&& 0x7f)).getD 0)

/-- A code that strikes no key: a modifier key goes down, or any key goes up. -/
def Strikeless (code : UInt8) : Prop := ¬ code < 0x80 ∨ modifierBit code ≠ none

instance (code : UInt8) : Decidable (Strikeless code) :=
  inferInstanceAs (Decidable (_ ∨ _))

theorem Typist.code_strikeless (kchr : Mem) (typist : Typist) {code : UInt8}
    (strikeless : Strikeless code)
    : typist.code kchr code = { typist with modifiers := heldAfter typist.modifiers code } := by
  rw [Typist.code, heldAfter]
  by_cases down : code < 0x80
  · cases bit : modifierBit code with
    | some bit => simp [down]
    | none => exact absurd bit (strikeless.resolve_left (not_not.mpr down))
  · cases bit : modifierBit (code &&& 0x7f) <;> simp [down]

/-- Strikeless codes only change the modifiers held, by induction on them. -/
theorem Typist.codes_strikeless (kchr : Mem) {codes : List UInt8}
    (strikeless : ∀ code ∈ codes, Strikeless code) (typist : Typist)
    : typist.codes kchr codes
      = { typist with modifiers := codes.foldl heldAfter typist.modifiers } := by
  induction codes generalizing typist with
  | nil => rfl
  | cons code rest ih =>
      rw [Typist.codes, List.foldl_cons,
        Typist.code_strikeless kchr typist (strikeless code (by simp))]
      exact ih (fun other member => strikeless other (by simp [member])) _

theorem Typist.codes_append (kchr : Mem) (typist : Typist) (codes more : List UInt8)
    : typist.codes kchr (codes ++ more) = (typist.codes kchr codes).codes kchr more :=
  List.foldl_append

theorem modifierKeys_strikeless {modifiers code : UInt8} (member : code ∈ modifierKeys modifiers)
    : Strikeless code := by
  obtain ⟨bit, inside, rfl⟩ := List.mem_map.mp member
  have all : modifierBits.all fun bit => Strikeless bit.2 := by decide
  exact of_decide_eq_true (List.all_eq_true.mp all bit (List.mem_filter.mp inside).1)

theorem up_strikeless {kp : Keypresses} {code : UInt8} (member : code ∈ kp.up)
    : Strikeless code := by
  obtain ⟨pressed, _, rfl⟩ := List.mem_map.mp member
  have up : ∀ pressed : UInt8, ¬ (pressed ||| 0x80) < 0x80 := forall_byte (by decide +kernel)
  exact .inl (up pressed)

/-- Releasing keys types nothing more. -/
theorem Typist.typed_released (kchr : Mem) (typist : Typist) (codes : List UInt8)
    (kp : Keypresses) : (typist.codes kchr (codes ++ kp.up)).typed
      = (typist.codes kchr codes).typed := by
  rw [Typist.codes_append, Typist.codes_strikeless kchr fun code member => up_strikeless member]

/-- Pressing the keys of some modifiers holds exactly these. -/
theorem held_modifierKeys
    : ∀ modifiers < 32,
        (modifierKeys (UInt8.ofNat modifiers)).foldl heldAfter 0 = UInt8.ofNat modifiers := by
  decide +kernel

/-- Releasing them holds none. -/
theorem held_released
    : ∀ modifiers < 32,
        ((modifierKeys (UInt8.ofNat modifiers)).reverse.map (· ||| 0x80)).foldl heldAfter
          (UInt8.ofNat modifiers) = 0 := by
  decide +kernel

/-- A keystroke that a KCHR can take: its modifiers have keys, and its own key is no modifier. -/
structure Strikes (vk : KchrVkeypress) (modifiers : Nat) : Prop where
  valid : vk.valid ≠ 0
  wanted : vk.modifiers = UInt8.ofNat modifiers
  held : modifiers < 32
  plain : vk.keycode < 0x80
  noModifier : modifierBit vk.keycode = none

theorem Strikes.keys {vk : KchrVkeypress} {modifiers : Nat} (strikes : Strikes vk modifiers)
    : (vkeyToKeypresses vk).keys = modifierKeys (UInt8.ofNat modifiers) ++ [vk.keycode] := by
  rw [vkeyToKeypresses, if_neg strikes.valid, ← strikes.wanted]

/-- Pressing the keys strikes the key with the modifiers held. -/
theorem Strikes.press {vk : KchrVkeypress} {modifiers : Nat} (strikes : Strikes vk modifiers)
    (kchr : Mem) {typist : Typist} (idle : typist.modifiers = 0)
    : typist.codes kchr (vkeyToKeypresses vk).keys
      = Typist.strike kchr vk.keycode
          { typist with modifiers := UInt8.ofNat modifiers } := by
  rw [strikes.keys, Typist.codes_append,
    Typist.codes_strikeless kchr fun code member => modifierKeys_strikeless member, idle,
    held_modifierKeys modifiers strikes.held]
  simp [Typist.codes, Typist.code, strikes.plain, strikes.noModifier]

/-- Releasing them afterwards leaves no modifier held and types nothing. -/
theorem Strikes.release {vk : KchrVkeypress} {modifiers : Nat} (strikes : Strikes vk modifiers)
    (kchr : Mem) {typist : Typist} (holds : typist.modifiers = UInt8.ofNat modifiers)
    : typist.codes kchr (vkeyToKeypresses vk).up = { typist with modifiers := 0 } := by
  have own : ∀ held, heldAfter held (vk.keycode ||| 0x80) = held := by
    intro held
    obtain ⟨same, up⟩ := release_key vk.keycode strikes.plain
    simp [heldAfter, up, same, strikes.noModifier]
  have codes : (vkeyToKeypresses vk).up = (vk.keycode ||| 0x80)
      :: (modifierKeys (UInt8.ofNat modifiers)).reverse.map (· ||| 0x80) := by
    rw [Keypresses.up, strikes.keys]
    simp
  rw [Typist.codes_strikeless kchr fun code member => up_strikeless member, holds, codes,
    List.foldl_cons, own, held_released modifiers strikes.held]

section Strike

variable {kchr : Mem} {typist : Typist} {modifiers : Nat} (small : modifiers < 32)
  (holds : typist.modifiers = UInt8.ofNat modifiers) {keycode : UInt8}
include small holds

theorem selected_table : kchr (2 + typist.modifiers.toNat) = kchr (2 + modifiers) := by
  have same : (UInt8.ofNat modifiers).toNat = modifiers := by
    rw [UInt8.toNat_ofNat']
    omega
  rw [holds, same]

theorem strike_character
    (character : characterOf kchr (tableFor kchr modifiers) keycode.toNat ≠ 0)
    : typist.strike kchr keycode
      = { typist with
          dead := none
          typed := typist.typed ++ [completed kchr typist.dead
            (characterOf kchr (tableFor kchr modifiers) keycode.toNat)] } := by
  rw [tableFor] at character ⊢
  rw [Typist.strike]
  simp only [selected_table small holds]
  rw [if_neg character]

theorem strike_dead {table : UInt8} (selects : tableFor kchr modifiers = table.toNat)
    (silent : characterOf kchr table.toNat keycode.toNat = 0)
    (dead : IsDeadKey kchr table keycode)
    : typist.strike kchr keycode = { typist with dead := some (table, keycode) } := by
  have named : kchr (2 + modifiers) = table := UInt8.toNat_inj.mp selects
  rw [Typist.strike]
  simp only [selected_table small holds, named]
  rw [if_pos silent, if_pos dead]

end Strike

-----------------------------------------------------------------------------------------
-- Keystrokes found for characters
-----------------------------------------------------------------------------------------

section Inverse

variable {state : KchrState} {kchr : Mem} (inverts : Inverts state kchr)
  (wellFormed : WellFormed kchr)
include inverts wellFormed

/-- The modifiers found for a table have keys and select it. -/
theorem modifiers_select {table : UInt8} (inside : table.toNat < tableCount kchr)
    : ∃ modifiers < 32, state.modifiersAt table = UInt8.ofNat modifiers
        ∧ tableFor kchr modifiers = table.toNat := by
  obtain ⟨low, small, selects⟩ := wellFormed.selected table.toNat inside
  have few := inside.trans_le wellFormed.fewTables
  rw [KchrState.modifiersAt_small few, inverts.modifiers table.toNat few, tableOf]
  cases found : first (tableFor kchr) (List.range 0x80) table.toNat with
  | none =>
      exact absurd selects (first_eq_none_iff.mp found low (List.mem_range.mpr (by omega)))
  | some modifiers =>
      obtain ⟨same, _, earlier⟩ := List.find?_range_eq_some.mp found
      refine ⟨modifiers, ?_, rfl, of_decide_eq_true same⟩
      by_contra far
      have skipped := earlier low (by omega)
      simp [tableFor, selects] at skipped

/-- The keystroke found for a character of the tables strikes a key with this character. -/
theorem entry_strikes {c : UInt8} (nonzero : c ≠ 0)
    (occurs : ∃ place ∈ keyPlaces kchr, characterAt kchr place = c)
    : (state.entries c).valid ≠ 0
      ∧ ∃ modifiers,
          Strikes ⟨1, state.modifiersAt (state.entries c).table, (state.entries c).keycode⟩
            modifiers
          ∧ characterOf kchr (tableFor kchr modifiers) (state.entries c).keycode.toNat = c := by
  rw [inverts.entries, tableOf]
  obtain ⟨place, found⟩ := Option.isSome_iff_exists.mp (first_isSome_iff.mpr occurs)
  obtain ⟨same, before, rest, split, _⟩ := first_eq_some found
  have member : place ∈ keyPlaces kchr := by simp [split]
  obtain ⟨table, inside, member'⟩ := List.mem_flatMap.mp member
  obtain ⟨keycode, small, rfl⟩ := List.mem_map.mp member'
  have row : table < tableCount kchr := List.mem_range.mp inside
  have few := wellFormed.fewTables
  have limit : kchrNtables = 32 := rfl
  have key : keycode < 0x80 := List.mem_range.mp small
  have tableByte : (UInt8.ofNat table).toNat = table := by
    rw [UInt8.toNat_ofNat']
    omega
  have keyByte : (UInt8.ofNat keycode).toNat = keycode := by
    rw [UInt8.toNat_ofNat']
    omega
  obtain ⟨modifiers, low, entry, selects⟩ :=
    @modifiers_select _ _ inverts wellFormed (UInt8.ofNat table) (tableByte.symm ▸ row)
  rw [tableByte] at selects
  have character : characterOf kchr table keycode = c := same
  rw [found]
  refine ⟨by simp [entryOf], modifiers, ⟨by simp, ?_, low, ?_, ?_⟩, ?_⟩
  · simpa only [entryOf] using entry
  · rw [UInt8.lt_iff_toNat_lt, entryOf, keyByte]
    exact key
  · by_contra modifier
    have silent := wellFormed.modifierKeys table row _ modifier
    rw [entryOf, keyByte, character] at silent
    exact nonzero silent
  · simpa only [entryOf, keyByte, selects] using character

/-- The keystroke found for a dead key strikes it. -/
theorem dead_strikes {pair : DeadPair} (member : pair ∈ deadPairs kchr)
    : ∃ modifiers,
        Strikes ⟨1, state.modifiersAt pair.table, pair.keycode⟩ modifiers
        ∧ tableFor kchr modifiers = pair.table.toNat
        ∧ characterOf kchr pair.table.toNat pair.keycode.toNat = 0
        ∧ IsDeadKey kchr pair.table pair.keycode := by
  obtain ⟨i, inside, member'⟩ := List.mem_flatMap.mp member
  obtain ⟨j, _, rfl⟩ := List.mem_map.mp member'
  have record : i < deadCount kchr := List.mem_range.mp inside
  obtain ⟨plain, noModifier⟩ := wellFormed.deadKeycode i record
  obtain ⟨modifiers, low, entry, selects⟩ :=
    modifiers_select inverts wellFormed (wellFormed.deadTable i record)
  refine ⟨modifiers, ⟨by simp, entry, low, ?_, noModifier⟩, selects,
    wellFormed.deadSilent i record, i, record, rfl, rfl⟩
  exact UInt8.lt_iff_toNat_lt.mpr plain

/-- A character of the tables is pressed and released. -/
theorem character_stroke {keysym : UInt32} (ordinary : specialKey? keysym = none)
    (nonzero : keysymToMacroman keysym ≠ 0)
    (occurs : ∃ place ∈ keyPlaces kchr, characterAt kchr place = keysymToMacroman keysym)
    {typist : Typist} (idle : typist.modifiers = 0 ∧ typist.dead = none)
    : typist.codes kchr
          ((strokeFor state keysym).downCodes ++ (strokeFor state keysym).held.up)
        = { typist with typed := typist.typed ++ [keysymToMacroman keysym] } := by
  obtain ⟨valid, modifiers, strikes, character⟩ :=
    entry_strikes inverts wellFormed nonzero occurs
  have struck := strikes.press kchr idle.1
  rw [strike_character strikes.held rfl (by rw [character]; exact nonzero), character, idle.2]
    at struck
  -- a carriage return goes up with its key-down, any other key with its key-up
  have codes : (strokeFor state keysym).downCodes ++ (strokeFor state keysym).held.up
      = (vkeyToKeypresses ⟨1, state.modifiersAt (state.entries (keysymToMacroman keysym)).table,
            (state.entries (keysymToMacroman keysym)).keycode⟩).keys
        ++ (vkeyToKeypresses ⟨1,
            state.modifiersAt (state.entries (keysymToMacroman keysym)).table,
            (state.entries (keysymToMacroman keysym)).keycode⟩).up := by
    rw [strokeFor, ordinary, kchrKeysForChar, if_pos valid]
    simp only [ne_eq, not_true, if_false]
    split <;> simp [Stroke.downCodes, Keypresses.up]
  rw [codes, Typist.codes_append, struck, strikes.release kchr rfl]
  obtain ⟨held, dead, typed⟩ := typist
  obtain ⟨rfl, rfl⟩ := idle
  rfl

/-- Its key-down alone types as much. -/
theorem character_typed {keysym : UInt32} (ordinary : specialKey? keysym = none)
    (nonzero : keysymToMacroman keysym ≠ 0)
    (occurs : ∃ place ∈ keyPlaces kchr, characterAt kchr place = keysymToMacroman keysym)
    {typist : Typist} (idle : typist.modifiers = 0 ∧ typist.dead = none)
    : (typist.codes kchr (strokeFor state keysym).downCodes).typed
      = typist.typed ++ [keysymToMacroman keysym] := by
  rw [← Typist.typed_released,
    character_stroke inverts wellFormed ordinary nonzero occurs idle]

/-- A character that only a dead key gives is pressed and released. -/
theorem substitute_stroke {keysym : UInt32} (ordinary : specialKey? keysym = none)
    (absent : ∀ place ∈ keyPlaces kchr, characterAt kchr place ≠ keysymToMacroman keysym)
    {pair : DeadPair}
    (found : first DeadPair.substitute (deadPairs kchr) (keysymToMacroman keysym) = some pair)
    {typist : Typist} (idle : typist.modifiers = 0 ∧ typist.dead = none)
    : typist.codes kchr
          ((strokeFor state keysym).downCodes ++ (strokeFor state keysym).held.up)
        = { typist with
            typed := typist.typed
              ++ [completed kchr (some (pair.table, pair.keycode)) pair.completor] } := by
  obtain ⟨_, before, rest, split, _⟩ := first_eq_some found
  have member : pair ∈ deadPairs kchr := by simp [split]
  obtain ⟨nonzero, place⟩ := wellFormed.completors pair member
  obtain ⟨deadModifiers, deadStrikes, selects, silent, dead⟩ :=
    dead_strikes inverts wellFormed member
  obtain ⟨_, modifiers, strikes, character⟩ := entry_strikes inverts wellFormed nonzero place
  have entry : (state.entries (keysymToMacroman keysym)).valid = 0 := by
    rw [inverts.entries, tableOf, first_eq_none_iff.mpr absent, entryOf]
  have sub : state.deads (keysymToMacroman keysym)
      = ⟨1, pair.table, pair.keycode, pair.completor⟩ := by
    rw [inverts.deads, tableOf, found, deadOf]
  have waiting := deadStrikes.press kchr idle.1
  rw [strike_dead deadStrikes.held rfl selects silent dead] at waiting
  have stroke : strokeFor state keysym
      = ⟨vkeyToKeypresses ⟨1, state.modifiersAt pair.table, pair.keycode⟩,
          vkeyToKeypresses ⟨1, state.modifiersAt (state.entries pair.completor).table,
            (state.entries pair.completor).keycode⟩⟩ := by
    simp [strokeFor, ordinary, kchrKeysForChar, entry, sub]
  rw [stroke, Stroke.downCodes, Typist.codes_append, Typist.codes_append, Typist.codes_append,
    waiting, deadStrikes.release kchr rfl, strikes.press kchr rfl,
    strike_character strikes.held rfl (by rw [character]; exact nonzero), character,
    strikes.release kchr rfl]
  obtain ⟨held, dead', typed⟩ := typist
  obtain ⟨rfl, rfl⟩ := idle
  rfl

/-- Its key-down strikes and releases the dead key, and then strikes the completor. -/
theorem substitute_typed {keysym : UInt32} (ordinary : specialKey? keysym = none)
    (absent : ∀ place ∈ keyPlaces kchr, characterAt kchr place ≠ keysymToMacroman keysym)
    {pair : DeadPair}
    (found : first DeadPair.substitute (deadPairs kchr) (keysymToMacroman keysym) = some pair)
    {typist : Typist} (idle : typist.modifiers = 0 ∧ typist.dead = none)
    : (typist.codes kchr (strokeFor state keysym).downCodes).typed
      = typist.typed ++ [completed kchr (some (pair.table, pair.keycode)) pair.completor] := by
  rw [← Typist.typed_released,
    substitute_stroke inverts wellFormed ordinary absent found idle]

end Inverse

-----------------------------------------------------------------------------------------
-- Key-down events
-----------------------------------------------------------------------------------------

/-- The character is on a key, or a dead key gives it. -/
def Typeable (kchr : Mem) (c : UInt8) : Prop :=
  (∃ place ∈ keyPlaces kchr, characterAt kchr place = c)
    ∨ ∃ pair ∈ deadPairs kchr, pair.substitute = c

/-- What the stroke of a character types. -/
def typedFor (kchr : Mem) (c : UInt8) : UInt8 :=
  match first (characterAt kchr) (keyPlaces kchr) c,
      first DeadPair.substitute (deadPairs kchr) c with
  | none, some pair => completed kchr (some (pair.table, pair.keycode)) pair.completor
  | _, _ => c

/-- A key-down event in a session that has loaded a well-formed KCHR. -/
theorem keyDown_types {transData : Kernel.TransData} (wellFormed : WellFormed transData.kchr)
    {stack data : Mem} {state : KchrState} {s final : KeySession}
    (loaded
      : s.kchr = kchrLoad (fun i => Kernel.fbKchrChunk transData i) stack data state)
    (araw : s.InAraw) (evt : VNCKeyEvent) (down : evt.down ≠ 0)
    (ordinary : specialKey? evt.key = none) (nonzero : keysymToMacroman evt.key ≠ 0)
    (typeable : Typeable transData.kchr (keysymToMacroman evt.key)) (typist : Typist)
    (idle : typist.modifiers = 0 ∧ typist.dead = none)
    (handled : vncEvtKey evt s = .ok () final)
    : ∃ codes, final.keyboard.injected = s.keyboard.injected ++ codes
        ∧ (typist.codes transData.kchr codes).typed
          = typist.typed ++ [typedFor transData.kchr (keysymToMacroman evt.key)] := by
  have inverts : Inverts s.kchr transData.kchr := by
    rw [loaded]
    exact kchrLoad_inverts wellFormed stack data state
  refine ⟨arawCodes s.kchr evt, (vncEvtKey_ok araw handled).injected, ?_⟩
  rw [arawCodes, if_pos down, typedFor]
  cases onKey : first (characterAt transData.kchr) (keyPlaces transData.kchr)
      (keysymToMacroman evt.key) with
  | some place =>
      have occurs := first_isSome_iff.mp (Option.isSome_iff_exists.mpr ⟨place, onKey⟩)
      exact character_typed inverts wellFormed ordinary nonzero occurs idle
  | none =>
      have absent := first_eq_none_iff.mp onKey
      have given : ∃ pair ∈ deadPairs transData.kchr,
          pair.substitute = keysymToMacroman evt.key := by
        rcases typeable with ⟨place, member, same⟩ | given
        · exact absurd same (absent place member)
        · exact given
      obtain ⟨pair, found⟩ := Option.isSome_iff_exists.mp (first_isSome_iff.mpr given)
      rw [found]
      exact substitute_typed inverts wellFormed ordinary absent found idle

/-- No key has the character, and before the first dead-key pair that gives it stands another
pair of the same dead key and completor.
-/
def Shadowed (kchr : Mem) (c : UInt8) : Prop :=
  (∀ place ∈ keyPlaces kchr, characterAt kchr place ≠ c)
    ∧ ∃ before pair rest, deadPairs kchr = before ++ pair :: rest
        ∧ pair.substitute = c
        ∧ (∀ other ∈ before, other.substitute ≠ c)
        ∧ ∃ other ∈ before, other.table = pair.table ∧ other.keycode = pair.keycode
            ∧ other.completor = pair.completor

/-- A typeable character is typed unless it is shadowed: then the pair before it is found for its
completor.
-/
theorem typedFor_eq_iff {kchr : Mem} {c : UInt8} (typeable : Typeable kchr c)
    : typedFor kchr c = c ↔ ¬ Shadowed kchr c := by
  rw [typedFor]
  cases onKey : first (characterAt kchr) (keyPlaces kchr) c with
  | some place =>
      obtain ⟨place, member, same⟩ :=
        first_isSome_iff.mp (Option.isSome_iff_exists.mpr ⟨place, onKey⟩)
      exact ⟨fun _ shadowed => shadowed.1 place member same, fun _ => rfl⟩
  | none =>
      have absent := first_eq_none_iff.mp onKey
      obtain ⟨pair, found⟩ := Option.isSome_iff_exists.mp
        (first_isSome_iff.mpr (typeable.resolve_left fun ⟨place, member, same⟩ =>
          absent place member same))
      obtain ⟨gives, before, rest, split, others⟩ := first_eq_some found
      rw [found]
      simp only [completed, substituteFor, split, List.find?_append]
      cases earlier : before.find? fun other =>
          other.table = pair.table ∧ other.keycode = pair.keycode
            ∧ other.completor = pair.completor with
      | some other =>
          have member := List.mem_of_find?_eq_some earlier
          have same : other.table = pair.table ∧ other.keycode = pair.keycode
              ∧ other.completor = pair.completor := by
            simpa using List.find?_some earlier
          refine iff_of_false (others other member) (not_not.mpr ?_)
          exact ⟨absent, before, pair, rest, split, gives, others, other, member, same⟩
      | none =>
          simp only [List.find?_cons, and_self, decide_true, Option.none_or, Option.map_some,
            Option.getD_some, gives, true_iff]
          intro shadowed
          rcases shadowed with
            ⟨_, before', pair', rest', split', gives', others', other, member, same⟩
          obtain ⟨rfl, rfl⟩ :=
            first_split_unique (split.symm.trans split') gives gives' others others'
          have none := List.find?_eq_none.mp earlier other member
          exact none (decide_eq_true same)

/-- In a session that has loaded a well-formed KCHR, the key-down of a keysym with a typeable
character types exactly this character, if and only if the character is not shadowed.
-/
theorem typing_correct_iff {transData : Kernel.TransData} (wellFormed : WellFormed transData.kchr)
    (stack data : Mem) (state : KchrState) (s : KeySession)
    (loaded
      : s.kchr = kchrLoad (fun i => Kernel.fbKchrChunk transData i) stack data state)
    (araw : s.InAraw) (evt : VNCKeyEvent) (down : evt.down ≠ 0)
    (ordinary : specialKey? evt.key = none) (nonzero : keysymToMacroman evt.key ≠ 0)
    (typeable : Typeable transData.kchr (keysymToMacroman evt.key)) (typist : Typist)
    (idle : typist.modifiers = 0 ∧ typist.dead = none)
    : (s.Accepting → ∃ final, vncEvtKey evt s = .ok () final)
      ∧ ∀ final, vncEvtKey evt s = .ok () final →
          ∃ codes, final.keyboard.injected = s.keyboard.injected ++ codes
            ∧ ((typist.codes transData.kchr codes).typed
                  = typist.typed ++ [keysymToMacroman evt.key]
              ↔ ¬ Shadowed transData.kchr (keysymToMacroman evt.key)) := by
  constructor
  · intro accepting
    obtain ⟨_, final, returned, _⟩ := vncEvtKey_total evt s ⟨araw, accepting⟩
    exact ⟨final, returned⟩
  · intro final handled
    obtain ⟨codes, injected, typed⟩ :=
      keyDown_types wellFormed loaded araw evt down ordinary nonzero typeable typist idle handled
    refine ⟨codes, injected, ?_⟩
    rw [typed, ← typedFor_eq_iff typeable, List.append_cancel_left_eq, List.singleton_inj]

/-- One table in which key 0 types `a`, and key 1 is a dead key that turns `a` into two different
characters, first 0x87 and then 0x8a.
-/
def ambiguousKchr : Kernel.TransData := fun i =>
  ([(0x103, 1), (0x104, 0x61), (0x185, 1), (0x187, 1), (0x189, 2), (0x18a, 0x61), (0x18b, 0x87),
    (0x18c, 0x61), (0x18d, 0x8a)].lookup i).getD 0

theorem ambiguousKchr_wellFormed : WellFormed ambiguousKchr.kchr where
  someTable := by decide +kernel
  fewTables := by decide +kernel
  fits := by decide +kernel
  selects := by decide +kernel
  selected := by decide +kernel
  deadTable := by decide +kernel
  deadKeycode := by decide +kernel
  deadSilent := by decide +kernel
  completors := by decide +kernel
  modifierKeys := fun table inside => forall_byte (by revert table; decide +kernel)

theorem Typist.idle_idle : Typist.idle.modifiers = 0 ∧ Typist.idle.dead = none :=
  ⟨rfl, rfl⟩

/-- A session that has loaded it. -/
def ambiguousSession : KeySession :=
  arawSession (kchrLoad (fun i => Kernel.fbKchrChunk ambiguousKchr i) (fun _ => 0) (fun _ => 0)
    oneKeyLayout)

theorem ambiguousSession_loaded
    : ambiguousSession.kchr
      = kchrLoad (fun i => Kernel.fbKchrChunk ambiguousKchr i) (fun _ => 0) (fun _ => 0)
          oneKeyLayout :=
  rfl

/-- The first of the two characters is typed as it should be. -/
theorem typing_correct_iff_aacute
    : keysymToMacroman 0xe1 = 0x87
      ∧ ∃ final, vncEvtKey (keyEvent 0xe1 1) ambiguousSession = .ok () final
        ∧ (Typist.idle.codes ambiguousKchr.kchr final.keyboard.injected).typed = [0x87] := by
  have mapped : keysymToMacroman 0xe1 = 0x87 := by decide
  have typeable : Typeable ambiguousKchr.kchr 0x87 := .inr (by decide +kernel)
  have clear : ¬ Shadowed ambiguousKchr.kchr 0x87 :=
    (typedFor_eq_iff typeable).mp (by decide +kernel)
  have types := typing_correct_iff ambiguousKchr_wellFormed _ _ _ ambiguousSession
    ambiguousSession_loaded (fun _ => rfl) (keyEvent 0xe1 1) (by decide) (by decide) (by decide)
    (mapped ▸ typeable) .idle Typist.idle_idle
  obtain ⟨final, returned⟩ := types.1 fun _ _ => rfl
  obtain ⟨codes, injected, exact⟩ := types.2 final returned
  refine ⟨mapped, final, returned, ?_⟩
  rw [injected]
  exact exact.mpr (mapped ▸ clear)

/-- Both characters are found as the same dead key and completor. -/
theorem ambiguousSession_codes
    : arawCodes ambiguousSession.kchr (keyEvent 0xe1 1)
      = arawCodes ambiguousSession.kchr (keyEvent 0xe4 1) := by
  have inverts : Inverts ambiguousSession.kchr ambiguousKchr.kchr :=
    kchrLoad_inverts ambiguousKchr_wellFormed (fun _ => 0) (fun _ => 0) oneKeyLayout
  have entries : ambiguousSession.kchr.entries 0x87 = ambiguousSession.kchr.entries 0x8a := by
    rw [inverts.entries]
    decide +kernel
  have deads : ambiguousSession.kchr.deads 0x87 = ambiguousSession.kchr.deads 0x8a := by
    rw [inverts.deads]
    decide +kernel
  have acute : keysymToMacroman (keyEvent 0xe1 1).key = 0x87 := by decide
  have diaeresis : keysymToMacroman (keyEvent 0xe4 1).key = 0x8a := by decide
  have special : specialKey? (keyEvent 0xe1 1).key = specialKey? (keyEvent 0xe4 1).key := by decide
  have same : strokeFor ambiguousSession.kchr (keyEvent 0xe1 1).key
      = strokeFor ambiguousSession.kchr (keyEvent 0xe4 1).key := by
    simp only [strokeFor, special, acute, diaeresis, kchrKeysForChar, entries, deads]
  rw [arawCodes, arawCodes, same]
  rfl

/-- The key-down of the second one injects the codes of the first, and types it. -/
theorem shadowed_mistyped
    : WellFormed ambiguousKchr.kchr
      ∧ specialKey? 0xe4 = none
      ∧ keysymToMacroman 0xe4 = 0x8a
      ∧ Typeable ambiguousKchr.kchr 0x8a
      ∧ arawCodes ambiguousSession.kchr (keyEvent 0xe1 1)
          = arawCodes ambiguousSession.kchr (keyEvent 0xe4 1)
      ∧ ∃ final, vncEvtKey (keyEvent 0xe4 1) ambiguousSession = .ok () final
        ∧ (Typist.idle.codes ambiguousKchr.kchr final.keyboard.injected).typed = [0x87] := by
  have mapped : keysymToMacroman 0xe4 = 0x8a := by decide
  have typeable : Typeable ambiguousKchr.kchr 0x8a := .inr (by decide +kernel)
  obtain ⟨_, final, returned, _⟩ := vncEvtKey_total (keyEvent 0xe4 1) ambiguousSession
    ⟨fun _ => rfl, fun _ _ => rfl⟩
  obtain ⟨codes, injected, typed⟩ := keyDown_types ambiguousKchr_wellFormed
    ambiguousSession_loaded (fun _ => rfl) (keyEvent 0xe4 1) (by decide) (by decide) (by decide)
    (mapped ▸ typeable) .idle Typist.idle_idle returned
  refine ⟨ambiguousKchr_wellFormed, by decide, mapped, typeable, ambiguousSession_codes, final,
    returned, ?_⟩
  have first : typedFor ambiguousKchr.kchr 0x8a = 0x87 := by decide +kernel
  have none : ambiguousSession.keyboard.injected = [] := rfl
  rw [injected, none, List.nil_append, typed]
  change [] ++ [typedFor ambiguousKchr.kchr (keysymToMacroman 0xe4)] = [0x87]
  rw [mapped, first]
  rfl

end MiniVnc
