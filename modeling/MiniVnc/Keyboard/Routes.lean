import MiniVnc.Keyboard.Inverse

/-! Whether the keypresses found for a character are real ones, for layouts whose parts need not
fit together.
-/

namespace MiniVnc
open Library.Memory Library.Loop Library.FirstMatch

/-- Some modifiers select the table, and no entry of the map before theirs names more than 32
tables.
-/
def Reached (kchr : Mem) (table : Nat) : Prop :=
  table < kchrNtables
    ∧ ∃ m < 0x80, tableFor kchr m = table ∧ ∀ j < m, tableFor kchr j < kchrNtables

/-- The place that `kchr_keys_for_char` takes for a completor: where it has none, the zeroed entry
stands for the first key of the first table.
-/
def completorPlace (kchr : Mem) (completor : UInt8) : Nat × Nat :=
  (first (characterAt kchr) (keyPlaces kchr) completor).getD (0, 0)

/-- What the first places of the characters leave `offset` bytes behind the start of the entries.
-/
def placeByte (kchr : Mem) (offset : Nat) : UInt8 :=
  entriesByte (fun c => entryOf (first (characterAt kchr) (keyPlaces kchr) c)) offset

/-- The table that is selected by the modifiers found for a table. From 32 on these modifiers are a
byte of the entries, which may select any table.
-/
inductive Selected (kchr : Mem) (table : Nat) : Nat → Prop
  | reached (reached : Reached kchr table) : Selected kchr table table
  | behind (past : kchrNtables ≤ table)
    (small : (placeByte kchr (table - kchrNtables)).toNat < 0x80)
    : Selected kchr table (tableFor kchr (placeByte kchr (table - kchrNtables)).toNat)

/-- Once rejected, a scan stays as it is. -/
theorem tableScan_stopped (kchr : Mem) {scan : TableScan} (rejected : scan.rejected = true)
    (first count : Nat)
    : upTo (fun i => TableScan.entry kchr (first + i)) scan count = scan := by
  apply upTo_invariant fun _ (later : TableScan) => later = scan
  · rfl
  · rintro i _ later rfl
    simp [TableScan.entry, rejected]

/-- The map is inverted up to the first entry that names too many tables. -/
theorem kchrBuildTableTable_output {kchr : Mem} (output : Int → UInt8)
    (plain : ∀ i < 0x80, tableFor kchr i < 0x80)
    : ∃ stop ≤ 0x80, (∀ i < stop, tableFor kchr i < kchrNtables)
        ∧ (stop < 0x80 → ¬tableFor kchr stop < kchrNtables)
        ∧ (kchrBuildTableTable kchr output).output
          = tableOf (fun i => charAt kchr (2 + i)) (modifiersStored output)
              (List.range stop) := by
  obtain ⟨stop, inside, few, stopped⟩ := exists_stop (fun i => tableFor kchr i < kchrNtables) 0x80
  refine ⟨stop, inside, few, stopped, ?_⟩
  have scanned := tableScan_eq output few inside
  rcases Nat.lt_or_eq_of_le inside with early | rfl
  · have large : charAt kchr (2 + stop) ≥ kchrNtables := by
      have many := stopped early
      rw [charAt_eq (plain stop early)]
      exact Int.ofNat_le.mpr (Nat.le_of_not_lt many)
    obtain ⟨rest, total⟩ := Nat.exists_eq_add_of_le (Nat.succ_le_of_lt early)
    rw [kchrBuildTableTable, total, upTo_add, upTo, scanned, tableScan_stopped]
    · simp [TableScan.entry, large]
    · simp [TableScan.entry, large]
  · rw [kchrBuildTableTable, scanned]

/-- For a table that is reached the first modifiers that select it are stored. -/
theorem Reached.stored {kchr : Mem} {table : Nat} (reached : Reached kchr table)
    (output : Int → UInt8) (plain : ∀ i < 0x80, tableFor kchr i < 0x80)
    : ∃ m < 0x80, (kchrBuildTableTable kchr output).output table = UInt8.ofNat m
        ∧ tableFor kchr m = table := by
  obtain ⟨small, m, below, selects, before⟩ := reached
  obtain ⟨stop, inside, _, stopped, stored⟩ := kchrBuildTableTable_output output plain
  have earlier : m < stop := by
    by_contra late
    rcases Nat.lt_or_eq_of_le (Nat.le_of_not_lt late) with before' | rfl
    · exact stopped (by omega) (before stop before')
    · exact stopped below (by omega)
  rw [stored, tableOf]
  cases found : first (fun i => charAt kchr (2 + i)) (List.range stop) (table : Int) with
  | none =>
      have other := first_eq_none_iff.mp found m (List.mem_range.mpr earlier)
      rw [charAt_eq (plain m below)] at other
      exact absurd (congrArg Nat.cast selects) other
  | some m' =>
      obtain ⟨same, front, rest, split, _⟩ := first_eq_some found
      have member : m' ∈ List.range stop := by simp [split]
      have range := List.mem_range.mp member
      rw [charAt_eq (plain m' (by omega))] at same
      exact ⟨m', by omega, rfl, Int.ofNat.inj same⟩

/-- A place that is found lies in the key tables. -/
theorem first_place {kchr : Mem} {c : UInt8} {place : Nat × Nat}
    (found : first (characterAt kchr) (keyPlaces kchr) c = some place)
    : characterAt kchr place = c ∧ place.1 < tableCount kchr ∧ place.2 < 0x80 := by
  obtain ⟨same, before, rest, split, _⟩ := first_eq_some found
  have member : place ∈ keyPlaces kchr := by simp [split]
  obtain ⟨table, below, member⟩ := List.mem_flatMap.mp member
  obtain ⟨keycode, small, rfl⟩ := List.mem_map.mp member
  exact ⟨same, List.mem_range.mp below, List.mem_range.mp small⟩

section Keys

variable {kchr : Mem} (output : Int → UInt8) {c : UInt8}

/-- The tables that `kchr_load` builds of a layout. -/
def builtFrom (kchr : Mem) (output : Int → UInt8) : KchrState :=
  ⟨(kchrBuildTableTable kchr output).output, kchrBuildCharTable kchr, kchrBuildDeadTable kchr⟩

/-- The keypress for a place. -/
theorem keys_single {place : Nat × Nat}
    (found : first (characterAt kchr) (keyPlaces kchr) c = some place)
    : kchrKeysForChar (builtFrom kchr output) c
      = ⟨⟨1, (builtFrom kchr output).modifiersAt (UInt8.ofNat place.1), UInt8.ofNat place.2⟩,
          ⟨0, 0, 0⟩⟩ := by
  have entry : kchrBuildCharTable kchr c = ⟨1, UInt8.ofNat place.1, UInt8.ofNat place.2⟩ := by
    rw [kchrBuildCharTable_eq, tableOf, found]
    rfl
  rw [kchrKeysForChar, builtFrom]
  simp [entry]

/-- The keypresses for a dead-key pair. -/
theorem keys_dead {pair : DeadPair}
    (nowhere : first (characterAt kchr) (keyPlaces kchr) c = none)
    (found : first DeadPair.substitute (deadPairs kchr) c = some pair)
    : kchrKeysForChar (builtFrom kchr output) c
      = ⟨⟨1, (builtFrom kchr output).modifiersAt pair.table, pair.keycode⟩,
          ⟨1, (builtFrom kchr output).modifiersAt
              (UInt8.ofNat (completorPlace kchr pair.completor).1),
            UInt8.ofNat (completorPlace kchr pair.completor).2⟩⟩ := by
  have vacant : kchrBuildCharTable kchr c = ⟨0, 0, 0⟩ := by
    rw [kchrBuildCharTable_eq, tableOf, nowhere]
    rfl
  have dead : kchrBuildDeadTable kchr c = ⟨1, pair.table, pair.keycode, pair.completor⟩ := by
    rw [kchrBuildDeadTable_eq, tableOf, found]
    rfl
  have table : (kchrBuildCharTable kchr pair.completor).table
      = UInt8.ofNat (completorPlace kchr pair.completor).1 := by
    rw [kchrBuildCharTable_eq, tableOf, completorPlace]
    cases first (characterAt kchr) (keyPlaces kchr) pair.completor <;> rfl
  have keycode : (kchrBuildCharTable kchr pair.completor).keycode
      = UInt8.ofNat (completorPlace kchr pair.completor).2 := by
    rw [kchrBuildCharTable_eq, tableOf, completorPlace]
    cases first (characterAt kchr) (keyPlaces kchr) pair.completor <;> rfl
  rw [kchrKeysForChar, builtFrom]
  simp [vacant, dead, table, keycode]

theorem keys_nothing (nowhere : first (characterAt kchr) (keyPlaces kchr) c = none)
    (never : first DeadPair.substitute (deadPairs kchr) c = none)
    : kchrKeysForChar (builtFrom kchr output) c = ⟨⟨0, 0, 0⟩, ⟨0, 0, 0⟩⟩ := by
  rw [kchrKeysForChar, builtFrom]
  simp [kchrBuildCharTable_eq, kchrBuildDeadTable_eq, tableOf, nowhere, never, entryOf, deadOf]

end Keys

/-- A table of the 32 can only be selected itself. -/
theorem Selected.inside {kchr : Mem} {table other : Nat} (selected : Selected kchr table other)
    (inside : table < kchrNtables) : Reached kchr table ∧ other = table := by
  cases selected with
  | reached reached => exact ⟨reached, rfl⟩
  | behind past => exact absurd past (Nat.not_le_of_lt inside)

section Real

variable {kchr : Mem} (plain : ∀ i < 0x80, tableFor kchr i < 0x80) (output : Int → UInt8)
include plain

variable {c : UInt8} (few : tableCount kchr ≤ kchrNtables)
include few

end Real

end MiniVnc
