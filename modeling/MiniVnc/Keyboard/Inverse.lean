import MiniVnc.Kernel.KeyMap
import MiniVnc.Keyboard.Layout

/-! The tables built from a KCHR are its inverse indexes: each holds the first modifiers, the
first place or the first dead-key pair, in reading order.
-/

namespace MiniVnc
open Library.Memory Library.Loop Library.FirstMatch

/-- What `kchr_build_table_table` stores for a table. -/
def modifiersOf : Option Nat → UInt8
  | none => 0xff
  | some modifiers => UInt8.ofNat modifiers

/-- What `kchr_build_char_table` stores for a character. -/
def entryOf : Option (Nat × Nat) → KchrEntry
  | none => ⟨0, 0, 0⟩
  | some (table, keycode) => ⟨1, UInt8.ofNat table, UInt8.ofNat keycode⟩

/-- What `kchr_build_dead_table` stores for a character. -/
def deadOf : Option DeadPair → KchrDeadSub
  | none => ⟨0, 0, 0, 0⟩
  | some pair => ⟨1, pair.table, pair.keycode, pair.completor⟩

/-- The table that modifiers select. -/
def tableFor (kchr : Mem) (modifiers : Nat) : Nat := (kchr (2 + modifiers)).toNat

/-- The state holds the inverse indexes of the KCHR. -/
structure Inverts (state : KchrState) (kchr : Mem) : Prop where
  modifiers
    : ∀ table < kchrNtables, state.modifiers (table : Nat)
        = tableOf (tableFor kchr) (fun _ => modifiersOf) (List.range 0x80) table
  entries : state.entries = tableOf (characterAt kchr) (fun _ => entryOf) (keyPlaces kchr)
  deads : state.deads = tableOf DeadPair.substitute (fun _ => deadOf) (deadPairs kchr)

theorem entryOf_vacant (place : Option (Nat × Nat)) : (entryOf place).valid = 0 ↔ place = none := by
  cases place <;> simp [entryOf]

theorem deadOf_vacant (pair : Option DeadPair) : (deadOf pair).valid = 0 ↔ pair = none := by
  cases pair <;> simp [deadOf]

/-- A `char` with the top bit clear is its byte. -/
theorem charAt_eq {kchr : Mem} {p : Nat} (plain : (kchr p).toNat < 0x80)
    : charAt kchr p = (kchr p).toNat := by
  have value : (kchr p).toBitVec.toNat < 0x80 := plain
  change (kchr p).toBitVec.toInt = _
  rw [BitVec.toInt_eq_toNat_of_lt (by omega)]
  rfl

/-- The memory `kchr_build_table_table` stores for tables that are found or not. -/
def modifiersStored (output : Int → UInt8) (table : Int) : Option Nat → UInt8
  | none => if 0 ≤ table ∧ table < kchrNtables then 0xff else output table
  | some modifiers => UInt8.ofNat modifiers

/-- As long as every entry of the map names one of the 32 tables, nothing is rejected and each
table gets the first modifiers that select it. The entries are taken one by one.
-/
theorem tableScan_eq {kchr : Mem} (output : Int → UInt8) {count : Nat}
    (few : ∀ i < count, (kchr (2 + i)).toNat < kchrNtables) (inside : count ≤ 0x80)
    : upTo (TableScan.entry kchr)
        ⟨fun table => if 0 ≤ table ∧ table < kchrNtables then 0xff else output table, false⟩ count
      = ⟨tableOf (fun i => charAt kchr (2 + i)) (modifiersStored output) (List.range count),
          false⟩ := by
  apply upTo_invariant fun i (scan : TableScan) =>
    scan = ⟨tableOf (fun i => charAt kchr (2 + i)) (modifiersStored output) (List.range i),
      false⟩
  · rfl
  · intro i below _ same
    rcases same with rfl
    have named := few i below
    have small : kchrNtables = 32 := rfl
    have signed : charAt kchr (2 + i) = (kchr (2 + i)).toNat := charAt_eq (by omega)
    have known : ¬ (charAt kchr (2 + i) ≥ kchrNtables) := by omega
    simp only [TableScan.entry, Bool.false_eq_true, if_false, if_neg known]
    rw [List.range_succ, ← tableOf_snoc (· = 0xff)]
    · split <;> rfl
    · rw [tableOf]
      cases found : first (fun i => charAt kchr (2 + i)) (List.range i) (charAt kchr (2 + i)) with
      | none => simp [modifiersStored]; omega
      | some modifiers =>
          obtain ⟨_, before, rest, split, _⟩ := first_eq_some found
          have member : modifiers ∈ List.range i := by simp [split]
          have range := List.mem_range.mp member
          have mark : UInt8.ofNat modifiers ≠ 0xff := by
            intro same
            have value := congrArg UInt8.toNat same
            simp at value
            omega
          simpa [modifiersStored] using mark

/-- When every entry of the map names one of the 32 tables, the whole map is inverted. -/
theorem kchrBuildTableTable_eq {kchr : Mem} (output : Int → UInt8)
    (few : ∀ i < 0x80, (kchr (2 + i)).toNat < kchrNtables)
    : kchrBuildTableTable kchr output
      = ⟨tableOf (fun i => charAt kchr (2 + i)) (modifiersStored output) (List.range 0x80),
          false⟩ :=
  tableScan_eq output few (Nat.le_refl _)

/-- Tables are found by their unsigned numbers. -/
theorem modifiers_inverts {kchr : Mem} (output : Int → UInt8)
    (few : ∀ i < 0x80, (kchr (2 + i)).toNat < kchrNtables) {table : Nat}
    (inside : table < kchrNtables)
    : (kchrBuildTableTable kchr output).output table
      = tableOf (tableFor kchr) (fun _ => modifiersOf) (List.range 0x80) table := by
  have small : kchrNtables = 32 := rfl
  have same : first (fun i => charAt kchr (2 + i)) (List.range 0x80) (table : Int)
      = first (tableFor kchr) (List.range 0x80) table := by
    rw [← first_injective fun _ _ => Int.ofNat.inj]
    refine congrFun (first_congr ?_) _
    intro i member
    have named := few i (List.mem_range.mp member)
    exact charAt_eq (by omega)
  rw [kchrBuildTableTable_eq output few]
  simp only [tableOf, same]
  cases first (tableFor kchr) (List.range 0x80) table with
  | none => simp only [modifiersStored, modifiersOf]; rw [if_pos (by omega)]
  | some modifiers => rfl

/-- One key goes into the index of the keys before it. -/
theorem charEntry_eq (kchr : Mem) (table keycode : Nat) (places : List (Nat × Nat))
    : charEntry kchr table keycode (tableOf (characterAt kchr) (fun _ => entryOf) places)
      = tableOf (characterAt kchr) (fun _ => entryOf) (places ++ [(table, keycode)]) := by
  rw [← tableOf_snoc (fun entry => entry.valid = 0) (entryOf_vacant _)]
  rfl

/-- Keys are entered in reading order, first within a table and then table by table. -/
theorem kchrBuildCharTable_eq (kchr : Mem)
    : kchrBuildCharTable kchr
      = tableOf (characterAt kchr) (fun _ => entryOf) (keyPlaces kchr) := by
  have row : ∀ places table,
      upTo (charEntry kchr table) (tableOf (characterAt kchr) (fun _ => entryOf) places) 0x80
        = tableOf (characterAt kchr) (fun _ => entryOf)
            (places ++ (List.range 0x80).map fun keycode => (table, keycode)) := by
    intro places table
    apply upTo_invariant fun i entries =>
      entries = tableOf (characterAt kchr) (fun _ => entryOf)
        (places ++ (List.range i).map fun keycode => (table, keycode))
    · simp
    · intro i _ _ same
      rcases same with rfl
      rw [charEntry_eq, @List.range_succ i, List.map_append, List.append_assoc]
      rfl
  apply upTo_invariant fun i entries =>
    entries = tableOf (characterAt kchr) (fun _ => entryOf)
      ((List.range i).flatMap fun table =>
        (List.range 0x80).map fun keycode => (table, keycode))
  · rfl
  · intro i _ _ same
    rcases same with rfl
    rw [row, @List.range_succ i, List.flatMap_append, List.flatMap_singleton]

/-- One completor goes into the index of the pairs before it. -/
theorem completor_eq (kchr : Mem) (cursor : Nat) (table keycode : UInt8)
    (pairs : List DeadPair)
    : DeadScan.completor kchr table keycode
        ⟨cursor, tableOf DeadPair.substitute (fun _ => deadOf) pairs⟩
      = ⟨cursor + 2,
          tableOf DeadPair.substitute (fun _ => deadOf)
            (pairs ++ [⟨table, keycode, kchr cursor, kchr (cursor + 1)⟩])⟩ := by
  rw [← tableOf_snoc (fun sub => sub.valid = 0) (deadOf_vacant _)]
  rfl

/-- The completors of one dead key are entered in reading order, by induction on their number.
-/
theorem completors_eq (kchr : Mem) (cursor : Nat) (pairs : List DeadPair) (count : Nat)
    : upTo (fun _ => DeadScan.completor kchr (kchr cursor) (kchr (cursor + 1)))
        ⟨cursor + 4, tableOf DeadPair.substitute (fun _ => deadOf) pairs⟩ count
      = ⟨cursor + 4 + 2 * count,
          tableOf DeadPair.substitute (fun _ => deadOf)
            (pairs ++ deadPairsAt kchr cursor count)⟩ := by
  apply upTo_invariant fun i (scan : DeadScan) =>
    scan = ⟨cursor + 4 + 2 * i,
      tableOf DeadPair.substitute (fun _ => deadOf) (pairs ++ deadPairsAt kchr cursor i)⟩
  · simp [deadPairsAt]
  · intro i _ _ same
    rcases same with rfl
    rw [completor_eq, deadPairsAt, deadPairsAt, List.range_succ, List.map_append,
      List.append_assoc]
    rfl

/-- One dead key with its completors. -/
theorem record_eq (kchr : Mem) (cursor : Nat) (pairs : List DeadPair)
    : DeadScan.record kchr ⟨cursor, tableOf DeadPair.substitute (fun _ => deadOf) pairs⟩
      = ⟨cursor + 4 + 2 * countAt kchr (cursor + 2) + 2,
          tableOf DeadPair.substitute (fun _ => deadOf)
            (pairs ++ deadPairsAt kchr cursor (countAt kchr (cursor + 2)))⟩ := by
  simp only [DeadScan.record, completors_eq]

/-- The dead keys are entered in reading order, by induction on their number. -/
theorem records_eq (kchr : Mem) (count : Nat)
    : upTo (fun _ => DeadScan.record kchr) ⟨deadKeys kchr + 2, fun _ => ⟨0, 0, 0, 0⟩⟩ count
      = ⟨deadRecord kchr count,
          tableOf DeadPair.substitute (fun _ => deadOf)
            ((List.range count).flatMap fun i =>
              deadPairsAt kchr (deadRecord kchr i)
                (countAt kchr (deadRecord kchr i + 2)))⟩ := by
  apply upTo_invariant fun i (scan : DeadScan) =>
    scan = ⟨deadRecord kchr i,
      tableOf DeadPair.substitute (fun _ => deadOf)
        ((List.range i).flatMap fun i =>
          deadPairsAt kchr (deadRecord kchr i) (countAt kchr (deadRecord kchr i + 2)))⟩
  · rfl
  · intro i _ _ same
    rcases same with rfl
    rw [record_eq, List.range_succ, List.flatMap_append, List.flatMap_singleton]
    rfl

theorem kchrBuildDeadTable_eq (kchr : Mem)
    : kchrBuildDeadTable kchr
      = tableOf DeadPair.substitute (fun _ => deadOf) (deadPairs kchr) := by
  rw [kchrBuildDeadTable, records_eq]
  rfl

-----------------------------------------------------------------------------------------
-- What is loaded
-----------------------------------------------------------------------------------------

/-- Dead-key records start one behind the other. -/
theorem deadRecord_mono (kchr : Mem) : Monotone (deadRecord kchr) := by
  apply monotone_nat_of_le_succ
  intro i
  rw [deadRecord]
  omega

section Loaded

variable {kchr loaded : Mem} (same : ∀ k < 3072, loaded k = kchr k)
include same

theorem countAt_loaded {p : Nat} (inside : p + 2 ≤ 3072) : countAt loaded p = countAt kchr p := by
  rw [countAt, countAt, ushortAt_congr fun k hk => same (p + k) (by omega)]

theorem tableCount_loaded : tableCount loaded = tableCount kchr :=
  countAt_loaded same (by decide)

theorem deadKeys_loaded : deadKeys loaded = deadKeys kchr := by
  rw [deadKeys, deadKeys, tableCount_loaded same]

variable (fits : deadRecord kchr (deadCount kchr) ≤ 3072)
include fits

omit same in
theorem deadKeys_inside : deadKeys kchr + 2 ≤ 3072 :=
  (deadRecord_mono kchr (Nat.zero_le (deadCount kchr))).trans fits

theorem deadCount_loaded : deadCount loaded = deadCount kchr := by
  rw [deadCount, deadCount, deadKeys_loaded same,
    countAt_loaded same (deadKeys_inside fits)]

/-- Records start at the same places, by induction on their number: each lies inside the
bytes that are loaded.
-/
theorem deadRecord_loaded {i : Nat} (inside : i ≤ deadCount kchr)
    : deadRecord loaded i = deadRecord kchr i := by
  induction i with
  | zero => rw [deadRecord, deadRecord, deadKeys_loaded same]
  | succ i ih =>
      have next := (deadRecord_mono kchr inside).trans fits
      rw [deadRecord] at next
      rw [deadRecord, deadRecord, ih (by omega), countAt_loaded same (by omega)]

/-- The same dead-key pairs are read. -/
theorem deadPairs_loaded : deadPairs loaded = deadPairs kchr := by
  rw [deadPairs, deadPairs, deadCount_loaded same fits]
  apply List.flatMap_congr
  intro i member
  have index := List.mem_range.mp member
  have next := (deadRecord_mono kchr (show i + 1 ≤ deadCount kchr by omega)).trans fits
  rw [deadRecord] at next
  rw [deadRecord_loaded same fits (by omega), countAt_loaded same (by omega)]
  apply List.map_congr_left
  intro j inside
  have small := List.mem_range.mp inside
  rw [same _ (by omega), same _ (by omega), same _ (by omega), same _ (by omega)]

/-- The same characters are at the same places. -/
theorem characters_loaded
    : first (characterAt loaded) (keyPlaces loaded)
      = first (characterAt kchr) (keyPlaces kchr) := by
  have places : keyPlaces loaded = keyPlaces kchr := by
    rw [keyPlaces, keyPlaces, tableCount_loaded same]
  rw [places]
  apply first_congr
  intro place member
  obtain ⟨table, tableMember, keyMember⟩ := List.mem_flatMap.mp member
  obtain ⟨keycode, codeMember, rfl⟩ := List.mem_map.mp keyMember
  have dead := deadKeys_inside fits
  have row : table + 1 ≤ tableCount kchr := List.mem_range.mp tableMember
  have keys := List.mem_range.mp codeMember
  have rows := Nat.mul_le_mul_right 0x80 row
  rw [deadKeys] at dead
  exact same _ (by simp only; omega)

end Loaded

/-- The tables built from the bytes that were loaded are those of the KCHR. -/
theorem inverts_of_loaded {kchr loaded : Mem} (wellFormed : WellFormed kchr)
    (same : ∀ k < 3072, loaded k = kchr k) (output : Int → UInt8)
    : Inverts
        ⟨(kchrBuildTableTable loaded output).output, kchrBuildCharTable loaded,
          kchrBuildDeadTable loaded⟩
        kchr where
  modifiers := by
    intro table inside
    have fewer : ∀ i < 0x80, (loaded (2 + i)).toNat < kchrNtables := by
      intro i hi
      rw [same _ (by omega)]
      exact (wellFormed.selects i hi).trans_le wellFormed.fewTables
    have tables : first (tableFor loaded) (List.range 0x80)
        = first (tableFor kchr) (List.range 0x80) := by
      apply first_congr
      intro i member
      have index := List.mem_range.mp member
      rw [tableFor, tableFor, same _ (by omega)]
    dsimp only
    rw [modifiers_inverts output fewer inside, tableOf, tableOf, tables]
  entries := by
    funext c
    dsimp only
    rw [kchrBuildCharTable_eq, tableOf, tableOf, characters_loaded same wellFormed.fits]
  deads := by
    dsimp only
    rw [kchrBuildDeadTable_eq, deadPairs_loaded same wellFormed.fits]

/-- Loading a well-formed KCHR from the kernel inverts it, whatever the buffers and the state
held before.
-/
theorem kchrLoad_inverts {transData : Kernel.TransData} (wellFormed : WellFormed transData.kchr)
    (stack data : Mem) (state : KchrState)
    : Inverts (kchrLoad (fun i => Kernel.fbKchrChunk transData i) stack data state)
        transData.kchr :=
  inverts_of_loaded wellFormed
    (fun k inside => Kernel.grabKchr_kchr (Nat.le_refl 32) k (by omega)) state.modifiers

end MiniVnc
