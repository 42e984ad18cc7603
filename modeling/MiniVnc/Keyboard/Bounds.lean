import MiniVnc.Keyboard.Inverse
import MiniVnc.Library.Accesses

/-! Where `kchr_load` reads and writes. -/

namespace MiniVnc
open Library.Memory Library.Loop Library.FirstMatch Library.Accesses

/-- The arrays `kchr_load` works on. -/
inductive KchrObject where
  | chunkData
  | kchr
  | modifiers
  | entries
  | deads
deriving Repr, DecidableEq

/-- How many elements each has. -/
def KchrObject.size : KchrObject → Nat
  | chunkData => 96
  | kchr => 3072
  | modifiers => kchrNtables
  | entries => 256
  | deads => 256

abbrev KchrLog := List (Access KchrObject)

/-- The `memcpy` of each chunk. -/
def grabKchrAccesses : KchrLog :=
  (List.range 32).flatMap fun i => reads .chunkData 0 96 ++ writes .kchr (i * 96 : Nat) 96

/-- The accesses of `TableScan.entry`: none once -1 has been returned. -/
def TableScan.entryAccesses (kchr : Mem) (i : Nat) (scan : TableScan) : KchrLog :=
  let table := charAt kchr (2 + i)
  if scan.rejected then
    []
  else if table ≥ kchrNtables then
    [.read .kchr (2 + i : Nat)]
  else if scan.output table = 0xff then
    [.read .kchr (2 + i : Nat), .read .modifiers table, .write .modifiers table]
  else
    [.read .kchr (2 + i : Nat), .read .modifiers table]

def tableTableAccesses (kchr : Mem) (output : Int → UInt8) : KchrLog :=
  writes .modifiers 0 kchrNtables
  ++ loopAccesses (TableScan.entry kchr) (TableScan.entryAccesses kchr)
      ⟨fun table => if 0 ≤ table ∧ table < kchrNtables then 0xff else output table, false⟩ 0x80

def charEntryAccesses (kchr : Mem) (table keyInTable : Nat) (entries : UInt8 → KchrEntry)
    : KchrLog :=
  let character := kchr (charTables + table * 0x80 + keyInTable)
  [.read .kchr (charTables + table * 0x80 + keyInTable : Nat), .read .entries character.toNat]
  ++ if (entries character).valid = 0 then [.write .entries character.toNat] else []

def charTableAccesses (kchr : Mem) : KchrLog :=
  writes .entries 0 256
  ++ reads .kchr (2 + 0x100) 2
  ++ loopAccesses (fun table entries => upTo (charEntry kchr table) entries 0x80)
      (fun table entries =>
        loopAccesses (charEntry kchr table) (charEntryAccesses kchr table) entries 0x80)
      (fun _ => ⟨0, 0, 0⟩) (tableCount kchr)

def DeadScan.completorAccesses (kchr : Mem) (scan : DeadScan) : KchrLog :=
  let substitutingChar := kchr (scan.cursor + 1)
  [.read .kchr scan.cursor, .read .kchr (scan.cursor + 1), .read .deads substitutingChar.toNat]
  ++ if (scan.entries substitutingChar).valid = 0 then [.write .deads substitutingChar.toNat]
    else []

def DeadScan.recordAccesses (kchr : Mem) (scan : DeadScan) : KchrLog :=
  reads .kchr scan.cursor 4
  ++ loopAccesses
      (fun _ => DeadScan.completor kchr (kchr scan.cursor) (kchr (scan.cursor + 1)))
      (fun _ => DeadScan.completorAccesses kchr)
      { scan with cursor := scan.cursor + 4 } (countAt kchr (scan.cursor + 2))

def deadTableAccesses (kchr : Mem) : KchrLog :=
  writes .deads 0 256
  ++ reads .kchr (2 + 0x100) 2
  ++ reads .kchr (deadKeys kchr) 2
  ++ loopAccesses (fun _ => DeadScan.record kchr) (fun _ => DeadScan.recordAccesses kchr)
      ⟨deadKeys kchr + 2, fun _ => ⟨0, 0, 0, 0⟩⟩ (deadCount kchr)

/-- All accesses of `kchr_load`, which does not look at whether a table was rejected. -/
def kchrLoadAccesses (chunks : Nat → Option Mem) (stack data : Mem) (state : KchrState)
    : KchrLog :=
  let kchr := (grabKchr chunks stack data 32).1
  grabKchrAccesses ++ tableTableAccesses kchr state.modifiers ++ charTableAccesses kchr
  ++ deadTableAccesses kchr

/-- The table numbers with which `kchr_keys_for_char` indexes `modifiers`. -/
def tablesUsed (state : KchrState) (c : UInt8) : List UInt8 :=
  if (state.entries c).valid ≠ 0 then
    [(state.entries c).table]
  else if (state.deads c).valid ≠ 0 then
    [(state.deads c).table, (state.entries (state.deads c).compChar).table]
  else
    []

/-- What a resource has to keep to for `kchr_load` to stay inside its arrays. -/
structure LoadsInside (kchr : Mem) : Prop where
  map
    : ∀ i < 0x80, 0x80 ≤ tableFor kchr i →
        ∃ j < i, kchrNtables ≤ tableFor kchr j ∧ tableFor kchr j < 0x80
  counts : deadKeys kchr + 2 ≤ 3072
  records
    : ∀ i < deadCount kchr,
        deadRecord kchr i + 4 + 2 * countAt kchr (deadRecord kchr i + 2) ≤ 3072
  deadTables
    : ∀ c pair, (∀ place ∈ keyPlaces kchr, characterAt kchr place ≠ c) →
        first DeadPair.substitute (deadPairs kchr) c = some pair →
        pair.table.toNat < kchrNtables

/-- A `char` with the top bit set is negative. -/
theorem charAt_neg {kchr : Mem} {p : Nat} (top : 0x80 ≤ (kchr p).toNat) : charAt kchr p < 0 := by
  have value : 0x80 ≤ (kchr p).toBitVec.toNat := top
  change (kchr p).toBitVec.toInt < 0
  rw [BitVec.toInt_eq_toNat_cond, if_neg (by omega)]
  have below := (kchr p).toBitVec.isLt
  omega

/-- A map entry is too large as a `char` from 32 on, while the top bit is clear. -/
theorem charAt_ge_iff {kchr : Mem} {p : Nat}
    : charAt kchr p ≥ kchrNtables ↔ kchrNtables ≤ (kchr p).toNat ∧ (kchr p).toNat < 0x80 := by
  rcases Nat.lt_or_ge (kchr p).toNat 0x80 with plain | top
  · rw [charAt_eq plain]
    omega
  · have negative := charAt_neg top
    have small : kchrNtables = 32 := rfl
    omega

theorem charAt_nonneg_iff {kchr : Mem} {p : Nat} : 0 ≤ charAt kchr p ↔ (kchr p).toNat < 0x80 := by
  rcases Nat.lt_or_ge (kchr p).toNat 0x80 with plain | top
  · rw [charAt_eq plain]
    omega
  · have negative := charAt_neg top
    omega

theorem grabKchrAccesses_inside : InBounds KchrObject.size grabKchrAccesses := by
  intro access member
  obtain ⟨i, below, member⟩ := List.mem_flatMap.mp member
  have chunk := List.mem_range.mp below
  have inside : InBounds KchrObject.size
      (reads .chunkData 0 96 ++ writes .kchr (i * 96 : Nat) 96) := by
    simp only [inBounds_append, inBounds_reads, inBounds_writes, KchrObject.size]
    omega
  exact inside access member

-----------------------------------------------------------------------------------------
-- The modifiers
-----------------------------------------------------------------------------------------

/-- -1 has been returned exactly when an entry before was too large, by induction on the entries.
-/
theorem tableScan_rejected (kchr : Mem) (start : Int → UInt8) (count : Nat)
    : (upTo (TableScan.entry kchr) ⟨start, false⟩ count).rejected = true
      ↔ ∃ j < count, charAt kchr (2 + j) ≥ kchrNtables := by
  have step : ∀ i, ∀ scan : TableScan,
      (scan.entry kchr i).rejected = true
        ↔ scan.rejected = true ∨ charAt kchr (2 + i) ≥ kchrNtables := by
    intro i scan
    simp only [TableScan.entry]
    split_ifs with before large unfilled
    · simp [before]
    · simp [large]
    · simp [before, large]
    · simp [before, large]
  induction count with
  | zero => simp [upTo]
  | succ count ih =>
      exact (step count _).trans ((or_congr_left ih).trans Nat.exists_lt_succ_right.symm)

/-- One entry of the map stays inside unless it is negative when it is used. -/
theorem entryAccesses_inside {kchr : Mem} {i : Nat} (inside : i < 0x80) (scan : TableScan)
    : InBounds KchrObject.size (scan.entryAccesses kchr i)
      ↔ scan.rejected = true ∨ 0 ≤ charAt kchr (2 + i) := by
  have small : kchrNtables = 32 := rfl
  simp only [TableScan.entryAccesses]
  split_ifs with rejected large unfilled
  · simp [rejected]
  all_goals
    simp only [inBounds_cons, inBounds_nil, inside_read, inside_write, KchrObject.size, rejected,
      Bool.false_eq_true, false_or, and_true]
    omega

theorem tableTableAccesses_inside (kchr : Mem) (output : Int → UInt8)
    : InBounds KchrObject.size (tableTableAccesses kchr output)
      ↔ ∀ i < 0x80, 0x80 ≤ tableFor kchr i →
          ∃ j < i, kchrNtables ≤ tableFor kchr j ∧ tableFor kchr j < 0x80 := by
  have cleared : InBounds KchrObject.size (writes .modifiers 0 kchrNtables) := by
    rw [inBounds_writes]
    exact Or.inr ⟨Int.le_refl 0, by decide⟩
  rw [tableTableAccesses, inBounds_append, inBounds_loop, and_iff_right cleared]
  refine forall_congr' fun i => imp_congr_right fun inside => ?_
  rw [entryAccesses_inside inside, tableScan_rejected, charAt_nonneg_iff]
  simp only [charAt_ge_iff, tableFor]
  constructor
  · intro either top
    exact either.resolve_right (by omega)
  · intro earlier
    by_cases top : 0x80 ≤ (kchr (2 + i)).toNat
    · exact Or.inl (earlier top)
    · exact Or.inr (by omega)

-----------------------------------------------------------------------------------------
-- The characters
-----------------------------------------------------------------------------------------

theorem charEntryAccesses_inside (kchr : Mem) (table keycode : Nat)
    (entries : UInt8 → KchrEntry)
    : InBounds KchrObject.size (charEntryAccesses kchr table keycode entries)
      ↔ charTables + table * 0x80 + keycode < 3072 := by
  have byte := (kchr (charTables + table * 0x80 + keycode)).toNat_lt
  simp only [charEntryAccesses]
  split_ifs
  all_goals
    simp only [inBounds_append, inBounds_cons, inBounds_nil, inside_read, inside_write,
      KchrObject.size, and_true]
    omega

/-- The key tables are read inside the buffer exactly when they end inside it. -/
theorem charTableAccesses_inside (kchr : Mem)
    : InBounds KchrObject.size (charTableAccesses kchr)
      ↔ tableCount kchr = 0 ∨ deadKeys kchr ≤ 3072 := by
  have cleared : InBounds KchrObject.size (writes .entries 0 256) := by
    rw [inBounds_writes]
    exact Or.inr ⟨Int.le_refl 0, by decide⟩
  have counted : InBounds KchrObject.size (reads .kchr (2 + 0x100) 2) := by
    rw [inBounds_reads]
    exact Or.inr ⟨by decide, by decide⟩
  rw [charTableAccesses, inBounds_append, inBounds_append, inBounds_loop,
    and_iff_right ⟨cleared, counted⟩]
  simp only [inBounds_loop, charEntryAccesses_inside, deadKeys]
  constructor
  · intro inside
    cases tables : tableCount kchr with
    | zero => exact Or.inl rfl
    | succ last =>
        have end_ := inside last (by omega) 0x7f (by decide)
        exact Or.inr (by omega)
  · rintro ends table below keycode small
    omega

-----------------------------------------------------------------------------------------
-- The dead keys
-----------------------------------------------------------------------------------------

theorem completor_cursor (kchr : Mem) (table keycode : UInt8) (scan : DeadScan) (count : Nat)
    : (upTo (fun _ => DeadScan.completor kchr table keycode) scan count).cursor
      = scan.cursor + 2 * count := by
  apply upTo_invariant fun i (later : DeadScan) => later.cursor = scan.cursor + 2 * i
  · rfl
  · intro i _ later same
    simp only [DeadScan.completor, same]
    omega

theorem completorAccesses_inside (kchr : Mem) (scan : DeadScan)
    : InBounds KchrObject.size (scan.completorAccesses kchr) ↔ scan.cursor + 2 ≤ 3072 := by
  have byte := (kchr (scan.cursor + 1)).toNat_lt
  simp only [DeadScan.completorAccesses]
  split_ifs
  all_goals
    simp only [inBounds_append, inBounds_cons, inBounds_nil, inside_read, inside_write,
      KchrObject.size, and_true]
    omega

/-- A record is read inside the buffer exactly when its last completor lies inside. -/
theorem recordAccesses_inside (kchr : Mem) (scan : DeadScan)
    : InBounds KchrObject.size (scan.recordAccesses kchr)
      ↔ scan.cursor + 4 + 2 * countAt kchr (scan.cursor + 2) ≤ 3072 := by
  simp only [DeadScan.recordAccesses, inBounds_append, inBounds_reads, inBounds_loop,
    completorAccesses_inside, completor_cursor, KchrObject.size]
  constructor
  · rintro ⟨head, inside⟩
    cases count : countAt kchr (scan.cursor + 2) with
    | zero => omega
    | succ last =>
        have end_ := inside last (by omega)
        omega
  · intro ends
    refine ⟨by omega, fun j below => ?_⟩
    omega

theorem deadTableAccesses_inside (kchr : Mem)
    : InBounds KchrObject.size (deadTableAccesses kchr)
      ↔ deadKeys kchr + 2 ≤ 3072
        ∧ ∀ i < deadCount kchr,
            deadRecord kchr i + 4 + 2 * countAt kchr (deadRecord kchr i + 2) ≤ 3072 := by
  have cleared : InBounds KchrObject.size (writes .deads 0 256) := by
    rw [inBounds_writes]
    exact Or.inr ⟨Int.le_refl 0, by decide⟩
  have counted : InBounds KchrObject.size (reads .kchr (2 + 0x100) 2) := by
    rw [inBounds_reads]
    exact Or.inr ⟨by decide, by decide⟩
  rw [deadTableAccesses, inBounds_append, inBounds_append, inBounds_append, inBounds_loop,
    and_iff_right cleared, and_iff_right counted, inBounds_reads]
  simp only [recordAccesses_inside, records_eq, KchrObject.size]
  refine and_congr_left fun _ => ?_
  omega

-----------------------------------------------------------------------------------------
-- The whole layout
-----------------------------------------------------------------------------------------

theorem kchrBuildCharTable_vacant_iff {kchr : Mem} {c : UInt8}
    : (kchrBuildCharTable kchr c).valid = 0
      ↔ ∀ place ∈ keyPlaces kchr, characterAt kchr place ≠ c := by
  rw [kchrBuildCharTable_eq, tableOf, entryOf_vacant, first_eq_none_iff]

/-- Where a key table has a character, its number is below 32 as long as the tables end inside the
buffer.
-/
theorem kchrBuildCharTable_small {kchr : Mem} (counts : deadKeys kchr + 2 ≤ 3072) (c : UInt8)
    : (kchrBuildCharTable kchr c).table.toNat < kchrNtables := by
  rw [kchrBuildCharTable_eq, tableOf]
  cases found : first (characterAt kchr) (keyPlaces kchr) c with
  | none => decide
  | some place =>
      obtain ⟨_, before, rest, split, _⟩ := first_eq_some found
      have member : place ∈ keyPlaces kchr := by simp [split]
      obtain ⟨table, below, member⟩ := List.mem_flatMap.mp member
      obtain ⟨keycode, _, rfl⟩ := List.mem_map.mp member
      have tables := List.mem_range.mp below
      have start : charTables = 260 := rfl
      have small : kchrNtables = 32 := rfl
      rw [deadKeys] at counts
      simp only [entryOf, UInt8.toNat_ofNat']
      omega

/-- The index of dead keys has the number that the record gives. -/
theorem tablesUsed_small_iff (kchr : Mem) (modifiers : Int → UInt8)
    (counts : deadKeys kchr + 2 ≤ 3072)
    : (∀ c, ∀ table ∈ tablesUsed ⟨modifiers, kchrBuildCharTable kchr, kchrBuildDeadTable kchr⟩ c,
        table.toNat < kchrNtables)
      ↔ ∀ c pair, (∀ place ∈ keyPlaces kchr, characterAt kchr place ≠ c) →
          first DeadPair.substitute (deadPairs kchr) c = some pair →
          pair.table.toNat < kchrNtables := by
  constructor
  · intro small c pair nowhere found
    have due := small c pair.table
    rw [tablesUsed, if_neg (by simpa using kchrBuildCharTable_vacant_iff.mpr nowhere)] at due
    simp only [kchrBuildDeadTable_eq, tableOf, found, deadOf] at due
    exact due (by simp)
  · intro small c table member
    simp only [tablesUsed] at member
    split_ifs at member with typed dead
    · rw [List.mem_singleton.mp member]
      exact kchrBuildCharTable_small counts c
    · have nowhere := kchrBuildCharTable_vacant_iff.mp (not_not.mp typed)
      rw [kchrBuildDeadTable_eq, tableOf, ne_eq, deadOf_vacant] at dead
      obtain ⟨pair, found⟩ := Option.ne_none_iff_exists'.mp dead
      rcases List.mem_cons.mp member with rfl | member
      · simp only [kchrBuildDeadTable_eq, tableOf, found, deadOf]
        exact small c pair nowhere found
      · rw [List.mem_singleton.mp member]
        exact kchrBuildCharTable_small counts _
    · cases member

theorem kchrLoad_inside_iff (chunks : Nat → Option Mem) (stack data : Mem) (state : KchrState)
    : InBounds KchrObject.size (kchrLoadAccesses chunks stack data state)
        ∧ (∀ c, ∀ table ∈ tablesUsed (kchrLoad chunks stack data state) c,
            table.toNat < kchrNtables)
      ↔ LoadsInside (grabKchr chunks stack data 32).1 := by
  simp only [kchrLoadAccesses, kchrLoad, inBounds_append, tableTableAccesses_inside,
    charTableAccesses_inside, deadTableAccesses_inside]
  constructor
  · rintro ⟨⟨⟨⟨_, map⟩, _⟩, counts, records⟩, tables⟩
    exact ⟨map, counts, records, (tablesUsed_small_iff _ _ counts).mp tables⟩
  · intro inside
    refine ⟨⟨⟨⟨grabKchrAccesses_inside, inside.map⟩, ?_⟩, inside.counts, inside.records⟩, ?_⟩
    · exact Or.inr (by have counts := inside.counts; omega)
    · exact (tablesUsed_small_iff _ _ inside.counts).mpr inside.deadTables

/-- A layout of 23 key tables, which end behind the buffer. -/
def manyTables : Kernel.TransData := fun i => if i = 2 + 0x100 + 1 then 23 else 0

/-- Nothing rejects it, and the count of its dead keys is read from behind the buffer. -/
theorem manyTables_outside
    : ¬InBounds KchrObject.size
        (kchrLoadAccesses (fun i => Kernel.fbKchrChunk manyTables i) (fun _ => 0) (fun _ => 0)
          .zeroed) := by
  intro inside
  simp only [kchrLoadAccesses, inBounds_append, deadTableAccesses_inside, deadKeys] at inside
  have counts := inside.2.1
  have loaded : tableCount
        (grabKchr (fun i => Kernel.fbKchrChunk manyTables i) (fun _ => 0) (fun _ => 0) 32).1
      = tableCount (Kernel.TransData.kchr manyTables) :=
    tableCount_loaded fun k below => Kernel.grabKchr_kchr (Nat.le_refl 32) k (by omega)
  have many : tableCount (Kernel.TransData.kchr manyTables) = 23 := by decide
  have start : charTables = 260 := rfl
  rw [loaded, many] at counts
  omega

end MiniVnc
