import Mathlib.Data.List.Induction
import MiniVnc.Keyboard.Inverse

/-! The dead keys of a KCHR as records, laid out in memory as the resource definition has them, and
the index that `kchr_build_dead_table` makes of them.
-/

namespace MiniVnc
open Library.Memory Library.Loop Library.FirstMatch

/-- A dead key in a table: its completors, each with the character that substitutes the two, and the
no match char.
-/
structure DeadRecord where
  table : UInt8
  keycode : UInt8
  completors : List (UInt8 × UInt8)
  noMatch : UInt16
  fewCompletors : completors.length < 2 ^ 15

def DeadRecord.bytes (record : DeadRecord) : List UInt8 :=
  record.table :: record.keycode
    :: (ushortBytes (UInt16.ofNat record.completors.length)
      ++ (record.completors.flatMap fun pair => [pair.1, pair.2])
      ++ ushortBytes record.noMatch)

/-- The pairs of a record in reading order. -/
def DeadRecord.pairs (record : DeadRecord) : List DeadPair :=
  record.completors.map fun pair => ⟨record.table, record.keycode, pair.1, pair.2⟩

/-- What a KCHR consists of, up to the end of its dead keys: it fits into the 3072 bytes that are
read of it.
-/
structure KchrLayout where
  version : UInt16
  tableOfTables : List UInt8
  keyTables : List (List UInt8)
  deadRecords : List DeadRecord
  mapWhole : tableOfTables.length = 0x100
  tablesWhole : ∀ table ∈ keyTables, table.length = 0x80
  fewTables : keyTables.length < 2 ^ 15
  fewDead : deadRecords.length < 2 ^ 15
  fits : 2 + 0x100 + 2 + keyTables.length * 0x80 + 2 + (deadRecords.flatMap (·.bytes)).length ≤ 3072

/-- The section of the key tables, and what stands before it. -/
def KchrLayout.keySection (layout : KchrLayout) : List UInt8 :=
  ushortBytes layout.version ++ layout.tableOfTables
    ++ ushortBytes (UInt16.ofNat layout.keyTables.length) ++ layout.keyTables.flatten

def KchrLayout.deadSection (layout : KchrLayout) : List UInt8 :=
  ushortBytes (UInt16.ofNat layout.deadRecords.length) ++ layout.deadRecords.flatMap (·.bytes)

def KchrLayout.bytes (layout : KchrLayout) : List UInt8 :=
  layout.keySection ++ layout.deadSection

/-- All pairs in reading order: record by record, and within one as they stand. -/
def KchrLayout.pairs (layout : KchrLayout) : List DeadPair :=
  layout.deadRecords.flatMap (·.pairs)

/-- Where `kchr_build_dead_table` ends, with what it has entered. -/
def deadScan (kchr : Mem) : DeadScan :=
  upTo (fun _ => DeadScan.record kchr) ⟨deadKeys kchr + 2, fun _ => ⟨0, 0, 0, 0⟩⟩
    (countAt kchr (deadKeys kchr))

theorem kchrBuildDeadTable_scan (kchr : Mem) : kchrBuildDeadTable kchr = (deadScan kchr).entries :=
  rfl

-----------------------------------------------------------------------------------------
-- Reading the layout
-----------------------------------------------------------------------------------------

/-- A count that is stored is read. -/
theorem countAt_held {mem : Mem} {addr count : Nat} (small : count < 2 ^ 16)
    (held : Holds mem addr (ushortBytes (UInt16.ofNat count)))
    : countAt mem addr = count := by
  obtain ⟨high, rest⟩ := holds_cons.mp held
  obtain ⟨low, _⟩ := holds_cons.mp rest
  rw [countAt, ushortAt_eq high low, UInt16.toNat_ofNat_of_lt' small]

/-- Pairs that are stored are read one after the other, by induction on them. -/
theorem pairs_held {mem : Mem} {addr : Nat} {pairs : List (UInt8 × UInt8)}
    (held : Holds mem addr (pairs.flatMap fun pair => [pair.1, pair.2]))
    : (List.range pairs.length).map (fun j => (mem (addr + 2 * j), mem (addr + 2 * j + 1)))
      = pairs := by
  induction pairs generalizing addr with
  | nil => rfl
  | cons pair pairs ih =>
      obtain ⟨completor, rest⟩ := holds_cons.mp held
      obtain ⟨substitute, later⟩ := holds_cons.mp rest
      have following := ih later
      rw [List.length_cons, List.range_succ_eq_map, List.map_cons, List.map_map]
      refine List.cons_eq_cons.mpr ⟨Prod.ext completor substitute, ?_⟩
      calc
        _ = (List.range pairs.length).map
              (fun j => (mem (addr + 1 + 1 + 2 * j), mem (addr + 1 + 1 + 2 * j + 1))) := by
            refine List.map_congr_left fun j _ => ?_
            have place : addr + 2 * (j + 1) = addr + 1 + 1 + 2 * j := by omega
            simp only [Function.comp_apply, Nat.succ_eq_add_one, place]
        _ = pairs := following

theorem ushortBytes_length (v : UInt16) : (ushortBytes v).length = 2 :=
  rfl

theorem pairBytes_length (pairs : List (UInt8 × UInt8))
    : (pairs.flatMap fun pair => [pair.1, pair.2]).length = 2 * pairs.length := by
  rw [List.length_flatMap]
  simp
  omega

theorem DeadRecord.bytes_length (record : DeadRecord)
    : record.bytes.length = 4 + 2 * record.completors.length + 2 := by
  simp only [DeadRecord.bytes, List.length_cons, List.length_append, ushortBytes_length,
    pairBytes_length]
  omega

/-- A record that is stored is read as its pairs. -/
theorem DeadRecord.held {kchr : Mem} {cursor : Nat} {record : DeadRecord}
    (held : Holds kchr cursor record.bytes)
    : countAt kchr (cursor + 2) = record.completors.length
      ∧ deadPairsAt kchr cursor record.completors.length = record.pairs := by
  obtain ⟨table, rest⟩ := holds_cons.mp held
  obtain ⟨keycode, rest⟩ := holds_cons.mp rest
  obtain ⟨rest, _⟩ := holds_append.mp rest
  obtain ⟨count, pairs⟩ := holds_append.mp rest
  refine ⟨countAt_held (by have := record.fewCompletors; omega) count, ?_⟩
  have read
      : (List.range record.completors.length).map
            (fun j => (kchr (cursor + 4 + 2 * j), kchr (cursor + 4 + 2 * j + 1)))
        = record.completors :=
    pairs_held pairs
  rw [DeadRecord.pairs, ← read, List.map_map, deadPairsAt, table, keycode]
  simp

/-- Records that are stored are entered in reading order, and the cursor ends behind the last. By
induction on the records from the last one on.
-/
theorem records_held {kchr : Mem} {cursor : Nat} (records : List DeadRecord)
    (held : Holds kchr cursor (records.flatMap (·.bytes)))
    : upTo (fun _ => DeadScan.record kchr) ⟨cursor, fun _ => ⟨0, 0, 0, 0⟩⟩ records.length
      = ⟨cursor + (records.flatMap (·.bytes)).length,
          tableOf DeadPair.substitute (fun _ => deadOf) (records.flatMap (·.pairs))⟩ := by
  induction records using List.reverseRecOn with
  | nil => rfl
  | append_singleton records record ih =>
      rw [List.flatMap_append, List.flatMap_singleton] at held
      obtain ⟨before, last⟩ := holds_append.mp held
      obtain ⟨count, pairs⟩ := DeadRecord.held last
      rw [List.length_append, List.length_singleton, upTo, ih before, record_eq, count, pairs]
      simp only [List.flatMap_append, List.flatMap_singleton, List.length_append,
        DeadRecord.bytes_length]
      congr 1
      omega

section Layout

variable {layout : KchrLayout} {kchr : Mem}

theorem KchrLayout.tables_length (layout : KchrLayout)
    : layout.keyTables.flatten.length = layout.keyTables.length * 0x80 := by
  rw [List.length_flatten, List.map_congr_left layout.tablesWhole]
  simp

theorem KchrLayout.keySection_length (layout : KchrLayout)
    : layout.keySection.length = charTables + layout.keyTables.length * 0x80 := by
  simp only [keySection, List.length_append, ushortBytes_length, layout.mapWhole,
    layout.tables_length, charTables]

/-- The dead keys are found behind the key tables, as many of them as there are. -/
theorem KchrLayout.deadKeys_held (held : Holds kchr 0 layout.bytes)
    : deadKeys kchr = layout.keySection.length := by
  obtain ⟨keys, _⟩ := holds_append.mp held
  obtain ⟨counted, _⟩ := holds_append.mp keys
  obtain ⟨before, count⟩ := holds_append.mp counted
  rw [List.length_append, ushortBytes_length, layout.mapWhole, Nat.zero_add] at count
  have tables : tableCount kchr = layout.keyTables.length :=
    countAt_held (by have := layout.fewTables; omega) count
  rw [deadKeys, tables, layout.keySection_length]

/-- The scan ends at the end of the section, with the pairs in reading order. -/
theorem KchrLayout.deadScan_held (held : Holds kchr 0 layout.bytes)
    : deadScan kchr
      = ⟨layout.bytes.length, tableOf DeadPair.substitute (fun _ => deadOf) layout.pairs⟩ := by
  obtain ⟨_, section_⟩ := holds_append.mp held
  obtain ⟨count, records⟩ := holds_append.mp section_
  rw [Nat.zero_add, ← layout.deadKeys_held held] at count records
  have many : countAt kchr (deadKeys kchr) = layout.deadRecords.length :=
    countAt_held (by have := layout.fewDead; omega) count
  rw [deadScan, many]
  refine (records_held layout.deadRecords records).trans ?_
  congr 1
  rw [bytes, deadSection, List.length_append, List.length_append, layout.deadKeys_held held,
    Nat.add_assoc]

theorem KchrLayout.substitutes (layout : KchrLayout) (s : UInt8)
    : (∃ pair ∈ layout.pairs, pair.substitute = s)
      ↔ ∃ record ∈ layout.deadRecords, ∃ pair ∈ record.completors, pair.2 = s := by
  simp only [pairs, DeadRecord.pairs, List.mem_flatMap, List.mem_map]
  constructor
  · rintro ⟨_, ⟨record, member, pair, inside, rfl⟩, same⟩
    exact ⟨record, member, pair, inside, same⟩
  · rintro ⟨record, member, pair, inside, same⟩
    exact ⟨_, ⟨record, member, pair, inside, rfl⟩, same⟩

/-- For every KCHR laid out in memory, `kchr_build_dead_table` takes exactly the encoded section,
and its entry for a character is valid exactly when the character is a substitute, and then that of
the first pair in reading order.
-/
theorem deadTable_inverts (held : Holds kchr 0 layout.bytes)
    : (deadScan kchr).cursor = layout.bytes.length
      ∧ kchrBuildDeadTable kchr = (deadScan kchr).entries
      ∧ ∀ s : UInt8,
          ((kchrBuildDeadTable kchr s).valid ≠ 0
              ↔ ∃ record ∈ layout.deadRecords, ∃ pair ∈ record.completors, pair.2 = s)
          ∧ ∀ before pair rest, layout.pairs = before ++ pair :: rest → pair.substitute = s →
              (∀ other ∈ before, other.substitute ≠ s) →
                kchrBuildDeadTable kchr s = ⟨1, pair.table, pair.keycode, pair.completor⟩ := by
  have scanned := layout.deadScan_held held
  have entries : kchrBuildDeadTable kchr
      = tableOf DeadPair.substitute (fun _ => deadOf) layout.pairs := by
    rw [kchrBuildDeadTable_scan, scanned]
  refine ⟨by rw [scanned], rfl, fun s => ⟨?_, ?_⟩⟩
  · rw [entries, tableOf, ne_eq, deadOf_vacant, ← ne_eq, Option.ne_none_iff_isSome,
      first_isSome_iff]
    exact layout.substitutes s
  · intro before pair rest split substitutes others
    have found : first DeadPair.substitute layout.pairs s = some pair :=
      List.find?_eq_some_iff_append.mpr
        ⟨by simpa using substitutes, before, rest, split, by simpa using others⟩
    rw [entries, tableOf, found, deadOf]

end Layout

/-- One empty table and two dead keys: the grave accent with two completors, the acute with one that
the first has as well.
-/
def accents : KchrLayout where
  version := 0
  tableOfTables := List.replicate 0x100 0
  keyTables := [List.replicate 0x80 0]
  deadRecords :=
    [⟨3, 0x32, [(0x61, 0x88), (0x65, 0x8f)], 0x60, by decide⟩,
      ⟨3, 0x0e, [(0x65, 0x8f)], 0xab, by decide⟩]
  mapWhole := List.length_replicate
  tablesWhole := by
    intro table member
    rw [List.mem_singleton.mp member]
    exact List.length_replicate
  fewTables := by decide
  fewDead := by decide
  fits := by decide

theorem deadTable_inverts_accents
    : let kchr := copyIn (fun _ => 0) 0 accents.bytes
      (deadScan kchr).cursor = accents.bytes.length
        ∧ kchrBuildDeadTable kchr 0x8f = ⟨1, 3, 0x32, 0x65⟩ := by
  intro kchr
  obtain ⟨consumed, _, entries⟩ :=
    deadTable_inverts (slice_copyIn (fun _ => 0) 0 accents.bytes)
  exact ⟨consumed,
    (entries 0x8f).2 [⟨3, 0x32, 0x61, 0x88⟩] ⟨3, 0x32, 0x65, 0x8f⟩ [⟨3, 0x0e, 0x65, 0x8f⟩] rfl rfl
      (by decide)⟩

end MiniVnc
