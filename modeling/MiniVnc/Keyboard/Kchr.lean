import MiniVnc.Library.Loop
import MiniVnc.Messages

/-! `kchr.c`: a KCHR is a resource that maps keyboard keys to the characters they should produce,
a "keyboard layout". The routines here reverse it, to start from a character and end up with
some key codes.
-/

namespace MiniVnc
open Library.Memory Library.Loop

def kchrCmdKey : UInt8 := 1
def kchrShiftKey : UInt8 := 2
def kchrLockKey : UInt8 := 4
def kchrOptionKey : UInt8 := 8
def kchrCtrlKey : UInt8 := 16

structure KchrEntry where
  valid : UInt8
  table : UInt8
  keycode : UInt8
deriving Repr, DecidableEq

structure KchrDeadSub where
  valid : UInt8
  table : UInt8
  deadkey : UInt8
  compChar : UInt8
deriving Repr, DecidableEq

structure KchrVkeypress where
  valid : UInt8
  modifiers : UInt8
  keycode : UInt8
deriving Repr, DecidableEq

structure KchrKeypresses where
  fst : KchrVkeypress
  snd : KchrVkeypress
deriving Repr, DecidableEq

def kchrNtables : Nat := 32

/-- `kchr_state`. The array `modifiers` is addressed by the offset from its start; offsets below 0
are the memory in front of it, and nothing is stored from 32 on, where the entries are.
-/
structure KchrState where
  modifiers : Int → UInt8
  entries : UInt8 → KchrEntry
  deads : UInt8 → KchrDeadSub

/-- The state of a session that has been cleared. -/
def KchrState.zeroed : KchrState where
  modifiers := fun _ => 0
  entries := fun _ => ⟨0, 0, 0⟩
  deads := fun _ => ⟨0, 0, 0, 0⟩

/-- `sizeof(struct kchr_entry)` -/
def kchrEntrySize : Nat := 3

/-- The byte `offset` bytes behind the start of the entries. -/
def entriesByte (entries : UInt8 → KchrEntry) (offset : Nat) : UInt8 :=
  let entry := entries (UInt8.ofNat (offset / kchrEntrySize))
  match offset % kchrEntrySize with
  | 0 => entry.valid
  | 1 => entry.table
  | _ => entry.keycode

/-- `state->modifiers[table]`: nothing checks the table, and from 32 on it is a byte of the
entries.
-/
def KchrState.modifiersAt (state : KchrState) (table : UInt8) : UInt8 :=
  if table.toNat < kchrNtables then
    state.modifiers table.toNat
  else
    entriesByte state.entries (table.toNat - kchrNtables)

theorem KchrState.modifiersAt_small {table : UInt8} (small : table.toNat < kchrNtables)
    (state : KchrState)
    : state.modifiersAt table = state.modifiers table.toNat :=
  if_pos small

/-- The byte at `p` as a `char`, which is signed. -/
def charAt (mem : Mem) (p : Nat) : Int := (mem p).toInt8.toInt

/-- The output of `kchr_build_table_table`; `rejected` when it has returned -1. -/
structure TableScan where
  output : Int → UInt8
  rejected : Bool

/-- One entry of the modifiers → table map: `i` is the modifiers, `cursor[i]` the table. -/
def TableScan.entry (kchr : Mem) (i : Nat) (scan : TableScan) : TableScan :=
  let table := charAt kchr (2 + i)
  if scan.rejected then
    scan
  else if table ≥ kchrNtables then
    { scan with rejected := true }
  else if scan.output table = 0xff then
    { scan with output := Function.update scan.output table (UInt8.ofNat i) }
  else
    scan

/-- Builds a table number → modifiers map, the inverse of the one in the resource. -/
def kchrBuildTableTable (kchr : Mem) (output : Int → UInt8) : TableScan :=
  upTo (TableScan.entry kchr)
    ⟨fun table => if 0 ≤ table ∧ table < kchrNtables then 0xff else output table, false⟩ 0x80

/-- `*(short*)` in an `unsigned short` -/
def countAt (kchr : Mem) (p : Nat) : Nat := (ushortAt kchr p).toNat

/-- Where the character tables start, behind the version, the table of tables and the count. -/
def charTables : Nat := 2 + 0x100 + 2

def tableCount (kchr : Mem) : Nat := countAt kchr (2 + 0x100)

/-- One key of one table. -/
def charEntry (kchr : Mem) (table keyInTable : Nat) (entries : UInt8 → KchrEntry)
    : UInt8 → KchrEntry :=
  let character := kchr (charTables + table * 0x80 + keyInTable)
  if (entries character).valid = 0 then
    Function.update entries character ⟨1, UInt8.ofNat table, UInt8.ofNat keyInTable⟩
  else
    entries

/-- Builds a char → (table, keycode) table. -/
def kchrBuildCharTable (kchr : Mem) : UInt8 → KchrEntry :=
  upTo (fun table entries => upTo (charEntry kchr table) entries 0x80) (fun _ => ⟨0, 0, 0⟩)
    (tableCount kchr)

/-- The cursor and the entries of `kchr_build_dead_table`. -/
structure DeadScan where
  cursor : Nat
  entries : UInt8 → KchrDeadSub

/-- One completor and its substituting character, for the dead key given. -/
def DeadScan.completor (kchr : Mem) (deadTable deadKeycode : UInt8) (scan : DeadScan)
    : DeadScan :=
  let completorChar := kchr scan.cursor
  let substitutingChar := kchr (scan.cursor + 1)
  { cursor := scan.cursor + 2
    entries :=
      if (scan.entries substitutingChar).valid = 0 then
        Function.update scan.entries substitutingChar
          ⟨1, deadTable, deadKeycode, completorChar⟩
      else
        scan.entries }

/-- One dead key with its completors; the no match char is skipped. -/
def DeadScan.record (kchr : Mem) (scan : DeadScan) : DeadScan :=
  let deadTable := kchr scan.cursor
  let deadKeycode := kchr (scan.cursor + 1)
  let completorCount := countAt kchr (scan.cursor + 2)
  let completors :=
    upTo (fun _ => DeadScan.completor kchr deadTable deadKeycode)
      { scan with cursor := scan.cursor + 4 } completorCount
  { completors with cursor := completors.cursor + 2 }

/-- Where the dead keys start, at their count. -/
def deadKeys (kchr : Mem) : Nat := charTables + tableCount kchr * 0x80

/-- Builds char → deadkey tables. -/
def kchrBuildDeadTable (kchr : Mem) : UInt8 → KchrDeadSub :=
  (upTo (fun _ => DeadScan.record kchr) ⟨deadKeys kchr + 2, fun _ => ⟨0, 0, 0, 0⟩⟩
    (countAt kchr (deadKeys kchr))).entries

/-- The first `count` of the 32 chunks of 96 bytes copied to `kchr`, with the chunk last read.
Nobody looks at the result of the ioctl: after one that fails, the chunk before is copied again.
-/
def grabKchr (chunks : Nat → Option Mem) (kchr data : Mem) : Nat → Mem × Mem
  | 0 => (kchr, data)
  | i + 1 =>
      let (kchr, data) := grabKchr chunks kchr data i
      let data := (chunks i).getD data
      (copyIn kchr (i * 96) (slice data 0 96), data)

/-- `kchr_load`; `stack` and `data` are what the buffers, with the memory behind them, hold at
the start.
-/
def kchrLoad (chunks : Nat → Option Mem) (stack data : Mem) (state : KchrState) : KchrState :=
  let kchr := (grabKchr chunks stack data 32).1
  { modifiers := (kchrBuildTableTable kchr state.modifiers).output
    entries := kchrBuildCharTable kchr
    deads := kchrBuildDeadTable kchr }

def kchrKeysForChar (state : KchrState) (c : UInt8) : KchrKeypresses :=
  -- Easy case: is it a single keystroke?
  if (state.entries c).valid ≠ 0 then
    { fst :=
        ⟨1, state.modifiersAt (state.entries c).table, (state.entries c).keycode⟩
      snd := ⟨0, 0, 0⟩ }
  -- If not, is it a dead key?
  else if (state.deads c).valid ≠ 0 then
    let sndChr := (state.deads c).compChar
    { fst := ⟨1, state.modifiersAt (state.deads c).table, (state.deads c).deadkey⟩
      snd :=
        ⟨1, state.modifiersAt (state.entries sndChr).table,
          (state.entries sndChr).keycode⟩ }
  else
    ⟨⟨0, 0, 0⟩, ⟨0, 0, 0⟩⟩

end MiniVnc
