import Mathlib.Data.List.Basic
import MiniVnc.Kernel.Driver

/-! The indices that the driver's entry points use: on which inputs they keep to the devices and
modes that exist, and to the palette that fits.
-/

namespace MiniVnc.Kernel
open Library.Memory Library.Stream

/-- The entry points that use a device's modes, once it has been opened. -/
inductive Entry where
  | opening
  | reading
  | mode
  | clutChunk (chunk : Int16)
  | clutHash

/-- The device and the mode that are used exist, and the palette entries that are asked for fit into
the 2048 bytes of `fb_c`.
-/
def Use.Existing (machine : Machine) (vars : Vars) : Use → Prop
  | .videoDesc index => index < vars.videoCount
  | .fbVp device mode => device < machine.nscreens ∧ 0 ≤ mode ∧ mode < qdMaxModes
  | .getEntries count => count ≤ 256
  | _ => True

/-- A call returns an error, or uses nothing that does not exist. -/
abbrev KeepsToExisting {α : Type} (machine : Machine) (vars : Vars) (call : Call α) : Prop :=
  KeepsTo (Use.Existing machine vars) vars call

def Entry.Valid (machine : Machine) (minor : Nat) (vars : Vars) : Entry → Prop
  | .opening => KeepsToExisting machine vars (fbOpen machine minor)
  | .reading => KeepsToExisting machine vars (fbRead machine minor)
  | .mode => KeepsToExisting machine vars (ioctlMode machine minor)
  | .clutChunk chunk => KeepsToExisting machine vars (ioctlClutChunk machine minor chunk)
  | .clutHash => KeepsToExisting machine vars (ioctlClutHash machine minor)

/-- The mode reported is one of those that are cached. -/
def ModeCached (machine : Machine) : Prop :=
  0x80 ≤ machine.csMode.toInt ∧ machine.csMode.toInt < 0x80 + qdMaxModes

/-- The mode reported has at most 8 bits per pixel, as far as a shift tells. -/
def ModeIndexed (machine : Machine) (minor : Nat) (vars : Vars) : Prop :=
  (vars.fbVp minor (fbCurrentMode machine - 0x80)).vpPixelSize.toInt % 64 ≤ 8

/-- What an input has to satisfy where the entry point does not check it: each makes another part of
the checks.
-/
def Entry.SafeInput (machine : Machine) (minor : Nat) (vars : Vars) : Entry → Prop
  | .opening => minor < vars.videoCount
  | .reading => vars.videoCount ≤ minor ∨ machine.uiomove ≠ 0 ∨ ModeCached machine
  | .mode =>
      0x80 + qdMaxModes ≤ machine.csMode.toInt
        ∨ minor < vars.videoCount ∧ 0x80 ≤ machine.csMode.toInt
  | .clutChunk _ | .clutHash =>
      minor < vars.videoCount ∧ ModeCached machine ∧ ModeIndexed machine minor vars

-----------------------------------------------------------------------------------------
-- What each function uses
-----------------------------------------------------------------------------------------

/-- The loop over the modes returns, and uses modes of its device only. By induction on the space
that is left.
-/
theorem cacheModes_ok (slots : SlotManager) (videoId : Nat) (slot : Int) (left i : Nat)
    (vars : Vars)
    : ∃ after more, cacheModes slots videoId slot left i vars = .ok () after
        ∧ after.uses = vars.uses ++ more
        ∧ ∀ used ∈ more, ∃ j : Nat, j < i + left ∧ used = .fbVp videoId j := by
  induction left generalizing i vars with
  | zero => exact ⟨vars, [], rfl, by simp, by simp⟩
  | succ left ih =>
      rw [cacheModes, use, modify_bind]
      cases answer : fbGetVpblock slots slot (0x80 + i) with
      | error e =>
          refine ⟨_, [.fbVp videoId i], rfl, rfl, ?_⟩
          intro used member
          exact ⟨i, by omega, List.mem_singleton.mp member⟩
      | ok vpb =>
          obtain ⟨after, more, returned, uses, inside⟩ := ih (i + 1) _
          refine ⟨after, .fbVp videoId i :: more, returned, ?_, ?_⟩
          · rw [uses]
            simp
          · intro used member
            rcases List.mem_cons.mp member with rfl | later
            · exact ⟨i, by omega, rfl⟩
            · obtain ⟨j, below, rfl⟩ := inside used later
              exact ⟨j, by omega, rfl⟩

/-- Every count that the shift distinguishes: up to 8 it keeps to 256 colours. -/
theorem shift_le_iff
    : ∀ n : Nat, n < 64 →
        (((if (n : Int) < 32 then Int32.ofInt (2 ^ n) else 0) - 1).toUInt32.toUInt16.toNat + 1
            ≤ 256
          ↔ n ≤ 8) := by
  decide

theorem entriesFor_le_iff (vpPixelSize : Int16)
    : entriesFor vpPixelSize ≤ 256 ↔ vpPixelSize.toInt % 64 ≤ 8 := by
  have nonneg : 0 ≤ vpPixelSize.toInt % 64 := Int.emod_nonneg _ (by decide)
  obtain ⟨n, modulo⟩ := Int.eq_ofNat_of_zero_le nonneg
  have below : n < 64 := by omega
  have shifted := shift_le_iff n below
  simp only [entriesFor, shiftedOne, modulo, Int.toNat_natCast, shifted]
  omega

-----------------------------------------------------------------------------------------
-- The entry points
-----------------------------------------------------------------------------------------

section Entries

variable {machine : Machine} {minor : Nat} {vars : Vars}

theorem fbVp_existing_iff (opened : minor < machine.nscreens)
    : (Use.fbVp minor (fbCurrentMode machine - 0x80)).Existing machine vars
      ↔ ModeCached machine := by
  simp only [Use.Existing, ModeCached, fbCurrentMode, opened, true_and]
  omega

/-- What `fb_getCLUTFor` uses exists exactly when nothing that it leaves unchecked is wrong. -/
theorem refreshed_existing_iff (opened : minor < machine.nscreens)
    : (∀ used ∈ (vars.fresh.refreshed machine minor).uses,
          used.Existing machine vars)
      ↔ minor < vars.videoCount ∧ ModeCached machine ∧ ModeIndexed machine minor vars := by
  simp only [Vars.refreshed, Vars.fresh, List.nil_append, List.forall_mem_cons,
    fbVp_existing_iff opened]
  simp only [Use.Existing, entriesFor_le_iff, ModeIndexed]
  simp

theorem fbOpen_existing_iff (opened : minor < machine.nscreens)
    : KeepsToExisting machine vars (fbOpen machine minor) ↔ minor < vars.videoCount := by
  obtain ⟨after, more, returned, uses, modes⟩ :=
    cacheModes_ok machine.slots minor (vars.videoDesc minor).videoSlot.toInt qdMaxModes 0
      { vars with uses := [.videoDesc minor] }
  have call : fbOpen machine minor vars.fresh = .ok () after := by
    rw [fbOpen, if_neg (Nat.not_le.mpr opened)]
    exact returned
  rw [KeepsToExisting, keepsTo_ok call, uses]
  constructor
  · intro existing
    exact existing (.videoDesc minor) (by simp)
  · intro device used member
    rcases List.mem_append.mp member with first | later
    · rw [List.mem_singleton.mp first]
      exact device
    · obtain ⟨j, below, rfl⟩ := modes used later
      exact ⟨opened, Int.natCast_nonneg j, by omega⟩

theorem fbRead_existing_iff (opened : minor < machine.nscreens)
    : KeepsToExisting machine vars (fbRead machine minor)
      ↔ vars.videoCount ≤ minor ∨ machine.uiomove ≠ 0 ∨ ModeCached machine := by
  rcases Nat.lt_or_ge minor vars.videoCount with device | none
  · have passed : ¬minor ≥ vars.fresh.videoCount := Nat.not_le.mpr device
    by_cases moved : machine.uiomove = 0
    · have call : ∃ size, fbRead machine minor vars.fresh
          = .ok size
            { vars with
              uses := [.videoDesc minor, .fbVp minor (fbCurrentMode machine - 0x80)] } := by
        simp only [fbRead, get_bind, if_neg passed, if_pos moved]
        exact ⟨_, rfl⟩
      obtain ⟨size, call⟩ := call
      rw [KeepsToExisting, keepsTo_ok call]
      simp only [List.forall_mem_cons, fbVp_existing_iff opened]
      simp [Use.Existing, device, moved]
    · have call : ∃ after, fbRead machine minor vars.fresh
          = .error machine.uiomove after := by
        simp only [fbRead, get_bind, if_neg passed, if_neg moved]
        exact ⟨_, rfl⟩
      obtain ⟨after, call⟩ := call
      exact iff_of_true (keepsTo_error call) (Or.inr (Or.inl moved))
  · have call : fbRead machine minor vars.fresh
        = .error einval vars.fresh := by
      have stopped : minor ≥ vars.fresh.videoCount := none
      simp only [fbRead, get_bind, if_pos stopped]
      rfl
    exact iff_of_true (keepsTo_error call) (Or.inl none)

theorem ioctlMode_existing_iff (opened : minor < machine.nscreens)
    : KeepsToExisting machine vars (ioctlMode machine minor)
      ↔ 0x80 + qdMaxModes ≤ machine.csMode.toInt
        ∨ minor < vars.videoCount ∧ 0x80 ≤ machine.csMode.toInt := by
  by_cases high : fbCurrentMode machine - 0x80 ≥ qdMaxModes
  · have call : ∃ after, ioctlMode machine minor vars.fresh = .error einval after := by
      simp only [ioctlMode, if_pos high]
      exact ⟨_, rfl⟩
    obtain ⟨after, call⟩ := call
    refine iff_of_true (keepsTo_error call) (Or.inl ?_)
    rw [fbCurrentMode] at high
    omega
  · have call : ∃ block, ioctlMode machine minor vars.fresh
        = .ok block
          { vars with
            uses := [.videoDesc minor, .fbVp minor (fbCurrentMode machine - 0x80)] } := by
      simp only [ioctlMode, if_neg high]
      exact ⟨_, rfl⟩
    obtain ⟨block, call⟩ := call
    rw [KeepsToExisting, keepsTo_ok call]
    simp only [List.forall_mem_cons, fbVp_existing_iff opened]
    rw [fbCurrentMode] at high
    simp only [Use.Existing, ModeCached, List.not_mem_nil, false_implies, implies_true, and_true]
    omega

/-- The bytes of `fb_c` are not in question here. -/
theorem copied_existing_iff (before : Vars) (base : Int) (count : Nat)
    : (∀ used ∈ (before.copied base count).uses, used.Existing machine vars)
      ↔ ∀ used ∈ before.uses, used.Existing machine vars := by
  rw [Vars.copied, List.forall_mem_append]
  refine and_iff_left fun used member => ?_
  obtain ⟨i, _, rfl⟩ := List.mem_map.mp member
  trivial

theorem ioctlClutChunk_existing_iff (opened : minor < machine.nscreens) (chunk : Int16)
    : KeepsToExisting machine vars (ioctlClutChunk machine minor chunk)
      ↔ minor < vars.videoCount ∧ ModeCached machine ∧ ModeIndexed machine minor vars := by
  rw [KeepsToExisting, keepsTo_ok (ioctlClutChunk_ok machine minor chunk vars.fresh),
    copied_existing_iff, refreshed_existing_iff opened]

theorem ioctlClutHash_existing_iff (opened : minor < machine.nscreens)
    : KeepsToExisting machine vars (ioctlClutHash machine minor)
      ↔ minor < vars.videoCount ∧ ModeCached machine ∧ ModeIndexed machine minor vars := by
  obtain ⟨hash, after, call, uses⟩ := ioctlClutHash_ok machine minor vars.fresh
  rw [KeepsToExisting, keepsTo_ok call, uses, Vars.fresh_uses, Vars.fresh_fresh, List.nil_append,
    List.forall_mem_cons, copied_existing_iff, refreshed_existing_iff opened]
  exact and_iff_right_of_imp fun checked => checked.1

/-- For every minor number that `fb_open` lets through and every mode that may be reported, an entry
point returns an error or uses only what exists exactly when what it does not check is right.
By cases on the entry point.
-/
theorem entry_valid_iff (opened : minor < machine.nscreens) (entry : Entry)
    : entry.Valid machine minor vars ↔ entry.SafeInput machine minor vars := by
  cases entry with
  | opening => exact fbOpen_existing_iff opened
  | reading => exact fbRead_existing_iff opened
  | mode => exact ioctlMode_existing_iff opened
  | clutChunk chunk => exact ioctlClutChunk_existing_iff opened chunk
  | clutHash => exact ioctlClutHash_existing_iff opened

end Entries

theorem entry_valid_iff_indexed
    : Entry.clutHash.Valid (oneScreen 0x80) 0 (oneScreenVars (wideMode 8 640))
      ↔ Entry.clutHash.SafeInput (oneScreen 0x80) 0 (oneScreenVars (wideMode 8 640)) :=
  entry_valid_iff (by decide) .clutHash

/-- In a mode of 16 bits per pixel the driver is asked for 65536 entries of eight bytes; the other
entry points go wrong on a device or a mode that does not exist.
-/
theorem entries_overrun
    : .getEntries 65536
        ∈ usesOf (ioctlClutHash (oneScreen 0x80) 0) (oneScreenVars (wideMode 16 1280))
      ∧ ¬Entry.clutHash.Valid (oneScreen 0x80) 0 (oneScreenVars (wideMode 16 1280))
      ∧ ¬(Entry.clutChunk 0).Valid (oneScreen 0x80) 0 (oneScreenVars (wideMode 16 1280))
      ∧ ¬Entry.mode.Valid (oneScreen 0x7f) 0 (oneScreenVars (wideMode 8 640))
      ∧ ¬Entry.reading.Valid (oneScreen 0x86) 0 (oneScreenVars (wideMode 8 640))
      ∧ ¬Entry.opening.Valid (oneScreen 0x80) 1 (oneScreenVars (wideMode 8 640)) := by
  have direct : ¬ModeIndexed (oneScreen 0x80) 0 (oneScreenVars (wideMode 16 1280)) := by
    simp only [ModeIndexed]
    decide
  refine ⟨?_, ?_, ?_, ?_, ?_, ?_⟩
  · obtain ⟨hash, after, call, uses⟩ :=
      ioctlClutHash_ok (oneScreen 0x80) 0 (oneScreenVars (wideMode 16 1280)).fresh
    have entries : entriesFor 16 = 65536 := by decide
    rw [usesOf, call, endState, uses, ← entries]
    exact .tail _ (.tail _ (.tail _ (.head _)))
  · exact fun valid => direct ((ioctlClutHash_existing_iff (by decide)).mp valid).2.2
  · exact fun valid => direct ((ioctlClutChunk_existing_iff (by decide) 0).mp valid).2.2
  · exact fun valid => absurd ((ioctlMode_existing_iff (by decide)).mp valid) (by decide)
  · intro valid
    rcases (fbRead_existing_iff (by decide)).mp valid with none | failed | cached
    · exact absurd none (by decide)
    · exact failed rfl
    · exact absurd cached.2 (by decide)
  · exact fun valid => absurd ((fbOpen_existing_iff (by decide)).mp valid) (by decide)

end MiniVnc.Kernel
