import MiniVnc.Kernel.Driver
import MiniVnc.FrameBuffer.Palette

/-! The chunks in which processes read the palette and the key map: on which numbers they stay
inside their tables, and that the 32 chunks the server asks for are the whole table.
-/

namespace MiniVnc.Kernel
open Library.Memory Library.Stream

/-- A byte of `fb_c` is one of its 2048, and a byte of the key map one of its 3072. -/
def Use.Inside : Use → Prop
  | .fbC offset => 0 ≤ offset ∧ offset < 2048
  | .transData offset => 0 ≤ offset ∧ offset < 3072
  | _ => True

/-- What an ioctl leaves. -/
def afterwards {α : Type} (call : Call α) (vars : Vars) : Vars := endState (call vars)

/-- The variables when the server has read the first `count` chunks of the palette. -/
def afterChunks (machine : Machine) (devIndex : Nat) (vars : Vars) : Nat → Vars
  | 0 => vars
  | i + 1 =>
      afterwards (ioctlClutChunk machine devIndex (Int16.ofNat i))
        (afterChunks machine devIndex vars i)

/-- The chunks of the palette that the server gets, one after the other. -/
def clutChunks (machine : Machine) (devIndex : Nat) (vars : Vars) (i : Nat) : Option Mem :=
  answer (ioctlClutChunk machine devIndex (Int16.ofNat i)) (afterChunks machine devIndex vars i)

/-- The chunks of the key map that it gets. -/
def kchrChunks (machine : Machine) (vars : Vars) (i : Nat) : Option Mem :=
  answer (ioctlKbKchrChunk machine (Int16.ofNat i)) vars

-----------------------------------------------------------------------------------------
-- The bytes of a chunk
-----------------------------------------------------------------------------------------

theorem toInt_ofNat : ∀ {i : Nat}, i < 32 → (Int16.ofNat i).toInt = i := by
  decide

/-- A run of bytes lies inside a table when its first and its last byte do. -/
theorem run_inside_iff {base : Int} {count : Nat} {size : Int} (some_ : 0 < count)
    : (∀ i < count, 0 ≤ base + (i : Nat) ∧ base + (i : Nat) < size)
      ↔ 0 ≤ base ∧ base + count ≤ size := by
  constructor
  · intro inside
    have first := inside 0 some_
    have last := inside (count - 1) (by omega)
    omega
  · intro fits i below
    omega

/-- Refreshing the palette uses no byte of it. -/
theorem refreshed_inside (machine : Machine) (devIndex : Nat) (vars : Vars)
    : ∀ used ∈ (vars.fresh.refreshed machine devIndex).uses, used.Inside := by
  simp [Vars.refreshed, Use.Inside]

section Chunks

variable (machine : Machine) (devIndex : Nat) (chunk : Int16) (vars : Vars)

theorem ioctlClutChunk_inside_iff
    : KeepsTo Use.Inside vars (ioctlClutChunk machine devIndex chunk)
      ↔ 0 ≤ chunk.toInt ∧ chunk.toInt < 32 := by
  have bytes := @run_inside_iff (chunk.toInt * 64) 64 2048 (by decide)
  rw [keepsTo_ok (ioctlClutChunk_ok machine devIndex chunk vars.fresh), Vars.copied,
    List.forall_mem_append, and_iff_right (refreshed_inside machine devIndex vars),
    List.forall_mem_map]
  simp only [List.mem_range, Use.Inside]
  rw [bytes]
  omega

theorem ioctlKbKchrChunk_error (large : 32 ≤ chunk.toInt)
    : ioctlKbKchrChunk machine chunk vars = .error einval vars := by
  rw [ioctlKbKchrChunk, fbKchrChunk, if_pos large]
  rfl

theorem ioctlKbKchrChunk_ok (small : chunk.toInt < 32)
    : ioctlKbKchrChunk machine chunk vars
      = .ok (fun i => machine.transData (chunk.toInt * 96 + (i : Nat)))
        { vars with
          uses :=
            vars.uses
              ++ (List.range 96).map fun (i : Nat) => .transData (chunk.toInt * 96 + i) } := by
  rw [ioctlKbKchrChunk, fbKchrChunk, if_neg (Int.not_le.mpr small)]
  rfl

theorem ioctlKbKchrChunk_inside_iff
    : KeepsTo Use.Inside vars (ioctlKbKchrChunk machine chunk) ↔ 0 ≤ chunk.toInt := by
  rcases Int.lt_or_le chunk.toInt 32 with small | large
  · have bytes := @run_inside_iff (chunk.toInt * 96) 96 3072 (by decide)
    rw [keepsTo_ok (ioctlKbKchrChunk_ok machine chunk vars.fresh small), Vars.fresh_uses,
      List.nil_append, List.forall_mem_map]
    simp only [List.mem_range, Use.Inside]
    rw [bytes]
    omega
  · have failed := ioctlKbKchrChunk_error machine chunk vars.fresh large
    exact iff_of_true (keepsTo_error failed) (by omega)

end Chunks

-----------------------------------------------------------------------------------------
-- The whole tables
-----------------------------------------------------------------------------------------

section Tables

variable (machine : Machine) (devIndex : Nat) (vars : Vars)

/-- Refreshing once more changes nothing. -/
theorem refreshed_again
    : ((vars.refreshed machine devIndex).refreshed machine devIndex).fbC
      = (vars.refreshed machine devIndex).fbC := by
  cases entries : machine.getEntries
      (entriesFor (vars.fbVp devIndex (fbCurrentMode machine - 0x80)).vpPixelSize) with
  | error ret => simp only [Vars.refreshed, entries]
  | ok table =>
      simp only [Vars.refreshed, entries, Vars.withEntries]
      funext k
      split_ifs <;> rfl

/-- Every chunk is taken from one and the same table, by induction on the chunks before it. -/
theorem afterChunks_fbC (count : Nat)
    : ((afterChunks machine devIndex vars count).refreshed machine devIndex).fbC
      = (vars.refreshed machine devIndex).fbC := by
  induction count with
  | zero => rfl
  | succ i ih =>
      rw [afterChunks, afterwards, ioctlClutChunk_ok, endState]
      exact (refreshed_again machine devIndex _).trans ih

theorem clutChunks_eq {i : Nat} (asked : i < 32)
    : clutChunks machine devIndex vars i
      = some fun k => (vars.refreshed machine devIndex).fbC (i * 64 + (k : Nat)) := by
  rw [clutChunks, answer, ioctlClutChunk_ok, toInt_ofNat asked, afterChunks_fbC]

theorem kchrChunks_eq {i : Nat} (asked : i < 32)
    : kchrChunks machine vars i = fbKchrChunk machine.transData i := by
  have small : (Int16.ofNat i).toInt < 32 := by
    rw [toInt_ofNat asked]
    omega
  rw [kchrChunks, answer, ioctlKbKchrChunk_ok machine _ vars small, toInt_ofNat asked,
    fbKchrChunk, if_neg (by omega)]

/-- The chunks asked for determine what is grabbed, by induction on their number. -/
theorem grabKchr_congr {left right : Nat → Option Mem} (kchr data : Mem) {count : Nat}
    (same : ∀ i < count, left i = right i)
    : grabKchr left kchr data count = grabKchr right kchr data count := by
  induction count with
  | zero => rfl
  | succ count ih =>
      rw [grabKchr, grabKchr, ih fun i below => same i (by omega), same count (by omega)]

/-- The server's palette is the driver's, whatever that is. -/
theorem fetchClut_table (driver : Driver) (fb : FrameBuffer)
    : ∃ fb', fetchClut { driver with clutChunk := clutChunks machine devIndex vars } fb
          = .ok () fb'
        ∧ ∀ k < 2048, fb'.clut k = (vars.refreshed machine devIndex).fbC k := by
  obtain ⟨copied, chunks⟩ :=
    @copyClutChunks_returns { driver with clutChunk := clutChunks machine devIndex vars }
      (fun i asked => ⟨_, clutChunks_eq machine devIndex vars asked⟩) fb 32 (Nat.le_refl 32)
  have fetched := (copyClutChunks_ok chunks).1
  refine ⟨_, by rw [fetchClut, bind_ok chunks]; rfl, ?_⟩
  intro k below
  obtain ⟨chunk, answered, stored⟩ := fetched (k / 64) (by omega)
  have place : k / 64 * 64 + k % 64 = k := Nat.div_add_mod' k 64
  have byte := stored (k % 64) (Nat.mod_lt k (by decide))
  cases (clutChunks_eq machine devIndex vars (by omega)).symm.trans answered
  rw [place] at byte
  rw [byte]
  exact congrArg _ (by exact_mod_cast place)

/-- The server's key map is the kernel's. -/
theorem grabKchr_table (stack data : Mem)
    : ∀ k < 3072,
        (grabKchr (kchrChunks machine vars) stack data 32).1 k = machine.transData k := by
  intro k below
  rw [grabKchr_congr stack data fun i asked => kchrChunks_eq machine vars asked]
  exact grabKchr_kchr (Nat.le_refl 32) k (by omega)

end Tables

/-- For every number, a chunk of the palette lies inside it exactly when it is one of the 32, and a
chunk of the key map is refused or lies inside it exactly when its number is not negative.
Chunk after chunk the server gets the whole table.
-/
theorem chunks_inside_iff (machine : Machine) (devIndex : Nat) (chunk : Int16) (vars : Vars)
    (driver : Driver) (fb : FrameBuffer) (stack data : Mem)
    : (KeepsTo Use.Inside vars (ioctlClutChunk machine devIndex chunk)
          ↔ 0 ≤ chunk.toInt ∧ chunk.toInt < 32)
      ∧ (KeepsTo Use.Inside vars (ioctlKbKchrChunk machine chunk) ↔ 0 ≤ chunk.toInt)
      ∧ (∃ fb', fetchClut { driver with clutChunk := clutChunks machine devIndex vars } fb
            = .ok () fb'
          ∧ ∀ k < 2048, fb'.clut k = (vars.refreshed machine devIndex).fbC k)
      ∧ ∀ k < 3072,
          (grabKchr (kchrChunks machine vars) stack data 32).1 k = machine.transData k :=
  ⟨ioctlClutChunk_inside_iff machine devIndex chunk vars,
    ioctlKbKchrChunk_inside_iff machine chunk vars,
    fetchClut_table machine devIndex vars driver fb,
    grabKchr_table machine vars stack data⟩

/-- Chunk -1 of either table lies before it, and chunk 32 of the palette behind it. -/
theorem chunks_outside
    : .transData (-96)
        ∈ usesOf (ioctlKbKchrChunk (oneScreen 0x80) (-1)) (oneScreenVars (wideMode 8 640))
      ∧ ¬KeepsTo Use.Inside (oneScreenVars (wideMode 8 640))
          (ioctlKbKchrChunk (oneScreen 0x80) (-1))
      ∧ ¬KeepsTo Use.Inside (oneScreenVars (wideMode 8 640))
          (ioctlClutChunk (oneScreen 0x80) 0 (-1))
      ∧ ¬KeepsTo Use.Inside (oneScreenVars (wideMode 8 640))
          (ioctlClutChunk (oneScreen 0x80) 0 32) := by
  refine ⟨?_, ?_, ?_, ?_⟩
  · rw [usesOf, ioctlKbKchrChunk_ok (oneScreen 0x80) (-1) _ (by decide), endState]
    exact List.mem_map.mpr ⟨0, by decide, rfl⟩
  · exact fun inside => absurd ((ioctlKbKchrChunk_inside_iff _ _ _).mp inside) (by decide)
  · exact fun inside => absurd ((ioctlClutChunk_inside_iff _ _ _ _).mp inside) (by decide)
  · exact fun inside => absurd ((ioctlClutChunk_inside_iff _ _ _ _).mp inside) (by decide)

end MiniVnc.Kernel
