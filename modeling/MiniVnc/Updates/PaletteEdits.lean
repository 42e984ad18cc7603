import MiniVnc.Kernel.Edits
import MiniVnc.Updates.Framing

/-! Small edits of the palette: the hash that `fb_update_clut` compares tells them all. -/

namespace MiniVnc
open Library.Memory Library.Stream

/-- The colour components of a `ColorSpec`, two bytes each behind its `value`. -/
inductive Component
  | red
  | green
  | blue

def Component.offset : Component → Nat
  | .red => 2
  | .green => 4
  | .blue => 6

/-- One component, or two adjacent ones: red and green, or green and blue. The blue of an entry
is not adjacent to the next red, since the next `value` lies between them.
-/
def Component.Adjacent (first last : Component) : Prop :=
  first.offset ≤ last.offset ∧ last.offset ≤ first.offset + 2

/-- The palettes differ, but only in the components of an entry from `first` to `last`. -/
abbrev Recoloured (entry : Nat) (first last : Component) (old new : Mem) : Prop :=
  Kernel.DifferWithin (8 * entry + first.offset) (8 * entry + last.offset + 2) 2048 old new

/-- An update whose stored hash is that of the old palette fetches the new one. -/
theorem Recoloured.noticed {entry : Nat} {first last : Component} {old new : Mem}
    {driver : Driver} {fb fb' : FrameBuffer} (edited : Recoloured entry first last old new)
    (adjacent : first.Adjacent last) (hash : driver.clutHash = some (Kernel.fbClutHash new))
    (stored : fb.clutHash = Kernel.fbClutHash old) (updated : fbUpdateClut driver fb = .ok () fb')
    : fb'.clutHash = Kernel.fbClutHash new ∧ fb'.clutChanged = true
      ∧ Fetched driver 32 fb'.clut := by
  have differs : Kernel.fbClutHash old ≠ Kernel.fbClutHash new :=
    edited.fbCrc32buf_differs (by have := adjacent.2; omega)
  cases (fbUpdateClut_ok updated).1 with
  | kept hash' =>
      rw [hash, stored] at hash'
      exact absurd (Option.some.inj hash').symm differs
  | fetched hash' _ set chunks =>
      rw [hash] at hash'
      exact ⟨(Option.some.inj hash').symm, set, chunks⟩

/-- Buffers of the same length that are different, but only within four consecutive bytes, have
different checksums; an edit of one component of a palette entry, or of two adjacent ones,
changes the hash, and the update that compares it fetches the palette.
-/
theorem localised_edits_noticed
    : (∀ (left right : Mem) (len start : Nat), Kernel.DifferWithin start (start + 4) len left right
        → Kernel.fbCrc32buf left len ≠ Kernel.fbCrc32buf right len)
      ∧ ∀ (old new : Mem) (entry : Nat) (first last : Component), first.Adjacent last
        → Recoloured entry first last old new
        → Kernel.fbClutHash old ≠ Kernel.fbClutHash new
          ∧ ∀ (driver : Driver) (fb fb' : FrameBuffer),
              driver.clutHash = some (Kernel.fbClutHash new) → fb.clutHash = Kernel.fbClutHash old
              → fbUpdateClut driver fb = .ok () fb'
              → fb'.clutHash = Kernel.fbClutHash new ∧ fb'.clutChanged = true
                ∧ Fetched driver 32 fb'.clut := by
  refine ⟨fun left right len start edited => ?_, fun old new entry first last adjacent edited => ?_⟩
  · exact edited.fbCrc32buf_differs (Nat.le_refl _)
  · refine ⟨edited.fbCrc32buf_differs (by have := adjacent.2; omega), ?_⟩
    intro driver fb fb' hash stored updated
    exact edited.noticed adjacent hash stored updated

/-- A palette in which the first entry has got a little red. -/
def reddened : Mem := fun k => if k = 3 then 1 else 0

theorem reddened_recoloured : Recoloured 0 .red .red (fun _ => 0) reddened :=
  ⟨fun _ _ outside => (if_neg (by simp only [Component.offset] at outside; omega)).symm,
    3, by decide, by decide⟩

theorem localised_edits_noticed_reddened
    : Kernel.fbCrc32buf (fun _ => 0) 5 ≠ Kernel.fbCrc32buf reddened 5
      ∧ ∃ fb', fbUpdateClut (smallDriver (fun _ => 7) (Kernel.fbClutHash reddened))
            { blankSession.fb with clutHash := Kernel.fbClutHash fun _ => 0 } = .ok () fb'
          ∧ fb'.clutChanged = true := by
  obtain ⟨bytes, palettes⟩ := localised_edits_noticed
  refine ⟨bytes _ _ 5 2 ⟨fun k _ outside => (if_neg (by omega)).symm, 3, by decide, by decide⟩, ?_⟩
  have answers := smallDriver_answers (fun _ => 7) (Kernel.fbClutHash reddened)
  obtain ⟨fb', updated⟩ :=
    @fbUpdateClut_returns (smallDriver (fun _ => 7) (Kernel.fbClutHash reddened)) _ rfl
      { blankSession.fb with clutHash := Kernel.fbClutHash fun _ => 0 } fun _ => answers.clutChunk
  have adjacent : Component.red.Adjacent .red := ⟨Nat.le_refl _, by decide⟩
  obtain ⟨_, noticed⟩ := palettes _ _ 0 .red .red adjacent reddened_recoloured
  exact ⟨fb', updated, (noticed _ _ fb' rfl rfl updated).2.1⟩

end MiniVnc
