import MiniVnc.FrameBuffer.Bounds

/-! Rows of any width: a row function works in words of the frame, and leaves the columns behind the
last whole word as they were.
-/

namespace MiniVnc
open Library.Memory Library.Loop Library.Accesses

/-- The row at `dst` is expanded over its whole width, and nothing behind it is touched. -/
structure RowExpanded (depth width dst src : Nat) (old screen : Mem) (row : RowCopy)
    (accesses : FrameLog)
    : Prop where
  pixels : ∀ x < width, row.frame (dst + x) = pixel depth screen src x
  behind : ∀ k, dst + width ≤ k → row.frame k = old k
  inside : InBounds (fun _ => dst + width) accesses

/-- The columns behind the last whole word hold the pixels of the screen already. -/
def RemainderShown (depth width dst src : Nat) (old screen : Mem) : Prop :=
  ∀ x, coveredWidth depth width ≤ x → x < width → old (dst + x) = pixel depth screen src x

/-- A row function expands its row over the whole width exactly when the columns it leaves out are
right before: it copies those before them, and stays inside the row.
-/
theorem rowExpanded_iff {depth : Nat} {copy : CopyRow} (known : copyRow? depth = some copy)
    (frame screen : Mem) (dst src width : Nat) (uninitialised : Int)
    : RowExpanded depth width dst src frame screen
          (copy frame screen dst src width uninitialised)
          (copyRowAccesses depth frame screen dst src width uninitialised)
      ↔ RemainderShown depth width dst src frame screen := by
  have copied := copyRow?_copies known frame screen dst src width uninitialised
  have covered := coveredWidth_le depth width
  constructor
  · intro expanded x behind inside
    have kept := copied.kept (dst + x) (Or.inr (Nat.add_le_add_left behind dst))
    rw [← kept]
    exact expanded.pixels x inside
  · intro shown
    refine ⟨fun x inside => ?_, fun k behind => ?_, ?_⟩
    · rcases Nat.lt_or_ge x (coveredWidth depth width) with word | remainder
      · exact copied.copied x word
      · rw [copied.kept (dst + x) (Or.inr (Nat.add_le_add_left remainder dst))]
        exact shown x remainder inside
    · exact copied.kept k (Or.inr (Nat.le_trans (Nat.add_le_add_left covered dst) behind))
    · exact (copyRowAccesses_inside_iff known frame screen dst src width uninitialised).mpr
        (Or.inr (Nat.add_le_add_left covered dst))

/-- Six pixels of 8 bits: the last two are not copied. -/
theorem sixPixels_unexpanded
    : ¬RowExpanded 8 6 0 0 (fun _ => 0) (fun _ => 7)
        (fbCopy8Row (fun _ => 0) (fun _ => 7) 0 0 6 0)
        (copyRowAccesses 8 (fun _ => 0) (fun _ => 7) 0 0 6 0) := by
  intro expanded
  have last := expanded.pixels 5 (by decide)
  exact absurd last (by decide)

/-- Six pixels over a row whose last two are right before. -/
theorem rowExpanded_iff_shown
    : RowExpanded 8 6 0 0 (fun k => if k < 4 then 0 else 7) (fun _ => 7)
          (fbCopy8Row (fun k => if k < 4 then 0 else 7) (fun _ => 7) 0 0 6 0)
          (copyRowAccesses 8 (fun k => if k < 4 then 0 else 7) (fun _ => 7) 0 0 6 0)
      ↔ RemainderShown 8 6 0 0 (fun k => if k < 4 then 0 else 7) (fun _ => 7) :=
  rowExpanded_iff rfl _ _ 0 0 6 0

end MiniVnc
