import MiniVnc.Keyboard.Kchr

/-! The kernel's copy of the KCHR, as it is read through `/dev/fb0`. -/

namespace MiniVnc.Kernel
open Library.Memory

/-- `transData`, addressed by the offset from its start, holds the KCHR that the mac environment
is currently using.
-/
abbrev TransData := Int → UInt8

/-- `FB_KB_KCHR_CHUNK`: 96 bytes from `chunk * 96` on. Only a number that is too large is an
error.
-/
def fbKchrChunk (transData : TransData) (chunk : Int) : Option Mem :=
  if chunk ≥ 32 then none else some fun i => transData (chunk * 96 + i)

/-- The KCHR of the kernel. -/
def TransData.kchr (transData : TransData) : Mem := fun i => transData i

/-- Reading the chunks one by one gives the KCHR, up to the end of the last one. By induction on
their number.
-/
theorem grabKchr_kchr {transData : TransData} {stack data : Mem} {count : Nat}
    (inside : count ≤ 32)
    : ∀ k < count * 96,
        (grabKchr (fun i => fbKchrChunk transData i) stack data count).1 k
          = transData.kchr k := by
  induction count with
  | zero => intro k hk; omega
  | succ count ih =>
      intro k hk
      have read : fbKchrChunk transData count
          = some fun i => transData ((count : Int) * 96 + (i : Nat)) := by
        rw [fbKchrChunk, if_neg (by omega)]
      simp only [grabKchr, read, Option.getD_some]
      rcases Nat.lt_or_ge k (count * 96) with earlier | current
      · rw [copyIn_below earlier]
        exact ih (by omega) k earlier
      · obtain ⟨offset, rfl⟩ := Nat.exists_eq_add_of_le current
        have within : offset < 96 := by omega
        rw [copyIn_inside (by simpa using within)]
        refine (load_slice within).trans ?_
        simp [TransData.kchr]

end MiniVnc.Kernel
