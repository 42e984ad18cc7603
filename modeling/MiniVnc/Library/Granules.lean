import Mathlib.Order.Bounds.Basic
import Mathlib.Algebra.Order.Ring.Int

/-! Sets of indices rounded out to granules of a fixed size: the bounds of a rounded set are the
tightest bounds at granule ends.
-/

namespace Library.Granules

/-- The indices that share a granule with a marked one. -/
def rounded (size : Nat) (marked : Set Nat) : Set Nat :=
  {x | ∃ k ∈ marked, k / size = x / size}

variable {size low high : Nat} {marked : Set Nat}

theorem subset_rounded : marked ⊆ rounded size marked :=
  fun k member => ⟨k, member, rfl⟩

/-- The smallest index of a rounded set is where a granule starts. -/
theorem dvd_of_isLeast (positive : 0 < size) (least : IsLeast (rounded size marked) low)
    : size ∣ low := by
  have start : low / size * size ∈ rounded size marked := by
    obtain ⟨k, member, together⟩ := least.1
    refine ⟨k, member, ?_⟩
    rw [together, Nat.mul_div_cancel _ positive]
  have same := Nat.le_antisymm (least.2 start) (Nat.div_mul_le_self low size)
  rw [same]
  exact Nat.dvd_mul_left size (low / size)

/-- The largest index of a rounded set is the last of a granule. -/
theorem dvd_of_isGreatest (positive : 0 < size) (greatest : IsGreatest (rounded size marked) high)
    : size ∣ high + 1 := by
  have next : size * (high / size + 1) = size * (high / size) + size := Nat.mul_succ _ _
  have last : size * (high / size) + (size - 1) ∈ rounded size marked := by
    obtain ⟨k, member, together⟩ := greatest.1
    refine ⟨k, member, ?_⟩
    rw [together]
    symm
    apply Nat.div_eq_of_lt_le
    · rw [Nat.mul_comm]
      exact Nat.le_add_right _ _
    · rw [Nat.mul_comm (high / size + 1) size, next]
      omega
  have ends := greatest.2 last
  have below := Nat.lt_mul_div_succ high positive
  have same : high + 1 = size * (high / size + 1) := by omega
  rw [same]
  exact Nat.dvd_mul_right size (high / size + 1)

/-- No granule start below all marked indices lies above the start of the rounded set. -/
theorem le_of_isLeast {bound : Int} (positive : 0 < size)
    (least : IsLeast (rounded size marked) low) (start : (size : Int) ∣ bound)
    (below : ∀ k ∈ marked, bound ≤ (k : Int))
    : bound ≤ low := by
  obtain ⟨k, member, together⟩ := least.1
  obtain ⟨d, rfl⟩ := start
  have granule : k < size * (low / size + 1) := together ▸ Nat.lt_mul_div_succ k positive
  have before : (size : Int) * d < size * (low / size + 1 : Nat) :=
    (below k member).trans_lt (by exact_mod_cast granule)
  have quotient : d ≤ (low / size : Nat) := by
    have := lt_of_mul_lt_mul_left before (Int.natCast_nonneg size)
    omega
  calc (size : Int) * d ≤ size * (low / size : Nat) :=
        mul_le_mul_of_nonneg_left quotient (Int.natCast_nonneg size)
    _ ≤ low := by exact_mod_cast Nat.mul_div_le low size

/-- No granule end above all marked indices lies below the end of the rounded set. -/
theorem ge_of_isGreatest {bound : Int} (positive : 0 < size)
    (greatest : IsGreatest (rounded size marked) high) (last : (size : Int) ∣ bound + 1)
    (above : ∀ k ∈ marked, (k : Int) ≤ bound)
    : (high : Int) ≤ bound := by
  obtain ⟨k, member, together⟩ := greatest.1
  obtain ⟨d, ends⟩ := last
  have granule : size * (high / size) ≤ k := together ▸ Nat.mul_div_le k size
  have before : (size : Int) * (high / size : Nat) < size * d := by
    have start : ((size * (high / size) : Nat) : Int) ≤ k := Int.ofNat_le.mpr granule
    have inside := above k member
    push_cast at start ⊢
    omega
  have quotient : ((high / size + 1 : Nat) : Int) ≤ d := by
    have := lt_of_mul_lt_mul_left before (Int.natCast_nonneg size)
    omega
  have below : ((high + 1 : Nat) : Int) ≤ bound + 1 :=
    calc ((high + 1 : Nat) : Int) ≤ (size * (high / size + 1) : Nat) :=
          Int.ofNat_le.mpr (Nat.lt_mul_div_succ high positive)
      _ = (size : Int) * (high / size + 1 : Nat) := by push_cast; rfl
      _ ≤ size * d := mul_le_mul_of_nonneg_left quotient (Int.natCast_nonneg size)
      _ = bound + 1 := ends.symm
  omega

end Library.Granules
