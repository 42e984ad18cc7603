import Mathlib.Order.Bounds.Basic

/-! Counted loops with their invariant rule, and the extent of the indices such a loop has
marked: the smallest and the largest of them, as a scan in ascending order keeps them.
-/

namespace Library.Loop

variable {σ : Type}

/-- `for (i = 0; i < count; i++) body` -/
def upTo (body : Nat → σ → σ) (start : σ) : Nat → σ
  | 0 => start
  | count + 1 => body count (upTo body start count)

/-- What one iteration carries from its index to the next, the loop carries from zero to its
bound. By induction on the bound.
-/
theorem upTo_invariant {body : Nat → σ → σ} {start : σ} (invariant : Nat → σ → Prop)
    {count : Nat} (initial : invariant 0 start)
    (step : ∀ i < count, ∀ s, invariant i s → invariant (i + 1) (body i s))
    : invariant count (upTo body start count) := by
  induction count with
  | zero => exact initial
  | succ count ih =>
      have before := ih (fun i hi => step i (Nat.lt_succ_of_lt hi))
      exact step count (Nat.lt_succ_self count) _ before

/-- A loop splits at any index. -/
theorem upTo_add (body : Nat → σ → σ) (start : σ) (first rest : Nat)
    : upTo body start (first + rest)
      = upTo (fun i => body (first + i)) (upTo body start first) rest := by
  induction rest with
  | zero => rfl
  | succ rest ih => rw [← Nat.add_assoc, upTo, upTo, ih]

/-- Loops agree whose bodies agree below the bound. -/
theorem upTo_congr {body other : Nat → σ → σ} {start : σ} {count : Nat}
    (same : ∀ i < count, body i = other i)
    : upTo body start count = upTo other start count := by
  induction count with
  | zero => rfl
  | succ count ih =>
      rw [upTo, upTo, ih (fun i hi => same i (Nat.lt_succ_of_lt hi)),
        same count (Nat.lt_succ_self count)]

/-- A loop that stops at the first index without a property stops there or runs to its bound. -/
theorem exists_stop (property : Nat → Prop) (count : Nat)
    : ∃ stop ≤ count, (∀ i < stop, property i) ∧ (stop < count → ¬property stop) := by
  induction count with
  | zero => exact ⟨0, Nat.le_refl 0, by simp, by simp⟩
  | succ count ih =>
      obtain ⟨stop, inside, before, stopped⟩ := ih
      rcases Nat.lt_or_eq_of_le inside with earlier | rfl
      · exact ⟨stop, by omega, before, fun _ => stopped earlier⟩
      · by_cases holds : property stop
        · refine ⟨stop + 1, Nat.le_refl _, fun i below => ?_, by simp⟩
          rcases Nat.lt_succ_iff_lt_or_eq.mp below with earlier | rfl
          · exact before i earlier
          · exact holds
        · exact ⟨stop, Nat.le_succ stop, before, fun _ => holds⟩

/-- `found` tells whether anything is marked, and then `low` and `high` are the extent of it;
otherwise they hold the values a scan starts with.
-/
inductive Extent (top : Nat) (marked : Set Nat) : Bool → Nat → Nat → Prop
  | nothing (empty : marked = ∅) : Extent top marked false top 0
  | something {low high} (least : IsLeast marked low) (greatest : IsGreatest marked high)
    : Extent top marked true low high

/-- Taking in a further set with a known extent moves the bounds outwards, by a comparison with
each bound.
-/
theorem Extent.union {top : Nat} {marked more : Set Nat} {found : Bool} {low high a b : Nat}
    (extent : Extent top marked found low high) (least : IsLeast more a)
    (greatest : IsGreatest more b) (below : a ≤ top)
    : Extent top (marked ∪ more) true (if a < low then a else low)
        (if high < b then b else high) := by
  have lower : (if a < low then a else low) = min low a := by
    split <;> omega
  have upper : (if high < b then b else high) = max high b := by
    split <;> omega
  rw [lower, upper]
  cases extent with
  | nothing empty =>
      rw [empty, Set.empty_union, Nat.min_eq_right below, Nat.zero_max]
      exact .something least greatest
  | something least' greatest' =>
      exact .something (least'.union least) (greatest'.union greatest)

/-- Taking in nothing changes nothing. -/
theorem Extent.union_empty {top : Nat} {marked more : Set Nat} {found : Bool} {low high : Nat}
    (extent : Extent top marked found low high) (none : more = ∅)
    : Extent top (marked ∪ more) found low high := by
  rw [none, Set.union_empty]
  exact extent

end Library.Loop
