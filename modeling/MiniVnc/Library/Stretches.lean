import Mathlib.Data.List.Basic

/-! The stretch of elements with a property that a list ends with. -/

namespace Library.Stretches

variable {α : Type} {P Q : α → Prop} {items : List α} {first other : α}

/-- The stretch of elements with `P` that the list ends with starts with `first`: from there on all
have `P`, and the element before it, if there is one, has not.
-/
def StretchFrom (P : α → Prop) (items : List α) (first : α) : Prop :=
  ∃ before rest, items = before ++ first :: rest ∧ (∀ item ∈ first :: rest, P item)
    ∧ ∀ item, before.getLast? = some item → ¬P item

theorem StretchFrom.congr (same : ∀ item, P item ↔ Q item) (stretch : StretchFrom P items first)
    : StretchFrom Q items first := by
  obtain ⟨before, rest, split, all, none_⟩ := stretch
  refine ⟨before, rest, split, fun item member => (same item).mp (all item member), ?_⟩
  exact fun item last has => none_ item last ((same item).mpr has)

/-- The last element has the property. -/
theorem StretchFrom.last (stretch : StretchFrom P items first)
    : ∃ item, items.getLast? = some item ∧ P item := by
  obtain ⟨before, rest, rfl, all, _⟩ := stretch
  obtain ⟨item, last⟩ : ∃ item, (first :: rest).getLast? = some item :=
    ⟨_, List.getLast?_eq_some_getLast (List.cons_ne_nil first rest)⟩
  refine ⟨item, ?_, all item (List.mem_of_getLast? last)⟩
  rw [List.getLast?_append, last]
  rfl

/-- One more element with the property makes the stretch longer. -/
theorem StretchFrom.snoc (stretch : StretchFrom P items first) (has : P other)
    : StretchFrom P (items ++ [other]) first := by
  obtain ⟨before, rest, rfl, all, none_⟩ := stretch
  refine ⟨before, rest ++ [other], by simp, ?_, none_⟩
  intro item member
  rcases List.mem_append.mp (List.cons_append ▸ member) with old | new
  · exact all item old
  · exact List.mem_singleton.mp new ▸ has

/-- It starts a stretch when the element before it has not got the property. -/
theorem stretchFrom_snoc (none_ : ∀ item, items.getLast? = some item → ¬P item) (has : P other)
    : StretchFrom P (items ++ [other]) other :=
  ⟨items, [], rfl, by simpa using has, none_⟩

/-- A list ends with one stretch only. By cases on which of the two would start earlier: the other
is then preceded by an element of it.
-/
theorem StretchFrom.unique (left : StretchFrom P items first) (right : StretchFrom P items other)
    : first = other := by
  obtain ⟨before, rest, rfl, all, none_⟩ := left
  obtain ⟨before', rest', split, all', none'⟩ := right
  have none_between {before before' more tail tail' : List α} (front : before' = before ++ more)
      (behind : tail = more ++ tail') (all : ∀ item ∈ tail, P item)
      (none' : ∀ item, before'.getLast? = some item → ¬P item)
      : more = [] := by
    by_contra some_
    obtain ⟨item, last⟩ : ∃ item, more.getLast? = some item :=
      ⟨_, List.getLast?_eq_some_getLast some_⟩
    refine none' item ?_ (all item ?_)
    · rw [front, List.getLast?_append, last]
      rfl
    · rw [behind]
      exact List.mem_append_left _ (List.mem_of_getLast? last)
  rcases List.append_eq_append_iff.mp split with ⟨more, front, tail⟩ | ⟨more, front, tail⟩
  · rw [none_between front tail all none'] at tail
    exact (List.cons.inj tail).1
  · rw [none_between front tail all' none_] at tail
    exact (List.cons.inj tail).1.symm

end Library.Stretches
