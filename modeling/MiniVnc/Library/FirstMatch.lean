import Mathlib.Data.List.Basic
import Mathlib.Logic.Function.Basic

/-! Inverse indexes: for each key the first of a list of items that has it, and the tables that
a scan builds of it by filling only what is still vacant.
-/

namespace Library.FirstMatch

variable {α κ β : Type} [DecidableEq κ]

/-- The first item that has the key. -/
def first (key : α → κ) (items : List α) (k : κ) : Option α :=
  items.find? fun item => key item = k

/-- One more item is found for its key, when no item before it has this key. -/
theorem first_snoc (key : α → κ) (items : List α) (item : α) (k : κ)
    : first key (items ++ [item]) k
      = if first key items k = none ∧ key item = k then some item else first key items k := by
  rw [first, List.find?_append]
  change (first key items k).or _ = _
  cases first key items k with
  | none => by_cases same : key item = k <;> simp [same]
  | some found => simp

/-- What is found for a key is an item with this key, and no item before it has it. -/
theorem first_eq_some {key : α → κ} {items : List α} {k : κ} {item : α}
    (found : first key items k = some item)
    : key item = k
      ∧ ∃ before rest, items = before ++ item :: rest ∧ ∀ other ∈ before, key other ≠ k := by
  obtain ⟨same, before, rest, split, none⟩ := List.find?_eq_some_iff_append.mp found
  refine ⟨by simpa using same, before, rest, split, ?_⟩
  intro other member
  simpa using none other member

omit [DecidableEq κ] in
/-- There is only one way to split a list at its first item with a key, by induction on what stands
before it.
-/
theorem first_split_unique {key : α → κ} {k : κ} {before before' rest rest' : List α}
    {item item' : α} (split : before ++ item :: rest = before' ++ item' :: rest')
    (found : key item = k) (found' : key item' = k) (others : ∀ x ∈ before, key x ≠ k)
    (others' : ∀ x ∈ before', key x ≠ k)
    : before = before' ∧ item = item' := by
  induction before generalizing before' with
  | nil =>
      cases before' with
      | nil => exact ⟨rfl, (List.cons.inj split).1⟩
      | cons head tail =>
          have same : item = head := (List.cons.inj split).1
          exact absurd (same ▸ found) (others' head (by simp))
  | cons head tail ih =>
      cases before' with
      | nil =>
          have same : head = item' := (List.cons.inj split).1
          exact absurd (same ▸ found') (others head (by simp))
      | cons head' tail' =>
          obtain ⟨same, remaining⟩ := List.cons.inj split
          obtain ⟨tails, items⟩ := ih remaining (fun x member => others x (by simp [member]))
            (fun x member => others' x (by simp [member]))
          exact ⟨by rw [same, tails], items⟩

/-- Something is found for a key exactly when some item has it. -/
theorem first_isSome_iff {key : α → κ} {items : List α} {k : κ}
    : (first key items k).isSome ↔ ∃ item ∈ items, key item = k := by
  rw [first, List.find?_isSome]
  simp

/-- Nothing is found for a key exactly when no item has it. -/
theorem first_eq_none_iff {key : α → κ} {items : List α} {k : κ}
    : first key items k = none ↔ ∀ item ∈ items, key item ≠ k := by
  rw [first, List.find?_eq_none]
  simp

/-- Items are found alike by keys that agree on them. -/
theorem first_congr {key other : α → κ} {items : List α} (same : ∀ x ∈ items, key x = other x)
    : first key items = first other items := by
  funext k
  induction items with
  | nil => rfl
  | cons item rest ih =>
      have tail := ih fun x member => same x (by simp [member])
      simp only [first, List.find?_cons, same item (by simp)] at tail ⊢
      rw [tail]

/-- An injective renaming of the keys finds the same items. -/
theorem first_injective {κ' : Type} [DecidableEq κ'] {rename : κ → κ'}
    (injective : Function.Injective rename) {key : α → κ} {items : List α} {k : κ}
    : first (fun item => rename (key item)) items (rename k) = first key items k := by
  simp only [first, injective.eq_iff]

/-- The table that holds for each key what is stored of the item found for it. -/
def tableOf (key : α → κ) (stored : κ → Option α → β) (items : List α) : κ → β :=
  fun k => stored k (first key items k)

/-- A scan step that fills the place of its item when that is vacant. -/
theorem tableOf_snoc {key : α → κ} {stored : κ → Option α → β} {items : List α} {item : α}
    (vacant : β → Prop) [DecidablePred vacant]
    (vacancy
      : vacant (tableOf key stored items (key item)) ↔ first key items (key item) = none)
    : (if vacant (tableOf key stored items (key item)) then
        Function.update (tableOf key stored items) (key item) (stored (key item) (some item))
      else
        tableOf key stored items)
      = tableOf key stored (items ++ [item]) := by
  funext k
  simp only [vacancy]
  rw [tableOf, first_snoc]
  by_cases same : key item = k
  · subst same
    split <;> simp_all [tableOf]
  · split <;> simp [same, tableOf, Function.update_of_ne (Ne.symm same)]

end Library.FirstMatch
