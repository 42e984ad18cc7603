import Mathlib.Data.List.Induction
import Mathlib.Logic.Function.Basic

/-! Switches that a list of operations turns on and off: the last operation on a switch decides
where it is left.
-/

namespace Library.Switches

variable {κ ε : Type} [DecidableEq κ]

/-- Turning one switch on or off. -/
inductive Op (κ : Type) where
  | on (key : κ)
  | off (key : κ)
deriving Repr, DecidableEq

def Op.key : Op κ → κ
  | .on key | .off key => key

def Op.isOn : Op κ → Bool
  | .on _ => true
  | .off _ => false

/-- Where the switches are after the operations. -/
def after (start : κ → Bool) (ops : List (Op κ)) : κ → Bool :=
  ops.foldl (fun switches op => Function.update switches op.key op.isOn) start

/-- What the last operation on a switch does to it, if there is one. -/
def last? (ops : List (Op κ)) (key : κ) : Option Bool :=
  (ops.findRev? fun op => op.key = key).map Op.isOn

@[simp]
theorem last?_nil (key : κ) : last? [] key = none :=
  rfl

/-- Later operations go first. -/
theorem last?_append (first rest : List (Op κ)) (key : κ)
    : last? (first ++ rest) key = (last? rest key).or (last? first key) := by
  simp only [last?, List.findRev?_eq_find?_reverse, List.reverse_append, List.find?_append]
  cases List.find? (fun op => op.key = key) rest.reverse <;> rfl

theorem last?_singleton (op : Op κ) (key : κ)
    : last? [op] key = if op.key = key then some op.isOn else none := by
  by_cases same : op.key = key <;> simp [last?, List.findRev?, same]

/-- No operation on a switch is last exactly when there is none at all. -/
theorem last?_eq_none_iff {ops : List (Op κ)} {key : κ}
    : last? ops key = none ↔ ∀ op ∈ ops, op.key ≠ key := by
  simp [last?, List.findRev?_eq_find?_reverse]

/-- The last operation on a switch is one of the operations. -/
theorem last?_mem {ops : List (Op κ)} {key : κ} {value : Bool} (last : last? ops key = some value)
    : ∃ op ∈ ops, op.key = key ∧ op.isOn = value := by
  obtain ⟨op, found, decides⟩ := Option.map_eq_some_iff.mp last
  rw [List.findRev?_eq_find?_reverse] at found
  have same := List.find?_some found
  have member := List.mem_of_find?_eq_some found
  exact ⟨op, List.mem_reverse.mp member, by simpa using same, decides⟩

theorem after_append (start : κ → Bool) (first rest : List (Op κ))
    : after start (first ++ rest) = after (after start first) rest :=
  List.foldl_append

/-- A switch is left by the last operation on it, or where it was. By induction on the
operations from the last one.
-/
theorem after_eq (start : κ → Bool) (ops : List (Op κ)) (key : κ)
    : after start ops key = (last? ops key).getD (start key) := by
  induction ops using List.reverseRecOn with
  | nil => rfl
  | append_singleton earlier op ih =>
      rw [after_append, last?_append, last?_singleton]
      by_cases same : op.key = key
      · subst same
        simp [after]
      · simpa [after, same, Function.update_of_ne (Ne.symm same)] using ih

section Blocks

variable {ops : ε → List (Op κ)}

/-- The last operation of a sequence of blocks is the last one of a block behind which no block
operates on the switch. By induction on the blocks from the last one.
-/
theorem last?_flatMap {blocks : List ε} {key : κ} {value : Bool}
    (last : last? (blocks.flatMap ops) key = some value)
    : ∃ before block rest, blocks = before ++ block :: rest
        ∧ last? (ops block) key = some value
        ∧ ∀ later ∈ rest, last? (ops later) key = none := by
  induction blocks using List.reverseRecOn with
  | nil => simp at last
  | append_singleton earlier block ih =>
      rw [List.flatMap_append, last?_append, List.flatMap_singleton] at last
      cases own : last? (ops block) key with
      | some decided =>
          rw [own] at last
          exact ⟨earlier, block, [], rfl, own.trans last, by simp⟩
      | none =>
          rw [own, Option.none_or] at last
          obtain ⟨before, decider, rest, split, decides, silent⟩ := ih last
          refine ⟨before, decider, rest ++ [block], by simp [split], decides, ?_⟩
          intro later member
          rcases List.mem_append.mp member with inside | isLast
          · exact silent later inside
          · rw [List.mem_singleton.mp isLast]
            exact own

/-- A switch that is on stays on through every prefix of the blocks exactly when no block turns
it off last.
-/
theorem stays_on_iff {blocks : List ε} {start : κ → Bool} {key : κ} (on : start key = true)
    : (∀ part, part <+: blocks → after start (part.flatMap ops) key = true)
      ↔ ∀ block ∈ blocks, last? (ops block) key ≠ some false := by
  constructor
  · intro always block member off
    obtain ⟨before, rest, split⟩ := List.append_of_mem member
    have upTo := always (before ++ [block]) ⟨rest, by simp [split]⟩
    rw [after_eq, List.flatMap_append, last?_append, List.flatMap_singleton, off] at upTo
    simp at upTo
  · intro never part initial
    rw [after_eq]
    cases last : last? (part.flatMap ops) key with
    | none => exact on
    | some value =>
        obtain ⟨before, block, rest, split, decides, _⟩ := last?_flatMap last
        have member : block ∈ blocks := initial.subset (by simp [split])
        cases value with
        | true => rfl
        | false => exact absurd decides (never block member)

end Blocks

end Library.Switches
