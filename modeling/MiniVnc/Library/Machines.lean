import Mathlib.Data.List.Basic

/-! Machines that answer each input with an output, and what they answer to many inputs, one after
another.
-/

namespace Library.Machines

variable {σ α β : Type}

/-- In the first state the input is answered with the output, and the second state is left. -/
abbrev Machine (σ α β : Type) := σ → α → β → σ → Prop

/-- Inputs and the outputs that they are answered with. -/
inductive Exchanges (machine : Machine σ α β) : σ → List α → List β → σ → Prop where
  | nil {s} : Exchanges machine s [] [] s
  | cons {s middle t input output inputs outputs} (first : machine s input output middle)
    (later : Exchanges machine middle inputs outputs t)
    : Exchanges machine s (input :: inputs) (output :: outputs) t

/-- The input and the state determine the output and the state that is left. -/
def Functional (machine : Machine σ α β) : Prop :=
  ∀ s input output output' t t', machine s input output t → machine s input output' t' →
    output = output' ∧ t = t'

section

variable {machine : Machine σ α β} {s t t' : σ} {inputs front rest : List α}
variable {outputs outputs' : List β}

/-- So do the inputs, however many of them. -/
theorem Exchanges.unique (functional : Functional machine)
    (exchanges : Exchanges machine s inputs outputs t)
    (exchanges' : Exchanges machine s inputs outputs' t')
    : outputs = outputs' ∧ t = t' := by
  induction exchanges generalizing outputs' with
  | nil =>
      cases exchanges'
      exact ⟨rfl, rfl⟩
  | cons first _ ih =>
      cases exchanges' with
      | cons first' later' =>
          obtain ⟨rfl, rfl⟩ := functional _ _ _ _ _ _ first first'
          obtain ⟨rfl, same⟩ := ih later'
          exact ⟨rfl, same⟩

theorem Exchanges.length_eq (exchanges : Exchanges machine s inputs outputs t)
    : inputs.length = outputs.length := by
  induction exchanges with
  | nil => rfl
  | cons _ _ ih => rw [List.length_cons, List.length_cons, ih]

/-- One more exchange. -/
theorem Exchanges.snoc (exchanges : Exchanges machine s inputs outputs t) {input : α} {output : β}
    (last : machine t input output t')
    : Exchanges machine s (inputs ++ [input]) (outputs ++ [output]) t' := by
  induction exchanges with
  | nil => exact .cons last .nil
  | cons first _ ih => exact .cons first (ih last)

/-- Exchanges can be told apart at any place. -/
theorem Exchanges.of_append (exchanges : Exchanges machine s (front ++ rest) outputs t)
    : ∃ first later middle, outputs = first ++ later ∧ first.length = front.length
        ∧ Exchanges machine s front first middle ∧ Exchanges machine middle rest later t := by
  induction front generalizing s outputs with
  | nil => exact ⟨[], outputs, s, rfl, rfl, .nil, exchanges⟩
  | cons input front ih =>
      cases exchanges with
      | cons head tail =>
          obtain ⟨first, later, middle, rfl, length, before, behind⟩ := ih tail
          exact ⟨_, later, middle, rfl, by simp [length], .cons head before, behind⟩

/-- As long as an invariant holds under which there is one output, that is all there is. -/
theorem Exchanges.constant (exchanges : Exchanges machine s inputs outputs t)
    (invariant : σ → Prop) {output : β}
    (each
      : ∀ input ∈ inputs, ∀ {s output' t}, invariant s → machine s input output' t →
          output' = output ∧ invariant t)
    (holds : invariant s)
    : outputs = List.replicate inputs.length output := by
  induction exchanges with
  | nil => rfl
  | cons first _ ih =>
      obtain ⟨rfl, holds'⟩ := each _ List.mem_cons_self holds first
      rw [ih (fun input member => each input (List.mem_cons_of_mem _ member)) holds',
        List.length_cons, List.replicate_succ]

end

end Library.Machines
