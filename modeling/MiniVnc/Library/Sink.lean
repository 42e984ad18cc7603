import Mathlib.Data.List.Basic

/-! Chunks given to a sink that accepts a prefix of each, or fails, as `send` on a stream socket
and `write` on a pipe do. A caller that does not look at how much was accepted loses what was
not.
-/

namespace Library.Sink

variable {α : Type}

/-- What the sink accepts of the chunks, given to its calls `n`, `n + 1` and so on, unless one
of them fails. Call `n` accepts `accepts n length` of a chunk of that length.
-/
def taken (accepts : Nat → Nat → Option Nat) : Nat → List (List α) → Option (List α)
  | _, [] => some []
  | n, chunk :: rest =>
      match accepts n chunk.length with
      | none => none
      | some count => (taken accepts (n + 1) rest).map (chunk.take count ++ ·)

/-- One of the calls fails. -/
def Fails (accepts : Nat → Nat → Option Nat) (n : Nat) (chunks : List (List α)) : Prop :=
  ∃ k, ∃ inside : k < chunks.length, accepts (n + k) chunks[k].length = none

/-- Every call accepts the whole of its chunk. -/
def TakesAll (accepts : Nat → Nat → Option Nat) (n : Nat) (chunks : List (List α)) : Prop :=
  ∀ k, ∀ inside : k < chunks.length,
    ∃ count, accepts (n + k) chunks[k].length = some count ∧ chunks[k].length ≤ count

variable {accepts : Nat → Nat → Option Nat} {n : Nat} {chunk : List α} {chunks : List (List α)}

theorem fails_cons
    : Fails accepts n (chunk :: chunks)
      ↔ accepts n chunk.length = none ∨ Fails accepts (n + 1) chunks := by
  constructor
  · rintro ⟨k, inside, failed⟩
    cases k with
    | zero => exact Or.inl failed
    | succ k =>
        refine Or.inr ⟨k, Nat.lt_of_succ_lt_succ inside, ?_⟩
        rw [Nat.add_right_comm]
        exact failed
  · rintro (failed | ⟨k, inside, failed⟩)
    · exact ⟨0, Nat.succ_pos _, failed⟩
    · refine ⟨k + 1, Nat.succ_lt_succ inside, ?_⟩
      rw [Nat.add_right_comm] at failed
      exact failed

theorem takesAll_cons
    : TakesAll accepts n (chunk :: chunks)
      ↔ (∃ count, accepts n chunk.length = some count ∧ chunk.length ≤ count)
        ∧ TakesAll accepts (n + 1) chunks := by
  constructor
  · intro all
    refine ⟨all 0 (Nat.succ_pos _), fun k inside => ?_⟩
    rw [Nat.add_right_comm]
    exact all (k + 1) (Nat.succ_lt_succ inside)
  · rintro ⟨first, rest⟩ k inside
    cases k with
    | zero => exact first
    | succ k =>
        have later := rest k (Nat.lt_of_succ_lt_succ inside)
        rw [Nat.add_right_comm] at later
        exact later

/-- Giving the chunks ends early exactly when a call fails, by induction on them. -/
theorem taken_eq_none_iff : taken accepts n chunks = none ↔ Fails accepts n chunks := by
  induction chunks generalizing n with
  | nil => simp [taken, Fails]
  | cons chunk rest ih =>
      rw [fails_cons, taken, ← ih]
      cases accepts n chunk.length <;> simp

/-- The calls go on counting where the first chunks end. -/
theorem taken_append (first rest : List (List α))
    : taken accepts n (first ++ rest)
      = (taken accepts n first).bind fun bytes =>
          (taken accepts (n + first.length) rest).map (bytes ++ ·) := by
  induction first generalizing n with
  | nil => simp [taken]
  | cons chunk first ih =>
      rw [List.cons_append, taken, taken, ih, List.length_cons, Nat.add_right_comm, Nat.add_assoc]
      cases accepts n chunk.length with
      | none => rfl
      | some count =>
          cases taken accepts (n + 1) first with
          | none => rfl
          | some bytes =>
              cases taken accepts (n + (first.length + 1)) rest with
              | none => rfl
              | some later => simp

theorem taken_length_le {bytes : List α} (took : taken accepts n chunks = some bytes)
    : bytes.length ≤ chunks.flatten.length := by
  induction chunks generalizing n bytes with
  | nil =>
      cases took
      exact Nat.le_refl _
  | cons chunk rest ih =>
      rw [taken] at took
      split at took
      · cases took
      · obtain ⟨later, tookLater, rfl⟩ := Option.map_eq_some_iff.mp took
        have shorter := ih tookLater
        simp only [List.length_append, List.length_take, List.flatten_cons]
        omega

/-- The sink has everything in order exactly when every call accepted the whole of its chunk. By
induction on the chunks: a chunk cut short cannot be made up for by the others.
-/
theorem taken_eq_flatten_iff
    : taken accepts n chunks = some chunks.flatten ↔ TakesAll accepts n chunks := by
  induction chunks generalizing n with
  | nil => simp [taken, TakesAll]
  | cons chunk rest ih =>
      rw [takesAll_cons, ← ih, taken]
      cases accepted : accepts n chunk.length with
      | none => simp
      | some count =>
          cases tookLater : taken accepts (n + 1) rest with
          | none => simp
          | some later =>
              have shorter := taken_length_le tookLater
              constructor
              · intro whole
                have same : chunk.take count ++ later = chunk ++ rest.flatten :=
                  Option.some.inj whole
                have lengths := congrArg List.length same
                simp only [List.length_append, List.length_take] at lengths
                have long : chunk.length ≤ count := by omega
                rw [List.take_of_length_le long] at same
                exact ⟨⟨count, rfl, long⟩, congrArg some (List.append_cancel_left same)⟩
              · rintro ⟨⟨count', here, long⟩, whole⟩
                cases here
                cases whole
                simp [List.take_of_length_le long]

end Library.Sink
