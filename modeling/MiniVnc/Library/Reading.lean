import Mathlib.Data.List.Basic

/-! Reading a stream of messages off its front, one after another, until it is used up. -/

namespace Library.Reading

variable {α σ ι : Type}

/-- Reads one message off the front of a stream: what is left of it, and the state after the
message.
-/
abbrev Reader (α σ : Type) := List α → σ → Option (List α × σ)

/-- Read all messages. Each takes a symbol at least, so the length of the stream bounds their
number.
-/
def readAll (reader : Reader α σ) : Nat → List α → σ → Option σ
  | _, [], s => some s
  | 0, _ :: _, _ => none
  | fuel + 1, symbol :: rest, s => do
      let (left, s) ← reader (symbol :: rest) s
      readAll reader fuel left s

/-- The reader takes `message` for itself, whatever follows it, and does `effect`. -/
structure Reads (reader : Reader α σ) (message : List α) (effect : σ → σ) : Prop where
  nonempty : message ≠ []
  read : ∀ rest s, reader (message ++ rest) s = some (rest, effect s)

@[simp]
theorem readAll_nil (reader : Reader α σ) (fuel : Nat) (s : σ)
    : readAll reader fuel [] s = some s := by
  cases fuel <;> rfl

theorem readAll_message {reader : Reader α σ} {message : List α} {effect : σ → σ}
    (reads : Reads reader message effect) (rest : List α) (fuel : Nat) (s : σ)
    : readAll reader (fuel + 1) (message ++ rest) s = readAll reader fuel rest (effect s) := by
  have read := reads.read rest s
  cases message with
  | nil => exact absurd rfl reads.nonempty
  | cons symbol more =>
      rw [List.cons_append] at read ⊢
      rw [readAll, read]
      rfl

/-- A stream of messages is read as their effects in turn, by induction on the messages: each
takes a symbol, so the fuel that is left lasts for the rest.
-/
theorem readAll_flatMap {reader : Reader α σ} {message : ι → List α} {effect : ι → σ → σ}
    {items : List ι} (reads : ∀ item ∈ items, Reads reader (message item) (effect item))
    {fuel : Nat} (enough : (items.flatMap message).length ≤ fuel) (s : σ)
    : readAll reader fuel (items.flatMap message) s
      = some (items.foldl (fun s item => effect item s) s) := by
  induction items generalizing fuel s with
  | nil => exact readAll_nil reader fuel s
  | cons item rest ih =>
      have first := reads item (by simp)
      have some_ := List.length_pos_iff.mpr first.nonempty
      rw [List.flatMap_cons, List.length_append] at enough
      obtain ⟨left, rfl⟩ : ∃ left, fuel = left + 1 := ⟨fuel - 1, by omega⟩
      rw [List.flatMap_cons, readAll_message first]
      exact ih (fun other member => reads other (by simp [member])) (by omega) (effect item s)

/-- A stream is messages up to a place where it is stuck, if a message starts wherever it is not. By
induction on the stream's length: each message takes a symbol.
-/
theorem exists_messages {message : ι → List α} {fits : ι → Prop} {Stuck : List α → Prop}
    (front
      : ∀ stream, ¬Stuck stream →
          ∃ item rest, fits item ∧ message item ≠ [] ∧ stream = message item ++ rest)
    (stream : List α)
    : ∃ (items : List ι) (rest : List α), (∀ item ∈ items, fits item)
        ∧ stream = items.flatMap message ++ rest ∧ Stuck rest := by
  induction length : stream.length using Nat.strongRecOn generalizing stream with
  | ind length_ ih =>
      by_cases stuck : Stuck stream
      · exact ⟨[], stream, by simp, rfl, stuck⟩
      · obtain ⟨item, later, fit, nonempty, cut⟩ := front stream stuck
        have some_ := List.length_pos_iff.mpr nonempty
        have shorter : later.length < length_ := by
          rw [← length, cut, List.length_append]
          omega
        obtain ⟨items, rest, fits_, cut', end_⟩ := ih later.length shorter later rfl
        refine ⟨item :: items, rest, List.forall_mem_cons.mpr ⟨fit, fits_⟩, ?_, end_⟩
        rw [cut, cut', List.flatMap_cons, List.append_assoc]

end Library.Reading
