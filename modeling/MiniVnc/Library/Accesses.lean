import MiniVnc.Library.Loop

/-! The accesses a program makes to its objects, and whether they stay inside them. -/

namespace Library.Accesses
open Library.Loop

variable {ω σ : Type}

/-- One element of an object is read or written. -/
inductive Access (ω : Type) where
  | read (object : ω) (offset : Int)
  | write (object : ω) (offset : Int)
deriving Repr, DecidableEq

/-- The object has such an element. -/
def Access.Inside (size : ω → Nat) : Access ω → Prop
  | read object offset | write object offset => 0 ≤ offset ∧ offset < size object

/-- All accesses are to elements of the objects. -/
def InBounds (size : ω → Nat) (log : List (Access ω)) : Prop :=
  ∀ access ∈ log, access.Inside size

/-- `count` elements are read from `offset` on. -/
def reads (object : ω) (offset : Int) (count : Nat) : List (Access ω) :=
  (List.range count).map fun k => .read object (offset + (k : Nat))

/-- `count` elements are written from `offset` on. -/
def writes (object : ω) (offset : Int) (count : Nat) : List (Access ω) :=
  (List.range count).map fun k => .write object (offset + (k : Nat))

/-- The accesses of a counted loop: those of each iteration, from the state it starts in. -/
def loopAccesses (body : Nat → σ → σ) (accesses : Nat → σ → List (Access ω)) (start : σ)
    (count : Nat) : List (Access ω) :=
  (List.range count).flatMap fun i => accesses i (upTo body start i)

variable {size : ω → Nat} {object : ω} {offset : Int} {count : Nat}

@[simp]
theorem inside_read : (Access.read object offset).Inside size ↔ 0 ≤ offset ∧ offset < size object :=
  Iff.rfl

@[simp]
theorem inside_write
    : (Access.write object offset).Inside size ↔ 0 ≤ offset ∧ offset < size object :=
  Iff.rfl

@[simp]
theorem inBounds_nil : InBounds size [] := by
  simp [InBounds]

@[simp]
theorem inBounds_cons {access : Access ω} {log : List (Access ω)}
    : InBounds size (access :: log) ↔ access.Inside size ∧ InBounds size log := by
  simp [InBounds]

@[simp]
theorem inBounds_append {first rest : List (Access ω)}
    : InBounds size (first ++ rest) ↔ InBounds size first ∧ InBounds size rest := by
  simp [InBounds, or_imp, forall_and]

/-- A block of reads stays inside exactly when its two ends do. -/
theorem inBounds_reads
    : InBounds size (reads object offset count)
      ↔ count = 0 ∨ 0 ≤ offset ∧ offset + count ≤ size object := by
  simp only [InBounds, reads, List.forall_mem_map, List.mem_range, inside_read]
  constructor
  · intro inside
    cases count with
    | zero => exact Or.inl rfl
    | succ count =>
        have low := inside 0 (Nat.succ_pos count)
        have high := inside count (Nat.lt_succ_self count)
        refine Or.inr ⟨?_, ?_⟩ <;> omega
  · rintro (rfl | ends) k inside
    · omega
    · omega

theorem inBounds_writes
    : InBounds size (writes object offset count)
      ↔ count = 0 ∨ 0 ≤ offset ∧ offset + count ≤ size object := by
  rw [← inBounds_reads]
  simp [InBounds, reads, writes]

/-- A loop stays inside exactly when every iteration does. -/
theorem inBounds_loop {body : Nat → σ → σ} {accesses : Nat → σ → List (Access ω)} {start : σ}
    : InBounds size (loopAccesses body accesses start count)
      ↔ ∀ i < count, InBounds size (accesses i (upTo body start i)) := by
  simp only [InBounds, loopAccesses, List.mem_flatMap, List.mem_range]
  constructor
  · intro inside i below access member
    exact inside access ⟨i, below, member⟩
  · rintro inside access ⟨i, below, member⟩
    exact inside i below access member

/-- What every iteration leaves alone that does not make an access, a loop that does not make it
leaves alone. By induction on the bound.
-/
theorem kept_of_notMem_loop {α : Type} {body : Nat → σ → σ}
    {accesses : Nat → σ → List (Access ω)} {start : σ} {access : Access ω} (kept : σ → α)
    (each : ∀ i s, access ∉ accesses i s → kept (body i s) = kept s)
    (none : access ∉ loopAccesses body accesses start count)
    : kept (upTo body start count) = kept start := by
  induction count with
  | zero => rfl
  | succ count ih =>
      rw [loopAccesses, List.range_succ, List.flatMap_append, List.mem_append, not_or] at none
      obtain ⟨before, last⟩ := none
      rw [upTo, each count _ (by simpa using last)]
      exact ih before

end Library.Accesses
