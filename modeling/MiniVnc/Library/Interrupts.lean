import Mathlib.Logic.Basic

/-! Code on a processor with an interrupt level. Interrupts come before any step that the level
does not mask; whoever masks them all makes one step of many.
-/

namespace Library.Interrupts

universe u

/-- A processor: interrupts up to its level are masked. -/
structure Cpu (σ : Type) where
  level : Nat
  memory : σ

/-- What interrupts a processor, and how it is handled. The level `top` masks everything. -/
structure Source (ι σ : Type) where
  top : Nat
  priority : ι → Nat
  handle : ι → σ → σ
  priority_le : ∀ i, priority i ≤ top

/-- Code that takes single steps on the memory, raises the level to the top, which hands the level
before it to what follows, and sets the level.
-/
inductive Code (σ α : Type) : Type 1 where
  | done (value : α)
  | step {β : Type} (act : σ → β × σ) (next : β → Code σ α)
  | raise (next : Nat → Code σ α)
  | restore (level : Nat) (next : Code σ α)

namespace Code

variable {σ α β : Type}

protected def bind : Code σ α → (α → Code σ β) → Code σ β
  | .done value, rest => rest value
  | .step act next, rest => .step act fun b => (next b).bind rest
  | .raise next, rest => .raise fun level => (next level).bind rest
  | .restore level next, rest => .restore level (next.bind rest)

instance : Monad (Code σ) where
  pure := .done
  bind := .bind

@[simp]
theorem pure_eq (value : α) : (pure value : Code σ α) = .done value := rfl

@[simp]
theorem done_bind (value : α) (rest : α → Code σ β) : (done value >>= rest) = rest value := rfl

@[simp]
theorem step_bind {γ : Type} (act : σ → γ × σ) (next : γ → Code σ α) (rest : α → Code σ β)
    : (step act next >>= rest) = step act fun c => next c >>= rest :=
  rfl

@[simp]
theorem raise_bind (next : Nat → Code σ α) (rest : α → Code σ β)
    : (raise next >>= rest) = raise fun level => next level >>= rest :=
  rfl

@[simp]
theorem restore_bind (level : Nat) (next : Code σ α) (rest : α → Code σ β)
    : (restore level next >>= rest) = restore level (next >>= rest) :=
  rfl

/-- One step. -/
def one (act : σ → α × σ) : Code σ α :=
  step act done

/-- A step that only looks. -/
def look (read : σ → α) : Code σ α :=
  one fun memory => (read memory, memory)

/-- The code with every interrupt masked, and the level as it was afterwards. -/
def masked (body : Code σ α) : Code σ α := do
  let level ← raise done
  let value ← body
  restore level (done value)

/-- The code leaves the level alone. -/
def Plain : Code σ α → Prop
  | .done _ => True
  | .step _ next => ∀ b, (next b).Plain
  | .raise _ | .restore _ _ => False

theorem Plain.bind {code : Code σ α} {rest : α → Code σ β} (first : code.Plain)
    (second : ∀ value, (rest value).Plain)
    : (code >>= rest).Plain := by
  induction code with
  | done value => exact second value
  | step act next ih => exact fun b => ih b (first b)
  | raise _ => exact first.elim
  | restore _ _ => exact first.elim

theorem Plain.ite {condition : Prop} [Decidable condition] {yes no : Code σ α} (plain : yes.Plain)
    (plain' : no.Plain)
    : (if condition then yes else no).Plain := by
  split
  · exact plain
  · exact plain'

/-- What plain code does as a whole when nothing comes between. -/
def effect : Code σ α → σ → α × σ
  | .done value, memory => (value, memory)
  | .step act next, memory => (next (act memory).1).effect (act memory).2
  | .raise next, memory => (next 0).effect memory
  | .restore _ next, memory => next.effect memory

end Code

/-- The code runs to its end with a value, with the interrupts of the log served on the way, each
with the memory that its handler found.
-/
inductive Runs {ι σ : Type} (irq : Source ι σ) {α : Type}
    : Code σ α → Cpu σ → List (ι × σ) → α → Cpu σ → Prop where
  | done {value : α} {cpu : Cpu σ} : Runs irq (.done value) cpu [] value cpu
  | step {β : Type} {act : σ → β × σ} {next : β → Code σ α} {level : Nat} {memory : σ}
      {log : List (ι × σ)} {value : α} {after : Cpu σ}
      (rest : Runs irq (next (act memory).1) ⟨level, (act memory).2⟩ log value after)
      : Runs irq (.step act next) ⟨level, memory⟩ log value after
  | raise {next : Nat → Code σ α} {level : Nat} {memory : σ} {log : List (ι × σ)} {value : α}
      {after : Cpu σ} (rest : Runs irq (next level) ⟨irq.top, memory⟩ log value after)
      : Runs irq (.raise next) ⟨level, memory⟩ log value after
  | restore {next : Code σ α} {level old : Nat} {memory : σ} {log : List (ι × σ)} {value : α}
      {after : Cpu σ} (rest : Runs irq next ⟨level, memory⟩ log value after)
      : Runs irq (.restore level next) ⟨old, memory⟩ log value after
  | interrupt {code : Code σ α} {level : Nat} {memory : σ} {log : List (ι × σ)} {value : α}
      {after : Cpu σ} (i : ι) (unmasked : level < irq.priority i)
      (rest : Runs irq code ⟨level, irq.handle i memory⟩ log value after)
      : Runs irq code ⟨level, memory⟩ ((i, memory) :: log) value after

/-- Two pieces of code have the same runs: nobody can tell them apart, whatever interrupts them. -/
def SameRuns {ι σ α : Type} (irq : Source ι σ) (code other : Code σ α) : Prop :=
  ∀ cpu log value after, Runs irq code cpu log value after ↔ Runs irq other cpu log value after

section Runs

variable {ι σ α β : Type} {irq : Source ι σ} {cpu last : Cpu σ} {log : List (ι × σ)}
  {value : α}

/-- Interrupts before code are interrupts on its way. -/
theorem Runs.after {code : Code σ α} {mid : Cpu σ} {before behind : List (ι × σ)} {unit : β}
    (served : Runs irq (.done unit) cpu before unit mid)
    (rest : Runs irq code mid behind value last)
    : Runs irq code cpu (before ++ behind) value last := by
  generalize waits : (Code.done unit : Code σ β) = waiting at served
  induction served with
  | done => exact rest
  | interrupt i unmasked _ ih => exact .interrupt i unmasked (ih rest waits)
  | step _ _ => cases waits
  | raise _ _ => cases waits
  | restore _ _ => cases waits

/-- Waiting hands back what is waited with, and keeps the level. -/
theorem Runs.of_done {unit : α} (run : Runs irq (.done unit) cpu log value last)
    : value = unit ∧ last.level = cpu.level := by
  generalize waits : (Code.done unit : Code σ α) = waiting at run
  induction run with
  | done => cases waits; exact ⟨rfl, rfl⟩
  | interrupt _ _ _ ih => exact ih waits
  | step _ _ => cases waits
  | raise _ _ => cases waits
  | restore _ _ => cases waits

/-- Waiting with one value is waiting with another. -/
theorem Runs.waits {unit : β} {given : α} (run : Runs irq (.done unit) cpu log unit last)
    : Runs irq (.done given) cpu log given last := by
  have waits := run.after (.done : Runs irq (.done given) last [] given last)
  rwa [List.append_nil] at waits

/-- Before a step there are interrupts, which keep the level. -/
theorem Runs.of_step {act : σ → β × σ} {next : β → Code σ α}
    (run : Runs irq (.step act next) cpu log value last)
    : ∃ mid before behind, log = before ++ behind
        ∧ Runs irq (.done ()) cpu before () ⟨cpu.level, mid⟩
        ∧ Runs irq (next (act mid).1) ⟨cpu.level, (act mid).2⟩ behind value last := by
  generalize steps : Code.step act next = code at run
  induction run with
  | @step _ _ _ level memory log _ _ rest _ =>
      cases steps
      exact ⟨memory, [], log, rfl, .done, rest⟩
  | interrupt i unmasked _ ih =>
      obtain ⟨mid, before, behind, rfl, served, rest⟩ := ih steps
      exact ⟨mid, _ :: before, behind, rfl, .interrupt i unmasked served, rest⟩
  | done => cases steps
  | raise _ _ => cases steps
  | restore _ _ => cases steps

theorem Runs.of_raise {next : Nat → Code σ α} (run : Runs irq (.raise next) cpu log value last)
    : ∃ mid before behind, log = before ++ behind
        ∧ Runs irq (.done ()) cpu before () ⟨cpu.level, mid⟩
        ∧ Runs irq (next cpu.level) ⟨irq.top, mid⟩ behind value last := by
  generalize raises : Code.raise next = code at run
  induction run with
  | @raise _ level memory log _ _ rest _ =>
      cases raises
      exact ⟨memory, [], log, rfl, .done, rest⟩
  | interrupt i unmasked _ ih =>
      obtain ⟨mid, before, behind, rfl, served, rest⟩ := ih raises
      exact ⟨mid, _ :: before, behind, rfl, .interrupt i unmasked served, rest⟩
  | done => cases raises
  | step _ _ => cases raises
  | restore _ _ => cases raises

theorem Runs.of_restore {level : Nat} {next : Code σ α}
    (run : Runs irq (.restore level next) cpu log value last)
    : ∃ mid before behind, log = before ++ behind
        ∧ Runs irq (.done ()) cpu before () ⟨cpu.level, mid⟩
        ∧ Runs irq next ⟨level, mid⟩ behind value last := by
  generalize restores : Code.restore level next = code at run
  induction run with
  | @restore _ level _ memory log _ _ rest _ =>
      cases restores
      exact ⟨memory, [], log, rfl, .done, rest⟩
  | interrupt i unmasked _ ih =>
      obtain ⟨mid, before, behind, rfl, served, rest⟩ := ih restores
      exact ⟨mid, _ :: before, behind, rfl, .interrupt i unmasked served, rest⟩
  | done => cases restores
  | step _ _ => cases restores
  | raise _ _ => cases restores

theorem Runs.bind {code : Code σ α} {rest : α → Code σ β} {result : β} {mid : Cpu σ}
    {behind : List (ι × σ)} (first : Runs irq code cpu log value mid)
    (second : Runs irq (rest value) mid behind result last)
    : Runs irq (code >>= rest) cpu (log ++ behind) result last := by
  induction first with
  | done => exact second
  | step _ ih => exact .step (ih second)
  | raise _ ih => exact .raise (ih second)
  | restore _ ih => exact .restore (ih second)
  | interrupt i unmasked _ ih => exact .interrupt i unmasked (ih second)

/-- A run of code in sequence comes apart, by induction on the code. -/
theorem Runs.of_bind {code : Code σ α} {rest : α → Code σ β} {result : β}
    (run : Runs irq (code >>= rest) cpu log result last)
    : ∃ value mid before behind, log = before ++ behind
        ∧ Runs irq code cpu before value mid ∧ Runs irq (rest value) mid behind result last := by
  induction code generalizing cpu log with
  | done value => exact ⟨value, cpu, [], log, rfl, .done, run⟩
  | step act next ih =>
      obtain ⟨found, before, _, rfl, served, stepped⟩ := run.of_step
      obtain ⟨value, mid, here, behind, rfl, first, second⟩ := ih _ stepped
      exact ⟨value, mid, before ++ here, behind, by simp, served.after (.step first), second⟩
  | raise next ih =>
      obtain ⟨found, before, _, rfl, served, raised⟩ := run.of_raise
      obtain ⟨value, mid, here, behind, rfl, first, second⟩ := ih _ raised
      exact ⟨value, mid, before ++ here, behind, by simp, served.after (.raise first), second⟩
  | restore level next ih =>
      obtain ⟨found, before, _, rfl, served, restored⟩ := run.of_restore
      obtain ⟨value, mid, here, behind, rfl, first, second⟩ := ih restored
      exact ⟨value, mid, before ++ here, behind, by simp, served.after (.restore first), second⟩

/-- Nothing comes between the steps of plain code when everything is masked. -/
theorem Runs.of_plain {code : Code σ α} (plain : code.Plain) {memory : σ}
    (run : Runs irq code ⟨irq.top, memory⟩ log value last)
    : log = [] ∧ value = (code.effect memory).1
      ∧ last = ⟨irq.top, (code.effect memory).2⟩ := by
  have none_above : ∀ i, ¬irq.top < irq.priority i := fun i => Nat.not_lt.mpr (irq.priority_le i)
  induction code generalizing memory with
  | done given =>
      cases run with
      | done => exact ⟨rfl, rfl, rfl⟩
      | interrupt i unmasked _ => exact absurd unmasked (none_above i)
  | step act next ih =>
      cases run with
      | step rest => exact ih _ (plain _) rest
      | interrupt i unmasked _ => exact absurd unmasked (none_above i)
  | raise _ => exact absurd plain (by simp [Code.Plain])
  | restore _ _ => exact absurd plain (by simp [Code.Plain])

/-- Plain code runs to its end when nothing interrupts it, on any level. -/
theorem runs_plain (irq : Source ι σ) {code : Code σ α} (plain : code.Plain) (level : Nat)
    (memory : σ)
    : Runs irq code ⟨level, memory⟩ [] (code.effect memory).1
        ⟨level, (code.effect memory).2⟩ := by
  induction code generalizing memory with
  | done _ => exact .done
  | step act next ih => exact .step (ih _ (plain _) _)
  | raise _ => exact absurd plain (by simp [Code.Plain])
  | restore _ _ => exact absurd plain (by simp [Code.Plain])

end Runs

-----------------------------------------------------------------------------------------
-- Code that nobody can tell apart
-----------------------------------------------------------------------------------------

section SameRuns

variable {ι σ α β : Type} {irq : Source ι σ}

theorem SameRuns.refl (code : Code σ α) : SameRuns irq code code :=
  fun _ _ _ _ => .rfl

theorem SameRuns.trans {code mid other : Code σ α} (first : SameRuns irq code mid)
    (second : SameRuns irq mid other)
    : SameRuns irq code other :=
  fun cpu log value last => (first cpu log value last).trans (second cpu log value last)

/-- Code that is part of other code may be replaced in it. -/
theorem SameRuns.bind {code other : Code σ α} {rest more : α → Code σ β}
    (first : SameRuns irq code other) (second : ∀ value, SameRuns irq (rest value) (more value))
    : SameRuns irq (code >>= rest) (other >>= more) := by
  intro cpu log result last
  constructor
  · intro run
    obtain ⟨value, mid, before, behind, rfl, here, there⟩ := run.of_bind
    exact ((first _ _ _ _).mp here).bind ((second value _ _ _ _).mp there)
  · intro run
    obtain ⟨value, mid, before, behind, rfl, here, there⟩ := run.of_bind
    exact ((first _ _ _ _).mpr here).bind ((second value _ _ _ _).mpr there)

/-- Plain code with every interrupt masked is one step. -/
theorem sameRuns_masked {body : Code σ α} (plain : body.Plain)
    : SameRuns irq body.masked (.one body.effect) := by
  intro cpu log value last
  constructor
  · intro run
    obtain ⟨found, before, _, rfl, served, raised⟩ := run.of_raise
    have raised : Runs irq (body >>= fun value => .restore cpu.level (.done value))
        ⟨irq.top, found⟩ _ value last := raised
    obtain ⟨given, mid, _, behind, rfl, inside, restored⟩ := raised.of_bind
    obtain ⟨rfl, rfl, rfl⟩ := inside.of_plain plain
    obtain ⟨_, masked, _, rfl, waited, rest⟩ := restored.of_restore
    obtain ⟨rfl, _, same⟩ := @Runs.of_plain _ _ _ _ _ _ _ (.done ()) trivial _ waited
    cases same
    exact served.after (.step rest)
  · intro run
    obtain ⟨found, before, behind, rfl, served, rest⟩ := run.of_step
    have inside := runs_plain irq plain irq.top found
    exact served.after (.raise (inside.bind (.restore rest)))

/-- Plain code with every interrupt masked only looks, when all in all it changes nothing. -/
theorem sameRuns_look {body : Code σ α} (plain : body.Plain) {read : σ → α}
    (silent : ∀ memory, body.effect memory = (read memory, memory))
    : SameRuns irq body.masked (.look read) := by
  have effect : body.effect = fun memory => (read memory, memory) := funext silent
  rw [Code.look, ← effect]
  exact sameRuns_masked plain

end SameRuns

-----------------------------------------------------------------------------------------
-- Invariants
-----------------------------------------------------------------------------------------

/-- Every step of the code keeps an invariant when it finds it. -/
def Code.Keeps {σ α : Type} (invariant : σ → Prop) : Code σ α → Prop
  | .done _ => True
  | .step act next =>
      ∀ memory, invariant memory
        → invariant (act memory).2 ∧ (next (act memory).1).Keeps invariant
  | .raise next => ∀ level, (next level).Keeps invariant
  | .restore _ next => next.Keeps invariant

section Keeps

variable {ι σ α β : Type} {irq : Source ι σ} {invariant : σ → Prop}

/-- An invariant that handlers and steps keep is found by every handler and at the end. -/
theorem Runs.keeps {code : Code σ α} {cpu last : Cpu σ} {log : List (ι × σ)} {value : α}
    (handled : ∀ i memory, invariant memory → invariant (irq.handle i memory))
    (run : Runs irq code cpu log value last) (kept : code.Keeps invariant)
    (start : invariant cpu.memory)
    : (∀ served ∈ log, invariant served.2) ∧ invariant last.memory := by
  induction run with
  | done => exact ⟨by simp, start⟩
  | step _ ih => exact ih (kept _ start).2 (kept _ start).1
  | raise _ ih => exact ih (kept _) start
  | restore _ ih => exact ih kept start
  | interrupt i _ _ ih =>
      obtain ⟨found, final⟩ := ih kept (handled i _ start)
      exact ⟨List.forall_mem_cons.mpr ⟨start, found⟩, final⟩

/-- Code in sequence keeps what its parts keep, by induction on the first part. -/
theorem Code.Keeps.bind {code : Code σ α} {rest : α → Code σ β} (first : code.Keeps invariant)
    (second : ∀ value, (rest value).Keeps invariant)
    : (code >>= rest).Keeps invariant := by
  induction code with
  | done value => exact second value
  | step act next ih =>
      intro memory holds
      exact ⟨(first memory holds).1, ih _ (first memory holds).2⟩
  | raise next ih => exact fun level => ih level (first level)
  | restore level next ih => exact ih first

theorem Code.Keeps.look {read : σ → α} {rest : α → Code σ β}
    (kept : ∀ memory, invariant memory → (rest (read memory)).Keeps invariant)
    : (Code.look read >>= rest).Keeps invariant :=
  fun memory holds => ⟨holds, kept memory holds⟩

theorem Code.Keeps.ite {condition : Prop} [Decidable condition] {yes no : Code σ α}
    (kept : yes.Keeps invariant) (kept' : no.Keeps invariant)
    : (if condition then yes else no).Keeps invariant := by
  split
  · exact kept
  · exact kept'

end Keeps

-----------------------------------------------------------------------------------------
-- Parts of the memory that handlers leave alone
-----------------------------------------------------------------------------------------

/-- From a view of the memory, the code ends with a value and a view as required, whatever
happens meanwhile to what the view leaves out.
-/
def Code.Ends {σ τ α : Type} (view : σ → τ) (ends : α → τ → Prop) : Code σ α → τ → Prop
  | .done value, seen => ends value seen
  | .step act next, seen =>
      ∀ memory, view memory = seen
        → (next (act memory).1).Ends view ends (view (act memory).2)
  | .raise next, seen => ∀ level, (next level).Ends view ends seen
  | .restore _ next, seen => next.Ends view ends seen

section Ends

variable {ι σ τ α β : Type} {irq : Source ι σ} {view : σ → τ}

/-- What code leads to in a view that the handlers leave alone. -/
theorem Runs.ends {ends : α → τ → Prop} {code : Code σ α} {cpu last : Cpu σ}
    {log : List (ι × σ)} {value : α}
    (alone : ∀ i memory, view (irq.handle i memory) = view memory)
    (run : Runs irq code cpu log value last) (leads : code.Ends view ends (view cpu.memory))
    : ends value (view last.memory) := by
  induction run with
  | done => exact leads
  | step _ ih => exact ih (leads _ rfl)
  | raise _ ih => exact ih (leads _)
  | restore _ ih => exact ih leads
  | interrupt i _ _ ih =>
      refine ih ?_
      rw [alone i]
      exact leads

theorem Code.Ends.weaken {ends ends' : α → τ → Prop} {code : Code σ α} {seen : τ}
    (leads : code.Ends view ends seen)
    (weaker : ∀ value later, ends value later → ends' value later)
    : code.Ends view ends' seen := by
  induction code generalizing seen with
  | done value => exact weaker value seen leads
  | step act next ih => exact fun memory here => ih _ (leads memory here)
  | raise next ih => exact fun level => ih level (leads level)
  | restore level next ih => exact ih leads

/-- Code in sequence, by induction on the first part. -/
theorem Code.Ends.bind {ends : β → τ → Prop} {code : Code σ α} {rest : α → Code σ β} {seen : τ}
    (first : code.Ends view (fun value later => (rest value).Ends view ends later) seen)
    : (code >>= rest).Ends view ends seen := by
  induction code generalizing seen with
  | done value => exact first
  | step act next ih => exact fun memory here => ih _ (first memory here)
  | raise next ih => exact fun level => ih level (first level)
  | restore level next ih => exact ih first

theorem Code.Ends.look {ends : β → τ → Prop} {read : σ → α} {rest : α → Code σ β} {seen : τ}
    (leads : ∀ memory, view memory = seen → (rest (read memory)).Ends view ends seen)
    : (Code.look read >>= rest).Ends view ends seen := by
  intro memory here
  show (rest (read memory)).Ends view ends (view memory)
  rw [here]
  exact leads memory here

theorem Code.Ends.ite {ends : α → τ → Prop} {condition : Prop} [Decidable condition]
    {yes no : Code σ α} {seen : τ} (leads : yes.Ends view ends seen)
    (leads' : no.Ends view ends seen)
    : (if condition then yes else no).Ends view ends seen := by
  split
  · exact leads
  · exact leads'

end Ends

end Library.Interrupts
