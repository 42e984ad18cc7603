import Mathlib.Data.List.Basic
import Mathlib.Order.Defs.Unbundled

/-! Stateful consumers of a stream, and refinement between a consumer that takes the stream
in chunks and one that takes it symbol by symbol.

Both run in `EStateM`, whose state survives an exception as a C state survives `longjmp`.
A chunk consumer that refines a symbol consumer cannot tell where the stream was cut.
-/

namespace Library.Stream

variable {ε ε' σ τ α β : Type}

theorem bind_ok {γ : Type} {x : EStateM ε σ α} {f : α → EStateM ε σ γ} {s s' : σ} {a : α}
    (h : x s = .ok a s')
    : (x >>= f) s = f a s' := by
  simp only [bind, EStateM.bind, h]

theorem bind_error {γ : Type} {x : EStateM ε σ α} {f : α → EStateM ε σ γ} {s s' : σ} {e : ε}
    (h : x s = .error e s')
    : (x >>= f) s = .error e s' := by
  simp only [bind, EStateM.bind, h]

/-- A sequence returns exactly when both parts do, by cases on the first result. -/
theorem bind_eq_ok {γ : Type} {x : EStateM ε σ α} {f : α → EStateM ε σ γ} {s final : σ}
    {value : γ}
    : (x >>= f) s = .ok value final ↔ ∃ a s', x s = .ok a s' ∧ f a s' = .ok value final := by
  cases h : x s with
  | ok a s' => simp [bind_ok h]
  | error e s' => simp [bind_error h]

theorem bind_eq_error {γ : Type} {x : EStateM ε σ α} {f : α → EStateM ε σ γ} {s final : σ} {e : ε}
    : (x >>= f) s = .error e final
      ↔ x s = .error e final ∨ ∃ a s', x s = .ok a s' ∧ f a s' = .error e final := by
  cases h : x s with
  | ok a s' => simp [bind_ok h]
  | error e' s' => simp [bind_error h]

@[simp]
theorem get_bind {γ : Type} (f : σ → EStateM ε σ γ) (s : σ) : (get >>= f) s = f s s :=
  rfl

@[simp]
theorem set_bind {γ : Type} (next : σ) (f : PUnit → EStateM ε σ γ) (s : σ)
    : (set next >>= f) s = f ⟨⟩ next :=
  rfl

@[simp]
theorem modify_bind {γ : Type} (change : σ → σ) (f : PUnit → EStateM ε σ γ) (s : σ)
    : ((modify change : EStateM ε σ PUnit) >>= f) s = f ⟨⟩ (change s) :=
  rfl

/-- Feed a stream to `step`, one symbol after another. -/
def run (step : β → EStateM ε σ Unit) : List β → EStateM ε σ Unit
  | [] => pure ()
  | symbol :: rest => do
      step symbol
      run step rest

@[simp]
theorem run_nil (step : β → EStateM ε σ Unit) (s : σ) : run step [] s = .ok () s :=
  rfl

theorem run_singleton (step : β → EStateM ε σ Unit) (symbol : β) (s : σ)
    : run step [symbol] s = step symbol s := by
  cases h : step symbol s with
  | ok value s' => rw [run, bind_ok h, run_nil]
  | error e s' => rw [run, bind_error h]

/-- Running over a concatenation runs over its parts in turn, by induction on the first.
-/
theorem run_append (step : β → EStateM ε σ Unit) (first rest : List β)
    : run step (first ++ rest) = (run step first >>= fun _ => run step rest) := by
  funext s
  induction first generalizing s with
  | nil => rfl
  | cons symbol first ih =>
      rw [List.cons_append, run]
      cases h : step symbol s with
      | ok value s' =>
          rw [bind_ok h, ih, run]
          simp only [bind, EStateM.bind, h]
      | error e s' =>
          rw [bind_error h, run]
          simp only [bind, EStateM.bind, h]

theorem run_append_ok {step : β → EStateM ε σ Unit} {first : List β} {s s' : σ}
    (h : run step first s = .ok () s') (rest : List β)
    : run step (first ++ rest) s = run step rest s' := by
  rw [run_append, bind_ok h]

/-- Mapping the symbols is part of the step. -/
theorem run_map {γ : Type} (step : β → EStateM ε σ Unit) (f : γ → β) (stream : List γ)
    : run step (stream.map f) = run (fun symbol => step (f symbol)) stream := by
  induction stream with
  | nil => rfl
  | cons symbol rest ih => rw [List.map_cons, run, run, ih]

/-- A stream that is cut into parts is run part by part. -/
theorem run_flatMap {γ : Type} (step : β → EStateM ε σ Unit) (part : γ → List β)
    (stream : List γ)
    : run step (stream.flatMap part) = run (fun symbol => run step (part symbol)) stream := by
  induction stream with
  | nil => rfl
  | cons symbol rest ih => rw [List.flatMap_cons, run_append, ih, run]

/-- A run that raises does so at a symbol, by induction on the stream. -/
theorem run_raises {step : β → EStateM ε σ Unit} {stream : List β} {s last : σ} {e : ε}
    (raised : run step stream s = .error e last)
    : ∃ before symbol after middle, stream = before ++ symbol :: after
        ∧ run step before s = .ok () middle ∧ step symbol middle = .error e last := by
  induction stream generalizing s with
  | nil => cases raised
  | cons symbol rest ih =>
      cases first : step symbol s with
      | error e' s' =>
          rw [run, bind_error first] at raised
          cases raised
          exact ⟨[], symbol, rest, s, rfl, rfl, first⟩
      | ok value s' =>
          rw [run, bind_ok first] at raised
          obtain ⟨before, other, after, middle, cut, returned, last_⟩ := ih raised
          refine ⟨symbol :: before, other, after, middle, by rw [cut]; rfl, ?_, last_⟩
          rw [run, bind_ok first]
          exact returned

/-- The states a run leaves behind, one for each symbol it takes. -/
def states (step : β → EStateM ε σ Unit) : List β → σ → List σ
  | [], _ => []
  | symbol :: rest, s =>
      match step symbol s with
      | .ok _ s' => s' :: states step rest s'
      | .error _ _ => []

/-- The state a computation ends in, returning or not. -/
def endState : EStateM.Result ε σ α → σ
  | .ok _ s => s
  | .error _ s => s

/-- A run that returns has taken every symbol. -/
theorem states_length {step : β → EStateM ε σ Unit} {stream : List β} {s s' : σ}
    (h : run step stream s = .ok () s')
    : (states step stream s).length = stream.length := by
  induction stream generalizing s with
  | nil => rfl
  | cons symbol rest ih =>
      obtain ⟨_, middle, first, later⟩ := bind_eq_ok.mp h
      rw [states, first, List.length_cons, List.length_cons, ih later]

/-- A run takes at most every symbol. -/
theorem states_length_le (step : β → EStateM ε σ Unit) (stream : List β) (s : σ)
    : (states step stream s).length ≤ stream.length := by
  induction stream generalizing s with
  | nil => exact Nat.le_refl 0
  | cons symbol rest ih =>
      rw [states]
      split
      · exact Nat.succ_le_succ (ih _)
      · exact Nat.zero_le _

/-- A run gets through a front of the stream, and ends there or in the step behind it. -/
theorem run_taken (step : β → EStateM ε σ Unit) (stream : List β) (s : σ)
    : ∃ taken s', taken <+: stream ∧ taken.length = (states step stream s).length
        ∧ run step taken s = .ok () s'
        ∧ (endState (run step stream s) = s'
          ∨ ∃ symbol ∈ stream, ∃ e, step symbol s' = .error e (endState (run step stream s))) := by
  induction stream generalizing s with
  | nil => exact ⟨[], s, List.prefix_rfl, rfl, rfl, Or.inl rfl⟩
  | cons symbol rest ih =>
      cases first : step symbol s with
      | ok value middle =>
          obtain ⟨taken, s', front, length, returned, ended⟩ := ih middle
          refine ⟨symbol :: taken, s', List.cons_prefix_cons.mpr ⟨rfl, front⟩, ?_, ?_, ?_⟩
          · simp only [states, first, List.length_cons, length]
          · rw [run, bind_ok first]
            exact returned
          · rw [run, bind_ok first]
            rcases ended with here | ⟨other, member, e, raised⟩
            · exact Or.inl here
            · exact Or.inr ⟨other, List.mem_cons_of_mem symbol member, e, raised⟩
      | error e last =>
          refine ⟨[], s, List.nil_prefix, ?_, rfl, Or.inr ⟨symbol, by simp, e, ?_⟩⟩
          · simp only [states, first, List.length_nil]
          · rw [run, bind_error first]
            exact first

/-- What comes behind a run that returns leaves its states behind those of the run. -/
theorem states_append {step : β → EStateM ε σ Unit} {first : List β} {s s' : σ}
    (returned : run step first s = .ok () s') (rest : List β)
    : states step (first ++ rest) s = states step first s ++ states step rest s' := by
  induction first generalizing s with
  | nil =>
      cases returned
      rfl
  | cons symbol first ih =>
      obtain ⟨_, middle, taken, later⟩ := bind_eq_ok.mp returned
      simp only [List.cons_append, states, taken]
      rw [ih later]

-----------------------------------------------------------------------------------------
-- Total actions
-----------------------------------------------------------------------------------------

/-- From every state that satisfies the invariant the action returns, in such a state. -/
def Total (invariant : σ → Prop) (x : EStateM ε σ α) : Prop :=
  ∀ s, invariant s → ∃ a s', x s = .ok a s' ∧ invariant s'

theorem Total.pure {invariant : σ → Prop} (a : α)
    : Total invariant (pure a : EStateM ε σ α) := by
  intro s holds
  exact ⟨a, s, rfl, holds⟩

/-- A sequence is total when both parts are. -/
theorem Total.bind {γ : Type} {invariant : σ → Prop} {x : EStateM ε σ α}
    {f : α → EStateM ε σ γ} (first : Total invariant x) (rest : ∀ a, Total invariant (f a))
    : Total invariant (x >>= f) := by
  intro s holds
  obtain ⟨a, s', returned, holds'⟩ := first s holds
  obtain ⟨value, last, returned', holds''⟩ := rest a s' holds'
  exact ⟨value, last, (bind_ok returned).trans returned', holds''⟩

theorem Total.get {invariant : σ → Prop} : Total invariant (get : EStateM ε σ σ) := by
  intro s holds
  exact ⟨s, s, rfl, holds⟩

theorem Total.modify {invariant : σ → Prop} {change : σ → σ}
    (keeps : ∀ s, invariant s → invariant (change s))
    : Total invariant (modify change : EStateM ε σ PUnit) := by
  intro s holds
  exact ⟨⟨⟩, change s, rfl, keeps s holds⟩

/-- What every returning step preserves, every returning run preserves, by induction on
the stream.
-/
theorem run_invariant {step : β → EStateM ε σ Unit} (invariant : σ → Prop) {stream : List β}
    (preserved
      : ∀ symbol ∈ stream, ∀ s s', step symbol s = .ok () s' → invariant s → invariant s')
    {s s' : σ} (h : run step stream s = .ok () s') (holds : invariant s)
    : invariant s' := by
  induction stream generalizing s with
  | nil =>
      cases h
      exact holds
  | cons symbol rest ih =>
      obtain ⟨_, middle, first, later⟩ := bind_eq_ok.mp h
      exact ih (fun other member => preserved other (by simp [member])) later
        (preserved symbol (by simp) s middle first holds)

/-- A run whose steps are total returns. -/
theorem run_total {step : β → EStateM ε σ Unit} {invariant : σ → Prop} {stream : List β}
    (total : ∀ symbol ∈ stream, Total invariant (step symbol))
    : Total invariant (run step stream) := by
  induction stream with
  | nil => exact Total.pure ()
  | cons symbol rest ih =>
      exact (total symbol (by simp)).bind fun _ =>
        ih fun other member => total other (by simp [member])

-----------------------------------------------------------------------------------------
-- Actions that move the state one way
-----------------------------------------------------------------------------------------

/-- Whether it returns or raises, the action ends in a state related to the one it started in. -/
def Ascends (order : σ → σ → Prop) (x : EStateM ε σ α) : Prop :=
  ∀ s, order s (endState (x s))

section Ascends

variable {order : σ → σ → Prop} [IsPreorder σ order]

theorem Ascends.pure (a : α) : Ascends order (pure a : EStateM ε σ α) :=
  refl_of order

theorem Ascends.throw (e : ε) : Ascends order (throw e : EStateM ε σ α) :=
  refl_of order

omit [IsPreorder σ order] in
theorem Ascends.modify {change : σ → σ} (moves : ∀ s, order s (change s))
    : Ascends order (modify change : EStateM ε σ PUnit) :=
  moves

/-- A sequence ends where its second part ends, or already where its first part raises. -/
theorem Ascends.bind {γ : Type} {x : EStateM ε σ α} {f : α → EStateM ε σ γ}
    (first : Ascends order x) (rest : ∀ a, Ascends order (f a))
    : Ascends order (x >>= f) := by
  intro s
  have start := first s
  cases h : x s with
  | ok a s' =>
      rw [h] at start
      rw [bind_ok h]
      exact trans_of order start (rest a s')
  | error e s' =>
      rw [h] at start
      rw [bind_error h]
      exact start

omit [IsPreorder σ order] in
/-- What is done next may depend on the state. -/
theorem Ascends.get_bind {f : σ → EStateM ε σ α} (rest : ∀ s, order s (endState (f s s)))
    : Ascends order (get >>= f) :=
  rest

theorem Ascends.run {step : β → EStateM ε σ Unit} (steps : ∀ symbol, Ascends order (step symbol))
    (stream : List β)
    : Ascends order (run step stream) := by
  induction stream with
  | nil => exact .pure ()
  | cons symbol rest ih => exact (steps symbol).bind fun _ => ih

end Ascends

/-- A list in the state only grows, at its end. -/
def Grows (part : σ → List α) (s s' : σ) : Prop := part s <+: part s'

instance (part : σ → List α) : IsPreorder σ (Grows part) where
  refl _ := List.prefix_rfl
  trans _ _ _ := List.IsPrefix.trans

-----------------------------------------------------------------------------------------
-- The exceptions that an action may raise
-----------------------------------------------------------------------------------------

/-- Whatever state it starts in, the action raises no other exceptions than these. -/
def Raises (exceptions : List ε) (x : EStateM ε σ α) : Prop :=
  ∀ s e s', x s = .error e s' → e ∈ exceptions

section Raises

variable {exceptions : List ε}

theorem Raises.pure (a : α) : Raises exceptions (pure a : EStateM ε σ α) := by
  intro s e s' raised
  cases raised

theorem Raises.throw {e : ε} (member : e ∈ exceptions)
    : Raises exceptions (throw e : EStateM ε σ α) := by
  intro s e' s' raised
  cases raised
  exact member

theorem Raises.get : Raises exceptions (get : EStateM ε σ σ) := by
  intro s e s' raised
  cases raised

theorem Raises.modify {change : σ → σ}
    : Raises exceptions (modify change : EStateM ε σ PUnit) := by
  intro s e s' raised
  cases raised

/-- A sequence raises what its parts raise. -/
theorem Raises.bind {γ : Type} {x : EStateM ε σ α} {f : α → EStateM ε σ γ}
    (first : Raises exceptions x) (rest : ∀ a, Raises exceptions (f a))
    : Raises exceptions (x >>= f) := by
  intro s e s' raised
  cases h : x s with
  | ok a middle =>
      rw [bind_ok h] at raised
      exact rest a middle e s' raised
  | error e' middle =>
      rw [bind_error h] at raised
      cases raised
      exact first s _ _ h

theorem Raises.ite {condition : Prop} [Decidable condition] {x y : EStateM ε σ α}
    (then_ : Raises exceptions x) (else_ : Raises exceptions y)
    : Raises exceptions (if condition then x else y) := by
  split
  · exact then_
  · exact else_

theorem Raises.run {step : β → EStateM ε σ Unit} (steps : ∀ symbol, Raises exceptions (step symbol))
    (stream : List β)
    : Raises exceptions (run step stream) := by
  induction stream with
  | nil => exact .pure ()
  | cons symbol rest ih => exact (steps symbol).bind fun _ => ih

end Raises

-----------------------------------------------------------------------------------------
-- Conditions on results
-----------------------------------------------------------------------------------------

/-- The result satisfies one condition if the computation returns, and another if it raises. -/
inductive Meets (returned : α → σ → Prop) (raised : ε → σ → Prop)
    : EStateM.Result ε σ α → Prop
  | ok {value s} (holds : returned value s) : Meets returned raised (.ok value s)
  | error {e s} (holds : raised e s) : Meets returned raised (.error e s)

section Meets

variable {returned : α → σ → Prop} {raised : ε → σ → Prop}

theorem Meets.of_ok {value : α} {s : σ} (meets : Meets returned raised (.ok value s))
    : returned value s := by
  cases meets with
  | ok holds => exact holds

theorem Meets.of_error {e : ε} {s : σ} (meets : Meets returned raised (.error e s))
    : raised e s := by
  cases meets with
  | error holds => exact holds

theorem Meets.weaken {returned' : α → σ → Prop} {raised' : ε → σ → Prop}
    {result : EStateM.Result ε σ α} (meets : Meets returned raised result)
    (ok : ∀ value s, returned value s → returned' value s)
    (error : ∀ e s, raised e s → raised' e s)
    : Meets returned' raised' result := by
  cases meets with
  | ok holds => exact .ok (ok _ _ holds)
  | error holds => exact .error (error _ _ holds)

/-- A sequence meets what its second part meets after its first, if the first raises as it should.
-/
theorem Meets.bind {γ : Type} {returned' : γ → σ → Prop} {x : EStateM ε σ α}
    {f : α → EStateM ε σ γ} {s : σ} (first : Meets returned raised (x s))
    (rest
      : ∀ value s', x s = .ok value s' → returned value s' →
          Meets returned' raised (f value s'))
    : Meets returned' raised ((x >>= f) s) := by
  cases h : x s with
  | ok value s' =>
      rw [h] at first
      rw [bind_ok h]
      exact rest value s' h first.of_ok
  | error e s' =>
      rw [h] at first
      rw [bind_error h]
      exact .error first.of_error

end Meets

-----------------------------------------------------------------------------------------
-- Refinement
-----------------------------------------------------------------------------------------

/-- The two results return in states related by `kept`, or raise matching exceptions in
states related by `raised`. Exceptions of the right-hand side embed through `lift`.
-/
inductive Refines (lift : ε' → ε) (kept : α → σ → τ → Prop) (raised : σ → τ → Prop)
    : EStateM.Result ε σ α → EStateM.Result ε' τ Unit → Prop
  | ok {value s t} (related : kept value s t) : Refines lift kept raised (.ok value s) (.ok () t)
  | error {e s t} (related : raised s t)
    : Refines lift kept raised (.error (lift e) s) (.error e t)

/-- Refinement composes along sequencing: related intermediate states, of which the left one is
returned, continue to related results. Witness: cases on the first refinement.
-/
theorem Refines.bind_returned {γ : Type} {lift : ε' → ε} {middle : α → σ → τ → Prop}
    {kept : γ → σ → τ → Prop} {raised : σ → τ → Prop}
    {x : EStateM ε σ α} {f : α → EStateM ε σ γ} {y : EStateM ε' τ Unit}
    {g : Unit → EStateM ε' τ Unit} {s : σ} {t : τ}
    (first : Refines lift middle raised (x s) (y t))
    (rest
      : ∀ a s' t', x s = .ok a s' → middle a s' t' →
          Refines lift kept raised (f a s') (g () t'))
    : Refines lift kept raised ((x >>= f) s) ((y >>= g) t) := by
  cases hx : x s with
  | ok a s' =>
      cases hy : y t with
      | ok done t' =>
          rw [hx, hy] at first
          cases first with
          | ok related => rw [bind_ok hx, bind_ok hy]; exact rest a s' t' hx related
      | error e t' => rw [hx, hy] at first; cases first
  | error e s' =>
      cases hy : y t with
      | ok done t' => rw [hx, hy] at first; cases first
      | error e' t' =>
          rw [hx, hy] at first
          rw [bind_error hx, bind_error hy]
          cases first with
          | error related => exact .error related

theorem Refines.bind {γ : Type} {lift : ε' → ε} {middle : α → σ → τ → Prop}
    {kept : γ → σ → τ → Prop} {raised : σ → τ → Prop}
    {x : EStateM ε σ α} {f : α → EStateM ε σ γ} {y : EStateM ε' τ Unit}
    {g : Unit → EStateM ε' τ Unit} {s : σ} {t : τ}
    (first : Refines lift middle raised (x s) (y t))
    (rest : ∀ a s t, middle a s t → Refines lift kept raised (f a s) (g () t))
    : Refines lift kept raised ((x >>= f) s) ((y >>= g) t) :=
  first.bind_returned fun a s' t' _ => rest a s' t'

/-- The final states are related if they are, returned or raised in. -/
theorem Refines.endState {lift : ε' → ε} {related : σ → τ → Prop}
    {r : EStateM.Result ε σ α} {abstract : EStateM.Result ε' τ Unit}
    (h : Refines lift (fun _ => related) related r abstract)
    : related (endState r) (endState abstract) := by
  cases h with
  | ok holds => exact holds
  | error holds => exact holds

theorem Refines.weaken {lift : ε' → ε} {kept kept' : α → σ → τ → Prop} {raised : σ → τ → Prop}
    {r : EStateM.Result ε σ α} {abstract : EStateM.Result ε' τ Unit}
    (h : Refines lift kept raised r abstract) (weaker : ∀ a s t, kept a s t → kept' a s t)
    : Refines lift kept' raised r abstract := by
  cases h with
  | ok related => exact .ok (weaker _ _ _ related)
  | error related => exact .error related

/-- Returning another value after the left-hand side keeps the refinement. -/
theorem Refines.returning {γ : Type} {lift : ε' → ε} {kept : α → σ → τ → Prop}
    {kept' : γ → σ → τ → Prop} {raised : σ → τ → Prop} {x : EStateM ε σ α} {s : σ}
    {abstract : EStateM.Result ε' τ Unit} (h : Refines lift kept raised (x s) abstract)
    (value : γ) (weaken : ∀ a s t, kept a s t → kept' value s t)
    : Refines lift kept' raised ((x >>= fun _ => pure value) s) abstract := by
  cases hx : x s with
  | ok a s' =>
      rw [hx] at h
      rw [bind_ok hx]
      cases h with
      | ok related => exact .ok (weaken _ _ _ related)
  | error e s' =>
      rw [hx] at h
      rw [bind_error hx]
      cases h with
      | error related => exact .error related

/-- Consumers whose steps refine those of another, symbol by symbol, refine its runs. -/
theorem run_refines {lift : ε' → ε} {related : σ → τ → Prop}
    {concrete : β → EStateM ε σ Unit} {step : β → EStateM ε' τ Unit}
    (one
      : ∀ symbol s t, related s t →
          Refines lift (fun _ => related) related (concrete symbol s) (step symbol t))
    (stream : List β) {s : σ} {t : τ} (start : related s t)
    : Refines lift (fun _ => related) related (run concrete stream s) (run step stream t) := by
  induction stream generalizing s t with
  | nil => exact .ok start
  | cons symbol rest ih =>
      refine Refines.bind (one symbol s t start) ?_
      intro _ s' t' next
      exact ih next

section Chunks

variable {lift : ε' → ε} {related raised : σ → τ → Prop} {admissible : List β → Prop}
variable {consume : List β → EStateM ε σ Unit} {step : β → EStateM ε' τ Unit}

/-- A consumer that refines `step` on each admissible chunk refines it on any sequence of
them: the sequence counts only through its concatenation. By induction on the chunks.
-/
theorem run_chunks_refines
    (chunk
      : ∀ c s t, admissible c → related s t
          → Refines lift (fun _ => related) raised (consume c s) (run step c t))
    {chunks : List (List β)} (all : ∀ c ∈ chunks, admissible c) {s : σ} {t : τ}
    (start : related s t)
    : Refines lift (fun _ => related) raised (run consume chunks s)
        (run step chunks.flatten t) := by
  induction chunks generalizing s t with
  | nil => exact .ok start
  | cons c rest ih =>
      rw [List.flatten_cons, run_append]
      refine Refines.bind (chunk c s t (all c (by simp)) start) ?_
      intro _ s' t' next
      exact ih (fun d hd => all d (by simp [hd])) next

/-- Two refinements of one result return together in states related to a common one, or
raise the same exception.
-/
theorem Refines.common {lift : ε' → ε} {r r' : EStateM.Result ε σ Unit}
    {abstract : EStateM.Result ε' τ Unit}
    (left : Refines lift (fun _ => related) raised r abstract)
    (right : Refines lift (fun _ => related) raised r' abstract)
    : (∃ s s' t, r = .ok () s ∧ r' = .ok () s' ∧ related s t ∧ related s' t)
      ∨ ∃ e s s' t, r = .error (lift e) s ∧ r' = .error (lift e) s' ∧ raised s t
          ∧ raised s' t := by
  cases left with
  | ok hl =>
      cases right with
      | ok hr => exact Or.inl ⟨_, _, _, rfl, rfl, hl, hr⟩
  | error hl =>
      cases right with
      | error hr => exact Or.inr ⟨_, _, _, _, rfl, rfl, hl, hr⟩

end Chunks

end Library.Stream
