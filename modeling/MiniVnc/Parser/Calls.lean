import MiniVnc.Parser.RoundTrip

/-! The calls that the client's messages are due, whatever the handlers do: the parser hands them
over in turn until one ends the session.
-/

namespace MiniVnc.Parser
open Library.Memory Library.Stream

variable {σ τ : Type}

/-- One call, of which only the effect counts. -/
def call (handle : Handler σ) (event : Event) : EStateM SessionError σ Unit := do
  let _ ← handle event

/-- The same bytes pend and the same calls have been made, whatever these have left. -/
structure SameParse (p : Position σ) (q : Position τ) : Prop where
  pending : p.pending = q.pending
  calls : p.calls = q.calls

/-- The result is that of the calls `due`, made in turn from `p` on. -/
abbrev MakesDue (handle : Handler σ) (p : Position σ) (q' : Position τ) (due : List Event)
    : EStateM.Result SessionError (Position σ) Unit → Prop :=
  Meets
    (fun _ p' => SameParse p' q' ∧ run (call handle) due p.handlers = .ok () p'.handlers)
    (fun e p' => p'.calls <+: q'.calls ∧ run (call handle) due p.handlers = .error e p'.handlers)

/-- A byte that observing handlers read makes any handlers the same call, or none. -/
theorem eat_makesDue (handle : Handler σ) {react : Event → τ → UInt8 × τ} {byte : UInt8}
    {p : Position σ} {q q' : Position τ} (same : SameParse p q)
    (read : eat (observing react) byte q = .ok () q')
    : ∃ due, q'.calls = q.calls ++ due ∧ MakesDue handle p q' due (eat handle byte p) := by
  obtain ⟨pending, calls⟩ := same
  rw [eat] at read
  rw [eat, pending]
  cases known : ClientMessageType.ofCode? ((q.pending ++ [byte]).headD 0) with
  | none =>
      rw [known] at read
      cases read
  | some type =>
      rw [known] at read
      dsimp only at read ⊢
      by_cases complete : messageSize? q.pending = some (q.pending.length + 1)
      · rw [if_pos complete] at read ⊢
        simp only [deliver] at read ⊢
        generalize eventOf type (load (q.pending ++ [byte])) (q.pending ++ [byte]).length = event
          at read ⊢
        cases observed : observing react event q.handlers with
        | error e after =>
            rw [observed] at read
            cases read
        | ok left after =>
            rw [observed] at read
            cases read
            refine ⟨[event], rfl, ?_⟩
            cases called : handle event p.handlers with
            | ok left' after' =>
                refine .ok ⟨⟨rfl, by rw [calls]⟩, ?_⟩
                rw [run_singleton, call, bind_ok called]
                rfl
            | error e after' =>
                refine .error ⟨?_, ?_⟩
                · exact calls ▸ List.prefix_rfl
                · rw [run_singleton, call, bind_error called]
      · rw [if_neg complete] at read ⊢
        cases read
        exact ⟨[], by simp, .ok ⟨⟨rfl, calls⟩, rfl⟩⟩

/-- Calls are only added. -/
theorem run_eat_grows {handle : Handler σ} {bytes : List UInt8} {p p' : Position σ}
    (read : run (eat handle) bytes p = .ok () p')
    : p.calls <+: p'.calls := by
  refine run_invariant (fun p' : Position σ => p.calls <+: p'.calls) ?_ read List.prefix_rfl
  intro byte _ middle after eaten before
  unfold eat at eaten
  split at eaten
  · cases eaten
  · split at eaten
    · unfold deliver at eaten
      dsimp only at eaten
      split at eaten
      · cases eaten
        exact before.trans (List.prefix_append _ _)
      · cases eaten
    · cases eaten
      exact before

/-- By induction on the bytes. -/
theorem run_eat_makesDue (handle : Handler σ) {react : Event → τ → UInt8 × τ}
    {bytes : List UInt8} {p : Position σ} {q q' : Position τ} (same : SameParse p q)
    (read : run (eat (observing react)) bytes q = .ok () q')
    : ∃ due, q'.calls = q.calls ++ due ∧ MakesDue handle p q' due (run (eat handle) bytes p) := by
  induction bytes generalizing p q with
  | nil =>
      cases read
      exact ⟨[], by simp, .ok ⟨same, rfl⟩⟩
  | cons byte bytes ih =>
      obtain ⟨_, middle, first, rest⟩ := bind_eq_ok.mp read
      obtain ⟨due, calls, makes⟩ := eat_makesDue handle same first
      cases eaten : eat handle byte p with
      | error e p' =>
          rw [eaten] at makes
          obtain ⟨front, raised⟩ := makes.of_error
          obtain ⟨later, calls'⟩ := run_eat_grows rest
          refine ⟨due ++ later, by rw [← calls', calls, List.append_assoc], ?_⟩
          rw [run, bind_error eaten]
          refine .error ⟨?_, ?_⟩
          · rw [← calls']
            exact front.trans (List.prefix_append _ _)
          · rw [run_append, bind_error raised]
      | ok done p' =>
          rw [eaten] at makes
          obtain ⟨same', handled⟩ := makes.of_ok
          obtain ⟨later, calls', makes'⟩ := ih same' rest
          refine ⟨due ++ later, by rw [calls', calls, List.append_assoc], ?_⟩
          rw [run, bind_ok eaten]
          refine makes'.weaken ?_ ?_
          · rintro _ last ⟨same'', handled'⟩
            exact ⟨same'', (run_append_ok handled later).trans handled'⟩
          · rintro e last ⟨front, raised⟩
            exact ⟨front, (run_append_ok handled later).trans raised⟩

/-- Well-formed messages without cut text make the calls they are due, in turn: to the last of them,
or to the first that ends the session.
-/
theorem run_eat_encode (handle : Handler σ) {p : Position σ} (boundary : p.pending = [])
    {messages : List ClientMessage} (wellFormed : ∀ message ∈ messages, message.WellFormed)
    (textless : ∀ message ∈ messages, message.text = [])
    : Meets
        (fun _ p' => p'.pending = [] ∧ p'.calls = p.calls ++ messages.flatMap ClientMessage.events
          ∧ run (call handle) (messages.flatMap ClientMessage.events) p.handlers
            = .ok () p'.handlers)
        (fun e p' => p'.calls <+: p.calls ++ messages.flatMap ClientMessage.events
          ∧ run (call handle) (messages.flatMap ClientMessage.events) p.handlers
            = .error e p'.handlers)
        (run (eat handle) (messages.flatMap ClientMessage.encode) p) := by
  obtain ⟨q', read, empty, calls⟩ :=
    @reads_messages Unit (fun _ s => (0, s)) ⟨p.pending, p.calls, ()⟩ boundary messages wellFormed
      textless
  obtain ⟨due, calls', makes⟩ :=
    run_eat_makesDue handle (⟨rfl, rfl⟩ : SameParse p ⟨p.pending, p.calls, ()⟩) read
  have all : due = messages.flatMap ClientMessage.events :=
    List.append_cancel_left (calls'.symm.trans calls)
  subst all
  refine makes.weaken ?_ ?_
  · rintro _ p' ⟨same, handled⟩
    exact ⟨same.pending.trans empty, same.calls.trans calls, handled⟩
  · rintro e p' ⟨front, raised⟩
    rw [calls] at front
    exact ⟨front, raised⟩

end MiniVnc.Parser
