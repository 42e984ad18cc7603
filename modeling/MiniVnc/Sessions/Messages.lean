import MiniVnc.Sessions.Ending
import MiniVnc.Sessions.SetUp

/-! The message phase of a session as a run of its message handlers. -/

namespace MiniVnc
open Library.Memory Library.Stream

/-- What the calls do to the handlers' state: all of them return, or the last ends the session.
-/
inductive CallsMade (drivers : Drivers) (s : Server) : List Parser.Event → Server → Prop
  | returned {events s'} (handled : run (handleEvent drivers) events s = .ok () s')
    : CallsMade drivers s events s'
  | ended {events event middle e s'} (handled : run (handleEvent drivers) events s = .ok () middle)
    (last : handleEvent drivers event middle = .error e s')
    : CallsMade drivers s (events ++ [event]) s'

/-- Calls that return may go before. -/
theorem CallsMade.after {drivers : Drivers} {s middle s' : Server}
    {events rest : List Parser.Event} (first : run (handleEvent drivers) events s = .ok () middle)
    (calls : CallsMade drivers middle rest s')
    : CallsMade drivers s (events ++ rest) s' := by
  cases calls with
  | returned handled => exact .returned ((run_append_ok first _).trans handled)
  | ended handled last =>
      rw [← List.append_assoc]
      exact .ended ((run_append_ok first _).trans handled) last

/-- The reader makes the calls that it notes, from `p` on. -/
abbrev MakesCalls (drivers : Drivers) (p : Parser.Position Server)
    : EStateM.Result SessionError (Parser.Position Server) Unit → Prop :=
  Meets
    (fun _ p' => ∃ events, p'.calls = p.calls ++ events
      ∧ run (handleEvent drivers) events p.handlers = .ok () p'.handlers)
    (fun _ p' => ∃ events, p'.calls = p.calls ++ events
      ∧ CallsMade drivers p.handlers events p'.handlers)

theorem eat_makesCalls (drivers : Drivers) (byte : UInt8) (p : Parser.Position Server)
    : MakesCalls drivers p (Parser.eat (serverHandler drivers) byte p) := by
  unfold Parser.eat
  split
  · exact .error ⟨[], by simp, .returned rfl⟩
  · split
    · unfold Parser.deliver
      dsimp only
      generalize Parser.eventOf _ _ _ = event
      cases called : serverHandler drivers event p.handlers with
      | ok left after =>
          refine .ok ⟨[event], rfl, ?_⟩
          rw [run_singleton, handleEvent, bind_ok called]
          rfl
      | error e after => exact .error ⟨[event], rfl, .ended (run_nil _ _) (bind_error called)⟩
    · exact .ok ⟨[], by simp, rfl⟩

/-- By induction on the bytes. -/
theorem run_eat_makesCalls (drivers : Drivers) (bytes : List UInt8) (p : Parser.Position Server)
    : MakesCalls drivers p (run (Parser.eat (serverHandler drivers)) bytes p) := by
  induction bytes generalizing p with
  | nil => exact .ok ⟨[], by simp, rfl⟩
  | cons byte bytes ih =>
      refine Meets.bind (eat_makesCalls drivers byte p) ?_
      rintro _ middle _ ⟨events, calls, handled⟩
      refine (ih middle).weaken ?_ ?_
      · rintro _ last ⟨events', calls', handled'⟩
        refine ⟨events ++ events', ?_, (run_append_ok handled events').trans handled'⟩
        rw [calls', calls, List.append_assoc]
      · rintro _ last ⟨events', calls', made⟩
        refine ⟨events ++ events', ?_, made.after handled⟩
        rw [calls', calls, List.append_assoc]

/-- A computation does with the handlers' state what a run of them does: when it returns, so does
the run.
-/
abbrev Handles {ε σ : Type} (drivers : Drivers) (server : σ → Server) (s : σ)
    : EStateM.Result ε σ Unit → Prop :=
  Meets
    (fun _ s' => ∃ events, run (handleEvent drivers) events (server s) = .ok () (server s'))
    (fun _ s' => ∃ events, endState (run (handleEvent drivers) events (server s)) = server s')

section Handles

variable {ε σ : Type} {drivers : Drivers} {server : σ → Server}

/-- The runs follow one another. -/
theorem Handles.bind {x : EStateM ε σ Unit} {f : Unit → EStateM ε σ Unit} {s : σ}
    (first : Handles drivers server s (x s))
    (rest : ∀ s', x s = .ok () s' → Handles drivers server s' (f () s'))
    : Handles drivers server s ((x >>= f) s) := by
  refine Meets.bind first ?_
  rintro _ s' returned ⟨events, handled⟩
  refine (rest s' returned).weaken ?_ ?_
  · rintro _ last ⟨events', handled'⟩
    exact ⟨events ++ events', (run_append_ok handled events').trans handled'⟩
  · rintro _ last ⟨events', handled'⟩
    refine ⟨events ++ events', ?_⟩
    rw [run_append_ok handled]
    exact handled'

/-- The final state is one that a run of the handlers gets to. -/
theorem Handles.endState_eq {s : σ} {result : EStateM.Result ε σ Unit}
    (handles : Handles drivers server s result)
    : ∃ events,
        endState (run (handleEvent drivers) events (server s)) = server (endState result) := by
  cases handles with
  | ok handled =>
      obtain ⟨events, handled⟩ := handled
      exact ⟨events, by rw [handled]; rfl⟩
  | error handled => exact handled

end Handles

/-- The final state is one that a run of the calls gets to. -/
theorem CallsMade.endState_eq {drivers : Drivers} {s s' : Server} {events : List Parser.Event}
    (calls : CallsMade drivers s events s')
    : endState (run (handleEvent drivers) events s) = s' := by
  cases calls with
  | returned handled => rw [handled]; rfl
  | ended handled last =>
      rw [run_append_ok handled, run_singleton, last]
      rfl

theorem run_eat_handles (drivers : Drivers) (bytes : List UInt8) (p : Parser.Position Server)
    : Handles drivers Parser.Position.handlers p
        (run (Parser.eat (serverHandler drivers)) bytes p) := by
  refine (run_eat_makesCalls drivers bytes p).weaken ?_ ?_
  · rintro _ _ ⟨events, _, handled⟩
    exact ⟨events, handled⟩
  · rintro _ _ ⟨events, _, calls⟩
    exact ⟨events, calls.endState_eq⟩

/-- The handlers' state of a session. -/
def Sess.server (s : Sess) : Server := s.parser.handlers

/-- A piece that the parser gets makes the calls that its bytes make. -/
theorem onParser_handles (drivers : Drivers) {s : Sess} (valid : s.parser.Valid)
    {piece : List UInt8} (isPiece : Parser.IsPiece piece)
    : Handles drivers Sess.server s
        (onParser (Parser.vncReadAndHandleMessages (serverHandler drivers) (.data piece)) s) := by
  have refined :=
    Parser.vncReadAndHandleMessages_refines (serverHandler drivers) valid isPiece
  have handles := run_eat_handles drivers piece s.parser.position
  generalize run (Parser.eat (serverHandler drivers)) piece s.parser.position = read
    at refined handles
  cases handled : Parser.vncReadAndHandleMessages (serverHandler drivers) (.data piece)
    s.parser with
  | ok done parser =>
      rw [handled] at refined
      simp only [onParser, handled]
      cases refined with
      | ok here =>
          obtain ⟨events, same⟩ := handles.of_ok
          refine .ok ⟨events, same.trans ?_⟩
          rw [← here.2]
          rfl
  | error stop parser =>
      rw [handled] at refined
      simp only [onParser, handled]
      cases refined with
      | error here =>
          obtain ⟨events, same⟩ := handles.of_error
          exact .error ⟨events, same.trans here.2.symm⟩

theorem vncReadAndHandleMessages_handles (drivers : Drivers) {s : Sess}
    (valid : s.parser.Valid)
    : Handles drivers Sess.server s (vncReadAndHandleMessages drivers s) := by
  rw [vncReadAndHandleMessages_eq]
  generalize next : s.incoming.recv Parser.sessRecvBuffLen = received
  obtain ⟨result, incoming⟩ := received
  rcases recv_cases s.incoming (show 0 < Parser.sessRecvBuffLen by decide) with
    ⟨bytes, data, some_, fits, _⟩ | eof | failed
  · rw [next] at data
    subst data
    have valid' : Parser.Session.Valid { s with incoming }.parser := valid
    exact onParser_handles drivers valid' ⟨some_, fits⟩
  · rw [next] at eof
    subst eof
    exact .error ⟨[], rfl⟩
  · rw [next] at failed
    subst failed
    exact .error ⟨[], rfl⟩

/-- The loop makes the calls that its turns make, by induction on the fuel. -/
theorem messageLoop_handles (drivers : Drivers) (fuel : Nat) {s : Sess}
    (valid : s.parser.Valid)
    : Handles drivers Sess.server s (messageLoop drivers fuel s) := by
  induction fuel generalizing s with
  | zero => exact .error ⟨[], rfl⟩
  | succ fuel ih =>
      refine (vncReadAndHandleMessages_handles drivers valid).bind fun s' turn => ih ?_
      have proceeds := vncReadAndHandleMessages_proceeds drivers valid
      rw [turn] at proceeds
      exact proceeds.of_ok.1.valid

end MiniVnc
