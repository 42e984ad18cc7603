import MiniVnc.Parser.Calls
import MiniVnc.Sessions.Messages

/-! A whole session as a reader of what the client sends: which calls it makes and how it ends
depends on the client's bytes only, however `recv` cuts them.
-/

namespace MiniVnc
open Library.Memory Library.Stream

-----------------------------------------------------------------------------------------
-- How a session stops
-----------------------------------------------------------------------------------------

/-- How the message phase stops: at the end of the stream; at a `recv` that fails, with a part of
the stream behind it; or at the byte where the reader of the whole stream stops.
-/
inductive Stops (drivers : Drivers) (s : Sess) : Parser.Stop → Sess → Prop
  | eof {p s'}
    (read : run (Parser.eat (serverHandler drivers)) s.incoming.stream s.parser.position
      = .ok () p)
    (here : Parser.At s'.parser p)
    : Stops drivers s (.sessionEnded .eofOnSocket) s'
  | failed {bytes rest n p s'} (cut : s.incoming.stream = bytes ++ rest)
    (none : s.incoming.counts n = none)
    (read : run (Parser.eat (serverHandler drivers)) bytes s.parser.position = .ok () p)
    (here : Parser.At s'.parser p)
    : Stops drivers s (.sessionEnded .recvFailed) s'
  | ended {e p s'}
    (read : run (Parser.eat (serverHandler drivers)) s.incoming.stream s.parser.position
      = .error e p)
    (calls : Parser.SameCalls s'.parser p)
    : Stops drivers s (.sessionEnded e) s'

/-- A `recv` gives the front of the stream, or fails. -/
theorem recv_data {incoming : Incoming} {len : Nat} {bytes : List UInt8}
    (data : (incoming.recv len).1 = .data bytes)
    : incoming.stream = bytes ++ (incoming.recv len).2.stream
      ∧ (incoming.recv len).2.counts = incoming.counts := by
  cases counted : incoming.counts incoming.recvs with
  | none =>
      simp only [Incoming.recv, counted] at data
      cases data
  | some count =>
      simp only [Incoming.recv, counted] at data ⊢
      cases data
      exact ⟨(List.take_append_drop _ _).symm, trivial⟩

theorem recv_eof {incoming : Incoming} {len : Nat} (positive : 0 < len)
    (eof : (incoming.recv len).1 = .data [])
    : incoming.stream = [] := by
  have head := recv_head positive eof
  exact List.head?_eq_none_iff.mp head.symm

theorem recv_failed {incoming : Incoming} {len : Nat} (failed : (incoming.recv len).1 = .failed)
    : incoming.counts incoming.recvs = none := by
  cases counted : incoming.counts incoming.recvs with
  | none => rfl
  | some count =>
      simp only [Incoming.recv, counted] at failed
      cases failed

/-- How a session stops after a part of the stream that the reader gets through. -/
theorem Stops.after {drivers : Drivers} {s middle s' : Sess} {stop : Parser.Stop}
    {bytes : List UInt8} {p : Parser.Position Server}
    (cut : s.incoming.stream = bytes ++ middle.incoming.stream)
    (counts : middle.incoming.counts = s.incoming.counts)
    (read : run (Parser.eat (serverHandler drivers)) bytes s.parser.position = .ok () p)
    (here : Parser.At middle.parser p) (stops : Stops drivers middle stop s')
    : Stops drivers s stop s' := by
  obtain ⟨_, rfl⟩ := here
  cases stops with
  | eof read' here' =>
      refine .eof ?_ here'
      rw [cut, run_append_ok read, read']
  | @failed bytes' rest n p' _ cut' none read' here' =>
      rw [counts] at none
      refine @Stops.failed drivers s (bytes ++ bytes') rest n p' s' ?_ none ?_ here'
      · rw [cut, cut', List.append_assoc]
      · rw [run_append_ok read, read']
  | ended read' calls =>
      refine .ended ?_ calls
      rw [cut, run_append_ok read, read']

/-- One turn of the loop: the session reads a piece of the stream and goes on, or stops. -/
inductive Turn (drivers : Drivers) (s : Sess) : EStateM.Result Parser.Stop Sess Unit → Prop
  | read {bytes p s'} (some_ : 1 ≤ bytes.length)
    (cut : s.incoming.stream = bytes ++ s'.incoming.stream)
    (counts : s'.incoming.counts = s.incoming.counts)
    (read : run (Parser.eat (serverHandler drivers)) bytes s.parser.position = .ok () p)
    (here : Parser.At s'.parser p)
    : Turn drivers s (.ok () s')
  | stops {stop s'} (stops : Stops drivers s stop s') : Turn drivers s (.error stop s')

theorem vncReadAndHandleMessages_turn (drivers : Drivers) {s : Sess} (valid : s.parser.Valid)
    : Turn drivers s (vncReadAndHandleMessages drivers s) := by
  have data := @recv_data s.incoming Parser.sessRecvBuffLen
  have eof := @recv_eof s.incoming Parser.sessRecvBuffLen (by decide)
  have failed := @recv_failed s.incoming Parser.sessRecvBuffLen
  rw [vncReadAndHandleMessages_eq]
  generalize next : s.incoming.recv Parser.sessRecvBuffLen = received at data eof failed
  obtain ⟨result, incoming⟩ := received
  rcases recv_cases s.incoming (show 0 < Parser.sessRecvBuffLen by decide) with
    ⟨bytes, given, some_, fits, _⟩ | given | given
  · rw [next] at given
    subst given
    obtain ⟨cut, counts⟩ := data rfl
    have refined :=
      Parser.vncReadAndHandleMessages_refines (serverHandler drivers) valid ⟨some_, fits⟩
    cases handled : Parser.vncReadAndHandleMessages (serverHandler drivers) (.data bytes)
      s.parser with
    | ok done parser =>
        rw [handled] at refined
        cases reads : run (Parser.eat (serverHandler drivers)) bytes s.parser.position with
        | error e p =>
            rw [reads] at refined
            cases refined
        | ok done p =>
            rw [reads] at refined
            simp only [onParser, handled]
            cases refined with
            | ok here => exact .read some_ cut counts reads here
    | error stop parser =>
        rw [handled] at refined
        cases reads : run (Parser.eat (serverHandler drivers)) bytes s.parser.position with
        | ok done p =>
            rw [reads] at refined
            cases refined
        | error e p =>
            rw [reads] at refined
            simp only [onParser, handled]
            cases refined with
            | error calls =>
                refine .stops (.ended ?_ calls)
                rw [cut, run_append, bind_error reads]
  · rw [next] at given
    subst given
    refine .stops (.eof ?_ ⟨valid, rfl⟩)
    rw [eof rfl]
    rfl
  · rw [next] at given
    subst given
    exact .stops (.failed (List.nil_append _).symm (failed rfl) (run_nil _ _) ⟨valid, rfl⟩)

/-- The message loop stops as a reader of the whole stream does: by induction on the fuel, which
bounds the bytes.
-/
theorem messageLoop_stops (drivers : Drivers) {fuel : Nat} {s : Sess} (valid : s.parser.Valid)
    (enough : s.incoming.stream.length < fuel)
    : ∃ stop s', messageLoop drivers fuel s = .error stop s' ∧ Stops drivers s stop s' := by
  induction fuel generalizing s with
  | zero => exact absurd enough (Nat.not_lt_zero _)
  | succ fuel ih =>
      have turn := vncReadAndHandleMessages_turn drivers valid
      rw [messageLoop]
      cases handled : vncReadAndHandleMessages drivers s with
      | error stop s' =>
          rw [handled] at turn
          cases turn with
          | stops stops => exact ⟨stop, s', bind_error handled, stops⟩
      | ok done middle =>
          rw [handled] at turn
          cases turn with
          | @read bytes p _ some_ cut counts read here =>
              have shorter := congrArg List.length cut
              rw [List.length_append] at shorter
              obtain ⟨stop, s', looped, stops⟩ := ih here.1 (by omega)
              exact ⟨stop, s', (bind_ok handled).trans looped, stops.after cut counts read here⟩

/-- The calls that a session makes until it stops. -/
theorem Stops.calls {drivers : Drivers} {s s' : Sess} {stop : Parser.Stop}
    (stops : Stops drivers s stop s')
    : ∃ events, s'.parser.calls = s.parser.calls ++ events
        ∧ CallsMade drivers s.server events s'.server := by
  cases stops with
  | eof read here =>
      have made := run_eat_makesCalls drivers s.incoming.stream s.parser.position
      rw [read] at made
      obtain ⟨events, calls, handled⟩ := made.of_ok
      obtain ⟨_, rfl⟩ := here
      exact ⟨events, calls, .returned handled⟩
  | @failed bytes _ _ _ _ _ _ read here =>
      have made := run_eat_makesCalls drivers bytes s.parser.position
      rw [read] at made
      obtain ⟨events, calls, handled⟩ := made.of_ok
      obtain ⟨_, rfl⟩ := here
      exact ⟨events, calls, .returned handled⟩
  | ended read same =>
      have made := run_eat_makesCalls drivers s.incoming.stream s.parser.position
      rw [read] at made
      obtain ⟨events, calls, handled⟩ := made.of_error
      have there : s'.server = _ := same.2
      refine ⟨events, same.1.trans calls, ?_⟩
      rw [there]
      exact handled

-----------------------------------------------------------------------------------------
-- From the set-up on
-----------------------------------------------------------------------------------------

/-- A session that gets to its messages stands at the start of one, with no call made. -/
theorem setUp_start {outside : Outside} {garbage : Garbage} {sock fd : Nat} {s : Sess}
    (ready : setUp outside garbage (.opened outside sock fd) = .ok () s)
    : s.parser.Valid ∧ s.parser.position = ⟨[], [], s.server⟩
      ∧ s.incoming.counts = outside.counts
      ∧ s.incoming.stream.length ≤ outside.stream.length := by
  obtain ⟨_, _, _, _, count, _, _, _, _, _, rfl⟩ := setUp_ok_iff.mp ready
  refine ⟨Or.inl rfl, rfl, rfl, ?_⟩
  rw [Sess.sent_incoming, Sess.greeted_stream, Sess.prepared_incoming, List.length_drop]
  exact Nat.sub_le _ _

/-- The end of a session that gets to its messages. -/
theorem session_stops {outside : Outside} {garbage : Garbage} {sock fd : Nat} {s : Sess}
    (ready : setUp outside garbage (.opened outside sock fd) = .ok () s)
    : ∃ stop last, runSession outside garbage (.opened outside sock fd) = .error stop last
        ∧ Stops (outside.drivers.withGarbage garbage) s stop last := by
  obtain ⟨valid, _, _, shorter⟩ := setUp_start ready
  obtain ⟨stop, last, looped, stops⟩ :=
    messageLoop_stops (outside.drivers.withGarbage garbage) valid (Nat.lt_succ_of_le shorter)
  refine ⟨stop, last, ?_, stops⟩
  rw [runSession_eq, bind_ok ready]
  exact looped

/-- The calls of a whole session, from its first message to its clean-up. -/
theorem session_calls {outside : Outside} {garbage : Garbage} {sock fd : Nat} {s : Sess}
    (opens : outside.opens = true)
    (ready : setUp outside garbage (.opened outside sock fd) = .ok () s)
    : CallsMade (outside.drivers.withGarbage garbage) s.server
        (handleSession outside garbage sock fd).sess.parser.calls
        (handleSession outside garbage sock fd).sess.server := by
  obtain ⟨_, start, _, _⟩ := setUp_start ready
  obtain ⟨stop, last, ran, stops⟩ := session_stops ready
  obtain ⟨events, calls, made⟩ := stops.calls
  have none : s.parser.calls = [] := congrArg Parser.Position.calls start
  rw [none, List.nil_append] at calls
  rw [handleSession_of_opens opens, ran]
  show CallsMade _ _ last.parser.calls last.server
  rw [calls]
  exact made

/-- The version is received whole: the first `recv` has room for it. -/
def VersionWhole (counts : Nat → Option Nat) : Prop := ∃ count, counts 0 = some count ∧ 12 ≤ count

/-- What comes behind the version and the ClientInit, when the version is received whole. -/
theorem setUp_stream {outside : Outside} {garbage : Garbage} {sock fd : Nat} {s : Sess}
    (ready : setUp outside garbage (.opened outside sock fd) = .ok () s)
    (whole : VersionWhole outside.counts)
    : s.incoming.stream = outside.stream.drop 13 := by
  obtain ⟨_, _, _, _, count, _, _, _, greets, _, rfl⟩ := setUp_ok_iff.mp ready
  obtain ⟨count', counted, enough⟩ := whole
  cases greets.first.symm.trans counted
  have twelve : min 12 (max 1 count) = 12 := by omega
  rw [Sess.sent_incoming, Sess.greeted_stream, Sess.prepared_incoming, twelve]
  rfl

/-- A session whose client sends well-formed messages leaves its handlers as handling those messages
in turn does: all of them, up to the first that ends the session. It makes all the calls that the
messages are due when they all return.
-/
theorem session_hears {outside : Outside} {garbage : Garbage} {sock fd : Nat} {s : Sess}
    (opens : outside.opens = true)
    (ready : setUp outside garbage (.opened outside sock fd) = .ok () s)
    (receiving : ∀ n, outside.counts n ≠ none) (whole : VersionWhole outside.counts)
    {messages : List Parser.ClientMessage} (wellFormed : ∀ message ∈ messages, message.WellFormed)
    (textless : ∀ message ∈ messages, message.text = [])
    (sends : outside.stream.drop 13 = messages.flatMap Parser.ClientMessage.encode)
    : (handleSession outside garbage sock fd).sess.parser.calls
          <+: messages.flatMap Parser.ClientMessage.events
      ∧ (handleSession outside garbage sock fd).sess.server
        = endState (run (handleEvent (outside.drivers.withGarbage garbage))
            (messages.flatMap Parser.ClientMessage.events) s.server)
      ∧ ∀ t,
          run (handleEvent (outside.drivers.withGarbage garbage))
              (messages.flatMap Parser.ClientMessage.events) s.server
            = .ok () t
          → (handleSession outside garbage sock fd).sess.parser.calls
            = messages.flatMap Parser.ClientMessage.events := by
  obtain ⟨_, start, counts, _⟩ := setUp_start ready
  obtain ⟨stop, last, ran, stops⟩ := session_stops ready
  have reads := Parser.run_eat_encode (serverHandler (outside.drivers.withGarbage garbage))
    (congrArg Parser.Position.pending start) wellFormed textless
  rw [← sends, ← setUp_stream ready whole] at reads
  have none : s.parser.position.calls = [] := congrArg Parser.Position.calls start
  rw [none, List.nil_append] at reads
  rw [handleSession_of_opens opens, ran]
  show last.parser.calls <+: _ ∧ last.server = _ ∧ ∀ t, _ → last.parser.calls = _
  cases stops with
  | failed _ fails => exact absurd fails (counts ▸ receiving _)
  | eof read here =>
      rw [read] at reads
      obtain ⟨_, calls, handled⟩ := reads.of_ok
      obtain ⟨_, rfl⟩ := here
      have ends := congrArg endState handled
      exact ⟨calls ▸ List.prefix_rfl, ends.symm, fun _ _ => calls⟩
  | ended read same =>
      rw [read] at reads
      obtain ⟨front, raised⟩ := reads.of_error
      have ends := congrArg endState raised
      refine ⟨same.1 ▸ front, same.2.trans ends.symm, fun t returned => ?_⟩
      cases raised.symm.trans returned

/-- Two sessions stop alike when they read the same stream from the same state, and no `recv`
fails.
-/
theorem Stops.same {drivers : Drivers} {s t s' t' : Sess} {stop stop' : Parser.Stop}
    (stream : t.incoming.stream = s.incoming.stream)
    (position : t.parser.position = s.parser.position)
    (receiving : ∀ n, s.incoming.counts n ≠ none) (receiving' : ∀ n, t.incoming.counts n ≠ none)
    (left : Stops drivers s stop s') (right : Stops drivers t stop' t')
    : stop' = stop ∧ t'.parser.calls = s'.parser.calls ∧ t'.server = s'.server := by
  have together {p : Parser.Position Server} (one : Parser.SameCalls s'.parser p)
      (other : Parser.SameCalls t'.parser p)
      : t'.parser.calls = s'.parser.calls ∧ t'.server = s'.server :=
    ⟨other.1.trans one.1.symm, other.2.trans one.2.symm⟩
  cases left with
  | failed _ none => exact absurd none (receiving _)
  | eof read here =>
      cases right with
      | failed _ none => exact absurd none (receiving' _)
      | eof read' here' =>
          rw [stream, position, read] at read'
          cases read'
          exact ⟨rfl, together here.calls here'.calls⟩
      | ended read' calls' =>
          rw [stream, position, read] at read'
          cases read'
  | ended read calls =>
      cases right with
      | failed _ none => exact absurd none (receiving' _)
      | eof read' here' =>
          rw [stream, position, read] at read'
          cases read'
      | ended read' calls' =>
          rw [stream, position, read] at read'
          cases read'
          exact ⟨rfl, together calls calls'⟩

/-- The small screen, for a client that sends `rest` behind its part of the handshake. -/
def smallTalk (rest : List UInt8) : Outside :=
  smallOutside (versionBytes ++ [1] ++ rest) fun _ => some 256

theorem smallTalk_ready (rest : List UInt8) (sock fd : Nat)
    : ∃ s, setUp (smallTalk rest) (zeroGarbage 0) (.opened (smallTalk rest) sock fd)
        = .ok () s :=
  ⟨_, setUp_ok_iff.mpr ⟨smallScreen, ⟨8, 8⟩, smallScreen, 12, 256, 4, 34,
    ⟨rfl, rfl, rfl, rfl, rfl⟩,
    ⟨rfl, rfl, List.cons_ne_nil _ _, rfl, Option.some_ne_none _, List.cons_ne_nil _ _⟩, rfl,
    rfl⟩⟩

/-- A client that asks for the whole screen once. -/
def askingBytes : List UInt8 := [3, 0, 0, 0, 0, 0, 0, 8, 0, 1]

/-- The same outside, but for the sizes in which the client's bytes arrive. -/
def Outside.withCounts (outside : Outside) (counts : Nat → Option Nat) : Outside :=
  { outside with counts }

/-- When no `recv` fails and the version comes in one piece, the sizes that `recv` gives do not
matter to a session that gets to its messages: it makes the same calls, leaves the handlers in
the same state, with the same bytes sent and keys injected, and ends for the same reason.
-/
theorem session_unsegmented (outside : Outside) (garbage : Garbage) (sock fd : Nat)
    (counts : Nat → Option Nat) (receiving : ∀ n, outside.counts n ≠ none)
    (receiving' : ∀ n, counts n ≠ none) (whole : VersionWhole outside.counts)
    (whole' : VersionWhole counts) (s : Sess)
    (ready : setUp outside garbage (.opened outside sock fd) = .ok () s)
    : ∃ stop last last',
        runSession outside garbage (.opened outside sock fd) = .error stop last
        ∧ runSession (outside.withCounts counts) garbage
            (.opened (outside.withCounts counts) sock fd)
          = .error stop last'
        ∧ last'.parser.calls = last.parser.calls ∧ last'.server = last.server := by
  obtain ⟨count, counted, enough⟩ := whole
  obtain ⟨count', counted', enough'⟩ := whole'
  obtain ⟨stop, last, ran, stops⟩ := session_stops ready
  obtain ⟨_, startsAt, counts_, _⟩ := setUp_start ready
  obtain ⟨vi, vp, announced, accepted, given, accepted', init, prepares, greets, sends, sEq⟩ :=
    setUp_ok_iff.mp ready
  have given_ : given = count := Option.some.inj (greets.first.symm.trans counted)
  subst given_
  have twelve : min 12 (max 1 given) = 12 := by omega
  have twelve' : min 12 (max 1 count') = 12 := by omega
  have greets'
      : Greets (.opened (outside.withCounts counts) sock fd) accepted count' accepted' := by
    refine ⟨greets.version, counted', greets.some_, greets.security, receiving' _, ?_⟩
    rw [twelve', ← twelve]
    exact greets.more
  have prepares' : Prepares (outside.withCounts counts) vi vp announced :=
    ⟨prepares.metadata, prepares.mode, prepares.mallocs, prepares.maps, prepares.announced⟩
  have ready'
      : setUp (outside.withCounts counts) garbage (.opened (outside.withCounts counts) sock fd)
        = .ok () _ :=
    setUp_ok_iff.mpr ⟨vi, vp, announced, accepted, count', accepted', init, prepares', greets',
      sends, rfl⟩
  obtain ⟨stop', last', ran', stops'⟩ := session_stops ready'
  obtain ⟨_, startsAt', counts_', _⟩ := setUp_start ready'
  refine ⟨stop, last, last', ran, ?_⟩
  have reads := stops.same ?_ ?_ (by rwa [counts_]) (by rwa [counts_']) stops'
  · obtain ⟨rfl, calls, server⟩ := reads
    exact ⟨ran', calls, server⟩
  · rw [sEq]
    simp only [Sess.sent_incoming, Sess.greeted_stream, Sess.prepared_incoming, twelve, twelve']
    rfl
  · rw [startsAt, startsAt', sEq]
    rfl

theorem session_unsegmented_asking
    : ∃ stop last last',
        runSession (smallTalk askingBytes) (zeroGarbage 0) (.opened (smallTalk askingBytes) 4 3)
          = .error stop last
        ∧ runSession ((smallTalk askingBytes).withCounts fun n => some (12 - n)) (zeroGarbage 0)
              (.opened ((smallTalk askingBytes).withCounts fun n => some (12 - n)) 4 3)
          = .error stop last'
        ∧ last'.parser.calls = last.parser.calls ∧ last'.server = last.server := by
  obtain ⟨s, ready⟩ := smallTalk_ready askingBytes 4 3
  exact session_unsegmented (smallTalk askingBytes) (zeroGarbage 0) 4 3
    (fun n => some (12 - n)) (fun _ => Option.some_ne_none _) (fun _ => Option.some_ne_none _)
    ⟨256, rfl, by decide⟩ ⟨12, rfl, by decide⟩ s ready

end MiniVnc
