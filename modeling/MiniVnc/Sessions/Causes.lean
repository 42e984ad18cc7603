import MiniVnc.Parser.Language
import MiniVnc.Sessions.WholeStream

/-! Why a session ends: what it ended with tells which part of the client's bytes it got through,
and what stopped it there.
-/

namespace MiniVnc
open Library.Memory Library.Stream

/-- The errors of an update: of the driver, of an unsupported depth, or of the socket. -/
def updateErrors : List SessionError :=
  [.metadataFailed, .modeFailed, .clutHashFailed, .clutChunkFailed, .unsupportedColourDepth,
    .sendFailed]

/-- The errors that the handler of a message can end the session with. -/
def Parser.Event.errors : Parser.Event → List SessionError
  | .setPixelFormat _ => [.invalidColourDepth]
  | .updateRequest _ => updateErrors
  | .key _ => [.keyboardIoctlFailed]
  | .pointer _ => [.couldNotMovePointer]
  | .setEncoding _ | .setEncodingOne _ | .clientCutText _ => []

-----------------------------------------------------------------------------------------
-- The errors of the update functions
-----------------------------------------------------------------------------------------

theorem ioctl_raises {σ α : Type} {answer : Option α} {error : SessionError}
    {errors : List SessionError} (member : error ∈ errors)
    : Raises errors (ioctl answer error : EStateM SessionError σ α) := by
  cases answer with
  | some value => exact .pure value
  | none => exact .throw member

theorem fbGetVideoInfo_raises (driver : Driver) : Raises updateErrors (fbGetVideoInfo driver) :=
  (ioctl_raises (by decide)).bind fun _ => Raises.modify.bind fun _ =>
    (ioctl_raises (by decide)).bind fun _ => .modify

/-- By induction on the chunks. -/
theorem copyClutChunks_raises (driver : Driver) (count : Nat)
    : Raises updateErrors (copyClutChunks driver count) := by
  induction count with
  | zero => exact .pure ()
  | succ i ih => exact ih.bind fun _ => (ioctl_raises (by decide)).bind fun _ => .modify

theorem fbUpdateClut_raises (driver : Driver) : Raises updateErrors (fbUpdateClut driver) := by
  refine (ioctl_raises (by decide)).bind fun hash => Raises.modify.bind fun _ =>
    Raises.get.bind fun fb => .ite ?_ (.pure ())
  exact (copyClutChunks_raises driver 32).bind fun _ => .modify

/-- A row of an unsupported depth is the only error of the row loop. -/
theorem scanRows_error {driver : Driver} {fb : FrameBuffer} {count : Nat} {e : SessionError}
    (failed : scanRows driver fb count = .error e)
    : e = .unsupportedColourDepth := by
  induction count with
  | zero => cases failed
  | succ i ih =>
      rw [scanRows] at failed
      cases before : scanRows driver fb i with
      | error e' =>
          rw [before] at failed
          cases failed
          exact ih before
      | ok scan =>
          rw [before] at failed
          cases copy : copyRow? fb.vp.vpPixelSize with
          | none =>
              rw [copy] at failed
              cases failed
              rfl
          | some row =>
              rw [copy] at failed
              cases failed

theorem copyScreen_raises (driver : Driver) : Raises updateErrors (copyScreen driver) := by
  refine Raises.get.bind fun fb => ?_
  cases scanned : scanRows driver fb fb.vi.videoScrY with
  | error e =>
      rw [scanRows_error scanned]
      exact .throw (by decide)
  | ok scan =>
      intro s e s' raised
      cases raised

theorem fbUpdate_raises (driver : Driver) : Raises updateErrors (fbUpdate driver) :=
  (fbGetVideoInfo_raises driver).bind fun _ =>
    (fbUpdateClut_raises driver).bind fun _ => copyScreen_raises driver

theorem sendw_raises (msg : List UInt8) : Raises updateErrors (sendw msg) := by
  intro s e s' raised
  unfold sendw at raised
  split at raised
  · cases raised
    decide
  · cases raised

theorem onFrameBuffer_raises {action : EStateM SessionError FrameBuffer Unit}
    {errors : List SessionError} (raises : Raises errors action)
    : Raises errors (onFrameBuffer action) := by
  intro s e s' raised
  unfold onFrameBuffer at raised
  split at raised
  · cases raised
  · rename_i failed
    cases raised
    exact raises _ _ _ failed

theorem vncUpdSendColourmap_raises : Raises updateErrors vncUpdSendColourmap :=
  Raises.get.bind fun _ =>
    .ite ((sendw_raises _).bind fun _ => (sendw_raises _).bind fun _ => .modify) (.pure ())

theorem vncUpdSendHdrRaw_raises (incremental : UInt8)
    : Raises updateErrors (vncUpdSendHdrRaw incremental) :=
  Raises.get.bind fun _ => (sendw_raises _).bind fun _ => .pure _

/-- By induction on the rows. -/
theorem sendDirtyRows_raises (fuel : Nat) : Raises updateErrors (sendDirtyRows fuel) := by
  induction fuel with
  | zero => exact .pure ()
  | succ fuel ih =>
      exact Raises.get.bind fun _ =>
        .ite ((sendw_raises _).bind fun _ => Raises.modify.bind fun _ => ih) (.pure ())

theorem vncSendBodyRaw_raises (incremental : UInt8)
    : Raises updateErrors (vncSendBodyRaw incremental) :=
  Raises.get.bind fun _ =>
    .ite (sendw_raises _) (Raises.modify.bind fun _ => sendDirtyRows_raises _)

theorem vncEvtUpdateRequest_raises (driver : Driver) (incremental : UInt8)
    : Raises updateErrors (vncEvtUpdateRequest driver incremental) :=
  (onFrameBuffer_raises (fbUpdate_raises driver)).bind fun _ =>
    vncUpdSendColourmap_raises.bind fun _ =>
      (vncUpdSendHdrRaw_raises incremental).bind fun left =>
        (vncSendBodyRaw_raises left).bind fun _ => .pure left

-----------------------------------------------------------------------------------------
-- The errors of the key functions
-----------------------------------------------------------------------------------------

theorem kbMode_raises : Raises [.keyboardIoctlFailed] kbMode := by
  intro s e s' raised
  unfold kbMode at raised
  split at raised
  · cases raised
  · cases raised
    decide

theorem doKey_raises (code : UInt8) : Raises [.keyboardIoctlFailed] (doKey code) := by
  intro s e s' raised
  unfold doKey at raised
  split at raised
  · cases raised
  · cases raised
    decide

theorem doKeyDown_raises (kp : Keypresses) : Raises [.keyboardIoctlFailed] (doKeyDown kp) :=
  .run doKey_raises kp.keys

theorem doKeyUp_raises (kp : Keypresses) : Raises [.keyboardIoctlFailed] (doKeyUp kp) :=
  .run (fun _ => doKey_raises _) kp.keys.reverse

theorem vncEvtKeyAraw_raises (evt : VNCKeyEvent)
    : Raises [.keyboardIoctlFailed] (vncEvtKeyAraw evt) := by
  refine .ite (.ite (doKeyDown_raises _) (doKeyUp_raises _)) ?_
  refine Raises.get.bind fun s => .ite (.ite ?_ (doKeyUp_raises _)) ?_
  · exact (doKeyDown_raises _).bind fun _ => (doKeyUp_raises _).bind fun _ => doKeyDown_raises _
  · refine .ite ?_ (.ite (doKeyUp_raises _) (.pure ()))
    exact (doKeyDown_raises _).bind fun _ => .ite (doKeyUp_raises _) (.pure ())

theorem vncEvtKeyAscii_raises (evt : VNCKeyEvent)
    : Raises [.keyboardIoctlFailed] (vncEvtKeyAscii evt) :=
  .ite (.pure ()) (.ite (doKeyDown_raises _) (.pure ()))

theorem vncEvtKey_raises (evt : VNCKeyEvent)
    : Raises [.keyboardIoctlFailed] (vncEvtKey evt) := by
  refine kbMode_raises.bind fun mode => ?_
  cases mode with
  | araw => exact vncEvtKeyAraw_raises evt
  | ascii => exact vncEvtKeyAscii_raises evt
  | mac => exact vncEvtKeyAscii_raises evt
  | other mode => exact kbMode_raises.bind fun _ => .pure ()

-----------------------------------------------------------------------------------------
-- The errors of the handlers
-----------------------------------------------------------------------------------------

theorem onUpdates_raises {α : Type} {action : Update α} {errors : List SessionError}
    (raises : Raises errors action)
    : Raises errors (onUpdates action) := by
  intro s e s' raised
  unfold onUpdates at raised
  split at raised
  · cases raised
  · rename_i failed
    cases raised
    exact raises _ _ _ failed

theorem onKeys_raises {α : Type} {action : Keys α} {errors : List SessionError}
    (raises : Raises errors action)
    : Raises errors (onKeys action) := by
  intro s e s' raised
  unfold onKeys at raised
  split at raised
  · cases raised
  · rename_i failed
    cases raised
    exact raises _ _ _ failed

/-- A handler ends the session with its own errors only. -/
theorem handleEvent_raises (drivers : Drivers) (event : Parser.Event)
    : Raises event.errors (handleEvent drivers event) := by
  refine Raises.bind ?_ fun _ => .pure ()
  cases event with
  | setPixelFormat evt =>
      exact (Raises.ite (.throw (List.mem_singleton_self _)) (.pure ())).bind fun _ => .pure 0
  | updateRequest evt =>
      exact Raises.get.bind fun s => Raises.modify.bind fun _ =>
        onUpdates_raises (vncEvtUpdateRequest_raises _ evt.incremental)
  | key evt => exact (onKeys_raises (vncEvtKey_raises evt)).bind fun _ => .pure 0
  | pointer evt =>
      refine Raises.bind ?_ fun _ => .pure 0
      exact Raises.get.bind fun s => Raises.modify.bind fun _ =>
        .ite (.pure ()) (.throw (List.mem_singleton_self _))
  | setEncoding evt => exact .pure 0
  | setEncodingOne evt => exact .pure 0
  | clientCutText evt => exact .pure 0

-----------------------------------------------------------------------------------------
-- The cause of an end
-----------------------------------------------------------------------------------------

/-- The stream starts with these messages, `rest` being what is behind them, and handling them all
leaves `t`.
-/
structure GetsThrough (drivers : Drivers) (s : Server) (stream : List UInt8)
    (messages : List Parser.ClientMessage) (rest : List UInt8) (t : Server)
    : Prop where
  fits : ∀ message ∈ messages, message.Fits
  cut : stream = messages.flatMap Parser.ClientMessage.taken ++ rest
  handled : run (handleEvent drivers) (messages.flatMap Parser.ClientMessage.events) s = .ok () t

/-- What can end the session of a client that sends `stream`: the stream ends at the end of a
message or inside one; a message has an unknown type; or the handler of a message raises one of its
own errors. The messages before it have been handled.
-/
inductive Cause (drivers : Drivers) (s : Server) (stream : List UInt8) : SessionError → Prop
  | eof {messages rest t} (through : GetsThrough drivers s stream messages rest t)
    (unfinished : Parser.Unfinished rest)
    : Cause drivers s stream .eofOnSocket
  | illegal {messages rest t} (through : GetsThrough drivers s stream messages rest t)
    (unknown : Parser.Unknown rest)
    : Cause drivers s stream .illegalMessage
  | raised {messages rest t event e t'} {message : Parser.ClientMessage} (fits : message.Fits)
    (through : GetsThrough drivers s stream messages (message.taken ++ rest) t)
    (called : message.events = [event]) (last : handleEvent drivers event t = .error e t')
    (own : e ∈ event.errors)
    : Cause drivers s stream e

/-- The reader gets through these messages too. -/
theorem GetsThrough.read {drivers : Drivers} {p : Parser.Position Server}
    (boundary : p.pending = []) {stream rest : List UInt8}
    {messages : List Parser.ClientMessage} {t : Server}
    (through : GetsThrough drivers p.handlers stream messages rest t)
    : ∃ middle, middle.pending = [] ∧ middle.handlers = t
        ∧ run (Parser.eat (serverHandler drivers)) stream p
          = run (Parser.eat (serverHandler drivers)) rest middle := by
  obtain ⟨middle, first, boundary', _, same⟩ :=
    (Parser.run_eat_messages (serverHandler drivers) boundary through.fits).returned
      through.handled
  exact ⟨middle, boundary', same, by rw [through.cut, run_append_ok first]⟩

theorem errors_of_encoding {event : Parser.Event} (encoding : event.IsEncoding)
    : event.errors = [] := by
  cases event with
  | setEncoding evt => rfl
  | setEncodingOne evt => rfl
  | _ => exact absurd encoding id

/-- In the middle of a message no handler of the session ends it. -/
theorem run_eat_unfinished_ok (drivers : Drivers) {p : Parser.Position Server}
    (boundary : p.pending = []) {bytes : List UInt8} (unfinished : Parser.Unfinished bytes)
    : ∃ p', run (Parser.eat (serverHandler drivers)) bytes p = .ok () p' := by
  cases bytes with
  | nil => exact ⟨p, rfl⟩
  | cons code more =>
      have waits := Parser.run_eat_unfinished (serverHandler drivers) boundary
        (List.cons_ne_nil code more) unfinished
      cases read : run (Parser.eat (serverHandler drivers)) (code :: more) p with
      | ok done p' => exact ⟨p', rfl⟩
      | error e p' =>
          rw [read] at waits
          obtain ⟨event, s, s', encoding, raised⟩ := waits.of_error
          have own := handleEvent_raises drivers event s e s' raised
          rw [errors_of_encoding encoding] at own
          cases own

/-- How the reader ends for each cause. -/
theorem Cause.read {drivers : Drivers} {p : Parser.Position Server} (boundary : p.pending = [])
    {stream : List UInt8} {e : SessionError} (cause : Cause drivers p.handlers stream e)
    : (e = .eofOnSocket ∧ ∃ p', run (Parser.eat (serverHandler drivers)) stream p = .ok () p')
      ∨ ∃ p', run (Parser.eat (serverHandler drivers)) stream p = .error e p' := by
  cases cause with
  | eof through unfinished =>
      obtain ⟨middle, boundary', _, read⟩ := through.read boundary
      obtain ⟨p', last⟩ := run_eat_unfinished_ok drivers boundary' unfinished
      exact Or.inl ⟨rfl, p', read.trans last⟩
  | illegal through unknown =>
      obtain ⟨middle, boundary', _, read⟩ := through.read boundary
      exact Or.inr ⟨middle, read.trans (Parser.run_eat_unknown _ boundary' unknown)⟩
  | raised fits through called last own =>
      obtain ⟨middle, boundary', rfl, read⟩ := through.read boundary
      have raised := (run_singleton (handleEvent drivers) _ _).trans last
      rw [← called] at raised
      obtain ⟨p', stopped⟩ :=
        (Parser.run_eat_taken (serverHandler drivers) boundary' fits).stopped raised
      exact Or.inr ⟨p', by rw [read, run_append, bind_error stopped]⟩

/-- Calls of a message that raise are its only call: the handlers of encodings return. -/
theorem events_raise {drivers : Drivers} {message : Parser.ClientMessage} {s s' : Server}
    {e : SessionError} (raised : run (handleEvent drivers) message.events s = .error e s')
    : ∃ event, message.events = [event] ∧ handleEvent drivers event s = .error e s'
        ∧ e ∈ event.errors := by
  by_cases fixed : message.type = .mSetEncodings
  · obtain ⟨before, event, after, middle, cut, _, last⟩ := run_raises raised
    have own := handleEvent_raises drivers event middle e s' last
    cases message with
    | setEncodings padding encodings =>
        have member : event ∈ (Parser.ClientMessage.setEncodings padding encodings).events := by
          rw [cut]
          simp
        rw [errors_of_encoding (Parser.events_isEncoding padding encodings member)] at own
        cases own
    | _ => cases fixed
  · obtain ⟨event, called, _⟩ := Parser.ClientMessage.eventOf_taken fixed
    rw [called, run_singleton] at raised
    exact ⟨event, called, raised, handleEvent_raises drivers event s e s' raised⟩

/-- Every end of the reader has a cause. -/
theorem read_cause (drivers : Drivers) {p : Parser.Position Server} (boundary : p.pending = [])
    (stream : List UInt8)
    : Meets (fun _ _ => Cause drivers p.handlers stream .eofOnSocket)
        (fun e _ => Cause drivers p.handlers stream e)
        (run (Parser.eat (serverHandler drivers)) stream p) := by
  obtain ⟨messages, rest, fits, cut, stuck⟩ := Parser.exists_taken stream
  cases calls : run (handleEvent drivers) (messages.flatMap Parser.ClientMessage.events)
    p.handlers with
  | ok done t =>
      have through : GetsThrough drivers p.handlers stream messages rest t := ⟨fits, cut, calls⟩
      obtain ⟨middle, boundary', _, read⟩ := through.read boundary
      rw [read]
      rcases stuck with unfinished | unknown
      · obtain ⟨p', last⟩ := run_eat_unfinished_ok drivers boundary' unfinished
        rw [last]
        exact .ok (.eof through unfinished)
      · rw [Parser.run_eat_unknown _ boundary' unknown]
        exact .error (.illegal through unknown)
  | error e t =>
      obtain ⟨p', first⟩ :=
        (Parser.run_eat_messages (serverHandler drivers) boundary fits).stopped calls
      have stopped : run (Parser.eat (serverHandler drivers)) stream p = .error e p' := by
        rw [cut, run_append, bind_error first]
      rw [stopped]
      -- the first message of which a call raises
      rw [run_flatMap] at calls
      obtain ⟨before, message, after, middle, split, handled, raised⟩ := run_raises calls
      obtain ⟨event, called, last, own⟩ := events_raise raised
      subst split
      have through : GetsThrough drivers p.handlers stream before
          (message.taken ++ (after.flatMap Parser.ClientMessage.taken ++ rest)) middle := by
        refine ⟨fun other member => fits other (by simp [member]), ?_, ?_⟩
        · rw [cut, List.flatMap_append, List.flatMap_cons]
          simp only [List.append_assoc]
        · rw [run_flatMap]
          exact handled
      exact .error (.raised (fits message (by simp)) through called last own)

/-- When no `recv` fails and the version comes in one piece, a session that gets to its messages
ends with an error exactly when there is that cause for it in what the client sends behind its
part of the handshake.
-/
theorem session_ends_iff (outside : Outside) (garbage : Garbage) (sock fd : Nat)
    (receiving : ∀ n, outside.counts n ≠ none) (whole : VersionWhole outside.counts) (s : Sess)
    (ready : setUp outside garbage (.opened outside sock fd) = .ok () s) (e : SessionError)
    : (∃ last,
        runSession outside garbage (.opened outside sock fd) = .error (.sessionEnded e) last)
      ↔ Cause (outside.drivers.withGarbage garbage) s.server (outside.stream.drop 13) e := by
  obtain ⟨_, start, counts, _⟩ := setUp_start ready
  have boundary : s.parser.position.pending = [] := congrArg Parser.Position.pending start
  obtain ⟨stop, last, ran, stops⟩ := session_stops ready
  rw [← setUp_stream ready whole, ran]
  have causes := read_cause (outside.drivers.withGarbage garbage) boundary s.incoming.stream
  constructor
  · rintro ⟨_, same⟩
    cases same
    cases stops with
    | failed _ fails => exact absurd fails (counts ▸ receiving _)
    | eof read here =>
        rw [read] at causes
        exact causes.of_ok
    | ended read same =>
        rw [read] at causes
        exact causes.of_error
  · intro cause
    rcases @Cause.read _ s.parser.position boundary _ _ cause with ⟨rfl, p', read⟩ | ⟨p', read⟩
    · cases stops with
      | failed _ fails => exact absurd fails (counts ▸ receiving _)
      | eof => exact ⟨last, rfl⟩
      | ended read' => cases read.symm.trans read'
    · cases stops with
      | failed _ fails => exact absurd fails (counts ▸ receiving _)
      | eof read' => cases read.symm.trans read'
      | ended read' =>
          cases read.symm.trans read'
          exact ⟨last, rfl⟩

/-- A client that lists one encoding, and then sends a type that is none. -/
def strangeBytes : List UInt8 := [2, 0, 0, 1, 0, 0, 0, 0, 1]

theorem session_ends_iff_strange
    : ∃ last,
        runSession (smallTalk strangeBytes) (zeroGarbage 0) (.opened (smallTalk strangeBytes) 4 3)
          = .error (.sessionEnded .illegalMessage) last := by
  obtain ⟨s, ready⟩ := smallTalk_ready strangeBytes 4 3
  refine (session_ends_iff (smallTalk strangeBytes) (zeroGarbage 0) 4 3
    (fun _ => Option.some_ne_none _) ⟨256, rfl, by decide⟩ s ready .illegalMessage).mpr ?_
  have fits : ∀ message ∈ [Parser.ClientMessage.setEncodings 0 [0]], message.Fits :=
    List.forall_mem_singleton.mpr (show 1 < 2 ^ 16 by decide)
  have through : GetsThrough ((smallTalk strangeBytes).drivers.withGarbage (zeroGarbage 0)) s.server
      strangeBytes [.setEncodings 0 [0]] [1] s.server :=
    ⟨fits, rfl, rfl⟩
  exact .illegal through ⟨1, [], rfl, rfl⟩

end MiniVnc
