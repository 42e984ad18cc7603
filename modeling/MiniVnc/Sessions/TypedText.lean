import MiniVnc.Keyboard.Texts
import MiniVnc.Sessions.Inputs

/-! A text typed at the client is typed on the Mac: from the client's bytes, through the parser and
the key events, to what the layout makes of the codes.
-/

namespace MiniVnc
open Library.Memory Library.Stream

/-- In ARAW mode key events inject the codes that they have there, one after another. -/
theorem codesFrom_araw {modes : Nat → Option KeyMode} (araw : ∀ n, modes n = some .araw)
    (layout : KchrState) (n : Nat) (events : List VNCKeyEvent)
    : codesFrom modes layout n events = events.flatMap (arawCodes layout) := by
  induction events generalizing n with
  | nil => rfl
  | cons evt events ih =>
      rw [codesFrom_known layout evt events (fun _ => KeyMode.noConfusion) (araw n), ih,
        List.flatMap_cons]
      rfl

/-- Nothing that a session asks for is refused. -/
structure Outside.Grants (outside : Outside) : Prop where
  updates : ∀ n, (outside.drivers.update n).Answers
  moves : ∀ n, outside.drivers.moves n = true
  sends : ∀ n length, outside.sends n length ≠ none
  accepts : ∀ n code, outside.accepts n code = true
  araw : ∀ n, outside.mode n = some .araw

/-- The handlers' state in such a session. -/
structure Server.Granted (s : Server) : Prop where
  accepting : s.updates.Accepting
  araw : s.keys.InAraw
  keys : s.keys.Accepting

/-- The calls that a well-formed message is due are accepted. -/
theorem accepted_events {message : Parser.ClientMessage} (wellFormed : message.WellFormed)
    : ∀ event ∈ message.events, Parser.Accepted event := by
  have encodings (padding : UInt8) (encodings : List UInt32)
      : ∀ event ∈ Parser.ClientMessage.encodingEvents padding encodings,
          Parser.Accepted event := by
    induction encodings with
    | nil => exact fun _ member => absurd member List.not_mem_nil
    | cons encoding rest ih => exact List.forall_mem_cons.mpr ⟨trivial, ih⟩
  cases message with
  | setPixelFormat padding format =>
      intro event member
      cases List.mem_singleton.mp member
      exact wellFormed
  | setEncodings padding list => exact List.forall_mem_cons.mpr ⟨trivial, encodings padding list⟩
  | _ =>
      intro event member
      cases List.mem_singleton.mp member
      trivial

/-- In such a session every message that is accepted is handled. -/
theorem handleEvent_total {drivers : Drivers} (answers : ∀ n, (drivers.update n).Answers)
    (moves : ∀ n, drivers.moves n = true) {event : Parser.Event}
    (accepted : Parser.Accepted event)
    : Total Server.Granted (handleEvent drivers event) := by
  intro s granted
  obtain ⟨accepting, araw, keys⟩ := granted
  cases event with
  | updateRequest evt =>
      obtain ⟨_, updates, served, accepting'⟩ :=
        @serve_total ⟨drivers.update s.asked, evt.incremental⟩ (answers _) s.updates accepting
      rw [handleEvent_request, onUpdates]
      dsimp only
      rw [served]
      exact ⟨(), _, rfl, accepting', araw, keys⟩
  | key evt =>
      obtain ⟨_, after, pressed, araw', keys'⟩ := vncEvtKey_total evt s.keys ⟨araw, keys⟩
      rw [handleEvent_key, onKeys, pressed]
      exact ⟨(), _, rfl, accepting, araw', keys'⟩
  | pointer evt =>
      rw [handleEvent_pointer, vncEvtPointer, get_bind, modify_bind, if_pos (moves _)]
      exact ⟨(), _, rfl, accepting, araw, keys⟩
  | setPixelFormat evt =>
      have mapped : evt.format.trueColour = 0 := accepted.1
      have depth : evt.format.depth = 8 := accepted.2
      rw [handleEvent_pixelFormat, Parser.vncEvtSetPixelFormat, if_neg (by simp [mapped, depth])]
      exact ⟨(), s, rfl, accepting, araw, keys⟩
  | setEncoding evt => exact ⟨(), s, rfl, accepting, araw, keys⟩
  | setEncodingOne evt => exact ⟨(), s, rfl, accepting, araw, keys⟩
  | clientCutText evt => exact ⟨(), s, rfl, accepting, araw, keys⟩

/-- All the messages of such a session are handled. -/
theorem Outside.Grants.handles {outside : Outside} (grants : outside.Grants) {garbage : Garbage}
    {sock fd : Nat} {s : Sess}
    (ready : setUp outside garbage (.opened outside sock fd) = .ok () s)
    {messages : List Parser.ClientMessage} (proper : ∀ message ∈ messages, message.WellFormed)
    : ∃ t, run (handleEvent (outside.drivers.withGarbage garbage))
        (messages.flatMap Parser.ClientMessage.events) s.server = .ok () t := by
  have total : Total Server.Granted
      (run (handleEvent (outside.drivers.withGarbage garbage))
        (messages.flatMap Parser.ClientMessage.events)) := by
    refine run_total fun event member => ?_
    obtain ⟨message, among, due⟩ := List.mem_flatMap.mp member
    exact handleEvent_total (fun n => (grants.updates n).withGarbage garbage) grants.moves
      (accepted_events (proper message among) event due)
  have granted : s.server.Granted := by
    obtain ⟨_, _, _, _, _, _, _, _, _, _, rfl⟩ := setUp_ok_iff.mp ready
    exact ⟨grants.sends, grants.araw, grants.accepts⟩
  obtain ⟨_, t, returned, _⟩ := total s.server granted
  exact ⟨t, returned⟩

theorem smallTalk_grants (rest : List UInt8) : (smallTalk rest).Grants where
  updates := fun _ => smallDriver_answers _ _
  moves := fun _ => rfl
  sends := fun _ _ => Option.some_ne_none _
  accepts := fun _ _ => rfl
  araw := fun _ => rfl

theorem smallTalk_stream (rest : List UInt8) : (smallTalk rest).stream.drop 13 = rest := by
  rw [smallTalk, smallOutside]
  exact List.drop_left' rfl

/-- A client whose messages are all handled is heard as it means them. -/
theorem smallTalk_calls {messages : List Parser.ClientMessage}
    (wellFormed : ∀ message ∈ messages, message.WellFormed)
    (textless : ∀ message ∈ messages, message.text = []) (sock fd : Nat)
    : (handleSession (smallTalk (messages.flatMap Parser.ClientMessage.encode)) (zeroGarbage 0)
        sock fd).sess.parser.calls
      = messages.flatMap Parser.ClientMessage.events := by
  obtain ⟨s, ready⟩ := smallTalk_ready (messages.flatMap Parser.ClientMessage.encode) sock fd
  have grants := smallTalk_grants (messages.flatMap Parser.ClientMessage.encode)
  obtain ⟨t, handled⟩ := grants.handles ready wellFormed
  have whole : VersionWhole (smallTalk (messages.flatMap Parser.ClientMessage.encode)).counts :=
    ⟨256, rfl, by decide⟩
  have heard := session_hears rfl ready (fun _ => Option.some_ne_none _) whole
    wellFormed textless (smallTalk_stream _)
  exact heard.2.2 t handled

end MiniVnc
