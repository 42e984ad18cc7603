import MiniVnc.Keyboard.HeldModifiers
import MiniVnc.Sessions.Resources
import MiniVnc.Sessions.TypedText

/-! The keys that are down after any number of sessions, one after the other: nothing lets go of
what a client still holds when its session ends.
-/

namespace MiniVnc
open Library.Stream Library.Switches Library.Descriptors

-----------------------------------------------------------------------------------------
-- One session
-----------------------------------------------------------------------------------------

/-- No handler is called and no key is pressed. -/
structure Quietly (s s' : Sess) : Prop where
  calls : s'.parser.calls = s.parser.calls
  keyboard : s'.server.keys.keyboard = s.server.keys.keyboard

instance : IsPreorder Sess Quietly where
  refl _ := ⟨rfl, rfl⟩
  trans _ _ _ first second :=
    ⟨second.calls.trans first.calls, second.keyboard.trans first.keyboard⟩

theorem onUpdates_quietly {α : Type} (action : Update α)
    : Ascends Quietly (onServer (onUpdates action)) := by
  intro s
  cases result : action s.parser.handlers.updates with
  | ok value updates =>
      simp only [onServer, onUpdates, result, endState]
      exact ⟨rfl, rfl⟩
  | error e updates =>
      simp only [onServer, onUpdates, result, endState]
      exact ⟨rfl, rfl⟩

theorem recvw_quietly (len : Nat) : Ascends Quietly (recvw len) := by
  intro s
  rw [recvw, get_bind]
  cases counted : s.incoming.counts s.incoming.recvs with
  | none =>
      simp only [Incoming.recv, counted, set_bind]
      exact ⟨rfl, rfl⟩
  | some count =>
      simp only [Incoming.recv, counted, set_bind]
      cases s.incoming.stream.take (min len (max 1 count)) <;> exact ⟨rfl, rfl⟩

/-- Before its messages a session calls no handler and presses no key, whatever goes wrong. -/
theorem setUp_quietly (outside : Outside) (garbage : Garbage)
    : Ascends Quietly (setUp outside garbage) := by
  have init : Ascends Quietly (initFrameBuffer outside garbage) := by
    unfold initFrameBuffer
    refine Ascends.bind (Ascends.modify ?_) fun _ => onUpdates_quietly _
    intro s
    exact ⟨rfl, rfl⟩
  have load : Ascends Quietly (loadKchr outside garbage) := by
    intro s
    rw [loadKchr_eq, endState, Sess.loaded]
    constructor <;> simp only [Sess.server]
  have prepares : Ascends Quietly (prepare outside garbage) :=
    init.bind fun _ => (onUpdates_quietly _).bind fun _ => load
  have greets : Ascends Quietly greet := by
    refine Ascends.bind (onUpdates_quietly (sendw versionBytes)) fun _ => ?_
    refine Ascends.bind (recvw_quietly 12) fun _ => ?_
    exact (onUpdates_quietly (sendw (ulongBytes 1))).bind fun _ => recvw_quietly 1
  exact prepares.bind fun _ => greets.bind fun _ => onUpdates_quietly _

/-- On a keyboard in ARAW mode that takes every code, every session injects the codes of the key
events that it hands over, however far it gets.
-/
theorem session_codes {outside : Outside} (araw : ∀ n, outside.mode n = some .araw)
    (accepts : ∀ n code, outside.accepts n code = true) (garbage : Garbage) (sock fd : Nat)
    : (handleSession outside garbage sock fd).sess.server.keys.keyboard.injected
      = (keyEvents (handleSession outside garbage sock fd).sess.parser.calls).flatMap
          (arawCodes (outside.layout garbage)) := by
  by_cases opens : outside.opens = true
  · cases ready : setUp outside garbage (.opened outside sock fd) with
    | ok value s =>
        rw [session_takes opens ready, codesTaken_accepting accepts, codesFrom_araw araw]
    | error e s =>
        have quietly := setUp_quietly outside garbage (.opened outside sock fd)
        have ended : (handleSession outside garbage sock fd).sess = s := by
          rw [handleSession_of_opens opens, runSession_eq, bind_error ready]
          rfl
        rw [ready] at quietly
        rw [ended]
        have calls : s.parser.calls = [] := quietly.calls
        have keyboard : s.server.keys.keyboard.injected = [] :=
          congrArg Keyboard.injected quietly.keyboard
        rw [calls, keyboard]
        rfl
  · rw [handleSession_of_fails opens]
    rfl

-----------------------------------------------------------------------------------------
-- One session after the other
-----------------------------------------------------------------------------------------

/-- The session of a connection that the listener accepts with the descriptors of `table` in use. -/
def Connection.session (connection : Connection) (table : Table) : Ended :=
  let sock := lowestFree table
  handleSession connection.outside connection.garbage sock (lowestFree (insert sock table))

/-- The key events that it hands over. -/
def Connection.keyEvents (connection : Connection) (table : Table) : List VNCKeyEvent :=
  MiniVnc.keyEvents (connection.session table).sess.parser.calls

/-- The codes that a listener's sessions inject into the keyboard. -/
def codesServed : List Connection → Table → List UInt8
  | [], _ => []
  | connection :: rest, table =>
      (connection.session table).sess.server.keys.keyboard.injected
        ++ codesServed rest (serveConnection table connection)

/-- The key events that they hand over, each with the layout of its session. -/
def keysServed : List Connection → Table → List (KchrState × VNCKeyEvent)
  | [], _ => []
  | connection :: rest, table =>
      (connection.keyEvents table).map
          (fun evt => (connection.outside.layout connection.garbage, evt))
        ++ keysServed rest (serveConnection table connection)

/-- Every client has released what it pressed by the end of its session. -/
def EachReleases : List Connection → Table → Prop
  | [], _ => True
  | connection :: rest, table =>
      AllReleased (connection.keyEvents table)
        ∧ EachReleases rest (serveConnection table connection)

/-- The keyboard stays in ARAW mode and takes every code. -/
def Connection.Typing (connection : Connection) : Prop :=
  (∀ n, connection.outside.mode n = some .araw)
    ∧ ∀ n code, connection.outside.accepts n code = true

/-- The event puts the key down and leaves it there. -/
def Presses (state : KchrState) (key : UInt8) (evt : VNCKeyEvent) : Prop :=
  evt.down ≠ 0 ∧ (strokeFor state evt.key).held.Uses key
    ∧ ¬(strokeFor state evt.key).held.Drops key

/-- What the sessions do to the keys is what their key events do, by induction on the connections.
-/
theorem codesServed_ops {connections : List Connection}
    (typing : ∀ connection ∈ connections, connection.Typing) (table : Table)
    : (codesServed connections table).map keyOp
      = (keysServed connections table).flatMap fun stroke => keyOps stroke.1 stroke.2 := by
  induction connections generalizing table with
  | nil => rfl
  | cons connection rest ih =>
      obtain ⟨araw, accepts⟩ := typing connection List.mem_cons_self
      have later := ih (fun other among => typing other (List.mem_cons_of_mem _ among))
        (serveConnection table connection)
      have codes : (connection.session table).sess.server.keys.keyboard.injected
          = (connection.keyEvents table).flatMap
              (arawCodes (connection.outside.layout connection.garbage)) :=
        session_codes araw accepts connection.garbage _ _
      rw [codesServed, keysServed, List.map_append, later, List.flatMap_append, codes,
        List.map_flatMap, List.flatMap_map]
      rfl

theorem last?_keyOps_on_iff {state : KchrState} {evt : VNCKeyEvent} {key : UInt8}
    (ordinary : key < 0x80)
    : last? (keyOps state evt) key = some true ↔ Presses state key evt := by
  constructor
  · intro left
    obtain ⟨down, uses⟩ := held_of_left_down left
    refine ⟨down, uses, fun drops => ?_⟩
    have off : last? (keyOps state evt) key = some false := by
      rw [last?_keyOps_off_iff ordinary, LetsGo, if_neg down]
      exact Or.inl drops
    rw [left] at off
    cases off
  · rintro ⟨down, uses, stays⟩
    cases last : last? (keyOps state evt) key with
    | none =>
        rw [last?_keyOps_down down, if_pos uses, last?_keys_eq_none_iff] at last
        exact absurd uses last
    | some value =>
        cases value with
        | true => rfl
        | false =>
            rw [last?_keyOps_off_iff ordinary, LetsGo, if_neg down] at last
            rcases last with drops | ⟨_, unused⟩
            · exact absurd drops stays
            · exact absurd uses unused

/-- Behind every key-down comes a key-up of the same keysym with the same layout, by induction on
the connections.
-/
theorem EachReleases.release {connections : List Connection} {table : Table}
    (each : EachReleases connections table) {before rest : List (KchrState × VNCKeyEvent)}
    {press : KchrState × VNCKeyEvent}
    (split : keysServed connections table = before ++ press :: rest) (down : press.2.down ≠ 0)
    : ∃ release ∈ rest, release.1 = press.1 ∧ release.2.key = press.2.key
        ∧ release.2.down = 0 := by
  induction connections generalizing table before with
  | nil => simp [keysServed] at split
  | cons connection connections ih =>
      obtain ⟨released, later⟩ := each
      rw [keysServed] at split
      rcases List.append_eq_append_iff.mp split with ⟨middle, rfl, tail⟩ | ⟨middle, own, tail⟩
      · exact ih later tail
      · cases middle with
        | nil =>
            have whole : keysServed connections (serveConnection table connection)
                = [] ++ press :: rest := tail.symm
            exact ih later whole
        | cons first middle =>
            obtain ⟨rfl, rfl⟩ := List.cons.inj tail
            obtain ⟨events, others, events_, rfl, others_⟩ := List.map_eq_append_iff.mp own
            obtain ⟨evt, following, rfl, rfl, rfl⟩ := List.map_eq_cons_iff.mp others_
            rw [events_] at released
            obtain ⟨release, member, same, up⟩ := released.release down
            exact ⟨_, List.mem_append_left _ (List.mem_map_of_mem member), rfl, same, up⟩

/-- Whether a key is down in the end is what was last done to it. -/
theorem keyDown_served {connections : List Connection}
    (typing : ∀ connection ∈ connections, connection.Typing) (table : Table) (key : UInt8)
    : keyDown (codesServed connections table) key
      = (last? ((keysServed connections table).flatMap fun stroke => keyOps stroke.1 stroke.2)
          key).getD false := by
  rw [keyDown, codesServed_ops typing, after_eq]

/-- A key that was left down was pressed by a client, which has released it. -/
theorem EachReleases.noneLeft {connections : List Connection} {table : Table}
    (each : EachReleases connections table)
    (typing : ∀ connection ∈ connections, connection.Typing) (key : UInt8)
    : keyDown (codesServed connections table) key = false := by
  rw [keyDown_served typing]
  cases last : last?
      ((keysServed connections table).flatMap fun stroke => keyOps stroke.1 stroke.2) key with
  | none => rfl
  | some value =>
      cases value with
      | false => rfl
      | true =>
          obtain ⟨before, press, rest, split, presses, silent⟩ := last?_flatMap last
          obtain ⟨down, uses⟩ := held_of_left_down presses
          obtain ⟨release, member, layout, same, up⟩ := each.release split down
          have off := silent release member
          rw [last?_keyOps_up up, same, layout, if_pos uses] at off
          cases off

/-- Over any number of sessions, one after the other, on a keyboard in ARAW mode: a key is down in
the end exactly when some session has pressed it and nothing has let go of it since, in that
session or in a later one; no session lets go of anything when it ends. If every client releases
what it has pressed before it goes, no key is down.
-/
theorem keys_left_iff {connections : List Connection}
    (typing : ∀ connection ∈ connections, connection.Typing) (table : Table)
    : (∀ key < 0x80,
          keyDown (codesServed connections table) key = true
          ↔ ∃ before press rest,
              keysServed connections table = before ++ press :: rest
              ∧ Presses press.1 key press.2
              ∧ ∀ later ∈ rest, ¬LetsGo later.1 key later.2)
      ∧ (EachReleases connections table →
          ∀ key, keyDown (codesServed connections table) key = false) := by
  refine ⟨fun key ordinary => ?_, fun each => each.noneLeft typing⟩
  rw [keyDown_served typing]
  constructor
  · intro down
    cases last : last?
        ((keysServed connections table).flatMap fun stroke => keyOps stroke.1 stroke.2) key with
    | none =>
        rw [last] at down
        cases down
    | some value =>
        rw [last] at down
        obtain rfl : value = true := down
        obtain ⟨before, press, rest, split, presses, silent⟩ := last?_flatMap last
        refine ⟨before, press, rest, split, (last?_keyOps_on_iff ordinary).mp presses, ?_⟩
        intro later member letsGo
        have off := (last?_keyOps_off_iff ordinary).mpr letsGo
        rw [silent later member] at off
        cases off
  · rintro ⟨before, press, rest, split, presses, stays⟩
    have on := (last?_keyOps_on_iff ordinary).mpr presses
    rw [split, List.flatMap_append, List.flatMap_cons, last?_append, last?_append, on]
    cases last : last? (rest.flatMap fun stroke => keyOps stroke.1 stroke.2) key with
    | none => rfl
    | some value =>
        obtain ⟨_, later, _, rfl, decides, _⟩ := last?_flatMap last
        cases value with
        | true => rfl
        | false =>
            have letsGo := (last?_keyOps_off_iff ordinary).mp decides
            exact absurd letsGo (stays later (by simp))

/-- The session of a client that sends `messages` and then nothing. -/
def talk (messages : List Parser.ClientMessage) : Connection where
  outside := smallTalk (messages.flatMap Parser.ClientMessage.encode)
  garbage := zeroGarbage 0

theorem talk_keyEvents {messages : List Parser.ClientMessage}
    (wellFormed : ∀ message ∈ messages, message.WellFormed)
    (textless : ∀ message ∈ messages, message.text = []) (table : Table)
    : (talk messages).keyEvents table
      = keyEvents (messages.flatMap Parser.ClientMessage.events) := by
  simp only [Connection.keyEvents, Connection.session, talk, smallTalk_calls wellFormed textless]

theorem talk_typing (messages : List Parser.ClientMessage) : (talk messages).Typing := by
  have grants := smallTalk_grants (messages.flatMap Parser.ClientMessage.encode)
  exact ⟨grants.araw, grants.accepts⟩

/-- A client that leaves with the shift key pressed leaves it down for the next one. -/
theorem keys_left_iff_shift
    : keyDown (codesServed [talk [.keyEvent 1 0 xkShiftL], talk []] {0, 1, 2, 3}) KeyCode.shift
      = true := by
  have typing : ∀ connection ∈ [talk [.keyEvent 1 0 xkShiftL], talk []], connection.Typing :=
    List.forall_mem_cons.mpr ⟨talk_typing _, List.forall_mem_singleton.mpr (talk_typing _)⟩
  have served : keysServed [talk [.keyEvent 1 0 xkShiftL], talk []] {0, 1, 2, 3}
      = [((talk [.keyEvent 1 0 xkShiftL]).outside.layout
          (talk [.keyEvent 1 0 xkShiftL]).garbage, ⟨4, 1, 0, xkShiftL⟩)] := by
    have first : ∀ message ∈ [Parser.ClientMessage.keyEvent 1 0 xkShiftL],
        message.WellFormed ∧ message.text = [] :=
      List.forall_mem_singleton.mpr ⟨trivial, rfl⟩
    simp only [keysServed, talk_keyEvents (fun message among => (first message among).1)
        (fun message among => (first message among).2),
      @talk_keyEvents [] (by simp) (by simp)]
    rfl
  have presses (state : KchrState) : Presses state KeyCode.shift ⟨4, 1, 0, xkShiftL⟩ := by
    have special : specialKey? xkShiftL = some KeyCode.shift := by decide
    have stroke : strokeFor state xkShiftL = ⟨.empty, rawKeypress KeyCode.shift⟩ := by
      rw [strokeFor, special]
    rw [Presses, stroke]
    decide
  exact ((keys_left_iff typing {0, 1, 2, 3}).1 KeyCode.shift (by decide)).mpr
    ⟨[], _, [], served, presses _, fun _ none => absurd none List.not_mem_nil⟩

end MiniVnc
