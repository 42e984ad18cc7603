import MiniVnc.Sessions.Messages
import MiniVnc.Updates.Offered

/-! What of the memory that a session finds gets to the client. -/

namespace MiniVnc
open Library.Memory Library.Loop Library.Stream

/-- All bytes that the server gives to the socket in a session, for as long as it does not fail. -/
def offered (outside : Outside) (garbage : Garbage) (sock fd : Nat) : List UInt8 :=
  (handleSession outside garbage sock fd).sess.socket.offered

/-- Nothing fails before the ServerInit has been sent. -/
structure SendsServerInit (outside : Outside) : Prop where
  opens : outside.opens = true
  prepares : ∃ vi vp announced, Prepares outside vi vp announced
  greets : ∃ accepted count accepted', Greets (.zeroed outside) accepted count accepted'
  sends : outside.sends 2 34 ≠ none

-----------------------------------------------------------------------------------------
-- What has been sent stays sent
-----------------------------------------------------------------------------------------

def Server.offered (s : Server) : List UInt8 := s.updates.sock.offered

theorem onUpdates_grows {α : Type} {action : Update α}
    (grows : Ascends (Grows UpdateSession.offered) action)
    : Ascends (Grows Server.offered) (onUpdates action) := by
  intro s
  have step := grows s.updates
  unfold onUpdates
  cases result : action s.updates with
  | ok value updates =>
      rw [result] at step
      exact step
  | error e updates =>
      rw [result] at step
      exact step

theorem onKeys_grows {α : Type} (action : Keys α)
    : Ascends (Grows Server.offered) (onKeys action) := by
  intro s
  unfold onKeys
  split <;> exact List.prefix_rfl

/-- No message takes back what has been sent, also one that ends the session: by cases on it. -/
theorem handleEvent_grows (drivers : Drivers) (event : Parser.Event)
    : Ascends (Grows Server.offered) (handleEvent drivers event) := by
  refine Ascends.bind ?_ fun _ => .pure _
  cases event with
  | updateRequest evt =>
      refine .get_bind fun s => ?_
      have counted : Ascends (Grows Server.offered)
          (modify fun s => { s with asked := s.asked + 1 } : EStateM SessionError Server PUnit) :=
        .modify fun _ => List.prefix_rfl
      exact (counted.bind fun _ => onUpdates_grows (vncEvtUpdateRequest_grows _ _)) s
  | key evt => exact (onKeys_grows _).bind fun _ => .pure _
  | setPixelFormat evt =>
      refine Ascends.bind ?_ fun _ => .pure _
      intro s
      unfold Parser.vncEvtSetPixelFormat
      split <;> exact List.prefix_rfl
  | pointer evt =>
      refine Ascends.bind (.get_bind fun s => ?_) fun _ => .pure _
      rw [modify_bind]
      split <;> exact List.prefix_rfl
  | setEncoding evt => exact .pure _
  | setEncodingOne evt => exact .pure _
  | clientCutText evt => exact .pure _

theorem messageLoop_grows (drivers : Drivers) (fuel : Nat) {s : Sess} (valid : s.parser.Valid)
    : s.socket.offered <+: (endState (messageLoop drivers fuel s)).socket.offered := by
  obtain ⟨events, final⟩ := (messageLoop_handles drivers fuel valid).endState_eq
  have grows := Ascends.run (handleEvent_grows drivers) events s.server
  rw [final] at grows
  exact grows

-----------------------------------------------------------------------------------------
-- With the ServerInit
-----------------------------------------------------------------------------------------

/-- A session that sends the ServerInit sends its bytes, whatever comes later. -/
theorem offered_of_sends {outside : Outside} (sends : SendsServerInit outside)
    : ∃ announced, ∀ garbage sock fd,
        versionBytes ++ ulongBytes 1 ++ (serverInit outside garbage announced).bytes
          <+: offered outside garbage sock fd := by
  obtain ⟨opens, ⟨vi, vp, announced, prepares⟩, ⟨accepted, count, accepted', greets⟩, some_⟩ :=
    sends
  obtain ⟨last, init⟩ := Option.ne_none_iff_exists'.mp some_
  refine ⟨announced, fun garbage sock fd => ?_⟩
  have greets' : Greets (.opened outside sock fd) accepted count accepted' :=
    greets.same_socket rfl rfl
  have ready := (@setUp_ok_iff outside garbage (.opened outside sock fd) _ ()).mpr
    ⟨vi, vp, announced, accepted, count, accepted', last, prepares, greets', init, rfl⟩
  have valid
      : ((((Sess.opened outside sock fd).prepared outside garbage vi vp announced).greeted accepted
            count accepted').sent (serverInit outside garbage announced).bytes
          last).parser.Valid :=
    Or.inl rfl
  have later := messageLoop_grows (outside.drivers.withGarbage garbage)
    (outside.stream.length + 1) valid
  rw [offered, handleSession_of_opens opens, runSession_eq, bind_ok ready]
  exact later

/-- The maxima of the pixel format are sent as they were found. -/
theorem serverInit_redMax (outside : Outside) (announced : Video) (byte : UInt16)
    : (versionBytes ++ ulongBytes 1
        ++ (serverInit outside (zeroGarbage byte) announced).bytes)[25]?
      = some (byteOf byte.toNat 2 1) :=
  rfl

theorem offered_differ {outside : Outside} (sends : SendsServerInit outside) (sock fd : Nat)
    : offered outside (zeroGarbage 0) sock fd ≠ offered outside (zeroGarbage 1) sock fd := by
  intro same
  obtain ⟨announced, begins⟩ := offered_of_sends sends
  have zero := begins (zeroGarbage 0) sock fd
  have one := begins (zeroGarbage 1) sock fd
  have lengths
      : (versionBytes ++ ulongBytes 1
            ++ (serverInit outside (zeroGarbage 0) announced).bytes).length
        = (versionBytes ++ ulongBytes 1
            ++ (serverInit outside (zeroGarbage 1) announced).bytes).length := by
    simp only [List.length_append, serverInit_length]
  rw [same] at zero
  have begin_ := (List.prefix_of_prefix_length_le zero one lengths.le).eq_of_length lengths
  have byte := serverInit_redMax outside announced 0
  rw [begin_, serverInit_redMax] at byte
  exact absurd byte (by decide)

-----------------------------------------------------------------------------------------
-- Without it
-----------------------------------------------------------------------------------------

/-- The two sessions are alike to the client. -/
structure Alike (s t : Sess) : Prop where
  socket : t.socket = s.socket
  incoming : t.incoming = s.incoming

theorem send_alike (msg : List UInt8) {s t : Sess} (alike : Alike s t)
    : Refines id (fun _ => Alike) Alike (onServer (onUpdates (sendw msg)) s)
        (onServer (onUpdates (sendw msg)) t) := by
  have socket : t.parser.handlers.updates.sock = s.parser.handlers.updates.sock := alike.socket
  simp only [onServer, onUpdates, sendw, socket]
  cases s.parser.handlers.updates.sock.results s.parser.handlers.updates.sock.sends
    msg.length with
  | none => exact .error ⟨rfl, alike.incoming⟩
  | some accepted => exact .ok ⟨rfl, alike.incoming⟩

theorem recvw_alike (len : Nat) {s t : Sess} (alike : Alike s t)
    : Refines id (fun _ => Alike) Alike (recvw len s) (recvw len t) := by
  rw [recvw, get_bind, get_bind, alike.incoming]
  generalize s.incoming.recv len = next
  obtain ⟨received, incoming⟩ := next
  cases received with
  | failed => exact .error ⟨alike.socket, rfl⟩
  | data bytes =>
      cases bytes with
      | nil => exact .error ⟨alike.socket, rfl⟩
      | cons first rest => exact .ok ⟨alike.socket, rfl⟩

theorem greet_alike {s t : Sess} (alike : Alike s t)
    : Refines id (fun _ => Alike) Alike (greet s) (greet t) := by
  refine Refines.bind (send_alike versionBytes alike) fun _ s t alike => ?_
  refine Refines.bind (recvw_alike 12 alike) fun _ s t alike => ?_
  refine Refines.bind (send_alike (ulongBytes 1) alike) fun _ s t alike => ?_
  exact recvw_alike 1 alike

/-- Before the handshake the client does not notice what the memory held. -/
theorem prepare_alike (outside : Outside) (garbage garbage' : Garbage) {s t : Sess}
    (alike : Alike s t)
    : Refines id (fun _ => Alike) Alike (prepare outside garbage s)
        (prepare outside garbage' t) := by
  have inited : Refines id (fun _ => Alike) Alike (initFrameBuffer outside garbage s)
      (initFrameBuffer outside garbage' t) := by
    rw [initFrameBuffer, initFrameBuffer, modify_bind, modify_bind]
    simp only [onServer, onUpdates, onFrameBuffer, fbInit, fbGetVideoInfo, set_bind]
    cases outside.init.metadata with
    | none => exact .error ⟨alike.socket, alike.incoming⟩
    | some vi =>
        cases outside.init.mode with
        | none => exact .error ⟨alike.socket, alike.incoming⟩
        | some vp =>
            cases outside.mallocs with
            | false => exact .error ⟨alike.socket, alike.incoming⟩
            | true =>
                cases outside.maps with
                | false => exact .error ⟨alike.socket, alike.incoming⟩
                | true => exact .ok ⟨alike.socket, alike.incoming⟩
  refine Refines.bind inited fun _ s t alike => ?_
  have informed : Refines id (fun _ => Alike) Alike
      (onServer (onUpdates (sessionSetupVideoInfo outside.announced)) s)
      (onServer (onUpdates (sessionSetupVideoInfo outside.announced)) t) := by
    simp only [onServer, onUpdates, sessionSetupVideoInfo]
    cases outside.announced.metadata with
    | none => exact .error ⟨alike.socket, alike.incoming⟩
    | some videoInfo => exact .ok ⟨alike.socket, alike.incoming⟩
  refine Refines.bind informed fun _ s t alike => ?_
  rw [loadKchr_eq, loadKchr_eq]
  refine .ok ⟨?_, ?_⟩
  · rw [Sess.loaded_socket, Sess.loaded_socket, alike.socket]
  · rw [Sess.loaded_incoming, Sess.loaded_incoming, alike.incoming]

/-- A ServerInit that is not sent gives nothing to the socket. -/
theorem vncSendServerInit_alike {outside : Outside} (garbage garbage' : Garbage) {s t : Sess}
    (fails : s.socket.results s.socket.sends 34 = none) (alike : Alike s t)
    : Refines id (fun _ => Alike) Alike (vncSendServerInit outside garbage s)
        (vncSendServerInit outside garbage' t) := by
  have sends : ∀ garbage s, vncSendServerInit outside garbage s
      = onServer (onUpdates (sendw
          (serverInit outside garbage s.parser.handlers.updates.videoInfo).bytes)) s :=
    fun _ _ => rfl
  have socket : s.parser.handlers.updates.sock = s.socket := rfl
  have socket' : t.parser.handlers.updates.sock = s.socket := alike.socket
  rw [sends, sends]
  simp only [onServer, onUpdates, sendw, serverInit_length, socket, socket', fails]
  exact .error ⟨rfl, alike.incoming⟩

theorem setUp_eq (outside : Outside) (garbage : Garbage)
    : setUp outside garbage
      = ((prepare outside garbage >>= fun _ => greet) >>= fun _ =>
          vncSendServerInit outside garbage) := by
  simp only [setUp, handshake, bind_assoc]

/-- The ServerInit is not sent in a session that does not get to its messages. -/
theorem greeted_fails {outside : Outside} {garbage : Garbage} {s greeted : Sess}
    (never : ∀ s', setUp outside garbage s ≠ .ok () s')
    (ready : (prepare outside garbage >>= fun _ => greet) s = .ok () greeted)
    : greeted.socket.results greeted.socket.sends 34 = none := by
  cases sends : greeted.socket.results greeted.socket.sends 34 with
  | none => rfl
  | some last =>
      have sent : vncSendServerInit outside garbage greeted
          = .ok () (greeted.sent
              (serverInit outside garbage greeted.parser.handlers.updates.videoInfo).bytes
              last) := by
        refine send_ok_iff.mpr ⟨last, ?_, rfl⟩
        rw [serverInit_length]
        exact sends
      refine absurd ?_ (never (greeted.sent
        (serverInit outside garbage greeted.parser.handlers.updates.videoInfo).bytes last))
      rw [setUp_eq, bind_ok ready]
      exact sent

/-- A session that does not get to its messages sends the same whatever the memory held. -/
theorem setUp_offered {outside : Outside} {s : Sess}
    (never : ∀ garbage s', setUp outside garbage s ≠ .ok () s') (garbage garbage' : Garbage)
    : (endState (setUp outside garbage s)).socket.offered
      = (endState (setUp outside garbage' s)).socket.offered := by
  have opening : Refines id (fun _ => Alike) Alike ((prepare outside garbage >>= fun _ => greet) s)
      ((prepare outside garbage' >>= fun _ => greet) s) :=
    Refines.bind (prepare_alike outside garbage garbage' ⟨rfl, rfl⟩)
      fun _ _ _ alike => greet_alike alike
  have whole : Refines id (fun _ => Alike) Alike (setUp outside garbage s)
      (setUp outside garbage' s) := by
    rw [setUp_eq, setUp_eq]
    refine opening.bind_returned fun _ greeted greeted' ready alike => ?_
    exact vncSendServerInit_alike garbage garbage' (greeted_fails (never garbage) ready) alike
  exact (congrArg Socket.offered whole.endState.socket).symm

/-- Without the ServerInit, what the server sends does not depend on what its memory held. -/
theorem offered_same {outside : Outside} (never : ¬SendsServerInit outside) (sock fd : Nat)
    (garbage garbage' : Garbage)
    : offered outside garbage sock fd = offered outside garbage' sock fd := by
  cases opens : outside.opens with
  | false =>
      have closed : ¬outside.opens = true := by simp [opens]
      rw [offered, offered, handleSession_of_fails closed, handleSession_of_fails closed]
  | true =>
      have stops : ∀ garbage s', setUp outside garbage (.opened outside sock fd) ≠ .ok () s' := by
        intro garbage s' ready
        obtain ⟨vi, vp, announced, accepted, count, accepted', last, prepares, greets, sends, _⟩ :=
          setUp_ok_iff.mp ready
        refine never ⟨opens, ⟨vi, vp, announced, prepares⟩,
          ⟨accepted, count, accepted', greets.same_socket rfl rfl⟩, ?_⟩
        exact Option.ne_none_iff_exists'.mpr ⟨last, sends⟩
      have ends : ∀ garbage, offered outside garbage sock fd
          = (endState (setUp outside garbage (.opened outside sock fd))).socket.offered := by
        intro garbage
        rw [offered, handleSession_of_opens opens, runSession_eq]
        cases ready : setUp outside garbage (.opened outside sock fd) with
        | ok value s' => exact absurd ready (stops garbage s')
        | error e s' =>
            rw [bind_error ready, endState]
      rw [ends, ends, setUp_offered stops garbage garbage']

/-- Nothing uninitialised gets to the client if and only if no ServerInit does. -/
theorem offered_initialised_iff (outside : Outside) (sock fd : Nat)
    : (∀ garbage garbage', offered outside garbage sock fd = offered outside garbage' sock fd)
      ↔ ¬SendsServerInit outside := by
  constructor
  · intro same sends
    exact offered_differ sends sock fd (same _ _)
  · intro never garbage garbage'
    exact offered_same never sock fd garbage garbage'

/-- The client that says hello gets to see what the pixel format of the local held. -/
theorem hello_seesGarbage
    : offered (smallOutside helloBytes fun _ => some 256) (zeroGarbage 0) 4 5
      ≠ offered (smallOutside helloBytes fun _ => some 256) (zeroGarbage 1) 4 5 := by
  refine offered_differ ⟨rfl, ⟨smallScreen, ⟨8, 8⟩, smallScreen, rfl, rfl, rfl, rfl, rfl⟩, ?_, ?_⟩
    4 5
  · exact ⟨12, 256, 4, rfl, rfl, List.cons_ne_nil _ _, rfl, Option.some_ne_none _,
      List.cons_ne_nil _ _⟩
  · exact Option.some_ne_none _

end MiniVnc
