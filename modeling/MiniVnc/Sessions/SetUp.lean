import MiniVnc.Sessions.Handshake

/-! The part of a session before its messages: when it gets to them, and in which state. -/

namespace MiniVnc
open Library.Memory Library.Stream

/-- What comes before the handshake. -/
def prepare (outside : Outside) (garbage : Garbage) : Running Unit := do
  initFrameBuffer outside garbage
  onServer (onUpdates (sessionSetupVideoInfo outside.announced))
  loadKchr outside garbage

/-- What comes before the first message. -/
def setUp (outside : Outside) (garbage : Garbage) : Running Unit := do
  prepare outside garbage
  handshake outside garbage

theorem runSession_eq (outside : Outside) (garbage : Garbage)
    : runSession outside garbage
      = (setUp outside garbage >>= fun _ =>
          messageLoop (outside.drivers.withGarbage garbage) (outside.stream.length + 1)) := by
  simp only [runSession, setUp, prepare, bind_assoc]

/-- The session that is ready for the handshake: on the screen `vi` with the mode `vp`, for a client
that is told of the screen `announced`.
-/
def Sess.prepared (outside : Outside) (garbage : Garbage) (vi : Video) (vp : VPBlock)
    (announced : Video) (s : Sess) : Sess :=
  { s with
    allocated := true
    parser :=
      { s.parser with
        handlers :=
          { s.parser.handlers with
            updates :=
              { s.parser.handlers.updates with
                videoInfo := announced
                fb := .initial vi vp garbage.frame }
            keys :=
              { s.parser.handlers.keys with
                kchr :=
                  kchrLoad outside.kchrChunks garbage.kchr garbage.chunk
                    s.parser.handlers.keys.kchr } } } }

@[simp]
theorem Sess.prepared_socket (outside : Outside) (garbage : Garbage) (vi : Video) (vp : VPBlock)
    (announced : Video) (s : Sess)
    : (s.prepared outside garbage vi vp announced).socket = s.socket := by
  simp only [Sess.socket, Sess.prepared]

@[simp]
theorem Sess.prepared_incoming (outside : Outside) (garbage : Garbage) (vi : Video) (vp : VPBlock)
    (announced : Video) (s : Sess)
    : (s.prepared outside garbage vi vp announced).incoming = s.incoming := by
  simp only [Sess.prepared]

/-- The driver, `malloc` and the mapping give a session what it needs before the handshake. -/
structure Prepares (outside : Outside) (vi : Video) (vp : VPBlock) (announced : Video) : Prop where
  metadata : outside.init.metadata = some vi
  mode : outside.init.mode = some vp
  mallocs : outside.mallocs = true
  maps : outside.maps = true
  announced : outside.announced.metadata = some announced

theorem onServer_ok_iff {α : Type} {action : EStateM SessionError Server α} {s s' : Sess}
    {value : α}
    : onServer action s = .ok value s'
      ↔ ∃ handlers, action s.parser.handlers = .ok value handlers
          ∧ s' = { s with parser := { s.parser with handlers } } := by
  cases result : action s.parser.handlers with
  | error e handlers => simp [onServer, result]
  | ok value' handlers =>
      simp only [onServer, result, EStateM.Result.ok.injEq]
      constructor
      · rintro ⟨rfl, rfl⟩
        exact ⟨handlers, ⟨rfl, rfl⟩, rfl⟩
      · rintro ⟨_, ⟨rfl, rfl⟩, rfl⟩
        exact ⟨rfl, rfl⟩

theorem onFrameBuffer_ok_iff {action : EStateM SessionError FrameBuffer Unit}
    {s s' : UpdateSession} {value : Unit}
    : onFrameBuffer action s = .ok value s'
      ↔ ∃ fb, action s.fb = .ok value fb ∧ s' = { s with fb } := by
  constructor
  · exact onFrameBuffer_ok
  · rintro ⟨fb, returned, rfl⟩
    simp only [onFrameBuffer, returned]

theorem sessionSetupVideoInfo_ok_iff {driver : Driver} {s s' : UpdateSession} {value : Unit}
    : sessionSetupVideoInfo driver s = .ok value s'
      ↔ ∃ videoInfo, driver.metadata = some videoInfo ∧ s' = { s with videoInfo } := by
  rw [sessionSetupVideoInfo, ioctl_bind_ok]
  constructor
  · rintro ⟨videoInfo, metadata, returned⟩
    cases returned
    exact ⟨videoInfo, metadata, rfl⟩
  · rintro ⟨videoInfo, metadata, rfl⟩
    exact ⟨videoInfo, metadata, rfl⟩

theorem initFrameBuffer_ok_iff {outside : Outside} {garbage : Garbage} {s s' : Sess}
    {value : Unit}
    : initFrameBuffer outside garbage s = .ok value s'
      ↔ ∃ vi vp, outside.init.metadata = some vi ∧ outside.init.mode = some vp
          ∧ outside.mallocs = true ∧ outside.maps = true
          ∧ s' = { s with
              allocated := true
              parser :=
                { s.parser with
                  handlers :=
                    { s.parser.handlers with
                      updates :=
                        { s.parser.handlers.updates with
                          fb := .initial vi vp garbage.frame } } } } := by
  rw [initFrameBuffer, modify_bind]
  simp only [onServer_ok_iff, onUpdates_ok_iff, onFrameBuffer_ok_iff]
  constructor
  · rintro ⟨_, ⟨_, ⟨fb, returned, rfl⟩, rfl⟩, rfl⟩
    obtain ⟨vi, vp, frame, metadata, mode, malloced, maps, rfl⟩ := fbInit_ok_iff.mp returned
    cases mallocs : outside.mallocs with
    | false =>
        rw [mallocs] at malloced
        cases malloced
    | true =>
        rw [mallocs] at malloced
        cases malloced
        rw [mallocs, if_pos rfl] at returned
        refine ⟨vi, vp, metadata, mode, rfl, maps, ?_⟩
        rw [if_pos rfl, returned, allocates]
  · rintro ⟨vi, vp, metadata, mode, mallocs, maps, rfl⟩
    have returned : ∀ fb : FrameBuffer,
        fbInit outside.init (if outside.mallocs then some garbage.frame else none) outside.maps fb
          = .ok () (.initial vi vp garbage.frame) := by
      intro fb
      rw [mallocs, if_pos rfl]
      exact fbInit_ok_iff.mpr ⟨vi, vp, garbage.frame, metadata, mode, rfl, maps, rfl⟩
    refine ⟨_, ⟨_, ⟨_, returned _, rfl⟩, rfl⟩, ?_⟩
    rw [returned, allocates]

/-- The session with the keyboard layout. -/
def Sess.loaded (outside : Outside) (garbage : Garbage) (s : Sess) : Sess :=
  { s with
    parser :=
      { s.parser with
        handlers :=
          { s.parser.handlers with
            keys :=
              { s.parser.handlers.keys with
                kchr :=
                  kchrLoad outside.kchrChunks garbage.kchr garbage.chunk
                    s.parser.handlers.keys.kchr } } } }

@[simp]
theorem Sess.loaded_socket (outside : Outside) (garbage : Garbage) (s : Sess)
    : (s.loaded outside garbage).socket = s.socket := by
  simp only [Sess.socket, Sess.loaded]

@[simp]
theorem Sess.loaded_incoming (outside : Outside) (garbage : Garbage) (s : Sess)
    : (s.loaded outside garbage).incoming = s.incoming := by
  simp only [Sess.loaded]

theorem loadKchr_eq (outside : Outside) (garbage : Garbage) (s : Sess)
    : loadKchr outside garbage s = .ok () (s.loaded outside garbage) :=
  rfl

theorem prepare_ok_iff {outside : Outside} {garbage : Garbage} {s s' : Sess} {value : Unit}
    : prepare outside garbage s = .ok value s'
      ↔ ∃ vi vp announced, Prepares outside vi vp announced
          ∧ s' = s.prepared outside garbage vi vp announced := by
  simp only [prepare, bind_eq_ok, initFrameBuffer_ok_iff, onServer_ok_iff, onUpdates_ok_iff,
    sessionSetupVideoInfo_ok_iff, loadKchr_eq]
  constructor
  · rintro ⟨_, _, ⟨vi, vp, metadata, mode, mallocs, maps, rfl⟩, _, _,
      ⟨_, ⟨_, ⟨announced, answered, rfl⟩, rfl⟩, rfl⟩, returned⟩
    cases returned
    exact ⟨vi, vp, announced, ⟨metadata, mode, mallocs, maps, answered⟩, rfl⟩
  · rintro ⟨vi, vp, announced, ⟨metadata, mode, mallocs, maps, answered⟩, rfl⟩
    exact ⟨(), _, ⟨vi, vp, metadata, mode, mallocs, maps, rfl⟩, (), _,
      ⟨_, ⟨_, ⟨announced, answered, rfl⟩, rfl⟩, rfl⟩, rfl⟩

/-- The session gets to its messages when nothing fails before. -/
theorem setUp_ok_iff {outside : Outside} {garbage : Garbage} {s s' : Sess} {value : Unit}
    : setUp outside garbage s = .ok value s'
      ↔ ∃ vi vp announced accepted count accepted' last,
          Prepares outside vi vp announced ∧ Greets s accepted count accepted'
          ∧ s.socket.results (s.socket.sends + 2) 34 = some last
          ∧ s' = ((s.prepared outside garbage vi vp announced).greeted accepted count
                accepted').sent (serverInit outside garbage announced).bytes last := by
  simp only [setUp, bind_eq_ok, prepare_ok_iff, handshake_ok_iff]
  constructor
  · rintro ⟨_, _, ⟨vi, vp, announced, prepares, rfl⟩, accepted, count, accepted', last, greets,
      sends, rfl⟩
    have greets' : Greets s accepted count accepted' := greets.same_socket (by simp) (by simp)
    rw [Sess.prepared_socket] at sends
    exact ⟨vi, vp, announced, accepted, count, accepted', last, prepares, greets', sends, rfl⟩
  · rintro ⟨vi, vp, announced, accepted, count, accepted', last, prepares, greets, sends, rfl⟩
    have greets' : Greets (s.prepared outside garbage vi vp announced) accepted count accepted' :=
      greets.same_socket (by simp) (by simp)
    rw [← Sess.prepared_socket outside garbage vi vp announced s] at sends
    exact ⟨(), _, ⟨vi, vp, announced, prepares, rfl⟩, accepted, count, accepted', last, greets',
      sends, rfl⟩

/-- The session with the client that says hello, when it gets to its messages. -/
def helloSession (garbage : Garbage) : Sess :=
  ((((Sess.zeroed (smallOutside helloBytes fun _ => some 256)).prepared
        (smallOutside helloBytes fun _ => some 256) garbage smallScreen ⟨8, 8⟩
        smallScreen).greeted 12 256 4).sent
    (serverInit (smallOutside helloBytes fun _ => some 256) garbage smallScreen).bytes 34)

theorem hello_setUp (garbage : Garbage) (drivers : Drivers)
    : setUp { smallOutside helloBytes fun _ => some 256 with drivers } garbage
          (.zeroed (smallOutside helloBytes fun _ => some 256))
        = .ok () (helloSession garbage) :=
  setUp_ok_iff.mpr ⟨smallScreen, ⟨8, 8⟩, smallScreen, 12, 256, 4, 34,
    ⟨rfl, rfl, rfl, rfl, rfl⟩,
    ⟨rfl, rfl, List.cons_ne_nil _ _, rfl, Option.some_ne_none _, List.cons_ne_nil _ _⟩, rfl, rfl⟩

end MiniVnc
