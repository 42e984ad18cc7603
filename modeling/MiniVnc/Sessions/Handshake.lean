import MiniVnc.Library.Sink
import MiniVnc.Sessions.Session

/-! How much of the client's stream the handshake takes. -/

namespace MiniVnc
open Library.Memory Library.Stream Library.Sink

/-- The sending side of the client socket. -/
def Sess.socket (s : Sess) : Socket := s.parser.handlers.updates.sock

/-- The session after `send` has accepted `count` bytes of `msg`. -/
def Sess.sent (s : Sess) (msg : List UInt8) (count : Nat) : Sess :=
  { s with
    parser :=
      { s.parser with
        handlers :=
          { s.parser.handlers with
            updates :=
              { s.parser.handlers.updates with
                sock :=
                  { s.socket with
                    sends := s.socket.sends + 1
                    offered := s.socket.offered ++ msg
                    sent := s.socket.sent ++ msg.take count } } } } }

/-- The session after `recv` has taken `count` bytes. -/
def Sess.received (s : Sess) (count : Nat) : Sess :=
  { s with
    incoming :=
      { s.incoming with
        stream := s.incoming.stream.drop count
        recvs := s.incoming.recvs + 1 } }

theorem send_ok_iff {msg : List UInt8} {s s' : Sess} {value : Unit}
    : onServer (onUpdates (sendw msg)) s = .ok value s'
      ↔ ∃ count, s.socket.results s.socket.sends msg.length = some count
          ∧ s' = s.sent msg count := by
  have unfolded : s.socket = s.parser.handlers.updates.sock := rfl
  cases accepted : s.socket.results s.socket.sends msg.length with
  | none =>
      rw [unfolded] at accepted
      simp [onServer, onUpdates, sendw, accepted]
  | some count =>
      rw [unfolded] at accepted
      simp only [onServer, onUpdates, sendw, accepted]
      constructor
      · intro returned
        cases returned
        exact ⟨count, rfl, rfl⟩
      · rintro ⟨_, same, rfl⟩
        cases same
        rfl

theorem recvw_ok_iff {len : Nat} (positive : 0 < len) {s s' : Sess} {value : Unit}
    : recvw len s = .ok value s'
      ↔ ∃ count, s.incoming.counts s.incoming.recvs = some count
          ∧ s.incoming.stream ≠ [] ∧ s' = s.received (min len (max 1 count)) := by
  rw [recvw, get_bind]
  cases counted : s.incoming.counts s.incoming.recvs with
  | none =>
      simp only [Incoming.recv, counted, set_bind]
      constructor
      · intro returned
        cases returned
      · rintro ⟨_, impossible, _⟩
        cases impossible
  | some count =>
      simp only [Incoming.recv, counted, set_bind]
      obtain ⟨last, taken⟩ : ∃ last, min len (max 1 count) = last + 1 :=
        ⟨min len (max 1 count) - 1, by omega⟩
      cases stream : s.incoming.stream with
      | nil =>
          rw [List.take_nil]
          constructor
          · intro returned
            cases returned
          · rintro ⟨_, _, impossible, _⟩
            exact absurd rfl impossible
      | cons first rest =>
          rw [taken, List.take_succ_cons]
          constructor
          · intro returned
            cases returned
            exact ⟨count, rfl, by simp, by rw [taken, Sess.received, stream]⟩
          · rintro ⟨_, same, _, rfl⟩
            cases same
            rw [taken, Sess.received, stream]
            rfl

section Steps

variable (s : Sess) (msg : List UInt8) (count : Nat)

@[simp]
theorem Sess.sent_results : (s.sent msg count).socket.results = s.socket.results := rfl

@[simp]
theorem Sess.sent_sends : (s.sent msg count).socket.sends = s.socket.sends + 1 := rfl

@[simp]
theorem Sess.sent_offered : (s.sent msg count).socket.offered = s.socket.offered ++ msg := rfl

@[simp]
theorem Sess.sent_incoming : (s.sent msg count).incoming = s.incoming := rfl

@[simp]
theorem Sess.received_socket : (s.received count).socket = s.socket := rfl

@[simp]
theorem Sess.received_stream
    : (s.received count).incoming.stream = s.incoming.stream.drop count :=
  rfl

@[simp]
theorem Sess.received_counts : (s.received count).incoming.counts = s.incoming.counts := rfl

@[simp]
theorem Sess.received_recvs : (s.received count).incoming.recvs = s.incoming.recvs + 1 := rfl

end Steps

/-- The handshake gets to the server's turn when nothing fails and the client sends enough. -/
structure Greets (s : Sess) (accepted count accepted' : Nat) : Prop where
  version : s.socket.results s.socket.sends 12 = some accepted
  first : s.incoming.counts s.incoming.recvs = some count
  some_ : s.incoming.stream ≠ []
  security : s.socket.results (s.socket.sends + 1) 4 = some accepted'
  second : s.incoming.counts (s.incoming.recvs + 1) ≠ none
  more : s.incoming.stream.drop (min 12 (max 1 count)) ≠ []

/-- That depends on the socket only. -/
theorem Greets.same_socket {s t : Sess} {accepted count accepted' : Nat}
    (greets : Greets s accepted count accepted') (socket : t.socket = s.socket)
    (incoming : t.incoming = s.incoming)
    : Greets t accepted count accepted' := by
  obtain ⟨version, first, some_, security, second, more⟩ := greets
  rw [← socket] at version security
  rw [← incoming] at first some_ second more
  exact ⟨version, first, some_, security, second, more⟩

/-- The session after the client's part of the handshake. -/
def Sess.greeted (s : Sess) (accepted count accepted' : Nat) : Sess :=
  (((s.sent versionBytes accepted).received (min 12 (max 1 count))).sent (ulongBytes 1)
    accepted').received 1

theorem greet_ok_iff {s s' : Sess} {value : Unit}
    : greet s = .ok value s'
      ↔ ∃ accepted count accepted', Greets s accepted count accepted'
          ∧ s' = s.greeted accepted count accepted' := by
  have one : ∀ count, min 1 (max 1 count) = 1 := fun count => by omega
  simp only [greet, bind_eq_ok, vncSendProtocolVersion, vncRequestClientProtocolVersion,
    vncSendSecurityHandshake, vncRequestClientInit, send_ok_iff, recvw_ok_iff (Nat.succ_pos _)]
  constructor
  · rintro ⟨_, _, ⟨accepted, version, rfl⟩, _, _, ⟨count, first, some_, rfl⟩, _, _,
      ⟨accepted', security, rfl⟩, count', second, more, rfl⟩
    refine ⟨accepted, count, accepted', ⟨version, first, some_, security, ?_, more⟩, ?_⟩
    · exact Option.ne_none_iff_exists'.mpr ⟨count', second⟩
    · rw [one]
      rfl
  · rintro ⟨accepted, count, accepted', ⟨version, first, some_, security, second, more⟩, rfl⟩
    obtain ⟨count', second⟩ := Option.ne_none_iff_exists'.mp second
    refine ⟨(), _, ⟨accepted, version, rfl⟩, (), _, ⟨count, first, some_, rfl⟩, (), _,
      ⟨accepted', security, rfl⟩, count', second, more, ?_⟩
    rw [one]
    rfl

theorem serverInit_length (outside : Outside) (garbage : Garbage) (videoInfo : Video)
    : (serverInit outside garbage videoInfo).bytes.length = 34 := by
  simp [VNCServerInit.bytes, ushortBytes, ulongBytes, VNCPixelFormat.bytes, Padding.bytes,
    vncServerInitNameLen]

/-- The whole handshake, with the server's part. -/
theorem handshake_ok_iff {outside : Outside} {garbage : Garbage} {s s' : Sess} {value : Unit}
    : handshake outside garbage s = .ok value s'
      ↔ ∃ accepted count accepted' last, Greets s accepted count accepted'
          ∧ s.socket.results (s.socket.sends + 2) 34 = some last
          ∧ s' = (s.greeted accepted count accepted').sent
              (serverInit outside garbage s.parser.handlers.updates.videoInfo).bytes last := by
  have reads : ∀ s : Sess,
      vncSendServerInit outside garbage s
        = onServer (onUpdates (sendw
            (serverInit outside garbage s.parser.handlers.updates.videoInfo).bytes)) s :=
    fun _ => rfl
  simp only [handshake, bind_eq_ok, greet_ok_iff, reads, send_ok_iff, serverInit_length]
  constructor
  · rintro ⟨_, _, ⟨accepted, count, accepted', greets, rfl⟩, last, sends, rfl⟩
    exact ⟨accepted, count, accepted', last, greets, sends, rfl⟩
  · rintro ⟨accepted, count, accepted', last, greets, sends, rfl⟩
    exact ⟨(), _, ⟨accepted, count, accepted', greets, rfl⟩, last, sends, rfl⟩

theorem Sess.greeted_stream (s : Sess) (accepted count accepted' : Nat)
    : (s.greeted accepted count accepted').incoming.stream
      = s.incoming.stream.drop (min 12 (max 1 count) + 1) := by
  simp [Sess.greeted]

/-- When the version and ClientInit steps have returned, they have taken the version and the
ClientInit from the client, and what is received next starts with the byte behind them.
-/
def TakesThirteen (s : Sess) : Prop :=
  ∀ s', greet s = .ok () s' →
    s'.incoming.stream = s.incoming.stream.drop 13
    ∧ ∀ bytes, (s'.incoming.recv Parser.sessRecvBuffLen).1 = .data bytes →
        bytes.head? = s.incoming.stream[13]?

theorem recv_head {incoming : Incoming} {len : Nat} (positive : 0 < len) {bytes : List UInt8}
    (data : (incoming.recv len).1 = .data bytes)
    : bytes.head? = incoming.stream.head? := by
  cases counted : incoming.counts incoming.recvs with
  | none =>
      simp only [Incoming.recv, counted] at data
      cases data
  | some count =>
      simp only [Incoming.recv, counted] at data
      cases data
      rw [List.head?_take, if_neg (by omega)]

theorem greet_fails_iff (s : Sess)
    : Fails s.socket.results s.socket.sends [versionBytes, ulongBytes 1]
      ↔ s.socket.results s.socket.sends 12 = none
        ∨ s.socket.results (s.socket.sends + 1) 4 = none := by
  rw [fails_cons, fails_cons]
  simp [Fails, versionBytes, ulongBytes]

/-- The version and ClientInit steps take exactly the version and the ClientInit from the client
when the `recv` for the version gives all of it; or one of them ends the session, for want of a
`send`.
-/
theorem handshake_takesThirteen_iff (s : Sess) (long : 13 ≤ s.incoming.stream.length)
    (receiving : ∀ n, s.incoming.counts n ≠ none)
    : TakesThirteen s
      ↔ (∃ count, s.incoming.counts s.incoming.recvs = some count ∧ 12 ≤ count)
        ∨ Fails s.socket.results s.socket.sends [versionBytes, ulongBytes 1] := by
  rw [greet_fails_iff]
  constructor
  · intro takes
    obtain ⟨count, counted⟩ := Option.ne_none_iff_exists'.mp (receiving s.incoming.recvs)
    by_contra neither
    simp only [not_or] at neither
    obtain ⟨short, version, security⟩ := neither
    obtain ⟨accepted, version⟩ := Option.ne_none_iff_exists'.mp version
    obtain ⟨accepted', security⟩ := Option.ne_none_iff_exists'.mp security
    have few : count < 12 := by
      by_contra enough
      exact short ⟨count, counted, Nat.le_of_not_lt enough⟩
    have greets : Greets s accepted count accepted' := by
      refine ⟨version, counted, ?_, security, receiving _, ?_⟩
      · exact List.ne_nil_of_length_pos (by omega)
      · exact List.ne_nil_of_length_pos (by rw [List.length_drop]; omega)
    obtain ⟨same, _⟩ := takes _ (greet_ok_iff.mpr ⟨accepted, count, accepted', greets, rfl⟩)
    rw [Sess.greeted_stream] at same
    have lengths := congrArg List.length same
    rw [List.length_drop, List.length_drop] at lengths
    omega
  · intro whole s' returned
    obtain ⟨accepted, count, accepted', greets, rfl⟩ := greet_ok_iff.mp returned
    have stream : (s.greeted accepted count accepted').incoming.stream
        = s.incoming.stream.drop 13 := by
      rcases whole with ⟨count', counted, enough⟩ | failing
      · rw [greets.first] at counted
        cases counted
        rw [Sess.greeted_stream]
        congr 1
        omega
      · rw [greets.version, greets.security] at failing
        simp at failing
    refine ⟨stream, fun bytes data => ?_⟩
    rw [recv_head (by decide) data, stream, List.head?_drop]

/-- The version, the ClientInit and an update request. -/
def helloBytes : List UInt8 := versionBytes ++ [1] ++ [3, 0, 0, 0, 0, 0, 0, 8, 0, 1]

theorem handshake_takesThirteen_iff_hello
    : TakesThirteen (.zeroed (smallOutside helloBytes fun _ => some 256)) :=
  (handshake_takesThirteen_iff (.zeroed (smallOutside helloBytes fun _ => some 256)) (by decide)
    fun _ => Option.some_ne_none _).mpr (Or.inl ⟨256, rfl, by decide⟩)

/-- When the first `recv` gives four bytes of the version, eight of them are left to be taken for
messages.
-/
theorem shortVersion_left
    : ¬TakesThirteen
        (.zeroed (smallOutside helloBytes fun n => some (if n = 0 then 4 else 256))) := by
  intro takes
  obtain ⟨same, _⟩ := takes _ rfl
  exact absurd same (by decide)

end MiniVnc
