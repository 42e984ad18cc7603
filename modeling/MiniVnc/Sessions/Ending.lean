import MiniVnc.Parser.Segmentation
import MiniVnc.Sessions.Session

/-! Every session ends, with the descriptors and the frame that it has. -/

namespace MiniVnc
open Library.Memory Library.Stream

/-- The two sessions hold the same descriptors and the same frame. -/
structure SameResources (s s' : Sess) : Prop where
  sock : s'.sock = s.sock
  fbFd : s'.fbFd = s.fbFd
  allocated : s'.allocated = s.allocated

theorem SameResources.trans {s middle last : Sess} (first : SameResources s middle)
    (second : SameResources middle last)
    : SameResources s last :=
  ⟨second.sock.trans first.sock, second.fbFd.trans first.fbFd,
    second.allocated.trans first.allocated⟩

/-- The session goes on from `s` to `s'`, with no more to receive than there was. -/
structure Continues (s s' : Sess) : Prop where
  holds : SameResources s s'
  valid : s'.parser.Valid
  shorter : s'.incoming.stream.length ≤ s.incoming.stream.length

/-- The session ends by an error of its own, with what it had in `s`. -/
structure EndsIn (s : Sess) (stop : Parser.Stop) (s' : Sess) : Prop where
  error : ∃ e, stop = .sessionEnded e
  holds : SameResources s s'

/-- A part of a session that starts in `s` returns and the session goes on, or the session ends. -/
abbrev Proceeds {α : Type} (s : Sess) : EStateM.Result Parser.Stop Sess α → Prop :=
  Meets (fun _ => Continues s) (EndsIn s)

/-- The session ends. -/
abbrev EndsSession {α : Type} (s : Sess) : EStateM.Result Parser.Stop Sess α → Prop :=
  Meets (fun _ _ => False) (EndsIn s)

theorem EndsSession.error {α : Type} {s : Sess} {result : EStateM.Result Parser.Stop Sess α}
    (ends : EndsSession s result)
    : ∃ e s', result = .error (.sessionEnded e) s' ∧ SameResources s s' := by
  cases ends with
  | ok impossible => exact absurd impossible id
  | error ends =>
      obtain ⟨⟨e, rfl⟩, holds⟩ := ends
      exact ⟨e, _, rfl, holds⟩

theorem EndsIn.after {s middle last : Sess} {stop : Parser.Stop} (ends : EndsIn middle stop last)
    (continues : Continues s middle)
    : EndsIn s stop last :=
  ⟨ends.error, continues.holds.trans ends.holds⟩

theorem Continues.trans {s middle last : Sess} (first : Continues s middle)
    (second : Continues middle last)
    : Continues s last :=
  ⟨first.holds.trans second.holds, second.valid, second.shorter.trans first.shorter⟩

theorem Proceeds.bind {α β : Type} {x : Running α} {f : α → Running β} {s : Sess}
    (first : Proceeds s (x s)) (rest : ∀ value s', s'.parser.Valid → Proceeds s' (f value s'))
    : Proceeds s ((x >>= f) s) := by
  refine Meets.bind first fun value s' _ continues => ?_
  refine (rest value s' continues.valid).weaken ?_ ?_
  · intro _ last continues'
    exact continues.trans continues'
  · intro stop last ends
    exact ends.after continues

/-- A session that ends later ends. -/
theorem Continues.ends {α : Type} {s s' : Sess} {result : EStateM.Result Parser.Stop Sess α}
    (continues : Continues s s') (ends : EndsSession s' result)
    : EndsSession s result := by
  refine ends.weaken (fun _ _ => id) ?_
  intro stop last ends
  exact ends.after continues

/-- A session ends when it ends after a part that proceeds. -/
theorem Proceeds.ends {α β : Type} {x : Running α} {f : α → Running β} {s : Sess}
    (first : Proceeds s (x s))
    (rest : ∀ value s', Continues s s' → EndsSession s' (f value s'))
    : EndsSession s ((x >>= f) s) := by
  refine Meets.bind first fun value s' _ continues => ?_
  exact continues.ends (rest value s' continues)

/-- `recv` gives a piece, which is taken off the stream; or it gives nothing. -/
theorem recv_cases (incoming : Incoming) {len : Nat} (positive : 0 < len)
    : (∃ bytes, (incoming.recv len).1 = .data bytes ∧ 1 ≤ bytes.length ∧ bytes.length ≤ len
        ∧ (incoming.recv len).2.stream.length + bytes.length = incoming.stream.length)
      ∨ (incoming.recv len).1 = .data [] ∨ (incoming.recv len).1 = .failed := by
  cases counted : incoming.counts incoming.recvs with
  | none => exact Or.inr (Or.inr (by simp only [Incoming.recv, counted]))
  | some count =>
      cases stream : incoming.stream with
      | nil => exact Or.inr (Or.inl (by simp only [Incoming.recv, counted, stream, List.take_nil]))
      | cons first rest =>
          refine Or.inl ⟨(first :: rest).take (min len (max 1 count)), ?_, ?_, ?_, ?_⟩
          · simp only [Incoming.recv, counted, stream]
          · rw [List.length_take, List.length_cons]
            omega
          · rw [List.length_take]
            omega
          · simp only [Incoming.recv, counted, stream, List.length_take, List.length_drop]
            omega

theorem vncReadAndHandleMessages_eq (drivers : Drivers) (s : Sess)
    : vncReadAndHandleMessages drivers s
      = onParser
          (Parser.vncReadAndHandleMessages (serverHandler drivers)
            (s.incoming.recv Parser.sessRecvBuffLen).1)
          { s with incoming := (s.incoming.recv Parser.sessRecvBuffLen).2 } :=
  rfl

/-- The parser takes a piece and keeps its invariant, or it ends the session. -/
theorem onParser_proceeds (drivers : Drivers) {s : Sess} (valid : s.parser.Valid)
    {piece : List UInt8} (isPiece : Parser.IsPiece piece)
    : Meets (fun _ s' => Continues s s' ∧ s'.incoming = s.incoming) (EndsIn s)
        (onParser (Parser.vncReadAndHandleMessages (serverHandler drivers) (.data piece)) s) := by
  have refined :=
    Parser.vncReadAndHandleMessages_refines (serverHandler drivers) valid isPiece
  generalize run (Parser.eat (serverHandler drivers)) piece s.parser.position = read at refined
  cases handled : Parser.vncReadAndHandleMessages (serverHandler drivers) (.data piece)
    s.parser with
  | ok done parser =>
      rw [handled] at refined
      simp only [onParser, handled]
      cases refined with
      | ok here => exact .ok ⟨⟨⟨rfl, rfl, rfl⟩, here.1, Nat.le_refl _⟩, rfl⟩
  | error stop parser =>
      rw [handled] at refined
      simp only [onParser, handled]
      cases refined with
      | error _ => exact .error ⟨⟨_, rfl⟩, ⟨rfl, rfl, rfl⟩⟩

/-- One turn of the loop takes a byte at least, or it ends the session. -/
theorem vncReadAndHandleMessages_proceeds (drivers : Drivers) {s : Sess}
    (valid : s.parser.Valid)
    : Meets
        (fun _ s' =>
          Continues s s' ∧ s'.incoming.stream.length < s.incoming.stream.length)
        (EndsIn s) (vncReadAndHandleMessages drivers s) := by
  rw [vncReadAndHandleMessages_eq]
  generalize next : s.incoming.recv Parser.sessRecvBuffLen = received
  obtain ⟨result, incoming⟩ := received
  rcases recv_cases s.incoming (show 0 < Parser.sessRecvBuffLen by decide) with
    ⟨bytes, data, some_, fits, left⟩ | eof | failed
  · rw [next] at data left
    subst data
    have valid' : Parser.Session.Valid { s with incoming }.parser := valid
    have fewer : incoming.stream.length < s.incoming.stream.length := by
      dsimp only at left
      omega
    refine (onParser_proceeds drivers valid' ⟨some_, fits⟩).weaken ?_ ?_
    · rintro _ s' ⟨continues, same⟩
      obtain ⟨⟨sock, fbFd, allocated⟩, valid, _⟩ := continues
      rw [same]
      refine ⟨⟨⟨sock, fbFd, allocated⟩, valid, ?_⟩, fewer⟩
      rw [same]
      exact fewer.le
    · rintro stop s' ⟨error, sock, fbFd, allocated⟩
      exact ⟨error, sock, fbFd, allocated⟩
  · rw [next] at eof
    subst eof
    exact .error ⟨⟨_, rfl⟩, ⟨rfl, rfl, rfl⟩⟩
  · rw [next] at failed
    subst failed
    exact .error ⟨⟨_, rfl⟩, ⟨rfl, rfl, rfl⟩⟩

end MiniVnc
