import MiniVnc.Parser.RoundTrip

/-! ClientCutText: `vnc_evt_client_cut_text` leaves the text it announces in the stream, and
the parser takes the text for messages. The accounting of bytes per call shows that every
text byte ends up in some message.
-/

namespace MiniVnc.Parser
open Library.Memory Library.Stream

variable {σ : Type}

/-- The bytes received for a call: a fragment's head has been received before it. -/
def Event.size : Event → Nat
  | .setPixelFormat _ => 20
  | .setEncoding _ => 4
  | .setEncodingOne _ => 4
  | .updateRequest _ => 10
  | .key _ => 8
  | .pointer _ => 6
  | .clientCutText _ => 8

/-- The pending bytes no call has accounted for. -/
def unaccounted (pending : List UInt8) : Nat :=
  if pending.head? = some ClientMessageType.mSetEncodings.code ∧ 4 ≤ pending.length then
    pending.length - 4
  else
    pending.length

def callBytes (calls : List Event) : Nat := (calls.map Event.size).sum

/-- All bytes read so far. -/
def Position.consumed (p : Position σ) : Nat := callBytes p.calls + unaccounted p.pending

/-- The reader is between messages or strictly inside one, like the parser. -/
def Position.Valid (p : Position σ) : Prop :=
  p.pending = []
  ∨ p.pending ≠ [] ∧ ∃ n, messageSize? p.pending = some n ∧ p.pending.length < n

theorem unaccounted_short {pending : List UInt8} (short : pending.length < 4)
    : unaccounted pending = pending.length :=
  if_neg (fun long => by omega)

theorem unaccounted_other {pending : List UInt8}
    (other : pending.head? ≠ some ClientMessageType.mSetEncodings.code)
    : unaccounted pending = pending.length :=
  if_neg (fun same => other same.1)

theorem unaccounted_encodings {pending : List UInt8}
    (encodings : pending.head? = some ClientMessageType.mSetEncodings.code)
    (long : 4 ≤ pending.length)
    : unaccounted pending = pending.length - 4 :=
  if_pos ⟨encodings, long⟩

/-- What stays of a message is a head that has been accounted for, and a valid start. -/
theorem remainder_accounted (type : ClientMessageType) {message : List UInt8}
    (known : ClientMessageType.ofCode? (load message 0) = some type)
    : unaccounted (remainder type message) = 0
      ∧ (remainder type message = []
        ∨ remainder type message ≠ []
          ∧ ∃ n, messageSize? (remainder type message) = some n
              ∧ (remainder type message).length < n) := by
  cases type with
  | mSetEncodings =>
      have typed : countDown (load message) message.length 0
          = ClientMessageType.mSetEncodings.code :=
        (countDown_type _ _).trans (ClientMessageType.code_of_ofCode? known)
      have stays : remainder .mSetEncodings message
          = slice (countDown (load message) message.length) 0
              (nextFragment (countDown (load message) message.length)) := rfl
      rw [stays]
      have headed : ClientMessageType.ofCode? (countDown (load message) message.length 0)
          = some ClientMessageType.mSetEncodings := by
        rw [typed]
        rfl
      rcases nextFragment_cases headed with start | ⟨four, size⟩
      · rw [start, slice_zero]
        exact ⟨rfl, Or.inl rfl⟩
      · rw [four]
        refine ⟨?_, Or.inr ⟨?_, _, (messageSize?_slice (by omega)).trans size, ?_⟩⟩
        · rw [unaccounted_encodings (by rw [slice_succ, typed]; rfl) (by simp), slice_length]
        · rw [slice_succ]
          simp
        · rw [slice_length]
          decide
  | _ => exact ⟨rfl, Or.inl rfl⟩

/-- A delivered message's call takes exactly the bytes that were not accounted for yet. -/
theorem delivery_accounted {pending : List UInt8} {byte : UInt8} {type : ClientMessageType}
    (started : pending ≠ [])
    (size : messageSize? pending = some (pending.length + 1))
    (known : ClientMessageType.ofCode? (load (pending ++ [byte]) 0) = some type)
    : (eventOf type (load (pending ++ [byte])) (pending ++ [byte]).length).size
      = unaccounted pending + 1 := by
  obtain ⟨found, headed, equal⟩ := msgSize?_eq_some.mp size
  have nonempty : 0 < pending.length := List.length_pos_iff.mpr started
  have same : found = type := by
    rw [load_append_left nonempty] at known
    exact Option.some.inj (headed.symm.trans known)
  subst same
  have code := ClientMessageType.code_of_ofCode? headed
  have first : pending.head? = some found.code := by
    rw [← code]
    cases pending with
    | nil => exact absurd rfl started
    | cons first rest => rfl
  have length : (pending ++ [byte]).length = pending.length + 1 := by simp
  rw [length]
  cases found with
  | mSetEncodings =>
      rw [if_pos rfl, vncMsgEncodingfragsize] at equal
      split at equal
      · have seven : pending.length = 7 := by
          simp only [sizeofVNCSetEncodingOne] at equal
          omega
        rw [unaccounted_encodings first (by omega), seven]
        rfl
      · have three : pending.length = 3 := by
          simp only [ClientMessageType.sizeof] at equal
          omega
        rw [unaccounted_short (by omega), three]
        rfl
  | _ =>
      rw [unaccounted_other (by rw [first]; decide)]
      exact equal

/-- Less than the head of a SetEncodings message is read up to the head's end. -/
theorem messageSize?_encodings_head {pending : List UInt8}
    (encodings : pending.head? = some ClientMessageType.mSetEncodings.code)
    (short : pending.length < 4)
    : messageSize? pending = some 4 := by
  cases pending with
  | nil => cases encodings
  | cons first rest =>
      have coded : first = ClientMessageType.mSetEncodings.code := Option.some.inj encodings
      subst coded
      refine msgSize?_eq_some.mpr ⟨.mSetEncodings, rfl, ?_⟩
      rw [if_pos rfl, vncMsgEncodingfragsize, if_neg (fun head => Nat.not_le.mpr short head.1)]
      rfl

/-- A byte that does not complete the message in progress is not accounted for yet. -/
theorem unaccounted_append {pending : List UInt8} {byte : UInt8} {n : Nat}
    (started : pending ≠ []) (size : messageSize? pending = some n)
    (incomplete : pending.length + 1 < n)
    : unaccounted (pending ++ [byte]) = unaccounted pending + 1 := by
  have first : (pending ++ [byte]).head? = pending.head? := List.head?_append_of_ne_nil _ started
  by_cases encodings : pending.head? = some ClientMessageType.mSetEncodings.code
  · by_cases long : 4 ≤ pending.length
    · rw [unaccounted_encodings encodings long,
        unaccounted_encodings (first.trans encodings) (by simp; omega), List.length_append,
        List.length_singleton]
      omega
    · have short := messageSize?_encodings_head encodings (Nat.lt_of_not_le long)
      have four : n = 4 := Option.some.inj (size.symm.trans short)
      rw [unaccounted_short (Nat.lt_of_not_le long), unaccounted_short (by simp; omega),
        List.length_append, List.length_singleton]
  · rw [unaccounted_other encodings, unaccounted_other (by rwa [first]), List.length_append,
      List.length_singleton]

/-- Reading a byte accounts for it. By cases on whether it starts, continues or completes a
message.
-/
theorem eat_accounted {handle : Handler σ} {byte : UInt8} {p p' : Position σ} (valid : p.Valid)
    (read : eat handle byte p = .ok () p')
    : p'.Valid ∧ p'.consumed = p.consumed + 1 := by
  rcases valid with boundary | ⟨started, n, size, inside⟩
  · cases known : ClientMessageType.ofCode? byte with
    | none => simp [eat, boundary, known] at read
    | some type =>
        rw [eat_start handle boundary known] at read
        cases read
        have long : 1 < type.sizeof := by cases type <;> decide
        refine ⟨Or.inr ⟨by simp, _, messageSize?_start known, long⟩, ?_⟩
        rw [Position.consumed, Position.consumed, boundary, unaccounted_short (by simp),
          unaccounted_short (by simp)]
        rfl
  · obtain ⟨type, headed, known⟩ := messageSize?_type started size [byte]
    by_cases complete : n = p.pending.length + 1
    · subst complete
      simp only [eat, headed, size, ↓reduceIte, deliver] at read
      split at read
      · cases read
        obtain ⟨none, next⟩ := remainder_accounted type known
        refine ⟨next, ?_⟩
        have event := delivery_accounted started size known
        simp only [Position.consumed, callBytes, List.map_append, List.sum_append,
          List.map_singleton, List.sum_singleton, none, event]
        omega
      · cases read
    · have more : messageSize? p.pending ≠ some (p.pending.length + 1) := by
        rw [size]
        exact fun same => complete (Option.some.inj same)
      simp only [eat, headed, if_neg more] at read
      cases read
      have next : p.pending.length + 1 < n := Nat.lt_of_le_of_ne inside (Ne.symm complete)
      refine ⟨Or.inr ⟨by simp, n, messageSize?_append started size (by simpa using next), ?_⟩, ?_⟩
      · simpa using next
      · rw [Position.consumed, unaccounted_append started size next]
        rfl

/-- A run accounts for every byte it reads, by induction on the bytes. -/
theorem run_eat_accounted {handle : Handler σ} {bytes : List UInt8} {p p' : Position σ}
    (valid : p.Valid) (read : run (eat handle) bytes p = .ok () p')
    : p'.consumed = p.consumed + bytes.length := by
  induction bytes generalizing p with
  | nil =>
      cases read
      rfl
  | cons byte rest ih =>
      obtain ⟨_, middle, first, later⟩ := bind_eq_ok.mp read
      obtain ⟨valid', counted⟩ := eat_accounted valid first
      rw [ih valid' later, counted, List.length_cons]
      omega

-----------------------------------------------------------------------------------------
-- Cut text is taken for messages
-----------------------------------------------------------------------------------------

theorem callBytes_append (first rest : List Event)
    : callBytes (first ++ rest) = callBytes first + callBytes rest := by
  rw [callBytes, List.map_append, List.sum_append]
  rfl

/-- Each encoding is four bytes, by induction on the encodings. -/
theorem callBytes_encodingEvents (padding : UInt8) (encodings : List UInt32)
    : callBytes (ClientMessage.encodingEvents padding encodings)
      = (encodings.flatMap ulongBytes).length := by
  induction encodings with
  | nil => rfl
  | cons encoding rest ih =>
      rw [List.flatMap_cons, List.length_append, ← ih]
      rfl

/-- The calls a message is due account for its bytes, except for a cut text. -/
theorem length_encode (message : ClientMessage)
    : message.encode.length = callBytes message.events + message.text.length := by
  rw [ClientMessage.encode, List.length_append]
  cases message with
  | setEncodings padding encodings =>
      have rest := callBytes_encodingEvents padding encodings
      have head : callBytes (ClientMessage.setEncodings padding encodings).events
          = 4 + callBytes (ClientMessage.encodingEvents padding encodings) := rfl
      rw [head, rest]
      rfl
  | _ => rfl

theorem length_encode_messages (messages : List ClientMessage)
    : (messages.flatMap ClientMessage.encode).length
      = callBytes (messages.flatMap ClientMessage.events)
        + (messages.flatMap ClientMessage.text).length := by
  induction messages with
  | nil => rfl
  | cons message rest ih =>
      simp only [List.flatMap_cons, List.length_append, callBytes_append, ih, length_encode]
      omega

/-- Messages that are dispatched as themselves carry no text: all bytes are accounted for by
the calls they are due, so none is left for a text.
-/
theorem Dispatches.textless {react : Event → σ → UInt8 × σ} {s : Session σ}
    {messages : List ClientMessage} {pieces : List (List UInt8)} (boundary : s.msgDst = 0)
    (cut : ∀ piece ∈ pieces, IsPiece piece)
    (whole : pieces.flatten = messages.flatMap ClientMessage.encode)
    (dispatches : Dispatches react s messages pieces)
    : messages.flatMap ClientMessage.text = [] := by
  obtain ⟨s', fed, calls, boundary'⟩ := dispatches
  have refined := feed_refines (observing react) (Or.inl boundary) cut
  rw [fed, whole] at refined
  have empty : s.position.pending = [] := by rw [Session.position, boundary, slice_zero]
  have empty' : s'.position.pending = [] := by rw [Session.position, boundary', slice_zero]
  cases read : run (eat (observing react)) (messages.flatMap ClientMessage.encode) s.position with
  | error e p =>
      rw [read] at refined
      cases refined
  | ok done p =>
      rw [read] at refined
      cases refined with
      | ok here =>
          obtain ⟨_, rfl⟩ := here
          have counted := run_eat_accounted (Or.inl empty) read
          rw [Position.consumed, Position.consumed, empty, empty',
            length_encode_messages] at counted
          have all : callBytes s'.position.calls = callBytes s.calls
              + callBytes (messages.flatMap ClientMessage.events) := by
            rw [← callBytes_append, ← calls]
            rfl
          have none : callBytes s.position.calls = callBytes s.calls := rfl
          apply List.length_eq_zero_iff.mp
          omega

/-- A ClientCutText message and the messages behind it are dispatched as themselves exactly
when no text comes with any of them.
-/
theorem cutText_dispatches_iff (react : Event → σ → UInt8 × σ) (s : Session σ)
    (boundary : s.msgDst = 0) (padding : Padding) (text : List UInt8)
    (fits : text.length < 2 ^ 32) (messages : List ClientMessage)
    (wellFormed : ∀ message ∈ messages, message.WellFormed) (pieces : List (List UInt8))
    (cut : ∀ piece ∈ pieces, IsPiece piece)
    (whole
      : pieces.flatten
        = (ClientMessage.clientCutText padding text :: messages).flatMap ClientMessage.encode)
    : Dispatches react s (.clientCutText padding text :: messages) pieces
      ↔ text = [] ∧ ∀ message ∈ messages, message.text = [] := by
  constructor
  · intro dispatches
    have none := dispatches.textless boundary cut whole
    rw [List.flatMap_cons, List.append_eq_nil_iff, List.flatMap_eq_nil_iff] at none
    exact none
  · intro textlessAll
    rcases textlessAll with ⟨textless, later⟩
    refine dispatches_textless react boundary ?_ ?_ cut whole
    · exact List.forall_mem_cons.mpr ⟨fits, wellFormed⟩
    · exact List.forall_mem_cons.mpr ⟨textless, later⟩

theorem cutText_dispatches_iff_pointer
    : Dispatches (fun _ s => (0, s)) (.fresh ())
          [.clientCutText ⟨0, 0, 0⟩ [5], .pointerEvent 1 7 9]
          [[6, 0, 0, 0, 0, 0, 0, 1, 5, 5, 1, 0, 7, 0, 9]]
      ↔ ([5] : List UInt8) = []
        ∧ ∀ message ∈ [ClientMessage.pointerEvent 1 7 9], message.text = [] :=
  cutText_dispatches_iff (fun _ s => (0, s)) (.fresh ()) rfl ⟨0, 0, 0⟩ [5] (by decide)
    [.pointerEvent 1 7 9] (by decide) _ (by decide) (by decide)

/-- The calls made by the time the parser returns or stops. -/
def callsMade : EStateM.Result Stop (Session σ) Unit → List Event
  | .ok _ s => s.calls
  | .error _ s => s.calls

/-- Eight bytes of text that spell a key event are taken for one: the events of the message
itself are not what is dispatched.
-/
theorem cutText_taken_for_key
    : ¬Dispatches (fun _ s => (0, s)) (.fresh ())
        [.clientCutText ⟨0, 0, 0⟩ [4, 1, 0, 0, 0, 0, 0, 97]]
        [[6, 0, 0, 0, 0, 0, 0, 8, 4, 1, 0, 0, 0, 0, 0, 97]] := by
  intro dispatches
  rcases dispatches with ⟨s', fed, calls, _⟩
  have made
      : callsMade
          (feed (observing fun _ s => (0, s)) [[6, 0, 0, 0, 0, 0, 0, 8, 4, 1, 0, 0, 0, 0, 0, 97]]
            (.fresh ()))
        = [.clientCutText ⟨6, ⟨0, 0, 0⟩, 8⟩, .key ⟨4, 1, 0, 97⟩] := by
    decide +kernel
  rw [fed] at made
  have both : [Event.clientCutText ⟨6, ⟨0, 0, 0⟩, 8⟩, .key ⟨4, 1, 0, 97⟩]
      = [Event.clientCutText ⟨6, ⟨0, 0, 0⟩, 8⟩] := made.symm.trans calls
  exact absurd both (by decide)

end MiniVnc.Parser
