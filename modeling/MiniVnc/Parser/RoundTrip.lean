import MiniVnc.Parser.Segmentation
import MiniVnc.Parser.WireFormat

/-! Decoding undoes encoding: the bytes of a list of client messages are dispatched as those
messages, whatever pieces they arrive in.
-/

namespace MiniVnc.Parser
open Library.Memory Library.Stream

variable {σ : Type}

/-- From a message boundary the reader makes exactly the calls `due` on `bytes` and stops at
a message boundary again.
-/
def Reads (react : Event → σ → UInt8 × σ) (p : Position σ) (bytes : List UInt8)
    (due : List Event) : Prop :=
  ∃ p', run (eat (observing react)) bytes p = .ok () p' ∧ p'.pending = []
    ∧ p'.calls = p.calls ++ due

/-- Reading one message after another concatenates the calls. -/
theorem Reads.append {react : Event → σ → UInt8 × σ} {p : Position σ}
    {first rest : List UInt8} {due later : List Event} (head : Reads react p first due)
    (tail : ∀ p', p'.pending = [] → Reads react p' rest later)
    : Reads react p (first ++ rest) (due ++ later) := by
  obtain ⟨middle, read, boundary, calls⟩ := head
  obtain ⟨last, readRest, end_, callsRest⟩ := tail middle boundary
  refine ⟨last, ?_, end_, ?_⟩
  · rw [run_append_ok read, readRest]
  · rw [callsRest, calls, List.append_assoc]

/-- What the handlers do not reject as a pixel format. -/
def Accepted : Event → Prop
  | .setPixelFormat evt => evt.format.trueColour = 0 ∧ evt.format.depth = 8
  | _ => True

/-- Observing handlers return on every accepted message. -/
theorem observing_returns (react : Event → σ → UInt8 × σ) {event : Event}
    (accepted : Accepted event) (s : σ)
    : ∃ left after, observing react event s = .ok left after := by
  cases event with
  | setPixelFormat evt =>
      obtain ⟨mapped, depth⟩ := accepted
      have passes : (vncEvtSetPixelFormat evt : EStateM SessionError σ Unit) s = .ok () s := by
        simp [vncEvtSetPixelFormat, mapped, depth, pure, EStateM.pure]
      exact ⟨_, _, bind_ok passes⟩
  | _ => exact ⟨_, _, rfl⟩

/-- An accepted message is delivered and leaves its remainder pending. -/
theorem deliver_accepted (react : Event → σ → UInt8 × σ) (type : ClientMessageType)
    (message : List UInt8) (p : Position σ) {event : Event}
    (isEvent : eventOf type (load message) message.length = event) (accepted : Accepted event)
    : ∃ p', deliver (observing react) type message p = .ok () p'
        ∧ p'.pending = remainder type message ∧ p'.calls = p.calls ++ [event] := by
  obtain ⟨left, after, returns⟩ := observing_returns react accepted p.handlers
  refine ⟨⟨remainder type message, p.calls ++ [event], after⟩, ?_, rfl, rfl⟩
  simp only [deliver, isEvent, returns]

/-- A message that is one struct is read as that struct. -/
theorem reads_struct (react : Event → σ → UInt8 × σ) {p : Position σ}
    (boundary : p.pending = []) (type : ClientMessageType) {bytes rest : List UInt8}
    {event : Event} (fixed : type ≠ .mSetEncodings) (starts : bytes = type.code :: rest)
    (complete : bytes.length = type.sizeof)
    (isEvent : eventOf type (load bytes) bytes.length = event) (accepted : Accepted event)
    : Reads react p bytes [event] := by
  obtain ⟨p', delivered, pending, calls⟩ :=
    deliver_accepted react type bytes p isEvent accepted
  refine ⟨p', ?_, ?_, calls⟩
  · subst starts
    rw [run_eat_message _ boundary (ClientMessageType.ofCode?_code type) complete, delivered]
  · rw [pending]
    cases type <;> first | rfl | exact absurd rfl fixed

/-- A count that fits its field is zero in the field only when it is zero. -/
theorem ofNat_ne_zero {count : Nat} (fits : count < 2 ^ 16) (due : count ≠ 0)
    : UInt16.ofNat count ≠ 0 := by
  intro zero
  have value := congrArg UInt16.toNat zero
  rw [UInt16.toNat_ofNat', Nat.mod_eq_of_lt fits] at value
  exact due value

/-- The head of a SetEncodings message, alone or with an encoding behind it, holds the
count.
-/
theorem numberOfEncodings_head (padding : UInt8) (count : Nat) (more : List UInt8)
    : numberOfEncodings (load ((encodingsHead padding count).bytes ++ more))
      = UInt16.ofNat count :=
  ushortAt_eq rfl rfl

/-- The head that stays pending once the count in it is `count`. -/
theorem slice_nextFragment {mem : Mem} {padding : UInt8} {count : Nat} (fits : count < 2 ^ 16)
    (head : slice mem 0 4 = (encodingsHead padding count).bytes)
    : slice mem 0 (nextFragment mem)
      = if count = 0 then [] else (encodingsHead padding count).bytes := by
  have bytes : ∀ k < 4, mem k = load (encodingsHead padding count).bytes k := by
    intro k hk
    rw [← head, load_slice hk, Nat.zero_add]
  have held : numberOfEncodings mem = UInt16.ofNat count := by
    rw [numberOfEncodings_congr bytes]
    exact ushortAt_eq rfl rfl
  rw [nextFragment, held]
  by_cases none : count = 0
  · subst none
    rfl
  · rw [if_pos (ofNat_ne_zero fits none), if_neg none, head]

/-- A fragment leaves its head with a count one lower. -/
theorem countDown_fragment (padding : UInt8) (count : Nat) (encoding : UInt32)
    : slice
        (countDown (load ((encodingsHead padding (count + 1)).bytes ++ ulongBytes encoding))
          sizeofVNCSetEncodingOne) 0 4
      = (encodingsHead padding count).bytes := by
  have less : UInt16.ofNat (count + 1) - 1 = UInt16.ofNat count := by
    rw [UInt16.ofNat_add, show UInt16.ofNat 1 = 1 from rfl, UInt16.add_sub_cancel]
  rw [countDown, if_pos rfl, numberOfEncodings_head, less]
  rfl

/-- With encodings due, the message in progress is an eight-byte fragment. -/
theorem messageSize?_encodings (padding : UInt8) {count : Nat} (fits : count < 2 ^ 16)
    (due : count ≠ 0)
    : messageSize? (encodingsHead padding count).bytes = some sizeofVNCSetEncodingOne := by
  refine msgSize?_eq_some.mpr ⟨.mSetEncodings, rfl, ?_⟩
  have held := numberOfEncodings_head padding count []
  rw [List.append_nil] at held
  rw [if_pos rfl, vncMsgEncodingfragsize, held, if_pos ⟨Nat.le_refl 4, ofNat_ne_zero fits due⟩]

/-- The encodings that are due are read one a fragment, by induction on them: each fragment
takes one off the count in the head, and the last one ends the message.
-/
theorem reads_encodings (react : Event → σ → UInt8 × σ) {p : Position σ} (padding : UInt8)
    (encodings : List UInt32) (fits : encodings.length < 2 ^ 16)
    (waiting
      : p.pending
        = if encodings.length = 0 then []
          else (encodingsHead padding encodings.length).bytes)
    : Reads react p (encodings.flatMap ulongBytes)
        (ClientMessage.encodingEvents padding encodings) := by
  induction encodings generalizing p with
  | nil => exact ⟨p, rfl, by simpa using waiting, by simp [ClientMessage.encodingEvents]⟩
  | cons encoding rest ih =>
      simp only [List.length_cons] at fits waiting
      rw [if_neg (Nat.succ_ne_zero _)] at waiting
      have started : p.pending ≠ [] := by simp [waiting, VNCSetEncoding.bytes]
      have size : messageSize? p.pending = some sizeofVNCSetEncodingOne := by
        rw [waiting, messageSize?_encodings padding fits (Nat.succ_ne_zero _)]
      obtain ⟨type, known, read⟩ :=
        run_eat_complete (observing react) started size
          (show ulongBytes encoding ≠ [] by simp [ulongBytes]) (by rw [waiting]; rfl)
      rw [waiting] at known read
      have typed : type = .mSetEncodings := (Option.some.inj known).symm
      subst typed
      have isEvent
          : eventOf .mSetEncodings
              (load ((encodingsHead padding (rest.length + 1)).bytes ++ ulongBytes encoding))
              ((encodingsHead padding (rest.length + 1)).bytes ++ ulongBytes encoding).length
            = .setEncodingOne
                ⟨ClientMessageType.mSetEncodings.code, padding,
                  UInt16.ofNat (rest.length + 1), encoding⟩ := by
        refine congrArg Event.setEncodingOne ?_
        simp only [VNCSetEncodingOne.at, VNCSetEncodingOne.mk.injEq]
        exact ⟨rfl, rfl, ushortAt_eq rfl rfl, ulongAt_eq rfl rfl rfl rfl⟩
      obtain ⟨middle, delivered, pending, calls⟩ :=
        deliver_accepted react .mSetEncodings _ p isEvent trivial
      have left : middle.pending
          = if rest.length = 0 then [] else (encodingsHead padding rest.length).bytes := by
        rw [pending]
        exact slice_nextFragment (Nat.lt_of_succ_lt fits)
          (countDown_fragment padding rest.length encoding)
      obtain ⟨last, readRest, boundary, callsRest⟩ := ih (Nat.lt_of_succ_lt fits) left
      refine ⟨last, ?_, boundary, ?_⟩
      · rw [List.flatMap_cons, run_append_ok (read.trans delivered), readRest]
      · rw [callsRest, calls, List.append_assoc, ClientMessage.encodingEvents]
        rfl

-----------------------------------------------------------------------------------------
-- Messages
-----------------------------------------------------------------------------------------

/-- Every well-formed message without cut text is read as itself. -/
theorem reads_message (react : Event → σ → UInt8 × σ) {p : Position σ}
    (boundary : p.pending = []) {message : ClientMessage} (wellFormed : message.WellFormed)
    (textless : message.text = [])
    : Reads react p message.encode message.events := by
  cases message with
  | setPixelFormat padding format =>
      simp only [ClientMessage.encode, ClientMessage.payload, List.append_nil]
      exact reads_struct react boundary .mSetPixelFormat (by decide) rfl rfl
        (congrArg Event.setPixelFormat (VNCSetPixFormat.at_bytes _)) wellFormed
  | fbUpdateRequest incremental rect =>
      simp only [ClientMessage.encode, ClientMessage.payload, List.append_nil]
      exact reads_struct react boundary .mFBUpdateRequest (by decide) rfl rfl
        (congrArg Event.updateRequest (VNCFBUpdateReq.at_bytes _)) trivial
  | keyEvent down padding key =>
      simp only [ClientMessage.encode, ClientMessage.payload, List.append_nil]
      exact reads_struct react boundary .mKeyEvent (by decide) rfl rfl
        (congrArg Event.key (VNCKeyEvent.at_bytes _)) trivial
  | pointerEvent btnMask x y =>
      simp only [ClientMessage.encode, ClientMessage.payload, List.append_nil]
      exact reads_struct react boundary .mPointerEvent (by decide) rfl rfl
        (congrArg Event.pointer (VNCPointerEvent.at_bytes _)) trivial
  | clientCutText padding text =>
      have empty : text = [] := textless
      subst empty
      simp only [ClientMessage.encode, ClientMessage.payload, List.append_nil]
      exact reads_struct react boundary .mClientCutText (by decide) rfl rfl
        (congrArg Event.clientCutText (VNCClientCutText.at_bytes _)) trivial
  | setEncodings padding encodings =>
      obtain ⟨middle, delivered, pending, calls⟩ :=
        deliver_accepted react .mSetEncodings (encodingsHead padding encodings.length).bytes p
          (congrArg Event.setEncoding
            (VNCSetEncoding.at_bytes (encodingsHead padding encodings.length)))
          trivial
      have left : middle.pending
          = if encodings.length = 0 then []
            else (encodingsHead padding encodings.length).bytes := by
        rw [pending]
        exact slice_nextFragment wellFormed rfl
      have read : run (eat (observing react)) (encodingsHead padding encodings.length).bytes p
          = .ok () middle := by
        rw [← delivered]
        exact run_eat_message _ boundary rfl rfl
      obtain ⟨last, readRest, end_, callsRest⟩ :=
        reads_encodings react padding encodings wellFormed left
      refine ⟨last, ?_, end_, ?_⟩
      · rw [ClientMessage.encode, ClientMessage.head, run_append_ok read]
        exact readRest
      · rw [callsRest, calls, List.append_assoc]
        rfl

/-- A list of them is read as the list, by induction on it. -/
theorem reads_messages (react : Event → σ → UInt8 × σ) {p : Position σ}
    (boundary : p.pending = []) {messages : List ClientMessage}
    (wellFormed : ∀ message ∈ messages, message.WellFormed)
    (textless : ∀ message ∈ messages, message.text = [])
    : Reads react p (messages.flatMap ClientMessage.encode)
        (messages.flatMap ClientMessage.events) := by
  induction messages generalizing p with
  | nil => exact ⟨p, rfl, boundary, by simp⟩
  | cons message rest ih =>
      rw [List.flatMap_cons, List.flatMap_cons]
      refine Reads.append
        (reads_message react boundary (wellFormed message (by simp))
          (textless message (by simp))) ?_
      intro p' boundary'
      exact ih boundary' (fun m hm => wellFormed m (by simp [hm]))
        (fun m hm => textless m (by simp [hm]))

/-- Fed in `pieces`, the parser makes exactly the calls the messages are due, raises no
error and ends at a message boundary.
-/
def Dispatches (react : Event → σ → UInt8 × σ) (s : Session σ) (messages : List ClientMessage)
    (pieces : List (List UInt8))
    : Prop :=
  ∃ s', feed (observing react) pieces s = .ok () s'
    ∧ s'.calls = s.calls ++ messages.flatMap ClientMessage.events
    ∧ s'.msgDst = 0

/-- What the reader does with a cut stream, the parser does. -/
theorem feed_of_reads (react : Event → σ → UInt8 × σ) {s : Session σ} (boundary : s.msgDst = 0)
    {pieces : List (List UInt8)} (cut : ∀ piece ∈ pieces, IsPiece piece) {due : List Event}
    (reads : Reads react s.position pieces.flatten due)
    : ∃ s', feed (observing react) pieces s = .ok () s' ∧ s'.calls = s.calls ++ due
        ∧ s'.msgDst = 0 := by
  obtain ⟨p', read, empty, calls⟩ := reads
  have refined := feed_refines (observing react) (Or.inl boundary) cut
  rw [read] at refined
  cases fed : feed (observing react) pieces s with
  | error e s' =>
      rw [fed] at refined
      cases refined
  | ok done s' =>
      rw [fed] at refined
      cases refined with
      | ok here =>
          obtain ⟨_, rfl⟩ := here
          refine ⟨s', rfl, calls, ?_⟩
          simpa only [Session.position, slice_length, List.length_nil]
            using congrArg List.length empty

theorem dispatches_textless (react : Event → σ → UInt8 × σ) {s : Session σ}
    (boundary : s.msgDst = 0) {messages : List ClientMessage}
    (wellFormed : ∀ message ∈ messages, message.WellFormed)
    (textless : ∀ message ∈ messages, message.text = []) {pieces : List (List UInt8)}
    (cut : ∀ piece ∈ pieces, IsPiece piece)
    (whole : pieces.flatten = messages.flatMap ClientMessage.encode)
    : Dispatches react s messages pieces := by
  refine feed_of_reads react boundary cut ?_
  rw [whole]
  refine reads_messages react ?_ wellFormed textless
  rw [Session.position, boundary, slice_zero]

/-- At a message boundary, the bytes of any well-formed messages other than cut text are
dispatched as exactly those messages, with their field values, one call an encoding.
-/
theorem feed_encode_dispatches (react : Event → σ → UInt8 × σ) (s : Session σ)
    (boundary : s.msgDst = 0) (messages : List ClientMessage)
    (wellFormed : ∀ message ∈ messages, message.WellFormed)
    (noCutText : ∀ message ∈ messages, ¬message.IsCutText) (pieces : List (List UInt8))
    (cut : ∀ piece ∈ pieces, IsPiece piece)
    (whole : pieces.flatten = messages.flatMap ClientMessage.encode)
    : Dispatches react s messages pieces := by
  refine dispatches_textless react boundary wellFormed ?_ cut whole
  intro message member
  cases message with
  | clientCutText padding text => exact absurd trivial (noCutText _ member)
  | _ => rfl

/-- Messages of all five types, two encodings among them. -/
def sampleMessages : List ClientMessage :=
  [.setPixelFormat ⟨0, 0, 0⟩ ⟨8, 8, 1, 0, 0, 0, 0, 0, 0, 0, ⟨0, 0, 0⟩⟩,
    .setEncodings 0 [0, 0xffffff21], .fbUpdateRequest 1 ⟨0, 0, 640, 480⟩, .keyEvent 1 0 0x61,
    .pointerEvent 1 7 9]

theorem feed_encode_dispatches_sample
    : Dispatches (fun _ s => (0, s)) (.fresh ()) sampleMessages
        [sampleMessages.flatMap ClientMessage.encode] :=
  feed_encode_dispatches (fun _ s => (0, s)) (.fresh ()) rfl sampleMessages (by decide)
    (by simp [sampleMessages, ClientMessage.IsCutText]) _ (by decide) (by simp)

end MiniVnc.Parser
