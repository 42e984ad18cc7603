import MiniVnc.Library.Reading
import MiniVnc.Parser.Calls

/-! The streams that the parser reads to their end: exactly the messages of the six types one after
another, of which a cut text is the struct alone, whatever length of text it announces.
-/

namespace MiniVnc.Parser
open Library.Memory Library.Reading Library.Stream

variable {σ : Type}

namespace ClientMessage

/-- The bytes that the parser takes for a message; it does not know the text of a cut text. -/
def taken : ClientMessage → List UInt8
  | clientCutText padding text => (clientCutText padding text).head
  | message => message.encode

/-- The counts and lengths fit their fields. -/
def Fits : ClientMessage → Prop
  | setEncodings _ encodings => encodings.length < 2 ^ 16
  | clientCutText _ text => text.length < 2 ^ 32
  | _ => True

def type : ClientMessage → ClientMessageType
  | setPixelFormat .. => .mSetPixelFormat
  | setEncodings .. => .mSetEncodings
  | fbUpdateRequest .. => .mFBUpdateRequest
  | keyEvent .. => .mKeyEvent
  | pointerEvent .. => .mPointerEvent
  | clientCutText .. => .mClientCutText

theorem taken_cons (message : ClientMessage)
    : ∃ rest, message.taken = message.type.code :: rest := by
  cases message <;> exact ⟨_, rfl⟩

theorem taken_ne_nil (message : ClientMessage) : message.taken ≠ [] := by
  obtain ⟨rest, cons⟩ := message.taken_cons
  rw [cons]
  exact List.cons_ne_nil _ _

/-- A message that is not a list of encodings is one struct. -/
theorem length_taken {message : ClientMessage} (fixed : message.type ≠ .mSetEncodings)
    : message.taken.length = message.type.sizeof := by
  cases message with
  | setEncodings padding encodings => exact absurd rfl fixed
  | _ => rfl

theorem taken_setEncodings (padding : UInt8) (encodings : List UInt32)
    : (setEncodings padding encodings).taken
      = (encodingsHead padding encodings.length).bytes ++ encodings.flatMap ulongBytes :=
  rfl

/-- A struct is handed over as itself. -/
theorem eventOf_taken {message : ClientMessage} (fixed : message.type ≠ .mSetEncodings)
    : ∃ event, message.events = [event]
        ∧ eventOf message.type (load message.taken) message.taken.length = event := by
  cases message with
  | setEncodings padding encodings => exact absurd rfl fixed
  | setPixelFormat padding format =>
      exact ⟨_, rfl, congrArg Event.setPixelFormat (VNCSetPixFormat.at_bytes _)⟩
  | fbUpdateRequest incremental rect =>
      exact ⟨_, rfl, congrArg Event.updateRequest (VNCFBUpdateReq.at_bytes _)⟩
  | keyEvent down padding key =>
      exact ⟨_, rfl, congrArg Event.key (VNCKeyEvent.at_bytes _)⟩
  | pointerEvent btnMask x y =>
      exact ⟨_, rfl, congrArg Event.pointer (VNCPointerEvent.at_bytes _)⟩
  | clientCutText padding text =>
      exact ⟨_, rfl, congrArg Event.clientCutText (VNCClientCutText.at_bytes _)⟩

end ClientMessage

-----------------------------------------------------------------------------------------
-- A message starts wherever its type does
-----------------------------------------------------------------------------------------

section BytesAt

variable (mem : Mem) (p : Nat)

theorem ushortBytes_at : ushortBytes (ushortAt mem p) = [mem p, mem (p + 1)] := by
  have word : (ushortAt mem p).toNat = read mem p 2 := by
    rw [ushortAt, UInt16.toNat_ofNat']
    exact Nat.mod_eq_of_lt (read_lt mem p 2)
  rw [ushortBytes, word, byteOf_read mem p 2 0 (by omega), byteOf_read mem p 2 1 (by omega)]
  rfl

theorem ulongBytes_at : ulongBytes (ulongAt mem p) = slice mem p 4 := by
  have word : (ulongAt mem p).toNat = read mem p 4 := by
    rw [ulongAt, UInt32.toNat_ofNat']
    exact Nat.mod_eq_of_lt (read_lt mem p 4)
  rw [ulongBytes, word, byteOf_read mem p 4 0 (by omega), byteOf_read mem p 4 1 (by omega),
    byteOf_read mem p 4 2 (by omega), byteOf_read mem p 4 3 (by omega)]
  rfl

end BytesAt

/-- The message of a type whose bytes a block starts with. -/
def messageAt (mem : Mem) : ClientMessageType → ClientMessage
  | .mSetPixelFormat => .setPixelFormat (.at mem 1) (.at mem 4)
  | .mSetEncodings =>
      .setEncodings (mem 1)
        ((List.range (numberOfEncodings mem).toNat).map fun k => ulongAt mem (4 + k * 4))
  | .mFBUpdateRequest => .fbUpdateRequest (mem 1) (.at mem 2)
  | .mKeyEvent => .keyEvent (mem 1) (ushortAt mem 2) (ulongAt mem 4)
  | .mPointerEvent => .pointerEvent (mem 1) (ushortAt mem 2) (ushortAt mem 4)
  | .mClientCutText => .clientCutText (.at mem 1) (List.replicate (ulongAt mem 4).toNat 0)

theorem messageAt_fits (mem : Mem) (type : ClientMessageType) : (messageAt mem type).Fits := by
  cases type with
  | mSetEncodings =>
      simpa only [messageAt, ClientMessage.Fits, List.length_map, List.length_range]
        using (numberOfEncodings mem).toNat_lt
  | mClientCutText =>
      simpa only [messageAt, ClientMessage.Fits, List.length_replicate]
        using (ulongAt mem 4).toNat_lt
  | _ => trivial

/-- Writing that message out gives the bytes back. -/
theorem taken_messageAt {mem : Mem} {type : ClientMessageType} (coded : mem 0 = type.code)
    : ∃ count, (messageAt mem type).taken = slice mem 0 count := by
  cases type with
  | mSetPixelFormat =>
      refine ⟨20, ?_⟩
      simp only [messageAt, ClientMessage.taken, ClientMessage.encode, ClientMessage.head,
        ClientMessage.payload, VNCSetPixFormat.bytes, VNCPixelFormat.bytes, VNCPixelFormat.at,
        ushortBytes_at, ← coded]
      rfl
  | mSetEncodings =>
      refine ⟨4 + (numberOfEncodings mem).toNat * 4, ?_⟩
      have count : UInt16.ofNat (numberOfEncodings mem).toNat = ushortAt mem 2 :=
        UInt16.ofNat_toNat
      rw [messageAt, ClientMessage.taken_setEncodings, slice_add, slice_mul]
      congr 1
      · rw [List.length_map, List.length_range, VNCSetEncoding.bytes, encodingsHead, count,
          ushortBytes_at, ← coded]
        rfl
      · simp only [List.flatMap_map, ulongBytes_at, Nat.zero_add]
  | mFBUpdateRequest =>
      refine ⟨10, ?_⟩
      simp only [messageAt, ClientMessage.taken, ClientMessage.encode, ClientMessage.head,
        ClientMessage.payload, VNCFBUpdateReq.bytes, VNCRect.bytes, VNCRect.at, ushortBytes_at,
        ← coded]
      rfl
  | mKeyEvent =>
      refine ⟨8, ?_⟩
      simp only [messageAt, ClientMessage.taken, ClientMessage.encode, ClientMessage.head,
        ClientMessage.payload, VNCKeyEvent.bytes, ushortBytes_at, ulongBytes_at, ← coded]
      rfl
  | mPointerEvent =>
      refine ⟨6, ?_⟩
      simp only [messageAt, ClientMessage.taken, ClientMessage.encode, ClientMessage.head,
        ClientMessage.payload, VNCPointerEvent.bytes, ushortBytes_at, ← coded]
      rfl
  | mClientCutText =>
      refine ⟨8, ?_⟩
      simp only [messageAt, ClientMessage.taken, ClientMessage.head, VNCClientCutText.bytes,
        List.length_replicate, UInt32.ofNat_toNat, ulongBytes_at, ← coded]
      rfl

/-- A front of a message, but not all of it. -/
def Unfinished (bytes : List UInt8) : Prop :=
  ∃ message : ClientMessage, message.Fits ∧ bytes <+: message.taken ∧ bytes ≠ message.taken

/-- A byte that is no message type, with whatever comes behind it. -/
def Unknown (bytes : List UInt8) : Prop :=
  ∃ code rest, bytes = code :: rest ∧ ClientMessageType.ofCode? code = none

/-- A list and a slice of the block that it starts are fronts of one another. -/
theorem slice_load (bytes : List UInt8) (count : Nat)
    : slice (load bytes) 0 count <+: bytes ∨ bytes <+: slice (load bytes) 0 count := by
  have whole : slice (load bytes) 0 bytes.length = bytes := by
    apply List.ext_getElem (by simp)
    intro k hk inside
    rw [slice_getElem, Nat.zero_add, load]
    simp [inside]
  rcases Nat.le_total count bytes.length with shorter | longer
  · obtain ⟨rest, split⟩ := Nat.exists_eq_add_of_le shorter
    rw [split, slice_add] at whole
    exact Or.inl ⟨_, whole⟩
  · obtain ⟨rest, rfl⟩ := Nat.exists_eq_add_of_le longer
    rw [slice_add, whole]
    exact Or.inr (List.prefix_append _ _)

/-- A stream starts with a message, with a part of one, or with an unknown type. -/
theorem starts_message (bytes : List UInt8) (stuck : ¬(Unfinished bytes ∨ Unknown bytes))
    : ∃ message : ClientMessage, ∃ rest, message.Fits ∧ message.taken ≠ []
        ∧ bytes = message.taken ++ rest := by
  rw [not_or] at stuck
  obtain ⟨finished, known_⟩ := stuck
  cases bytes with
  | nil =>
      exact absurd ⟨.pointerEvent 0 0 0, trivial, List.nil_prefix, nofun⟩ finished
  | cons code rest =>
      cases known : ClientMessageType.ofCode? code with
      | none => exact absurd ⟨code, rest, rfl, known⟩ known_
      | some type =>
          have coded : load (code :: rest) 0 = type.code := ClientMessageType.code_of_ofCode? known
          obtain ⟨count, taken⟩ := taken_messageAt coded
          have fits := messageAt_fits (load (code :: rest)) type
          have either := slice_load (code :: rest) count
          rw [← taken] at either
          rcases either with ⟨later, whole⟩ | part
          · exact ⟨_, later, fits, ClientMessage.taken_ne_nil _, whole.symm⟩
          · by_cases all : code :: rest = (messageAt (load (code :: rest)) type).taken
            · exact ⟨_, [], fits, ClientMessage.taken_ne_nil _, by rw [List.append_nil, ← all]⟩
            · exact absurd ⟨_, fits, part, all⟩ finished

/-- Every stream is messages up to a place where one is unfinished or its type unknown. -/
theorem exists_taken (bytes : List UInt8)
    : ∃ (messages : List ClientMessage) (rest : List UInt8), (∀ message ∈ messages, message.Fits)
        ∧ bytes = messages.flatMap ClientMessage.taken ++ rest
        ∧ (Unfinished rest ∨ Unknown rest) :=
  exists_messages starts_message bytes

-----------------------------------------------------------------------------------------
-- What the reader does with them
-----------------------------------------------------------------------------------------

/-- The calls `due` are made in turn: to the last of them, and then a message can start, or to the
first that ends the session.
-/
abbrev Hears (handle : Handler σ) (p : Position σ) (due : List Event)
    : EStateM.Result SessionError (Position σ) Unit → Prop :=
  Meets
    (fun _ p' => p'.pending = [] ∧ p'.calls = p.calls ++ due
      ∧ run (call handle) due p.handlers = .ok () p'.handlers)
    (fun e p' => p'.calls <+: p.calls ++ due
      ∧ run (call handle) due p.handlers = .error e p'.handlers)

/-- A complete message is handed over, whatever its handler does. -/
theorem deliver_meets (handle : Handler σ) (type : ClientMessageType) (message : List UInt8)
    (p : Position σ) {event : Event} (isEvent : eventOf type (load message) message.length = event)
    : Meets
        (fun _ p' => p'.pending = remainder type message ∧ p'.calls = p.calls ++ [event]
          ∧ call handle event p.handlers = .ok () p'.handlers)
        (fun e p' => p'.calls = p.calls ++ [event]
          ∧ call handle event p.handlers = .error e p'.handlers)
        (deliver handle type message p) := by
  simp only [deliver, isEvent]
  cases called : handle event p.handlers with
  | ok left after => exact .ok ⟨rfl, rfl, bind_ok called⟩
  | error e after => exact .error ⟨rfl, bind_error called⟩

section Hears

variable {handle : Handler σ} {p : Position σ} {due : List Event} {after : σ}
variable {result : EStateM.Result SessionError (Position σ) Unit}

/-- Messages whose calls return are read to their end. -/
theorem Hears.returned (hears : Hears handle p due result)
    (handled : run (call handle) due p.handlers = .ok () after)
    : ∃ p', result = .ok () p' ∧ p'.pending = [] ∧ p'.calls = p.calls ++ due
        ∧ p'.handlers = after := by
  cases hears with
  | ok heard =>
      obtain ⟨boundary, calls, handled'⟩ := heard
      rw [handled] at handled'
      cases handled'
      exact ⟨_, rfl, boundary, calls, rfl⟩
  | error heard => cases handled.symm.trans heard.2

/-- A call that raises stops the reader. -/
theorem Hears.stopped (hears : Hears handle p due result) {e : SessionError}
    (raised : run (call handle) due p.handlers = .error e after)
    : ∃ p', result = .error e p' := by
  cases hears with
  | ok heard => cases raised.symm.trans heard.2.2
  | error heard =>
      have same := heard.2
      rw [raised] at same
      cases same
      exact ⟨_, rfl⟩

end Hears

/-- One message makes the calls that it is due. -/
theorem run_eat_taken (handle : Handler σ) {p : Position σ} (boundary : p.pending = [])
    {message : ClientMessage} (fits : message.Fits)
    : Hears handle p message.events (run (eat handle) message.taken p) := by
  by_cases fixed : message.type = .mSetEncodings
  · cases message with
    | setEncodings padding encodings =>
        have meets := @run_eat_encode σ handle p boundary [.setEncodings padding encodings]
          (List.forall_mem_singleton.mpr fits) (List.forall_mem_singleton.mpr rfl)
        rw [List.flatMap_singleton, List.flatMap_singleton] at meets
        exact meets
    | _ => cases fixed
  · obtain ⟨rest, cons⟩ := message.taken_cons
    obtain ⟨event, due, isEvent⟩ := ClientMessage.eventOf_taken fixed
    have complete := ClientMessage.length_taken fixed
    have nothing : remainder message.type message.taken = [] := by
      unfold remainder
      split
      · rename_i same
        exact absurd same fixed
      · rfl
    have delivered := deliver_meets handle message.type message.taken p isEvent
    rw [cons] at complete delivered nothing ⊢
    rw [run_eat_message handle boundary (ClientMessageType.ofCode?_code message.type) complete, due]
    refine delivered.weaken ?_ ?_
    · rintro _ p' ⟨pending, calls, called⟩
      exact ⟨pending.trans nothing, calls, (run_singleton _ _ _).trans called⟩
    · rintro e p' ⟨calls, called⟩
      exact ⟨calls ▸ List.prefix_rfl, (run_singleton _ _ _).trans called⟩

/-- Messages make the calls that they are due in turn, by induction on them. -/
theorem run_eat_messages (handle : Handler σ) {p : Position σ} (boundary : p.pending = [])
    {messages : List ClientMessage} (fits : ∀ message ∈ messages, message.Fits)
    : Hears handle p (messages.flatMap ClientMessage.events)
        (run (eat handle) (messages.flatMap ClientMessage.taken) p) := by
  induction messages generalizing p with
  | nil => exact .ok ⟨boundary, by simp, rfl⟩
  | cons message messages ih =>
      obtain ⟨fit, fits⟩ := List.forall_mem_cons.mp fits
      rw [List.flatMap_cons, List.flatMap_cons, run_append]
      refine Meets.bind ((run_eat_taken handle boundary fit).weaken (fun _ _ heard => heard) ?_) ?_
      · rintro e p' ⟨front, raised⟩
        refine ⟨?_, by rw [run_append, bind_error raised]⟩
        rw [← List.append_assoc]
        exact front.trans (List.prefix_append _ _)
      · rintro _ middle _ ⟨boundary', calls, handled⟩
        refine (ih boundary' fits).weaken ?_ ?_
        · rintro _ p' ⟨end_, calls', handled'⟩
          refine ⟨end_, ?_, (run_append_ok handled _).trans handled'⟩
          rw [calls', calls, List.append_assoc]
        · rintro e p' ⟨front, raised⟩
          refine ⟨?_, (run_append_ok handled _).trans raised⟩
          rwa [calls, List.append_assoc] at front

/-- The calls that are made in the middle of a message. -/
def Event.IsEncoding : Event → Prop
  | .setEncoding _ | .setEncodingOne _ => True
  | _ => False

theorem eventOf_isEncoding (mem : Mem) (count : Nat)
    : (eventOf .mSetEncodings mem count).IsEncoding := by
  unfold eventOf
  dsimp only
  split <;> trivial

/-- A list of encodings makes no other calls, by induction on it. -/
theorem events_isEncoding (padding : UInt8) (encodings : List UInt32) {event : Event}
    (member : event ∈ (ClientMessage.setEncodings padding encodings).events)
    : event.IsEncoding := by
  have later : ∀ rest, event ∈ ClientMessage.encodingEvents padding rest → event.IsEncoding := by
    intro rest
    induction rest with
    | nil => exact fun none => absurd none List.not_mem_nil
    | cons encoding rest ih =>
        intro member
        rcases List.mem_cons.mp member with rfl | member
        · trivial
        · exact ih member
  rcases List.mem_cons.mp member with rfl | member
  · trivial
  · exact later encodings member

/-- The reader waits for more of a message, unless the handler of an encoding ends the session. -/
abbrev Waits (handle : Handler σ)
    : EStateM.Result SessionError (Position σ) Unit → Prop :=
  Meets (fun _ p' => p'.pending ≠ [])
    (fun e _ => ∃ event s s', event.IsEncoding ∧ call handle event s = .error e s')

/-- What is behind the same head is a front of the rest, but not all of it, and so the rest is not
empty.
-/
theorem front_of_append {head more rest : List UInt8} (front : head ++ more <+: head ++ rest)
    (proper : head ++ more ≠ head ++ rest)
    : more <+: rest ∧ more ≠ rest ∧ rest ≠ [] := by
  have front' := (List.prefix_append_right_inj head).mp front
  have proper' : more ≠ rest := fun all => proper (by rw [all])
  refine ⟨front', proper', ?_⟩
  rintro rfl
  exact proper' (List.prefix_nil.mp front')

/-- Behind the call with an encoding the reader waits if it does so from what the call leaves. -/
theorem waits_append {handle : Handler σ} {p : Position σ} {first more message : List UInt8}
    (read : run (eat handle) first p = deliver handle .mSetEncodings message p)
    (later
      : ∀ middle : Position σ, middle.pending = remainder .mSetEncodings message →
          Waits handle (run (eat handle) more middle))
    : Waits handle (run (eat handle) (first ++ more) p) := by
  have delivered := deliver_meets handle .mSetEncodings message p rfl
  rw [← read] at delivered
  rw [run_append]
  refine Meets.bind (delivered.weaken (fun _ _ handed => handed) ?_) ?_
  · rintro e p' ⟨_, raised⟩
    exact ⟨_, _, _, eventOf_isEncoding _ _, raised⟩
  · rintro _ middle _ ⟨pending, _, _⟩
    exact later middle pending

/-- With fewer bytes than the encodings that are due the reader waits. By induction on these: four
bytes are handed over, and fewer are kept.
-/
theorem run_eat_some_encodings (handle : Handler σ) {p : Position σ} (padding : UInt8)
    (encodings : List UInt32) (fits : encodings.length < 2 ^ 16)
    (waiting : p.pending = (encodingsHead padding encodings.length).bytes) {part : List UInt8}
    (front : part <+: encodings.flatMap ulongBytes)
    (proper : part ≠ encodings.flatMap ulongBytes)
    : Waits handle (run (eat handle) part p) := by
  induction encodings generalizing p part with
  | nil => exact absurd (List.prefix_nil.mp front) proper
  | cons encoding rest ih =>
      simp only [List.length_cons] at fits waiting
      have started : p.pending ≠ [] := by simp [waiting, VNCSetEncoding.bytes]
      have size : messageSize? p.pending = some sizeofVNCSetEncodingOne := by
        rw [waiting, messageSize?_encodings padding fits (Nat.succ_ne_zero _)]
      have four : p.pending.length = 4 := by
        rw [waiting]
        rfl
      rw [List.flatMap_cons] at front proper
      by_cases short : part.length < 4
      · have incomplete : p.pending.length + part.length < sizeofVNCSetEncodingOne := by
          rw [four, sizeofVNCSetEncodingOne]
          omega
        rw [run_eat_incomplete handle started size incomplete]
        exact .ok (by simp [started])
      · obtain ⟨more, rfl⟩ : ulongBytes encoding <+: part :=
          List.prefix_of_prefix_length_le (List.prefix_append _ _) front
            (Nat.le_of_not_lt short)
        obtain ⟨front', proper', due⟩ := front_of_append front proper
        have some_ : rest.length ≠ 0 := fun none =>
          due (by rw [List.length_eq_zero_iff.mp none, List.flatMap_nil])
        obtain ⟨type, known, read⟩ :=
          run_eat_complete handle started size
            (show ulongBytes encoding ≠ [] by simp [ulongBytes]) (by rw [four]; rfl)
        rw [waiting] at known read
        have typed : type = .mSetEncodings := (Option.some.inj known).symm
        subst typed
        refine waits_append read fun middle pending => ?_
        refine ih (Nat.lt_of_succ_lt fits) ?_ front' proper'
        have left := slice_nextFragment (Nat.lt_of_succ_lt fits)
          (countDown_fragment padding rest.length encoding)
        rw [if_neg some_] at left
        exact pending.trans left

/-- In the middle of a message the reader waits. -/
theorem run_eat_unfinished (handle : Handler σ) {p : Position σ} (boundary : p.pending = [])
    {bytes : List UInt8} (some_ : bytes ≠ []) (unfinished : Unfinished bytes)
    : Waits handle (run (eat handle) bytes p) := by
  obtain ⟨message, fits, front, proper⟩ := unfinished
  obtain ⟨struct_, cons⟩ := message.taken_cons
  by_cases short : bytes.length < message.type.sizeof
  · -- less than the struct that starts the message
    cases bytes with
    | nil => exact absurd rfl some_
    | cons code more =>
        rw [cons, List.cons_prefix_cons] at front
        obtain ⟨rfl, _⟩ := front
        have known := ClientMessageType.ofCode?_code message.type
        rw [run, bind_ok (eat_start handle boundary known),
          @run_eat_incomplete σ handle { p with pending := [message.type.code] } _ more (by simp)
            (messageSize?_start known) (by simpa [Nat.add_comm] using short)]
        exact .ok (by simp)
  · by_cases fixed : message.type = .mSetEncodings
    · cases message with
      | setEncodings padding encodings =>
          rw [ClientMessage.taken_setEncodings] at front proper
          obtain ⟨part, rfl⟩ : (encodingsHead padding encodings.length).bytes <+: bytes :=
            List.prefix_of_prefix_length_le (List.prefix_append _ _) front
              (Nat.le_of_not_lt short)
          obtain ⟨front', proper', due⟩ := front_of_append front proper
          have encodings_ : encodings.length ≠ 0 := fun none =>
            due (by rw [List.length_eq_zero_iff.mp none, List.flatMap_nil])
          refine waits_append (run_eat_message handle boundary rfl rfl) fun middle pending => ?_
          refine run_eat_some_encodings handle padding encodings fits ?_ front' proper'
          have left : remainder .mSetEncodings (encodingsHead padding encodings.length).bytes
              = if encodings.length = 0 then []
                else (encodingsHead padding encodings.length).bytes :=
            slice_nextFragment fits rfl
          rw [if_neg encodings_] at left
          exact pending.trans left
      | _ => cases fixed
    · have all : bytes = message.taken := by
        refine front.eq_of_length_le ?_
        rw [ClientMessage.length_taken fixed]
        exact Nat.le_of_not_lt short
      exact absurd all proper

/-- No message starts with an unknown type. -/
theorem run_eat_unknown (handle : Handler σ) {p : Position σ} (boundary : p.pending = [])
    {bytes : List UInt8} (unknown : Unknown bytes)
    : run (eat handle) bytes p = .error .illegalMessage p := by
  obtain ⟨code, rest, rfl, none⟩ := unknown
  have refused : eat handle code p = .error .illegalMessage p := by
    simp only [eat, boundary, List.nil_append, List.headD_cons, none]
  rw [run, bind_error refused]

-----------------------------------------------------------------------------------------
-- The language
-----------------------------------------------------------------------------------------

/-- The reader gets to a message boundary exactly on whole messages whose calls all return. -/
theorem run_eat_accepts_iff (handle : Handler σ) {p : Position σ} (boundary : p.pending = [])
    {bytes : List UInt8} {due : List Event} {after : σ}
    : (∃ p', run (eat handle) bytes p = .ok () p' ∧ p'.pending = []
        ∧ p'.calls = p.calls ++ due ∧ p'.handlers = after)
      ↔ ∃ messages : List ClientMessage, (∀ message ∈ messages, message.Fits)
          ∧ bytes = messages.flatMap ClientMessage.taken
          ∧ due = messages.flatMap ClientMessage.events
          ∧ run (call handle) due p.handlers = .ok () after := by
  constructor
  · rintro ⟨p', read, end_, calls, rfl⟩
    obtain ⟨messages, rest, fits, rfl, stuck⟩ := exists_taken bytes
    have hears := run_eat_messages handle boundary fits
    rw [run_append] at read
    obtain ⟨_, middle, first, later⟩ := bind_eq_ok.mp read
    rw [first] at hears
    obtain ⟨boundary', calls', handled⟩ := hears.of_ok
    cases rest with
    | nil =>
        cases later
        have all := List.append_cancel_left (calls.symm.trans calls')
        subst all
        exact ⟨messages, fits, List.append_nil _, rfl, handled⟩
    | cons code more =>
        rcases stuck with unfinished | unknown
        · have waits := run_eat_unfinished handle boundary' (List.cons_ne_nil _ _) unfinished
          rw [later] at waits
          exact absurd end_ waits.of_ok
        · rw [run_eat_unknown handle boundary' unknown] at later
          cases later
  · rintro ⟨messages, fits, rfl, rfl, handled⟩
    exact (run_eat_messages handle boundary fits).returned handled

/-- From a message boundary and with any handlers, bytes in any pieces take the parser to a message
boundary exactly when they are whole messages whose calls all return. It has then made these calls.
-/
theorem feed_accepts_iff (handle : Handler σ) (s : Session σ) (boundary : s.msgDst = 0)
    (pieces : List (List UInt8)) (cut : ∀ piece ∈ pieces, IsPiece piece) (due : List Event)
    (after : σ)
    : (∃ s', feed handle pieces s = .ok () s' ∧ s'.msgDst = 0 ∧ s'.calls = s.calls ++ due
        ∧ s'.handlers = after)
      ↔ ∃ messages : List ClientMessage, (∀ message ∈ messages, message.Fits)
          ∧ pieces.flatten = messages.flatMap ClientMessage.taken
          ∧ due = messages.flatMap ClientMessage.events
          ∧ run (call handle) due s.handlers = .ok () after := by
  have empty : s.position.pending = [] := by rw [Session.position, boundary, slice_zero]
  have language := @run_eat_accepts_iff σ handle s.position empty pieces.flatten due after
  refine Iff.trans ?_ language
  have refined := feed_refines handle (Or.inl boundary) cut
  constructor
  · rintro ⟨s', fed, boundary', calls, handlers⟩
    rw [fed] at refined
    cases read : run (eat handle) pieces.flatten s.position with
    | error e p =>
        rw [read] at refined
        cases refined
    | ok done p =>
        rw [read] at refined
        cases refined with
        | ok here =>
            obtain ⟨_, rfl⟩ := here
            refine ⟨_, rfl, ?_, calls, handlers⟩
            rw [Session.position, boundary', slice_zero]
  · rintro ⟨p, read, end_, calls, handlers⟩
    rw [read] at refined
    cases fed : feed handle pieces s with
    | error e s' =>
        rw [fed] at refined
        cases refined
    | ok done s' =>
        rw [fed] at refined
        cases refined with
        | ok here =>
            obtain ⟨_, rfl⟩ := here
            refine ⟨s', rfl, ?_, calls, handlers⟩
            simpa only [Session.position, slice_length, List.length_nil]
              using congrArg List.length end_

theorem feed_accepts_iff_pointer
    : ∃ s', feed acceptAll [[5, 1, 0, 7, 0], [9]] (.fresh ()) = .ok () s' ∧ s'.msgDst = 0
        ∧ s'.calls = (Session.fresh ()).calls ++ [.pointer ⟨5, 1, 7, 9⟩] ∧ s'.handlers = () :=
  (feed_accepts_iff acceptAll (.fresh ()) rfl [[5, 1, 0, 7, 0], [9]] (by decide)
    [.pointer ⟨5, 1, 7, 9⟩] ()).mpr
    ⟨[.pointerEvent 1 7 9], by simp [ClientMessage.Fits], by decide, rfl, rfl⟩

end MiniVnc.Parser
