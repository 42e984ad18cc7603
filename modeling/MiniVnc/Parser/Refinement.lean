import MiniVnc.Parser.WholeStream

/-! `vnc_handleMessageFragments` refines the whole-stream reader, whichever of its two paths
the bytes take and wherever the received data ends.
-/

namespace MiniVnc.Parser
open Library.Memory Library.Stream

variable {σ : Type}

/-- Between two iterations the parser is at a message boundary, or strictly inside a message
of a known type.
-/
def Session.Valid (s : Session σ) : Prop :=
  s.msgDst = 0
  ∨ ∃ n, msgSize? s.messageInProgress s.msgDst = some n ∧ 0 < s.msgDst ∧ s.msgDst < n

/-- The stream position a parser state stands for. -/
def Session.position (s : Session σ) : Position σ where
  pending := slice s.messageInProgress 0 s.msgDst
  calls := s.calls
  handlers := s.handlers

/-- A valid parser state at the given position. -/
def At (s : Session σ) (p : Position σ) : Prop := s.Valid ∧ s.position = p

/-- The same calls have been made, with the same effect. -/
def SameCalls (s : Session σ) (p : Position σ) : Prop :=
  s.calls = p.calls ∧ s.handlers = p.handlers

theorem At.calls {s : Session σ} {p : Position σ} (h : At s p) : SameCalls s p := by
  obtain ⟨_, rfl⟩ := h
  exact ⟨rfl, rfl⟩

/-- The message a handler gets depends on the bytes received for it only. -/
theorem eventOf_congr {left right : Mem} (type : ClientMessageType) {count : Nat}
    (complete : type.sizeof ≤ count) (same : ∀ k < count, left k = right k)
    : eventOf type left count = eventOf type right count := by
  have bytes {size : Nat} (fits : size ≤ count) : SameBytes left right 0 0 size := by
    intro k hk
    simpa using same k (Nat.lt_of_lt_of_le hk fits)
  cases type with
  | mSetPixelFormat =>
      exact congrArg Event.setPixelFormat (VNCSetPixFormat.at_congr (bytes complete))
  | mFBUpdateRequest =>
      exact congrArg Event.updateRequest (VNCFBUpdateReq.at_congr (bytes complete))
  | mKeyEvent =>
      exact congrArg Event.key (VNCKeyEvent.at_congr (bytes complete))
  | mPointerEvent =>
      exact congrArg Event.pointer (VNCPointerEvent.at_congr (bytes complete))
  | mClientCutText =>
      exact congrArg Event.clientCutText (VNCClientCutText.at_congr (bytes complete))
  | mSetEncodings =>
      simp only [eventOf]
      split
      · rename_i one
        exact congrArg Event.setEncodingOne
          (VNCSetEncodingOne.at_congr (bytes (by rw [one]; exact Nat.le_refl 8)))
      · exact congrArg Event.setEncoding (VNCSetEncoding.at_congr (bytes complete))

/-- The head of a SetEncodings message after a fragment depends on the fragment's bytes. -/
theorem countDown_congr {left right : Mem} {count : Nat} (complete : 4 ≤ count)
    (same : ∀ k < count, left k = right k)
    : ∀ k < 4, countDown left count k = countDown right count k := by
  have head : ∀ k < 4, left k = right k := fun k hk => same k (Nat.lt_of_lt_of_le hk complete)
  intro k hk
  unfold countDown
  by_cases one : count = sizeofVNCSetEncodingOne
  · rw [if_pos one, if_pos one, numberOfEncodings_congr head, write, write, head k hk]
  · rw [if_neg one, if_neg one, head k hk]

theorem countDown_type (mem : Mem) (count : Nat) : countDown mem count 0 = mem 0 := by
  unfold countDown
  split
  · exact write_outside (Or.inl (by omega))
  · rfl

/-- After a fragment the parser waits for an encoding or stands at a message boundary. -/
theorem valid_nextFragment {s : Session σ}
    (known
      : ClientMessageType.ofCode? (s.messageInProgress 0)
        = some ClientMessageType.mSetEncodings)
    (waiting : s.msgDst = nextFragment s.messageInProgress)
    : s.Valid := by
  rcases nextFragment_cases known with start | ⟨four, size⟩
  · exact Or.inl (waiting.trans start)
  · rw [four] at waiting
    refine Or.inr ⟨sizeofVNCSetEncodingOne, by rw [waiting, size], by omega, ?_⟩
    rw [waiting]
    decide

/-- A complete message has at least the bytes of its struct. -/
theorem sizeof_le_msgSize? {mem : Mem} {bytesRead n : Nat} {type : ClientMessageType}
    (known : ClientMessageType.ofCode? (mem 0) = some type)
    (size : msgSize? mem bytesRead = some n)
    : type.sizeof ≤ n := by
  obtain ⟨found, again, equal⟩ := msgSize?_eq_some.mp size
  have same : found = type := Option.some.inj (again.symm.trans known)
  subst same
  by_cases encodings : found = .mSetEncodings
  · subst encodings
    rw [if_pos rfl, vncMsgEncodingfragsize] at equal
    split at equal <;> subst equal <;> decide
  · rw [if_neg encodings] at equal
    exact Nat.le_of_eq equal

theorem callHandler_ok {handle : Handler σ} {event : Event} {s : Session σ} {left : UInt8}
    {after : σ} (called : handle event s.handlers = .ok left after)
    : callHandler handle event s
      = .ok left { s with calls := s.calls ++ [event], handlers := after } := by
  simp only [callHandler, called]

theorem callHandler_error {handle : Handler σ} {event : Event} {s : Session σ}
    {e : SessionError} {after : σ} (called : handle event s.handlers = .error e after)
    : callHandler handle event s
      = .error (.sessionEnded e) { s with calls := s.calls ++ [event], handlers := after } := by
  simp only [callHandler, called]

/-- A completed message is dispatched as the reader delivers it, and leaves a valid state. -/
theorem dispatch_refines (handle : Handler σ) {s : Session σ} {p : Position σ}
    {type : ClientMessageType}
    (known : ClientMessageType.ofCode? (s.messageInProgress 0) = some type)
    (complete : type.sizeof ≤ s.msgDst) (calls : SameCalls s p)
    : Refines .sessionEnded (fun _ s' p' => At s' p' ∧ s'.recvBuf = s.recvBuf) SameCalls
        (dispatch handle type s)
        (deliver handle type (slice s.messageInProgress 0 s.msgDst) p) := by
  have bytes : ∀ k < s.msgDst, s.messageInProgress k
      = load (slice s.messageInProgress 0 s.msgDst) k := by
    intro k hk
    rw [load_slice hk, Nat.zero_add]
  have event := eventOf_congr type complete bytes
  obtain ⟨sameCalls, sameHandlers⟩ := calls
  rw [dispatch, get_bind, deliver]
  simp only [slice_length, ← event, ← sameHandlers, ← sameCalls]
  cases called : handle (eventOf type s.messageInProgress s.msgDst) s.handlers with
  | error e after =>
      rw [bind_error (callHandler_error called)]
      exact .error ⟨rfl, rfl⟩
  | ok left after =>
      rw [bind_ok (callHandler_ok called)]
      cases type with
      | mSetEncodings =>
          have head := countDown_congr complete bytes
          have due := numberOfEncodings_congr head
          refine .ok ⟨⟨valid_nextFragment ?_ rfl, ?_⟩, rfl⟩
          · exact (congrArg ClientMessageType.ofCode? (countDown_type _ _)).trans known
          · simp only [Session.position, remainder, slice_length, nextFragment, due,
              Position.mk.injEq, and_true]
            refine slice_congr (fun k hk => ?_)
            rw [Nat.zero_add]
            refine head k ?_
            split at hk <;> omega
      | _ => exact .ok ⟨⟨Or.inl rfl, rfl⟩, rfl⟩

-----------------------------------------------------------------------------------------
-- The byte-copying slow path
-----------------------------------------------------------------------------------------

/-- The parser has taken `used` of the `len` bytes at `src` of the receive buffer. -/
structure Took (recvBuf : Mem) (src len used : Nat) (result : Nat × Nat) (s : Session σ)
    (p : Position σ) : Prop where
  here : At s p
  rest : result = (src + used, len - used)
  unread : ∀ k, src + used ≤ k → s.recvBuf k = recvBuf k

/-- Copying takes the bytes up to the end of the message or of the data; the message is
delivered exactly when they complete it.
-/
theorem copyAndDispatch_refines (handle : Handler σ) {s : Session σ} {n : Nat}
    {type : ClientMessageType}
    (known : ClientMessageType.ofCode? (s.messageInProgress 0) = some type)
    (size : msgSize? s.messageInProgress s.msgDst = some n) (started : 0 < s.msgDst)
    (inside : s.msgDst < n) (src len : Nat)
    : Refines .sessionEnded (Took s.recvBuf src len (min (n - s.msgDst) len)) SameCalls
        (copyAndDispatch handle type n src len s)
        (run (eat handle) (slice s.recvBuf src (min (n - s.msgDst) len)) s.position) := by
  generalize usedEq : min (n - s.msgDst) len = used
  have pending : messageSize? s.position.pending = some n := by
    rw [Session.position, messageSize?_slice started, size]
  have nonempty : s.position.pending ≠ [] := by
    rw [← List.length_pos_iff, Session.position, slice_length]
    exact started
  have received
      : slice (copyIn s.messageInProgress s.msgDst (slice s.recvBuf src used)) 0
          (s.msgDst + used)
        = s.position.pending ++ slice s.recvBuf src used := by
    rw [slice_add, Nat.zero_add, Session.position]
    congr 1
    · exact slice_congr (fun k hk => copyIn_below (by omega))
    · have whole := slice_copyIn s.messageInProgress s.msgDst (slice s.recvBuf src used)
      rwa [slice_length] at whole
  have head : copyIn s.messageInProgress s.msgDst (slice s.recvBuf src used) 0
      = s.messageInProgress 0 := copyIn_below started
  simp only [copyAndDispatch, get_bind, copyMessageBytes, if_pos inside, usedEq, set_bind]
  by_cases complete : s.msgDst + used = n
  · have more : slice s.recvBuf src used ≠ [] := by
      rw [← List.length_pos_iff, slice_length]
      omega
    obtain ⟨found, headed, delivered⟩ :=
      run_eat_complete handle nonempty pending more
        (by rw [slice_length, Session.position, slice_length, complete])
    have same : found = type := by
      rw [← received, load_slice (by omega), Nat.zero_add, head, known] at headed
      exact (Option.some.inj headed).symm
    subst same
    have whole : found.sizeof ≤ s.msgDst + used := by
      rw [complete]
      exact sizeof_le_msgSize? known size
    rw [if_pos complete, delivered, ← received]
    refine Refines.returning (dispatch_refines handle ?_ whole ⟨rfl, rfl⟩) _ ?_
    · exact (congrArg ClientMessageType.ofCode? head).trans known
    · intro _ s' p' related
      rcases related with ⟨here, recvBuf⟩
      exact ⟨here, rfl, fun k _ => congrFun recvBuf k⟩
  · have partly : s.msgDst + used < n := by omega
    have kept : run (eat handle) (slice s.recvBuf src used) s.position
        = .ok () { s.position with pending := s.position.pending ++ slice s.recvBuf src used } :=
      run_eat_incomplete handle nonempty pending
        (by rw [slice_length, Session.position, slice_length]; exact partly)
    rw [if_neg complete, kept, ← received]
    refine .ok ⟨⟨Or.inr ⟨n, ?_, by simp only; omega, partly⟩, rfl⟩, rfl, fun k _ => rfl⟩
    refine msgSize?_stable ?_ inside (Nat.le_add_right _ _) partly
    rw [← size]
    exact msgSize?_congr started (fun k hk => copyIn_below hk)

/-- What `readType` leaves at a message boundary: the type byte is in `messageInProgress`. -/
def Session.typed (s : Session σ) (src : Nat) : Session σ :=
  { s with
    messageInProgress := copyIn s.messageInProgress 0 [s.recvBuf src]
    msgDst := 1 }

theorem readType_boundary {s : Session σ} (boundary : s.msgDst = 0) (src len : Nat)
    : readType s src len = (s.typed src, src + 1, len - 1) := by
  simp only [readType, boundary, ↓reduceIte, Nat.zero_add, Session.typed]

theorem readType_inside {s : Session σ} (started : 0 < s.msgDst) (src len : Nat)
    : readType s src len = (s, src, len) := by
  simp only [readType, Nat.ne_of_gt started, ↓reduceIte]

theorem Session.typed_byte (s : Session σ) (src : Nat)
    : (s.typed src).messageInProgress 0 = s.recvBuf src :=
  rfl

/-- The type byte of a known message gives its length. -/
theorem Session.typed_size {s : Session σ} {src : Nat} {type : ClientMessageType}
    (known : ClientMessageType.ofCode? (s.recvBuf src) = some type)
    : msgSize? (s.typed src).messageInProgress 1 = some type.sizeof := by
  rw [← messageSize?_start known, messageSize?]
  refine msgSize?_congr Nat.one_pos (fun k hk => ?_)
  have zero : k = 0 := by omega
  subst zero
  rfl

/-- An iteration at a message boundary starts the message that the byte at `src` announces, or
ends the session.
-/
theorem slowIteration_starts (handle : Handler σ) {s : Session σ} (boundary : s.msgDst = 0)
    (src len : Nat) (data : 0 < len)
    : ∃ used,
        0 < used
        ∧ used ≤ len
        ∧ Refines .sessionEnded (Took s.recvBuf src len used) SameCalls
            (slowIteration handle src len s)
            (run (eat handle) (slice s.recvBuf src used) s.position) := by
  have empty : s.position.pending = [] := by
    rw [Session.position, boundary, slice_zero]
  cases known : ClientMessageType.ofCode? (s.recvBuf src) with
  | none =>
      refine ⟨1, Nat.one_pos, data, ?_⟩
      rw [slice_succ, slice_zero, run_singleton]
      simp only [slowIteration, get_bind, readType_boundary boundary, set_bind,
        Session.typed_byte, known, eat, empty, List.nil_append, List.headD_cons]
      exact .error ⟨rfl, rfl⟩
  | some type =>
      have long : 1 < type.sizeof := by cases type <;> decide
      have size : msgSize? (s.typed src).messageInProgress (s.typed src).msgDst
          = some type.sizeof := Session.typed_size known
      refine ⟨1 + min (type.sizeof - 1) (len - 1), by omega, by omega, ?_⟩
      have start : run (eat handle) [s.recvBuf src] s.position
          = .ok () (s.typed src).position := by
        rw [run_singleton, eat_start handle empty known]
        rfl
      rw [slice_add, show slice s.recvBuf src 1 = [s.recvBuf src] from rfl, run_append_ok start]
      simp only [slowIteration, get_bind, readType_boundary boundary, set_bind,
        Session.typed_byte, known, size]
      refine Refines.weaken
        (copyAndDispatch_refines handle known size Nat.one_pos long (src + 1) (len - 1)) ?_
      intro result s' p' related
      rcases related with ⟨here, rfl, unread⟩
      refine ⟨here, ?_, fun k hk => unread k ?_⟩
      · rw [Nat.add_assoc, Nat.sub_sub]
        rfl
      · rw [Nat.add_assoc]
        exact hk

/-- One iteration takes at least one byte, and what it does is what the reader does with the
bytes it takes.
-/
theorem slowIteration_refines (handle : Handler σ) {s : Session σ} (valid : s.Valid)
    (src len : Nat) (data : 0 < len)
    : ∃ used,
        0 < used
        ∧ used ≤ len
        ∧ Refines .sessionEnded (Took s.recvBuf src len used) SameCalls
            (slowIteration handle src len s)
            (run (eat handle) (slice s.recvBuf src used) s.position) := by
  rcases valid with boundary | ⟨n, size, started, inside⟩
  · exact slowIteration_starts handle boundary src len data
  · obtain ⟨type, known, _⟩ := msgSize?_eq_some.mp size
    refine ⟨min (n - s.msgDst) len, by omega, by omega, ?_⟩
    simp only [slowIteration, get_bind, readType_inside started, set_bind, known, size]
    exact copyAndDispatch_refines handle known size started inside src len

/-- `while(len)` does what the reader does with the remaining bytes, by induction on the
iterations: each takes a byte, so `len` of them are enough.
-/
theorem slowPath_refines (handle : Handler σ) (fuel src len : Nat) (enough : len ≤ fuel)
    {s : Session σ} (valid : s.Valid)
    : Refines .sessionEnded (fun _ => At) SameCalls (slowPath handle fuel src len s)
        (run (eat handle) (slice s.recvBuf src len) s.position) := by
  induction fuel generalizing src len s with
  | zero =>
      have none : len = 0 := by omega
      subst none
      exact .ok ⟨valid, rfl⟩
  | succ fuel ih =>
      cases len with
      | zero => exact .ok ⟨valid, rfl⟩
      | succ len =>
          obtain ⟨used, some, bounded, taken⟩ :=
            slowIteration_refines handle valid src (len + 1) (Nat.succ_pos len)
          have split : len + 1 = used + (len + 1 - used) := by omega
          rw [slowPath, split, slice_add, run_append, ← split]
          refine Refines.bind taken ?_
          intro _ s' p' related
          rcases related with ⟨⟨valid', rfl⟩, rfl, unread⟩
          have rest : slice s'.recvBuf (src + used) (len + 1 - used)
              = slice s.recvBuf (src + used) (len + 1 - used) :=
            slice_congr (fun k _ => unread _ (Nat.le_add_right _ _))
          rw [← rest]
          exact ih (src + used) (len + 1 - used) (by omega) valid'

-----------------------------------------------------------------------------------------
-- The in-place fast path
-----------------------------------------------------------------------------------------

/-- Handling a whole message where it lies in the receive buffer is delivering its bytes. -/
theorem callHandler_refines (handle : Handler σ) {s : Session σ} {src : Nat}
    {type : ClientMessageType} {event : Event} (boundary : s.msgDst = 0)
    (typed : s.recvBuf src = type.code) (fixed : type ≠ .mSetEncodings)
    (inPlace : event = eventOf type (load (slice s.recvBuf src type.sizeof)) type.sizeof)
    : Refines .sessionEnded
        (fun _ s' p' => At s' p' ∧ s'.msgDst = 0 ∧ s'.recvBuf = s.recvBuf) SameCalls
        (callHandler handle event s)
        (run (eat handle) (slice s.recvBuf src type.sizeof) s.position) := by
  obtain ⟨size, sizeEq⟩ : ∃ size, type.sizeof = size + 1 := by
    cases type <;> exact ⟨_, rfl⟩
  have first : slice s.recvBuf src type.sizeof = type.code :: slice s.recvBuf (src + 1) size := by
    rw [sizeEq, slice_succ, typed]
  have empty : s.position.pending = [] := by
    rw [Session.position, boundary, slice_zero]
  have delivered : run (eat handle) (slice s.recvBuf src type.sizeof) s.position
      = deliver handle type (slice s.recvBuf src type.sizeof) s.position := by
    rw [first]
    refine run_eat_message handle empty (ClientMessageType.ofCode?_code type) ?_
    rw [← first, slice_length]
  rw [delivered, deliver, slice_length, ← inPlace]
  have nothing : remainder type (slice s.recvBuf src type.sizeof) = [] := by
    cases type <;> first | rfl | exact absurd rfl fixed
  have same : s.position.handlers = s.handlers := rfl
  rw [same]
  cases called : handle event s.handlers with
  | error e after =>
      rw [callHandler_error called]
      exact .error ⟨rfl, rfl⟩
  | ok left after =>
      rw [callHandler_ok called, nothing]
      refine .ok ⟨⟨Or.inl boundary, ?_⟩, boundary, rfl⟩
      simp only [Session.position, boundary, slice_zero]

/-- From a message boundary both paths together do what the reader does with the bytes, by
induction on the messages the fast path takes.
-/
theorem fastPath_refines (handle : Handler σ) (iterations fuel src len : Nat)
    (enough : len < fuel) (slowEnough : len ≤ iterations) {s : Session σ}
    (boundary : s.msgDst = 0)
    : Refines .sessionEnded (fun _ => At) SameCalls
        ((fastPath handle fuel src len >>= fun rest =>
          slowPath handle iterations rest.1 rest.2) s)
        (run (eat handle) (slice s.recvBuf src len) s.position) := by
  induction fuel generalizing src len s with
  | zero => omega
  | succ fuel ih =>
      rw [fastPath, bind_assoc, get_bind]
      by_cases pointer : s.recvBuf src = ClientMessageType.mPointerEvent.code
          ∧ ClientMessageType.mPointerEvent.sizeof ≤ len
      · obtain ⟨typed, whole⟩ := pointer
        have split : len = ClientMessageType.mPointerEvent.sizeof
            + (len - ClientMessageType.mPointerEvent.sizeof) := by omega
        rw [if_pos ⟨typed, whole⟩, bind_assoc, split, slice_add, run_append, ← split]
        have inPlace : Event.pointer (.at s.recvBuf src)
            = eventOf .mPointerEvent
                (load (slice s.recvBuf src ClientMessageType.mPointerEvent.sizeof))
                ClientMessageType.mPointerEvent.sizeof :=
          congrArg Event.pointer (VNCPointerEvent.at_congr (fun k hk => by
            rw [Nat.zero_add]
            exact (load_slice hk).symm))
        refine Refines.bind (callHandler_refines handle boundary typed (by decide) inPlace) ?_
        intro _ s' p' related
        rcases related with ⟨⟨_, rfl⟩, boundary', recvBuf⟩
        rw [← recvBuf]
        exact ih _ _ (by simp only [ClientMessageType.sizeof] at whole ⊢; omega) (by omega)
          boundary'
      · rw [if_neg pointer]
        by_cases request : s.recvBuf src = ClientMessageType.mFBUpdateRequest.code
            ∧ ClientMessageType.mFBUpdateRequest.sizeof ≤ len
        · obtain ⟨typed, whole⟩ := request
          have split : len = ClientMessageType.mFBUpdateRequest.sizeof
              + (len - ClientMessageType.mFBUpdateRequest.sizeof) := by omega
          rw [if_pos ⟨typed, whole⟩, bind_assoc, split, slice_add, run_append, ← split]
          have inPlace : Event.updateRequest (.at s.recvBuf src)
              = eventOf .mFBUpdateRequest
                  (load (slice s.recvBuf src ClientMessageType.mFBUpdateRequest.sizeof))
                  ClientMessageType.mFBUpdateRequest.sizeof :=
            congrArg Event.updateRequest (VNCFBUpdateReq.at_congr (fun k hk => by
              rw [Nat.zero_add]
              exact (load_slice hk).symm))
          refine Refines.bind (callHandler_refines handle boundary typed (by decide) inPlace) ?_
          intro incremental s' p' related
          rcases related with ⟨⟨_, rfl⟩, boundary', recvBuf⟩
          -- the write to evt->incremental hits a byte of the message just handled
          have unread : slice (write s'.recvBuf (src + 1) 1 incremental.toNat)
                (src + ClientMessageType.mFBUpdateRequest.sizeof)
                (len - ClientMessageType.mFBUpdateRequest.sizeof)
              = slice s.recvBuf (src + ClientMessageType.mFBUpdateRequest.sizeof)
                  (len - ClientMessageType.mFBUpdateRequest.sizeof) := by
            refine slice_congr (fun k _ => ?_)
            rw [write_outside (by simp only [ClientMessageType.sizeof]; omega), recvBuf]
          rw [bind_assoc, modify_bind, ← unread]
          exact ih _ _ (by simp only [ClientMessageType.sizeof] at whole ⊢; omega) (by omega)
            boundary'
        · rw [if_neg request]
          exact slowPath_refines handle iterations src len slowEnough (Or.inl boundary)

/-- `vnc_handleMessageFragments` on `len` received bytes is the whole-stream reader on them. -/
theorem vncHandleMessageFragments_refines (handle : Handler σ) {s : Session σ}
    (valid : s.Valid) (len : Nat)
    : Refines .sessionEnded (fun _ => At) SameCalls (vncHandleMessageFragments handle len s)
        (run (eat handle) (slice s.recvBuf 0 len) s.position) := by
  rw [vncHandleMessageFragments, get_bind]
  split
  · rename_i boundary
    exact fastPath_refines handle len (len + 1) 0 len (Nat.lt_succ_self len) (Nat.le_refl len)
      boundary
  · exact slowPath_refines handle len 0 len (Nat.le_refl len) valid

/-- One `recv` result is read like its bytes. -/
theorem vncReadAndHandleMessages_refines (handle : Handler σ) {s : Session σ}
    (valid : s.Valid) {piece : List UInt8} (isPiece : IsPiece piece)
    : Refines .sessionEnded (fun _ => At) SameCalls
        (vncReadAndHandleMessages handle (.data piece) s)
        (run (eat handle) piece s.position) := by
  cases piece with
  | nil => exact absurd isPiece.1 (by simp)
  | cons first rest =>
      have received := slice_copyIn s.recvBuf 0 (first :: rest)
      have refined := vncHandleMessageFragments_refines handle
        (show Session.Valid { s with recvBuf := copyIn s.recvBuf 0 (first :: rest) } from valid)
        (first :: rest).length
      simp only [received] at refined
      exact refined

end MiniVnc.Parser
