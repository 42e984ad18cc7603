import MiniVnc.Parser.Segmentation

/-! The invariant of `while(len)`, wherever the client's stream is cut, and what follows from
it: the copies stay in bounds, every iteration takes a byte, and every call takes all it was
given.
-/

namespace MiniVnc.Parser
open Library.Memory Library.Stream

variable {σ : Type}

/-- A `memcpy` into the message in progress: `count` bytes from `src` on in the receive buffer to
`dst`.
-/
structure MemCopy where
  dst : Nat
  src : Nat
  count : Nat
deriving Repr, DecidableEq

/-- The `memcpy` of an iteration, for an iteration that has one. -/
def Session.memcpy? (s : Session σ) (src len : Nat) : Option MemCopy :=
  let (s, src, len) := readType s src len
  match msgSize? s.messageInProgress s.msgDst with
  | some msgSize =>
      if s.msgDst < msgSize then some ⟨s.msgDst, src, min (msgSize - s.msgDst) len⟩ else none
  | none => none

/-- The iteration copies these bytes, once the type is read. -/
def MemCopy.Made (copy : MemCopy) (s : Session σ) (src len : Nat) : Prop :=
  ∃ typed src' len' msgSize, readType s src len = (typed, src', len')
    ∧ msgSize? typed.messageInProgress typed.msgDst = some msgSize
    ∧ (copyMessageBytes typed src' len' msgSize).1.messageInProgress
      = copyIn typed.messageInProgress copy.dst (slice typed.recvBuf copy.src copy.count)

/-- The iteration copies nothing. -/
def CopiesNothing (s : Session σ) (src len : Nat) : Prop :=
  ∀ typed src' len' msgSize, readType s src len = (typed, src', len') →
    msgSize? typed.messageInProgress typed.msgDst = some msgSize →
      copyMessageBytes typed src' len' msgSize = (typed, src', len')

theorem memcpy?_made {s : Session σ} {src len : Nat} {copy : MemCopy}
    (copied : s.memcpy? src len = some copy)
    : copy.Made s src len := by
  cases read : readType s src len with
  | mk typed rest =>
      obtain ⟨src', len'⟩ := rest
      simp only [Session.memcpy?, read] at copied
      split at copied
      · next msgSize size =>
          split at copied
          · next incomplete =>
              cases copied
              exact ⟨typed, src', len', msgSize, read, size,
                by simp only [copyMessageBytes, if_pos incomplete]⟩
          · cases copied
      · cases copied

theorem memcpy?_none {s : Session σ} {src len : Nat} (none : s.memcpy? src len = none)
    : CopiesNothing s src len := by
  intro typed src' len' msgSize read size
  simp only [Session.memcpy?, read, size] at none
  split at none
  · cases none
  · next complete => exact if_neg complete

/-- The state after a reachable one has received a piece of `received` bytes. -/
def Received (handle : Handler σ) (received : Nat) (s : Session σ) : Prop :=
  ∃ before piece, Reachable handle before ∧ IsPiece piece
    ∧ recvw (.data piece) before = .ok received s

/-- The states at the top of `while(len)` in a call on `received` bytes, with `src` and `len`.
The loop starts where the fast path stops, or at once in the middle of a message.
-/
inductive LoopTop (handle : Handler σ) (received : Nat) : Session σ → Nat → Nat → Prop
  | unfragmented {s s' src len} (start : Received handle received s) (boundary : s.msgDst = 0)
    (fast : fastPath handle (received + 1) 0 received s = .ok (src, len) s')
    : LoopTop handle received s' src len
  | fragmented {s} (start : Received handle received s) (inside : s.msgDst ≠ 0)
    : LoopTop handle received s 0 received
  | next {s s' src len src' len'} (top : LoopTop handle received s src len) (more : 0 < len)
    (iteration : slowIteration handle src len s = .ok (src', len') s')
    : LoopTop handle received s' src' len'

/-- The offset of `msg_dst` is at a message boundary or strictly inside a message of a known
type, whose size is the one that the switch computes.
-/
inductive OffsetInside (s : Session σ) : Prop
  | boundary (start : s.msgDst = 0)
  | inside (type : ClientMessageType) (msgSize : Nat)
    (known : ClientMessageType.ofCode? (s.messageInProgress 0) = some type)
    (size : msgSize? s.messageInProgress s.msgDst = some msgSize) (started : 0 < s.msgDst)
    (incomplete : s.msgDst < msgSize) (fits : msgSize ≤ sizeofVNCClientMessages)
    (encodingsHead : type = .mSetEncodings → s.msgDst < 4 → msgSize = 4)
    (encoding
      : type = .mSetEncodings → 4 ≤ s.msgDst →
          msgSize = 8 ∧ numberOfEncodings s.messageInProgress ≠ 0)

/-- What holds at the top of the loop, of the iteration that starts there as well: the copy that it
makes, if it makes one, is in bounds.
-/
structure Progressing (handle : Handler σ) (received : Nat) (s : Session σ) (src len : Nat)
    : Prop where
  offset : OffsetInside s
  taken : src + len = received
  copy
    : ∀ copy, 0 < len → s.memcpy? src len = some copy →
        copy.Made s src len ∧ copy.dst + copy.count ≤ sizeofVNCClientMessages
        ∧ copy.src + copy.count ≤ received
  noCopy : s.memcpy? src len = none → CopiesNothing s src len
  iteration
    : 0 < len →
        (∃ src' len' s', slowIteration handle src len s = .ok (src', len') s' ∧ len' < len)
        ∨ ∃ e s', slowIteration handle src len s = .error (.sessionEnded e) s'

/-- The call returns at the top of the loop with nothing left, or it ends the session. -/
inductive CallConsumes (handle : Handler σ) (received : Nat)
    : EStateM.Result Stop (Session σ) Unit → Prop
  | returned {s} (top : LoopTop handle received s received 0)
    : CallConsumes handle received (.ok () s)
  | ended {e s} : CallConsumes handle received (.error (.sessionEnded e) s)

/-- No message, and no fragment of one, is larger than the union. -/
theorem msgSize?_fits {mem : Mem} {bytesRead n : Nat} (size : msgSize? mem bytesRead = some n)
    : n ≤ sizeofVNCClientMessages := by
  obtain ⟨type, _, equal⟩ := msgSize?_eq_some.mp size
  rw [← equal]
  split
  · rw [vncMsgEncodingfragsize]
    split <;> decide
  · cases type <;> decide

/-- A valid state is inside the message it has started, by cases on the type. -/
theorem Session.Valid.offsetInside {s : Session σ} (valid : s.Valid) : OffsetInside s := by
  rcases valid with start | ⟨n, size, started, incomplete⟩
  · exact .boundary start
  · obtain ⟨type, known, equal⟩ := msgSize?_eq_some.mp size
    refine .inside type n known size started incomplete (msgSize?_fits size) ?_ ?_
    · intro encodings head
      rw [if_pos encodings, vncMsgEncodingfragsize, if_neg] at equal
      · exact equal.symm
      · intro complete
        exact absurd complete.1 (Nat.not_le_of_lt head)
    · intro encodings behind
      rw [if_pos encodings, vncMsgEncodingfragsize] at equal
      split at equal
      · next due => exact ⟨equal.symm, due.2⟩
      · have four : ClientMessageType.mSetEncodings.sizeof = 4 := rfl
        omega

/-- Receiving leaves the message in progress alone. -/
theorem Received.valid {handle : Handler σ} {received : Nat} {s : Session σ}
    (start : Received handle received s)
    : s.Valid := by
  obtain ⟨before, piece, reachable, isPiece, got⟩ := start
  cases piece with
  | nil => exact absurd isPiece.1 (by simp)
  | cons first rest =>
      cases got
      exact reachable.valid

/-- A handler call leaves the parse position and the receive buffer alone. -/
theorem callHandler_keeps {handle : Handler σ} {event : Event} {s s' : Session σ} {left : UInt8}
    (called : callHandler handle event s = .ok left s')
    : s'.msgDst = s.msgDst ∧ s'.recvBuf = s.recvBuf := by
  unfold callHandler at called
  split at called
  · cases called
    exact ⟨rfl, rfl⟩
  · cases called

/-- The fast path stays at the message boundary and counts the bytes it takes, by induction on the
messages.
-/
theorem fastPath_ok {handle : Handler σ} {fuel src len src' len' : Nat} {s s' : Session σ}
    (h : fastPath handle fuel src len s = .ok (src', len') s')
    : s'.msgDst = s.msgDst ∧ src' + len' = src + len := by
  induction fuel generalizing src len s with
  | zero => cases h
  | succ fuel ih =>
      rw [fastPath, get_bind] at h
      split at h
      · next pointer =>
          obtain ⟨_, middle, called, later⟩ := bind_eq_ok.mp h
          obtain ⟨offset, counted⟩ := ih later
          have whole := pointer.2
          exact ⟨offset.trans (callHandler_keeps called).1, by omega⟩
      · split at h
        · next request =>
            obtain ⟨_, middle, called, later⟩ := bind_eq_ok.mp h
            rw [modify_bind] at later
            obtain ⟨offset, counted⟩ := ih later
            have kept := (callHandler_keeps called).1
            have whole := request.2
            exact ⟨offset.trans kept, by omega⟩
        · cases h
          exact ⟨rfl, rfl⟩

/-- An iteration that returns has taken at least one byte and left a valid state; one that
does not has ended the session.
-/
theorem slowIteration_cases (handle : Handler σ) {s : Session σ} (valid : s.Valid) {src len : Nat}
    (data : 0 < len)
    : (∃ src' len' s', slowIteration handle src len s = .ok (src', len') s' ∧ len' < len
        ∧ src' + len' = src + len ∧ s'.Valid)
      ∨ ∃ e s', slowIteration handle src len s = .error (.sessionEnded e) s' := by
  obtain ⟨used, some_, bounded, refined⟩ := slowIteration_refines handle valid src len data
  cases read : run (eat handle) (slice s.recvBuf src used) s.position with
  | ok done p =>
      rw [read] at refined
      cases iteration : slowIteration handle src len s with
      | ok rest s' =>
          rw [iteration] at refined
          cases refined with
          | ok took =>
              obtain ⟨here, restEq, _⟩ := took
              subst restEq
              exact Or.inl ⟨_, _, _, rfl, by omega, by omega, here.1⟩
      | error stop s' =>
          rw [iteration] at refined
          cases refined
  | error e p =>
      rw [read] at refined
      cases iteration : slowIteration handle src len s with
      | ok rest s' =>
          rw [iteration] at refined
          cases refined
      | error stop s' =>
          rw [iteration] at refined
          cases refined with
          | error _ => exact Or.inr ⟨e, s', rfl⟩

/-- Every top of the loop has a valid state and has counted the bytes taken, by induction on the
iterations before it.
-/
theorem LoopTop.valid {handle : Handler σ} {received src len : Nat} {s : Session σ}
    (top : LoopTop handle received s src len)
    : s.Valid ∧ src + len = received := by
  induction top with
  | unfragmented start boundary fast =>
      obtain ⟨offset, counted⟩ := fastPath_ok fast
      exact ⟨Or.inl (offset.trans boundary), by omega⟩
  | fragmented start inside => exact ⟨start.valid, Nat.zero_add _⟩
  | next top more iteration ih =>
      obtain ⟨valid, counted⟩ := ih
      rcases slowIteration_cases handle valid more with
        ⟨src', len', s', again, _, counted', valid'⟩ | ⟨e, s', ended⟩
      · rw [iteration] at again
        cases again
        exact ⟨valid', counted'.trans counted⟩
      · rw [iteration] at ended
        cases ended

/-- The copy of an iteration ends with the message or with the received bytes. -/
theorem memcpy?_inside {s : Session σ} {src len : Nat} {copy : MemCopy} (data : 0 < len)
    (copied : s.memcpy? src len = some copy)
    : copy.dst + copy.count ≤ sizeofVNCClientMessages
      ∧ copy.src + copy.count ≤ src + len := by
  have counted : (readType s src len).2.1 + (readType s src len).2.2 = src + len := by
    unfold readType
    split
    · simp only
      omega
    · rfl
  unfold Session.memcpy? at copied
  generalize readType s src len = typed at copied counted
  obtain ⟨s', src', len'⟩ := typed
  simp only at copied counted
  split at copied
  · next msgSize size =>
      have fits := msgSize?_fits size
      split at copied
      · cases copied
        simp only
        omega
      · cases copied
  · cases copied

/-- From a top of the loop on, a call that returns has gone through the loop until nothing was
left. By induction on the iterations.
-/
theorem slowPath_top {handle : Handler σ} {received fuel src len : Nat} {s s' : Session σ}
    (top : LoopTop handle received s src len) (h : slowPath handle fuel src len s = .ok () s')
    : LoopTop handle received s' received 0 := by
  induction fuel generalizing src len s with
  | zero =>
      cases len with
      | zero =>
          obtain ⟨_, counted⟩ := top.valid
          cases h
          subst counted
          exact top
      | succ len => cases h
  | succ fuel ih =>
      cases len with
      | zero =>
          obtain ⟨_, counted⟩ := top.valid
          cases h
          subst counted
          exact top
      | succ len =>
          obtain ⟨⟨src', len'⟩, middle, iteration, later⟩ := bind_eq_ok.mp h
          exact ih (top.next (Nat.succ_pos len) iteration) later

/-- A call returns through the loop. -/
theorem vncHandleMessageFragments_top {handle : Handler σ} {received : Nat} {s s' : Session σ}
    (start : Received handle received s)
    (h : vncHandleMessageFragments handle received s = .ok () s')
    : LoopTop handle received s' received 0 := by
  rw [vncHandleMessageFragments, get_bind] at h
  split at h
  · next boundary =>
      obtain ⟨⟨src, len⟩, middle, fast, slow⟩ := bind_eq_ok.mp h
      exact slowPath_top (.unfragmented start boundary fast) slow
  · next inside => exact slowPath_top (.fragmented start inside) h

/-- The invariant holds at the top of the loop in every call from every reachable state, the
copies stay in bounds, every iteration takes a byte, and every call takes all it was given or
ends the session.
-/
theorem messageLoop_progresses (handle : Handler σ) (received : Nat)
    : (∀ s src len, LoopTop handle received s src len → Progressing handle received s src len)
      ∧ ∀ s, Received handle received s →
          CallConsumes handle received (vncHandleMessageFragments handle received s) := by
  constructor
  · intro s src len top
    obtain ⟨valid, counted⟩ := top.valid
    refine ⟨valid.offsetInside, counted, ?_, memcpy?_none, ?_⟩
    · intro copy data copied
      rw [← counted]
      exact ⟨memcpy?_made copied, memcpy?_inside data copied⟩
    · intro data
      rcases slowIteration_cases handle valid data with
        ⟨src', len', s', returned, fewer, _⟩ | ended
      · exact Or.inl ⟨src', len', s', returned, fewer⟩
      · exact Or.inr ended
  · intro s start
    have refined := vncHandleMessageFragments_refines handle start.valid received
    cases call : vncHandleMessageFragments handle received s with
    | ok done s' => exact .returned (vncHandleMessageFragments_top start call)
    | error stop s' =>
        rw [call] at refined
        cases read : run (eat handle) (slice s.recvBuf 0 received) s.position with
        | ok done p =>
            rw [read] at refined
            cases refined
        | error e p =>
            rw [read] at refined
            cases refined with
            | error _ => exact .ended

/-- The first three bytes of an update request: one iteration copies two of them, and the call
returns in the middle of the message.
-/
theorem messageLoop_progresses_request
    : let s := { Session.fresh () with recvBuf := copyIn (fun _ => 0) 0 [3, 1, 0] }
      Progressing acceptAll 3 s 0 3 ∧ s.memcpy? 0 3 = some ⟨1, 1, 2⟩
        ∧ CallConsumes acceptAll 3 (vncHandleMessageFragments acceptAll 3 s) := by
  intro s
  have start : Received acceptAll 3 s :=
    ⟨.fresh (), [3, 1, 0], ⟨(), [], by simp, rfl⟩, by decide, rfl⟩
  have top : LoopTop acceptAll 3 s 0 3 := .unfragmented start rfl rfl
  exact ⟨(messageLoop_progresses acceptAll 3).1 s 0 3 top, rfl,
    (messageLoop_progresses acceptAll 3).2 s start⟩

end MiniVnc.Parser
