import MiniVnc.Parser.Progress

/-! Which bytes of the receive buffer `vnc_handleMessageFragments` reads, and when all of them are
bytes that it was given.
-/

namespace MiniVnc.Parser
open Library.Memory Library.Stream

variable {σ : Type}

-----------------------------------------------------------------------------------------
-- The reads
-----------------------------------------------------------------------------------------

/-- The offsets the fast path reads in `recv_buf`: at the top of the loop the type, whatever `len`
is, and the message when it is handled in place.
-/
def fastPathReads (handle : Handler σ) : Nat → Nat → Nat → Session σ → List Nat
  | 0, _, _, _ => []
  | fuel + 1, src, len, s =>
      src
      :: if s.recvBuf src = ClientMessageType.mPointerEvent.code
            ∧ ClientMessageType.mPointerEvent.sizeof ≤ len then
          List.range' src ClientMessageType.mPointerEvent.sizeof
          ++ match callHandler handle (.pointer (.at s.recvBuf src)) s with
            | .ok _ s' =>
                fastPathReads handle fuel (src + ClientMessageType.mPointerEvent.sizeof)
                  (len - ClientMessageType.mPointerEvent.sizeof) s'
            | .error _ _ => []
        else if s.recvBuf src = ClientMessageType.mFBUpdateRequest.code
            ∧ ClientMessageType.mFBUpdateRequest.sizeof ≤ len then
          List.range' src ClientMessageType.mFBUpdateRequest.sizeof
          ++ match callHandler handle (.updateRequest (.at s.recvBuf src)) s with
            | .ok incremental s' =>
                fastPathReads handle fuel (src + ClientMessageType.mFBUpdateRequest.sizeof)
                  (len - ClientMessageType.mFBUpdateRequest.sizeof)
                  { s' with
                    recvBuf := write s'.recvBuf (src + 1) 1 incremental.toNat }
            | .error _ _ => []
        else
          []

/-- An iteration of `while(len)` reads the type at a message boundary, and what it copies. -/
def slowIterationReads (s : Session σ) (src len : Nat) : List Nat :=
  (if s.msgDst = 0 then [src] else [])
  ++ match s.memcpy? src len with
    | some copy => List.range' copy.src copy.count
    | none => []

def slowPathReads (handle : Handler σ) : Nat → Nat → Nat → Session σ → List Nat
  | _, _, 0, _ => []
  | 0, _, _ + 1, _ => []
  | fuel + 1, src, len + 1, s =>
      slowIterationReads s src (len + 1)
      ++ match slowIteration handle src (len + 1) s with
        | .ok rest s' => slowPathReads handle fuel rest.1 rest.2 s'
        | .error _ _ => []

def vncHandleMessageFragmentsReads (handle : Handler σ) (len : Nat) (s : Session σ) : List Nat :=
  if s.msgDst = 0 then
    fastPathReads handle (len + 1) 0 len s
    ++ match fastPath handle (len + 1) 0 len s with
      | .ok rest s' => slowPathReads handle len rest.1 rest.2 s'
      | .error _ _ => []
  else
    slowPathReads handle len 0 len s

/-- The reads of the call that a received piece leads to. -/
def sourceReads (handle : Handler σ) (piece : List UInt8) (s : Session σ) : List Nat :=
  match recvw (.data piece) s with
  | .ok len s' => vncHandleMessageFragmentsReads handle len s'
  | .error _ _ => []

/-- The types of messages that are handled in place. -/
def IsFast (type : ClientMessageType) : Prop :=
  type = .mPointerEvent ∨ type = .mFBUpdateRequest

/-- The bytes are whole messages that are handled in place, to the last byte, and the handlers
return on them.
-/
inductive AllInPlace (handle : Handler σ) : List UInt8 → σ → Prop
  | nil {handlers} : AllInPlace handle [] handlers
  | message {type message rest handlers left after} (fast : IsFast type)
    (whole : message.length = type.sizeof) (typed : message.headD 0 = type.code)
    (returns
      : handle (eventOf type (load message) type.sizeof) handlers = .ok left after)
    (later : AllInPlace handle rest after)
    : AllInPlace handle (message ++ rest) handlers

-----------------------------------------------------------------------------------------
-- The fast path
-----------------------------------------------------------------------------------------

theorem code_injective {type other : ClientMessageType}
    (same : type.code = other.code)
    : type = other := by
  have known := ClientMessageType.ofCode?_code type
  rw [same, ClientMessageType.ofCode?_code] at known
  exact (Option.some.inj known).symm

theorem sizeof_pos (type : ClientMessageType) : 0 < type.sizeof := by
  cases type <;> decide

section InPlace

variable {handle : Handler σ} {mem : Mem} {src len : Nat} {handlers : σ}

/-- The first message of bytes that are all in place. -/
theorem AllInPlace.first (all : AllInPlace handle (slice mem src len) handlers) (some_ : 0 < len)
    : ∃ type left after, IsFast type ∧ mem src = type.code ∧ type.sizeof ≤ len
        ∧ handle (eventOf type (load (slice mem src type.sizeof)) type.sizeof) handlers
            = .ok left after
        ∧ AllInPlace handle (slice mem (src + type.sizeof) (len - type.sizeof)) after := by
  generalize bytes : slice mem src len = stream at all
  cases all with
  | nil =>
      have length := congrArg List.length bytes
      rw [slice_length] at length
      exact absurd length (Nat.ne_of_gt some_)
  | @message type message rest _ left after fast whole typed returns later =>
      have length := congrArg List.length bytes
      rw [slice_length, List.length_append, whole] at length
      have split : slice mem src len
          = slice mem src type.sizeof ++ slice mem (src + type.sizeof) (len - type.sizeof) := by
        rw [← slice_add]
        congr 1
        omega
      rw [split] at bytes
      obtain ⟨first, behind⟩ := List.append_inj bytes (by rw [slice_length, whole])
      subst first
      subst behind
      rw [slice_headD mem src (sizeof_pos type)] at typed
      exact ⟨type, left, after, fast, typed, by omega, returns, later⟩

/-- Bytes that start with a whole message in place are all in place exactly when its handler returns
and those behind it are.
-/
theorem allInPlace_message_iff {type : ClientMessageType} (fast : IsFast type)
    (typed : mem src = type.code) (whole : type.sizeof ≤ len)
    : AllInPlace handle (slice mem src len) handlers
      ↔ ∃ left after,
          handle (eventOf type (load (slice mem src type.sizeof)) type.sizeof) handlers
            = .ok left after
          ∧ AllInPlace handle (slice mem (src + type.sizeof) (len - type.sizeof)) after := by
  have positive := sizeof_pos type
  constructor
  · intro all
    obtain ⟨other, left, after, _, typed', _, returns, later⟩ := all.first (by omega)
    obtain rfl := code_injective (typed.symm.trans typed')
    exact ⟨left, after, returns, later⟩
  · rintro ⟨left, after, returns, later⟩
    have split : slice mem src len
        = slice mem src type.sizeof ++ slice mem (src + type.sizeof) (len - type.sizeof) := by
      rw [← slice_add]
      congr 1
      omega
    rw [split]
    exact .message fast (slice_length mem src type.sizeof)
      ((slice_headD mem src positive).trans typed) returns later

/-- Bytes that do not start with one are only in place when there are none. -/
theorem allInPlace_other_iff
    (other : ∀ type, IsFast type → ¬(mem src = type.code ∧ type.sizeof ≤ len))
    : AllInPlace handle (slice mem src len) handlers ↔ len = 0 := by
  constructor
  · intro all
    by_contra some_
    obtain ⟨type, _, _, fast, typed, whole, _⟩ := all.first (Nat.pos_of_ne_zero some_)
    exact other type fast ⟨typed, whole⟩
  · rintro rfl
    exact .nil

end InPlace

theorem range'_inside {src count bound : Nat} (fits : src + count ≤ bound)
    : ∀ k ∈ List.range' src count, k < bound := by
  intro k member
  have inside := (List.mem_range'_1.mp member).2
  omega

/-- A message in place is read to its end, and so much of what follows as its handler lets pass. -/
theorem handledReads_inside_iff {handle : Handler σ} {src len : Nat} {s : Session σ}
    {type : ClientMessageType} (fast : IsFast type) (typed : s.recvBuf src = type.code)
    (whole : type.sizeof ≤ len) {event : Event}
    (inPlace : event = eventOf type (load (slice s.recvBuf src type.sizeof)) type.sizeof)
    {next : UInt8 → Session σ → List Nat}
    (later
      : ∀ left s', callHandler handle event s = .ok left s' →
          ((∀ k ∈ next left s', k < src + len)
            ↔ ¬AllInPlace handle
                (slice s.recvBuf (src + type.sizeof) (len - type.sizeof)) s'.handlers))
    : (∀ k ∈ List.range' src type.sizeof
            ++ match callHandler handle event s with
              | .ok left s' => next left s'
              | .error _ _ => [],
          k < src + len)
      ↔ ¬AllInPlace handle (slice s.recvBuf src len) s.handlers := by
  rw [List.forall_mem_append, and_iff_right (range'_inside (by omega)),
    allInPlace_message_iff fast typed whole, ← inPlace]
  cases called : handle event s.handlers with
  | error e after =>
      rw [callHandler_error called]
      refine iff_of_true (by simp) ?_
      rintro ⟨left, after', returns, _⟩
      cases returns
  | ok left after =>
      have call := callHandler_ok called
      rw [call]
      refine (later left _ call).trans (not_congr ?_)
      constructor
      · intro all
        exact ⟨left, after, rfl, all⟩
      · rintro ⟨left', after', returns, all⟩
        cases returns
        exact all

/-- The fast path stays inside exactly when it does not take everything: then it looks at the byte
behind it. By induction on the messages.
-/
theorem fastPathReads_inside_iff (handle : Handler σ) {fuel src len : Nat} (enough : len < fuel)
    {s : Session σ}
    : (∀ k ∈ fastPathReads handle fuel src len s, k < src + len)
      ↔ ¬AllInPlace handle (slice s.recvBuf src len) s.handlers := by
  induction fuel generalizing src len s with
  | zero => omega
  | succ fuel ih =>
      rw [fastPathReads, List.forall_mem_cons]
      by_cases pointer : s.recvBuf src = ClientMessageType.mPointerEvent.code
          ∧ ClientMessageType.mPointerEvent.sizeof ≤ len
      · obtain ⟨typed, whole⟩ := pointer
        have positive := sizeof_pos .mPointerEvent
        rw [if_pos ⟨typed, whole⟩, and_iff_right (by omega)]
        refine handledReads_inside_iff (Or.inl rfl) typed whole ?_ ?_
        · exact congrArg Event.pointer (VNCPointerEvent.at_congr (fun k hk => by
            rw [Nat.zero_add]
            exact (load_slice hk).symm))
        · intro left s' called
          have recvBuf := (callHandler_keeps called).2
          have rest : src + ClientMessageType.mPointerEvent.sizeof
              + (len - ClientMessageType.mPointerEvent.sizeof) = src + len := by omega
          rw [← recvBuf, ← rest]
          exact ih (by omega)
      · rw [if_neg pointer]
        by_cases request : s.recvBuf src = ClientMessageType.mFBUpdateRequest.code
            ∧ ClientMessageType.mFBUpdateRequest.sizeof ≤ len
        · obtain ⟨typed, whole⟩ := request
          have positive := sizeof_pos .mFBUpdateRequest
          rw [if_pos ⟨typed, whole⟩, and_iff_right (by omega)]
          refine handledReads_inside_iff (Or.inr rfl) typed whole ?_ ?_
          · exact congrArg Event.updateRequest (VNCFBUpdateReq.at_congr (fun k hk => by
              rw [Nat.zero_add]
              exact (load_slice hk).symm))
          · intro left s' called
            have recvBuf := (callHandler_keeps called).2
            have rest : src + ClientMessageType.mFBUpdateRequest.sizeof
                + (len - ClientMessageType.mFBUpdateRequest.sizeof) = src + len := by omega
            -- the write to evt->incremental hits a byte of the message just handled
            have unread : slice (write s'.recvBuf (src + 1) 1 left.toNat)
                  (src + ClientMessageType.mFBUpdateRequest.sizeof)
                  (len - ClientMessageType.mFBUpdateRequest.sizeof)
                = slice s.recvBuf (src + ClientMessageType.mFBUpdateRequest.sizeof)
                    (len - ClientMessageType.mFBUpdateRequest.sizeof) := by
              refine slice_congr (fun k _ => ?_)
              rw [write_outside (by simp only [ClientMessageType.sizeof]; omega), recvBuf]
            rw [← unread, ← rest]
            exact ih (by omega)
        · rw [if_neg request, allInPlace_other_iff]
          · simp only [List.not_mem_nil, false_implies, implies_true, and_true]
            omega
          · rintro type (rfl | rfl)
            · exact pointer
            · exact request

-----------------------------------------------------------------------------------------
-- The slow path
-----------------------------------------------------------------------------------------

theorem slowIterationReads_inside {s : Session σ} {src len : Nat} (data : 0 < len)
    : ∀ k ∈ slowIterationReads s src len, k < src + len := by
  rw [slowIterationReads, List.forall_mem_append]
  constructor
  · split
    · simpa using data
    · simp
  · split
    · next copy copied => exact range'_inside (memcpy?_inside data copied).2
    · simp

/-- The slow path stays inside, by induction on the iterations: each leaves as much as it has not
taken.
-/
theorem slowPathReads_inside (handle : Handler σ) {fuel src len : Nat} {s : Session σ}
    (valid : s.Valid)
    : ∀ k ∈ slowPathReads handle fuel src len s, k < src + len := by
  induction fuel generalizing src len s with
  | zero => cases len <;> simp [slowPathReads]
  | succ fuel ih =>
      cases len with
      | zero => simp [slowPathReads]
      | succ len =>
          rw [slowPathReads, List.forall_mem_append]
          refine ⟨slowIterationReads_inside (Nat.succ_pos len), ?_⟩
          rcases @slowIteration_cases σ handle s valid src (len + 1) (Nat.succ_pos len) with
            ⟨src', len', s', returned, _, counted, valid'⟩ | ⟨e, s', ended⟩
          · rw [returned, ← counted]
            exact ih valid'
          · rw [ended]
            simp

/-- From every reachable state and for every received piece, everything that is read was received
exactly unless the call starts at a message boundary and the piece is whole pointer events and
update requests, to its last byte, on which the handlers return.
-/
theorem sourceReads_inside_iff {handle : Handler σ} {s : Session σ}
    (reachable : Reachable handle s) {piece : List UInt8} (isPiece : IsPiece piece)
    : (∀ k ∈ sourceReads handle piece s, k < piece.length)
      ↔ ¬(s.msgDst = 0 ∧ AllInPlace handle piece s.handlers) := by
  cases piece with
  | nil => exact absurd isPiece.1 (by simp)
  | cons first rest =>
      have received := slice_copyIn s.recvBuf 0 (first :: rest)
      have got : recvw (.data (first :: rest)) s
          = .ok (first :: rest).length
            { s with recvBuf := copyIn s.recvBuf 0 (first :: rest) } := rfl
      rw [sourceReads, got]
      dsimp only
      generalize (first :: rest).length = len at received ⊢
      generalize copyIn s.recvBuf 0 (first :: rest) = recvBuf at received ⊢
      rw [vncHandleMessageFragmentsReads]
      by_cases boundary : s.msgDst = 0
      · have fast := @fastPathReads_inside_iff σ handle (len + 1) 0 len (Nat.lt_succ_self len)
          { s with recvBuf := recvBuf }
        rw [received, Nat.zero_add] at fast
        rw [if_pos boundary, List.forall_mem_append, fast, and_iff_right boundary]
        refine and_iff_left_iff_imp.mpr fun _ => ?_
        split
        · next taken s' path =>
            obtain ⟨offset, counted⟩ := fastPath_ok path
            rw [Nat.zero_add] at counted
            rw [← counted]
            exact slowPathReads_inside handle (Or.inl (offset.trans boundary))
        · simp
      · have slow := @slowPathReads_inside σ handle len 0 len { s with recvBuf := recvBuf }
          reachable.valid
        rw [Nat.zero_add] at slow
        rw [if_neg boundary]
        exact iff_of_true slow fun both => boundary both.1

/-- A key event is read to its end and no further. -/
theorem sourceReads_inside_iff_key
    : (∀ k ∈ sourceReads acceptAll [4, 1, 0, 0, 0, 0, 0, 65] (.fresh ()), k < 8)
      ↔ ¬((Session.fresh ()).msgDst = 0 ∧ AllInPlace acceptAll [4, 1, 0, 0, 0, 0, 0, 65] ()) :=
  sourceReads_inside_iff ⟨(), [], by simp, rfl⟩ (by decide)

/-- Behind a pointer event that is received alone, a seventh byte is read. -/
theorem sourceReads_pointer
    : Reachable acceptAll (.fresh ()) ∧ IsPiece [5, 0, 0, 10, 0, 20]
      ∧ 6 ∈ sourceReads acceptAll [5, 0, 0, 10, 0, 20] (.fresh ())
      ∧ ¬∀ k ∈ sourceReads acceptAll [5, 0, 0, 10, 0, 20] (.fresh ()), k < 6 :=
  ⟨⟨(), [], by simp, rfl⟩, by decide, by decide, by decide⟩

end MiniVnc.Parser
