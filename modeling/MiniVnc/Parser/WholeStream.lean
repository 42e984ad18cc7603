import MiniVnc.Parser.Fragments

/-! The parser seen as a reader of one byte stream: it takes the stream byte by byte and
keeps the bytes of the message it is in. Receive boundaries do not exist here.
-/

namespace MiniVnc.Parser
open Library.Memory Library.Stream

variable {σ : Type}

/-- Where the reader stands: the bytes of the message in progress, and what the calls so far
have left.
-/
structure Position (σ : Type) where
  pending : List UInt8
  calls : List Event
  handlers : σ

/-- The length of the message that starts with `pending`, as far as it is known yet. -/
def messageSize? (pending : List UInt8) : Option Nat := msgSize? (load pending) pending.length

/-- What stays of a delivered message: the head of a SetEncodings message that has
encodings left, and nothing of any other.
-/
def remainder (type : ClientMessageType) (message : List UInt8) : List UInt8 :=
  match type with
  | .mSetEncodings =>
      let head := countDown (load message) message.length
      slice head 0 (nextFragment head)
  | _ => []

/-- Hand a complete message of `type` to its handler. -/
def deliver (handle : Handler σ) (type : ClientMessageType) (message : List UInt8)
    : EStateM SessionError (Position σ) Unit := fun p =>
  let event := eventOf type (load message) message.length
  match handle event p.handlers with
  | .ok _ after =>
      .ok ()
        { pending := remainder type message
          calls := p.calls ++ [event]
          handlers := after }
  | .error e after =>
      .error e { pending := message, calls := p.calls ++ [event], handlers := after }

/-- Take one byte: it starts a message, continues one or completes it. -/
def eat (handle : Handler σ) (byte : UInt8) : EStateM SessionError (Position σ) Unit :=
  fun p =>
    match ClientMessageType.ofCode? ((p.pending ++ [byte]).headD 0) with
    | none => .error .illegalMessage p
    | some type =>
        if messageSize? p.pending = some (p.pending.length + 1) then
          deliver handle type (p.pending ++ [byte]) p
        else
          .ok () { p with pending := p.pending ++ [byte] }

theorem numberOfEncodings_congr {left right : Mem} (same : ∀ k < 4, left k = right k)
    : numberOfEncodings left = numberOfEncodings right :=
  ushortAt_congr (fun k hk => same (2 + k) (by omega))

/-- The message length depends on the bytes read so far only. -/
theorem msgSize?_congr {left right : Mem} {bytesRead : Nat} (started : 0 < bytesRead)
    (same : ∀ k < bytesRead, left k = right k)
    : msgSize? left bytesRead = msgSize? right bytesRead := by
  have size : vncMsgEncodingfragsize left bytesRead
      = vncMsgEncodingfragsize right bytesRead := by
    unfold vncMsgEncodingfragsize
    by_cases head : ClientMessageType.mSetEncodings.sizeof ≤ bytesRead
    · rw [numberOfEncodings_congr (fun k hk => same k (Nat.lt_of_lt_of_le hk head))]
    · simp only [head, false_and]
  rw [msgSize?, msgSize?, same 0 started, size]

theorem messageSize?_slice {mem : Mem} {count : Nat} (started : 0 < count)
    : messageSize? (slice mem 0 count) = msgSize? mem count := by
  rw [messageSize?, slice_length]
  exact msgSize?_congr started (fun k hk => by simpa using @load_slice mem 0 count k hk)

/-- The length is known exactly for a known type, as the code computes it. -/
theorem msgSize?_eq_some {mem : Mem} {bytesRead n : Nat}
    : msgSize? mem bytesRead = some n
      ↔ ∃ type,
          ClientMessageType.ofCode? (mem 0) = some type
          ∧ (if type = .mSetEncodings then vncMsgEncodingfragsize mem bytesRead else type.sizeof)
            = n := by
  unfold msgSize?
  cases known : ClientMessageType.ofCode? (mem 0) with
  | none => simp
  | some type => cases type <;> simp

/-- After a fragment the parser waits for the rest of an eight-byte one, or stands at a message
boundary.
-/
theorem nextFragment_cases {mem : Mem}
    (known : ClientMessageType.ofCode? (mem 0) = some ClientMessageType.mSetEncodings)
    : nextFragment mem = 0
      ∨ nextFragment mem = 4 ∧ msgSize? mem 4 = some sizeofVNCSetEncodingOne := by
  by_cases due : numberOfEncodings mem = 0
  · exact Or.inl (if_neg (not_not_intro due))
  · refine Or.inr ⟨if_pos due, msgSize?_eq_some.mpr ⟨_, known, ?_⟩⟩
    rw [if_pos rfl, vncMsgEncodingfragsize, if_pos ⟨Nat.le_refl 4, due⟩]

/-- While a message is incomplete, receiving more of it does not change its known length.
For SetEncodings the four-byte head and the eight-byte fragment never overlap.
-/
theorem msgSize?_stable {mem : Mem} {bytesRead later n : Nat}
    (size : msgSize? mem bytesRead = some n) (inside : bytesRead < n)
    (grown : bytesRead ≤ later) (incomplete : later < n)
    : msgSize? mem later = some n := by
  obtain ⟨type, known, equal⟩ := msgSize?_eq_some.mp size
  refine msgSize?_eq_some.mpr ⟨type, known, ?_⟩
  by_cases encodings : type = .mSetEncodings
  · subst encodings
    simp only [↓reduceIte] at equal ⊢
    unfold vncMsgEncodingfragsize at equal ⊢
    simp only [ClientMessageType.sizeof, sizeofVNCSetEncodingOne] at equal ⊢
    by_cases due : numberOfEncodings mem = 0
    · simpa only [due, ne_eq, not_true_eq_false, and_false, ↓reduceIte] using equal
    · simp only [ne_eq, due, not_false_eq_true, and_true] at equal ⊢
      split at equal <;> split <;> omega
  · rw [if_neg encodings] at equal ⊢
    exact equal

theorem load_append_left {first rest : List UInt8} {k : Nat} (hk : k < first.length)
    : load (first ++ rest) k = load first k := by
  simp [load, hk, List.getElem?_append_left]

theorem messageSize?_append {pending more : List UInt8} {n : Nat} (started : pending ≠ [])
    (size : messageSize? pending = some n) (incomplete : pending.length + more.length < n)
    : messageSize? (pending ++ more) = some n := by
  have count : 0 < pending.length := List.length_pos_iff.mpr started
  rw [messageSize?, List.length_append]
  refine msgSize?_stable ?_ (by omega) (Nat.le_add_right _ _) incomplete
  rw [← size, messageSize?]
  exact msgSize?_congr count (fun k hk => load_append_left hk)

/-- A message whose length is known has a known type, also after more of it has come. -/
theorem messageSize?_type {pending : List UInt8} {n : Nat} (started : pending ≠ [])
    (size : messageSize? pending = some n) (more : List UInt8)
    : ∃ type, ClientMessageType.ofCode? ((pending ++ more).headD 0) = some type
        ∧ ClientMessageType.ofCode? (load (pending ++ more) 0) = some type := by
  obtain ⟨type, known, _⟩ := msgSize?_eq_some.mp size
  cases pending with
  | nil => exact absurd rfl started
  | cons first rest => exact ⟨type, known, known⟩

/-- Bytes that do not complete the message in progress are kept, by induction on them. -/
theorem run_eat_incomplete (handle : Handler σ) {p : Position σ} {n : Nat}
    {more : List UInt8} (started : p.pending ≠ []) (size : messageSize? p.pending = some n)
    (incomplete : p.pending.length + more.length < n)
    : run (eat handle) more p = .ok () { p with pending := p.pending ++ more } := by
  induction more generalizing p with
  | nil => simp
  | cons byte more ih =>
      simp only [List.length_cons] at incomplete
      obtain ⟨type, known, _⟩ := messageSize?_type started size [byte]
      have kept : eat handle byte p = .ok () { p with pending := p.pending ++ [byte] } := by
        have short : n ≠ p.pending.length + 1 := by omega
        simp only [eat, known, size, Option.some.injEq, short, ↓reduceIte]
      rw [run, bind_ok kept, ih (by simp) (messageSize?_append started size (by simp; omega))
        (by simp; omega)]
      simp

/-- The bytes up to the end of the message in progress deliver it. -/
theorem run_eat_complete (handle : Handler σ) {p : Position σ} {n : Nat}
    {more : List UInt8} (started : p.pending ≠ []) (size : messageSize? p.pending = some n)
    (nonempty : more ≠ []) (complete : p.pending.length + more.length = n)
    : ∃ type,
        ClientMessageType.ofCode? (load (p.pending ++ more) 0) = some type
        ∧ run (eat handle) more p = deliver handle type (p.pending ++ more) p := by
  obtain ⟨first, last, rfl⟩ : ∃ first last, more = first ++ [last] :=
    ⟨_, _, (List.dropLast_append_getLast nonempty).symm⟩
  simp only [List.length_append, List.length_singleton] at complete
  have before : run (eat handle) first p = .ok () { p with pending := p.pending ++ first } :=
    run_eat_incomplete handle started size (by omega)
  obtain ⟨type, headed, known⟩ := messageSize?_type started size (first ++ [last])
  refine ⟨type, known, ?_⟩
  have length : messageSize? (p.pending ++ first) = some ((p.pending ++ first).length + 1) := by
    rw [messageSize?_append started size (by omega), List.length_append]
    exact congrArg some (by omega)
  rw [← List.append_assoc] at headed ⊢
  rw [run_append_ok before, run_singleton]
  simp only [eat, headed, length, ↓reduceIte]
  rfl

/-- The first byte fixes the length up to which the message is read first. -/
theorem messageSize?_start {first : UInt8} {type : ClientMessageType}
    (known : ClientMessageType.ofCode? first = some type)
    : messageSize? [first] = some type.sizeof := by
  refine msgSize?_eq_some.mpr ⟨type, known, ?_⟩
  cases type <;> rfl

/-- A byte of a known type starts a message. -/
theorem eat_start (handle : Handler σ) {p : Position σ} {first : UInt8}
    {type : ClientMessageType} (boundary : p.pending = [])
    (known : ClientMessageType.ofCode? first = some type)
    : eat handle first p = .ok () { p with pending := [first] } := by
  have notYet : messageSize? [] ≠ some 1 := by decide
  simp only [eat, boundary, List.nil_append, List.headD_cons, known, List.length_nil,
    Nat.zero_add, notYet, ↓reduceIte]

/-- At a message boundary, exactly the bytes of a message's first stretch deliver it. -/
theorem run_eat_message (handle : Handler σ) {p : Position σ} {first : UInt8}
    {rest : List UInt8} {type : ClientMessageType} (boundary : p.pending = [])
    (known : ClientMessageType.ofCode? first = some type)
    (complete : (first :: rest).length = type.sizeof)
    : run (eat handle) (first :: rest) p = deliver handle type (first :: rest) p := by
  have more : rest ≠ [] := by
    intro same
    rcases same with rfl
    cases type <;> simp [ClientMessageType.sizeof] at complete
  have size : 1 + rest.length = type.sizeof := by
    simpa only [List.length_cons, Nat.add_comm] using complete
  obtain ⟨found, headed, delivered⟩ :=
    @run_eat_complete σ handle { p with pending := [first] } type.sizeof rest (by simp)
      (messageSize?_start known) more size
  have same : found = type := Option.some.inj (headed.symm.trans known)
  subst same
  rw [run, bind_ok (eat_start handle boundary known)]
  exact delivered

end MiniVnc.Parser
