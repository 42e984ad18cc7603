import MiniVnc.Updates.Framing

/-! What an update request gives to `send`, also when it ends the session. -/

namespace MiniVnc
open Library.Memory Library.Stream

def UpdateSession.offered (s : UpdateSession) : List UInt8 := s.sock.offered

theorem sendw_grows (msg : List UInt8) : Ascends (Grows UpdateSession.offered) (sendw msg) := by
  intro s
  cases result : s.sock.results s.sock.sends msg.length with
  | none =>
      simp only [sendw, result]
      exact List.prefix_rfl
  | some accepted =>
      simp only [sendw, result]
      exact List.prefix_append _ _

theorem onFrameBuffer_grows (action : EStateM SessionError FrameBuffer Unit)
    : Ascends (Grows UpdateSession.offered) (onFrameBuffer action) := by
  intro s
  unfold onFrameBuffer
  split <;> exact List.prefix_rfl

theorem changeFrameBuffer_grows (change : FrameBuffer → FrameBuffer)
    : Ascends (Grows UpdateSession.offered)
        (modify fun s => { s with fb := change s.fb } : Update PUnit) :=
  .modify fun _ => List.prefix_rfl

theorem vncUpdSendColourmap_grows
    : Ascends (Grows UpdateSession.offered) vncUpdSendColourmap := by
  refine .get_bind fun s => ?_
  split
  · refine ((sendw_grows _).bind fun _ => (sendw_grows _).bind fun _ => ?_) s
    exact changeFrameBuffer_grows fun fb => { fb with clutChanged := false }
  · exact List.prefix_rfl

theorem vncUpdSendHdrRaw_grows (incremental : UInt8)
    : Ascends (Grows UpdateSession.offered) (vncUpdSendHdrRaw incremental) := by
  refine .get_bind fun s => ?_
  exact ((sendw_grows _).bind fun _ => .pure _) s

/-- By induction on the rows that are left. -/
theorem sendDirtyRows_grows (count : Nat)
    : Ascends (Grows UpdateSession.offered) (sendDirtyRows count) := by
  induction count with
  | zero => exact .pure ()
  | succ count ih =>
      refine .get_bind fun s => ?_
      split
      · refine ((sendw_grows _).bind fun _ => ?_) s
        exact (changeFrameBuffer_grows fbAdvanceDirtyCursor).bind fun _ => ih
      · exact List.prefix_rfl

theorem vncSendBodyRaw_grows (incremental : UInt8)
    : Ascends (Grows UpdateSession.offered) (vncSendBodyRaw incremental) := by
  refine .get_bind fun s => ?_
  split
  · exact sendw_grows _ s
  · refine ((changeFrameBuffer_grows fbResetDirtyCursor).bind fun _ => ?_) s
    exact sendDirtyRows_grows _

theorem vncEvtUpdateRequest_grows (driver : Driver) (incremental : UInt8)
    : Ascends (Grows UpdateSession.offered) (vncEvtUpdateRequest driver incremental) := by
  refine (onFrameBuffer_grows _).bind fun _ => vncUpdSendColourmap_grows.bind fun _ => ?_
  refine (vncUpdSendHdrRaw_grows _).bind fun left => ?_
  exact (vncSendBodyRaw_grows left).bind fun _ => .pure _

-----------------------------------------------------------------------------------------
-- The rectangle that is sent
-----------------------------------------------------------------------------------------

/-- The bytes that a request gives to `send`. -/
def givenFor (driver : Driver) (incremental : UInt8) (s : UpdateSession) : List UInt8 :=
  (endState (vncEvtUpdateRequest driver incremental s)).offered.drop s.offered.length

/-- The rectangle in them: it stands in the header that comes first, or first behind a colour map.
-/
def rectIn (bytes : List UInt8) : Option VNCRect :=
  let update :=
    if colourMapHeader.bytes.isPrefixOf bytes then bytes.drop (6 + 6 * 256) else bytes
  if 16 ≤ update.length then some (VNCRect.at (load update) 4) else none

/-- A colour map of 256 colours, or none. -/
abbrev MapBytes (map : List UInt8) : Prop :=
  map = [] ∨ ∃ colours : List VNCColour, colours.length = 256
    ∧ map = colourMapHeader.bytes ++ colours.flatMap VNCColour.bytes

theorem MapBytes.rectIn {map : List UInt8} (isMap : MapBytes map) : MiniVnc.rectIn map = none := by
  rcases isMap with rfl | ⟨colours, length, rfl⟩
  · rfl
  · have starts : colourMapHeader.bytes.isPrefixOf
        (colourMapHeader.bytes ++ colours.flatMap VNCColour.bytes) := rfl
    have header : colourMapHeader.bytes.length = 6 := rfl
    simp only [MiniVnc.rectIn, if_pos starts]
    rw [List.drop_eq_nil_of_le]
    · rfl
    · rw [List.length_append, header, colours_length, length]

/-- Behind a colour map the header is read back, whatever follows it. -/
theorem MapBytes.rectIn_header {map : List UInt8} (isMap : MapBytes map) (rect : VNCRect)
    (rest : List UInt8)
    : MiniVnc.rectIn (map ++ ((updateHeader rect).bytes ++ rest)) = some rect := by
  have long : 16 ≤ ((updateHeader rect).bytes ++ rest).length := by
    have header : (updateHeader rect).bytes.length = 16 := rfl
    rw [List.length_append, header]
    exact Nat.le_add_right _ _
  rcases isMap with rfl | ⟨colours, length, rfl⟩
  · have other : ¬colourMapHeader.bytes.isPrefixOf ((updateHeader rect).bytes ++ rest) :=
      Bool.false_ne_true
    simp only [List.nil_append, MiniVnc.rectIn, if_neg other, if_pos long, VNCRect.at_header]
  · have starts : colourMapHeader.bytes.isPrefixOf
        (colourMapHeader.bytes ++ colours.flatMap VNCColour.bytes
          ++ ((updateHeader rect).bytes ++ rest)) := rfl
    have behind : 6 + 6 * 256
        = (colourMapHeader.bytes ++ colours.flatMap VNCColour.bytes).length := by
      rw [List.length_append, colours_length, length]
      rfl
    simp only [MiniVnc.rectIn, if_pos starts]
    rw [behind, List.drop_left, if_pos long, VNCRect.at_header]

/-- The sends up to the header of an update are taken: that of the header alone, or those of the
colour map first.
-/
def Socket.TakesHeader (sock : Socket) (mapDue : Bool) : Prop :=
  if mapDue then
    sock.results sock.sends 6 ≠ none ∧ sock.results (sock.sends + 1) (6 * 256) ≠ none
      ∧ sock.results (sock.sends + 2) 16 ≠ none
  else
    sock.results sock.sends 16 ≠ none

theorem Socket.takesHeader_due {sock : Socket}
    : sock.TakesHeader true
      ↔ sock.results sock.sends 6 ≠ none ∧ sock.results (sock.sends + 1) (6 * 256) ≠ none
        ∧ sock.results (sock.sends + 2) 16 ≠ none :=
  Iff.rfl

theorem sendw_error {msg : List UInt8} {s s' : UpdateSession} {e : SessionError}
    (h : sendw msg s = .error e s')
    : s'.offered = s.offered ∧ s.sock.results s.sock.sends msg.length = none := by
  unfold sendw at h
  split at h
  · next fails =>
      cases h
      exact ⟨rfl, fails⟩
  · cases h

theorem sendw_taken {msg : List UInt8} {s s' : UpdateSession} (h : sendw msg s = .ok () s')
    : s.sock.results s.sock.sends msg.length ≠ none ∧ s'.sock.results = s.sock.results
      ∧ s'.sock.sends = s.sock.sends + 1 := by
  unfold sendw at h
  split at h
  · cases h
  · next accepted takes =>
      cases h
      exact ⟨takes ▸ Option.some_ne_none _, rfl, rfl⟩

theorem coloursSent_length (colours : Nat → VNCColour)
    : ((List.range 256).flatMap fun i => (colours i).bytes).length = 6 * 256 := by
  have each (i : Nat) : (colours i).bytes.length = 6 := rfl
  rw [flatMap_length each, List.length_range]

/-- A colour map that is not sent whole is given up to its header at most. -/
theorem vncUpdSendColourmap_error {s s' : UpdateSession} {e : SessionError}
    (h : vncUpdSendColourmap s = .error e s')
    : (∃ given, s'.offered = s.offered ++ given ∧ rectIn given = none)
      ∧ ¬s.sock.TakesHeader s.fb.clutChanged := by
  rw [vncUpdSendColourmap, get_bind] at h
  cases due : s.fb.clutChanged with
  | false =>
      rw [due] at h
      cases h
  | true =>
      rw [due, if_pos rfl] at h
      rw [Socket.takesHeader_due]
      rcases bind_eq_error.mp h with first | ⟨_, middle, first, h⟩
      · obtain ⟨offered, fails⟩ := sendw_error first
        exact ⟨⟨[], by rw [offered, List.append_nil], rfl⟩, fun takes => takes.1 fails⟩
      · obtain ⟨_, results, sends⟩ := sendw_taken first
        rcases bind_eq_error.mp h with second | ⟨_, last, _, cleared⟩
        · obtain ⟨offered, fails⟩ := sendw_error second
          rw [coloursSent_length, results, sends] at fails
          exact ⟨⟨colourMapHeader.bytes, offered.trans (sendw_ok first).1.offered, rfl⟩,
            fun takes => takes.2.1 fails⟩
        · cases cleared

/-- Behind the colour map only the header itself is left to be taken. -/
theorem vncUpdSendColourmap_takes {s s' : UpdateSession}
    (h : vncUpdSendColourmap s = .ok () s')
    : s.sock.TakesHeader s.fb.clutChanged ↔ s'.sock.results s'.sock.sends 16 ≠ none := by
  rw [vncUpdSendColourmap, get_bind] at h
  cases due : s.fb.clutChanged with
  | false =>
      rw [due] at h
      cases h
      exact Iff.rfl
  | true =>
      rw [due, if_pos rfl] at h
      obtain ⟨_, middle, first, h⟩ := bind_eq_ok.mp h
      obtain ⟨_, last, second, cleared⟩ := bind_eq_ok.mp h
      cases cleared
      obtain ⟨takes, results, sends⟩ := sendw_taken first
      obtain ⟨takes', results', sends'⟩ := sendw_taken second
      rw [coloursSent_length, results, sends] at takes'
      dsimp only
      rw [Socket.takesHeader_due, results', results, sends', sends, and_iff_right takes',
        and_iff_right_iff_imp]
      exact fun _ => takes

theorem vncUpdSendHdrRaw_error {incremental : UInt8} {s s' : UpdateSession} {e : SessionError}
    (h : vncUpdSendHdrRaw incremental s = .error e s')
    : s'.offered = s.offered ∧ s.sock.results s.sock.sends 16 = none := by
  rw [vncUpdSendHdrRaw, get_bind] at h
  rcases bind_eq_error.mp h with sends | ⟨_, last, _, returned⟩
  · exact sendw_error sends
  · cases returned

theorem vncUpdSendHdrRaw_taken {incremental left : UInt8} {s s' : UpdateSession}
    (h : vncUpdSendHdrRaw incremental s = .ok left s')
    : s.sock.results s.sock.sends 16 ≠ none := by
  rw [vncUpdSendHdrRaw, get_bind] at h
  obtain ⟨_, last, sends, _⟩ := bind_eq_ok.mp h
  exact (sendw_taken sends).1

/-- The rectangle that is sent, if the header is taken, is that of the response: by cases on how far
the request gets.
-/
theorem rectIn_givenFor (driver : Driver) (incremental : UInt8) (s : UpdateSession)
    : (rectIn (givenFor driver incremental s) = none
        ∧ ∀ fb, fbUpdate driver s.fb = .ok () fb → ¬s.sock.TakesHeader fb.clutChanged)
      ∨ ∃ fb, fbUpdate driver s.fb = .ok () fb
          ∧ s.sock.TakesHeader fb.clutChanged
          ∧ rectIn (givenFor driver incremental s)
            = some (responseTo s.videoInfo incremental fb).rect := by
  cases update : fbUpdate driver s.fb with
  | error e fb =>
      have failed : onFrameBuffer (fbUpdate driver) s = .error e { s with fb } := by
        simp only [onFrameBuffer, update]
      have nothing : givenFor driver incremental s = [] := by
        rw [givenFor, vncEvtUpdateRequest, bind_error failed]
        exact List.drop_length
      refine Or.inl ⟨congrArg rectIn nothing, ?_⟩
      rintro _ ⟨⟩
  | ok done fb =>
      have updated : onFrameBuffer (fbUpdate driver) s = .ok () { s with fb } := by
        simp only [onFrameBuffer, update]
      rw [givenFor, vncEvtUpdateRequest, bind_ok updated]
      cases coloured : vncUpdSendColourmap { s with fb } with
      | error e last =>
          obtain ⟨⟨given, offered, none_⟩, refused⟩ := vncUpdSendColourmap_error coloured
          rw [bind_error coloured, endState, offered]
          refine Or.inl ⟨(congrArg rectIn (List.drop_left ..)).trans none_, ?_⟩
          rintro _ ⟨⟩
          exact refused
      | ok done middle =>
          obtain ⟨map, middleEq⟩ := vncUpdSendColourmap_ok coloured
          have takes := vncUpdSendColourmap_takes coloured
          have isMap : MapBytes
              (if fb.clutChanged then
                colourMapHeader.bytes ++ ((List.range 256).map fb.vncClut).flatMap VNCColour.bytes
              else []) := by
            split
            · exact Or.inr ⟨_, by rw [List.length_map, List.length_range], rfl⟩
            · exact Or.inl rfl
          have offered : middle.offered = s.offered ++ _ := map.offered
          rw [bind_ok coloured]
          cases headed : vncUpdSendHdrRaw incremental middle with
          | error e last =>
              obtain ⟨same, refused⟩ := vncUpdSendHdrRaw_error headed
              rw [bind_error headed, endState, same, offered, List.drop_left]
              refine Or.inl ⟨isMap.rectIn, ?_⟩
              rintro _ ⟨⟩ header
              exact takes.mp header refused
          | ok left last =>
              obtain ⟨kind, header, _⟩ := vncUpdSendHdrRaw_ok (by rw [middleEq]) headed
              obtain ⟨rest, all⟩ := ((vncSendBodyRaw_grows left).bind fun _ =>
                (.pure left : Ascends (Grows UpdateSession.offered) _)) last
              have offered' : last.offered = middle.offered ++ _ := header.offered
              have rect : (if left ≠ 0 then dirtyScreen middle.fb.lastDirty
                    else fullScreen middle.videoInfo)
                  = (responseTo s.videoInfo incremental fb).rect := by
                rw [middleEq] at kind ⊢
                simp only [responseTo, ← left_eq_zero_iff kind, ne_eq, ite_not]
              rw [bind_ok headed, ← all, offered', offered, List.append_assoc, List.append_assoc,
                List.drop_left, isMap.rectIn_header, rect]
              exact Or.inr ⟨fb, rfl, takes.mpr (vncUpdSendHdrRaw_taken headed), rfl⟩

end MiniVnc
