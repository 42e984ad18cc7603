import Mathlib.Data.List.GetD
import Mathlib.Tactic.Ring
import MiniVnc.Updates.UpdateRequest

/-! The bytes an update request is answered with. -/

namespace MiniVnc
open Library.Memory Library.Loop Library.Stream

/-- Everything sent in answer to one request. -/
structure Response where
  colourMap : Option (List VNCColour)
  rect : VNCRect
  body : List UInt8
deriving Repr, DecidableEq

def Response.bytes (response : Response) : List UInt8 :=
  (match response.colourMap with
    | some colours => colourMapHeader.bytes ++ colours.flatMap VNCColour.bytes
    | none => [])
  ++ (updateHeader response.rect).bytes ++ response.body

/-- The rows of the dirty rectangle, as the cursor walks them. -/
def dirtyBody (fb : FrameBuffer) : List UInt8 :=
  (List.range fb.lastDirty.height.toNat).flatMap fun (k : Nat) =>
    slice fb.frameToSend
      (fb.lastDirty.y1 * fb.vi.videoScrX + fb.lastDirty.x1 + k * fb.vi.videoScrX : Int).toNat
      fb.lastDirty.width.toNat

/-- What is sent once the frame buffer is up to date. -/
def responseTo (videoInfo : Video) (incremental : UInt8) (fb : FrameBuffer) : Response where
  colourMap := if fb.clutChanged then some ((List.range 256).map fb.vncClut) else none
  rect :=
    if incremental = 0 ∨ mostlyDirty (fullScreen videoInfo) fb.lastDirty then
      fullScreen videoInfo
    else
      dirtyScreen fb.lastDirty
  body :=
    if incremental = 0 ∨ mostlyDirty (fullScreen videoInfo) fb.lastDirty then
      slice fb.frameToSend 0 fb.frameSize
    else
      dirtyBody fb

/-- The rectangle is read back from the header, whatever follows it. -/
theorem VNCRect.at_header (rect : VNCRect) (body : List UInt8)
    : VNCRect.at (load ((updateHeader rect).bytes ++ body)) 4 = rect := by
  obtain ⟨x, y, w, h⟩ := rect
  simp only [VNCRect.at, VNCRect.mk.injEq]
  exact ⟨ushortAt_eq rfl rfl, ushortAt_eq rfl rfl, ushortAt_eq rfl rfl, ushortAt_eq rfl rfl⟩

theorem colours_length (colours : List VNCColour)
    : (colours.flatMap VNCColour.bytes).length = 6 * colours.length := by
  induction colours with
  | nil => rfl
  | cons colour rest ih =>
      have six : colour.bytes.length = 6 := rfl
      rw [List.flatMap_cons, List.length_append, ih, six, List.length_cons]
      omega

def VNCColour.at (mem : Mem) (p : Nat) : VNCColour :=
  ⟨ushortAt mem p, ushortAt mem (p + 2), ushortAt mem (p + 4)⟩

/-- A colour is read back from its six bytes. -/
theorem VNCColour.at_bytes (colour : VNCColour) (rest : List UInt8)
    : VNCColour.at (load (colour.bytes ++ rest)) 0 = colour := by
  obtain ⟨red, green, blue⟩ := colour
  simp only [VNCColour.at, VNCColour.mk.injEq]
  exact ⟨ushortAt_eq rfl rfl, ushortAt_eq rfl rfl, ushortAt_eq rfl rfl⟩

/-- Behind the first bytes of a block lies the rest of it. -/
theorem VNCColour.at_append (first rest : List UInt8) (p : Nat)
    : VNCColour.at (load (first ++ rest)) (first.length + p) = VNCColour.at (load rest) p := by
  have behind : SameBytes (load (first ++ rest)) (load rest) (first.length + p) p 6 := by
    intro k _
    simp only [load, Nat.add_assoc]
    rw [List.getD_append_right _ _ _ _ (Nat.le_add_right _ _), Nat.add_sub_cancel_left]
  simp only [VNCColour.at, VNCColour.mk.injEq]
  exact ⟨behind.ushort 0 (by omega), behind.ushort 2 (by omega), behind.ushort 4 (by omega)⟩

/-- Each colour of a list is read back from its place, by induction on the list. -/
theorem VNCColour.at_flatMap (colours : List VNCColour) (rest : List UInt8) {i : Nat}
    (inside : i < colours.length)
    : VNCColour.at (load (colours.flatMap VNCColour.bytes ++ rest)) (6 * i) = colours[i] := by
  induction colours generalizing i with
  | nil => exact absurd inside (Nat.not_lt_zero i)
  | cons colour colours ih =>
      rw [List.flatMap_cons, List.append_assoc]
      cases i with
      | zero => exact VNCColour.at_bytes colour _
      | succ i =>
          have six : colour.bytes.length = 6 := rfl
          have place : 6 * (i + 1) = colour.bytes.length + 6 * i := by
            rw [six]
            omega
          rw [place, VNCColour.at_append, List.getElem_cons_succ]
          exact ih (Nat.lt_of_succ_lt_succ inside)

/-- `sock'` is `sock` after `bytes` have been given to it. -/
structure Socket.Took (sock : Socket) (bytes : List UInt8) (sock' : Socket) : Prop where
  results : sock'.results = sock.results
  offered : sock'.offered = sock.offered ++ bytes
  sent
    : (∀ n length, sock.results n length = some length) → sock'.sent = sock.sent ++ bytes

theorem Socket.Took.nothing (sock : Socket) : sock.Took [] sock :=
  ⟨rfl, by simp, fun _ => by simp⟩

theorem Socket.Took.append {sock middle last : Socket} {first rest : List UInt8}
    (took : sock.Took first middle) (then_ : middle.Took rest last)
    : sock.Took (first ++ rest) last := by
  refine ⟨then_.results.trans took.results, ?_, ?_⟩
  · rw [then_.offered, took.offered, List.append_assoc]
  · intro full
    have full' : ∀ n length, middle.results n length = some length := by
      rw [took.results]
      exact full
    rw [then_.sent full', took.sent full, List.append_assoc]

theorem sendw_ok {msg : List UInt8} {s s' : UpdateSession} (h : sendw msg s = .ok () s')
    : s.sock.Took msg s'.sock ∧ s' = { s with sock := s'.sock } := by
  unfold sendw at h
  cases result : s.sock.results s.sock.sends msg.length with
  | none =>
      rw [result] at h
      cases h
  | some accepted =>
      rw [result] at h
      cases h
      refine ⟨⟨rfl, rfl, fun full => ?_⟩, rfl⟩
      have whole := (full s.sock.sends msg.length).symm.trans result
      cases whole
      simp

theorem onFrameBuffer_ok {action : EStateM SessionError FrameBuffer Unit} {s s' : UpdateSession}
    (h : onFrameBuffer action s = .ok () s')
    : ∃ fb, action s.fb = .ok () fb ∧ s' = { s with fb } := by
  cases result : action s.fb with
  | error e fb => simp [onFrameBuffer, result] at h
  | ok done fb =>
      simp only [onFrameBuffer, result] at h
      cases h
      exact ⟨fb, rfl, rfl⟩

/-- The colour map that is due is sent, and the flag is cleared with it. -/
theorem vncUpdSendColourmap_ok {s s' : UpdateSession} (h : vncUpdSendColourmap s = .ok () s')
    : s.sock.Took
          (if s.fb.clutChanged then
            colourMapHeader.bytes ++ ((List.range 256).map s.fb.vncClut).flatMap VNCColour.bytes
          else [])
          s'.sock
      ∧ s' = { s with sock := s'.sock, fb := { s.fb with clutChanged := false } } := by
  rw [vncUpdSendColourmap, get_bind] at h
  cases due : s.fb.clutChanged with
  | false =>
      rw [due] at h
      cases h
      refine ⟨.nothing s.sock, ?_⟩
      rw [← due]
  | true =>
      rw [due] at h
      obtain ⟨_, middle, first, h⟩ := bind_eq_ok.mp h
      obtain ⟨_, last, second, cleared⟩ := bind_eq_ok.mp h
      obtain ⟨header, middleEq⟩ := sendw_ok first
      obtain ⟨colours, lastEq⟩ := sendw_ok second
      cases cleared
      rw [if_pos rfl, List.flatMap_map]
      refine ⟨header.append colours, ?_⟩
      rw [lastEq, middleEq]

/-- With the flag cleared, the header's rectangle depends on the request and the dirty
rectangle only.
-/
theorem vncUpdSendHdrRaw_ok {incremental left : UInt8} {s s' : UpdateSession}
    (cleared : s.fb.clutChanged = false) (h : vncUpdSendHdrRaw incremental s = .ok left s')
    : left = (if mostlyDirty (fullScreen s.videoInfo) s.fb.lastDirty then 0 else incremental)
      ∧ s.sock.Took
          (updateHeader
            (if left ≠ 0 then dirtyScreen s.fb.lastDirty else fullScreen s.videoInfo)).bytes
          s'.sock
      ∧ s' = { s with sock := s'.sock } := by
  rw [vncUpdSendHdrRaw, get_bind, cleared] at h
  obtain ⟨_, last, sends, returned⟩ := bind_eq_ok.mp h
  obtain ⟨header, lastEq⟩ := sendw_ok sends
  cases returned
  exact ⟨rfl, header, lastEq⟩

/-- The rows from the cursor on, one `send` each. -/
def rowsFrom (fb : FrameBuffer) (count : Nat) : List UInt8 :=
  (List.range count).flatMap fun (k : Nat) =>
    slice fb.frameToSend
      (fb.dirtyCursor.offset + k * fb.dirtyCursor.nextRowOffset).toNat fb.lastDirty.width.toNat

theorem rowsFrom_succ (fb : FrameBuffer) (count : Nat)
    : rowsFrom fb (count + 1)
      = slice fb.frameToSend (fbDirtyCursorPtr fb).toNat (fbSizeAtDirtyCursor fb).toNat
        ++ rowsFrom (fbAdvanceDirtyCursor fb) count := by
  rw [rowsFrom, List.range_succ_eq_map, List.flatMap_cons, List.flatMap_map]
  congr 1
  · simp [fbDirtyCursorPtr, fbSizeAtDirtyCursor]
  · refine List.flatMap_congr fun k _ => ?_
    simp only [fbAdvanceDirtyCursor]
    congr 2
    push_cast
    ring

/-- The cursor sends the rows that are left, and stops behind the last: by induction on them.
-/
theorem sendDirtyRows_ok {count : Nat} {s s' : UpdateSession}
    (left : s.fb.lastDirty.height = s.fb.dirtyCursor.numberOfIncrements + count)
    (h : sendDirtyRows count s = .ok () s')
    : s.sock.Took (rowsFrom s.fb count) s'.sock
      ∧ s' = { s with
          sock := s'.sock
          fb := { s.fb with dirtyCursor := s'.fb.dirtyCursor } }
      ∧ fbMoreDirty s'.fb = false := by
  induction count generalizing s with
  | zero =>
      cases h
      refine ⟨.nothing _, rfl, ?_⟩
      simp [fbMoreDirty, left]
  | succ count ih =>
      have more : fbMoreDirty s.fb = true := by
        simp only [fbMoreDirty, left, decide_eq_true_eq]
        omega
      rw [sendDirtyRows, get_bind, if_pos more] at h
      obtain ⟨_, middle, sends, h⟩ := bind_eq_ok.mp h
      obtain ⟨row, middleEq⟩ := sendw_ok sends
      rw [modify_bind, middleEq] at h
      obtain ⟨rest, lastEq, done⟩ :=
        ih (by simp only [fbAdvanceDirtyCursor, left]; push_cast; ring) h
      refine ⟨?_, ?_, done⟩
      · rw [rowsFrom_succ]
        exact row.append rest
      · rw [lastEq]
        rfl

theorem vncSendBodyRaw_ok {incremental : UInt8} {s s' : UpdateSession}
    (proper : 0 ≤ s.fb.lastDirty.height) (h : vncSendBodyRaw incremental s = .ok () s')
    : s.sock.Took
          (if incremental = 0 then slice s.fb.frameToSend 0 s.fb.frameSize else dirtyBody s.fb)
          s'.sock
      ∧ s' = { s with
          sock := s'.sock
          fb := { s.fb with dirtyCursor := s'.fb.dirtyCursor } } := by
  rw [vncSendBodyRaw, get_bind] at h
  by_cases full : incremental = 0
  · rw [if_pos full] at h ⊢
    obtain ⟨body, lastEq⟩ := sendw_ok h
    refine ⟨body, ?_⟩
    rw [lastEq]
  · rw [if_neg full, modify_bind] at h
    rw [if_neg full]
    obtain ⟨rows, lastEq, _⟩ := sendDirtyRows_ok (by simp [fbResetDirtyCursor, proper]) h
    exact ⟨rows, lastEq⟩

/-- What is left of the flag when the header has been sent is zero for a whole screen. -/
theorem left_eq_zero_iff {videoInfo : Video} {incremental left : UInt8} {dirty : FbRect}
    (kind : left = if mostlyDirty (fullScreen videoInfo) dirty then 0 else incremental)
    : left = 0 ↔ incremental = 0 ∨ mostlyDirty (fullScreen videoInfo) dirty = true := by
  rw [kind]
  split_ifs with mostly <;> simp [mostly]

/-- A request that is answered brings the frame buffer up to date, sends the response to it and
clears the flag of the palette.
-/
theorem vncEvtUpdateRequest_ok {driver : Driver} {incremental left : UInt8}
    {s s' : UpdateSession} (h : vncEvtUpdateRequest driver incremental s = .ok left s')
    : ∃ fb, fbUpdate driver s.fb = .ok () fb
        ∧ s.sock.Took (responseTo s.videoInfo incremental fb).bytes s'.sock
        ∧ s' = { s with
            sock := s'.sock
            fb := { fb with clutChanged := false, dirtyCursor := s'.fb.dirtyCursor } } := by
  obtain ⟨_, updated, first, h⟩ := bind_eq_ok.mp h
  obtain ⟨fb, update, rfl⟩ := onFrameBuffer_ok first
  obtain ⟨_, coloured, second, h⟩ := bind_eq_ok.mp h
  obtain ⟨map, colouredEq⟩ := vncUpdSendColourmap_ok second
  obtain ⟨kind, headed, third, h⟩ := bind_eq_ok.mp h
  obtain ⟨kindEq, header, headedEq⟩ := vncUpdSendHdrRaw_ok (by rw [colouredEq]) third
  obtain ⟨_, last, fourth, returned⟩ := bind_eq_ok.mp h
  cases returned
  have colouredFb : coloured.fb = { fb with clutChanged := false } := by rw [colouredEq]
  have colouredInfo : coloured.videoInfo = s.videoInfo := by rw [colouredEq]
  have headedFb : headed.fb = { fb with clutChanged := false } := by rw [headedEq, colouredFb]
  have proper : 0 ≤ headed.fb.lastDirty.height := by
    rw [headedFb]
    exact Int.le_of_lt (fbUpdate_ok update).copied.dirty.height_pos
  obtain ⟨body, lastEq⟩ := vncSendBodyRaw_ok proper fourth
  refine ⟨fb, update, ?_, ?_⟩
  · rw [colouredFb, colouredInfo] at kindEq header
    rw [headedFb] at body
    have took := (map.append header).append body
    have full := left_eq_zero_iff kindEq
    have whole : (responseTo s.videoInfo incremental fb).bytes
        = (if fb.clutChanged then
              colourMapHeader.bytes ++ ((List.range 256).map fb.vncClut).flatMap VNCColour.bytes
            else [])
          ++ (updateHeader
              (if left ≠ 0 then dirtyScreen fb.lastDirty else fullScreen s.videoInfo)).bytes
          ++ if left = 0 then slice fb.frameToSend 0 fb.frameSize else dirtyBody fb := by
      simp only [Response.bytes, responseTo, ← full, ne_eq, ite_not]
      cases fb.clutChanged <;> rfl
    rw [whole]
    exact took
  · rw [lastEq, headedEq, colouredEq]

/-- No `send` fails. -/
def UpdateSession.Accepting (s : UpdateSession) : Prop :=
  ∀ n length, s.sock.results n length ≠ none

theorem sendw_total (msg : List UInt8) : Total UpdateSession.Accepting (sendw msg) := by
  intro s accepting
  cases result : s.sock.results s.sock.sends msg.length with
  | none => exact absurd result (accepting _ _)
  | some accepted =>
      simp only [sendw, result]
      exact ⟨_, _, rfl, accepting⟩

theorem changeFrameBuffer_total (change : FrameBuffer → FrameBuffer)
    : Total UpdateSession.Accepting
        (modify fun s => { s with fb := change s.fb } : Update PUnit) :=
  Total.modify fun _ accepting => accepting

theorem vncUpdSendColourmap_total : Total UpdateSession.Accepting vncUpdSendColourmap := by
  refine Total.get.bind fun s => ?_
  split
  · refine (sendw_total _).bind fun _ => (sendw_total _).bind fun _ => ?_
    exact changeFrameBuffer_total fun fb => { fb with clutChanged := false }
  · exact Total.pure _

theorem vncUpdSendHdrRaw_total (incremental : UInt8)
    : Total UpdateSession.Accepting (vncUpdSendHdrRaw incremental) := by
  refine Total.get.bind fun s => ?_
  exact (sendw_total _).bind fun _ => Total.pure _

/-- By induction on the rows that are left. -/
theorem sendDirtyRows_total (count : Nat)
    : Total UpdateSession.Accepting (sendDirtyRows count) := by
  induction count with
  | zero => exact Total.pure _
  | succ count ih =>
      refine Total.get.bind fun s => ?_
      split
      · refine (sendw_total _).bind fun _ => ?_
        exact (changeFrameBuffer_total fbAdvanceDirtyCursor).bind fun _ => ih
      · exact Total.pure _

theorem vncSendBodyRaw_total (incremental : UInt8)
    : Total UpdateSession.Accepting (vncSendBodyRaw incremental) := by
  refine Total.get.bind fun s => ?_
  split
  · exact sendw_total _
  · exact (changeFrameBuffer_total fbResetDirtyCursor).bind fun _ => sendDirtyRows_total _

/-- Unless a `send` fails, a request is answered once the frame buffer is up to date. -/
theorem vncEvtUpdateRequest_returns {driver : Driver} (incremental : UInt8) {s : UpdateSession}
    {fb : FrameBuffer} (accepting : s.Accepting) (update : fbUpdate driver s.fb = .ok () fb)
    : ∃ left s', vncEvtUpdateRequest driver incremental s = .ok left s' := by
  have updated : onFrameBuffer (fbUpdate driver) s = .ok () { s with fb } := by
    simp only [onFrameBuffer, update]
  have rest : Total UpdateSession.Accepting
      (do
        vncUpdSendColourmap
        let incremental ← vncUpdSendHdrRaw incremental
        vncSendBodyRaw incremental
        return incremental : Update UInt8) := by
    refine vncUpdSendColourmap_total.bind fun _ => ?_
    refine (vncUpdSendHdrRaw_total incremental).bind fun left => ?_
    exact (vncSendBodyRaw_total left).bind fun _ => Total.pure _
  obtain ⟨left, s', returned, _⟩ := rest { s with fb } accepting
  exact ⟨left, s', (bind_ok updated).trans returned⟩

/-- Unless a `send` fails, a request that is not answered sends nothing. -/
theorem vncEvtUpdateRequest_error {driver : Driver} {incremental : UInt8}
    {s s' : UpdateSession} {e : SessionError} (accepting : s.Accepting)
    (h : vncEvtUpdateRequest driver incremental s = .error e s')
    : s'.sock = s.sock := by
  cases update : fbUpdate driver s.fb with
  | ok done fb =>
      obtain ⟨_, _, returned⟩ := vncEvtUpdateRequest_returns incremental accepting update
      rw [returned] at h
      cases h
  | error e' fb =>
      have failed : onFrameBuffer (fbUpdate driver) s = .error e' { s with fb } := by
        simp only [onFrameBuffer, update]
      have ended := (bind_error failed).symm.trans h
      cases ended
      rfl

end MiniVnc
