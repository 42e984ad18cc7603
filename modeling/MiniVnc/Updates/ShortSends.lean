import MiniVnc.Library.Sink
import MiniVnc.Updates.Repaint

/-! What of a response gets to the client when `send` accepts less than it is given. -/

namespace MiniVnc
open Library.Memory Library.Stream Library.Sink

/-- The body as it is given to `send`: in one piece, or row by row. -/
def bodyChunks (full : Bool) (fb : FrameBuffer) : List (List UInt8) :=
  if full then
    [slice fb.frameToSend 0 fb.frameSize]
  else
    (List.range fb.lastDirty.height.toNat).map fun (k : Nat) =>
      slice fb.frameToSend
        (fb.lastDirty.y1 * fb.vi.videoScrX + fb.lastDirty.x1 + k * fb.vi.videoScrX : Int).toNat
        fb.lastDirty.width.toNat

/-- The response as it is given to `send`. -/
def responseChunks (videoInfo : Video) (incremental : UInt8) (fb : FrameBuffer)
    : List (List UInt8) :=
  (if fb.clutChanged then
    [colourMapHeader.bytes, ((List.range 256).map fb.vncClut).flatMap VNCColour.bytes]
  else [])
  ++ [(updateHeader (responseTo videoInfo incremental fb).rect).bytes]
  ++ bodyChunks (incremental = 0 ∨ mostlyDirty (fullScreen videoInfo) fb.lastDirty) fb

theorem responseChunks_flatten (videoInfo : Video) (incremental : UInt8) (fb : FrameBuffer)
    : (responseChunks videoInfo incremental fb).flatten
      = (responseTo videoInfo incremental fb).bytes := by
  have body
      : (bodyChunks (incremental = 0 ∨ mostlyDirty (fullScreen videoInfo) fb.lastDirty) fb).flatten
        = (responseTo videoInfo incremental fb).body := by
    simp only [bodyChunks, responseTo, dirtyBody, decide_eq_true_eq]
    split
    · simp
    · rw [List.flatMap_def]
  rw [responseChunks, List.flatten_append, List.flatten_append, body, Response.bytes]
  simp only [responseTo]
  cases fb.clutChanged <;> simp

/-- How a computation ends that gives `chunks` to the socket, one after another. -/
inductive Gives {α : Type} (chunks : List (List UInt8)) (sock : Socket)
    : EStateM.Result SessionError UpdateSession α → Prop
  | returned {value s' bytes} (took : taken sock.results sock.sends chunks = some bytes)
    (results : s'.sock.results = sock.results)
    (sends : s'.sock.sends = sock.sends + chunks.length)
    (sent : s'.sock.sent = sock.sent ++ bytes)
    : Gives chunks sock (.ok value s')
  | ended {e s'} (failed : taken sock.results sock.sends chunks = none)
    : Gives chunks sock (.error e s')

theorem Gives.nothing {α : Type} (value : α) (s : UpdateSession)
    : Gives [] s.sock (.ok value s) :=
  .returned rfl rfl rfl (List.append_nil _).symm

/-- A computation that goes on after another gives its chunks after those of the other. -/
theorem Gives.bind {α β : Type} {x : Update α} {f : α → Update β} {s : UpdateSession}
    {first rest : List (List UInt8)} (gives : Gives first s.sock (x s))
    (later : ∀ value s', x s = .ok value s' → Gives rest s'.sock (f value s'))
    : Gives (first ++ rest) s.sock ((x >>= f) s) := by
  cases result : x s with
  | error e s' =>
      rw [bind_error result]
      rw [result] at gives
      cases gives with
      | ended failed =>
          refine .ended ?_
          rw [taken_append, failed]
          rfl
  | ok value s' =>
      have then_ := later value s' result
      rw [bind_ok result]
      rw [result] at gives
      cases gives with
      | @returned _ _ bytes took results sends sent =>
          cases second : f value s' with
          | error e t =>
              rw [second] at then_
              cases then_ with
              | ended failed =>
                  refine .ended ?_
                  rw [taken_append, took, ← results, ← sends, failed]
                  rfl
          | ok value' t =>
              rw [second] at then_
              cases then_ with
              | @returned _ _ bytes' took' results' sends' sent' =>
                  rw [results, sends] at took'
                  have both : taken s.sock.results s.sock.sends (first ++ rest)
                      = some (bytes ++ bytes') := by
                    rw [taken_append, took, Option.bind_some, took']
                    rfl
                  refine .returned both (results'.trans results) ?_ ?_
                  · rw [sends', sends, List.length_append, Nat.add_assoc]
                  · rw [sent', sent, List.append_assoc]

theorem sendw_gives (msg : List UInt8) (s : UpdateSession) : Gives [msg] s.sock (sendw msg s) := by
  cases result : s.sock.results s.sock.sends msg.length with
  | none =>
      simp only [sendw, result]
      refine .ended ?_
      simp [taken, result]
  | some accepted =>
      simp only [sendw, result]
      refine .returned ?_ rfl rfl rfl
      simp [taken, result]

theorem vncUpdSendColourmap_gives (s : UpdateSession)
    : Gives
        (if s.fb.clutChanged then
          [colourMapHeader.bytes, ((List.range 256).map s.fb.vncClut).flatMap VNCColour.bytes]
        else [])
        s.sock (vncUpdSendColourmap s) := by
  rw [vncUpdSendColourmap, get_bind]
  cases s.fb.clutChanged with
  | false => exact .nothing _ s
  | true =>
      rw [if_pos rfl, if_pos rfl, List.flatMap_map]
      refine (sendw_gives _ s).bind fun _ middle _ => ?_
      have colours := sendw_gives ((List.range 256).flatMap fun i => (s.fb.vncClut i).bytes) middle
      rw [← List.append_nil [_]]
      refine colours.bind fun _ last _ => ?_
      exact .returned rfl rfl rfl (List.append_nil _).symm

/-- With the flag cleared, the header is that of the response. -/
theorem vncUpdSendHdrRaw_gives (incremental : UInt8) {s : UpdateSession}
    (cleared : s.fb.clutChanged = false)
    : Gives
        [(updateHeader
          (if incremental = 0 ∨ mostlyDirty (fullScreen s.videoInfo) s.fb.lastDirty then
            fullScreen s.videoInfo
          else
            dirtyScreen s.fb.lastDirty)).bytes]
        s.sock (vncUpdSendHdrRaw incremental s) := by
  have rect
      : (if (if mostlyDirty (fullScreen s.videoInfo) s.fb.lastDirty then 0 else incremental) ≠ 0
          then dirtyScreen s.fb.lastDirty
          else fullScreen s.videoInfo)
        = if incremental = 0 ∨ mostlyDirty (fullScreen s.videoInfo) s.fb.lastDirty then
            fullScreen s.videoInfo
          else
            dirtyScreen s.fb.lastDirty := by
    by_cases mostly : mostlyDirty (fullScreen s.videoInfo) s.fb.lastDirty
    · simp [mostly]
    · simp [mostly]
  rw [vncUpdSendHdrRaw, get_bind, cleared, ← rect, ← List.append_nil [_]]
  refine (sendw_gives _ s).bind fun _ last _ => ?_
  exact .nothing _ last

/-- The rows from the cursor on, by induction on how many are left. -/
theorem sendDirtyRows_gives {count : Nat} {s : UpdateSession}
    (left : s.fb.lastDirty.height = s.fb.dirtyCursor.numberOfIncrements + count)
    : Gives
        ((List.range count).map fun (k : Nat) =>
          slice s.fb.frameToSend
            (s.fb.dirtyCursor.offset + k * s.fb.dirtyCursor.nextRowOffset).toNat
            s.fb.lastDirty.width.toNat)
        s.sock (sendDirtyRows count s) := by
  induction count generalizing s with
  | zero => exact .nothing _ s
  | succ count ih =>
      have more : fbMoreDirty s.fb = true := by
        simp only [fbMoreDirty, left, decide_eq_true_eq]
        omega
      rw [sendDirtyRows, get_bind, if_pos more, List.range_succ_eq_map, List.map_cons,
        List.map_map, ← List.singleton_append]
      have here : s.fb.dirtyCursor.offset + ((0 : Nat) : Int) * s.fb.dirtyCursor.nextRowOffset
          = fbDirtyCursorPtr s.fb := by
        simp [fbDirtyCursorPtr]
      rw [here]
      refine (sendw_gives _ s).bind fun _ middle sends => ?_
      obtain ⟨_, middleEq⟩ := sendw_ok sends
      have rest := @ih { middle with fb := fbAdvanceDirtyCursor middle.fb } (by
        rw [middleEq]
        simp only [fbAdvanceDirtyCursor, left]
        push_cast
        ring)
      have rows
          : (fun k : Nat =>
              slice s.fb.frameToSend
                (s.fb.dirtyCursor.offset + k * s.fb.dirtyCursor.nextRowOffset).toNat
                s.fb.lastDirty.width.toNat) ∘ Nat.succ
            = fun k : Nat =>
                slice middle.fb.frameToSend
                  ((fbAdvanceDirtyCursor middle.fb).dirtyCursor.offset
                    + k * (fbAdvanceDirtyCursor middle.fb).dirtyCursor.nextRowOffset).toNat
                  middle.fb.lastDirty.width.toNat := by
        funext k
        rw [middleEq]
        simp only [fbAdvanceDirtyCursor, Function.comp_apply]
        congr 2
        push_cast
        ring
      rw [modify_bind, rows]
      exact rest

theorem vncSendBodyRaw_gives (incremental : UInt8) {s : UpdateSession}
    (proper : 0 ≤ s.fb.lastDirty.height)
    : Gives (bodyChunks (incremental = 0) s.fb) s.sock (vncSendBodyRaw incremental s) := by
  rw [vncSendBodyRaw, get_bind]
  by_cases full : incremental = 0
  · rw [if_pos full]
    simp only [bodyChunks, full, decide_true, if_true]
    exact sendw_gives _ s
  · rw [if_neg full, modify_bind]
    simp only [bodyChunks, full, decide_false, if_false, Bool.false_eq_true]
    have rows := @sendDirtyRows_gives s.fb.lastDirty.height.toNat
      { s with fb := fbResetDirtyCursor s.fb } (by simp [fbResetDirtyCursor, proper])
    exact rows

/-- Once the frame buffer is up to date, a request gives the chunks of its response. -/
theorem vncEvtUpdateRequest_gives {driver : Driver} (incremental : UInt8) {s : UpdateSession}
    {fb : FrameBuffer} (update : fbUpdate driver s.fb = .ok () fb)
    : Gives (responseChunks s.videoInfo incremental fb) s.sock
        (vncEvtUpdateRequest driver incremental s) := by
  have updated : onFrameBuffer (fbUpdate driver) s = .ok () { s with fb } := by
    simp only [onFrameBuffer, update]
  have map := vncUpdSendColourmap_gives { s with fb }
  rw [vncEvtUpdateRequest, bind_ok updated, responseChunks, List.append_assoc]
  refine map.bind fun _ coloured second => ?_
  obtain ⟨_, colouredEq⟩ := vncUpdSendColourmap_ok second
  have colouredFb : coloured.fb = { fb with clutChanged := false } := by rw [colouredEq]
  have colouredInfo : coloured.videoInfo = s.videoInfo := by rw [colouredEq]
  have cleared : coloured.fb.clutChanged = false := by rw [colouredFb]
  have header := vncUpdSendHdrRaw_gives incremental cleared
  rw [colouredFb, colouredInfo] at header
  refine header.bind fun left headed third => ?_
  obtain ⟨leftEq, _, headedEq⟩ := vncUpdSendHdrRaw_ok cleared third
  have headedFb : headed.fb = { fb with clutChanged := false } := by rw [headedEq, colouredFb]
  have proper : 0 ≤ headed.fb.lastDirty.height := by
    rw [headedFb]
    exact Int.le_of_lt (fbUpdate_ok update).copied.dirty.height_pos
  have body := vncSendBodyRaw_gives left proper
  have full : left = 0 ↔ incremental = 0
      ∨ mostlyDirty (fullScreen s.videoInfo) fb.lastDirty = true := by
    rw [leftEq, colouredFb, colouredInfo]
    split_ifs with mostly <;> simp [mostly]
  rw [headedFb] at body
  simp only [full] at body
  rw [← List.append_nil (bodyChunks _ _)]
  exact body.bind fun _ last _ => .nothing _ last

/-- The session has ended with an error, or the client has got the whole response: the colour
map if it is due, the update header and the body.
-/
inductive AnsweredWhole (driver : Driver) (incremental : UInt8) (s : UpdateSession) : Prop
  | ended {e s'} (error : vncEvtUpdateRequest driver incremental s = .error e s')
  | whole {left s' fb} (returned : vncEvtUpdateRequest driver incremental s = .ok left s')
    (update : fbUpdate driver s.fb = .ok () fb)
    (sent : s'.sock.sent = s.sock.sent ++ (responseTo s.videoInfo incremental fb).bytes)

/-- Nothing of a response is lost exactly when one of its sends fails, which ends the session, or
all of them accept everything they are given.
-/
theorem shortSends_loseNothing_iff (driver : Driver) (incremental : UInt8) (s : UpdateSession)
    : AnsweredWhole driver incremental s
      ↔ ∀ fb, fbUpdate driver s.fb = .ok () fb →
          Fails s.sock.results s.sock.sends (responseChunks s.videoInfo incremental fb)
          ∨ TakesAll s.sock.results s.sock.sends (responseChunks s.videoInfo incremental fb) := by
  constructor
  · intro whole fb update
    have gives := vncEvtUpdateRequest_gives incremental update
    cases whole with
    | ended error =>
        rw [error] at gives
        cases gives with
        | ended failed => exact Or.inl (taken_eq_none_iff.mp failed)
    | @whole left s' fb' returned update' sent =>
        have same : fb' = fb := by
          rw [update] at update'
          cases update'
          rfl
        rw [returned] at gives
        cases gives with
        | returned took results sends sentTaken =>
            rw [same, sentTaken, ← responseChunks_flatten] at sent
            rw [List.append_cancel_left sent] at took
            exact Or.inr (taken_eq_flatten_iff.mp took)
  · intro accepted
    cases update : fbUpdate driver s.fb with
    | error e fb =>
        have failed : onFrameBuffer (fbUpdate driver) s = .error e { s with fb } := by
          simp only [onFrameBuffer, update]
        exact .ended (bind_error failed)
    | ok done fb =>
        have gives := vncEvtUpdateRequest_gives incremental update
        cases answer : vncEvtUpdateRequest driver incremental s with
        | error e s' => exact .ended answer
        | ok left s' =>
            rw [answer] at gives
            cases gives with
            | returned took results sends sent =>
                have all := (accepted fb update).resolve_left fun failed => by
                  rw [taken_eq_none_iff.mpr failed] at took
                  cases took
                rw [taken_eq_flatten_iff.mpr all] at took
                cases took
                rw [responseChunks_flatten] at sent
                exact .whole answer update sent

/-- A session on the small screen whose socket has room for fifteen bytes when it is given the
update header.
-/
def crowdedSession : UpdateSession :=
  { quietSession with
    sock := { quietSession.sock with
      results := fun _ length => some (if length = 16 then 15 else length) } }

/-- The last byte of the header is lost, and the body follows at once. -/
theorem shortSend_loses
    : (∀ n length, 0 < length →
        ∃ count, crowdedSession.sock.results n length = some count ∧ 1 ≤ count ∧ count ≤ length)
      ∧ ¬AnsweredWhole (smallDriver (fun _ => 7) 5) 1 crowdedSession := by
  constructor
  · intro n length positive
    by_cases header : length = 16
    · exact ⟨15, congrArg some (if_pos header), by omega, by omega⟩
    · exact ⟨length, congrArg some (if_neg header), positive, Nat.le_refl _⟩
  · intro whole
    have accepted : (endState (vncEvtUpdateRequest (smallDriver (fun _ => 7) 5) 1
        crowdedSession)).sock.sent.length = 16 := by
      decide +kernel
    have given : (responseTo smallScreen 1 (endState (fbUpdate (smallDriver (fun _ => 7) 5)
        crowdedSession.fb))).bytes.length = 17 := by
      decide +kernel
    obtain ⟨left, s', answered⟩ : ∃ left s',
        vncEvtUpdateRequest (smallDriver (fun _ => 7) 5) 1 crowdedSession = .ok left s' := by
      obtain ⟨fb, update⟩ := fbUpdate_returns (smallDriver_answers (fun _ => 7) 5) quietSession.fb
      exact vncEvtUpdateRequest_returns 1 (fun _ _ => Option.some_ne_none _) update
    rw [answered] at accepted
    cases whole with
    | ended error =>
        rw [answered] at error
        cases error
    | @whole _ _ fb returned update sent =>
        rw [answered] at returned
        cases returned
        rw [update] at given
        have some_ : s'.sock.sent.length = 16 := accepted
        have all : (responseTo crowdedSession.videoInfo 1 fb).bytes.length = 17 := given
        have lengths := congrArg List.length sent
        have none : crowdedSession.sock.sent.length = 0 := rfl
        rw [List.length_append, some_, all, none] at lengths
        omega

end MiniVnc
