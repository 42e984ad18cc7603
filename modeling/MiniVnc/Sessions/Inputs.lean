import MiniVnc.Keyboard.Unmapped
import MiniVnc.Sessions.Conversation

/-! Everything that a session injects: the codes of its key events, in the modes in which they find
the keyboard.
-/

namespace MiniVnc
open Library.Memory Library.Stream

/-- The key event that a call hands over. -/
def Parser.Event.key? : Parser.Event → Option VNCKeyEvent
  | .key evt => some evt
  | _ => none

/-- The key events among the calls. -/
def keyEvents (events : List Parser.Event) : List VNCKeyEvent := events.filterMap (·.key?)

/-- The codes of key events with a layout, when the n-th reading of the keyboard's mode gives
`modes n`. An event reads the mode once, and again for a mode that is not told apart; a reading
that fails ends the session.
-/
def codesFrom (modes : Nat → Option KeyMode) (layout : KchrState) (n : Nat)
    : List VNCKeyEvent → List UInt8
  | [] => []
  | evt :: events =>
      match modes n with
      | none => []
      | some (.other _) =>
          match modes (n + 1) with
          | none => []
          | some _ => codesFrom modes layout (n + 2) events
      | some mode => codesIn mode layout evt ++ codesFrom modes layout (n + 1) events

section CodesFrom

variable {modes : Nat → Option KeyMode} (layout : KchrState) {n : Nat} (evt : VNCKeyEvent)
variable (events : List VNCKeyEvent)

theorem codesFrom_known {mode : KeyMode} (known : ∀ other, mode ≠ .other other)
    (read : modes n = some mode)
    : codesFrom modes layout n (evt :: events)
      = codesIn mode layout evt ++ codesFrom modes layout (n + 1) events := by
  rw [codesFrom, read]
  cases mode with
  | other mode => exact absurd rfl (known mode)
  | _ => rfl

theorem codesFrom_other {other : Int} {again : KeyMode} (read : modes n = some (.other other))
    (reread : modes (n + 1) = some again)
    : codesFrom modes layout n (evt :: events) = codesFrom modes layout (n + 2) events := by
  rw [codesFrom, read]
  simp only [reread]

theorem codesFrom_unread
    (unread : modes n = none ∨ ∃ other, modes n = some (.other other) ∧ modes (n + 1) = none)
    : codesFrom modes layout n (evt :: events) = [] := by
  rw [codesFrom]
  rcases unread with none | ⟨other, read, none⟩
  · rw [none]
  · rw [read]
    simp only [none]

end CodesFrom

/-- What a keyboard takes of some codes when it has taken `n` before: those in front of the first
that it rejects.
-/
def codesTaken (accepts : Nat → UInt8 → Bool) : Nat → List UInt8 → List UInt8
  | _, [] => []
  | n, code :: codes => if accepts n code then code :: codesTaken accepts (n + 1) codes else []

section CodesTaken

variable {accepts : Nat → UInt8 → Bool} {n : Nat} {codes : List UInt8}

theorem codesTaken_accepting (all : ∀ n code, accepts n code = true)
    : codesTaken accepts n codes = codes := by
  induction codes generalizing n with
  | nil => rfl
  | cons code codes ih => rw [codesTaken, if_pos (all n code), ih]

/-- Either it takes all codes, or there is one that it rejects. -/
theorem codesTaken_cases (accepts : Nat → UInt8 → Bool) (n : Nat) (codes : List UInt8)
    : codesTaken accepts n codes = codes
      ∨ ∃ code rest, codes = codesTaken accepts n codes ++ code :: rest
          ∧ accepts (n + (codesTaken accepts n codes).length) code = false := by
  induction codes generalizing n with
  | nil => exact Or.inl rfl
  | cons first codes ih =>
      rw [codesTaken]
      by_cases takes : accepts n first
      · rw [if_pos takes]
        rcases ih (n + 1) with whole | ⟨code, rest, split, rejects⟩
        · exact Or.inl (congrArg _ whole)
        · refine Or.inr ⟨code, rest, congrArg _ split, ?_⟩
          rw [List.length_cons, ← Nat.add_assoc, Nat.add_right_comm]
          exact rejects
      · rw [if_neg takes]
        exact Or.inr ⟨first, codes, rfl, eq_false_of_ne_true takes⟩

theorem codesTaken_append (whole : codesTaken accepts n codes = codes) (more : List UInt8)
    : codesTaken accepts n (codes ++ more)
      = codes ++ codesTaken accepts (n + codes.length) more := by
  induction codes generalizing n with
  | nil => rfl
  | cons code codes ih =>
      rw [codesTaken] at whole
      split_ifs at whole with takes
      rw [List.cons_append, codesTaken, if_pos takes, ih (List.cons.inj whole).2,
        List.length_cons, List.cons_append, Nat.add_assoc, Nat.add_comm 1]

/-- Behind a code that is rejected nothing is taken. -/
theorem codesTaken_stops (stops : codesTaken accepts n codes ≠ codes) (more : List UInt8)
    : codesTaken accepts n (codes ++ more) = codesTaken accepts n codes := by
  induction codes generalizing n with
  | nil => exact absurd rfl stops
  | cons code codes ih =>
      rw [List.cons_append, codesTaken, codesTaken]
      rw [codesTaken] at stops
      split_ifs at stops ⊢ with takes
      · rw [ih fun whole => stops (congrArg _ whole)]
      · rfl

end CodesTaken

/-- What the keyboard takes of the codes, as it is. -/
def KeySession.takes (s : KeySession) (codes : List UInt8) : List UInt8 :=
  codesTaken s.keyboard.accepts s.keyboard.injected.length codes

/-- When some codes have been injected, it takes of others what it would take behind these. -/
theorem Injected.takes {s s' : KeySession} {codes : List UInt8} (injected : Injected s codes s')
    (whole : s.takes codes = codes) (more : List UInt8)
    : s.takes (codes ++ more) = codes ++ s'.takes more := by
  rw [KeySession.takes, KeySession.takes, codesTaken_append whole, injected.accepts,
    injected.injected, List.length_append]

/-- A keyboard that rejects a code has taken those before it. -/
theorem run_doKey_meets (codes : List UInt8) (s : KeySession)
    : Meets
        (fun _ s' => Injected s codes s' ∧ s'.keyboard.modeReads = s.keyboard.modeReads
          ∧ s.takes codes = codes)
        (fun _ s' => s'.keyboard.injected = s.keyboard.injected ++ s.takes codes
          ∧ s.takes codes ≠ codes)
        (run doKey codes s) := by
  induction codes generalizing s with
  | nil => exact .ok ⟨.nothing s, rfl, rfl⟩
  | cons code codes ih =>
      by_cases accepts : s.keyboard.accepts s.keyboard.injected.length code
      · have first : doKey code s = .ok ()
            { s with keyboard := { s.keyboard with injected := s.keyboard.injected ++ [code] } } :=
          if_pos accepts
        have one : s.takes [code] = [code] := by
          rw [KeySession.takes, codesTaken, if_pos accepts, codesTaken]
        have takes := (doKey_ok first).takes one codes
        rw [List.singleton_append] at takes
        rw [run, bind_ok first, takes]
        refine (ih _).weaken ?_ ?_
        · rintro _ s' ⟨injected, reads, whole⟩
          exact ⟨(doKey_ok first).append injected, reads, congrArg _ whole⟩
        · rintro _ s' ⟨injected, stops⟩
          refine ⟨?_, fun whole => stops (List.cons.inj whole).2⟩
          rw [injected, List.append_assoc]
      · have first : doKey code s = .error .keyboardIoctlFailed s := if_neg accepts
        have none : s.takes (code :: codes) = [] := by
          rw [KeySession.takes, codesTaken, if_neg accepts]
        rw [run, bind_error first, none]
        exact .error ⟨(List.append_nil _).symm, (List.cons_ne_nil _ _).symm⟩

/-- What a key event does: it injects its codes, or the front of them that the keyboard takes; or it
finds a mode that is not told apart, or one that cannot be read.
-/
inductive KeyHandled (evt : VNCKeyEvent) (s : KeySession)
    : EStateM.Result SessionError KeySession Unit → Prop
  | injected {mode s'} (known : ∀ other, mode ≠ .other other)
    (read : s.keyboard.mode s.keyboard.modeReads = some mode)
    (injected : Injected s (codesIn mode s.kchr evt) s')
    (reads : s'.keyboard.modeReads = s.keyboard.modeReads + 1)
    (whole : s.takes (codesIn mode s.kchr evt) = codesIn mode s.kchr evt)
    : KeyHandled evt s (.ok () s')
  | ignored {other again s'} (read : s.keyboard.mode s.keyboard.modeReads = some (.other other))
    (reread : s.keyboard.mode (s.keyboard.modeReads + 1) = some again)
    (injected : Injected s [] s') (reads : s'.keyboard.modeReads = s.keyboard.modeReads + 2)
    : KeyHandled evt s (.ok () s')
  | rejected {mode e s'} (known : ∀ other, mode ≠ .other other)
    (read : s.keyboard.mode s.keyboard.modeReads = some mode)
    (injected
      : s'.keyboard.injected = s.keyboard.injected ++ s.takes (codesIn mode s.kchr evt))
    (stops : s.takes (codesIn mode s.kchr evt) ≠ codesIn mode s.kchr evt)
    : KeyHandled evt s (.error e s')
  | unread {e s'}
    (unread
      : s.keyboard.mode s.keyboard.modeReads = none
        ∨ ∃ other, s.keyboard.mode s.keyboard.modeReads = some (.other other)
            ∧ s.keyboard.mode (s.keyboard.modeReads + 1) = none)
    (injected : s'.keyboard.injected = s.keyboard.injected)
    : KeyHandled evt s (.error e s')

/-- By cases on the mode. -/
theorem vncEvtKey_handled (evt : VNCKeyEvent) (s : KeySession)
    : KeyHandled evt s (vncEvtKey evt s) := by
  have told {mode : KeyMode} (known : ∀ other, mode ≠ .other other)
      (read : s.keyboard.mode s.keyboard.modeReads = some mode)
      : KeyHandled evt s (vncEvtKey evt s) := by
    have meets := run_doKey_meets (codesIn mode s.kchr evt) s.modeRead
    rw [← vncEvtKey_codes evt known read] at meets
    cases handled : vncEvtKey evt s with
    | ok value s' =>
        rw [handled] at meets
        obtain ⟨injected, reads, whole⟩ := meets.of_ok
        exact .injected known read ((Injected.modeRead s).append injected) reads whole
    | error e s' =>
        rw [handled] at meets
        obtain ⟨injected, stops⟩ := meets.of_error
        exact .rejected known read injected stops
  cases read : s.keyboard.mode s.keyboard.modeReads with
  | none =>
      rw [vncEvtKey, bind_error (kbMode_error read)]
      exact .unread (Or.inl read) rfl
  | some mode =>
      cases mode with
      | araw => exact told (fun _ => KeyMode.noConfusion) read
      | ascii => exact told (fun _ => KeyMode.noConfusion) read
      | mac => exact told (fun _ => KeyMode.noConfusion) read
      | other mode =>
          rw [vncEvtKey, bind_ok (kbMode_ok read)]
          have asks : (discard kbMode : Keys Unit) = (kbMode >>= fun _ => pure ()) := rfl
          dsimp only
          rw [asks]
          cases reread : s.modeRead.keyboard.mode s.modeRead.keyboard.modeReads with
          | none =>
              rw [bind_error (kbMode_error reread)]
              exact .unread (Or.inr ⟨mode, read, reread⟩) rfl
          | some again =>
              rw [bind_ok (kbMode_ok reread)]
              exact .ignored read reread ⟨rfl, rfl, rfl, (List.append_nil _).symm⟩ rfl

/-- Key events inject what the keyboard takes of the codes that they have in their modes: all of
them when it rejects none. By induction on the events.
-/
theorem run_vncEvtKey_meets (events : List VNCKeyEvent) (s : KeySession)
    : Meets
        (fun _ s' =>
          s'.keyboard.injected
            = s.keyboard.injected
              ++ codesFrom s.keyboard.mode s.kchr s.keyboard.modeReads events
          ∧ s.takes (codesFrom s.keyboard.mode s.kchr s.keyboard.modeReads events)
            = codesFrom s.keyboard.mode s.kchr s.keyboard.modeReads events)
        (fun _ s' =>
          s'.keyboard.injected
          = s.keyboard.injected
            ++ s.takes (codesFrom s.keyboard.mode s.kchr s.keyboard.modeReads events))
        (run vncEvtKey events s) := by
  have later {s middle : KeySession} {codes : List UInt8} (injected : Injected s codes middle)
      {reads : Nat} (reads_ : middle.keyboard.modeReads = reads) (events : List VNCKeyEvent)
      : codesFrom middle.keyboard.mode middle.kchr middle.keyboard.modeReads events
        = codesFrom s.keyboard.mode s.kchr reads events := by
    rw [injected.mode, injected.kchr, reads_]
  induction events generalizing s with
  | nil => exact .ok ⟨(List.append_nil _).symm, rfl⟩
  | cons evt events ih =>
      have handled := vncEvtKey_handled evt s
      cases first : vncEvtKey evt s with
      | error e s' =>
          rw [first] at handled
          rw [run, bind_error first]
          cases handled with
          | rejected known read injected stops =>
              refine .error (injected.trans ?_)
              rw [codesFrom_known _ _ _ known read, KeySession.takes, KeySession.takes,
                codesTaken_stops stops]
          | unread unread injected =>
              rw [codesFrom_unread _ _ _ unread]
              exact .error (injected.trans (List.append_nil _).symm)
      | ok value middle =>
          rw [first] at handled
          rw [run, bind_ok first]
          obtain ⟨codes, injected, whole, split⟩
              : ∃ codes, Injected s codes middle ∧ s.takes codes = codes
                ∧ codesFrom s.keyboard.mode s.kchr s.keyboard.modeReads (evt :: events)
                  = codes
                    ++ codesFrom middle.keyboard.mode middle.kchr middle.keyboard.modeReads
                        events := by
            cases handled with
            | injected known read injected reads whole =>
                refine ⟨_, injected, whole, ?_⟩
                rw [codesFrom_known _ _ _ known read, later injected reads]
            | ignored read reread injected reads =>
                refine ⟨[], injected, rfl, ?_⟩
                rw [codesFrom_other _ _ _ read reread, later injected reads, List.nil_append]
          rw [split, injected.takes whole]
          refine (ih middle).weaken ?_ ?_
          · rintro _ s' ⟨injected', rest⟩
            rw [injected', injected.injected, List.append_assoc]
            exact ⟨rfl, congrArg _ rest⟩
          · intro e s' injected'
            rw [injected', injected.injected, List.append_assoc]

-----------------------------------------------------------------------------------------
-- Whole sessions
-----------------------------------------------------------------------------------------

theorem keyEvents_append (first rest : List Parser.Event)
    : keyEvents (first ++ rest) = keyEvents first ++ keyEvents rest :=
  List.filterMap_append

theorem keyEvents_key (evt : VNCKeyEvent) : keyEvents [.key evt] = [evt] :=
  rfl

theorem keyEvents_other {event : Parser.Event} (notKey : ∀ evt, event ≠ .key evt)
    : keyEvents [event] = [] := by
  cases event with
  | key evt => exact absurd rfl (notKey evt)
  | _ => rfl

/-- A message other than a key event leaves the keys' part alone, also if it ends the session. -/
theorem handleEvent_notKey {drivers : Drivers} {event : Parser.Event}
    (notKey : ∀ evt, event ≠ .key evt) (s : Server)
    : (endState (handleEvent drivers event s)).keys = s.keys := by
  cases event with
  | key evt => exact absurd rfl (notKey evt)
  | updateRequest evt =>
      rw [handleEvent_request, onUpdates]
      split <;> rfl
  | setPixelFormat evt =>
      rw [handleEvent_pixelFormat, Parser.vncEvtSetPixelFormat]
      split <;> rfl
  | pointer evt =>
      rw [handleEvent_pointer, vncEvtPointer, get_bind, modify_bind]
      split <;> rfl
  | setEncoding evt => rfl
  | setEncodingOne evt => rfl
  | clientCutText evt => rfl

/-- One message does to the keys' part what its key event does, if it is one. -/
theorem handleEvent_keys (drivers : Drivers) (event : Parser.Event) (s : Server)
    : (endState (handleEvent drivers event s)).keys
        = endState (run vncEvtKey (keyEvents [event]) s.keys)
      ∧ ∀ t, handleEvent drivers event s = .ok () t
          → run vncEvtKey (keyEvents [event]) s.keys = .ok () t.keys := by
  by_cases key : ∃ evt, event = .key evt
  · obtain ⟨evt, rfl⟩ := key
    rw [handleEvent_key, keyEvents_key, run_singleton, onKeys]
    cases pressed : vncEvtKey evt s.keys with
    | ok value keys =>
        refine ⟨rfl, ?_⟩
        intro t returned
        cases returned
        rfl
    | error e keys =>
        refine ⟨rfl, ?_⟩
        intro t returned
        cases returned
  · have notKey : ∀ evt, event ≠ .key evt := fun evt same => key ⟨evt, same⟩
    have same := @handleEvent_notKey drivers _ notKey s
    rw [keyEvents_other notKey]
    refine ⟨same, ?_⟩
    intro t returned
    rw [returned] at same
    have same' : t.keys = s.keys := same
    rw [same']
    rfl

/-- Messages that are handled do to the keys' part what the key events among them do. -/
theorem run_handleEvent_keys {drivers : Drivers} {events : List Parser.Event} {s t : Server}
    (returned : run (handleEvent drivers) events s = .ok () t)
    : run vncEvtKey (keyEvents events) s.keys = .ok () t.keys := by
  induction events generalizing s with
  | nil =>
      cases returned
      rfl
  | cons event events ih =>
      obtain ⟨_, middle, handled, rest⟩ := bind_eq_ok.mp returned
      have first := (handleEvent_keys drivers event s).2 middle handled
      rw [← List.singleton_append, keyEvents_append, run_append_ok first]
      exact ih rest

/-- The calls of a session do to the keys' part what its key events do. -/
theorem CallsMade.keys {drivers : Drivers} {s s' : Server} {events : List Parser.Event}
    (calls : CallsMade drivers s events s')
    : s'.keys = endState (run vncEvtKey (keyEvents events) s.keys) := by
  cases calls with
  | returned handled =>
      rw [run_handleEvent_keys handled]
      rfl
  | @ended _ event middle e _ handled last =>
      have same := (handleEvent_keys drivers event middle).1
      rw [last] at same
      rw [keyEvents_append, run_append_ok (run_handleEvent_keys handled)]
      exact same

/-- The calls of a session inject what the keyboard takes of the codes of its key events. -/
theorem CallsMade.injects {drivers : Drivers} {s s' : Server} {events : List Parser.Event}
    (calls : CallsMade drivers s events s')
    : s'.keys.keyboard.injected
      = s.keys.keyboard.injected
        ++ s.keys.takes
          (codesFrom s.keys.keyboard.mode s.keys.kchr s.keys.keyboard.modeReads
            (keyEvents events)) := by
  have meets := run_vncEvtKey_meets (keyEvents events) s.keys
  rw [calls.keys]
  generalize run vncEvtKey (keyEvents events) s.keys = result at meets ⊢
  cases meets with
  | ok injected =>
      rw [injected.2]
      exact injected.1
  | error injected => exact injected

/-- The layout that a session loads. -/
def Outside.layout (outside : Outside) (garbage : Garbage) : KchrState :=
  kchrLoad outside.kchrChunks garbage.kchr garbage.chunk .zeroed

theorem setUp_keys {outside : Outside} {garbage : Garbage} {sock fd : Nat} {s : Sess}
    (ready : setUp outside garbage (.opened outside sock fd) = .ok () s)
    : s.server.keys
      = ⟨⟨outside.mode, 0, outside.accepts, []⟩, outside.layout garbage⟩ := by
  obtain ⟨_, _, _, _, _, _, _, _, _, _, rfl⟩ := setUp_ok_iff.mp ready
  rfl

/-- A session injects what the keyboard takes of the codes of its key events. -/
theorem session_takes {outside : Outside} {garbage : Garbage} {sock fd : Nat}
    (opens : outside.opens = true) {s : Sess}
    (ready : setUp outside garbage (.opened outside sock fd) = .ok () s)
    : (handleSession outside garbage sock fd).sess.server.keys.keyboard.injected
      = codesTaken outside.accepts 0
          (codesFrom outside.mode (outside.layout garbage) 0
            (keyEvents (handleSession outside garbage sock fd).sess.parser.calls)) := by
  have injected := (session_calls opens ready).injects
  rw [setUp_keys ready] at injected
  exact injected

/-- Over a whole session, from its first byte to its clean-up, the codes injected are those of its
key events with the layout loaded at its start, each in the mode in which it finds the keyboard;
neither the set-up, nor any other message, nor the clean-up injects any. A keyboard that rejects a
code has taken exactly the codes before it.
-/
theorem session_injects (outside : Outside) (garbage : Garbage) (sock fd : Nat)
    (opens : outside.opens = true) (s : Sess)
    (ready : setUp outside garbage (.opened outside sock fd) = .ok () s)
    : let codes := codesFrom outside.mode (outside.layout garbage) 0
        (keyEvents (handleSession outside garbage sock fd).sess.parser.calls)
      let injected := (handleSession outside garbage sock fd).sess.server.keys.keyboard.injected
      injected = codesTaken outside.accepts 0 codes
      ∧ (injected = codes
        ∨ ∃ code rest, codes = injected ++ code :: rest
            ∧ outside.accepts injected.length code = false)
      ∧ ((∀ n code, outside.accepts n code = true) → injected = codes) := by
  intro codes injected
  have takes : injected = codesTaken outside.accepts 0 codes := session_takes opens ready
  refine ⟨takes, ?_, fun accepting => takes.trans (codesTaken_accepting accepting)⟩
  have either := codesTaken_cases outside.accepts 0 codes
  rw [← takes, Nat.zero_add] at either
  exact either

/-- A client that presses and releases the left shift key. -/
def shiftBytes : List UInt8 := [4, 1, 0, 0, 0, 0, 0xff, 0xe1, 4, 0, 0, 0, 0, 0, 0xff, 0xe1]

theorem session_injects_shift
    : (handleSession (smallTalk shiftBytes) (zeroGarbage 0) 4
            3).sess.server.keys.keyboard.injected
        = codesFrom (fun _ => some .araw) ((smallTalk shiftBytes).layout (zeroGarbage 0)) 0
            (keyEvents (handleSession (smallTalk shiftBytes) (zeroGarbage 0) 4
              3).sess.parser.calls) := by
  obtain ⟨s, ready⟩ := smallTalk_ready shiftBytes 4 3
  exact (session_injects (smallTalk shiftBytes) (zeroGarbage 0) 4 3 rfl s ready).2.2 fun _ _ => rfl

end MiniVnc
