import MiniVnc.Kernel.KeyCalls
import MiniVnc.Kernel.Pointer
import MiniVnc.Sessions.TypedText

/-! The ioctls that a session makes on the mouse and the keyboard, run on the kernel with whatever
interrupts it.
-/

namespace MiniVnc
open Library.Memory Library.Stream Library.Interrupts Kernel

/-- `newPosition` of `vnc_evt_pointer` -/
def newPosition (evt : VNCPointerEvent) : FbMouse where
  x := evt.x.toInt16
  y := evt.y.toInt16
  button := if evt.btnMask ≠ 0 then 1 else 0

/-- The ioctl of `do_key`. -/
def doKeyIoctl (vsrc : Attached) (code : UInt8) : Attached × InputRequest :=
  (vsrc, .kbKchr (Int32.ofNat code.toNat))

section

variable {κ : Type} (others : Others κ) (modeOf : Int32 → KeyMode) (layout : KchrState)
variable (vsrc : Attached)

/-- The `switch` of `vnc_evt_key` on what `FB_KB_MODE` hands back. -/
def keyIoctls (evt : VNCKeyEvent) (mode : List Int32) : KernelCode κ (List Int32) :=
  match modeOf (mode.headD 0) with
  | .other _ => do
      -- the mode is read again to be printed
      let again ← fbInputIoctl others vsrc .kbMode
      return mode ++ again
  | known => do
      let _ ← fbInputIoctls others ((codesIn known layout evt).map (doKeyIoctl vsrc))
      return mode

/-- What a message asks of the mouse and the keyboard; the result is the modes that it reads. -/
def eventIoctls : Parser.Event → KernelCode κ (List Int32)
  | .key evt => do
      let mode ← fbInputIoctl others vsrc .kbMode
      keyIoctls others modeOf layout vsrc evt mode
  | .pointer evt => do
      let _ ← fbInputIoctl others vsrc (.moveMouse (newPosition evt))
      return []
  | _ => return []

def sessionIoctls : List Parser.Event → KernelCode κ (List Int32)
  | [] => return []
  | event :: events => do
      let modes ← eventIoctls others modeOf layout vsrc event
      let more ← sessionIoctls events
      return modes ++ more

end

/-- The ioctls of a message, with the modes that it reads. -/
inductive EventRequests (modeOf : Int32 → KeyMode) (layout : KchrState) (vsrc : Attached)
    : Parser.Event → List Int32 → List (Attached × InputRequest) → Prop where
  | known {evt mode} (known : ∀ other, modeOf mode ≠ .other other)
    : EventRequests modeOf layout vsrc (.key evt) [mode]
        ((vsrc, .kbMode) :: (codesIn (modeOf mode) layout evt).map (doKeyIoctl vsrc))
  | other {evt mode again other} (other : modeOf mode = .other other)
    : EventRequests modeOf layout vsrc (.key evt) [mode, again]
        [(vsrc, .kbMode), (vsrc, .kbMode)]
  | pointer {evt}
    : EventRequests modeOf layout vsrc (.pointer evt) [] [(vsrc, .moveMouse (newPosition evt))]
  | none {event} (notKey : ∀ evt, event ≠ .key evt) (notPointer : ∀ evt, event ≠ .pointer evt)
    : EventRequests modeOf layout vsrc event [] []

/-- The ioctls of messages one after another. -/
inductive SessionRequests (modeOf : Int32 → KeyMode) (layout : KchrState) (vsrc : Attached)
    : List Parser.Event → List Int32 → List (Attached × InputRequest) → Prop where
  | nil : SessionRequests modeOf layout vsrc [] [] []
  | cons {event events modes more requests rest}
    (first : EventRequests modeOf layout vsrc event modes requests)
    (later : SessionRequests modeOf layout vsrc events more rest)
    : SessionRequests modeOf layout vsrc (event :: events) (modes ++ more) (requests ++ rest)

section

variable {κ ι : Type} {others : Others κ} {irq : Source ι (Devices κ)}
variable {modeOf : Int32 → KeyMode} {layout : KchrState} {vsrc : Attached}

/-- Ioctls that run after one another run as one list, by induction on the first of them. -/
theorem fbInputIoctls_append {first rest : List (Attached × InputRequest)}
    {cpu mid last : Cpu (Devices κ)} {before behind : List (ι × Devices κ)}
    {answers more : List (List Int32)}
    (run : Runs irq (fbInputIoctls others first) cpu before answers mid)
    (run' : Runs irq (fbInputIoctls others rest) mid behind more last)
    : Runs irq (fbInputIoctls others (first ++ rest)) cpu (before ++ behind) (answers ++ more)
        last := by
  induction first generalizing cpu mid before behind answers with
  | nil =>
      obtain ⟨rfl, _⟩ := run.of_done
      exact run.after run'
  | cons request first ih =>
      obtain ⟨answer, here, log, _, rfl, one, later⟩ := run.of_bind
      obtain ⟨answers, there, between, quiet, rfl, rests, waits⟩ := later.of_bind
      obtain ⟨rfl, _⟩ := waits.of_done
      have all : Runs irq (fbInputIoctls others (request :: first ++ rest)) cpu
          (log ++ ((between ++ (quiet ++ behind)) ++ [])) (answer :: (answers ++ more)) last :=
        one.bind ((ih rests (waits.after run')).bind .done)
      simpa using all

/-- `FB_KB_MODE` hands one word back. -/
theorem kbMode_answer {cpu last : Cpu (Devices κ)} {log : List (ι × Devices κ)}
    {answer : List Int32} (run : Runs irq (fbInputIoctl others vsrc .kbMode) cpu log answer last)
    : ∃ mode, answer = [mode] := by
  obtain ⟨mode, _, _, _, _, _, done⟩ := run.of_bind
  exact ⟨mode, done.of_done.1⟩

/-- One ioctl runs as a list of one. -/
theorem fbInputIoctls_one {request : InputRequest} {cpu last : Cpu (Devices κ)}
    {log : List (ι × Devices κ)} {answer : List Int32}
    (run : Runs irq (fbInputIoctl others vsrc request) cpu log answer last)
    : Runs irq (fbInputIoctls others [(vsrc, request)]) cpu log [answer] last := by
  have all : Runs irq (fbInputIoctls others [(vsrc, request)]) cpu (log ++ ([] ++ [])) [answer]
      last :=
    run.bind (.bind .done .done)
  simpa using all

/-- Interrupts after ioctls are interrupts on their way. -/
theorem fbInputIoctls_wait {α : Type} {value : α} {requests : List (Attached × InputRequest)}
    {cpu mid last : Cpu (Devices κ)} {before behind : List (ι × Devices κ)}
    {answers : List (List Int32)}
    (run : Runs irq (fbInputIoctls others requests) cpu before answers mid)
    (done : Runs irq (.done value) mid behind value last)
    : Runs irq (fbInputIoctls others requests) cpu (before ++ behind) answers last := by
  have all : Runs irq (fbInputIoctls others (requests ++ [])) cpu (before ++ behind)
      (answers ++ []) last :=
    fbInputIoctls_append run done.waits
  simpa using all

/-- A key event whose mode is known asks for its codes, all of them. -/
theorem codesIoctls_requests {evt : VNCKeyEvent} {mode : Int32} {known : KeyMode}
    (is : modeOf mode = known) (notOther : ∀ other, known ≠ .other other)
    {cpu mid last : Cpu (Devices κ)} {before behind : List (ι × Devices κ)} {modes : List Int32}
    (asked : Runs irq (fbInputIoctl others vsrc .kbMode) cpu before [mode] mid)
    (rest
      : Runs irq
          (do
            let _ ← fbInputIoctls others ((codesIn known layout evt).map (doKeyIoctl vsrc))
            return [mode])
          mid behind modes last)
    : ∃ requests answers, EventRequests modeOf layout vsrc (.key evt) modes requests
        ∧ Runs irq (fbInputIoctls others requests) cpu (before ++ behind) answers last := by
  obtain ⟨answers, there, between, _, rfl, injected, done⟩ := rest.of_bind
  obtain ⟨rfl, _⟩ := done.of_done
  subst is
  have all := fbInputIoctls_wait injected done
  exact ⟨_, _, .known notOther, fbInputIoctls_append (fbInputIoctls_one asked) all⟩

/-- What a key event asks once it has read the mode, by cases on the mode. -/
theorem keyIoctls_requests {evt : VNCKeyEvent} {mode : Int32} {cpu mid last : Cpu (Devices κ)}
    {before behind : List (ι × Devices κ)} {modes : List Int32}
    (asked : Runs irq (fbInputIoctl others vsrc .kbMode) cpu before [mode] mid)
    (rest : Runs irq (keyIoctls others modeOf layout vsrc evt [mode]) mid behind modes last)
    : ∃ requests answers, EventRequests modeOf layout vsrc (.key evt) modes requests
        ∧ Runs irq (fbInputIoctls others requests) cpu (before ++ behind) answers last := by
  have head : modeOf ([mode].headD 0) = modeOf mode := rfl
  rw [keyIoctls, head] at rest
  cases is : modeOf mode with
  | araw => rw [is] at rest; exact codesIoctls_requests is (fun _ => nofun) asked rest
  | ascii => rw [is] at rest; exact codesIoctls_requests is (fun _ => nofun) asked rest
  | mac => rw [is] at rest; exact codesIoctls_requests is (fun _ => nofun) asked rest
  | other other =>
      rw [is] at rest
      obtain ⟨answer, there, between, _, rfl, again, done⟩ := rest.of_bind
      obtain ⟨later, rfl⟩ := kbMode_answer again
      obtain ⟨rfl, _⟩ := done.of_done
      have all := fbInputIoctls_wait (fbInputIoctls_one again) done
      exact ⟨_, _, .other is, fbInputIoctls_append (fbInputIoctls_one asked) all⟩

/-- What a message asks is a list of ioctls, by cases on the message. -/
theorem eventIoctls_requests {event : Parser.Event} {cpu last : Cpu (Devices κ)}
    {log : List (ι × Devices κ)} {modes : List Int32}
    (run : Runs irq (eventIoctls others modeOf layout vsrc event) cpu log modes last)
    : ∃ requests answers, EventRequests modeOf layout vsrc event modes requests
        ∧ Runs irq (fbInputIoctls others requests) cpu log answers last := by
  have quiet {event : Parser.Event} (notKey : ∀ evt, event ≠ .key evt)
      (notPointer : ∀ evt, event ≠ .pointer evt)
      (run : Runs irq (.done []) cpu log modes last)
      : ∃ requests answers, EventRequests modeOf layout vsrc event modes requests
        ∧ Runs irq (fbInputIoctls others requests) cpu log answers last := by
    obtain ⟨rfl, _⟩ := run.of_done
    exact ⟨[], [], .none notKey notPointer, run.waits⟩
  cases event with
  | key evt =>
      obtain ⟨answer, mid, before, behind, rfl, asked, rest⟩ := run.of_bind
      obtain ⟨mode, rfl⟩ := kbMode_answer asked
      exact keyIoctls_requests asked rest
  | pointer evt =>
      obtain ⟨answer, mid, before, behind, rfl, moved, done⟩ := run.of_bind
      obtain ⟨rfl, _⟩ := done.of_done
      exact ⟨_, _, .pointer, fbInputIoctls_wait (fbInputIoctls_one moved) done⟩
  | setPixelFormat evt => exact quiet (fun _ => nofun) (fun _ => nofun) run
  | updateRequest evt => exact quiet (fun _ => nofun) (fun _ => nofun) run
  | setEncoding evt => exact quiet (fun _ => nofun) (fun _ => nofun) run
  | setEncodingOne evt => exact quiet (fun _ => nofun) (fun _ => nofun) run
  | clientCutText evt => exact quiet (fun _ => nofun) (fun _ => nofun) run

/-- The ioctls of messages one after another, by induction on the messages. -/
theorem sessionIoctls_requests {events : List Parser.Event} {cpu last : Cpu (Devices κ)}
    {log : List (ι × Devices κ)} {modes : List Int32}
    (run : Runs irq (sessionIoctls others modeOf layout vsrc events) cpu log modes last)
    : ∃ requests answers, SessionRequests modeOf layout vsrc events modes requests
        ∧ Runs irq (fbInputIoctls others requests) cpu log answers last := by
  induction events generalizing cpu last log modes with
  | nil =>
      obtain ⟨rfl, _⟩ := run.of_done
      exact ⟨[], [], .nil, run.waits⟩
  | cons event events ih =>
      obtain ⟨modes, mid, before, _, rfl, first, rest⟩ := run.of_bind
      obtain ⟨more, there, between, _, rfl, later, done⟩ := rest.of_bind
      obtain ⟨rfl, _⟩ := done.of_done
      obtain ⟨requests, answers, asked, ran⟩ := eventIoctls_requests first
      obtain ⟨rest, answers', asked', ran'⟩ := ih later
      have all := fbInputIoctls_append ran (fbInputIoctls_wait ran' done)
      exact ⟨_, _, .cons asked asked', all⟩

end

-----------------------------------------------------------------------------------------
-- The ioctls return
-----------------------------------------------------------------------------------------

section

variable {κ ι : Type} (others : Others κ) (irq : Source ι (Devices κ))
variable (modeOf : Int32 → KeyMode) (layout : KchrState) (vsrc : Attached) (level : Nat)

theorem fbInputIoctl_runs (request : InputRequest) (devices : Devices κ)
    : ∃ answer after, Runs irq (fbInputIoctl others vsrc request) ⟨level, devices⟩ [] answer
        ⟨level, after⟩ :=
  ⟨_, _, (fbInputIoctl_sameRuns irq vsrc request _ _ _ _).mpr
    (runs_plain irq (peekingIoctl_plain vsrc request) level devices)⟩

theorem keyIoctls_runs (evt : VNCKeyEvent) (mode : List Int32) (devices : Devices κ)
    : ∃ modes after, Runs irq (keyIoctls others modeOf layout vsrc evt mode) ⟨level, devices⟩ []
        modes ⟨level, after⟩ := by
  rw [keyIoctls]
  split
  · obtain ⟨again, after, reread⟩ := fbInputIoctl_runs others irq vsrc level .kbMode devices
    exact ⟨mode ++ again, after, reread.bind .done⟩
  · exact ⟨mode, _, (fbInputIoctls_runs irq _ level devices).bind .done⟩

/-- What a message asks is answered when nothing interrupts it, by cases on the message. -/
theorem eventIoctls_runs (event : Parser.Event) (devices : Devices κ)
    : ∃ modes after, Runs irq (eventIoctls others modeOf layout vsrc event) ⟨level, devices⟩ []
        modes ⟨level, after⟩ := by
  cases event with
  | key evt =>
      obtain ⟨answer, mid, asked⟩ := fbInputIoctl_runs others irq vsrc level .kbMode devices
      obtain ⟨modes, after, rest⟩ :=
        keyIoctls_runs others irq modeOf layout vsrc level evt answer mid
      exact ⟨modes, after, asked.bind rest⟩
  | pointer evt =>
      obtain ⟨_, after, moved⟩ := fbInputIoctl_runs others irq vsrc level
        (.moveMouse (newPosition evt)) devices
      exact ⟨[], after, moved.bind .done⟩
  | _ => exact ⟨[], devices, .done⟩

/-- By induction on the messages. -/
theorem sessionIoctls_runs (events : List Parser.Event) (devices : Devices κ)
    : ∃ modes after, Runs irq (sessionIoctls others modeOf layout vsrc events) ⟨level, devices⟩ []
        modes ⟨level, after⟩ := by
  induction events generalizing devices with
  | nil => exact ⟨[], devices, .done⟩
  | cons event events ih =>
      obtain ⟨modes, mid, first⟩ :=
        eventIoctls_runs others irq modeOf layout vsrc level event devices
      obtain ⟨more, after, rest⟩ := ih mid
      exact ⟨modes ++ more, after, first.bind (rest.bind .done)⟩

end

-----------------------------------------------------------------------------------------
-- What the ioctls say
-----------------------------------------------------------------------------------------

/-- The pointer event that a call hands over. -/
def Parser.Event.pointer? : Parser.Event → Option VNCPointerEvent
  | .pointer evt => some evt
  | _ => none

/-- The pointer events among the calls. -/
def pointerEvents (events : List Parser.Event) : List VNCPointerEvent :=
  events.filterMap (·.pointer?)

/-- A code as the kernel's callback gets it. -/
def keyCall (code : UInt8) : Int32 × Int32 := (Int32.ofNat code.toNat, 0)

section

variable {modeOf : Int32 → KeyMode} {layout : KchrState} {vsrc : Attached}
variable {event : Parser.Event} {events : List Parser.Event} {modes : List Int32}
variable {requests : List (Attached × InputRequest)}

theorem EventRequests.moves (asked : EventRequests modeOf layout vsrc event modes requests)
    : movesOf requests = (pointerEvents [event]).map newPosition := by
  cases asked with
  | known _ => simp [movesOf, pointerEvents, Parser.Event.pointer?, doKeyIoctl, InputRequest.moves,
      List.flatMap_map]
  | other _ => rfl
  | pointer => rfl
  | none notKey notPointer =>
      cases event with
      | pointer evt => exact absurd rfl (notPointer evt)
      | _ => rfl

/-- A session moves the mouse for its pointer events, by induction on the calls. -/
theorem SessionRequests.moves (asked : SessionRequests modeOf layout vsrc events modes requests)
    : movesOf requests = (pointerEvents events).map newPosition := by
  induction asked with
  | nil => rfl
  | cons first _ ih =>
      have here := first.moves
      simp only [movesOf, pointerEvents] at here ih ⊢
      rw [List.flatMap_append, here, ih, ← List.map_append, ← List.filterMap_append]
      rfl

/-- A session injects the codes of its key events in the modes that it reads, by induction on the
calls.
-/
theorem SessionRequests.keys (asked : SessionRequests modeOf layout vsrc events modes requests)
    {found : Nat → Option KeyMode} {n : Nat}
    (answers : ∀ k mode, modes[k]? = some mode → found (n + k) = some (modeOf mode))
    : keysOf vsrc.videoKeyInd requests
      = (codesFrom found layout n (keyEvents events)).map keyCall := by
  induction asked generalizing n with
  | nil => rfl
  | @cons event events modes more requests rest first _ ih =>
      have split : keysOf vsrc.videoKeyInd (requests ++ rest)
          = keysOf vsrc.videoKeyInd requests ++ keysOf vsrc.videoKeyInd rest :=
        List.flatMap_append
      have quiet {event : Parser.Event} (notKey : ∀ evt, event ≠ .key evt)
          : keyEvents (event :: events) = keyEvents events := by
        rw [← List.singleton_append, keyEvents_append, keyEvents_other notKey, List.nil_append]
      rw [split]
      cases first with
      | @known evt mode known =>
          have later : keysOf vsrc.videoKeyInd rest
              = (codesFrom found layout (n + 1) (keyEvents events)).map keyCall := by
            refine ih fun k mode' is => ?_
            rw [Nat.add_right_comm, Nat.add_assoc]
            exact answers (k + 1) mode' is
          have mine : keysOf vsrc.videoKeyInd
                ((vsrc, .kbMode) :: (codesIn (modeOf mode) layout evt).map (doKeyIoctl vsrc))
              = (codesIn (modeOf mode) layout evt).map keyCall := by
            simp only [keysOf, doKeyIoctl, List.flatMap_cons, List.flatMap_map, if_true,
              InputRequest.keys, List.nil_append]
            exact List.map_eq_flatMap.symm
          have read : found n = some (modeOf mode) := answers 0 mode rfl
          rw [mine, later, ← List.map_append, ← codesFrom_known layout evt _ known read]
          rfl
      | @other evt mode again other is =>
          have later : keysOf vsrc.videoKeyInd rest
              = (codesFrom found layout (n + 2) (keyEvents events)).map keyCall := by
            refine ih fun k mode' is => ?_
            rw [Nat.add_right_comm, Nat.add_assoc]
            exact answers (k + 2) mode' is
          have mine : keysOf vsrc.videoKeyInd [(vsrc, .kbMode), (vsrc, .kbMode)] = [] := by
            simp [keysOf, InputRequest.keys]
          have read : found n = some (.other other) := is ▸ answers 0 mode rfl
          have reread : found (n + 1) = some (modeOf again) := answers 1 again rfl
          rw [mine, later, List.nil_append, ← codesFrom_other layout evt _ read reread]
          rfl
      | @pointer evt =>
          have mine : keysOf vsrc.videoKeyInd [(vsrc, .moveMouse (newPosition evt))] = [] := by
            simp [keysOf, InputRequest.keys]
          have notKey : ∀ key, Parser.Event.pointer evt ≠ .key key := by
            intro key same
            cases same
          rw [mine, quiet notKey, List.nil_append]
          exact ih answers
      | none notKey _ =>
          rw [quiet notKey]
          exact ih answers

end

-----------------------------------------------------------------------------------------
-- Whole sessions
-----------------------------------------------------------------------------------------

section

variable {κ ι : Type} {others : Others κ} {irq : Source ι (Devices κ)}
variable {modeOf : Int32 → KeyMode} {vsrc : Attached} {cpu last : Cpu (Devices κ)}
variable {log : List (ι × Devices κ)} {modes : List Int32}

/-- The codes that a session injects are what the keyboard's callback is called with, each once and
in their order, whatever interrupts the ioctls and however the mode changes, when the session is
told the modes that the kernel hands back and the interrupts leave the calls that were made as
they are.
-/
theorem session_keys_called (outside : Outside) (garbage : Garbage) (sock fd : Nat)
    (opens : outside.opens = true) (s : Sess)
    (ready : setUp outside garbage (.opened outside sock fd) = .ok () s)
    (accepts : ∀ n code, outside.accepts n code = true)
    (noted
      : ∀ i devices,
          (irq.handle i devices).keyCalls vsrc.videoKeyInd = devices.keyCalls vsrc.videoKeyInd)
    (run
      : Runs irq
          (sessionIoctls others modeOf (outside.layout garbage) vsrc
            (handleSession outside garbage sock fd).sess.parser.calls)
          cpu log modes last)
    (told : ∀ k mode, modes[k]? = some mode → outside.mode k = some (modeOf mode))
    : last.memory.keyCalls vsrc.videoKeyInd
      = cpu.memory.keyCalls vsrc.videoKeyInd
        ++ (handleSession outside garbage sock fd).sess.server.keys.keyboard.injected.map
          keyCall := by
  obtain ⟨requests, answers, asked, ran⟩ := sessionIoctls_requests run
  have codes : keysOf vsrc.videoKeyInd requests
      = (codesFrom outside.mode (outside.layout garbage) 0
          (keyEvents (handleSession outside garbage sock fd).sess.parser.calls)).map keyCall := by
    refine asked.keys fun k mode is => ?_
    rw [Nat.zero_add]
    exact told k mode is
  rw [fbInputIoctls_keyCalls noted ran, codes, session_takes opens ready,
    codesTaken_accepting accepts]

theorem session_keys_called_shift
    : ∃ modes devices,
        Runs ticking
            (sessionIoctls quietOthers (fun _ => .araw)
              ((smallTalk shiftBytes).layout (zeroGarbage 0)) ⟨0, 0⟩
              (handleSession (smallTalk shiftBytes) (zeroGarbage 0) 4 3).sess.parser.calls)
            ⟨0, quietDevices⟩ [((), quietDevices)] modes ⟨0, devices⟩
        ∧ devices.keyCalls 0
          = (handleSession (smallTalk shiftBytes) (zeroGarbage 0) 4
              3).sess.server.keys.keyboard.injected.map keyCall := by
  obtain ⟨s, ready⟩ := smallTalk_ready shiftBytes 4 3
  obtain ⟨modes, devices, alone⟩ := sessionIoctls_runs quietOthers ticking (fun _ => .araw)
    ((smallTalk shiftBytes).layout (zeroGarbage 0)) ⟨0, 0⟩ 0
    (handleSession (smallTalk shiftBytes) (zeroGarbage 0) 4 3).sess.parser.calls ticked
  have run : Runs ticking _ ⟨0, quietDevices⟩ [((), quietDevices)] modes ⟨0, devices⟩ :=
    .interrupt () (by decide) alone
  have called := session_keys_called (smallTalk shiftBytes) (zeroGarbage 0) 4 3 rfl s ready
    (fun _ _ => rfl) (fun _ _ => rfl) run (fun _ _ _ => rfl)
  have none : (Cpu.mk 0 quietDevices).memory.keyCalls (Attached.mk 0 0).videoKeyInd = [] := rfl
  rw [none, List.nil_append] at called
  exact ⟨modes, devices, run, called⟩

/-- A client that sends well-formed messages without cut text, behind a version that comes in one
piece and in pieces of any size from there on, moves the Mac environment's mouse, whatever
interrupts the ioctls: the clicks that are posted are the changes of its button, press and release
by turns, and the pointer and the button end where its last pointer event puts them. They are
those of all its pointer events when nothing is refused.
-/
theorem session_moves_mac_mouse (outside : Outside) (garbage : Garbage) (sock fd : Nat)
    (opens : outside.opens = true) (s : Sess)
    (ready : setUp outside garbage (.opened outside sock fd) = .ok () s)
    (receiving : ∀ n, outside.counts n ≠ none) (whole : VersionWhole outside.counts)
    (messages : List Parser.ClientMessage) (proper : ∀ message ∈ messages, message.WellFormed)
    (noCutText : ∀ message ∈ messages, message.text = [])
    (sends : outside.stream.drop 13 = messages.flatMap Parser.ClientMessage.encode)
    (leaves : LeavesMouse others irq) (claimed : cpu.memory.uiDevices ≠ 0)
    (run
      : Runs irq
          (sessionIoctls others modeOf (outside.layout garbage) vsrc
            (handleSession outside garbage sock fd).sess.parser.calls)
          cpu log modes last)
    : let start := cpu.memory.macMouse
      let after := last.memory.macMouse
      let sent := pointerEvents (messages.flatMap Parser.ClientMessage.events)
      ∃ pointed, pointed <+: sent
        ∧ after.posted
          = start.posted
            ++ clicks start.active start.mbState (pointed.map fun evt => (newPosition evt).button)
        ∧ (Settled start.mbState
          → (lastClick start.mbState :: (clicks start.active start.mbState
              (pointed.map fun evt => (newPosition evt).button)).map (·.kind)).IsChain (· ≠ ·))
        ∧ (∀ evt, pointed.getLast? = some evt
          → after.mTemp = (evt.y.toInt16, evt.x.toInt16)
            ∧ after.rawMouse = (evt.y.toInt16, evt.x.toInt16)
            ∧ after.mbState = if evt.btnMask ≠ 0 then 0x00 else 0x80)
        ∧ (outside.Grants → pointed = sent) := by
  intro start after sent
  obtain ⟨requests, answers, asked, ran⟩ := sessionIoctls_requests run
  obtain ⟨heard, _, all⟩ := session_hears opens ready receiving whole proper noCutText sends
  have moved : after = (movesOf requests).foldl MacMouse.moved start :=
    fbInputIoctls_macMouse leaves claimed ran
  rw [asked.moves] at moved
  refine ⟨pointerEvents (handleSession outside garbage sock fd).sess.parser.calls,
    heard.filterMap _, ?_, fun settled => clicks_alternate _ settled _, fun evt isLast => ?_,
    fun grants => ?_⟩
  · rw [moved, foldl_moved_posted, List.map_map]
    rfl
  · obtain ⟨before, split⟩ := List.getLast?_eq_some_iff.mp isLast
    rw [split, List.map_append, List.map_singleton] at moved
    obtain ⟨temp, raw, button⟩ := foldl_moved_last (before.map newPosition) (newPosition evt) start
    rw [moved]
    refine ⟨temp, raw, button.trans ?_⟩
    by_cases pressed : evt.btnMask = 0 <;> simp [buttonByte, newPosition, pressed]
  · obtain ⟨t, returned⟩ := grants.handles ready proper
    rw [all t returned]

end

/-- A client that presses the button, drags the pointer and lets go. -/
def dragMessages : List Parser.ClientMessage :=
  [.pointerEvent 1 3 4, .pointerEvent 1 7 9, .pointerEvent 0 8 9]

def dragBytes : List UInt8 := dragMessages.flatMap Parser.ClientMessage.encode

/-- A Mac environment whose button is up. -/
def claimedDevices : Devices (Bool × Nat × SwapOp → Int32) :=
  { quietDevices with
    uiDevices := 1
    uiLowaddr := fun _ => 0x80 }

theorem ticking_leavesMouse : LeavesMouse quietOthers ticking where
  handle := fun _ devices => macMouse_update devices (by decide) _
  callback := fun _ _ => rfl
  uiPostevent := fun _ _ => rfl

theorem session_moves_mac_mouse_drag
    : ∃ modes devices,
        Runs ticking
            (sessionIoctls quietOthers (fun _ => .araw)
              ((smallTalk dragBytes).layout (zeroGarbage 0)) ⟨0, 0⟩
              (handleSession (smallTalk dragBytes) (zeroGarbage 0) 4 3).sess.parser.calls)
            ⟨0, claimedDevices⟩ [] modes ⟨0, devices⟩
        ∧ devices.posted = [⟨0, .mouseDown⟩, ⟨0, .mouseUp⟩]
        ∧ devices.macMouse.mTemp = (9, 8) := by
  obtain ⟨s, ready⟩ := smallTalk_ready dragBytes 4 3
  obtain ⟨modes, devices, alone⟩ := sessionIoctls_runs quietOthers ticking (fun _ => .araw)
    ((smallTalk dragBytes).layout (zeroGarbage 0)) ⟨0, 0⟩ 0
    (handleSession (smallTalk dragBytes) (zeroGarbage 0) 4 3).sess.parser.calls claimedDevices
  have moves := session_moves_mac_mouse (smallTalk dragBytes) (zeroGarbage 0) 4 3 rfl s ready
    (fun _ => Option.some_ne_none _) ⟨256, rfl, by decide⟩ dragMessages (by decide) (by decide)
    rfl ticking_leavesMouse (by decide) alone
  obtain ⟨pointed, _, posted, _, ends, all⟩ := moves
  cases all (smallTalk_grants dragBytes)
  exact ⟨modes, devices, alone, posted, (ends ⟨5, 0, 8, 9⟩ rfl).1⟩

end MiniVnc
