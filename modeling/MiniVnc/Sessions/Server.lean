import MiniVnc.Keyboard.KeyEvents
import MiniVnc.Parser.Fragments
import MiniVnc.Updates.UpdateRequest

/-! The message handlers of `session.c` together, on the state of one session. -/

namespace MiniVnc
open Library.Memory Library.Stream

/-- The part of `session` that the handlers work on, with how many update requests and pointer
events there have been.
-/
structure Server where
  updates : UpdateSession
  keys : KeySession
  asked : Nat
  moved : Nat

/-- What the handlers get from outside: what the n-th update gets, and whether the n-th
`FB_MOVE_MOUSE` succeeds.
-/
structure Drivers where
  update : Nat → Driver
  moves : Nat → Bool

/-- The update functions work on `sess->fb` and the socket. -/
def onUpdates {α : Type} (action : Update α) : EStateM SessionError Server α := fun s =>
  match action s.updates with
  | .ok value updates => .ok value { s with updates }
  | .error e updates => .error e { s with updates }

/-- The key functions work on `sess->kchr` and the keyboard. -/
def onKeys {α : Type} (action : Keys α) : EStateM SessionError Server α := fun s =>
  match action s.keys with
  | .ok value keys => .ok value { s with keys }
  | .error e keys => .error e { s with keys }

/-- `vnc_evt_pointer`; the new position goes to the driver only. -/
def vncEvtPointer (drivers : Drivers) (_evt : VNCPointerEvent) : EStateM SessionError Server Unit := do
  let s ← get
  modify fun s => { s with moved := s.moved + 1 }
  if drivers.moves s.moved then pure () else throw .couldNotMovePointer

/-- The calls that `vnc_handleMessageFragments` makes. What `vnc_evt_encoding_fragment` does to the
message in progress is the parser's.
-/
def serverHandler (drivers : Drivers) : Parser.Handler Server
  | .setPixelFormat evt => do
      Parser.vncEvtSetPixelFormat evt
      return 0
  | .updateRequest evt => do
      let s ← get
      modify fun s => { s with asked := s.asked + 1 }
      onUpdates (vncEvtUpdateRequest (drivers.update s.asked) evt.incremental)
  | .key evt => do
      onKeys (vncEvtKey evt)
      return 0
  | .pointer evt => do
      vncEvtPointer drivers evt
      return 0
  | .setEncoding _ | .setEncodingOne _ | .clientCutText _ => return 0

/-- One message is handled. -/
def handleEvent (drivers : Drivers) (event : Parser.Event) : EStateM SessionError Server Unit := do
  let _ ← serverHandler drivers event

theorem onUpdates_ok_iff {α : Type} {action : Update α} {s s' : Server} {value : α}
    : onUpdates action s = .ok value s'
      ↔ ∃ updates, action s.updates = .ok value updates ∧ s' = { s with updates } := by
  cases result : action s.updates with
  | error e updates => simp [onUpdates, result]
  | ok value' updates =>
      simp only [onUpdates, result, EStateM.Result.ok.injEq]
      constructor
      · rintro ⟨rfl, rfl⟩
        exact ⟨updates, ⟨rfl, rfl⟩, rfl⟩
      · rintro ⟨_, ⟨rfl, rfl⟩, rfl⟩
        exact ⟨rfl, rfl⟩

theorem onKeys_updates {α : Type} {action : Keys α} {s s' : Server} {value : α}
    (returned : onKeys action s = .ok value s')
    : s'.updates = s.updates ∧ s'.asked = s.asked := by
  unfold onKeys at returned
  split at returned
  · cases returned
    exact ⟨rfl, rfl⟩
  · cases returned

/-- What a message that is handled does to the part of the session that updates work on: an update
request is answered, and no other message touches it.
-/
inductive EventHandled (drivers : Drivers) (s : Server) : Parser.Event → Server → Prop
  | answered {evt left updates}
    (answered
      : vncEvtUpdateRequest (drivers.update s.asked) evt.incremental s.updates = .ok left updates)
    : EventHandled drivers s (.updateRequest evt) { s with asked := s.asked + 1, updates }
  | other {event s'} (updates : s'.updates = s.updates) (asked : s'.asked = s.asked)
    (notRequest : ∀ evt, event ≠ .updateRequest evt)
    : EventHandled drivers s event s'

/-- By cases on the message. -/
theorem handleEvent_ok {drivers : Drivers} {event : Parser.Event} {s s' : Server}
    (returned : handleEvent drivers event s = .ok () s')
    : EventHandled drivers s event s' := by
  obtain ⟨left, last, handled, done⟩ := bind_eq_ok.mp returned
  cases done
  cases event with
  | updateRequest evt =>
      rw [serverHandler, get_bind, modify_bind] at handled
      obtain ⟨updates, answered, rfl⟩ := onUpdates_ok_iff.mp handled
      exact .answered answered
  | setPixelFormat evt =>
      obtain ⟨_, middle, accepted, done⟩ := bind_eq_ok.mp handled
      cases done
      unfold Parser.vncEvtSetPixelFormat at accepted
      split at accepted
      · cases accepted
      · cases accepted
        exact .other rfl rfl (fun _ => nofun)
  | key evt =>
      obtain ⟨_, middle, pressed, done⟩ := bind_eq_ok.mp handled
      cases done
      obtain ⟨updates, asked⟩ := onKeys_updates pressed
      exact .other updates asked (fun _ => nofun)
  | pointer evt =>
      obtain ⟨_, middle, moved, done⟩ := bind_eq_ok.mp handled
      cases done
      rw [vncEvtPointer, get_bind, modify_bind] at moved
      split at moved
      · cases moved
        exact .other rfl rfl (fun _ => nofun)
      · cases moved
  | setEncoding evt =>
      cases handled
      exact .other rfl rfl (fun _ => nofun)
  | setEncodingOne evt =>
      cases handled
      exact .other rfl rfl (fun _ => nofun)
  | clientCutText evt =>
      cases handled
      exact .other rfl rfl (fun _ => nofun)

end MiniVnc
