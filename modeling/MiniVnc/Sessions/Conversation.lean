import MiniVnc.Sessions.WholeStream

/-! Everything that a session sends: the greeting, and one response for each update request that it
answers.
-/

namespace MiniVnc
open Library.Memory Library.Stream

section Messages

variable (drivers : Drivers)

theorem handleEvent_request (evt : VNCFBUpdateReq) (s : Server)
    : handleEvent drivers (.updateRequest evt) s
      = onUpdates (serve ⟨drivers.update s.asked, evt.incremental⟩)
          { s with asked := s.asked + 1 } := by
  have handled : serverHandler drivers (.updateRequest evt) s
      = onUpdates (vncEvtUpdateRequest (drivers.update s.asked) evt.incremental)
          { s with asked := s.asked + 1 } := by
    rw [serverHandler, get_bind, modify_bind]
  unfold onUpdates at handled ⊢
  cases answered : vncEvtUpdateRequest (drivers.update s.asked) evt.incremental s.updates with
  | ok left updates =>
      simp only [answered] at handled
      rw [handleEvent, bind_ok handled, serve, bind_ok answered]
      rfl
  | error e updates =>
      simp only [answered] at handled
      rw [handleEvent, bind_error handled, serve, bind_error answered]

theorem handleEvent_key (evt : VNCKeyEvent)
    : handleEvent drivers (.key evt) = onKeys (vncEvtKey evt) := by
  simp [handleEvent, serverHandler]

theorem handleEvent_pointer (evt : VNCPointerEvent)
    : handleEvent drivers (.pointer evt) = vncEvtPointer drivers evt := by
  simp [handleEvent, serverHandler]

theorem handleEvent_pixelFormat (evt : VNCSetPixFormat)
    : handleEvent drivers (.setPixelFormat evt) = Parser.vncEvtSetPixelFormat evt := by
  simp [handleEvent, serverHandler]

end Messages

/-- The update requests among the calls, the first of which is the `n`-th of the session. -/
def requestsOf (drivers : Drivers) (n : Nat) : List Parser.Event → List Request
  | [] => []
  | .updateRequest evt :: events =>
      ⟨drivers.update n, evt.incremental⟩ :: requestsOf drivers (n + 1) events
  | _ :: events => requestsOf drivers n events

theorem requestsOf_request (drivers : Drivers) (n : Nat) (evt : VNCFBUpdateReq)
    (events : List Parser.Event)
    : requestsOf drivers n (.updateRequest evt :: events)
      = ⟨drivers.update n, evt.incremental⟩ :: requestsOf drivers (n + 1) events :=
  rfl

theorem requestsOf_other (drivers : Drivers) (n : Nat) {event : Parser.Event}
    (notRequest : ∀ evt, event ≠ .updateRequest evt) (events : List Parser.Event)
    : requestsOf drivers n (event :: events) = requestsOf drivers n events := by
  cases event with
  | updateRequest evt => exact absurd rfl (notRequest evt)
  | _ => rfl

theorem requestsOf_append (drivers : Drivers) (n : Nat) (first rest : List Parser.Event)
    : requestsOf drivers n (first ++ rest)
      = requestsOf drivers n first
        ++ requestsOf drivers (n + (requestsOf drivers n first).length) rest := by
  induction first generalizing n with
  | nil => rfl
  | cons event first ih =>
      rw [List.cons_append]
      by_cases request : ∃ evt, event = .updateRequest evt
      · obtain ⟨evt, rfl⟩ := request
        rw [requestsOf_request, requestsOf_request, ih, List.cons_append, List.length_cons,
          Nat.add_assoc, Nat.add_comm 1]
      · have notRequest : ∀ evt, event ≠ .updateRequest evt := fun evt same => request ⟨evt, same⟩
        rw [requestsOf_other _ _ notRequest, requestsOf_other _ _ notRequest, ih]

theorem requestsOf_front (drivers : Drivers) (n : Nat) {front events : List Parser.Event}
    (isFront : front <+: events)
    : requestsOf drivers n front <+: requestsOf drivers n events := by
  obtain ⟨rest, rfl⟩ := isFront
  rw [requestsOf_append]
  exact List.prefix_append _ _

/-- What holds of the request that each driver makes holds of all. -/
theorem requestsOf_forall {drivers : Drivers} {property : Request → Prop}
    (each : ∀ n incremental, property ⟨drivers.update n, incremental⟩) {n : Nat}
    {events : List Parser.Event}
    : ∀ request ∈ requestsOf drivers n events, property request := by
  induction events generalizing n with
  | nil => exact fun _ member => absurd member List.not_mem_nil
  | cons event events ih =>
      by_cases request : ∃ evt, event = .updateRequest evt
      · obtain ⟨evt, rfl⟩ := request
        rw [requestsOf_request, List.forall_mem_cons]
        exact ⟨each n evt.incremental, ih⟩
      · rw [requestsOf_other _ _ fun evt same => request ⟨evt, same⟩]
        exact ih

/-- Messages that are handled serve the update requests among them, and count these. By induction
on the messages.
-/
theorem run_handleEvent_serves {drivers : Drivers} {events : List Parser.Event} {s t : Server}
    (returned : run (handleEvent drivers) events s = .ok () t)
    : run serve (requestsOf drivers s.asked events) s.updates = .ok () t.updates
      ∧ t.asked = s.asked + (requestsOf drivers s.asked events).length := by
  induction events generalizing s with
  | nil =>
      cases returned
      exact ⟨rfl, rfl⟩
  | cons event events ih =>
      obtain ⟨_, middle, handled, rest⟩ := bind_eq_ok.mp returned
      obtain ⟨served, counted⟩ := ih rest
      cases handleEvent_ok handled with
      | @answered evt left updates answered =>
          rw [requestsOf_request, List.length_cons]
          refine ⟨?_, by rw [counted, Nat.add_assoc, Nat.add_comm 1]⟩
          have first : serve ⟨drivers.update s.asked, evt.incremental⟩ s.updates
              = .ok () updates := bind_ok answered
          rw [run, bind_ok first]
          exact served
      | other updates asked notRequest =>
          rw [updates, asked] at served
          rw [asked] at counted
          rw [requestsOf_other _ _ notRequest]
          exact ⟨served, counted⟩

/-- A message other than an update request leaves the updates' part alone, also if it ends the
session.
-/
theorem handleEvent_other {drivers : Drivers} {event : Parser.Event}
    (notRequest : ∀ evt, event ≠ .updateRequest evt) (s : Server)
    : (endState (handleEvent drivers event s)).updates = s.updates := by
  cases event with
  | updateRequest evt => exact absurd rfl (notRequest evt)
  | setPixelFormat evt =>
      rw [handleEvent_pixelFormat, Parser.vncEvtSetPixelFormat]
      split <;> rfl
  | key evt =>
      rw [handleEvent_key, onKeys]
      split <;> rfl
  | pointer evt =>
      rw [handleEvent_pointer, vncEvtPointer, get_bind, modify_bind]
      split <;> rfl
  | setEncoding evt => rfl
  | setEncodingOne evt => rfl
  | clientCutText evt => rfl

/-- The calls of a session serve its update requests: all of them, or all but the last. -/
structure Serves (requests : List Request) (u u' : UpdateSession) : Prop where
  updates : u' = endState (run serve requests u)
  answered : requests.length ≤ (states serve requests u).length + 1

theorem CallsMade.serves {drivers : Drivers} {s s' : Server} {events : List Parser.Event}
    (calls : CallsMade drivers s events s')
    : Serves (requestsOf drivers s.asked events) s.updates s'.updates := by
  cases calls with
  | returned handled =>
      obtain ⟨served, _⟩ := run_handleEvent_serves handled
      refine ⟨by rw [served]; rfl, ?_⟩
      rw [states_length served]
      exact Nat.le_succ _
  | @ended before event middle e _ handled last =>
      obtain ⟨served, counted⟩ := run_handleEvent_serves handled
      rw [requestsOf_append, ← counted]
      by_cases request : ∃ evt, event = .updateRequest evt
      · obtain ⟨evt, rfl⟩ := request
        rw [requestsOf_request]
        refine ⟨?_, ?_⟩
        · rw [run_append_ok served, requestsOf, run_singleton]
          rw [handleEvent_request] at last
          unfold onUpdates at last
          cases served' : serve ⟨drivers.update middle.asked, evt.incremental⟩ middle.updates with
          | ok value updates =>
              simp only [served'] at last
              cases last
          | error e' updates =>
              simp only [served'] at last
              cases last
              rfl
        · rw [states_append served, List.length_append, List.length_append, states_length served]
          simp [requestsOf]
      · have notRequest : ∀ evt, event ≠ .updateRequest evt := fun evt same => request ⟨evt, same⟩
        have same := @handleEvent_other drivers _ notRequest middle
        rw [last] at same
        rw [requestsOf_other _ _ notRequest, requestsOf, List.append_nil]
        refine ⟨by rw [served]; exact same, ?_⟩
        rw [states_length served]
        exact Nat.le_succ _

-----------------------------------------------------------------------------------------
-- Whole sessions
-----------------------------------------------------------------------------------------

/-- What a session sends before its first message. -/
def greeting (outside : Outside) (garbage : Garbage) (announced : Video) : List UInt8 :=
  versionBytes ++ ulongBytes 1 ++ (serverInit outside garbage announced).bytes

theorem greeting_length (outside : Outside) (garbage : Garbage) (announced : Video)
    : (greeting outside garbage announced).length = 50 := by
  rw [greeting, List.length_append, List.length_append, serverInit_length]
  rfl

/-- The session that gets to its messages with a socket that takes everything: it has sent the
greeting, and serves the screen that it read twice.
-/
theorem setUp_greeting {outside : Outside} {garbage : Garbage} {sock fd : Nat} {s : Sess}
    (ready : setUp outside garbage (.opened outside sock fd) = .ok () s)
    (full : ∀ n length, outside.sends n length = some length) {vi : Video}
    (first : outside.init.Reports vi) (announced : outside.announced.Reports vi)
    : s.socket.results = outside.sends ∧ s.socket.sent = greeting outside garbage vi
      ∧ s.server.asked = 0 ∧ Serving vi s.server.updates := by
  obtain ⟨vi', vp, announced', accepted, count, accepted', last, prepares, greets, sends, rfl⟩ :=
    setUp_ok_iff.mp ready
  cases first _ prepares.metadata
  cases announced _ prepares.announced
  have version : accepted = 12 :=
    (Option.some.inj ((full _ _).symm.trans greets.version)).symm
  have security : accepted' = 4 :=
    (Option.some.inj ((full _ _).symm.trans greets.security)).symm
  have init : last = 34 := (Option.some.inj ((full _ _).symm.trans sends)).symm
  subst version security init
  have whole : (serverInit outside garbage vi).bytes.take 34
      = (serverInit outside garbage vi).bytes :=
    List.take_of_length_le (serverInit_length outside garbage vi).le
  refine ⟨rfl, ?_, rfl, rfl, rfl⟩
  show ([] ++ versionBytes.take 12 ++ (ulongBytes 1).take 4)
      ++ (serverInit outside garbage vi).bytes.take 34
    = _
  rw [whole]
  rfl

/-- The update requests that a session is handed, from its first message to its clean-up. -/
def requestsIn (outside : Outside) (garbage : Garbage) (sock fd : Nat) : List Request :=
  requestsOf (outside.drivers.withGarbage garbage) 0
    (handleSession outside garbage sock fd).sess.parser.calls

/-- The updates' part of a session is what serving those requests leaves. -/
theorem session_serves {outside : Outside} {garbage : Garbage} {sock fd : Nat} {s : Sess}
    (opens : outside.opens = true)
    (ready : setUp outside garbage (.opened outside sock fd) = .ok () s)
    (none : s.server.asked = 0)
    : Serves (requestsIn outside garbage sock fd) s.server.updates
        (handleSession outside garbage sock fd).sess.server.updates := by
  have serves := (session_calls opens ready).serves
  rw [none] at serves
  exact serves

/-- A socket that takes everything still does so when requests have been served. -/
theorem run_serve_results {vi : Video} {u t : UpdateSession} (serving : Serving vi u)
    {requests : List Request} (reports : ∀ request ∈ requests, request.driver.Reports vi)
    (returned : run serve requests u = .ok () t)
    : t.sock.results = u.sock.results := by
  have kept : Serving vi t ∧ t.sock.results = u.sock.results := by
    refine run_invariant (fun t => Serving vi t ∧ t.sock.results = u.sock.results) ?_ returned
      ⟨serving, rfl⟩
    rintro request member before after served ⟨serving, same⟩
    obtain ⟨_, answered⟩ := serve_ok serving (reports request member) served
    exact ⟨answered.serving, answered.took.results.trans same⟩
  exact kept.2

theorem Driver.Answers.withGarbage {drivers : Drivers} {n : Nat}
    (answers : (drivers.update n).Answers) (garbage : Garbage)
    : ((drivers.withGarbage garbage).update n).Answers :=
  ⟨answers.metadata, answers.mode, answers.clutHash, answers.clutChunk⟩

/-- The session has answered these requests in turn, and has sent what serving them sends: every
request that it was handed, but for one that may have ended it because an ioctl has failed.
-/
structure HasAnswered (outside : Outside) (garbage : Garbage) (sock fd : Nat) (s : Sess)
    (answered : List Request) : Prop where
  front : answered <+: requestsIn outside garbage sock fd
  many : (requestsIn outside garbage sock fd).length ≤ answered.length + 1
  all
    : (∀ request ∈ requestsIn outside garbage sock fd, request.driver.Answers) →
        answered = requestsIn outside garbage sock fd
  served
    : ∃ u, run serve answered s.server.updates = .ok () u
        ∧ (handleSession outside garbage sock fd).sess.socket.sent = u.sock.sent

theorem session_answers {outside : Outside} {garbage : Garbage} {sock fd : Nat} {s : Sess}
    (opens : outside.opens = true)
    (ready : setUp outside garbage (.opened outside sock fd) = .ok () s)
    (full : ∀ n length, outside.sends n length = some length) {vi : Video}
    (first : outside.init.Reports vi) (announced : outside.announced.Reports vi)
    (reports : ∀ request ∈ requestsIn outside garbage sock fd, request.driver.Reports vi)
    : ∃ answered, HasAnswered outside garbage sock fd s answered := by
  obtain ⟨results, _, none, serving⟩ := setUp_greeting ready full first announced
  obtain ⟨updates, many⟩ := session_serves opens ready none
  obtain ⟨answered, u, front, length, returned, ended⟩ :=
    run_taken serve (requestsIn outside garbage sock fd) s.server.updates
  have takes : ∀ n length, s.server.updates.sock.results n length = some length := by
    intro n length
    exact (congrFun (congrFun results n) length).trans (full n length)
  refine ⟨answered, front, length ▸ many, fun answers => ?_, u, returned, ?_⟩
  · have accepting : s.server.updates.Accepting := by
      intro n length
      rw [takes]
      exact Option.some_ne_none _
    obtain ⟨t, served⟩ := run_serve_returns answers accepting
    exact front.eq_of_length (length.trans (states_length served))
  · have same := run_serve_results serving
      (fun request member => reports request (front.subset member)) returned
    have sock_ : (handleSession outside garbage sock fd).sess.server.updates.sock = u.sock := by
      rw [updates]
      rcases ended with here | ⟨request, _, e, raised⟩
      · rw [here]
      · refine serve_error (fun n length => ?_) raised
        rw [same, takes]
        exact Option.some_ne_none _
    exact congrArg Socket.sent sock_

/-- On a screen that keeps its size, and with a socket that takes everything, a session that gets
to its messages sends its greeting and then one well-framed response for each update request that
it answers, in their order, and nothing else. It answers every request that it is handed, but for
one that may end it.
-/
theorem conversation_framed (outside : Outside) (garbage : Garbage) (sock fd : Nat)
    (opens : outside.opens = true) (s : Sess)
    (ready : setUp outside garbage (.opened outside sock fd) = .ok () s)
    (full : ∀ n length, outside.sends n length = some length) (vi : Video) (proper : vi.Proper)
    (first : outside.init.Reports vi) (announced : outside.announced.Reports vi)
    (reports : ∀ n, (outside.drivers.update n).Reports vi)
    : ∃ responses : List Response,
        (handleSession outside garbage sock fd).sess.socket.sent
          = greeting outside garbage vi ++ responses.flatMap Response.bytes
        ∧ List.Forall₂ (fun u response => WellFramed vi u.fb response)
            (states serve (requestsIn outside garbage sock fd) s.server.updates) responses
        ∧ ((requestsIn outside garbage sock fd).length = responses.length
          ∨ (requestsIn outside garbage sock fd).length = responses.length + 1) := by
  obtain ⟨results, sent, none, serving⟩ := setUp_greeting ready full first announced
  obtain ⟨updates, answered⟩ := session_serves opens ready none
  have reports' : ∀ request ∈ requestsIn outside garbage sock fd, request.driver.Reports vi :=
    requestsOf_forall fun n _ => reports n
  have full' : ∀ n length, s.server.updates.sock.results n length = some length := by
    intro n length
    exact (congrFun (congrFun results n) length).trans (full n length)
  obtain ⟨responses, framed, served⟩ := serve_wellFramed proper serving full' reports'
  refine ⟨responses, ?_, framed, ?_⟩
  · have sock_ : (handleSession outside garbage sock fd).sess.socket.sent
        = (endState (run serve (requestsIn outside garbage sock fd) s.server.updates)).sock.sent :=
      congrArg (fun u => u.sock.sent) updates
    rw [sock_, served, ← sent]
    rfl
  · have few := states_length_le serve (requestsIn outside garbage sock fd) s.server.updates
    rw [← framed.length_eq]
    omega

theorem conversation_framed_asking
    : ∃ s : Sess, ∃ responses : List Response,
        (handleSession (smallTalk askingBytes) (zeroGarbage 0) 4 3).sess.socket.sent
          = greeting (smallTalk askingBytes) (zeroGarbage 0) smallScreen
            ++ responses.flatMap Response.bytes
        ∧ List.Forall₂ (fun u response => WellFramed smallScreen u.fb response)
            (states serve (requestsIn (smallTalk askingBytes) (zeroGarbage 0) 4 3)
              s.server.updates)
            responses
        ∧ ((requestsIn (smallTalk askingBytes) (zeroGarbage 0) 4 3).length = responses.length
          ∨ (requestsIn (smallTalk askingBytes) (zeroGarbage 0) 4 3).length
            = responses.length + 1) := by
  obtain ⟨s, ready⟩ := smallTalk_ready askingBytes 4 3
  exact ⟨s, conversation_framed (smallTalk askingBytes) (zeroGarbage 0) 4 3 rfl s ready
    (fun _ _ => rfl) smallScreen ⟨by decide, by decide, by decide, by decide, by decide, by decide⟩
    (smallDriver_reports _ _) (smallDriver_reports _ _) (fun _ => smallDriver_reports _ _)⟩

end MiniVnc
