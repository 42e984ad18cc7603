import MiniVnc.Parser.Refinement

/-! Where the network cuts the client's stream makes no difference to the message phase. -/

namespace MiniVnc.Parser
open Library.Memory Library.Stream

variable {σ : Type}

/-- Two runs of the message phase end alike: both wait, at the same parse position, or the
same error ended both sessions. Either way the same calls were made with the same effect,
and neither run spins.
-/
inductive SameEnd
    : EStateM.Result Stop (Session σ) Unit → EStateM.Result Stop (Session σ) Unit → Prop
  | waiting {s t} (calls : s.calls = t.calls) (handlers : s.handlers = t.handlers)
    (offset : s.msgDst = t.msgDst)
    (buffered : ∀ k < s.msgDst, s.messageInProgress k = t.messageInProgress k)
    : SameEnd (.ok () s) (.ok () t)
  | ended {e s t} (calls : s.calls = t.calls) (handlers : s.handlers = t.handlers)
    : SameEnd (.error (.sessionEnded e) s) (.error (.sessionEnded e) t)

/-- Parser states at one stream position agree on everything received of the message in
progress. Witness: the pending bytes have the same length and the same members.
-/
theorem At.same {s t : Session σ} {p : Position σ} (left : At s p) (right : At t p)
    : SameEnd (.ok () s) (.ok () t) := by
  obtain ⟨_, rfl⟩ := left
  obtain ⟨_, same⟩ := right
  have pending : slice t.messageInProgress 0 t.msgDst = slice s.messageInProgress 0 s.msgDst :=
    congrArg Position.pending same
  have offset : t.msgDst = s.msgDst := by
    simpa only [slice_length] using congrArg List.length pending
  refine .waiting (congrArg Position.calls same).symm (congrArg Position.handlers same).symm
    offset.symm ?_
  intro k hk
  have left := @load_slice s.messageInProgress 0 s.msgDst k hk
  have right := @load_slice t.messageInProgress 0 t.msgDst k (by omega)
  rw [Nat.zero_add] at left right
  rw [← left, ← right, pending]

/-- Any cutting into pieces is read like the whole, from any valid parser state. -/
theorem feed_refines (handle : Handler σ) {s : Session σ} (valid : s.Valid)
    {pieces : List (List UInt8)} (cut : ∀ piece ∈ pieces, IsPiece piece)
    : Refines .sessionEnded (fun _ => At) SameCalls (feed handle pieces s)
        (run (eat handle) pieces.flatten s.position) := by
  have chunk : ∀ piece s' p, IsPiece piece → At s' p
      → Refines .sessionEnded (fun _ => At) SameCalls
          (vncReadAndHandleMessages handle (.data piece) s') (run (eat handle) piece p) := by
    intro piece s' _ isPiece position
    rcases position with ⟨valid', rfl⟩
    exact vncReadAndHandleMessages_refines handle valid' isPiece
  exact run_chunks_refines chunk cut ⟨valid, rfl⟩

/-- The invariant holds in every reachable parser state: a fresh session is at a message
boundary, and every piece read keeps it.
-/
theorem Reachable.valid {handle : Handler σ} {s : Session σ} (h : Reachable handle s)
    : s.Valid := by
  obtain ⟨handlers, pieces, cut, received⟩ := h
  have fresh : (Session.fresh handlers).Valid := Or.inl rfl
  have refined := feed_refines handle fresh cut
  rw [received] at refined
  cases read : run (eat handle) pieces.flatten (Session.fresh handlers).position with
  | ok done p =>
      rw [read] at refined
      cases refined with
      | ok at_ => exact at_.1
  | error e p =>
      rw [read] at refined
      cases refined

/-- Cutting the same bytes in two ways gives the same calls with the same messages, the same
error at the same point or none, and the same parse position.
-/
theorem feed_segmentation_independent (handle : Handler σ) (s : Session σ)
    (reachable : Reachable handle s) (left right : List (List UInt8))
    (leftCut : ∀ piece ∈ left, IsPiece piece) (rightCut : ∀ piece ∈ right, IsPiece piece)
    (same : left.flatten = right.flatten)
    : SameEnd (feed handle left s) (feed handle right s) := by
  have leftRead := feed_refines handle reachable.valid leftCut
  have rightRead := feed_refines handle reachable.valid rightCut
  rw [← same] at rightRead
  rcases leftRead.common rightRead with
    ⟨s', t', p, leftEq, rightEq, here, there⟩ | ⟨e, s', t', p, leftEq, rightEq, here, there⟩
  · rw [leftEq, rightEq]
    exact here.same there
  · rw [leftEq, rightEq]
    exact .ended (here.1.trans there.1.symm) (here.2.trans there.2.symm)

/-- A handler that accepts every message and clears `evt->incremental`. -/
def acceptAll : Handler Unit := fun _ s => .ok 0 s

/-- An update request and a pointer event, whole or cut inside both. -/
theorem feed_segmentation_independent_cut
    : SameEnd
        (feed acceptAll [[3, 1, 0, 0, 0, 0, 0, 8, 0, 1, 5, 1, 0, 7, 0, 9]] (.fresh ()))
        (feed acceptAll [[3], [1, 0, 0, 0, 0, 0, 8, 0, 1, 5], [1, 0, 7, 0, 9]] (.fresh ())) :=
  feed_segmentation_independent acceptAll (.fresh ()) ⟨(), [], by simp, rfl⟩ _ _ (by decide)
    (by decide) rfl

end MiniVnc.Parser
