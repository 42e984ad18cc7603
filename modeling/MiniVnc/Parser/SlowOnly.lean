import MiniVnc.Parser.Segmentation

/-! The fast path is only fast: without it, the loop that copies messages byte by byte makes the
same calls and ends at the same place.
-/

namespace MiniVnc.Parser
open Library.Memory Library.Stream

variable {σ : Type}

/-- `vnc_readAndHandleMessages` with the loop for fragmented messages alone. -/
def readSlowly (handle : Handler σ) (received : RecvResult) : EStateM Stop (Session σ) Unit := do
  let len ← recvw received
  slowPath handle len 0 len

/-- The message phase without the fast path. -/
def feedSlowly (handle : Handler σ) (pieces : List (List UInt8)) : EStateM Stop (Session σ) Unit :=
  run (fun piece => readSlowly handle (.data piece)) pieces

/-- Without the fast path, a piece is read like its bytes as well. -/
theorem readSlowly_refines (handle : Handler σ) {s : Session σ} (valid : s.Valid)
    {piece : List UInt8} (isPiece : IsPiece piece)
    : Refines .sessionEnded (fun _ => At) SameCalls (readSlowly handle (.data piece) s)
        (run (eat handle) piece s.position) := by
  cases piece with
  | nil => exact absurd isPiece.1 (by simp)
  | cons first rest =>
      have received := slice_copyIn s.recvBuf 0 (first :: rest)
      have refined := slowPath_refines handle (first :: rest).length 0 (first :: rest).length
        (Nat.le_refl _)
        (show Session.Valid { s with recvBuf := copyIn s.recvBuf 0 (first :: rest) } from valid)
      simp only [received] at refined
      exact refined

/-- The runs with and without the fast path end alike, however the stream is cut and wherever the
session stands: both refine the reader of the whole stream.
-/
theorem feed_slowly_same (handle : Handler σ) (s : Session σ) (reachable : Reachable handle s)
    (pieces pieces' : List (List UInt8)) (cut : ∀ piece ∈ pieces, IsPiece piece)
    (cut' : ∀ piece ∈ pieces', IsPiece piece) (same : pieces.flatten = pieces'.flatten)
    : SameEnd (feed handle pieces s) (feedSlowly handle pieces' s) := by
  have chunk : ∀ piece s' p, IsPiece piece → At s' p
      → Refines .sessionEnded (fun _ => At) SameCalls
          (readSlowly handle (.data piece) s') (run (eat handle) piece p) := by
    intro piece s' _ isPiece position
    obtain ⟨valid', rfl⟩ := position
    exact readSlowly_refines handle valid' isPiece
  have quick := feed_refines handle reachable.valid cut
  have slow : Refines .sessionEnded (fun _ => At) SameCalls (feedSlowly handle pieces' s)
      (run (eat handle) pieces'.flatten s.position) :=
    run_chunks_refines chunk cut' ⟨reachable.valid, rfl⟩
  rw [← same] at slow
  rcases quick.common slow with
    ⟨s', t', p, quickEq, slowEq, here, there⟩ | ⟨e, s', t', p, quickEq, slowEq, here, there⟩
  · rw [quickEq, slowEq]
    exact here.same there
  · rw [quickEq, slowEq]
    exact .ended (here.1.trans there.1.symm) (here.2.trans there.2.symm)

/-- A handler that accepts every message and leaves its number in `evt->incremental`. -/
def counting : Handler Nat := fun _ n => .ok (UInt8.ofNat n) (n + 1)

theorem feed_slowly_same_requests
    : SameEnd (feed counting [[3, 1, 0, 0, 0, 0, 0, 8, 0, 1, 5, 1, 0, 7, 0, 9]] (.fresh 0))
        (feedSlowly counting [[3, 1, 0, 0, 0, 0, 0, 8], [0, 1, 5, 1, 0, 7, 0, 9]] (.fresh 0)) :=
  feed_slowly_same counting (.fresh 0) ⟨0, [], by simp, rfl⟩ _ _ (by decide) (by decide) rfl

end MiniVnc.Parser
