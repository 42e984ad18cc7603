import MiniVnc.Updates.Framing

/-! A palette change and the update that is sent with it. `vnc_upd_send_colourmap` clears the
flag that `vnc_upd_send_hdr_raw` tests, so the change alone does not force a full repaint.
-/

namespace MiniVnc
open Library.Memory Library.Loop Library.Stream

/-- A dirty rectangle over the `marked` rows or columns is larger than `bound`: two of them lie
that far apart. With nothing marked the rectangle stands for one pixel.
-/
def Exceeds (marked : Set Nat) (bound : Nat) : Prop :=
  marked = ∅ ∧ bound < 1 ∨ ∃ low ∈ marked, ∃ high ∈ marked, bound < high + 1 - low

/-- The extent of a set exceeds a bound exactly when two of its elements do. -/
theorem exceeds_iff {marked : Set Nat} {low high bound : Nat} (least : IsLeast marked low)
    (greatest : IsGreatest marked high)
    : Exceeds marked bound ↔ (bound : Int) < (high : Int) + 1 - low := by
  constructor
  · intro exceeds
    rcases exceeds with ⟨empty, _⟩ | ⟨a, inside, b, inside', apart⟩
    · rw [empty] at least
      exact absurd least.1 (Set.notMem_empty low)
    · have below := least.2 inside
      have above := greatest.2 inside'
      omega
  · intro apart
    exact Or.inr ⟨low, least.1, high, greatest.1, by omega⟩

theorem LastDirty.height_exceeds {rows columns : Set Nat} {changed : Bool} {dirty : FbRect}
    (h : LastDirty rows columns changed dirty) (bound : Nat)
    : (bound : Int) < dirty.height ↔ Exceeds rows bound := by
  cases h with
  | unchanged noRow noColumn =>
      simp only [Exceeds, noRow, FbRect.height]
      simp
  | changed left right top bottom => exact (exceeds_iff top bottom).symm

theorem LastDirty.width_exceeds {rows columns : Set Nat} {changed : Bool} {dirty : FbRect}
    (h : LastDirty rows columns changed dirty) (bound : Nat)
    : (bound : Int) < dirty.width ↔ Exceeds columns bound := by
  cases h with
  | unchanged noRow noColumn =>
      simp only [Exceeds, noColumn, FbRect.width]
      simp
  | changed left right top bottom => exact (exceeds_iff left right).symm

/-- More than half of the screen's height and more than half of its width is dirty when the
update starts.
-/
def MostlyDirty (rect : VNCRect) (copy : ScreenCopy) (height : Nat) : Prop :=
  Exceeds (copy.rows height) (rect.h.toNat / 2)
  ∧ Exceeds (copy.columns height) (rect.w.toNat / 2)

theorem mostlyDirty_iff {rect : VNCRect} {copy : ScreenCopy} {height : Nat} {fb : FrameBuffer}
    (copied : Copied copy height fb)
    : mostlyDirty rect fb.lastDirty = true ↔ MostlyDirty rect copy height := by
  rw [mostlyDirty, decide_eq_true_eq]
  exact and_congr (copied.dirty.height_exceeds _) (copied.dirty.width_exceeds _)

/-- A rectangle that is not mostly dirty is not the whole screen. The header's fields may be
truncated, but not those of a rectangle that small.
-/
theorem dirtyScreen_ne_fullScreen {videoInfo : Video} {dirty : FbRect}
    (height_pos : 0 < dirty.height) (width_pos : 0 < dirty.width)
    (partly : ¬mostlyDirty (fullScreen videoInfo) dirty = true)
    : dirtyScreen dirty ≠ fullScreen videoInfo := by
  intro same
  have fits {size : Int} {field : UInt16} (positive : 0 < size) (equal : UInt16.ofInt size = field)
      : ((field.toNat / 2 : Nat) : Int) < size := by
    by_contra small
    have bound := field.toNat_lt
    obtain ⟨value, rfl⟩ : ∃ value : Nat, size = value := ⟨size.toNat, by omega⟩
    have read := ofInt_toNat_of_le (show value ≤ 65535 by omega)
    rw [equal] at read
    omega
  apply partly
  rw [mostlyDirty, decide_eq_true_eq]
  exact ⟨fits height_pos (congrArg VNCRect.h same), fits width_pos (congrArg VNCRect.w same)⟩

/-- Between `s` and `s'` a colour map was sent, and with it the full-screen rectangle and the
whole frame.
-/
def FullRepaint (s s' : UpdateSession) : Prop :=
  s'.sock.offered
  = s.sock.offered
    ++ Response.bytes
        { colourMap := some ((List.range 256).map s'.fb.vncClut)
          rect := fullScreen s.videoInfo
          body := slice s'.fb.frameToSend 0 s'.fb.frameSize }

/-- The rectangle can be read off a response behind its colour map. -/
theorem Response.rect_inj {map : Option (List VNCColour)} {rect rect' : VNCRect}
    {body body' : List UInt8}
    (same : Response.bytes ⟨map, rect, body⟩ = Response.bytes ⟨map, rect', body'⟩)
    : rect = rect' := by
  simp only [Response.bytes, List.append_assoc] at same
  have headers := List.append_cancel_left same
  rw [← VNCRect.at_header rect body, headers, VNCRect.at_header]

/-- When the hash is new, the update sent with the new palette is a full repaint exactly when
the request is not incremental or the screen is mostly dirty.
-/
theorem paletteChange_repaints_iff (driver : Driver) (incremental left : UInt8)
    (s s' : UpdateSession) (vi : Video) (vp : VPBlock) (hash : UInt32)
    (metadata : driver.metadata = some vi) (mode : driver.mode = some vp)
    (hashed : driver.clutHash = some hash) (changed : hash ≠ s.fb.clutHash)
    (answered : vncEvtUpdateRequest driver incremental s = .ok left s')
    : FullRepaint s s'
      ↔ incremental = 0
        ∨ MostlyDirty (fullScreen s.videoInfo) (driver.copyOf vi vp s.fb) vi.videoScrY := by
  obtain ⟨fb, update, took, rest⟩ := vncEvtUpdateRequest_ok answered
  have updated := fbUpdate_ok update
  have sameVi : fb.vi = vi := Option.some.inj (updated.metadata.symm.trans metadata)
  have sameVp : fb.vp = vp := Option.some.inj (updated.mode.symm.trans mode)
  have copied := updated.copied
  rw [sameVi, sameVp] at copied
  have due : fb.clutChanged = true := by
    cases updated.clut with
    | kept sameHash notDue _ _ _ =>
        exact absurd (Option.some.inj (hashed.symm.trans sameHash)) changed
    | fetched _ _ set _ _ => exact set
  have colours : s'.fb.vncClut = fb.vncClut := by rw [rest]
  have frame : s'.fb.frameToSend = fb.frameToSend := by rw [rest]
  have size : s'.fb.frameSize = fb.frameSize := by rw [rest]
  have map : (responseTo s.videoInfo incremental fb).colourMap
      = some ((List.range 256).map s'.fb.vncClut) := by
    rw [colours]
    exact if_pos due
  rw [FullRepaint, took.offered, ← mostlyDirty_iff copied]
  constructor
  · intro same
    by_contra partly
    have rect : (responseTo s.videoInfo incremental fb).rect = dirtyScreen fb.lastDirty :=
      if_neg partly
    have bytes := List.append_cancel_left same
    rw [← map] at bytes
    have whole : (responseTo s.videoInfo incremental fb).rect = fullScreen s.videoInfo :=
      Response.rect_inj bytes
    refine dirtyScreen_ne_fullScreen copied.dirty.height_pos copied.dirty.width_pos ?_
      (rect.symm.trans whole)
    exact fun mostly => partly (Or.inr mostly)
  · intro full
    have rect : (responseTo s.videoInfo incremental fb).rect = fullScreen s.videoInfo :=
      if_pos full
    have body : (responseTo s.videoInfo incremental fb).body
        = slice s'.fb.frameToSend 0 s'.fb.frameSize := by
      rw [frame, size]
      exact if_pos full
    rw [← map, ← rect, ← body]

/-- A session on the small screen that has its frame and palette from an earlier update. -/
def quietSession : UpdateSession :=
  { blankSession with
    fb := { blankSession.fb with frameToSend := fun _ => 7, frameSize := 8, clutHash := 5 } }

/-- The session answers whatever the small driver reports. -/
theorem quietSession_returns (screen : Mem) (hash : UInt32) (incremental : UInt8)
    : ∃ left s', vncEvtUpdateRequest (smallDriver screen hash) incremental quietSession
        = .ok left s' := by
  obtain ⟨fb, update⟩ := fbUpdate_returns (smallDriver_answers screen hash) quietSession.fb
  exact vncEvtUpdateRequest_returns incremental (fun _ _ => Option.some_ne_none _) update

theorem paletteChange_repaints_iff_small
    : ∃ left s', vncEvtUpdateRequest (smallDriver (fun _ => 8) 6) 1 quietSession = .ok left s'
        ∧ (FullRepaint quietSession s'
          ↔ (1 : UInt8) = 0
            ∨ MostlyDirty (fullScreen smallScreen)
                ((smallDriver (fun _ => 8) 6).copyOf smallScreen ⟨8, 8⟩ quietSession.fb) 1) := by
  obtain ⟨left, s', answered⟩ := quietSession_returns (fun _ => 8) 6 1
  refine ⟨left, s', answered, ?_⟩
  exact paletteChange_repaints_iff (smallDriver (fun _ => 8) 6) 1 left quietSession s'
    smallScreen ⟨8, 8⟩ 6 rfl rfl rfl (by decide) answered

/-- An incremental request after a palette change, with the screen's pixels as they were, is
answered with a single pixel.
-/
theorem paletteChange_without_repaint
    : (smallDriver (fun _ => 7) 6).clutHash ≠ some quietSession.fb.clutHash
      ∧ ∃ left s', vncEvtUpdateRequest (smallDriver (fun _ => 7) 6) 1 quietSession = .ok left s'
        ∧ ¬FullRepaint quietSession s' := by
  refine ⟨by decide, ?_⟩
  obtain ⟨left, s', answered⟩ := quietSession_returns (fun _ => 7) 6 1
  refine ⟨left, s', answered, ?_⟩
  intro whole
  have sent : (endState (vncEvtUpdateRequest (smallDriver (fun _ => 7) 6) 1
      quietSession)).sock.offered.length = 6 + 6 * 256 + 16 + 1 := by
    decide +kernel
  have size : (endState (vncEvtUpdateRequest (smallDriver (fun _ => 7) 6) 1
      quietSession)).fb.frameSize = 8 := by
    decide +kernel
  rw [answered] at sent size
  have lengths := congrArg List.length whole
  have header : (updateHeader (fullScreen quietSession.videoInfo)).bytes.length = 16 := rfl
  have map : colourMapHeader.bytes.length = 6 := rfl
  have none : quietSession.sock.offered.length = 0 := rfl
  have size' : s'.fb.frameSize = 8 := size
  rw [show s'.sock.offered.length = _ from sent] at lengths
  simp only [Response.bytes, List.length_append, header, map, none, colours_length,
    List.length_map, List.length_range, slice_length, size'] at lengths
  omega

end MiniVnc
