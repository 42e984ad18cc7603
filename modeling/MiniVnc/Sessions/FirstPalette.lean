import MiniVnc.Sessions.SetUp
import MiniVnc.Updates.PaletteRuns

/-! The answer to the first update request of a session: whether it begins with the palette. -/

namespace MiniVnc
open Library.Memory Library.Stream

/-- The kernel holds `clut` while it answers: the hash and the chunks it hands out are of it. -/
structure Driver.Holds (driver : Driver) (clut : Mem) : Prop where
  hash : ∀ hash, driver.clutHash = some hash → hash = Kernel.fbClutHash clut
  chunk
    : ∀ i < 32, ∀ chunk, driver.clutChunk i = some chunk →
        ∀ k < 64, chunk k = Kernel.fbClutChunk clut i k

/-- The SetColourMapEntries message with the colours of a CLUT. -/
def paletteMessage (clut : Mem) : List UInt8 :=
  colourMapHeader.bytes ++ (coloursOf clut).flatMap VNCColour.bytes

/-- What the session sends from `s` to `s'` begins with `message`. -/
def SendsFirst (message : List UInt8) (s s' : UpdateSession) : Prop :=
  ∃ rest, s.sock.Took (message ++ rest) s'.sock

/-- The colours fetched from a kernel that holds `clut` are those of `clut`. -/
theorem Driver.Holds.colours {driver : Driver} {clut : Mem} (holds : driver.Holds clut)
    {fetched : Mem} (chunks : Fetched driver 32 fetched)
    : coloursOf fetched = coloursOf clut := by
  have same : Fetched (driver.during (fun _ => clut) 0) 32 fetched := by
    intro i inside
    obtain ⟨chunk, answered, stored⟩ := chunks i inside
    refine ⟨_, rfl, fun k below => ?_⟩
    rw [stored k below]
    exact holds.chunk i inside chunk answered k below
  have constant : coloursRead (fun _ => clut) 0 = coloursOf clut := by
    simp only [coloursRead, coloursOf]
  exact (fetched_colours same).trans constant

/-- No update is taken for a palette: their message types differ. -/
theorem updateHeader_not_palette (clut : Mem) (rect : VNCRect) (body rest : List UInt8)
    : (updateHeader rect).bytes ++ body ≠ paletteMessage clut ++ rest := by
  intro same
  have update : ((updateHeader rect).bytes ++ body).head? = some 0 := rfl
  have palette : (paletteMessage clut ++ rest).head? = some 1 := rfl
  rw [same, palette] at update
  exact absurd update (by decide)

/-- A request in a session that has stored no hash yet: the stored one is zero, and the palette is
sent unless the kernel's hash is that as well.
-/
theorem palette_sent_iff {driver : Driver} {clut : Mem} {incremental left : UInt8}
    {s s' : UpdateSession} (none : s.fb.clutHash = 0) (unset : s.fb.clutChanged = false)
    (holds : driver.Holds clut)
    (answered : vncEvtUpdateRequest driver incremental s = .ok left s')
    : SendsFirst (paletteMessage clut) s s' ↔ Kernel.fbClutHash clut ≠ 0 := by
  obtain ⟨fb, update, took, _⟩ := vncEvtUpdateRequest_ok answered
  cases (fbUpdate_ok update).clut with
  | kept hash _ _ unset' _ =>
      have zero : 0 = Kernel.fbClutHash clut := none ▸ holds.hash _ hash
      constructor
      · rintro ⟨rest, first⟩
        have sent := List.append_cancel_left (took.offered.symm.trans first.offered)
        simp only [Response.bytes, responseTo, unset', Bool.false_eq_true, ↓reduceIte,
          List.nil_append] at sent
        exact absurd sent (updateHeader_not_palette clut _ _ rest)
      · intro nonzero
        exact absurd zero.symm nonzero
  | fetched hash due set chunks colours =>
      have known := holds.hash _ hash
      have sent : (List.range 256).map fb.vncClut = coloursOf clut := by
        rw [← holds.colours chunks]
        exact List.map_congr_left fun i member => colours i (List.mem_range.mp member)
      constructor
      · intro _
        rcases due with early | new
        · rw [unset] at early
          cases early
        · rw [← known]
          exact fun zero => new (none.trans zero.symm)
      · intro _
        simp only [Response.bytes, responseTo, set, ↓reduceIte, sent, List.append_assoc] at took
        simp only [SendsFirst, paletteMessage, List.append_assoc]
        exact ⟨_, took⟩

/-- Messages other than update requests leave the updates' part of the session alone. -/
theorem run_unasked {drivers : Drivers} {events : List Parser.Event} {s t : Server}
    (unasked : ∀ event ∈ events, ∀ evt, event ≠ .updateRequest evt)
    (returned : run (handleEvent drivers) events s = .ok () t)
    : t.updates = s.updates := by
  refine run_invariant (fun t : Server => t.updates = s.updates) ?_ returned rfl
  intro event member before after handled same
  cases handleEvent_ok handled with
  | answered => exact absurd rfl (unasked _ member _)
  | other updates => exact updates.trans same

/-- In every session that gets to its messages, the answer to the first update request, during
which the kernel's CLUT does not change, begins with the colours of that CLUT exactly when
the CLUT's hash is not zero, the value that `fb_init` stores before there is a hash.
-/
theorem first_palette_sent_iff (outside : Outside) (garbage : Garbage) (start s : Sess)
    (ready : setUp outside garbage start = .ok () s) (events : List Parser.Event)
    (unasked : ∀ event ∈ events, ∀ evt, event ≠ .updateRequest evt) (before after : Server)
    (earlier
      : run (handleEvent (outside.drivers.withGarbage garbage)) events s.parser.handlers
        = .ok () before)
    (clut : Mem) (holds : (outside.drivers.update before.asked).Holds clut)
    (evt : VNCFBUpdateReq)
    (answered
      : handleEvent (outside.drivers.withGarbage garbage) (.updateRequest evt) before
        = .ok () after)
    : SendsFirst (paletteMessage clut) before.updates after.updates
      ↔ Kernel.fbClutHash clut ≠ 0 := by
  obtain ⟨_, _, _, _, _, _, _, _, _, _, rfl⟩ := setUp_ok_iff.mp ready
  have untouched := run_unasked unasked earlier
  have none : before.updates.fb.clutHash = 0 := by
    rw [untouched]
    rfl
  have unset : before.updates.fb.clutChanged = false := by
    rw [untouched]
    rfl
  have holds' : ((outside.drivers.withGarbage garbage).update before.asked).Holds clut :=
    ⟨holds.hash, holds.chunk⟩
  cases handleEvent_ok answered with
  | answered update => exact palette_sent_iff none unset holds' update
  | other _ _ notRequest => exact absurd rfl (notRequest evt)

-----------------------------------------------------------------------------------------
-- A palette whose hash is zero
-----------------------------------------------------------------------------------------

/-- The kernel of the small screen when it holds `clut`. -/
def clutDriver (clut : Mem) : Driver :=
  { smallDriver (fun _ => 7) (Kernel.fbClutHash clut) with
    clutChunk := fun i => some (Kernel.fbClutChunk clut i) }

theorem clutDriver_holds (clut : Mem) : (clutDriver clut).Holds clut where
  hash := fun _ hash => (Option.some.inj hash).symm
  chunk := fun _ _ _ chunk _ _ => congrFun (Option.some.inj chunk).symm _

theorem clutDriver_answers (clut : Mem) : (clutDriver clut).Answers :=
  ⟨⟨_, rfl⟩, ⟨_, _, rfl, rfl⟩, ⟨_, rfl⟩, fun _ _ => ⟨_, rfl⟩⟩

/-- The session of a client that says hello, on that kernel. -/
def clutOutside (clut : Mem) : Outside :=
  { smallOutside helloBytes fun _ => some 256 with
    drivers := ⟨fun _ => clutDriver clut, fun _ => true⟩ }

/-- An incremental request for the whole of the small screen. -/
def wholeScreen : VNCFBUpdateReq := ⟨3, 1, 0, 0, 8, 1⟩

/-- The first request of that session is answered. -/
theorem clutOutside_answers (clut : Mem)
    : ∃ left updates,
        vncEvtUpdateRequest (clutDriver clut) 1
            (helloSession (zeroGarbage 0)).parser.handlers.updates
          = .ok left updates
        ∧ handleEvent ((clutOutside clut).drivers.withGarbage (zeroGarbage 0))
              (.updateRequest wholeScreen) (helloSession (zeroGarbage 0)).parser.handlers
            = .ok ()
              { (helloSession (zeroGarbage 0)).parser.handlers with asked := 1, updates } := by
  have accepting : (helloSession (zeroGarbage 0)).parser.handlers.updates.Accepting :=
    fun _ _ => Option.some_ne_none _
  obtain ⟨fb, update⟩ := fbUpdate_returns (clutDriver_answers clut) _
  obtain ⟨left, updates, answered⟩ := vncEvtUpdateRequest_returns 1 accepting update
  have handled
      : serverHandler ((clutOutside clut).drivers.withGarbage (zeroGarbage 0))
            (.updateRequest wholeScreen) (helloSession (zeroGarbage 0)).parser.handlers
          = .ok left
            { (helloSession (zeroGarbage 0)).parser.handlers with asked := 1, updates } := by
    rw [serverHandler, get_bind, modify_bind]
    exact onUpdates_ok_iff.mpr ⟨updates, answered, rfl⟩
  exact ⟨left, updates, answered, bind_ok handled⟩

theorem first_palette_sent_iff_black
    : ∃ after,
        handleEvent ((clutOutside blackClut).drivers.withGarbage (zeroGarbage 0))
            (.updateRequest wholeScreen) (helloSession (zeroGarbage 0)).parser.handlers
          = .ok () after
        ∧ (SendsFirst (paletteMessage blackClut)
              (helloSession (zeroGarbage 0)).parser.handlers.updates after.updates
            ↔ Kernel.fbClutHash blackClut ≠ 0) := by
  obtain ⟨left, updates, answered, handled⟩ := clutOutside_answers blackClut
  refine ⟨_, handled, ?_⟩
  exact first_palette_sent_iff (clutOutside blackClut) (zeroGarbage 0) _ _
    (hello_setUp (zeroGarbage 0) _) [] (by simp) _ _ rfl blackClut (clutDriver_holds blackClut)
    wholeScreen handled

/-- A CLUT that is black but for its last entry, a light blue. -/
def unseenClut : Mem := fun k => if k < 2044 then 0 else [79, 190, 101, 205].getD (k - 2044) 0

theorem fbClutHash_unseenClut : Kernel.fbClutHash unseenClut = 0 := by
  have zeros : ∀ k < 2032, unseenClut k = 0 := fun k below => if_pos (by omega)
  rw [fbClutHash_of_zeros zeros]
  decide +kernel

/-- With this CLUT the session gets to its messages and answers the first request, but not with
the palette.
-/
theorem first_palette_lost
    : setUp (clutOutside unseenClut) (zeroGarbage 0)
          (.zeroed (smallOutside helloBytes fun _ => some 256))
        = .ok () (helloSession (zeroGarbage 0))
      ∧ (clutDriver unseenClut).Holds unseenClut
      ∧ ∃ after,
          handleEvent ((clutOutside unseenClut).drivers.withGarbage (zeroGarbage 0))
              (.updateRequest wholeScreen) (helloSession (zeroGarbage 0)).parser.handlers
            = .ok () after
          ∧ ¬SendsFirst (paletteMessage unseenClut)
              (helloSession (zeroGarbage 0)).parser.handlers.updates after.updates := by
  obtain ⟨left, updates, answered, handled⟩ := clutOutside_answers unseenClut
  refine ⟨hello_setUp _ _, clutDriver_holds unseenClut, _, handled, ?_⟩
  have none : (helloSession (zeroGarbage 0)).parser.handlers.updates.fb.clutHash = 0 := rfl
  have unset : (helloSession (zeroGarbage 0)).parser.handlers.updates.fb.clutChanged = false := rfl
  have sent_iff := palette_sent_iff none unset (clutDriver_holds unseenClut) answered
  intro sent
  exact sent_iff.mp sent fbClutHash_unseenClut

end MiniVnc
