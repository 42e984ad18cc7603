import MiniVnc.FrameBuffer.DirtyRect

/-! What `fb_update` does to the palette and as a whole, and when it returns. -/

namespace MiniVnc
open Library.Memory Library.Loop Library.Stream

/-- What follows an ioctl returns exactly when the ioctl has an answer to go on with. -/
theorem ioctl_bind_ok {σ α β : Type} {answer : Option α} {error : SessionError}
    {f : α → EStateM SessionError σ β} {s s' : σ} {result : β}
    : (ioctl answer error >>= f) s = .ok result s'
      ↔ ∃ value, answer = some value ∧ f value s = .ok result s' := by
  cases answer with
  | none =>
      constructor
      · intro h
        cases h
      · intro found
        rcases found with ⟨_, none, _⟩
        cases none
  | some value =>
      constructor
      · intro h
        exact ⟨value, rfl, h⟩
      · intro found
        rcases found with ⟨_, some_, h⟩
        cases some_
        exact h

@[simp]
theorem ioctl_some_bind {σ α β : Type} (value : α) (error : SessionError)
    (f : α → EStateM SessionError σ β) (s : σ)
    : (ioctl (some value) error >>= f) s = f value s :=
  rfl

theorem fbGetVideoInfo_ok {driver : Driver} {fb fb' : FrameBuffer}
    : fbGetVideoInfo driver fb = .ok () fb'
      ↔ ∃ vi vp, driver.metadata = some vi ∧ driver.mode = some vp ∧ fb' = { fb with vi, vp } := by
  constructor
  · intro h
    obtain ⟨vi, metadata, h⟩ := ioctl_bind_ok.mp h
    rw [modify_bind] at h
    obtain ⟨vp, mode, h⟩ := ioctl_bind_ok.mp h
    cases h
    exact ⟨vi, vp, metadata, mode, rfl⟩
  · intro answers
    rcases answers with ⟨vi, vp, metadata, mode, rfl⟩
    rw [fbGetVideoInfo, metadata, mode]
    rfl

/-- The first `count` chunks have been stored, eight entries each. -/
def Fetched (driver : Driver) (count : Nat) (clut : Mem) : Prop :=
  ∀ i < count, ∃ chunk, driver.clutChunk i = some chunk
    ∧ ∀ k < 64, clut (i * 64 + k) = chunk k

/-- The chunk loop stores the chunks and changes nothing else, by induction on their number:
each chunk lies behind the ones before it.
-/
theorem copyClutChunks_ok {driver : Driver} {fb fb' : FrameBuffer} {count : Nat}
    (h : copyClutChunks driver count fb = .ok () fb')
    : Fetched driver count fb'.clut ∧ fb' = { fb with clut := fb'.clut } := by
  induction count generalizing fb' with
  | zero =>
      cases h
      refine ⟨?_, rfl⟩
      intro i none
      exact absurd none (Nat.not_lt_zero i)
  | succ i ih =>
      obtain ⟨_, middle, earlier, h⟩ := bind_eq_ok.mp h
      obtain ⟨fetched, rest⟩ := ih earlier
      obtain ⟨chunk, answered, stored⟩ := ioctl_bind_ok.mp h
      cases stored
      refine ⟨?_, by rw [rest]⟩
      intro j below
      rcases Nat.lt_succ_iff_lt_or_eq.mp below with before | rfl
      · obtain ⟨chunk', answered', stored⟩ := fetched j before
        refine ⟨chunk', answered', fun k hk => ?_⟩
        rw [← stored k hk]
        exact copyIn_below (by omega)
      · refine ⟨chunk, answered, fun k hk => ?_⟩
        have byte := @load_slice chunk 0 64 k hk
        rw [Nat.zero_add] at byte
        rw [← byte]
        exact copyIn_inside (by simpa using hk)

theorem copyClutChunks_returns {driver : Driver}
    (answered : ∀ i < 32, ∃ chunk, driver.clutChunk i = some chunk) (fb : FrameBuffer)
    {count : Nat} (few : count ≤ 32)
    : ∃ fb', copyClutChunks driver count fb = .ok () fb' := by
  induction count with
  | zero => exact ⟨fb, rfl⟩
  | succ i ih =>
      obtain ⟨before, earlier⟩ := ih (by omega)
      obtain ⟨chunk, some_⟩ := answered i (by omega)
      rw [copyClutChunks, bind_ok earlier, some_]
      exact ⟨_, rfl⟩

/-- The colours sent to the client are those of the chunks. -/
theorem fetchClut_ok {driver : Driver} {fb fb' : FrameBuffer} (h : fetchClut driver fb = .ok () fb')
    : Fetched driver 32 fb'.clut ∧ (∀ i < 256, fb'.vncClut i = colourAt fb'.clut i)
      ∧ fb' = { fb with clut := fb'.clut, vncClut := fb'.vncClut } := by
  obtain ⟨_, middle, chunks, filled⟩ := bind_eq_ok.mp h
  obtain ⟨fetched, rest⟩ := copyClutChunks_ok chunks
  cases filled
  refine ⟨fetched, fun i hi => if_pos hi, ?_⟩
  rw [rest]

/-- The palette after `fb_update_clut`: as it was when nothing was due, else fetched anew and
marked as changed.
-/
inductive ClutUpdated (driver : Driver) (fb fb' : FrameBuffer) : Prop
  | kept (hash : driver.clutHash = some fb.clutHash) (notDue : fb.clutChanged = false)
    (sameHash : fb'.clutHash = fb.clutHash) (unset : fb'.clutChanged = false)
    (same : fb'.vncClut = fb.vncClut)
  | fetched (hash : driver.clutHash = some fb'.clutHash)
    (due : fb.clutChanged = true ∨ fb.clutHash ≠ fb'.clutHash) (set : fb'.clutChanged = true)
    (chunks : Fetched driver 32 fb'.clut)
    (colours : ∀ i < 256, fb'.vncClut i = colourAt fb'.clut i)

/-- `fb_update_clut` updates the palette and leaves the rest of the frame buffer alone. By
cases on whether the hash is new and on the flag, which a failed update may have left set.
-/
theorem fbUpdateClut_ok {driver : Driver} {fb fb' : FrameBuffer}
    (h : fbUpdateClut driver fb = .ok () fb')
    : ClutUpdated driver fb fb'
      ∧ fb' = { fb with
          clutChanged := fb'.clutChanged
          clutHash := fb'.clutHash
          clut := fb'.clut
          vncClut := fb'.vncClut } := by
  obtain ⟨hash, answered, h⟩ := ioctl_bind_ok.mp h
  rw [modify_bind, get_bind] at h
  by_cases same : fb.clutHash = hash
  · simp only [same, ne_eq, not_true_eq_false, ↓reduceIte] at h
    cases flag : fb.clutChanged with
    | false =>
        rw [flag] at h
        cases h
        exact ⟨.kept (same ▸ answered) flag rfl flag rfl, rfl⟩
    | true =>
        rw [flag] at h
        obtain ⟨chunks, colours, rest⟩ := fetchClut_ok h
        have hash' : fb'.clutHash = hash := by rw [rest, same]
        have set : fb'.clutChanged = true := by rw [rest, flag]
        refine ⟨.fetched (hash' ▸ answered) (Or.inl flag) set chunks colours, ?_⟩
        rw [rest]
  · simp only [ne_eq, same, not_false_eq_true, ↓reduceIte] at h
    obtain ⟨chunks, colours, rest⟩ := fetchClut_ok h
    have hash' : fb'.clutHash = hash := by rw [rest]
    have set : fb'.clutChanged = true := by rw [rest]
    refine ⟨.fetched (hash' ▸ answered) (Or.inr (hash' ▸ same)) set chunks colours, ?_⟩
    rw [rest]

/-- The palette is due: it has another hash than the one stored, or it has not been sent yet. -/
def paletteDue (driver : Driver) (fb : FrameBuffer) : Bool :=
  fb.clutChanged || driver.clutHash != some fb.clutHash

theorem ClutUpdated.changed {driver : Driver} {fb fb' : FrameBuffer}
    (updated : ClutUpdated driver fb fb')
    : fb'.clutChanged = paletteDue driver fb := by
  cases updated with
  | kept hash notDue _ unset _ => rw [unset, paletteDue, notDue, hash, bne_self_eq_false]; rfl
  | fetched hash due set _ _ =>
      rw [set, paletteDue, hash]
      rcases due with flag | new
      · rw [flag, Bool.true_or]
      · rw [bne_iff_ne.mpr (fun same => new (Option.some.inj same).symm), Bool.or_true]

theorem fbUpdateClut_returns {driver : Driver} {hash : UInt32}
    (hashed : driver.clutHash = some hash) {fb : FrameBuffer}
    (answered : paletteDue driver fb → ∀ i < 32, ∃ chunk, driver.clutChunk i = some chunk)
    : ∃ fb', fbUpdateClut driver fb = .ok () fb' := by
  have fetches (due : paletteDue driver fb) (fb : FrameBuffer)
      : ∃ fb', fetchClut driver fb = .ok () fb' := by
    obtain ⟨_, chunks⟩ := copyClutChunks_returns (answered due) fb (Nat.le_refl 32)
    rw [fetchClut, bind_ok chunks]
    exact ⟨_, rfl⟩
  rw [fbUpdateClut, hashed, ioctl_some_bind, modify_bind, get_bind]
  by_cases same : fb.clutHash = hash
  · simp only [same, ne_eq, not_true_eq_false, ↓reduceIte]
    split
    · next flag => exact fetches (by rw [paletteDue, flag, Bool.true_or]) _
    · exact ⟨_, rfl⟩
  · simp only [ne_eq, same, not_false_eq_true, ↓reduceIte]
    refine fetches ?_ _
    rw [paletteDue, hashed, bne_iff_ne.mpr (fun equal => same (Option.some.inj equal).symm),
      Bool.or_true]

/-- What `fb_update` leaves. -/
structure Updated (driver : Driver) (fb fb' : FrameBuffer) : Prop where
  metadata : driver.metadata = some fb'.vi
  mode : driver.mode = some fb'.vp
  clut : ClutUpdated driver fb fb'
  copied : Copied (driver.copyOf fb'.vi fb'.vp fb) fb'.vi.videoScrY fb'
  frameSize : fb'.frameSize = fb.frameSize

theorem fbUpdate_ok {driver : Driver} {fb fb' : FrameBuffer} (h : fbUpdate driver fb = .ok () fb')
    : Updated driver fb fb' := by
  obtain ⟨_, informed, first, h⟩ := bind_eq_ok.mp h
  obtain ⟨vi, vp, metadata, mode, rfl⟩ := fbGetVideoInfo_ok.mp first
  obtain ⟨_, coloured, second, third⟩ := bind_eq_ok.mp h
  obtain ⟨clut, colouredEq⟩ := fbUpdateClut_ok second
  obtain ⟨copied, last⟩ := copyScreen_ok third
  rw [colouredEq] at copied
  have vi' : fb'.vi = vi := by rw [last, colouredEq]
  have vp' : fb'.vp = vp := by rw [last, colouredEq]
  refine ⟨vi' ▸ metadata, vp' ▸ mode, ?_, ?_, ?_⟩
  · rw [last]
    cases clut with
    | kept hash notDue sameHash unset same => exact .kept hash notDue sameHash unset same
    | fetched hash due set chunks colours => exact .fetched hash due set chunks colours
  · rw [vi', vp']
    exact copied
  · rw [last, colouredEq]

/-- The driver answers everything an update of a supported depth asks. -/
structure Driver.Answers (driver : Driver) : Prop where
  metadata : ∃ vi, driver.metadata = some vi
  mode : ∃ vp copy, driver.mode = some vp ∧ copyRow? vp.vpPixelSize = some copy
  clutHash : ∃ hash, driver.clutHash = some hash
  clutChunk : ∀ i < 32, ∃ chunk, driver.clutChunk i = some chunk

theorem fbUpdate_returns {driver : Driver} (answers : driver.Answers) (fb : FrameBuffer)
    : ∃ fb', fbUpdate driver fb = .ok () fb' := by
  obtain ⟨vi, metadata⟩ := answers.metadata
  obtain ⟨vp, copy, mode, known⟩ := answers.mode
  obtain ⟨hash, hashed⟩ := answers.clutHash
  have informed : fbGetVideoInfo driver fb = .ok () { fb with vi, vp } :=
    fbGetVideoInfo_ok.mpr ⟨vi, vp, metadata, mode, rfl⟩
  obtain ⟨coloured, second⟩ :=
    @fbUpdateClut_returns driver hash hashed { fb with vi, vp } fun _ => answers.clutChunk
  obtain ⟨_, colouredEq⟩ := fbUpdateClut_ok second
  have size : coloured.vp = vp := by rw [colouredEq]
  rw [fbUpdate, bind_ok informed, bind_ok second]
  exact copyScreen_returns (size ▸ known)

end MiniVnc
