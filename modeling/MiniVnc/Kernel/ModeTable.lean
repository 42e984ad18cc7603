import MiniVnc.Kernel.Chunks

/-! The table of modes that all users of the driver share, over any calls of theirs: a screen that
has been opened keeps the modes that the Slot Manager lists for it.
-/

namespace MiniVnc.Kernel
open Library.Memory Library.Stream

/-- A call that a process makes on the driver. -/
inductive DriverCall where
  | opens (minor : Nat)
  | reads (devIndex : Nat)
  | mode (devIndex : Nat)
  | clutChunk (devIndex : Nat) (chunk : Int16)
  | clutHash (devIndex : Nat)
  | kbKchrChunk (chunk : Int16)
  | phys (devIndex : Nat) (addr : UInt32)
deriving Repr, DecidableEq

/-- What a call leaves, whether it fails or not. -/
def DriverCall.leaves (machine : Machine) (vars : Vars) : DriverCall → Vars
  | .opens minor => afterwards (fbOpen machine minor) vars
  | .reads devIndex => afterwards (fbRead machine devIndex) vars
  | .mode devIndex => afterwards (ioctlMode machine devIndex) vars
  | .clutChunk devIndex chunk => afterwards (ioctlClutChunk machine devIndex chunk) vars
  | .clutHash devIndex => afterwards (ioctlClutHash machine devIndex) vars
  | .kbKchrChunk chunk => afterwards (ioctlKbKchrChunk machine chunk) vars
  | .phys devIndex addr => afterwards (fbPhys machine devIndex addr) vars

/-- If the call reads a palette, `fb_c` has space for what is put into it: it asks for at most 256
entries, or the Mac video driver refuses.
-/
def DriverCall.Fits (machine : Machine) (vars : Vars) : DriverCall → Prop
  | .clutChunk devIndex _ | .clutHash devIndex =>
      entriesAsked machine devIndex vars ≤ 256
      ∨ ∃ ret, machine.getEntries (entriesAsked machine devIndex vars) = .error ret
  | _ => True

/-- What calls leave, each with what surrounds the driver then. -/
def leave (steps : List (Machine × DriverCall)) (vars : Vars) : Vars :=
  steps.foldl (fun vars step => step.2.leaves step.1 vars) vars

-----------------------------------------------------------------------------------------
-- Calls that leave the table alone
-----------------------------------------------------------------------------------------

/-- The screens and their modes are the same. -/
structure SameTable (vars vars' : Vars) : Prop where
  videoCount : vars'.videoCount = vars.videoCount
  videoDesc : vars'.videoDesc = vars.videoDesc
  fbVp : vars'.fbVp = vars.fbVp

instance : IsPreorder Vars SameTable where
  refl _ := ⟨rfl, rfl, rfl⟩
  trans _ _ _ first second :=
    ⟨second.videoCount.trans first.videoCount, second.videoDesc.trans first.videoDesc,
      second.fbVp.trans first.fbVp⟩

/-- Whether it fails or not, the call leaves the table alone. -/
abbrev KeepsTable {α : Type} (call : Call α) : Prop := Ascends SameTable call

theorem use_keepsTable (used : Use) : KeepsTable (use used) :=
  .modify fun _ => ⟨rfl, rfl, rfl⟩

theorem get_keepsTable : KeepsTable (get : Call Vars) :=
  refl_of SameTable

theorem videoDescAt_keepsTable (index : Nat) : KeepsTable (videoDescAt index) :=
  (use_keepsTable _).bind fun _ => get_keepsTable.bind fun _ => .pure _

theorem fbVpAt_keepsTable (device : Nat) (mode : Int) : KeepsTable (fbVpAt device mode) :=
  (use_keepsTable _).bind fun _ => get_keepsTable.bind fun _ => .pure _

theorem fbGetClutFor_keepsTable (machine : Machine) (idx : Nat)
    : KeepsTable (fbGetClutFor machine idx) := by
  intro vars
  obtain ⟨ret, refreshed⟩ := fbGetClutFor_ok machine idx vars
  rw [refreshed]
  exact ⟨rfl, rfl, rfl⟩

theorem copyFbC_keepsTable (base : Int) (count : Nat) : KeepsTable (copyFbC base count) :=
  (Ascends.modify fun _ => ⟨rfl, rfl, rfl⟩).bind fun _ => get_keepsTable.bind fun _ => .pure _

theorem findMode8_keepsTable (videoId left i : Nat) : KeepsTable (findMode8 videoId left i) := by
  induction left generalizing i with
  | zero => exact .pure _
  | succ left ih =>
      refine (fbVpAt_keepsTable videoId i).bind fun vp => ?_
      split
      · exact .pure _
      · exact ih (i + 1)

theorem fbFbSize_keepsTable (videoId : Nat) : KeepsTable (fbFbSize videoId) := by
  refine (findMode8_keepsTable videoId qdMaxModes 0).bind fun found => ?_
  cases found with
  | none => exact .pure _
  | some mode8 =>
      exact (fbVpAt_keepsTable videoId mode8).bind fun _ =>
        (videoDescAt_keepsTable videoId).bind fun _ => .pure _

theorem fbRead_keepsTable (machine : Machine) (devIndex : Nat)
    : KeepsTable (fbRead machine devIndex) := by
  refine get_keepsTable.bind fun vars => ?_
  split
  · exact .throw _
  · refine (videoDescAt_keepsTable devIndex).bind fun v => ?_
    refine (fbVpAt_keepsTable devIndex _).bind fun vp => ?_
    dsimp only
    split
    · exact .pure _
    · exact .throw _

theorem ioctlMode_keepsTable (machine : Machine) (devIndex : Nat)
    : KeepsTable (ioctlMode machine devIndex) := by
  refine (videoDescAt_keepsTable devIndex).bind fun v => ?_
  dsimp only
  split
  · exact .throw _
  · exact fbVpAt_keepsTable devIndex _

theorem ioctlClutChunk_keepsTable (machine : Machine) (devIndex : Nat) (chunk : Int16)
    : KeepsTable (ioctlClutChunk machine devIndex chunk) :=
  (fbGetClutFor_keepsTable machine devIndex).bind fun _ => copyFbC_keepsTable _ _

theorem ioctlClutHash_keepsTable (machine : Machine) (devIndex : Nat)
    : KeepsTable (ioctlClutHash machine devIndex) :=
  (videoDescAt_keepsTable devIndex).bind fun _ =>
    (fbGetClutFor_keepsTable machine devIndex).bind fun _ =>
      (copyFbC_keepsTable 0 2048).bind fun _ => .pure _

theorem ioctlKbKchrChunk_keepsTable (machine : Machine) (chunk : Int16)
    : KeepsTable (ioctlKbKchrChunk machine chunk) := by
  unfold ioctlKbKchrChunk
  split
  · exact .throw _
  · exact (Ascends.modify fun _ => ⟨rfl, rfl, rfl⟩).bind fun _ => .pure _

theorem fbPhys_keepsTable (machine : Machine) (devIndex : Nat) (addr : UInt32)
    : KeepsTable (fbPhys machine devIndex addr) := by
  refine (fbFbSize_keepsTable devIndex).bind fun size => ?_
  refine (videoDescAt_keepsTable devIndex).bind fun v => ?_
  refine (use_keepsTable _).bind fun _ => ?_
  split
  · exact .pure _
  · exact .throw _

/-- Every call but opening a screen leaves the table alone, by cases on the call. -/
theorem leaves_sameTable (machine : Machine) {call : DriverCall}
    (opensNone : ∀ minor, call ≠ .opens minor) (vars : Vars)
    : SameTable vars (call.leaves machine vars) := by
  cases call with
  | opens minor => exact absurd rfl (opensNone minor)
  | reads devIndex => exact fbRead_keepsTable machine devIndex vars
  | mode devIndex => exact ioctlMode_keepsTable machine devIndex vars
  | clutChunk devIndex chunk => exact ioctlClutChunk_keepsTable machine devIndex chunk vars
  | clutHash devIndex => exact ioctlClutHash_keepsTable machine devIndex vars
  | kbKchrChunk chunk => exact ioctlKbKchrChunk_keepsTable machine chunk vars
  | phys devIndex addr => exact fbPhys_keepsTable machine devIndex addr vars

-----------------------------------------------------------------------------------------
-- Opening a screen
-----------------------------------------------------------------------------------------

/-- The Slot Manager has the modes from `i` to `k`. -/
def Listed (slots : SlotManager) (slot : Int) (i k : Nat) : Prop :=
  ∀ j, i ≤ j → j ≤ k → ∃ vpb, fbGetVpblock slots slot (0x80 + (j : Nat)) = .ok vpb

/-- A row of the table once the modes from `i` on are in it, with space for `left` of them. -/
def rowFrom (slots : SlotManager) (slot : Int) : Nat → Nat → (Int → VPBlock) → Int → VPBlock
  | 0, _, row => row
  | left + 1, i, row =>
      match fbGetVpblock slots slot (0x80 + i) with
      | .error _ => row
      | .ok vpb => rowFrom slots slot left (i + 1) (Function.update row i vpb)

section Rows

variable {slots : SlotManager} {slot : Int}

theorem Listed.next {i k : Nat} {vpb : VPBlock}
    (found : fbGetVpblock slots slot (0x80 + (i : Nat)) = .ok vpb)
    (later : Listed slots slot (i + 1) k)
    : Listed slots slot i k := by
  intro j from_ to_
  rcases Nat.eq_or_lt_of_le from_ with rfl | after
  · exact ⟨vpb, found⟩
  · exact later j after to_

/-- Modes that are not among those listed from `i` on stay as they are. -/
theorem rowFrom_else (left i : Nat) (row : Int → VPBlock) {mode : Int}
    (unlisted : ∀ k : Nat, mode = k → i ≤ k → k < i + left → ¬Listed slots slot i k)
    : rowFrom slots slot left i row mode = row mode := by
  induction left generalizing i row with
  | zero => rfl
  | succ left ih =>
      rw [rowFrom]
      cases found : fbGetVpblock slots slot (0x80 + (i : Nat)) with
      | error e => rfl
      | ok vpb =>
          have here : Listed slots slot i i := by
            intro j from_ to_
            obtain rfl : j = i := by omega
            exact ⟨vpb, found⟩
          have other : mode ≠ i := fun same => unlisted i same (Nat.le_refl i) (by omega) here
          have rest := ih (i + 1) (Function.update row i vpb) fun k same from_ to_ listed =>
            unlisted k same (by omega) (by omega) (listed.next found)
          exact rest.trans (Function.update_of_ne other vpb row)

/-- The modes listed from `i` on get their blocks. -/
theorem rowFrom_listed (left i : Nat) (row : Int → VPBlock) {k : Nat} {vpb : VPBlock}
    (from_ : i ≤ k) (to_ : k < i + left) (listed : Listed slots slot i k)
    (block : fbGetVpblock slots slot (0x80 + (k : Nat)) = .ok vpb)
    : rowFrom slots slot left i row k = vpb := by
  induction left generalizing i row with
  | zero => omega
  | succ left ih =>
      obtain ⟨first, found⟩ := listed i (Nat.le_refl i) from_
      simp only [rowFrom, found]
      rcases Nat.eq_or_lt_of_le from_ with rfl | later
      · cases found.symm.trans block
        rw [rowFrom_else left (i + 1) _ (by intro j same from_' to_'; omega)]
        exact Function.update_self _ _ _
      · exact ih (i + 1) _ later (by omega) fun j from_' to_' => listed j (by omega) to_'

end Rows

/-- The loop fills the row of its screen, by induction on the space that is left. -/
theorem cacheModes_fills (slots : SlotManager) (videoId : Nat) (slot : Int) (left i : Nat)
    (vars : Vars)
    : ∃ after, cacheModes slots videoId slot left i vars = .ok () after
        ∧ after.videoCount = vars.videoCount ∧ after.videoDesc = vars.videoDesc
        ∧ after.fbVp
          = Function.update vars.fbVp videoId
            (rowFrom slots slot left i (vars.fbVp videoId)) := by
  induction left generalizing i vars with
  | zero => exact ⟨vars, rfl, rfl, rfl, (Function.update_eq_self _ _).symm⟩
  | succ left ih =>
      cases found : fbGetVpblock slots slot (0x80 + (i : Nat)) with
      | error e =>
          refine ⟨{ vars with uses := vars.uses ++ [.fbVp videoId i] }, ?_, rfl, rfl, ?_⟩
          · simp only [cacheModes, found]
            rfl
          · simp only [rowFrom, found]
            exact (Function.update_eq_self _ _).symm
      | ok vpb =>
          obtain ⟨after, cached, videoCount, videoDesc, fbVp⟩ :=
            ih (i + 1)
              { vars with
                uses := vars.uses ++ [.fbVp videoId i]
                fbVp :=
                  Function.update vars.fbVp videoId
                    (Function.update (vars.fbVp videoId) i vpb) }
          refine ⟨after, ?_, videoCount, videoDesc, ?_⟩
          · simp only [cacheModes, found]
            exact cached
          · rw [fbVp, rowFrom, found]
            simp only [Function.update_self, Function.update_idem]

/-- A screen that exists has its row filled when it is opened. -/
theorem opens_leaves {machine : Machine} {minor : Nat} (exists_ : minor < machine.nscreens)
    (vars : Vars)
    : ((DriverCall.opens minor).leaves machine vars).videoCount = vars.videoCount
      ∧ ((DriverCall.opens minor).leaves machine vars).videoDesc = vars.videoDesc
      ∧ ((DriverCall.opens minor).leaves machine vars).fbVp
        = Function.update vars.fbVp minor
          (rowFrom machine.slots (vars.videoDesc minor).videoSlot.toInt qdMaxModes 0
            (vars.fbVp minor)) := by
  obtain ⟨after, cached, videoCount, videoDesc, fbVp⟩ :=
    cacheModes_fills machine.slots minor (vars.videoDesc minor).videoSlot.toInt qdMaxModes 0
      { vars with uses := vars.uses ++ [.videoDesc minor] }
  have opened : fbOpen machine minor vars = .ok () after := by
    rw [fbOpen, if_neg (by omega)]
    exact cached
  rw [DriverCall.leaves, afterwards, opened, endState]
  exact ⟨videoCount, videoDesc, fbVp⟩

/-- Others are refused. -/
theorem opens_leaves_none {machine : Machine} {minor : Nat} (none_ : machine.nscreens ≤ minor)
    (vars : Vars)
    : (DriverCall.opens minor).leaves machine vars = vars := by
  have refused : fbOpen machine minor vars = .error einval vars := by
    rw [fbOpen, if_pos none_]
    rfl
  rw [DriverCall.leaves, afterwards, refused, endState]

-----------------------------------------------------------------------------------------
-- Any calls
-----------------------------------------------------------------------------------------

/-- The same Slot Manager and the same screens surround every call, from the variables `vars` on,
and no palette that is read is too large for `fb_c`.
-/
def Around (slots : SlotManager) (nscreens : Nat) : List (Machine × DriverCall) → Vars → Prop
  | [], _ => True
  | step :: steps, vars =>
      (step.1.slots = slots ∧ step.1.nscreens = nscreens ∧ step.2.Fits step.1 vars)
      ∧ Around slots nscreens steps (step.2.leaves step.1 vars)

/-- Palettes fit when the Mac video driver never hands out more than 256 entries. -/
theorem DriverCall.fits_of_refusal {machine : Machine}
    (refuses : ∀ count, 256 < count → ∃ ret, machine.getEntries count = .error ret)
    (vars : Vars) (call : DriverCall)
    : call.Fits machine vars := by
  have fits (devIndex : Nat)
      : entriesAsked machine devIndex vars ≤ 256
        ∨ ∃ ret, machine.getEntries (entriesAsked machine devIndex vars) = .error ret :=
    (Nat.lt_or_ge 256 (entriesAsked machine devIndex vars)).elim
      (fun many => Or.inr (refuses _ many)) Or.inl
  cases call with
  | clutChunk devIndex chunk => exact fits devIndex
  | clutHash devIndex => exact fits devIndex
  | _ => trivial

theorem around_of_refusal {slots : SlotManager} {nscreens : Nat}
    {steps : List (Machine × DriverCall)}
    (same
      : ∀ step ∈ steps, step.1.slots = slots ∧ step.1.nscreens = nscreens
          ∧ ∀ count, 256 < count → ∃ ret, step.1.getEntries count = .error ret)
    (vars : Vars)
    : Around slots nscreens steps vars := by
  induction steps generalizing vars with
  | nil => trivial
  | cons step steps ih =>
      obtain ⟨slots_, nscreens_, refuses⟩ := same step List.mem_cons_self
      refine ⟨⟨slots_, nscreens_, step.2.fits_of_refusal refuses vars⟩, ih ?_ _⟩
      exact fun later member => same later (List.mem_cons_of_mem step member)

/-- One of the calls opens the screen. -/
def Opens (nscreens : Nat) (steps : List (Machine × DriverCall)) (d : Nat) : Prop :=
  d < nscreens ∧ ∃ step ∈ steps, step.2 = .opens d

/-- The block that the Slot Manager has for mode `k` of a screen, among the modes that fit. -/
def ListedAs (slots : SlotManager) (v : Video) (k : Nat) (vpb : VPBlock) : Prop :=
  k < qdMaxModes ∧ Listed slots v.videoSlot.toInt 0 k
    ∧ fbGetVpblock slots v.videoSlot.toInt (0x80 + (k : Nat)) = .ok vpb

/-- The table as it was, with the modes that are listed for the screens that have been opened. -/
structure Filled (slots : SlotManager) (opened : Nat → Prop) (vars vars' : Vars) : Prop where
  videoCount : vars'.videoCount = vars.videoCount
  videoDesc : vars'.videoDesc = vars.videoDesc
  listed
    : ∀ d k vpb, opened d → ListedAs slots (vars.videoDesc d) k vpb → vars'.fbVp d k = vpb
  others
    : ∀ d (mode : Int),
        (opened d → ∀ k vpb, ListedAs slots (vars.videoDesc d) k vpb → mode ≠ (k : Nat)) →
          vars'.fbVp d mode = vars.fbVp d mode

section Filled

variable {slots : SlotManager} {opened : Nat → Prop} {vars vars' : Vars}

theorem Filled.none (vars : Vars) : Filled slots (fun _ => False) vars vars :=
  ⟨rfl, rfl, fun _ _ _ opened _ => opened.elim, fun _ _ _ => rfl⟩

/-- Which screens have been opened can be said in other words. -/
theorem Filled.congr (filled : Filled slots opened vars vars') {opened' : Nat → Prop}
    (same : ∀ d, opened d ↔ opened' d)
    : Filled slots opened' vars vars' := by
  obtain rfl : opened = opened' := funext fun d => propext (same d)
  exact filled

/-- A mode that is in no block's place is not listed. -/
theorem unlisted_of_ne {v : Video} {mode : Int}
    (ne : ∀ k vpb, ListedAs slots v k vpb → mode ≠ (k : Nat)) (k : Nat) (same : mode = k)
    (small : k < qdMaxModes)
    : ¬Listed slots v.videoSlot.toInt 0 k := by
  intro listed
  obtain ⟨vpb, block⟩ := listed k (Nat.zero_le k) (Nat.le_refl k)
  exact ne k vpb ⟨small, listed, block⟩ same

/-- A screen that has been opened has the same modes whatever calls have been made. -/
theorem Filled.sameRow (filled : Filled slots opened vars vars') {opened' : Nat → Prop}
    {after : Vars} (filled' : Filled slots opened' vars after) {d : Nat} (isOpen : opened d)
    (isOpen' : opened' d)
    : vars'.fbVp d = after.fbVp d := by
  funext mode
  by_cases some_ : ∃ (k : Nat) (vpb : VPBlock), ListedAs slots (vars.videoDesc d) k vpb ∧ mode = k
  · obtain ⟨k, vpb, listed, rfl⟩ := some_
    rw [filled.listed d k vpb isOpen listed, filled'.listed d k vpb isOpen' listed]
  · have none_ (k : Nat) (vpb : VPBlock) (listed : ListedAs slots (vars.videoDesc d) k vpb)
        : mode ≠ k :=
      fun same => some_ ⟨k, vpb, listed, same⟩
    rw [filled.others d mode fun _ => none_, filled'.others d mode fun _ => none_]

/-- A screen that exists is opened: its row is filled, and the others stay. -/
theorem Filled.opens (filled : Filled slots opened vars vars') {machine : Machine}
    (sameSlots : machine.slots = slots) {minor : Nat} (exists_ : minor < machine.nscreens)
    : Filled slots (fun d => opened d ∨ d = minor) vars
        ((DriverCall.opens minor).leaves machine vars') := by
  obtain ⟨videoCount, videoDesc, fbVp⟩ := opens_leaves exists_ vars'
  rw [sameSlots, filled.videoDesc] at fbVp
  refine ⟨videoCount.trans filled.videoCount, videoDesc.trans filled.videoDesc, ?_, ?_⟩
  · intro d k vpb nowOpened listed
    rw [fbVp]
    by_cases same : d = minor
    · subst same
      obtain ⟨small, upTo, block⟩ := listed
      rw [Function.update_self]
      exact rowFrom_listed qdMaxModes 0 _ (Nat.zero_le k) (by omega) upTo block
    · rw [Function.update_of_ne same]
      exact filled.listed d k vpb (nowOpened.resolve_right same) listed
  · intro d mode other
    rw [fbVp]
    by_cases same : d = minor
    · subst same
      have ne := other (Or.inr rfl)
      rw [Function.update_self, rowFrom_else]
      · exact filled.others d mode fun _ => ne
      · intro k place _ small
        exact unlisted_of_ne ne k place (by omega)
    · rw [Function.update_of_ne same]
      exact filled.others d mode fun before => other (Or.inl before)

/-- The table stays as it is. -/
theorem Filled.same (filled : Filled slots opened vars vars') {after : Vars}
    (sameTable : SameTable vars' after)
    : Filled slots opened vars after := by
  refine ⟨sameTable.videoCount.trans filled.videoCount,
    sameTable.videoDesc.trans filled.videoDesc, ?_, ?_⟩
  · rw [sameTable.fbVp]
    exact filled.listed
  · rw [sameTable.fbVp]
    exact filled.others

/-- What a call leaves of the table, by cases on whether it opens a screen that exists. -/
theorem Filled.step (filled : Filled slots opened vars vars') {machine : Machine}
    (sameSlots : machine.slots = slots) (call : DriverCall)
    : Filled slots (fun d => opened d ∨ d < machine.nscreens ∧ call = .opens d) vars
        (call.leaves machine vars') := by
  by_cases opening : ∃ minor, minor < machine.nscreens ∧ call = .opens minor
  · obtain ⟨minor, exists_, rfl⟩ := opening
    refine (filled.opens sameSlots exists_).congr fun d => or_congr_right ?_
    constructor
    · rintro rfl
      exact ⟨exists_, rfl⟩
    · rintro ⟨_, same⟩
      cases same
      rfl
  · have unopened (d : Nat) : ¬(d < machine.nscreens ∧ call = .opens d) :=
      fun now => opening ⟨d, now⟩
    have sameTable : SameTable vars' (call.leaves machine vars') := by
      by_cases opens : ∃ minor, call = .opens minor
      · obtain ⟨minor, rfl⟩ := opens
        have none_ : machine.nscreens ≤ minor := by
          by_contra exists_
          exact unopened minor ⟨by omega, rfl⟩
        rw [opens_leaves_none none_]
        exact ⟨rfl, rfl, rfl⟩
      · exact leaves_sameTable machine (fun minor same => opens ⟨minor, same⟩) vars'
    exact (filled.same sameTable).congr fun d => (or_iff_left (unopened d)).symm

/-- `FB_MODE` answers with the block that is listed for the current mode. -/
theorem Filled.answers (filled : Filled slots opened vars vars') {d k : Nat} (isOpen : opened d)
    {vpb : VPBlock} (listed : ListedAs slots (vars.videoDesc d) k vpb) {machine : Machine}
    (current : fbCurrentMode machine = 0x80 + (k : Nat))
    : answer (ioctlMode machine d) vars' = some vpb := by
  have index : fbCurrentMode machine - 0x80 = k := by omega
  have cached : ¬(k : Int) ≥ qdMaxModes := by
    have := listed.1
    omega
  simp only [answer, ioctlMode, index, if_neg cached]
  exact congrArg some (filled.listed d k vpb isOpen listed)

/-- What any calls leave of it, by induction on the calls. -/
theorem Filled.run (filled : Filled slots opened vars vars') {nscreens : Nat}
    {steps : List (Machine × DriverCall)} (around : Around slots nscreens steps vars')
    : Filled slots (fun d => opened d ∨ Opens nscreens steps d) vars (leave steps vars') := by
  induction steps generalizing opened vars' with
  | nil =>
      refine filled.congr fun d => ?_
      simp [Opens]
  | cons step steps ih =>
      obtain ⟨⟨sameSlots, screens, _⟩, later⟩ := around
      have rest := ih (filled.step sameSlots step.2) later
      refine rest.congr fun d => ?_
      simp only [Opens, screens, List.exists_mem_cons_iff, and_or_left, or_assoc]

theorem filled_leave {nscreens : Nat} {steps : List (Machine × DriverCall)}
    (around : Around slots nscreens steps vars)
    : Filled slots (Opens nscreens steps) vars (leave steps vars) := by
  have run := (Filled.none vars).run around
  simpa only [false_or] using run

end Filled

/-- Whatever processes do with the driver, in whatever order, and whatever the Mac video driver
answers meanwhile, so long as it hands out no palette of more than 256 entries: the table holds the
Slot Manager's modes, as many as come one after the other and fit, for the screens that somebody has
opened, and is otherwise as it was. `FB_MODE` then answers with the Slot Manager's block for the
current mode of such a screen, and a `read` has as many bytes as that block has in all the rows of
the screen.
-/
theorem mode_table_after_calls {slots : SlotManager} {nscreens : Nat}
    {steps : List (Machine × DriverCall)} {vars : Vars} (around : Around slots nscreens steps vars)
    : Filled slots (Opens nscreens steps) vars (leave steps vars)
      ∧ ∀ machine d k vpb,
          Opens nscreens steps d → ListedAs slots (vars.videoDesc d) k vpb →
            fbCurrentMode machine = 0x80 + (k : Nat) →
              answer (ioctlMode machine d) (leave steps vars) = some vpb
                ∧ (d < vars.videoCount → machine.uiomove = 0 →
                    answer (fbRead machine d) (leave steps vars)
                      = some (vpb.vpRowBytes.toInt32 * (vars.videoDesc d).videoMemY)) := by
  have filled := filled_leave around
  refine ⟨filled, ?_⟩
  intro machine d k vpb opened listed current
  refine ⟨filled.answers opened listed current, ?_⟩
  intro known copied
  have index : fbCurrentMode machine - 0x80 = k := by omega
  have entry := filled.listed d k vpb opened listed
  have device : ¬d ≥ (leave steps vars).videoCount := by
    rw [filled.videoCount]
    omega
  have stride : (leave steps vars).videoDesc d = vars.videoDesc d := by
    rw [filled.videoDesc]
  simp only [answer, fbRead, get_bind, if_neg device, if_pos copied, index]
  simp only [videoDescAt, fbVpAt, use, modify_bind, get_bind, bind_assoc, pure_bind, entry,
    stride]
  rfl

/-- A screen at slot 9 that has a mode of 1 bit and one of 8 bits per pixel, with a black palette of
256 entries.
-/
def twoModes (csMode : Int16) : Machine :=
  { oneScreen csMode with
    getEntries := fun count => if count ≤ 256 then .ok fun _ => 0 else .error (-1)
    slots :=
      { sNextTypeSRsrc := fun slot => .ok slot
        sFindStruct := fun _ mode => if mode < 0x82 then .ok () else .error (-1)
        sGetBlock := fun _ mode => .ok (if mode = 0x80 then wideMode 1 80 else wideMode 8 640) } }

theorem twoModes_refuses (csMode : Int16) (count : Nat) (many : 256 < count)
    : ∃ ret, (twoModes csMode).getEntries count = .error ret :=
  ⟨-1, if_neg (by omega)⟩

theorem twoModes_listed (csMode : Int16)
    : ListedAs (twoModes csMode).slots ⟨9, 480, 0xF9000000⟩ 1 (wideMode 8 640) := by
  refine ⟨by decide, ?_, rfl⟩
  intro j _ small
  obtain rfl | rfl : j = 0 ∨ j = 1 := by omega
  · exact ⟨wideMode 1 80, rfl⟩
  · exact ⟨wideMode 8 640, rfl⟩

/-- While the palette is read, screen 0 is opened twice, and a process fails to open a seventh. -/
theorem mode_table_after_calls_open
    : answer (ioctlMode (twoModes 0x81) 0)
        (leave
          [(twoModes 0x80, .clutHash 0), (twoModes 0x80, .opens 0), (twoModes 0x81, .opens 6),
            (twoModes 0x81, .clutChunk 0 3), (twoModes 0x80, .opens 0)]
          (oneScreenVars (wideMode 2 160)))
      = some (wideMode 8 640) := by
  have around
      : Around (twoModes 0x80).slots 6
          [(twoModes 0x80, .clutHash 0), (twoModes 0x80, .opens 0), (twoModes 0x81, .opens 6),
            (twoModes 0x81, .clutChunk 0 3), (twoModes 0x80, .opens 0)]
          (oneScreenVars (wideMode 2 160)) := by
    refine around_of_refusal (fun step member => ?_) _
    obtain ⟨csMode, same⟩ : ∃ csMode, step.1 = twoModes csMode := by
      simp only [List.mem_cons, List.not_mem_nil, or_false] at member
      rcases member with rfl | rfl | rfl | rfl | rfl <;> exact ⟨_, rfl⟩
    rw [same]
    exact ⟨rfl, rfl, twoModes_refuses csMode⟩
  have after := mode_table_after_calls around
  exact (after.2 (twoModes 0x81) 0 1 (wideMode 8 640)
    ⟨by decide, _, List.mem_cons_of_mem _ List.mem_cons_self, rfl⟩ (twoModes_listed 0x80)
    (by decide)).1

end MiniVnc.Kernel
