import MiniVnc.Kernel.Devices

/-! What `fb.c` swaps out it swaps in again before anybody looks: its ioctls run as if the other
drivers let their modes and callbacks be read.
-/

namespace MiniVnc.Kernel
open Library.Memory Library.Interrupts

section

variable {κ : Type} (others : Others κ)

-----------------------------------------------------------------------------------------
-- Ioctls that read the hidden variables
-----------------------------------------------------------------------------------------

/-- The mode and the callback of a mouse at one moment. -/
def peekMouse (id : Nat) : KernelCode κ (Int32 × Int32) :=
  .look fun devices =>
    ((others.mouse id .mode).read devices.rest, (others.mouse id .intr).read devices.rest)

/-- The mode or the callback of a keyboard. -/
def peekKey (id : Nat) (op : SwapOp) : KernelCode κ Int32 :=
  .look fun devices => (others.key id op).read devices.rest

def peekingMoveMouseTo (id : Nat) (x y button : Int16) : KernelCode κ Unit := do
  let uiDevices ← Code.look fun devices => devices.uiDevices
  if uiDevices ≠ 0 then
    fbUiMouse others x y button
  else
    let (mode, call) ← peekMouse others id
    let dx ← Code.look fun devices => x.toInt32 - devices.mouseX id
    let dy ← Code.look fun devices => y.toInt32 - devices.mouseY id
    setMouse fun devices => { devices with mouseX := Function.update devices.mouseX id x.toInt32 }
    setMouse fun devices => { devices with mouseY := Function.update devices.mouseY id y.toInt32 }
    setMouse fun devices =>
      { devices with mouseButton := Function.update devices.mouseButton id button.toInt32 }
    if mode ≠ 0 then
      callCallback others ⟨call, id, .mouseChange, rebuffOf dx dy button, 3⟩

def peekingKchr (id : Nat) (kchr flags : Int32) : KernelCode κ Unit := do
  let keycall ← peekKey others id .intr
  callCallback others ⟨keycall, id, .kcChar, kchr, flags⟩

def peekingIoctl (vsrc : Attached) : InputRequest → KernelCode κ (List Int32)
  | .moveMouse meese => do
      peekingMoveMouseTo others vsrc.videoMouseInd meese.x meese.y meese.button
      return []
  | .kbMode => do
      let i ← peekKey others vsrc.videoKeyInd .mode
      return [i]
  | .kbKchr i => do
      peekingKchr others vsrc.videoKeyInd i 0
      return []
  | .mouseState => do
      let (mode, call) ← peekMouse others vsrc.videoMouseInd
      return [mode, call]
  | .kbKeypress key flags => do
      peekingKchr others vsrc.videoKeyInd key flags
      return []

def peekingIoctls : List (Attached × InputRequest) → KernelCode κ (List (List Int32))
  | [] => return []
  | (vsrc, request) :: requests => do
      let answer ← peekingIoctl others vsrc request
      let answers ← peekingIoctls requests
      return answer :: answers

end

-----------------------------------------------------------------------------------------
-- Nobody can tell the two apart
-----------------------------------------------------------------------------------------

section

variable {κ ι : Type} {others : Others κ} (irq : Source ι (Devices κ))

/-- Swapping a value in and out again leaves what was there, and finds it. -/
theorem swap_twice (hidden : Hidden κ) {α : Type} (rest : Int32 → KernelCode κ α)
    (devices : Devices κ)
    : (do
        let old ← swap hidden 0
        let _ ← swap hidden old
        rest old : KernelCode κ α).effect devices
      = (rest (hidden.read devices.rest)).effect devices := by
  have back : hidden.write (hidden.read devices.rest) (hidden.write 0 devices.rest)
      = devices.rest := by
    rw [hidden.write_write, hidden.write_read]
  show (rest (hidden.read devices.rest)).effect
      { devices with
        rest := hidden.write (hidden.read devices.rest) (hidden.write 0 devices.rest) }
    = (rest (hidden.read devices.rest)).effect devices
  rw [back]

theorem fbGetMouseModeAndCallback_sameRuns (id : Nat)
    : SameRuns irq (fbGetMouseModeAndCallback others id) (peekMouse others id) := by
  let body : KernelCode κ (Int32 × Int32) := do
    let m ← mouseOp others id .mode 0
    let _ ← mouseOp others id .mode m
    let c ← mouseOp others id .intr 0
    let _ ← mouseOp others id .intr c
    return (m, c)
  have plain : body.Plain := fun _ _ _ _ => trivial
  have masked : fbGetMouseModeAndCallback others id = body.masked := rfl
  rw [masked]
  refine sameRuns_look plain fun devices => ?_
  exact (swap_twice (others.mouse id .mode) _ devices).trans
    (swap_twice (others.mouse id .intr) _ devices)

/-- A variable of a keyboard is found as it is, by the argument for one swap. -/
theorem masked_swap_sameRuns (hidden : Hidden κ)
    : SameRuns irq
        (do
          let x ← splhi
          let found ← swap hidden 0
          let _ ← swap hidden found
          splx x
          return found : KernelCode κ Int32)
        (.look fun devices => hidden.read devices.rest) := by
  let body : KernelCode κ Int32 := do
    let found ← swap hidden 0
    let _ ← swap hidden found
    return found
  have plain : body.Plain := fun _ _ => trivial
  exact sameRuns_look plain fun devices => swap_twice hidden _ devices

theorem fbKbMode_sameRuns (id : Nat)
    : SameRuns irq (fbKbMode others id) (peekKey others id .mode) :=
  masked_swap_sameRuns irq (others.key id .mode)

theorem fbKbCall_sameRuns (id : Nat)
    : SameRuns irq (fbKbCall others id) (peekKey others id .intr) :=
  masked_swap_sameRuns irq (others.key id .intr)

theorem fbKbKchr_sameRuns (id : Nat) (kchr flags : Int32)
    : SameRuns irq (fbKbKchr others id kchr flags) (peekingKchr others id kchr flags) :=
  (fbKbCall_sameRuns irq id).bind fun _ => .refl _

theorem fbMoveMouseTo_sameRuns (id : Nat) (x y button : Int16)
    : SameRuns irq (fbMoveMouseTo others id x y button)
        (peekingMoveMouseTo others id x y button) := by
  refine (SameRuns.refl _).bind fun uiDevices => ?_
  split
  · exact .refl _
  · exact (fbGetMouseModeAndCallback_sameRuns irq id).bind fun _ => .refl _

/-- One ioctl, by cases on the request. -/
theorem fbInputIoctl_sameRuns (vsrc : Attached) (request : InputRequest)
    : SameRuns irq (fbInputIoctl others vsrc request) (peekingIoctl others vsrc request) := by
  cases request with
  | moveMouse meese => exact (fbMoveMouseTo_sameRuns irq _ _ _ _).bind fun _ => .refl _
  | kbMode => exact (fbKbMode_sameRuns irq _).bind fun _ => .refl _
  | kbKchr i => exact (fbKbKchr_sameRuns irq _ _ _).bind fun _ => .refl _
  | mouseState => exact (fbGetMouseModeAndCallback_sameRuns irq _).bind fun _ => .refl _
  | kbKeypress key flags => exact (fbKbKchr_sameRuns irq _ _ _).bind fun _ => .refl _

/-- What a view that handlers leave alone becomes over any ioctls, when each ioctl changes it in a
way of its own, as long as something holds of the view. By induction on the ioctls.
-/
theorem fbInputIoctls_folds {irq : Source ι (Devices κ)} {τ : Type} {view : Devices κ → τ}
    {change : τ → Attached × InputRequest → τ} (holds : τ → Prop)
    (alone : ∀ i devices, view (irq.handle i devices) = view devices)
    (each : ∀ vsrc request seen, holds seen
      → (peekingIoctl others vsrc request).Ends view
        (fun _ later => later = change seen (vsrc, request) ∧ holds later) seen)
    {requests : List (Attached × InputRequest)} {cpu last : Cpu (Devices κ)}
    {log : List (ι × Devices κ)} {answers : List (List Int32)} (start : holds (view cpu.memory))
    (run : Runs irq (fbInputIoctls others requests) cpu log answers last)
    : view last.memory = requests.foldl change (view cpu.memory) := by
  have waits {α : Type} {cpu last : Cpu (Devices κ)} {log : List (ι × Devices κ)} {value given : α}
      (wait : Runs irq (.done given) cpu log value last)
      : view last.memory = view cpu.memory :=
    @Runs.ends _ _ _ _ irq view (fun _ later => later = view cpu.memory) _ _ _ _ _ alone wait rfl
  induction requests generalizing cpu last log answers with
  | nil => exact waits run
  | cons request requests ih =>
      obtain ⟨answer, mid, before, _, rfl, first, rest⟩ := run.of_bind
      obtain ⟨more, after, between, _, rfl, later, wait⟩ := rest.of_bind
      have peeks := (fbInputIoctl_sameRuns irq request.1 request.2 _ _ _ _).mp first
      obtain ⟨here, still⟩ := peeks.ends alone (each request.1 request.2 _ start)
      rw [waits wait, ih still later, here, List.foldl_cons]

theorem peekingMoveMouseTo_plain (id : Nat) (x y button : Int16)
    : (peekingMoveMouseTo others id x y button).Plain := by
  refine fun _ => .ite ?_ (fun _ _ _ _ _ _ => .ite (fun _ => trivial) trivial)
  refine fun _ _ _ _ => .ite (fun _ _ => ?_) trivial
  exact .ite (fun _ => trivial) (fun _ => trivial)

theorem peekingIoctl_plain (vsrc : Attached) (request : InputRequest)
    : (peekingIoctl others vsrc request).Plain := by
  cases request with
  | moveMouse meese => exact (peekingMoveMouseTo_plain _ _ _ _).bind fun _ => trivial
  | kbMode => exact fun _ => trivial
  | kbKchr i => exact fun _ _ => trivial
  | mouseState => exact fun _ => trivial
  | kbKeypress key flags => exact fun _ _ => trivial

/-- What ioctls hand back and leave when nothing interrupts them. -/
def ioctlsAlone (others : Others κ)
    : List (Attached × InputRequest) → Devices κ → List (List Int32) × Devices κ
  | [], devices => ([], devices)
  | (vsrc, request) :: requests, devices =>
      let (answer, after) := (peekingIoctl others vsrc request).effect devices
      let (answers, last) := ioctlsAlone others requests after
      (answer :: answers, last)

/-- Ioctls that nothing interrupts always return, by induction on the ioctls. -/
theorem fbInputIoctls_runs (requests : List (Attached × InputRequest)) (level : Nat)
    (devices : Devices κ)
    : Runs irq (fbInputIoctls others requests) ⟨level, devices⟩ []
        (ioctlsAlone others requests devices).1
        ⟨level, (ioctlsAlone others requests devices).2⟩ := by
  induction requests generalizing devices with
  | nil => exact .done
  | cons request requests ih =>
      have peeks := runs_plain irq (@peekingIoctl_plain _ others request.1 request.2) level devices
      have first := (fbInputIoctl_sameRuns irq request.1 request.2 _ _ _ _).mpr peeks
      exact first.bind ((ih _).bind .done)

/-- Any ioctls have the runs that they would have if the modes and callbacks could be read,
whatever interrupts come between their steps, by induction on the ioctls.
-/
theorem ioctls_swap_unseen (requests : List (Attached × InputRequest))
    : SameRuns irq (fbInputIoctls others requests) (peekingIoctls others requests) := by
  induction requests with
  | nil => exact .refl _
  | cons request requests ih =>
      obtain ⟨vsrc, request⟩ := request
      exact (fbInputIoctl_sameRuns irq vsrc request).bind fun _ => ih.bind fun _ => .refl _

end

-----------------------------------------------------------------------------------------
-- Callbacks that are called
-----------------------------------------------------------------------------------------

section

variable {κ ι : Type} {others : Others κ}

/-- Every mouse and every keyboard has a callback, and only callbacks have been called. -/
def Installed (others : Others κ) (devices : Devices κ) : Prop :=
  (∀ id, (others.mouse id .intr).read devices.rest ≠ 0
    ∧ (others.key id .intr).read devices.rest ≠ 0)
  ∧ ∀ called ∈ devices.called, called.callback ≠ 0

/-- Callbacks and posted events keep the callbacks installed. -/
structure KeepsInstalled (others : Others κ) : Prop where
  callback : ∀ called devices, Installed others devices
    → Installed others (others.callback called devices)
  uiPostevent : ∀ event devices, Installed others devices
    → Installed others (others.uiPostevent event devices)

theorem keeps_poke (act : Mem → Mem) : (poke act : KernelCode κ Unit).Keeps (Installed others) :=
  fun _ installed => ⟨installed, trivial⟩

theorem keeps_uiPostevent (kept : KeepsInstalled others) (event : Posted)
    : (uiPostevent others event).Keeps (Installed others) :=
  fun devices installed =>
    ⟨⟨(kept.uiPostevent event devices installed).1, installed.2⟩, trivial⟩

/-- Calling a callback that is none is what must not happen. -/
theorem keeps_callCallback (kept : KeepsInstalled others) {called : Called}
    (some : called.callback ≠ 0)
    : (callCallback others called).Keeps (Installed others) := by
  intro devices installed
  have after := kept.callback called devices installed
  refine ⟨⟨after.1, fun other member => ?_⟩, trivial⟩
  rcases List.mem_append.mp member with before | last
  · exact installed.2 other before
  · rw [List.mem_singleton.mp last]
    exact some

theorem keeps_fbUiMouse (kept : KeepsInstalled others) (x y button : Int16)
    : (fbUiMouse others x y button).Keeps (Installed others) := by
  refine (keeps_poke _).bind fun _ => (keeps_poke _).bind fun _ => (keeps_poke _).bind fun _ => ?_
  refine .look fun _ _ => .ite ?_ trivial
  refine (keeps_poke _).bind fun _ => .look fun _ _ => ?_
  exact .ite (keeps_uiPostevent kept _) (keeps_uiPostevent kept _)

theorem keeps_setMouse {act : Devices κ → Devices κ}
    (same : ∀ devices, (act devices).rest = devices.rest ∧ (act devices).called = devices.called)
    : (setMouse act).Keeps (Installed others) := by
  intro devices installed
  refine ⟨?_, trivial⟩
  rw [Installed, (same devices).1, (same devices).2]
  exact installed

theorem keeps_peekingMoveMouseTo (kept : KeepsInstalled others) (id : Nat) (x y button : Int16)
    : (peekingMoveMouseTo others id x y button).Keeps (Installed others) := by
  refine .look fun _ _ => .ite (keeps_fbUiMouse kept x y button) ?_
  refine .look fun devices installed => .look fun _ _ => .look fun _ _ => ?_
  refine (keeps_setMouse fun _ => ⟨rfl, rfl⟩).bind fun _ => ?_
  refine (keeps_setMouse fun _ => ⟨rfl, rfl⟩).bind fun _ => ?_
  refine (keeps_setMouse fun _ => ⟨rfl, rfl⟩).bind fun _ => ?_
  exact .ite (keeps_callCallback kept (installed.1 id).1) trivial

theorem keeps_peekingKchr (kept : KeepsInstalled others) (id : Nat) (kchr flags : Int32)
    : (peekingKchr others id kchr flags).Keeps (Installed others) :=
  fun _ installed => ⟨installed, keeps_callCallback kept (installed.1 id).2⟩

/-- One ioctl keeps the callbacks installed, by cases on the request. -/
theorem keeps_peekingIoctl (kept : KeepsInstalled others) (vsrc : Attached)
    (request : InputRequest)
    : (peekingIoctl others vsrc request).Keeps (Installed others) := by
  cases request with
  | moveMouse meese => exact (keeps_peekingMoveMouseTo kept _ _ _ _).bind fun _ => trivial
  | kbMode => exact fun _ installed => ⟨installed, trivial⟩
  | kbKchr i => exact (keeps_peekingKchr kept _ _ _).bind fun _ => trivial
  | mouseState => exact fun _ installed => ⟨installed, trivial⟩
  | kbKeypress key flags => exact (keeps_peekingKchr kept _ _ _).bind fun _ => trivial

/-- While the handlers of interrupts, callbacks and posted events leave every callback installed,
no handler finds one swapped out, and `fb.c` never calls one that is not there, by induction on
the ioctls.
-/
theorem never_without_callback (irq : Source ι (Devices κ)) (kept : KeepsInstalled others)
    (handled : ∀ i devices, Installed others devices → Installed others (irq.handle i devices))
    {requests : List (Attached × InputRequest)} {cpu last : Cpu (Devices κ)}
    {log : List (ι × Devices κ)} {answers : List (List Int32)}
    (start : Installed others cpu.memory)
    (run : Runs irq (fbInputIoctls others requests) cpu log answers last)
    : (∀ served ∈ log, Installed others served.2) ∧ Installed others last.memory := by
  induction requests generalizing cpu last log answers with
  | nil => exact run.keeps handled trivial start
  | cons request requests ih =>
      obtain ⟨vsrc, request⟩ := request
      obtain ⟨answer, mid, before, _, rfl, first, rest⟩ := run.of_bind
      obtain ⟨more, after, between, _, rfl, later, wait⟩ := rest.of_bind
      have peeks := (fbInputIoctl_sameRuns irq vsrc request _ _ _ _).mp first
      obtain ⟨found, here⟩ := peeks.keeps handled (keeps_peekingIoctl kept vsrc request) start
      obtain ⟨found', there⟩ := ih here later
      obtain ⟨found'', final⟩ := wait.keeps handled trivial there
      refine ⟨List.forall_mem_append.mpr ⟨found, ?_⟩, final⟩
      exact List.forall_mem_append.mpr ⟨found', found''⟩

end

/-- A variable of a driver that keeps its variables in a table. -/
def tabled {κ : Type} [DecidableEq κ] (key : κ) : Hidden (κ → Int32) where
  read table := table key
  write value table := Function.update table key value
  read_write _ _ := Function.update_self ..
  write_read _ := Function.update_eq_self ..
  write_write _ _ _ := Function.update_idem ..

/-- Other drivers with mice and keyboards whose callbacks do nothing. -/
def quietOthers : Others (Bool × Nat × SwapOp → Int32) where
  mouse id op := tabled (false, id, op)
  key id op := tabled (true, id, op)
  callback _ devices := devices
  uiPostevent _ devices := devices

/-- All of them are installed, nothing has happened yet. -/
def quietDevices : Devices (Bool × Nat × SwapOp → Int32) where
  mouseX _ := 0
  mouseY _ := 0
  mouseButton _ := 0
  uiDevices := 0
  uiActive := 0
  uiLowaddr _ := 0
  posted := []
  called := []
  rest _ := 0x1000

/-- A mouse that interrupts whenever it moves to the right. -/
def busyMouse : Source Unit (Devices (Bool × Nat × SwapOp → Int32)) where
  top := 7
  priority _ := 2
  handle _ devices := { devices with mouseX := fun id => devices.mouseX id + 1 }
  priority_le _ := by decide

/-- What is left when a mouse moves and a key is injected. -/
def keyedDevices : Devices (Bool × Nat × SwapOp → Int32) :=
  { quietDevices with
    mouseX := fun _ => 1
    called := [⟨0x1000, 0, .kcChar, 12, 0⟩] }

/-- The mouse interrupts a key that is injected. -/
theorem never_without_callback_key
    : (∀ served ∈ [((), quietDevices)], Installed quietOthers served.2)
      ∧ Installed quietOthers keyedDevices := by
  have kept : KeepsInstalled quietOthers := ⟨fun _ _ installed => installed, fun _ _ same => same⟩
  have some : (0x1000 : Int32) ≠ 0 := by decide
  have ready : Installed quietOthers quietDevices := ⟨fun _ => ⟨some, some⟩, by simp [quietDevices]⟩
  have peeks : Runs busyMouse (peekingIoctl quietOthers ⟨0, 0⟩ (.kbKeypress 12 0))
      ⟨0, quietDevices⟩ [((), quietDevices)] [] ⟨0, keyedDevices⟩ :=
    .interrupt () (by decide) (.step (.step .done))
  have first := (fbInputIoctl_sameRuns busyMouse _ _ _ _ _ _).mpr peeks
  have run : Runs busyMouse (fbInputIoctls quietOthers [(⟨0, 0⟩, .kbKeypress 12 0)])
      ⟨0, quietDevices⟩ [((), quietDevices)] [[]] ⟨0, keyedDevices⟩ :=
    first.bind .done
  exact never_without_callback busyMouse kept (fun _ _ installed => installed) ready run

end MiniVnc.Kernel
