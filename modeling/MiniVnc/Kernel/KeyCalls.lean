import MiniVnc.Kernel.Snapshots

/-! `FB_KB_KCHR` and `FB_KB_KEYPRESS` over whole runs of ioctls: what a keyboard's callback is
called with.
-/

namespace MiniVnc.Kernel
open Library.Memory Library.Interrupts

/-- The call is one of a keyboard's. -/
def Called.isKey (id : Nat) (called : Called) : Bool :=
  called.id = id ∧ called.action = .kcChar

/-- The keys, with their flags, that a keyboard's callback has been called with. -/
def Devices.keyCalls {κ : Type} (id : Nat) (devices : Devices κ) : List (Int32 × Int32) :=
  (devices.called.filter (·.isKey id)).map fun called => (called.data, called.flags)

/-- The keys that a request injects, with their flags. -/
def InputRequest.keys : InputRequest → List (Int32 × Int32)
  | .kbKchr kchr => [(kchr, 0)]
  | .kbKeypress key flags => [(key, flags)]
  | _ => []

/-- What an ioctl adds to the calls: keys of other keyboards are no calls of this one. -/
def withKeys (id : Nat) (calls : List (Int32 × Int32)) (request : Attached × InputRequest)
    : List (Int32 × Int32) :=
  calls ++ if request.1.videoKeyInd = id then request.2.keys else []

/-- The keys of a keyboard among ioctls. -/
def keysOf (id : Nat) (requests : List (Attached × InputRequest)) : List (Int32 × Int32) :=
  requests.flatMap fun request => if request.1.videoKeyInd = id then request.2.keys else []

theorem foldl_withKeys (id : Nat) (requests : List (Attached × InputRequest))
    (calls : List (Int32 × Int32))
    : requests.foldl (withKeys id) calls = calls ++ keysOf id requests := by
  induction requests generalizing calls with
  | nil => simp [keysOf]
  | cons request requests ih =>
      rw [List.foldl_cons, ih, keysOf, keysOf, List.flatMap_cons, ← List.append_assoc]
      rfl

section

variable {κ ι : Type} {others : Others κ} {id : Nat} {calls : List (Int32 × Int32)}

/-- A callback adds its own call, if it is one of the keyboard's. -/
theorem keyCalls_callCallback {called : Called} {ends : Unit → List (Int32 × Int32) → Prop}
    (after
      : ends ()
          (calls ++ ([called].filter (·.isKey id)).map fun called => (called.data, called.flags)))
    : (callCallback others called).Ends (Devices.keyCalls id) ends calls := by
  intro devices seen
  show ends () (((devices.called ++ [called]).filter (·.isKey id)).map fun called =>
    (called.data, called.flags))
  rw [List.filter_append, List.map_append, ← Devices.keyCalls, seen]
  exact after

/-- A step that leaves the notes of calls alone. -/
theorem keyCalls_setMouse {act : Devices κ → Devices κ}
    (same : ∀ devices, (act devices).called = devices.called)
    {ends : Unit → List (Int32 × Int32) → Prop} (after : ends () calls)
    : (setMouse act).Ends (Devices.keyCalls id) ends calls := by
  intro devices seen
  show ends () ((act devices).keyCalls id)
  rw [Devices.keyCalls, same, ← Devices.keyCalls, seen]
  exact after

theorem keyCalls_poke {act : Mem → Mem} {ends : Unit → List (Int32 × Int32) → Prop}
    (after : ends () calls)
    : (poke act : KernelCode κ Unit).Ends (Devices.keyCalls id) ends calls :=
  keyCalls_setMouse (fun _ => rfl) after

theorem keyCalls_uiPostevent {event : Posted} {ends : Unit → List (Int32 × Int32) → Prop}
    (after : ends () calls)
    : (uiPostevent others event).Ends (Devices.keyCalls id) ends calls :=
  keyCalls_setMouse (fun _ => rfl) after

theorem peekingKchr_keyCalls (key : Nat) (kchr flags : Int32)
    : (peekingKchr others key kchr flags).Ends (Devices.keyCalls id)
        (fun _ later => later = calls ++ if key = id then [(kchr, flags)] else []) calls := by
  refine .look fun _ _ => keyCalls_callCallback ?_
  by_cases mine : key = id <;> simp [Called.isKey, mine]

theorem fbUiMouse_keyCalls (x y button : Int16)
    : (fbUiMouse others x y button).Ends (Devices.keyCalls id) (fun _ later => later = calls)
        calls := by
  refine .bind (keyCalls_poke ?_)
  refine .bind (keyCalls_poke ?_)
  refine .bind (keyCalls_poke ?_)
  refine .look fun _ _ => .ite (.bind (keyCalls_poke ?_)) rfl
  refine .look fun _ _ => .ite ?_ ?_
  · exact keyCalls_uiPostevent rfl
  · exact keyCalls_uiPostevent rfl

theorem peekingMoveMouseTo_keyCalls (mouse : Nat) (x y button : Int16)
    : (peekingMoveMouseTo others mouse x y button).Ends (Devices.keyCalls id)
        (fun _ later => later = calls) calls := by
  refine .look fun _ _ => .ite (fbUiMouse_keyCalls x y button) ?_
  refine .look fun _ _ => .look fun _ _ => .look fun _ _ => ?_
  refine .bind (keyCalls_setMouse (fun _ => rfl) ?_)
  refine .bind (keyCalls_setMouse (fun _ => rfl) ?_)
  refine .bind (keyCalls_setMouse (fun _ => rfl) ?_)
  refine .ite (keyCalls_callCallback ?_) rfl
  simp [Called.isKey]

/-- One ioctl, by cases on the request. -/
theorem peekingIoctl_keyCalls (vsrc : Attached) (request : InputRequest)
    : (peekingIoctl others vsrc request).Ends (Devices.keyCalls id)
        (fun _ later => later = withKeys id calls (vsrc, request)) calls := by
  have idle {request : InputRequest} (none : request.keys = [])
      : calls = withKeys id calls (vsrc, request) := by
    rw [withKeys, none, ite_self, List.append_nil]
  cases request with
  | moveMouse mouse =>
      refine .bind ((peekingMoveMouseTo_keyCalls _ _ _ _).weaken fun _ later same => ?_)
      exact same.trans (idle rfl)
  | kbMode => exact .look fun _ _ => idle rfl
  | mouseState => exact .look fun _ _ => idle rfl
  | kbKchr i => exact .bind ((peekingKchr_keyCalls _ _ _).weaken fun _ _ called => called)
  | kbKeypress key flags =>
      exact .bind ((peekingKchr_keyCalls _ _ _).weaken fun _ _ called => called)

/-- Over any ioctls, interrupted anyhow, each key that is injected into a keyboard calls its
callback once, and nothing else does.
-/
theorem fbInputIoctls_keyCalls {irq : Source ι (Devices κ)}
    (alone : ∀ i devices, (irq.handle i devices).keyCalls id = devices.keyCalls id)
    {requests : List (Attached × InputRequest)} {cpu last : Cpu (Devices κ)}
    {log : List (ι × Devices κ)} {answers : List (List Int32)}
    (run : Runs irq (fbInputIoctls others requests) cpu log answers last)
    : last.memory.keyCalls id = cpu.memory.keyCalls id ++ keysOf id requests := by
  rw [← foldl_withKeys]
  refine fbInputIoctls_folds (fun _ => True) alone ?_ trivial run
  intro vsrc request seen _
  exact (peekingIoctl_keyCalls vsrc request).weaken fun _ later same => ⟨same, trivial⟩

end

end MiniVnc.Kernel
