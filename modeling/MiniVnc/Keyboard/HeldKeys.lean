import MiniVnc.Keyboard.Injection
import MiniVnc.Library.Switches

/-! Which keys the injected codes leave down. The last operation on a key decides, and for every
stroke this is either the key-up or a release that the key-down has made itself.
-/

namespace MiniVnc
open Library.Stream Library.Switches

/-- A code below 0x80 puts the key down; one with the top bit set releases it. -/
def keyOp (code : UInt8) : Op UInt8 :=
  if code < 0x80 then .on code else .off (code &&& 0x7f)

/-- Whether the key is down after the codes, when none was before. -/
def keyDown (codes : List UInt8) (key : UInt8) : Bool :=
  after (fun _ => false) (codes.map keyOp) key

/-- What holds of all 256 byte values holds of every byte. -/
theorem forall_byte {property : UInt8 → Prop} (all : ∀ n < 256, property (UInt8.ofNat n))
    (byte : UInt8)
    : property byte := by
  have value := all byte.toNat byte.toNat_lt
  rwa [UInt8.ofNat_toNat] at value

theorem keyOp_key : ∀ code, (keyOp code).key = code &&& 0x7f :=
  forall_byte (by decide +kernel)

theorem keyOp_isOn (code : UInt8) : (keyOp code).isOn = decide (code < 0x80) := by
  by_cases plain : code < 0x80 <;> simp [keyOp, plain, Op.isOn]

theorem keyOp_up : ∀ code, keyOp (code ||| 0x80) = .off (code &&& 0x7f) :=
  forall_byte (by decide +kernel)

/-- The release code of a key is about this key. -/
theorem release_key : ∀ key : UInt8, key < 0x80 →
    (key ||| 0x80) &&& 0x7f = key ∧ ¬ (key ||| 0x80) < 0x80 :=
  forall_byte (by decide +kernel)

theorem keyDown_append (codes more : List UInt8) (key : UInt8)
    : keyDown (codes ++ more) key = after (keyDown codes) (more.map keyOp) key := by
  rw [keyDown, List.map_append, after_append]
  rfl

/-- One of the codes is about the key. -/
def Keypresses.Uses (kp : Keypresses) (key : UInt8) : Prop := ∃ code ∈ kp.keys, code &&& 0x7f = key

instance (kp : Keypresses) (key : UInt8) : Decidable (kp.Uses key) :=
  inferInstanceAs (Decidable (∃ code ∈ kp.keys, _))

theorem last?_keys_eq_none_iff {kp : Keypresses} {key : UInt8}
    : last? (kp.keys.map keyOp) key = none ↔ ¬ kp.Uses key := by
  simp [last?_eq_none_iff, Keypresses.Uses, keyOp_key]

/-- The key-up of keypresses releases all the keys they use. -/
theorem last?_up (kp : Keypresses) (key : UInt8)
    : last? (kp.up.map keyOp) key = if kp.Uses key then some false else none := by
  have about : last? (kp.up.map keyOp) key = none ↔ ¬ kp.Uses key := by
    simp [last?_eq_none_iff, Keypresses.Uses, Keypresses.up, keyOp_up, Op.key]
  split
  · next uses =>
      cases last : last? (kp.up.map keyOp) key with
      | none => exact absurd uses (about.mp last)
      | some value =>
          obtain ⟨op, member, _, decides⟩ := last?_mem last
          obtain ⟨code, inside, rfl⟩ := List.mem_map.mp member
          obtain ⟨released, _, rfl⟩ := List.mem_map.mp inside
          rw [← decides, keyOp_up]
          rfl
  · next unused => exact about.mpr unused

/-- A key-down leaves the held keys as it presses them, and the other tapped keys up. -/
theorem Stroke.last?_down (stroke : Stroke) (key : UInt8)
    : last? (stroke.downCodes.map keyOp) key
      = if stroke.held.Uses key then last? (stroke.held.keys.map keyOp) key
        else if stroke.tapped.Uses key then some false
        else none := by
  rw [Stroke.downCodes, List.map_append, List.map_append, last?_append, last?_append, last?_up]
  by_cases held : stroke.held.Uses key
  · cases last : last? (stroke.held.keys.map keyOp) key with
    | none => exact absurd held (last?_keys_eq_none_iff.mp last)
    | some value => rw [if_pos held, Option.some_or]
  · rw [last?_keys_eq_none_iff.mpr held, if_neg held, Option.none_or]
    by_cases tapped : stroke.tapped.Uses key
    · rw [if_pos tapped, Option.some_or]
    · rw [if_neg tapped, Option.none_or, last?_keys_eq_none_iff.mpr tapped]

/-- The operations of an event on the keys. -/
def keyOps (state : KchrState) (evt : VNCKeyEvent) : List (Op UInt8) :=
  (arawCodes state evt).map keyOp

/-- Where a sequence of events leaves a key. -/
theorem keyDown_run {events : List VNCKeyEvent} {s s' : KeySession} (araw : s.InAraw)
    (h : run vncEvtKey events s = .ok () s') (key : UInt8)
    : keyDown s'.keyboard.injected key
      = after (keyDown s.keyboard.injected) (events.flatMap (keyOps s.kchr)) key := by
  rw [(run_vncEvtKey_ok araw h).injected, keyDown_append, List.map_flatMap]
  rfl

theorem last?_keyOps_up {state : KchrState} {evt : VNCKeyEvent} (up : evt.down = 0) (key : UInt8)
    : last? (keyOps state evt) key
      = if (strokeFor state evt.key).held.Uses key then some false else none := by
  rw [keyOps, arawCodes, if_neg (by simp [up]), last?_up]

theorem last?_keyOps_down {state : KchrState} {evt : VNCKeyEvent} (down : evt.down ≠ 0)
    (key : UInt8)
    : last? (keyOps state evt) key
      = if (strokeFor state evt.key).held.Uses key then
          last? ((strokeFor state evt.key).held.keys.map keyOp) key
        else if (strokeFor state evt.key).tapped.Uses key then some false
        else none := by
  rw [keyOps, arawCodes, if_pos down, Stroke.last?_down]

/-- Only a key-down leaves a key down, and only one that its keysym holds. -/
theorem held_of_left_down {state : KchrState} {evt : VNCKeyEvent} {key : UInt8}
    (left : last? (keyOps state evt) key = some true)
    : evt.down ≠ 0 ∧ (strokeFor state evt.key).held.Uses key := by
  by_cases down : evt.down = 0
  · rw [last?_keyOps_up down] at left
    split at left <;> cases left
  · rw [last?_keyOps_down down] at left
    refine ⟨down, ?_⟩
    by_contra unused
    rw [if_neg unused] at left
    split at left <;> cases left

/-- The last event of each keysym that occurs is a key-up. -/
def AllReleased (events : List VNCKeyEvent) : Prop :=
  ∀ keysym evt, (events.filter fun evt => evt.key = keysym).getLast? = some evt → evt.down = 0

/-- Behind every key-down comes a key-up of the same keysym. -/
theorem AllReleased.release {before rest : List VNCKeyEvent} {press : VNCKeyEvent}
    (released : AllReleased (before ++ press :: rest)) (down : press.down ≠ 0)
    : ∃ release ∈ rest, release.key = press.key ∧ release.down = 0 := by
  have last := released press.key
  rw [List.filter_append, List.filter_cons_of_pos (by simp)] at last
  cases tail : (rest.filter fun evt => evt.key = press.key).getLast? with
  | none =>
      rw [List.getLast?_eq_none_iff] at tail
      rw [tail] at last
      exact absurd (last press (by simp)) down
  | some release =>
      have member := List.mem_filter.mp (List.mem_of_getLast? tail)
      refine ⟨release, member.1, by simpa using member.2, last release ?_⟩
      simp [List.getLast?_append, List.getLast?_cons, tail]

/-- No stuck keys: when every keysym has been released in the end, and no key was down at the
start, no key is down. A key left down would be left by a key-down, and the key-up behind it
releases the key again.
-/
theorem noStuckKeys (s : KeySession) (araw : s.InAraw)
    (idle : ∀ key, keyDown s.keyboard.injected key = false) (events : List VNCKeyEvent)
    (released : AllReleased events)
    : (s.Accepting → ∃ final, run vncEvtKey events s = .ok () final)
      ∧ ∀ final, run vncEvtKey events s = .ok () final →
          ∀ key, keyDown final.keyboard.injected key = false := by
  constructor
  · intro accepting
    obtain ⟨_, final, returned, _⟩ :=
      run_total (fun evt _ => vncEvtKey_total evt) s ⟨araw, accepting⟩
    exact ⟨final, returned⟩
  · intro final returned key
    rw [keyDown_run araw returned, after_eq, idle]
    cases last : last? (events.flatMap (keyOps s.kchr)) key with
    | none => rfl
    | some value =>
        cases value with
        | false => rfl
        | true =>
            obtain ⟨before, press, rest, rfl, left, silent⟩ := last?_flatMap last
            obtain ⟨down, held⟩ := held_of_left_down left
            obtain ⟨release, member, same, up⟩ := released.release down
            have off := silent release member
            rw [last?_keyOps_up up, same, if_pos held] at off
            cases off

def keyEvent (key : UInt32) (down : UInt8) : VNCKeyEvent :=
  ⟨ClientMessageType.mKeyEvent.code, down, 0, key⟩

/-- A layout with one key, for `a` and with the shift key for `A`. -/
def oneKeyLayout : KchrState where
  modifiers := fun table => if table = 1 then kchrShiftKey else 0
  entries := fun c => if c = 0x61 then ⟨1, 0, 0⟩ else if c = 0x41 then ⟨1, 1, 0⟩ else ⟨0, 0, 0⟩
  deads := fun _ => ⟨0, 0, 0, 0⟩

/-- A new session on a keyboard that stays in ARAW mode and accepts every code. -/
def arawSession (kchr : KchrState) : KeySession :=
  ⟨⟨fun _ => some .araw, 0, fun _ _ => true, []⟩, kchr⟩

theorem arawSession_handles (kchr : KchrState) (events : List VNCKeyEvent)
    : ∃ final, run vncEvtKey events (arawSession kchr) = .ok () final := by
  obtain ⟨_, final, returned, _⟩ :=
    run_total (fun evt _ => vncEvtKey_total evt) (arawSession kchr)
      ⟨fun _ => rfl, fun _ _ => rfl⟩
  exact ⟨final, returned⟩

/-- The shift key and `A` pressed and then released in the same order. -/
theorem noStuckKeys_shiftedA
    : ∃ final, run vncEvtKey
          [keyEvent xkShiftL 1, keyEvent 0x41 1, keyEvent xkShiftL 0, keyEvent 0x41 0]
          (arawSession oneKeyLayout) = .ok () final
        ∧ ∀ key, keyDown final.keyboard.injected key = false := by
  have released : AllReleased
      [keyEvent xkShiftL 1, keyEvent 0x41 1, keyEvent xkShiftL 0, keyEvent 0x41 0] := by
    intro keysym evt last
    obtain ⟨member, same⟩ := List.mem_filter.mp (List.mem_of_getLast? last)
    rw [← of_decide_eq_true same] at last
    simp only [List.mem_cons, List.not_mem_nil, or_false] at member
    rcases member with rfl | rfl | rfl | rfl <;> revert last <;> decide
  have result := noStuckKeys (arawSession oneKeyLayout) (fun _ => rfl) (fun _ => rfl) _ released
  obtain ⟨final, returned⟩ := result.1 fun _ _ => rfl
  exact ⟨final, returned, result.2 final returned⟩

end MiniVnc
