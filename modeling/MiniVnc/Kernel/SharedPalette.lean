import MiniVnc.Kernel.Edits
import MiniVnc.Kernel.ModeTable

/-! All processes and all screens share `fb_c`: whoever asks for a palette has it read into that
table, over what was there. Which answers do not depend on what the others have left there.
-/

namespace MiniVnc.Kernel
open Library.Memory Library.Stream

/-- `fb_c` once the palette has been read into it. -/
def refreshedClut (machine : Machine) (devIndex : Nat) (vars : Vars) : Mem :=
  fun k => (vars.refreshed machine devIndex).fbC k

/-- The Mac video driver hands out the palette `table`, of at least `count` entries. -/
def Supplies (machine : Machine) (devIndex : Nat) (vars : Vars) (count : Nat) (table : Mem)
    : Prop :=
  machine.getEntries (entriesAsked machine devIndex vars) = .ok table
    ∧ count ≤ entriesAsked machine devIndex vars

/-- The 64 bytes that `FB_CLUT_CHUNK` hands over. -/
def chunkBytes (machine : Machine) (devIndex : Nat) (chunk : Int16) (vars : Vars)
    : Option (List UInt8) :=
  (answer (ioctlClutChunk machine devIndex chunk) vars).map fun data => slice data 0 64

/-- The reply is the same whatever `fb_c` has held. -/
def Unaffected {α : Type} (reply : Vars → α) (vars : Vars) : Prop :=
  ∀ fbC, reply { vars with fbC } = reply vars

section Answers

variable (machine : Machine) (devIndex : Nat) (vars : Vars)

theorem ioctlClutHash_answer
    : answer (ioctlClutHash machine devIndex) vars
      = some (fbClutHash (refreshedClut machine devIndex vars)) := by
  obtain ⟨ret, refreshed⟩ :=
    fbGetClutFor_ok machine devIndex { vars with uses := vars.uses ++ [.videoDesc devIndex] }
  have device : videoDescAt devIndex vars
      = .ok (vars.videoDesc devIndex)
        { vars with uses := vars.uses ++ [.videoDesc devIndex] } := rfl
  have table (i : Nat) : (0 : Int) + (i : Nat) = i := Int.zero_add _
  rw [answer, ioctlClutHash, bind_ok device, bind_ok refreshed]
  simp only [copyFbC, modify_bind, get_bind, bind_assoc, pure_bind, table]
  rfl

theorem chunkBytes_eq {i : Nat} (asked : i < 32)
    : chunkBytes machine devIndex (Int16.ofNat i) vars
      = some (slice (refreshedClut machine devIndex vars) (i * 64) 64) := by
  rw [chunkBytes, answer, ioctlClutChunk_ok, toInt_ofNat asked, Option.map_some]
  refine congrArg some (slice_congr fun k below => ?_)
  have place : (i : Int) * 64 + ((0 + k : Nat) : Int) = ((i * 64 + k : Nat) : Int) := by omega
  rw [place]
  rfl

/-- The bytes that are handed out lie over what was there. -/
theorem refreshedClut_supplied {table : Mem}
    (handed : machine.getEntries (entriesAsked machine devIndex vars) = .ok table) (k : Nat)
    : refreshedClut machine devIndex vars k
      = if k < 8 * entriesAsked machine devIndex vars then table k else vars.fbC k := by
  have read : (vars.refreshed machine devIndex).fbC
      = (vars.withEntries (entriesAsked machine devIndex vars) table).fbC := by
    rw [entriesAsked] at handed
    simp only [Vars.refreshed, handed]
    rfl
  rw [refreshedClut, read, Vars.withEntries]
  by_cases inside : k < 8 * entriesAsked machine devIndex vars
  · rw [if_pos inside]
    exact if_pos (by omega)
  · rw [if_neg inside]
    exact if_neg (by omega)

theorem refreshedClut_refused {ret : Int}
    (refused : machine.getEntries (entriesAsked machine devIndex vars) = .error ret) (k : Nat)
    : refreshedClut machine devIndex vars k = vars.fbC k := by
  rw [entriesAsked] at refused
  simp only [refreshedClut, Vars.refreshed, refused]

/-- A byte of the palette depends on that byte of `fb_c` only. -/
theorem refreshedClut_congr {left right : Int → UInt8} {k : Nat} (same : left k = right k)
    : refreshedClut machine devIndex { vars with fbC := left } k
      = refreshedClut machine devIndex { vars with fbC := right } k := by
  cases handed : machine.getEntries (entriesAsked machine devIndex vars) with
  | error ret =>
      rw [refreshedClut_refused machine devIndex { vars with fbC := left } handed,
        refreshedClut_refused machine devIndex { vars with fbC := right } handed]
      exact same
  | ok table =>
      rw [refreshedClut_supplied machine devIndex { vars with fbC := left } handed,
        refreshedClut_supplied machine devIndex { vars with fbC := right } handed]
      exact congrArg _ same

end Answers

section Unaffected

variable {machine : Machine} {devIndex : Nat} {vars : Vars}

/-- What is read of a palette does not depend on what `fb_c` has held exactly when the driver hands
out its last byte: else that byte stays, and any change of it is noticed.
-/
theorem unaffected_iff {α : Type} (reply : Mem → α) (last : Nat)
    (depends : ∀ left right : Mem, (∀ k ≤ last, left k = right k) → reply left = reply right)
    (notices
      : ∀ left right : Mem, (∀ k < last, left k = right k) → left last ≠ right last →
          reply left ≠ reply right)
    : Unaffected (fun vars => reply (refreshedClut machine devIndex vars)) vars
      ↔ ∃ table, Supplies machine devIndex vars (last / 8 + 1) table := by
  have kept {fbC : Int → UInt8} {k : Nat}
      (uncovered : ∀ table, machine.getEntries (entriesAsked machine devIndex vars) = .ok table →
        8 * entriesAsked machine devIndex vars ≤ k)
      : refreshedClut machine devIndex { vars with fbC } k = fbC k := by
    cases handed : machine.getEntries (entriesAsked machine devIndex vars) with
    | error ret => exact refreshedClut_refused machine devIndex { vars with fbC } handed k
    | ok table =>
        rw [refreshedClut_supplied machine devIndex { vars with fbC } handed]
        exact if_neg (Nat.not_lt.mpr (uncovered table handed))
  constructor
  · intro unaffected
    by_contra none_
    have uncovered (table)
        (handed : machine.getEntries (entriesAsked machine devIndex vars) = .ok table)
        : 8 * entriesAsked machine devIndex vars ≤ last := by
      by_contra few
      exact none_ ⟨table, handed, by omega⟩
    let marked (octet : UInt8) : Int → UInt8 := Function.update vars.fbC last octet
    have same := (unaffected (marked 0)).trans (unaffected (marked 1)).symm
    refine notices _ _ ?_ ?_ same
    · intro k before
      refine refreshedClut_congr machine devIndex vars ?_
      have other : (k : Int) ≠ last := by omega
      exact (Function.update_of_ne other _ _).trans (Function.update_of_ne other _ _).symm
    · rw [kept uncovered, kept uncovered]
      simp [marked]
  · rintro ⟨table, handed, enough⟩ fbC
    refine depends _ _ fun k upTo => ?_
    have inside : k < 8 * entriesAsked machine devIndex vars := by omega
    rw [refreshedClut_supplied machine devIndex { vars with fbC } handed,
      refreshedClut_supplied machine devIndex vars handed]
    exact (if_pos inside).trans (if_pos inside).symm

end Unaffected

/-- Which answers about a palette do not depend on what other processes and other screens have left
in `fb_c`: the hash exactly when the Mac video driver hands out all 256 entries, and a chunk when
it hands out the entries up to the last of that chunk. The entries handed out are always right.
-/
theorem palette_unaffected_iff (machine : Machine) (devIndex : Nat) (vars : Vars)
    : (Unaffected (answer (ioctlClutHash machine devIndex)) vars
          ↔ ∃ table, Supplies machine devIndex vars 256 table)
      ∧ ∀ i < 32,
          (Unaffected (chunkBytes machine devIndex (Int16.ofNat i)) vars
            ↔ ∃ table, Supplies machine devIndex vars (8 * (i + 1)) table)
          ∧ ∀ table, Supplies machine devIndex vars 0 table →
              ∀ k < 64, i * 64 + k < 8 * entriesAsked machine devIndex vars →
                ∃ bytes, chunkBytes machine devIndex (Int16.ofNat i) vars = some bytes
                  ∧ bytes[k]? = some (table (i * 64 + k)) := by
  refine ⟨?_, ?_⟩
  · have hash := @unaffected_iff machine devIndex vars _ (fun clut => some (fbClutHash clut)) 2047
      (fun left right same =>
        congrArg some (fbCrc32buf_congr fun k below => same k (by omega)))
      (by
        intro left right same differs equal
        have edited : DifferWithin 2047 2051 2048 left right :=
          ⟨fun k below outside => same k (by omega), 2047, by decide, differs⟩
        exact edited.fbCrc32buf_differs (by omega) (Option.some.inj equal))
    rw [show answer (ioctlClutHash machine devIndex)
        = fun vars => some (fbClutHash (refreshedClut machine devIndex vars)) from
      funext (ioctlClutHash_answer machine devIndex)]
    exact hash
  · intro i asked
    have bytes := fun vars => chunkBytes_eq machine devIndex vars asked
    refine ⟨?_, ?_⟩
    · have chunk := @unaffected_iff machine devIndex vars _
        (fun clut => some (slice clut (i * 64) 64)) (i * 64 + 63)
        (fun left right same =>
          congrArg some (slice_congr fun k below => same (i * 64 + k) (by omega)))
        (by
          intro left right same differs equal
          have byte := congrArg (fun bytes => bytes[63]?) (Option.some.inj equal)
          rw [slice_getElem? (by decide), slice_getElem? (by decide)] at byte
          exact differs (Option.some.inj byte))
      rw [funext bytes, show 8 * (i + 1) = (i * 64 + 63) / 8 + 1 by omega]
      exact chunk
    · intro table supplied k below inside
      refine ⟨_, bytes vars, ?_⟩
      rw [slice_getElem? below, refreshedClut_supplied machine devIndex vars supplied.1,
        if_pos inside]

end MiniVnc.Kernel
