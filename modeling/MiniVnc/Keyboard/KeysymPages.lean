import Mathlib.Data.Bool.AllAny
import Mathlib.Data.UInt
import MiniVnc.Keyboard.Keysyms

/-! The pages of `keysym_to_macroman`: its tests look at bits 8 to 15 only, so that a keysym with
other bits set may be taken for one of the function keys or of Latin-1.
-/

namespace MiniVnc

/-- The extended Unicode keysyms of the switch. -/
def unicodeKeysyms : List UInt32 := (looseBits.map Prod.fst).filter fun keysym => 0x1000000 ≤ keysym

/-- Backspace, tab, return, escape and the like, as far as they stand for a character at all. -/
def ControlCharacter (character : UInt8) : Prop :=
  character ≠ 0 ∧ (character < 0x20 ∨ character = 0x7f)

/-- The keysym is translated only when the switch lists it, and never to a control character. -/
structure TranslatedExactly (keysym : UInt32) : Prop where
  listed : keysymToMacroman keysym ≠ 0 → keysym ∈ unicodeKeysyms
  noControl : ¬ControlCharacter (keysymToMacroman keysym)

/-- Bits 8 to 15 are a page's number, and the low byte is one that its table translates. -/
inductive OnPage (keysym : UInt32) : Prop
  | functionKeys (page : keysym &&& 0xff00 = 0xff00)
    (entry : (keysym &&& 0xff).toUInt8 ∈ keysymsFf.map Prod.fst)
  | latin1 (page : keysym &&& 0xff00 = 0x0000)
    (entry : (keysym &&& 0xff).toUInt8 ∈ keysyms00.map Prod.fst)

/-- A table translates a key to the value beside it, and to zero when it does not list it. -/
theorem lookup_cases {α : Type} [BEq α] [LawfulBEq α] (table : List (α × UInt8)) (key : α)
    : (∃ value, (key, value) ∈ table ∧ (table.lookup key).getD 0 = value)
      ∨ key ∉ table.map Prod.fst ∧ (table.lookup key).getD 0 = 0 := by
  cases found : table.lookup key with
  | some value =>
      obtain ⟨before, after, rfl, _⟩ := List.lookup_eq_some_iff.mp found
      exact Or.inl ⟨value, by simp, rfl⟩
  | none =>
      refine Or.inr ⟨?_, rfl⟩
      intro member
      obtain ⟨entry, inside, rfl⟩ := List.mem_map.mp member
      have differs := List.lookup_eq_none_iff.mp found entry inside
      simp at differs

/-- A table without zeros translates exactly the keys that it lists. -/
theorem lookup_ne_zero_iff {α : Type} [BEq α] [LawfulBEq α] {table : List (α × UInt8)}
    (nonzero : ∀ entry ∈ table, entry.2 ≠ 0) (key : α)
    : (table.lookup key).getD 0 ≠ 0 ↔ key ∈ table.map Prod.fst := by
  rcases lookup_cases table key with ⟨value, member, found⟩ | ⟨unlisted, zero⟩
  · rw [found]
    exact iff_of_true (nonzero _ member) (List.mem_map.mpr ⟨_, member, rfl⟩)
  · rw [zero]
    exact iff_of_false (fun differs => differs rfl) unlisted

theorem keysymsFf_nonzero : ∀ entry ∈ keysymsFf, entry.2 ≠ 0 :=
  List.all_iff_forall_prop.mp (by decide)

theorem keysyms00_nonzero : ∀ entry ∈ keysyms00, entry.2 ≠ 0 :=
  List.all_iff_forall_prop.mp (by decide)

/-- The switch gives characters beyond ASCII only. -/
theorem looseBits_high : ∀ entry ∈ looseBits, 0x80 ≤ entry.2 :=
  List.all_iff_forall_prop.mp (by decide)

/-- None of the listed Unicode keysyms is on a page. -/
theorem unicodeKeysyms_page
    : ∀ keysym ∈ unicodeKeysyms, keysym &&& 0xff00 ≠ 0xff00 ∧ keysym &&& 0xff00 ≠ 0x0000 :=
  List.all_iff_forall_prop.mp (by decide)

/-- The keysyms of the switch with a bit above bit 15 are the Unicode keysyms. -/
theorem looseBits_unicode
    : ∀ entry ∈ looseBits, 0x10000 ≤ entry.1 → entry.1 ∈ unicodeKeysyms :=
  List.all_iff_forall_prop.mp (by decide)

section Above

variable {keysym : UInt32}

/-- With a bit above bit 15 only the ASCII passthrough is out of the question. -/
theorem keysymToMacroman_above (above : 0x10000 ≤ keysym)
    : keysymToMacroman keysym
      = if keysym &&& 0xff00 = 0xff00 then (keysymsFf.lookup (keysym &&& 0xff).toUInt8).getD 0
        else if keysym &&& 0xff00 = 0x0000 then
          (keysyms00.lookup (keysym &&& 0xff).toUInt8).getD 0
        else (looseBits.lookup keysym).getD 0 := by
  have notAscii : ¬(0x20 ≤ keysym ∧ keysym ≤ 0x7f) :=
    fun ascii => absurd (UInt32.le_trans above ascii.2) (by decide)
  rw [keysymToMacroman, if_neg notAscii]

/-- What a page lists is translated. -/
theorem OnPage.translated (above : 0x10000 ≤ keysym) (onPage : OnPage keysym)
    : keysymToMacroman keysym ≠ 0 := by
  rw [keysymToMacroman_above above]
  cases onPage with
  | functionKeys page entry =>
      rw [if_pos page]
      exact (lookup_ne_zero_iff keysymsFf_nonzero _).mpr entry
  | latin1 page entry =>
      have otherPage : ¬keysym &&& 0xff00 = 0xff00 := by
        rw [page]
        decide
      rw [if_neg otherPage, if_pos page]
      exact (lookup_ne_zero_iff keysyms00_nonzero _).mpr entry

theorem TranslatedExactly.of_zero (zero : keysymToMacroman keysym = 0)
    : TranslatedExactly keysym :=
  ⟨fun translated => absurd zero translated, fun control => control.1 zero⟩

/-- What no page lists is left to the switch. -/
theorem translatedExactly_of_not_onPage (above : 0x10000 ≤ keysym) (free : ¬OnPage keysym)
    : TranslatedExactly keysym := by
  have eq := keysymToMacroman_above above
  by_cases functionKeys : keysym &&& 0xff00 = 0xff00
  · rw [if_pos functionKeys] at eq
    apply TranslatedExactly.of_zero
    rw [eq]
    by_contra translated
    exact free (.functionKeys functionKeys
      ((lookup_ne_zero_iff keysymsFf_nonzero _).mp translated))
  · by_cases latin1 : keysym &&& 0xff00 = 0x0000
    · rw [if_neg functionKeys, if_pos latin1] at eq
      apply TranslatedExactly.of_zero
      rw [eq]
      by_contra translated
      exact free (.latin1 latin1 ((lookup_ne_zero_iff keysyms00_nonzero _).mp translated))
    · rw [if_neg functionKeys, if_neg latin1] at eq
      rcases lookup_cases looseBits keysym with ⟨value, member, found⟩ | ⟨_, zero⟩
      · have high : 0x80 ≤ value := looseBits_high _ member
        refine ⟨fun _ => looseBits_unicode _ member above, ?_⟩
        intro control
        rw [eq, found] at control
        rcases control.2 with low | delete
        · exact absurd (UInt8.lt_of_le_of_lt high low) (by decide)
        · subst delete
          exact absurd high (by decide)
      · exact .of_zero (eq.trans zero)

/-- A keysym with a bit above bit 15 is translated exactly unless a page takes it for another: the
page tests come before the switch.
-/
theorem translatedExactly_iff (above : 0x10000 ≤ keysym)
    : TranslatedExactly keysym ↔ ¬OnPage keysym := by
  constructor
  · intro exactly onPage
    have page := unicodeKeysyms_page _ (exactly.listed (onPage.translated above))
    cases onPage with
    | functionKeys functionKeys => exact page.1 functionKeys
    | latin1 latin1 => exact page.2 latin1
  · exact translatedExactly_of_not_onPage above

end Above

/-- The apple logo is listed, and is on no page. -/
theorem translatedExactly_iff_appleLogo
    : TranslatedExactly 0x100F8FF ↔ ¬OnPage 0x100F8FF :=
  translatedExactly_iff (by decide)

/-- U+FF08, a full-width parenthesis, is a backspace. -/
theorem parenthesis_backspace
    : ¬TranslatedExactly 0x100FF08 ∧ keysymToMacroman 0x100FF08 = 0x08 := by
  have backspace : keysymToMacroman 0x100FF08 = 0x08 := by decide
  refine ⟨fun exactly => exactly.noControl ?_, backspace⟩
  rw [backspace]
  exact ⟨by decide, Or.inl (by decide)⟩

end MiniVnc
