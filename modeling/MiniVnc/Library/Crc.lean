import MiniVnc.Library.Loop
import Mathlib.Data.BitVec

/-! Table-driven reflected CRCs of any width: the step from one octet to the next, and which
changes of the octets cannot leave the checksum as it was.
-/

namespace Library.Crc
open Library.Loop

variable {width : Nat}

/-- The words agree from bit `low` up. -/
def SameFrom (low : Nat) (left right : BitVec width) : Prop :=
  ∀ i, low ≤ i → left.getLsbD i = right.getLsbD i

/-- A table whose entries are told apart by their top octets. -/
structure Table (width : Nat) where
  entry : BitVec 8 → BitVec width
  tops : ∀ left right, SameFrom (width - 8) (entry left) (entry right) → left = right

/-- No number of the list occurs in it twice, nor is it one whose bit is set in `seen`. -/
def distinct : Nat → List Nat → Bool
  | _, [] => true
  | seen, number :: rest =>
      !seen.testBit number && distinct (seen ||| 2 ^ number) rest

/-- One pass finds all repetitions, by induction on the list: the bits of the numbers before are
set.
-/
theorem nodup_of_distinct {seen : Nat} {numbers : List Nat} (passed : distinct seen numbers = true)
    : (∀ number ∈ numbers, seen.testBit number = false) ∧ numbers.Nodup := by
  induction numbers generalizing seen with
  | nil => exact ⟨by simp, List.nodup_nil⟩
  | cons number rest ih =>
      rw [distinct, Bool.and_eq_true, Bool.not_eq_true'] at passed
      obtain ⟨new, later⟩ := passed
      obtain ⟨unseen, nodup⟩ := ih later
      have apart (other) (member : other ∈ rest)
          : seen.testBit other = false ∧ number ≠ other := by
        have bits := unseen other member
        rw [Nat.testBit_or, Nat.testBit_two_pow, Bool.or_eq_false_iff] at bits
        exact ⟨bits.1, of_decide_eq_false bits.2⟩
      constructor
      · intro other member
        rcases List.mem_cons.mp member with rfl | behind
        · exact new
        · exact (apart other behind).1
      · exact List.nodup_cons.mpr ⟨fun member => (apart number member).2 rfl, nodup⟩

/-- The table's index for an octet. -/
def index (octet : BitVec 8) (crc : BitVec width) : BitVec 8 :=
  crc.setWidth 8 ^^^ octet

/-- Take in one octet. -/
def step (table : Table width) (octet : BitVec 8) (crc : BitVec width) : BitVec width :=
  table.entry (index octet crc) ^^^ crc >>> 8

/-- Take in the octets below an index. -/
def checksum (table : Table width) (octets : Nat → BitVec 8) (crc : BitVec width) (count : Nat)
    : BitVec width :=
  upTo (fun i crc => step table (octets i) crc) crc count

theorem SameFrom.of_eq {left right : BitVec width} (same : left = right) (low : Nat)
    : SameFrom low left right := by
  subst same
  exact fun _ _ => rfl

theorem SameFrom.eq {left right : BitVec width} (same : SameFrom 0 left right)
    : left = right := by
  apply BitVec.eq_of_getLsbD_eq
  intro i _
  exact same i (Nat.zero_le i)

theorem getLsbD_step (table : Table width) (octet : BitVec 8) (crc : BitVec width) (i : Nat)
    : (step table octet crc).getLsbD i
      = ((table.entry (index octet crc)).getLsbD i ^^ crc.getLsbD (i + 8)) := by
  simp only [step, BitVec.getLsbD_xor, BitVec.getLsbD_ushiftRight, Nat.add_comm 8 i]

/-- One octet back: steps that end with the same top bits had the same index, because nothing
is shifted into the top octet, and began with the same bits above.
-/
theorem SameFrom.step_back {table : Table width} {octet octet' : BitVec 8}
    {crc crc' : BitVec width} {low : Nat} (fits : low + 8 ≤ width)
    (same : SameFrom low (step table octet crc) (step table octet' crc'))
    : index octet crc = index octet' crc' ∧ SameFrom (low + 8) crc crc' := by
  have indices : index octet crc = index octet' crc' := by
    apply table.tops
    intro i top
    have bit := same i (by omega)
    rw [getLsbD_step, getLsbD_step, BitVec.getLsbD_of_ge crc (i + 8) (by omega),
      BitVec.getLsbD_of_ge crc' (i + 8) (by omega)] at bit
    simpa using bit
  refine ⟨indices, fun i above => ?_⟩
  obtain ⟨j, rfl⟩ : ∃ j, i = j + 8 := ⟨i - 8, by omega⟩
  have bit := same j (by omega)
  rw [getLsbD_step, getLsbD_step, indices] at bit
  exact Bool.xor_right_inj.mp bit

/-- A step determines the word it began with. -/
theorem step_injective (table : Table width) (fits : 8 ≤ width) (octet : BitVec 8)
    : Function.Injective (step table octet) := by
  intro crc crc' same
  obtain ⟨indices, above⟩ := SameFrom.step_back (by omega) (SameFrom.of_eq same 0)
  have lower : crc.setWidth 8 = crc'.setWidth 8 := (BitVec.xor_left_inj octet).mp indices
  apply SameFrom.eq
  intro i _
  rcases Nat.lt_or_ge i 8 with inside | outside
  · have bit := congrArg (fun octet => octet.getLsbD i) lower
    simpa [inside] using bit
  · exact above i outside

theorem checksum_succ (table : Table width) (octets : Nat → BitVec 8) (crc : BitVec width)
    (count : Nat)
    : checksum table octets crc (count + 1)
      = step table (octets count) (checksum table octets crc count) :=
  rfl

theorem checksum_add (table : Table width) (octets : Nat → BitVec 8) (crc : BitVec width)
    (first rest : Nat)
    : checksum table octets crc (first + rest)
      = checksum table (fun i => octets (first + i)) (checksum table octets crc first) rest :=
  upTo_add _ crc first rest

theorem checksum_congr {table : Table width} {octets octets' : Nat → BitVec 8}
    {crc : BitVec width} {count : Nat} (same : ∀ i < count, octets i = octets' i)
    : checksum table octets crc count = checksum table octets' crc count :=
  upTo_congr fun i below => by rw [same i below]

/-- Any number of octets taken in leaves the word before them determined, by induction on it. -/
theorem checksum_injective (table : Table width) (fits : 8 ≤ width) (octets : Nat → BitVec 8)
    (count : Nat)
    : Function.Injective fun crc => checksum table octets crc count := by
  induction count with
  | zero => exact fun _ _ same => same
  | succ count ih =>
      intro crc crc' same
      exact ih (step_injective table fits (octets count) same)

/-- As many octets as fit into the word are determined by the words before and after them. By
induction on their number, from the last one back: each step costs eight of the bits known to
agree, and gives an index that both sides share.
-/
theorem SameFrom.checksum_back {table : Table width} {octets octets' : Nat → BitVec 8}
    {crc crc' : BitVec width} {low count : Nat} (fits : low + 8 * count ≤ width)
    (same : SameFrom low (checksum table octets crc count) (checksum table octets' crc' count))
    : SameFrom (low + 8 * count) crc crc'
      ∧ (crc = crc' → ∀ i < count, octets i = octets' i) := by
  induction count generalizing low with
  | zero => exact ⟨same, by simp⟩
  | succ count ih =>
      rw [checksum_succ, checksum_succ] at same
      obtain ⟨indices, above⟩ := SameFrom.step_back (by omega) same
      obtain ⟨known, before⟩ := ih (by omega) above
      have place : low + 8 + 8 * count = low + 8 * (count + 1) := by omega
      refine ⟨place ▸ known, fun start i below => ?_⟩
      have earlier := before start
      rcases Nat.lt_succ_iff_lt_or_eq.mp below with inside | rfl
      · exact earlier i inside
      · rw [start, checksum_congr earlier] at indices
        exact (BitVec.xor_right_inj _).mp indices

/-- Octets that differ, but only within a stretch no longer than the word, have different
checksums: the common end hands the difference back to the end of the stretch, and the stretch
is determined there.
-/
theorem checksum_ne_of_burst {table : Table width} {octets octets' : Nat → BitVec 8}
    {crc : BitVec width} {start burst count : Nat} (word : 8 ≤ width) (fits : 8 * burst ≤ width)
    (inside : start + burst ≤ count)
    (same : ∀ i < count, i < start ∨ start + burst ≤ i → octets i = octets' i)
    (differ : ∃ i < count, octets i ≠ octets' i)
    : checksum table octets crc count ≠ checksum table octets' crc count := by
  intro equal
  obtain ⟨rest, rfl⟩ := Nat.exists_eq_add_of_le inside
  rw [checksum_add, checksum_add table octets'] at equal
  have suffix (i) (below : i < rest)
      : octets (start + burst + i) = octets' (start + burst + i) :=
    same _ (by omega) (Or.inr (by omega))
  rw [checksum_congr suffix] at equal
  have ends := checksum_injective table word _ rest equal
  simp only [checksum_add] at ends
  have before : checksum table octets crc start = checksum table octets' crc start :=
    checksum_congr fun i below => same i (by omega) (Or.inl below)
  obtain ⟨_, stretch⟩ := (SameFrom.of_eq ends 0).checksum_back (by omega)
  obtain ⟨i, below, differs⟩ := differ
  apply differs
  by_cases outside : i < start ∨ start + burst ≤ i
  · exact same i below outside
  · have place : start + (i - start) = i := by omega
    have octet := stretch before (i - start) (by omega)
    rwa [place] at octet

end Library.Crc
