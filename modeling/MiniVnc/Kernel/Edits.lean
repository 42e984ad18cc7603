import MiniVnc.Kernel.Crc32
import MiniVnc.Library.Crc

/-! Which changes `fb_crc32buf` cannot miss: those that four consecutive bytes hold. -/

namespace MiniVnc.Kernel
open Library Library.Memory Library.Loop

/-- `fb_crc_32_tab` by the bits of its index. -/
def tabEntry (octet : BitVec 8) : BitVec 32 := (fbCrc32Tab.getD octet.toNat 0).toBitVec

/-- The top octets of the table, in its order. -/
def tabTops : List (BitVec 32) := fbCrc32Tab.map fun entry => entry.toBitVec.ushiftRight 24

theorem tabTops_length : tabTops.length = 256 := by
  decide +kernel

theorem tabTops_nodup : tabTops.Nodup := by
  have distinct : Crc.distinct 0 (tabTops.map BitVec.toNat) = true := by decide +kernel
  exact (Crc.nodup_of_distinct distinct).2.of_map

theorem tabTops_getElem (octet : BitVec 8) (inside : octet.toNat < tabTops.length)
    : tabTops[octet.toNat] = (tabEntry octet).ushiftRight 24 := by
  have inside' : octet.toNat < fbCrc32Tab.length := by simpa [tabTops] using inside
  simp [tabTops, tabEntry, inside']

/-- No two entries share their top octet. -/
theorem tabEntry_tops (left right : BitVec 8)
    (same : Crc.SameFrom (32 - 8) (tabEntry left) (tabEntry right)) : left = right := by
  have shifted : (tabEntry left).ushiftRight 24 = (tabEntry right).ushiftRight 24 := by
    apply BitVec.eq_of_getLsbD_eq
    intro i _
    rw [BitVec.ushiftRight_eq, BitVec.ushiftRight_eq, BitVec.getLsbD_ushiftRight,
      BitVec.getLsbD_ushiftRight]
    exact same (24 + i) (by omega)
  have inside (octet : BitVec 8) : octet.toNat < tabTops.length := by
    rw [tabTops_length]
    exact octet.isLt
  rw [← tabTops_getElem left (inside left), ← tabTops_getElem right (inside right)] at shifted
  exact BitVec.toNat_inj.mp ((tabTops_nodup.getElem_inj_iff).mp shifted)

/-- The table that `UPDC32` looks up. -/
def crc32 : Crc.Table 32 := ⟨tabEntry, tabEntry_tops⟩

/-- `UPDC32` is the step of this table. -/
theorem updc32_toBitVec (octet : UInt8) (crc : UInt32)
    : (updc32 octet crc).toBitVec = Crc.step crc32 octet.toBitVec crc.toBitVec := by
  have index : ((crc ^^^ octet.toUInt32) &&& 0xff).toNat
      = (Crc.index octet.toBitVec crc.toBitVec).toNat := by
    have octetBelow : octet.toNat % 2 ^ 8 = octet.toNat := Nat.mod_eq_of_lt octet.toNat_lt
    have mask : (crc.toNat ^^^ octet.toNat) &&& (2 ^ 8 - 1)
        = crc.toNat % 2 ^ 8 ^^^ octet.toNat := by
      rw [Nat.and_two_pow_sub_one_eq_mod, Nat.xor_mod_two_pow, octetBelow]
    simpa [Crc.index] using mask
  rw [updc32, index]
  rfl

theorem fbCrc32buf_toBitVec (buf : Mem) (len : Nat)
    : (fbCrc32buf buf len).toBitVec
      = ~~~(Crc.checksum crc32 (fun i => (buf i).toBitVec) 0xFFFFFFFF len) := by
  have run : (upTo (fun i oldcrc32 => updc32 (buf i) oldcrc32) 0xFFFFFFFF len).toBitVec
      = Crc.checksum crc32 (fun i => (buf i).toBitVec) 0xFFFFFFFF len := by
    induction len with
    | zero => rfl
    | succ len ih => rw [upTo, updc32_toBitVec, ih, Crc.checksum_succ]
  rw [fbCrc32buf, UInt32.toBitVec_not, run]

-----------------------------------------------------------------------------------------
-- Edits of four bytes
-----------------------------------------------------------------------------------------

/-- The blocks differ below `len`, but only among the bytes from `start` up to `stop`. -/
structure DifferWithin (start stop len : Nat) (left right : Mem) : Prop where
  outside : ∀ k < len, k < start ∨ stop ≤ k → left k = right k
  somewhere : ∃ k < len, left k ≠ right k

/-- The checksum does not miss a difference that four consecutive bytes hold. The stretch is cut
off where the blocks end.
-/
theorem DifferWithin.fbCrc32buf_differs {left right : Mem} {start stop len : Nat}
    (edited : DifferWithin start stop len left right) (short : stop ≤ start + 4)
    : fbCrc32buf left len ≠ fbCrc32buf right len := by
  obtain ⟨k, below, differs⟩ := edited.somewhere
  have inside : start ≤ k ∧ k < stop := by
    by_contra outside
    exact differs (edited.outside k below (by omega))
  have burst : start + (min stop len - start) = min stop len := by omega
  have same (i) (below : i < len) (outside : i < start ∨ start + (min stop len - start) ≤ i)
      : (left i).toBitVec = (right i).toBitVec := by
    rw [edited.outside i below (by omega)]
  have apart := @Crc.checksum_ne_of_burst 32 crc32 (fun i => (left i).toBitVec)
    (fun i => (right i).toBitVec) 0xFFFFFFFF start (min stop len - start) len (by decide)
    (by omega) (by omega) same ⟨k, below, fun octet => differs (UInt8.toBitVec_inj.mp octet)⟩
  intro checksums
  have words := congrArg UInt32.toBitVec checksums
  rw [fbCrc32buf_toBitVec, fbCrc32buf_toBitVec] at words
  exact apart (BitVec.not_inj.mp words)

end MiniVnc.Kernel
