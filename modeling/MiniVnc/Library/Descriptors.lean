import Mathlib.Data.Finset.Basic
import Mathlib.Data.Fintype.EquivFin
import Mathlib.Order.Interval.Finset.Nat

/-! Descriptor tables, which give the lowest number that is free and take a number back. -/

namespace Library.Descriptors

/-- The numbers in use. -/
abbrev Table := Finset Nat

/-- The lowest number that is free. -/
def lowestFree (table : Table) : Nat := Nat.find (Infinite.exists_notMem_finset table)

/-- Close a descriptor; what is not the number of one is left alone. -/
def close (table : Table) : Int → Table
  | .ofNat fd => table.erase fd
  | .negSucc _ => table

end Library.Descriptors
