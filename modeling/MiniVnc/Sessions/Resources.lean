import MiniVnc.Library.Descriptors
import MiniVnc.Sessions.Ending

/-! What a session gives back when it ends, and what is left of it to the listener. -/

namespace MiniVnc
open Library.Memory Library.Stream Library.Descriptors

-----------------------------------------------------------------------------------------
-- What the clean-up gives back
-----------------------------------------------------------------------------------------

/-- A connection that is accepted, by what its session finds. -/
structure Connection where
  outside : Outside
  garbage : Garbage

/-- The descriptors in use after something has been given back. -/
def giveBack (table : Table) : Release → Table
  | .frame => table
  | .descriptor fd => close table fd

/-- One iteration of the loop in `listener`, on the descriptors in use. -/
def serveConnection (table : Table) (connection : Connection) : Table :=
  let sock := lowestFree table
  let accepted := insert sock table
  let fd := lowestFree accepted
  let opened := if connection.outside.opens then insert fd accepted else accepted
  (handleSession connection.outside connection.garbage sock fd).released.foldl giveBack opened

end MiniVnc
