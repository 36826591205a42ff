import Mathlib.Algebra.Group.Int.Defs
import Mathlib.Algebra.Group.Nat.Defs
import Mathlib.Data.List.Basic

/-!
# Failed assertions and undefined accesses

`ASSERT_UTILS` prints its condition and aborts a debug build.  A modelled
function that asserts, or that reads memory it does not own, answers with the
fault in place of a result.
-/

namespace GMServer

abbrev uint16_t := BitVec 16

abbrev uint32_t := BitVec 32

abbrev uint64_t := BitVec 64

/-! Keys are compared and looked up, in maps and in lists. -/

instance : Std.TransOrd uint32_t := inferInstance

instance : Std.TransOrd uint64_t := inferInstance

instance : LawfulBEq uint32_t := inferInstance

instance : LawfulBEq uint64_t := inferInstance

inductive Fault where
  | assertFailed
  | outOfBounds
  | nullPointer
  deriving DecidableEq, Repr

end GMServer
