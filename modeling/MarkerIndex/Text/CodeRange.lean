/-!
Ranges of code points. The character classes of Unicode that this library needs are lists of such
ranges; they are data of the standard (version 17), and nothing is proved about their contents.
-/

namespace MarkerIndex

/-- All code points from `first` to `last`, both included. -/
structure CodeRange where
  first : Nat
  last : Nat
  deriving DecidableEq

namespace CodeRange

def contains (r : CodeRange) (c : Char) : Bool :=
  r.first ≤ c.toNat && c.toNat ≤ r.last

/-- Whether one of the ranges holds the character. -/
def anyContains (ranges : List CodeRange) (c : Char) : Bool :=
  ranges.any (·.contains c)

end CodeRange

end MarkerIndex
