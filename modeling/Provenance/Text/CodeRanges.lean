/-!
Sets of code points written as sorted ranges. A table is a flat list
`lo₀, hi₀, lo₁, hi₁, …` of ascending numbers; each pair is the half-open range
from `lo` up to, not including, `hi`.
-/

namespace Provenance.Text

/-- Whether a number lies in one of the ranges of a table. The ranges ascend,
so the search stops at the first range that starts above the number. -/
def inRanges (n : Nat) : List Nat → Bool
  | lo :: hi :: rest => if n < lo then false else if n < hi then true else inRanges n rest
  | _ => false

end Provenance.Text
