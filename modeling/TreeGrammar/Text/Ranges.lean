/-!
# Sets of code points given by ranges

Character properties of the Unicode standard are finite unions of ranges of code points. A range
list is such a union; a stepped range is a range of which every `step`-th code point is meant,
which is the shape of the case properties (capital and small letters alternate).

## Main definitions

* `Ranges` and `Ranges.contains`: unions of closed ranges
* `SteppedRanges` and `SteppedRanges.contains`: the same with a step
-/

namespace TreeGrammar.Text

/-- A union of closed ranges of code points. -/
abbrev Ranges := List (Nat × Nat)

/-- The character lies in one of the ranges. -/
def Ranges.contains (ranges : Ranges) (c : Char) : Bool :=
  ranges.any fun (first, last) => first ≤ c.toNat && c.toNat ≤ last

/-- A union of closed ranges `(first, last, step)`, each of the code points `first`,
`first + step`, `first + 2 * step` and so on up to `last`. -/
abbrev SteppedRanges := List (Nat × Nat × Nat)

/-- The character is one of the code points of one of the ranges. -/
def SteppedRanges.contains (ranges : SteppedRanges) (c : Char) : Bool :=
  ranges.any fun (first, last, step) =>
    first ≤ c.toNat && c.toNat ≤ last && (c.toNat - first) % step = 0

end TreeGrammar.Text
