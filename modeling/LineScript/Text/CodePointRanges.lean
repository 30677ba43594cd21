/-!
# Ranges of code points

Character properties are published as lists of closed ranges of code points.
A character has the property when one of the ranges holds its code point.
-/

namespace LineScript

/-- A set of characters given by closed ranges of code points, in ascending order. -/
structure CodePointRanges where
  ranges : List (Nat × Nat)

namespace CodePointRanges

/-- Whether one of the ranges holds the code point of `c`. -/
def contains (set : CodePointRanges) (c : Char) : Bool :=
  set.ranges.any fun (first, last) => first ≤ c.toNat && c.toNat ≤ last

theorem contains_iff {set : CodePointRanges} {c : Char} :
    set.contains c = true ↔
      ∃ range ∈ set.ranges, range.1 ≤ c.toNat ∧ c.toNat ≤ range.2 := by
  simp [contains, List.any_eq_true]

end CodePointRanges

end LineScript
