/-!
# Character classes

A property of characters, given by the ranges of code points that have it.
-/

namespace TypedLine.Text

/-- A **character class**: ranges of code points, both ends included. -/
abbrev CharClass := List (Nat × Nat)

/-- Whether `c` belongs to the class. -/
def CharClass.holds (k : CharClass) (c : Char) : Bool :=
  k.any fun r ↦ r.1 ≤ c.toNat && c.toNat ≤ r.2

end TypedLine.Text
