import TypedLine.BinaryFloat.Format
import TypedLine.Numeral

/-!
# Rounding

The number of a format that is nearest to a given ratio of natural numbers. Of two numbers at the
same distance the one of even rank is taken, which is the one of even significand. The ratio is
exact, so a number is rounded once, in the format it is meant for.
-/

namespace TypedLine

-- Powers are those of the core library, also where other powers are at hand.
attribute [local instance (high)] instPowNat

namespace FloatFormat

/-- The greatest rank whose magnitude is at most `units`. -/
def floorRank (f : FloatFormat) (units : Nat) : Nat :=
  let shift := Nat.log2 units - f.fractionBits
  shift * f.binade + units / 2 ^ shift

/-- The rank nearest to the magnitude of `num / den` units, an even one where two are equally
near. The result is not bounded by the rank of infinity. -/
def nearestRank (f : FloatFormat) (num den : Nat) : Nat :=
  let below := f.floorRank (num / den)
  let twice := 2 * num
  let middle := (f.units below + f.units (below + 1)) * den
  if twice < middle then below
  else if middle < twice then below + 1
  else below + below % 2

end FloatFormat

namespace BinaryFloat

variable {f : FloatFormat}

/-- The number nearest to `num / den`, with the given sign. -/
def ofRatio (negative : Bool) (num den : Nat) : BinaryFloat f :=
  ofRank negative (f.nearestRank (num * f.unitsPerOne) den)

/-- The number nearest to a fractional numeral. -/
def ofFraction (q : Numeral.Fraction) : BinaryFloat f :=
  ofRatio q.negative q.numerator q.denominator

/-- Read a fractional numeral as the number nearest to it. -/
def read? (cs : List Char) : Option (BinaryFloat f) :=
  (Numeral.readFraction? cs).map ofFraction

end BinaryFloat

end TypedLine
