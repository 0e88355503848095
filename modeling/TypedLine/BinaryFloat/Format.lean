/-!
# Binary floating-point numbers

A format has a number of fraction bits and of exponent bits. The magnitudes of a format are
numbered in ascending order from zero to infinity: the number of a magnitude is its **rank**, and
it is at the same time the bit pattern without the sign. A finite magnitude is a whole number of
**units**, the unit being the least positive magnitude, so that everything about magnitudes can
be said in natural numbers (`FloatFormat.units`).

There is one not-a-number: no operation here tells its bit patterns apart.
-/

namespace TypedLine

-- Powers are those of the core library, also where other powers are at hand.
attribute [local instance (high)] instPowNat

/-- A binary interchange format. -/
structure FloatFormat where
  /-- The number of bits of the fraction. -/
  fractionBits : Nat
  /-- The number of bits of the exponent. -/
  exponentBits : Nat
  deriving DecidableEq, Repr

namespace FloatFormat

/-- The format of 32 bits. -/
def single : FloatFormat := ⟨23, 8⟩

/-- The format of 64 bits. -/
def double : FloatFormat := ⟨52, 11⟩

/-- The number of ranks in each binade. -/
def binade (f : FloatFormat) : Nat :=
  2 ^ f.fractionBits

/-- The rank of infinity. -/
def infinityRank (f : FloatFormat) : Nat :=
  (2 ^ f.exponentBits - 1) * f.binade

/-- The unit is two to the negative of this exponent. -/
def unitExponent (f : FloatFormat) : Nat :=
  2 ^ (f.exponentBits - 1) + f.fractionBits - 2

/-- The number of units in the number one. -/
def unitsPerOne (f : FloatFormat) : Nat :=
  2 ^ f.unitExponent

/-- The magnitude of a rank, in units. Below the second binade the magnitudes are one unit apart,
and the distance doubles with each binade from there. The rule goes on past the last finite
rank, to give the magnitude where rounding begins to reach infinity. -/
def units (f : FloatFormat) (rank : Nat) : Nat :=
  let exponent := rank / f.binade
  let fraction := rank % f.binade
  if exponent = 0 then fraction else (f.binade + fraction) * 2 ^ (exponent - 1)

end FloatFormat

/-- A number of a binary format. -/
inductive BinaryFloat (f : FloatFormat) where
  /-- Not a number. -/
  | nan
  /-- A sign and the rank of a magnitude. -/
  | number (negative : Bool) (rank : Fin (f.infinityRank + 1))
  deriving DecidableEq, Repr

/-- The numbers of 32 bits. -/
abbrev Single := BinaryFloat .single

/-- The numbers of 64 bits. -/
abbrev Double := BinaryFloat .double

namespace BinaryFloat

variable {f : FloatFormat}

/-- The number of a sign and a rank; a rank past infinity counts as infinity. -/
def ofRank (negative : Bool) (rank : Nat) : BinaryFloat f :=
  .number negative ⟨min rank f.infinityRank, Nat.lt_succ_of_le (Nat.min_le_right ..)⟩

/-- Whether it is a zero of either sign. -/
def isZero : BinaryFloat f → Bool
  | .nan => false
  | .number _ rank => rank.val == 0

/-- The number with the given bit pattern: the sign is the bit above the rank. -/
def ofBits (bits : Nat) : BinaryFloat f :=
  let ranks := 2 ^ f.exponentBits * f.binade
  let rank := bits % ranks
  if rank ≤ f.infinityRank then ofRank (bits / ranks % 2 == 1) rank else .nan

/-- The bit pattern; not-a-number has none of its own. -/
def bits? : BinaryFloat f → Option Nat
  | .nan => none
  | .number negative rank =>
    some (if negative then 2 ^ f.exponentBits * f.binade + rank else rank)

end BinaryFloat

end TypedLine
