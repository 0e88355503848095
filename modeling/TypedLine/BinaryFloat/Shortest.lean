import TypedLine.BinaryFloat.Rounding

/-!
# The shortest decimal

A positive finite number is written with the fewest digits that read back as the same number, and
among those with the ones nearest to it. For each power of ten, from the coarsest down, the two
multiples of the power on either side of the number are tried, and the first power where one of
them reads back is taken. A number is a whole number of its units, so some power is fine enough.
-/

namespace TypedLine

-- Powers are those of the core library, also where other powers are at hand.
attribute [local instance (high)] instPowNat

/-- The decimal `digits * 10 ^ exponent`. -/
structure Decimal where
  /-- The digits, read as one number. -/
  digits : Nat
  /-- The place of the last digit. -/
  exponent : Int
  deriving DecidableEq, Repr

namespace Decimal

/-- The power of ten of an exponent, as a ratio. -/
def tenPower : Int → Nat × Nat
  | .ofNat n => (10 ^ n, 1)
  | .negSucc n => (1, 10 ^ (n + 1))

/-- The text with no exponent: zeros follow the digits of a whole number, and a point and zeros
go before those of a small one. -/
def positional (d : Decimal) : List Char :=
  let ds := Numeral.showNat d.digits
  match d.exponent with
  | .ofNat n => ds ++ List.replicate n '0'
  | .negSucc n =>
    let padded := List.replicate (n + 2 - ds.length) '0' ++ ds
    padded.take (padded.length - (n + 1)) ++ '.' :: padded.drop (padded.length - (n + 1))

end Decimal

/-- Which of two equally near decimals is taken. -/
inductive TieRule where
  /-- The greater one. -/
  | up
  /-- The one whose last digit is even. -/
  | even
  deriving DecidableEq, Repr

namespace FloatFormat

variable (f : FloatFormat)

/-- Whether a decimal rounds to the given rank. -/
def readsAs (rank : Nat) (d : Decimal) : Bool :=
  let power := Decimal.tenPower d.exponent
  f.nearestRank (d.digits * power.1 * f.unitsPerOne) power.2 == rank

/-- The decimal for `rank` among the multiples of `10 ^ exponent`, if one of the two neighbours of
its magnitude reads back: of two that do, the nearer. -/
def onGrid? (tie : TieRule) (rank : Nat) (exponent : Int) : Option Decimal :=
  let power := Decimal.tenPower exponent
  let num := f.units rank * power.2
  let den := f.unitsPerOne * power.1
  let below : Decimal := ⟨num / den, exponent⟩
  let above : Decimal := ⟨num / den + 1, exponent⟩
  match f.readsAs rank below, f.readsAs rank above with
  | false, false => none
  | true, false => some below
  | false, true => some above
  | true, true =>
    let middle := (below.digits + above.digits) * den
    if 2 * num < middle then some below
    else if middle < 2 * num then some above
    else match tie with
      | .up => some above
      | .even => if below.digits % 2 = 0 then some below else some above

/-- An exponent whose power of ten is greater than the magnitude of `rank`, and not much. -/
def leadingExponent (rank : Nat) : Int :=
  let units := f.units rank
  if f.unitsPerOne ≤ units then (Numeral.showNat (units / f.unitsPerOne)).length
  else 1 - (Numeral.showNat ((f.unitsPerOne - 1) / units)).length

/-- The exponents to try for `rank`, in descending order. At the last one every magnitude is a
whole multiple of the power of ten. -/
def exponents (rank : Nat) : List Int :=
  let top := f.leadingExponent rank
  (List.range (top + f.unitExponent + 1).toNat).map fun (k : Nat) ↦ top - (k : Int)

/-- The magnitude of `rank` with all its digits. -/
def exactDecimal (rank : Nat) : Decimal :=
  ⟨f.units rank * 5 ^ f.unitExponent, -(f.unitExponent : Int)⟩

/-- The shortest decimal that reads back as a positive finite rank. -/
def shortest (tie : TieRule) (rank : Nat) : Decimal :=
  ((f.exponents rank).findSome? (f.onGrid? tie rank)).getD (f.exactDecimal rank)

end FloatFormat

namespace BinaryFloat

variable {f : FloatFormat}

/-- The text of a magnitude. -/
def magnitudeText (f : FloatFormat) (rank : Nat) : List Char :=
  if rank = 0 then ['0']
  else if rank < f.infinityRank then (f.shortest .up rank).positional
  else ['i', 'n', 'f']

/-- The text of a number: the shortest digits, never with an exponent, and a minus sign before
every negative number, zero among them. -/
def text : BinaryFloat f → List Char
  | .nan => ['N', 'a', 'N']
  | .number negative rank => if negative then '-' :: magnitudeText f rank else magnitudeText f rank

end BinaryFloat

end TypedLine
