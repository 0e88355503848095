import TypedLine.BinaryFloat.Arithmetic
import TypedLine.BinaryFloat.Shortest

/-!
# Numbers in JSON

A number is kept as it is written: a sign, the digits before and after the point, and an exponent.
What it stands for is an integer, when it has neither point nor exponent and fits in 64 bits with
or without a sign, and a floating-point number otherwise.

**Reading** a floating-point number goes in two rounded steps. The digits, as far as they fit in
64 bits, are one whole number, which is rounded first; it is then multiplied or divided by a power
of ten. Digits that do not fit count as places before the point and as nothing after it.

**Writing** one takes the shortest digits, with a point and at least one digit after it where the
number is of a moderate size and with an exponent elsewhere.
-/

namespace TypedLine.Json

-- Powers are those of the core library, also where other powers are at hand.
attribute [local instance (high)] instPowNat

/-- A number as it is written. -/
structure Number where
  /-- Whether a minus sign stands before it. -/
  negative : Bool
  /-- The digits before the point. -/
  whole : List Char
  /-- The digits after the point; none when there is no point. -/
  part : List Char
  /-- The exponent of ten, if one is written. -/
  exponent : Option Int
  deriving DecidableEq, Repr

/-- What a number stands for. -/
inductive Quantity where
  /-- An integer. -/
  | integer (n : Int)
  /-- A floating-point number. -/
  | floating (x : Double)
  deriving DecidableEq, Repr

/-! ### Reading -/

/-- The greatest number of 64 bits. -/
def maxSignificand : Nat :=
  2 ^ (64 : Nat) - 1

/-- Go on reading digits after the number `acc`, as far as the result fits in 64 bits; also the
digits that are left. -/
def takeDigits (acc : Nat) : List Char → Nat × List Char
  | [] => (acc, [])
  | d :: ds =>
    let next := 10 * acc + (d.toNat - '0'.toNat)
    if next ≤ maxSignificand then takeDigits next ds else (acc, d :: ds)

/-- The double nearest to a power of ten. -/
def tenTo (n : Nat) : Double :=
  .ofRatio false (10 ^ n) 1

/-- The greatest power of ten that is a finite double. -/
def maxTenPower : Nat := 308

/-- Divide by a power of ten, in steps of the greatest finite one. Once the quotient is zero it
stays so, and a few steps are enough for that. -/
def divideByTenPower : (steps : Nat) → Double → Nat → Double
  | 0, x, _ => x
  | steps + 1, x, n =>
    if n ≤ maxTenPower then x.div (tenTo n)
    else if x.isZero then x
    else divideByTenPower steps (x.div (tenTo maxTenPower)) (n - maxTenPower)

/-- The double of a sign, a significand and an exponent of ten; nothing when it would be
infinite. -/
def scaled? (negative : Bool) (significand : Nat) (exponent : Int) : Option Double :=
  let x : Double := .ofRatio negative significand 1
  match exponent with
  | .negSucc n => some (divideByTenPower 4 x (n + 1))
  | .ofNat n =>
    if x.isZero then some x
    else if maxTenPower < n then none
    else
      let y := x.mul (tenTo n)
      if y = .ofRank negative FloatFormat.double.infinityRank then none else some y

/-- The greatest exponent of ten that is not too great to be counted. -/
def maxExponent : Nat :=
  2 ^ (31 : Nat) - 1

/-- What a number stands for; nothing when it is too great. An exponent too great to be counted
makes the number zero when it is negative. -/
def Number.quantity? (q : Number) : Option Quantity :=
  let (wholeValue, wholeLeft) := takeDigits 0 q.whole
  let (significand, partLeft) := takeDigits wholeValue q.part
  let places : Int := wholeLeft.length - (q.part.length - partLeft.length : Nat)
  match q.exponent with
  | some e =>
    if e.natAbs ≤ maxExponent then
      (scaled? q.negative significand (places + e)).map .floating
    else if significand = 0 ∨ e < 0 then some (.floating (.ofRank q.negative 0))
    else none
  | none =>
    if q.part ≠ [] ∨ wholeLeft ≠ [] then (scaled? q.negative significand places).map .floating
    else if !q.negative then some (.integer significand)
    else if 0 < significand ∧ significand ≤ 2 ^ (63 : Nat) then some (.integer (-significand))
    else some (.floating (.ofRatio true significand 1))

/-! ### Writing -/

/-- Where the written form of a floating-point number goes over to an exponent. -/
structure Layout where
  /-- The greatest number of places before the point without an exponent. -/
  mostPlaces : Int
  /-- The least number of zeros after the point that calls for an exponent. -/
  leastZeros : Int

/-- The layout of the numbers of 32 bits. -/
def Layout.single : Layout := ⟨13, 6⟩

/-- The layout of the numbers of 64 bits. -/
def Layout.double : Layout := ⟨16, 5⟩

/-- The written form of a sign and a decimal. -/
def Number.ofDecimal (layout : Layout) (negative : Bool) (d : Decimal) : Number :=
  let ds := Numeral.showNat d.digits
  let places : Int := ds.length + d.exponent
  if 0 ≤ d.exponent ∧ places ≤ layout.mostPlaces then
    ⟨negative, ds ++ List.replicate d.exponent.toNat '0', ['0'], none⟩
  else if 0 < places ∧ places ≤ layout.mostPlaces then
    ⟨negative, ds.take places.toNat, ds.drop places.toNat, none⟩
  else if -layout.leastZeros < places ∧ places ≤ 0 then
    ⟨negative, ['0'], List.replicate (-places).toNat '0' ++ ds, none⟩
  else ⟨negative, ds.take 1, ds.drop 1, some (places - 1)⟩

/-- The written form of a floating-point number; nothing for what is not finite. -/
def Number.ofFloat? (layout : Layout) {f : FloatFormat} : BinaryFloat f → Option Number
  | .nan => none
  | .number negative rank =>
    if rank.val = 0 then some ⟨negative, ['0'], ['0'], none⟩
    else if rank.val < f.infinityRank then
      some (ofDecimal layout negative (f.shortest .even rank))
    else none

end TypedLine.Json
