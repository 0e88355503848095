/-!
# Decimal numerals

Numbers as they are written: digits, an optional minus sign before them, and, for a fraction, at
most one decimal point at any place among them. An integer numeral is read and written exactly
(`readInt?_showInt`); a fractional one is taken apart into its digits, so that whoever needs the
number can round it as it likes.
-/

namespace TypedLine.Numeral

-- Powers are those of the core library, also where other powers are at hand.
attribute [local instance (high)] instPowNat

/-- The number that a run of digits stands for. -/
def ofDigits (ds : List Char) : Nat :=
  Nat.ofDigitChars 10 ds 0

/-- The digits of `n`, without leading zeros. -/
def showNat (n : Nat) : List Char :=
  Nat.toDigits 10 n

/-- The digits of `n`, with a minus sign before them when it is negative. -/
def showInt : Int → List Char
  | .ofNat n => showNat n
  | .negSucc n => '-' :: showNat (n + 1)

/-- Take a minus sign off the front: whether there is one, and what remains. -/
def splitSign : List Char → Bool × List Char
  | '-' :: cs => (true, cs)
  | cs => (false, cs)

/-- Whether `cs` is a run of at least one digit. -/
def isDigits (cs : List Char) : Bool :=
  !cs.isEmpty && cs.all Char.isDigit

/-- The integer of an optional minus sign and digits, any number of leading zeros among them. -/
def readInt? (cs : List Char) : Option Int :=
  let (negative, ds) := splitSign cs
  if isDigits ds then
    some (if negative then -(ofDigits ds : Int) else ofDigits ds)
  else none

/-- A **fractional numeral**, taken apart. -/
structure Fraction where
  /-- Whether a minus sign stands before it. -/
  negative : Bool
  /-- The digits before the point. -/
  whole : List Char
  /-- The digits after the point. -/
  part : List Char
  deriving DecidableEq, Repr

/-- All digits of the numeral, read as one number. -/
def Fraction.numerator (q : Fraction) : Nat :=
  ofDigits (q.whole ++ q.part)

/-- The power of ten that the numerator is divided by. -/
def Fraction.denominator (q : Fraction) : Nat :=
  10 ^ q.part.length

/-- Read an optional minus sign and at least one digit, with at most one point before, among or
after the digits. -/
def readFraction? (cs : List Char) : Option Fraction :=
  let (negative, body) := splitSign cs
  let whole := body.takeWhile Char.isDigit
  match body.dropWhile Char.isDigit with
  | [] => if isDigits whole then some ⟨negative, whole, []⟩ else none
  | '.' :: part => if isDigits (whole ++ part) then some ⟨negative, whole, part⟩ else none
  | _ => none

theorem isDigits_showNat (n : Nat) : isDigits (showNat n) := by
  simp only [isDigits, Bool.and_eq_true, Bool.not_eq_true', List.isEmpty_eq_false_iff,
    List.all_eq_true]
  exact ⟨Nat.toDigits_ne_nil, fun c hc ↦ Nat.isDigit_of_mem_toDigits (by decide) (by decide) hc⟩

@[simp] theorem ofDigits_showNat (n : Nat) : ofDigits (showNat n) = n :=
  Nat.ofDigitChars_ten_toDigits

/-- Digits carry no sign. -/
theorem splitSign_of_isDigits {ds : List Char} (h : isDigits ds) : splitSign ds = (false, ds) := by
  match ds with
  | [] => rfl
  | c :: cs =>
    have hc : c ≠ '-' := by
      rintro rfl
      simp [isDigits] at h
    simp [splitSign, hc]

/-- A written integer reads as itself. -/
theorem readInt?_showInt (n : Int) : readInt? (showInt n) = some n := by
  cases n with
  | ofNat n =>
    simp [showInt, readInt?, splitSign_of_isDigits (isDigits_showNat n), isDigits_showNat]
  | negSucc n =>
    simp only [showInt, readInt?, splitSign, isDigits_showNat, ofDigits_showNat, if_true]
    rfl

end TypedLine.Numeral
