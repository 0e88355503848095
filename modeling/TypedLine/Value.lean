import TypedLine.BinaryFloat.Shortest

/-!
# Kinds and values

A command declares the **kinds** of its arguments, and a line supplies one **value** of each. The
six kinds are closed. `Kind.Carrier` says what the values of a kind hold, so that one function can
hand out the content of a value of any kind (`Value.as?`).

The text of a number or of a boolean is its canonical written form; the text of a string is the
string itself.
-/

namespace TypedLine

/-- What a command may declare an argument to be. -/
inductive Kind where
  | string
  | boolean
  | int32
  | int64
  | single
  | double
  deriving DecidableEq, Repr

/-- The name of a kind. -/
def Kind.name : Kind → String
  | .string => "String"
  | .boolean => "Boolean"
  | .int32 => "Int32"
  | .int64 => "Int64"
  | .single => "Single"
  | .double => "Double"

/-- The type of what the values of a kind hold. -/
abbrev Kind.Carrier : Kind → Type
  | .string => String
  | .boolean => Bool
  | .int32 => Int32
  | .int64 => Int64
  | .single => Single
  | .double => Double

/-- A value of one of the kinds. -/
inductive Value where
  | string (text : String)
  | boolean (truth : Bool)
  | int32 (number : Int32)
  | int64 (number : Int64)
  | single (number : Single)
  | double (number : Double)
  deriving DecidableEq, Repr

namespace Value

/-- The kind of a value. -/
def kind : Value → Kind
  | string _ => .string
  | boolean _ => .boolean
  | int32 _ => .int32
  | int64 _ => .int64
  | single _ => .single
  | double _ => .double

/-- The value of a kind that holds `content`. -/
def of : (k : Kind) → k.Carrier → Value
  | .string, text => string text
  | .boolean, truth => boolean truth
  | .int32, number => int32 number
  | .int64, number => int64 number
  | .single, number => single number
  | .double, number => double number

/-- What a value holds, when it is of the kind `k`. -/
def as? : (k : Kind) → Value → Option k.Carrier
  | .string, string text => some text
  | .boolean, boolean truth => some truth
  | .int32, int32 number => some number
  | .int64, int64 number => some number
  | .single, single number => some number
  | .double, double number => some number
  | _, _ => none

/-- The text of a boolean. -/
def booleanText (truth : Bool) : String :=
  if truth then "true" else "false"

/-- The text of a value. -/
def text : Value → String
  | string text => text
  | boolean truth => booleanText truth
  | int32 number => String.ofList (Numeral.showInt number.toInt)
  | int64 number => String.ofList (Numeral.showInt number.toInt)
  | single number => String.ofList number.text
  | double number => String.ofList number.text

end Value

end TypedLine
