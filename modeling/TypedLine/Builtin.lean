import TypedLine.BinaryFloat.Arithmetic
import TypedLine.Integer
import TypedLine.Registry

/-!
# The built-in commands

Six commands: `add` and `div` for integers of 64 bits and floating-point numbers of 64 bits,
`scale` for floating-point numbers of 32 bits, `echo` and `repeat` for strings, and `not` for
booleans. What carries each of them out is a **routine**, which asks for its arguments by kind and
fails if one is not there as declared. The handler of the command is the routine with such a
failure put into words: the reply is then unparseable and says so.
-/

namespace TypedLine.Builtin

/-- What carries a command out as long as its arguments are there. -/
abbrev Routine := Arguments → Except Failure Reply

/-- The handler that a routine makes: a failure becomes an unparseable reply. -/
def checked (routine : Routine) : Handler := fun args ↦
  match routine args with
  | .ok reply => reply
  | .error e => ⟨e.message, .unparseable⟩

/-- Say the argument. -/
def say : Routine := fun args ↦ do
  let text ← args.fetch .string 0
  return ⟨text, .success⟩

/-- Negate the argument. -/
def negate : Routine := fun args ↦ do
  let truth ← args.fetch .boolean 0
  return ⟨Value.booleanText !truth, .success⟩

/-- Add two integers; a sum that does not fit is a failure. -/
def sum : Routine := fun args ↦ do
  let a ← args.fetch .int64 0
  let b ← args.fetch .int64 1
  return match int64? (a.toInt + b.toInt) with
    | some sum => ⟨(Value.int64 sum).text, .success⟩
    | none => ⟨"Integer overflow", .fail⟩

/-- The greatest number of copies that `repeat` makes. -/
def maxCopies : Nat := 64

/-- Copies of a text with one space between them. -/
def copies (n : Nat) (text : String) : String :=
  " ".intercalate (List.replicate n text)

/-- Repeat a text a number of times, within bounds. -/
def repeated : Routine := fun args ↦ do
  let text ← args.fetch .string 0
  let count ← args.fetch .int32 1
  return match count.toInt with
    | .negSucc _ =>
      ⟨"Count must not be negative, got " ++ (Value.int32 count).text, .unparseable⟩
    | .ofNat n =>
      if maxCopies < n then ⟨copies maxCopies text, .warning⟩ else ⟨copies n text, .success⟩

/-- Multiply two floating-point numbers. -/
def product : Routine := fun args ↦ do
  let a : Single ← args.fetch .single 0
  let b : Single ← args.fetch .single 1
  return ⟨(Value.single (a.mul b)).text, .success⟩

/-- Divide two floating-point numbers; a zero divisor of either sign is a failure. -/
def quotient : Routine := fun args ↦ do
  let b : Double ← args.fetch .double 1
  if b.isZero then
    return ⟨"Division by zero", .fail⟩
  let a : Double ← args.fetch .double 0
  return ⟨(Value.double (a.div b)).text, .success⟩

/-! ### The commands -/

/-- Say the argument. -/
def echo : Command :=
  ⟨[.string], checked say⟩

/-- Negate the argument. -/
def not : Command :=
  ⟨[.boolean], checked negate⟩

/-- Add two integers. -/
def add : Command :=
  ⟨[.int64, .int64], checked sum⟩

/-- Repeat a text a number of times. -/
def repetition : Command :=
  ⟨[.string, .int32], checked repeated⟩

/-- Multiply two floating-point numbers. -/
def scale : Command :=
  ⟨[.single, .single], checked product⟩

/-- Divide two floating-point numbers. -/
def div : Command :=
  ⟨[.double, .double], checked quotient⟩

/-- The built-in commands, in the order in which they are registered. -/
def commands : List Attempt :=
  [⟨"echo", echo⟩, ⟨"not", not⟩, ⟨"add", add⟩, ⟨"repeat", repetition⟩, ⟨"scale", scale⟩,
    ⟨"div", div⟩]

/-- The registry of the built-in commands. -/
def registry : Registry where
  entries := [⟨"add", add⟩, ⟨"div", div⟩, ⟨"echo", echo⟩, ⟨"not", not⟩, ⟨"repeat", repetition⟩,
    ⟨"scale", scale⟩]
  ordered := by simp +decide

end TypedLine.Builtin
