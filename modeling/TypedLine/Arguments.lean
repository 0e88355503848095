import TypedLine.Failure
import TypedLine.Value

/-!
# Arguments

The values of one line, in the order of the signature. A handler asks for each by its index and
the kind it expects; it gets the content, or a failure that says what the argument is instead.
-/

namespace TypedLine

/-- The arguments of a command. -/
abbrev Arguments := List Value

namespace Arguments

/-- The content of the argument at `index`, which must be of the kind `k`. -/
def fetch (args : Arguments) (k : Kind) (index : Nat) : Except Failure k.Carrier :=
  match args[index]? with
  | none => .error (.argumentAccess index k.name none)
  | some v =>
    match v.as? k with
    | some content => .ok content
    | none => .error (.argumentAccess index k.name (some v.kind.name))

end Arguments

end TypedLine
