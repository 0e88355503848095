import TypedLine.Arguments

/-!
# Commands

A command is a signature, the kinds of its arguments in order, together with a handler that turns
arguments into a reply. The reply has a text and a status; nothing here interprets the status
except `Reply.isSuccess`.

A command can be put together step by step as a **draft**, which becomes a command once it has a
handler.
-/

namespace TypedLine

/-- How a command went. -/
inductive Status where
  /-- It was carried out. -/
  | success
  /-- It could make no sense of its arguments. -/
  | unparseable
  /-- It could not be carried out. -/
  | fail
  /-- It was carried out, but not without reservation. -/
  | warning
  deriving DecidableEq, Repr

/-- The name of a status. -/
def Status.name : Status → String
  | .success => "success"
  | .unparseable => "unparseable"
  | .fail => "fail"
  | .warning => "warning"

/-- What a command answers. -/
structure Reply where
  /-- The text to show. -/
  text : String
  /-- How it went. -/
  status : Status
  deriving DecidableEq, Repr

/-- Whether the command was carried out, with or without reservation. -/
def Reply.isSuccess (r : Reply) : Bool :=
  r.status == .success || r.status == .warning

/-- What carries a command out. -/
abbrev Handler := Arguments → Reply

/-- A handler with the kinds of its arguments. -/
structure Command where
  /-- The kinds of the arguments, in order. -/
  signature : List Kind
  /-- What carries the command out. -/
  handler : Handler

namespace Command

/-- The number of arguments. -/
def arity (c : Command) : Nat :=
  c.signature.length

/-- A one-line summary for diagnostics; the handler is not shown. -/
def summary (c : Command) : String :=
  "Command \x7b signature: [" ++ ", ".intercalate (c.signature.map Kind.name) ++ "], .. \x7d"

end Command

/-- A command that is being put together. -/
structure Draft where
  /-- The kinds of the arguments so far. -/
  signature : List Kind := []
  /-- The handler, if one was given. -/
  handler : Option Handler := none

namespace Draft

/-- Add one argument. -/
def arg (d : Draft) (k : Kind) : Draft :=
  { d with signature := d.signature ++ [k] }

/-- Add several arguments. -/
def args (d : Draft) (ks : List Kind) : Draft :=
  { d with signature := d.signature ++ ks }

/-- Give the handler. -/
def withHandler (d : Draft) (h : Handler) : Draft :=
  { d with handler := some h }

/-- Finish the command, which must have a handler. -/
def build (d : Draft) : Except Failure Command :=
  match d.handler with
  | some h => .ok ⟨d.signature, h⟩
  | none => .error .missingHandler

end Draft

end TypedLine
