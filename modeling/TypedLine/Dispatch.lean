import TypedLine.Cursor.Read
import TypedLine.Registry
import TypedLine.Text.Line

/-!
# Dispatch

A line is **resolved** against a registry into an invocation: a command of the registry and the
arguments that the line supplies. Running the line is running the invocation. Resolving goes in
four steps, and the first that fails decides the failure: the line must not be blank; the bare
string at its start must name a command; the number of arguments must be the arity; and each
argument must read as a value of its kind.

What a line does is the calls of handlers that it makes, at most one of them (`Registry.dispatch`);
what it comes to is the reply of that call.

Arguments are counted before they are read, and without regard to quote marks: they are the parts
of the line between spaces, one part that is the name not counted. So a quoted argument with a
space inside counts twice. Reading skips whitespace before each argument and looks at nothing
after the last one.
-/

namespace TypedLine

/-- A command with the arguments to run it on. -/
structure Invocation where
  /-- The name, as it stands in the line. -/
  name : String
  /-- The command. -/
  command : Command
  /-- The arguments, one of each kind of the signature. -/
  arguments : Arguments

/-- Run the command on its arguments. -/
def Invocation.run (i : Invocation) : Reply :=
  i.command.handler i.arguments

/-- What is said of the invocation before the command is run. -/
def Invocation.announcement (i : Invocation) : LogEntry :=
  ⟨.debug, "Running " ++ i.name ++ " with", some i.arguments⟩

/-- What running a line does, and what it comes to. -/
structure Dispatched where
  /-- What is said. -/
  entries : List LogEntry
  /-- The calls of handlers that are made, in order. -/
  calls : List Invocation
  /-- The reply, or why there is none. -/
  result : Except Failure Reply

/-- The number of parts of `line` between spaces, one part that is `name` not counted. -/
def argumentCount (line name : List Char) : Nat :=
  ((Text.pieces ' ' line).erase name).length

/-- Read one value of each kind, with whitespace before each. A failure names the command and the
index of the argument, which counts from `index`. -/
def Cursor.readArguments (name : String) :
    (ks : List Kind) → (index : Nat) → Cursor → Reading Arguments
  | [], _, c => ⟨.ok [], c⟩
  | k :: ks, index, c =>
    let first := c.skipSpace.readValue k
    match first.outcome with
    | .error e => ⟨.error (.argument name index e), first.cursor⟩
    | .ok v => (readArguments name ks (index + 1) first.cursor).map (v :: ·)

namespace Registry

/-- The invocation that `line` calls for. -/
def resolve (r : Registry) (line : String) : Except Failure Invocation :=
  if Text.isBlank line then .error .emptyLine
  else
    let word := (Cursor.ofString line).run isBareChar
    let name := String.ofList word
    match r.find? name with
    | none => .error (.unknownCommand name)
    | some command =>
      let count := argumentCount line.toList word
      if count = command.arity then
        let rest := (Cursor.ofString line).skipWhile isBareChar
        (rest.readArguments name command.signature 0).outcome.map (⟨name, command, ·⟩)
      else .error (.arityMismatch name count command.arity)

/-- Run the command that `line` calls for. -/
def dispatch (r : Registry) (line : String) : Dispatched :=
  match r.resolve line with
  | .ok call => ⟨[call.announcement], [call], .ok call.run⟩
  | .error e => ⟨[], [], .error e⟩

/-- What running `line` comes to. -/
def run (r : Registry) (line : String) : Except Failure Reply :=
  (r.dispatch line).result

/-- The calls of handlers that running `line` makes, in order. -/
def calls (r : Registry) (line : String) : List Invocation :=
  (r.dispatch line).calls

end Registry

end TypedLine
