/-!
# Failures

Why a line was not run, a command not registered, or an argument not handed out. A failure holds
its causes as data; `Failure.message` is the one place where they are put into words. A failure
to read an argument has the failure of the read as its source, so failures form a chain.
-/

namespace TypedLine

/-- A reason why something was refused. Positions are byte offsets into the text. -/
inductive Failure where
  /-- The line holds nothing but whitespace. -/
  | emptyLine
  /-- No command has the name. -/
  | unknownCommand (name : String)
  /-- The command takes another number of arguments than the line has. -/
  | arityMismatch (name : String) (count expected : Nat)
  /-- The text has ended where a character was to be read. -/
  | endOfText (position : Nat)
  /-- Nothing stands where a value was expected. -/
  | missingValue (position : Nat) (expected : String)
  /-- What stands there is not a value of the expected kind. -/
  | wrongType (position : Nat) (expected token : String)
  /-- A backslash in a quoted text stands before a character that needs none. -/
  | invalidEscape (position : Nat) (found : Char)
  /-- A quoted text has no closing mark. -/
  | unterminatedQuote (position : Nat)
  /-- Another character stands where a certain one was required. -/
  | unexpectedChar (position : Nat) (expected : String) (found : Option Char)
  /-- An argument of a command could not be read. -/
  | argument (command : String) (index : Nat) (source : Failure)
  /-- A command was to be registered under a blank name. -/
  | invalidName (name : String)
  /-- A command is registered under the name already. -/
  | duplicateCommand (name : String)
  /-- A command was finished without a handler. -/
  | missingHandler
  /-- An argument was requested as another kind than it has, or there is no such argument. -/
  | argumentAccess (index : Nat) (expected : String) (found : Option String)
  /-- A cursor was to be moved past the text or into a character. -/
  | invalidPosition (position length : Nat)
  /-- The configuration cannot be used. -/
  | config (problem : String)
  deriving DecidableEq, Repr

namespace Failure

/-- What was found in the place of a required character. -/
def describeChar : Option Char → String
  | some c => s!"'{c}'"
  | none => "end of input"

/-- The failure in words, without its source. -/
def message : Failure → String
  | emptyLine => "Expected command name on position 0 but found nothing"
  | unknownCommand name => s!"Unknown command {name}"
  | arityMismatch name count expected =>
    s!"Unknown command {name} with {count} parameters (expected {expected})"
  | endOfText position =>
    s!"The string has ended on position {position} and no further read can perform"
  | missingValue position expected =>
    s!"Expected {expected} on position {position} but found nothing"
  | wrongType position expected token =>
    s!"Expected {expected} on position {position} but found '{token}'"
  | invalidEscape position found =>
    "Invalid escape '\\" ++ s!"{found}' on position {position}"
  | unterminatedQuote position =>
    s!"Expected end of quote on position {position} but found end of input"
  | unexpectedChar position expected found =>
    s!"Expected {expected} on position {position} but found " ++ describeChar found
  | argument command index _ => s!"Failed to read argument {index} of command {command}"
  | invalidName name => s!"Invalid command name '{name}': the name is empty"
  | duplicateCommand name => s!"Command {name} is already registered"
  | missingHandler => "Command has no handler"
  | argumentAccess index expected found =>
    s!"Argument {index} was requested as {expected} but is " ++ found.getD "missing"
  | invalidPosition position length =>
    s!"Position {position} is not a valid cursor position for text of length {length}"
  | config problem => s!"Configuration error: {problem}"

/-- Where in the text the failure arose, if it arose at a place. -/
def position? : Failure → Option Nat
  | emptyLine => some 0
  | endOfText position | missingValue position _ | wrongType position _ _
  | invalidEscape position _ | unterminatedQuote position | unexpectedChar position _ _ =>
    some position
  | argument _ _ source => source.position?
  | _ => none

/-- Whether another read may be tried at the same place. -/
def isRecoverable : Failure → Bool
  | missingValue .. | wrongType .. | unexpectedChar .. => true
  | argument _ _ source => source.isRecoverable
  | _ => false

/-- The failure that led to this one. -/
def source? : Failure → Option Failure
  | argument _ _ source => some source
  | _ => none

/-- The messages of the failure and of its sources, the outermost first. -/
def chain : Failure → List String
  | e@(argument _ _ source) => e.message :: source.chain
  | e => [e.message]

end Failure

end TypedLine
