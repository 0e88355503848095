import TypedLine.Value

/-!
# The log

What the program says beside its output, entry by entry. Entries of the level `debug` tell of the
commands that are registered and run, and are shown only to those who ask for debugging. A read of a
number that is refused would leave an entry on a level below that. No setting shows those, and so
there are none here.

An entry may end with values. How values are written down there is left to the logger;
`LogEntry.line` is one way.
-/

namespace TypedLine

/-- How serious a log entry is. -/
inductive Level where
  | debug
  | info
  | warn
  | error
  deriving DecidableEq, Repr

/-- The name of a level. -/
def Level.name : Level → String
  | .debug => "DEBUG"
  | .info => "INFO"
  | .warn => "WARN"
  | .error => "ERROR"

/-- How serious entries of a level are, as a number. -/
def Level.rank : Level → Nat
  | .debug => 0
  | .info => 1
  | .warn => 2
  | .error => 3

/-- Whether a log with entries from the level `least` on shows those of `level`. -/
def Level.shows (least level : Level) : Bool :=
  least.rank ≤ level.rank

/-- A log entry. -/
structure LogEntry where
  /-- How serious it is. -/
  level : Level
  /-- What it says. -/
  message : String
  /-- The values that it ends with, if it ends with values. -/
  values : Option (List Value) := none

/-- The entry as a line. -/
def LogEntry.line (e : LogEntry) : String :=
  let values := match e.values with
    | none => ""
    | some vs =>
      " [" ++ ", ".intercalate (vs.map fun v ↦ v.kind.name ++ "(" ++ v.text ++ ")") ++ "]"
  e.level.name ++ " " ++ e.message ++ values

end TypedLine
