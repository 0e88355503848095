import TypedLine.Builtin
import TypedLine.Config
import TypedLine.Dispatch

/-!
# Execution

What a request does, as a value: the text that it prints, the entries that it leaves in the log, and
how it ends. A failed execution carries a **trace**, the messages from the outermost context down to
the first cause.

A script is run line by line. The lines that the configuration ignores are left out, and each of
the others is trimmed and run by itself; a line knows nothing of the lines before it. Either the
first line that fails ends the run, or each failure is logged and counted and the run goes on. Lines
are counted in 32 bits, and past these the counters wrap around.
-/

namespace TypedLine

/-- The messages of a failure, from the outermost context to the first cause. -/
abbrev Trace := List String

/-- What a request does. -/
structure Execution where
  /-- The printed text. -/
  output : String := ""
  /-- The log entries of all levels, in order. -/
  entries : List LogEntry := []
  /-- How it ends. -/
  result : Except Trace Unit := .ok ()

namespace Execution

/-- Only fail. -/
def failed (trace : Trace) : Execution :=
  { result := .error trace }

/-- Only print a line. -/
def printed (line : String) : Execution :=
  { output := line ++ "\n" }

/-- Only leave entries in the log. -/
def noted (entries : List LogEntry) : Execution :=
  { entries }

/-- Only log an entry. -/
def logged (level : Level) (message : String) : Execution :=
  noted [{ level, message }]

/-- Do one after the other, unless the first fails. -/
def andThen (first second : Execution) : Execution :=
  match first.result with
  | .ok () =>
    ⟨first.output ++ second.output, first.entries ++ second.entries, second.result⟩
  | .error _ => first

/-- Put a failure into a context. -/
def within (e : Execution) (context : String) : Execution :=
  { e with result := e.result.mapError (context :: ·) }

/-- Log a failure under a heading and go on without it. -/
def recovered (e : Execution) (heading : String) : Execution :=
  match e.result with
  | .ok () => e
  | .error trace =>
    let complaint : LogEntry :=
      { level := .error, message := heading ++ ": ".intercalate trace }
    ⟨e.output, e.entries ++ [complaint], .ok ()⟩

/-- The entries from the level `least` on. -/
def log (e : Execution) (least : Level := .info) : List LogEntry :=
  e.entries.filter fun entry ↦ least.shows entry.level

/-- Whether it fails. -/
def hasFailed (e : Execution) : Bool :=
  e.result matches .error _

/-- The code that a process ends with. -/
def exitCode (e : Execution) : Nat :=
  if e.hasFailed then 1 else 0

end Execution

/-- Show a reply. Only a reply that is a success, with or without reservation, is printed. -/
def Reply.report (r : Reply) : Execution :=
  match r.status with
  | .success => .printed r.text
  | .warning =>
    (Execution.logged .warn "Command finished with warnings").andThen (.printed r.text)
  | .fail | .unparseable => .failed ["Command " ++ r.status.name ++ ": " ++ r.text]

/-- What a script has counted, in 32 bits. -/
structure Tally where
  /-- The lines that were run. -/
  total : Int32 := 0
  /-- Those of them that failed. -/
  failures : Int32 := 0
  deriving DecidableEq, Repr

namespace Tally

/-- One more line is run. -/
def countLine (t : Tally) : Tally :=
  { t with total := t.total + 1 }

/-- One more line has failed. -/
def countFailure (t : Tally) : Tally :=
  { t with failures := t.failures + 1 }

/-- The end of a script that was run to its last line. -/
def conclusion (t : Tally) : Execution :=
  if 0 < t.failures then .failed [s!"{t.failures} of {t.total} commands failed"]
  else .logged .info s!"Script completed successfully. {t.total} commands run"

end Tally

/-- A command as it is listed: its name and the kinds of its arguments. -/
def usageLine (name : String) (signature : List Kind) : String :=
  " ".intercalate (name :: signature.map fun k ↦ "<" ++ k.name ++ ">")

namespace Registry

/-- Run one line and show its reply. -/
def execute (r : Registry) (line : String) : Execution :=
  let dispatched := r.dispatch line
  (Execution.noted dispatched.entries).andThen <|
    match dispatched.result with
    | .ok reply => reply.report
    | .error e => .failed (("Failed to run '" ++ line ++ "'") :: e.chain)

/-! ### Scripts -/

/-- Run one line of a script and go on with the rest. A failure ends the script, unless it is to
keep going. -/
def executeLine (r : Registry) (keepGoing : Bool) (number : Nat) (line : String) (t : Tally)
    (rest : Tally → Execution) : Execution :=
  let t := t.countLine
  let e := r.execute line
  match e.result with
  | .ok () => e.andThen (rest t)
  | .error _ =>
    if keepGoing then (e.recovered s!"Line {number}: ").andThen (rest t.countFailure)
    else e.within s!"Script stopped on line {number}"

/-- Run the lines of a script, `number` being the number of the first, but for those that are
ignored. -/
def executeLines (r : Registry) (c : Config) : (number : Nat) → List String → Tally → Execution
  | _, [], t => t.conclusion
  | number, line :: lines, t =>
    if c.ignores line then r.executeLines c (number + 1) lines t
    else r.executeLine c.keepGoing number (Text.trim line) t (r.executeLines c (number + 1) lines)

/-- Run the script `content` as the configuration says. -/
def executeScript (r : Registry) (c : Config) (content : String) : Execution :=
  r.executeLines c 1 (Text.physicalLines content) {}

/-- Read the script that the configuration names, and run it. -/
def executeConfigured (r : Registry) (c : Config) (storage : Storage) : Execution :=
  match c.scriptPath with
  | none => .failed ["No script file configured"]
  | some path =>
    (Execution.logged .info ("Running script: " ++ path)).andThen
      (match (storage path).read with
        | .error problem => .failed ["Failed to read script " ++ path, problem]
        | .ok content => r.executeScript c content)

/-! ### Listing -/

/-- List the command with the given name. -/
def executeUsage (r : Registry) (name : String) : Execution :=
  match r.signature? name with
  | some signature => .printed (usageLine name signature)
  | none => .failed ["Command " ++ name ++ " vanished from the registry"]

/-- List the commands under the given names in turn, up to the first that is not found. -/
def executeUsages (r : Registry) : List String → Execution
  | [] => {}
  | name :: names => (r.executeUsage name).andThen (r.executeUsages names)

/-- List the commands. -/
def executeListing (r : Registry) : Execution :=
  r.executeUsages r.names

end Registry

end TypedLine
