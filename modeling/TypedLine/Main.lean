import TypedLine.CommandLine

/-!
# The program

Reads the words of the command line, looks up the script that they name, and shows what the
request does: its output goes to the standard output, its log and a failure to the standard error.
-/

namespace TypedLine

/-- How the program is called. -/
def usage : String :=
  "Usage:\n" ++
  "  [--debug] run <word>...\n" ++
  "  [--debug] script [--keep-going] [--comment-prefix <text>] <path>\n" ++
  "  [--debug] list\n" ++
  "  help [run | script | list]\n" ++
  "  --version\n"

/-- The version of the program. -/
def version : String := "0.1.0"

/-- What is wrong with the words of the command line. -/
def Stop.message : Stop → String
  | help | nothingGiven => usage
  | version => TypedLine.version ++ "\n"
  | missingSubcommand => "error: a subcommand is required\n" ++ usage
  | invalidSubcommand => "error: no such subcommand\n" ++ usage
  | unknownArgument => "error: unexpected argument\n" ++ usage
  | conflict => "error: an option is given twice\n" ++ usage
  | tooManyValues => "error: an option takes no value\n" ++ usage
  | missingArgument => "error: a required argument is missing\n" ++ usage
  | invalidValue => "error: a value is required\n" ++ usage

/-- A failure and what led to it. -/
def traceText : Trace → String
  | [] => ""
  | [message] => s!"Error: {message}\n"
  | [message, cause] => s!"Error: {message}\n\nCaused by:\n    {cause}\n"
  | message :: causes =>
    s!"Error: {message}\n\nCaused by:\n" ++
      String.join (causes.zipIdx.map fun (cause, n) ↦ s!"    {n}: {cause}\n")

/-- What a path leads to in the file system. -/
def readNode (path : String) : IO Node := do
  try
    return .ofBytes (← IO.FS.readBinFile path)
  catch e =>
    match e with
    | .inappropriateType _ code _ =>
      return if code = 21 then .directory else .throughFile
    | _ => return .missing

/-- Carry the request out and show what it does; the result is the exit code. -/
def perform (l : CommandLine) : IO UInt32 := do
  let node ← match l.request.config.scriptPath with
    | some path => readNode path
    | none => pure .missing
  let e := l.perform Level.shows Builtin.commands fun _ ↦ node
  for entry in e.entries do
    IO.eprintln entry.line
  IO.print e.output
  if let .error trace := e.result then
    IO.eprint (traceText trace)
  return e.exitCode.toUInt32

end TypedLine

/-- Run the program on its arguments. -/
def main (words : List String) : IO UInt32 := do
  match TypedLine.CommandLine.ofWords words with
  | .ok l => TypedLine.perform l
  | .error stop =>
    if stop.exitCode = 0 then IO.print stop.message else IO.eprint stop.message
    return stop.exitCode.toUInt32
