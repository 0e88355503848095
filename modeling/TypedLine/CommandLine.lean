import TypedLine.OptionParser.Standard
import TypedLine.Request

/-!
# The command line

What the words after the program's name may be, and the request that they make. The words are read
by an option parser, which is told of three subcommands (`declaration`):

* `run` takes the rest as the words of a line, from the first word that is no option of its own.
* `script` takes one path, with its options before or after it.
* `list` takes nothing.

The flag for debugging may be given before a subcommand and among its options. It is no part of the
request. All that it decides is from which level on the entries of the log are shown
(`CommandLine.leastLevel`); to show them is left to a logger.
-/

namespace TypedLine

/-- A request, and whether debugging was asked for. -/
structure CommandLine where
  /-- Whether debugging was asked for, at any level. -/
  debug : Bool
  /-- The request. -/
  request : Request
  deriving DecidableEq, Repr

namespace CommandLine

/-! ### What may be given -/

/-- The subcommand that runs one line. Its words may look like anything. -/
def runSubcommand : Subcommand where
  name := "run"
  positional := some
    { name := "words", isRequired := true, isTrailing := true, allowsHyphens := true }

/-- The subcommand that runs a script. -/
def scriptSubcommand : Subcommand where
  name := "script"
  options := [{ name := "keep-going" },
    { name := "comment-prefix", takesValue := true, default? := some "#" }]
  positional := some { name := "path", isRequired := true, mayBeEmpty := false }

/-- The subcommand that lists the commands. -/
def listSubcommand : Subcommand where
  name := "list"

/-- What the words after the program's name may be. -/
def declaration : Declaration where
  flags := ["debug"]
  subcommands := [runSubcommand, scriptSubcommand, listSubcommand]

/-! ### The request -/

/-- The request that is made by what is given to a subcommand. -/
def requestOf (name : String) (given : Matches) : Except Stop Request :=
  if name = "run" then .ok (.run (given "words"))
  else if name = "script" then
    match given "path", given "comment-prefix" with
    | [path], [commentPrefix] => .ok (.script path (given "keep-going" ≠ []) commentPrefix)
    | _, _ => .error .missingArgument
  else if name = "list" then .ok .list
  else .error .invalidSubcommand

/-- What is made of a subcommand and what is given to it. -/
def ofMatches (name : String) (given : Matches) : Except Stop CommandLine :=
  (requestOf name given).map fun request ↦ ⟨given "debug" ≠ [], request⟩

/-- The request that the words after the program's name make, as an option parser reads them. -/
def parse (p : OptionParser) (words : List String) : Except Stop CommandLine := do
  let (name, given) ← p.readProgram declaration .none words
  ofMatches name given

/-- The request that the words after the program's name make. -/
def ofWords (words : List String) : Except Stop CommandLine :=
  parse .standard words

/-! ### Carrying it out -/

/-- The level of the least serious entries of the log that are to be shown. -/
def leastLevel (l : CommandLine) : Level :=
  if l.debug then .debug else .info

/-- The configuration that the request is carried out under, if it holds. -/
def config (l : CommandLine) (storage : Storage) : Except Failure Config :=
  l.request.checkedConfig storage

/-- Do what the words ask for, with the commands registered at the beginning. Of the log, the
entries are left that are shown by a logger that is told of the least level. -/
def perform (l : CommandLine) (shows : (least level : Level) → Bool) (commands : List Attempt)
    (storage : Storage) : Execution :=
  let e : Execution :=
    match l.config storage with
    | .error e => .failed e.chain
    | .ok c => l.request.carryOut commands c storage
  { e with entries := e.entries.filter fun entry ↦ shows l.leastLevel entry.level }

end CommandLine

end TypedLine
