import TypedLine.OptionParser

/-!
# An option parser

`OptionParser.standard` keeps the rules of an option parser and decides what they leave open. A
value is checked when the next word is taken, so an unknown word is noticed before a wrong value
that stands in front of it.
-/

namespace TypedLine.OptionParser

namespace Standard

/-- A word that was taken but not yet checked. -/
inductive Pending where
  /-- None. -/
  | none
  /-- An option, with its value still to come. -/
  | option (o : OptionSpec)
  /-- A value for `name`. -/
  | value (name : String) (mayBeEmpty : Bool) (text : String)

/-- What is known while the words of a subcommand are read. -/
structure Reader where
  /-- What is given. -/
  given : Matches
  /-- The word that is not yet checked. -/
  pending : Pending := .none

namespace Reader

/-- Check the word that was taken last. An option with a value needs one, and it is given once. -/
def settle (r : Reader) : Except Stop Reader :=
  match r.pending with
  | .none => .ok r
  | .option _ => .error .invalidValue
  | .value name mayBeEmpty text =>
    if text = "" ∧ mayBeEmpty = false then .error .invalidValue
    else if r.given name ≠ [] then .error .conflict
    else .ok { given := r.given.add name text }

/-- Whether a value for `name` was taken. -/
def has (r : Reader) (name : String) : Bool :=
  r.given name ≠ [] || match r.pending with
    | .value other _ _ => other == name
    | _ => false

/-- Take a word that is no option. -/
def takePositional (r : Reader) (s : Subcommand) (mode : Mode) (w : String) :
    Except Stop (Mode × Reader) :=
  match s.positional with
  | none => .error .unknownArgument
  | some a =>
    if a.isTrailing then
      r.settle.map fun r ↦ (.words, { r with given := r.given.add a.name w })
    else if r.has a.name then .error .unknownArgument
    else r.settle.map fun r ↦ (mode, { r with pending := .value a.name a.mayBeEmpty w })

/-- Take an option that is known. -/
def takeOption (r : Reader) (o : OptionSpec) : (value : Option String) → Except Stop Reader
  | none => do
    let r ← r.settle
    if o.takesValue then return { r with pending := .option o }
    else if r.given o.name ≠ [] then throw .conflict
    else return { r with given := r.given.add o.name "true" }
  | some value => do
    if o.takesValue then settle { ← r.settle with pending := .value o.name true value }
    else throw .tooManyValues

/-- Ask for help. -/
def askForHelp (r : Reader) : Except Stop (Mode × Reader) := do
  let _ ← r.settle
  throw .help

/-- Take a word with a minus sign that is no known option. -/
def takeUnknown (r : Reader) (s : Subcommand) (w : String) : Except Stop (Mode × Reader) :=
  if s.positional.any (·.allowsHyphens) then r.takePositional s .options w
  else .error .unknownArgument

/-- Take a word where options are told from other words. -/
def take (r : Reader) (s : Subcommand) (w : String) : Except Stop (Mode × Reader) :=
  match Word.ofString w with
  | .dashes => .ok (.words, r)
  | .long name value =>
    match s.option? name with
    | some o => (r.takeOption o value).map (.options, ·)
    | none =>
      if !asksForHelp w then r.takeUnknown s w
      else if value.isSome then .error .tooManyValues
      else r.askForHelp
  | .letters first _ =>
    if asksForHelp w then r.askForHelp
    else if s.positional.any (·.allowsHyphens) then r.takePositional s .options w
    else if first = 'h' then r.askForHelp
    else .error .unknownArgument
  | .plain =>
    match r.pending with
    | .option o => .ok (.options, { r with pending := .value o.name true w })
    | _ => r.takePositional s .options w

/-- What is given in the end. What is required must be given. -/
def finish (r : Reader) (s : Subcommand) : Except Stop Matches :=
  if s.positional.any fun a ↦ a.isRequired && r.given a.name == [] then .error .missingArgument
  else .ok (s.complete r.given)

/-- Take all words. -/
def read (s : Subcommand) : Mode → Reader → List String → Except Stop Matches
  | _, r, [] => do (← r.settle).finish s
  | .options, r, w :: ws => do
    let (mode, r) ← r.take s w
    read s mode r ws
  | .words, r, w :: ws => do
    let (mode, r) ← r.takePositional s .words w
    read s mode r ws

end Reader

/-- The names of the subcommands. Help may be asked for as if it were one. -/
def names (d : Declaration) : List String :=
  "help" :: d.subcommands.map (·.name)

/-- Help on a subcommand, or on the program: no word may follow the subcommand. -/
def helpOn (d : Declaration) : List String → Stop
  | [] => .help
  | [name] => if name ∈ names d then .help else .invalidSubcommand
  | _ => .invalidSubcommand

/-- Why no request is made of too few words. -/
def tooFew (d : Declaration) (given : Matches) : Stop :=
  if d.flags.any (given · ≠ []) then .missingSubcommand else .nothingGiven

/-- Why no request is made of the words after `--`, where a subcommand is still to be named: it
cannot be named there. -/
def afterDashes (d : Declaration) (given : Matches) : List String → Stop
  | [] => tooFew d given
  | name :: _ => if name ∈ names d then .unknownArgument else .invalidSubcommand

/-- Read the words of a program. -/
def readProgram (d : Declaration) (given : Matches) :
    List String → Except Stop (String × Matches)
  | [] => .error (tooFew d given)
  | w :: ws =>
    match Word.ofString w with
    | .dashes => .error (afterDashes d given ws)
    | .long name none =>
      if name ∈ d.flags then
        if given name ≠ [] then .error .conflict
        else readProgram d (given.add name "true") ws
      else if name = "help" then .error .help
      else if name = "version" then .error .version
      else .error .unknownArgument
    | .long name (some _) =>
      if name ∈ "help" :: "version" :: d.flags then .error .tooManyValues
      else .error .unknownArgument
    | .letters 'h' _ => .error .help
    | .letters 'V' _ => .error .version
    | .letters .. => .error .unknownArgument
    | .plain =>
      match d.subcommand? w with
      | some s =>
        (Reader.read s .options { given := .none } ws).map fun m ↦ (w, d.inherit given m)
      | none => .error (if w = "help" then helpOn d ws else .invalidSubcommand)

end Standard

/-- An option parser that keeps the rules. -/
def standard : OptionParser where
  readSubcommand s mode given := Standard.Reader.read s mode { given }
  readProgram := Standard.readProgram

end TypedLine.OptionParser
