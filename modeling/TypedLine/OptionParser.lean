/-!
# Option parsers

The words after the program's name are read by an option parser that is told what may stand there
(`Declaration`). The parser is not written here. What is known of it are the rules that its
documentation gives for the forms of words and for the kinds of arguments (`OptionParser.Lawful`),
one rule for each, and only for words that are in order. Which error is reported of several that
are made, how messages and help are written, and what is done with words that no rule is about is
left to the parser. One parser that keeps the rules is `OptionParser.standard`.

The rules go from left to right: a word that is read is given, and the parser goes on with what is
given and the words behind it. A subcommand reads the words behind its name by itself.
-/

namespace TypedLine

/-- Why the words make no request. -/
inductive Stop where
  /-- Help was asked for. -/
  | help
  /-- The version was asked for. -/
  | version
  /-- There are no words at all. -/
  | nothingGiven
  /-- There are options but no subcommand. -/
  | missingSubcommand
  /-- No subcommand has the name. -/
  | invalidSubcommand
  /-- An option is not known, or a word is one too many. -/
  | unknownArgument
  /-- An option is given twice. -/
  | conflict
  /-- An option that takes no value is given one. -/
  | tooManyValues
  /-- A required word is not there. -/
  | missingArgument
  /-- A value is missing, or empty where it must not be. -/
  | invalidValue
  deriving DecidableEq, Repr

/-- The code that a process ends with: asking for help or for the version is no error. -/
def Stop.exitCode : Stop → Nat
  | help | version => 0
  | _ => 2

/-! ### Words -/

/-- A word of the command line, by its form. -/
inductive Word where
  /-- The word `--`. -/
  | dashes
  /-- An option with a long name, and the value after an equals sign. -/
  | long (name : String) (value : Option String)
  /-- One minus sign and at least one letter. -/
  | letters (first : Char) (others : List Char)
  /-- Anything else. -/
  | plain
  deriving DecidableEq, Repr

/-- The form of a word. -/
def Word.ofString (s : String) : Word :=
  match s.toList with
  | ['-', '-'] => .dashes
  | '-' :: '-' :: cs =>
    let name := String.ofList (cs.takeWhile (· ≠ '='))
    match cs.dropWhile (· ≠ '=') with
    | [] => .long name none
    | _ :: value => .long name (some (String.ofList value))
  | '-' :: c :: cs => .letters c cs
  | _ => .plain

/-- Whether the word asks for help. There is a letter for it, too, and it may be repeated. -/
def asksForHelp (word : String) : Bool :=
  match Word.ofString word with
  | .long name _ => name == "help"
  | .letters first others => (first :: others).all (· == 'h')
  | _ => false

/-- A word that **stands for itself**: it is not empty, and no minus sign makes it an option. -/
def StandsForItself (w : String) : Prop :=
  w ≠ "" ∧ w.toList.head? ≠ some '-'

/-! ### What may be given -/

/-- An option, told by its name behind two minus signs. -/
structure OptionSpec where
  /-- The name. -/
  name : String
  /-- Whether a value goes with it. An option without one is a **flag**. -/
  takesValue : Bool := false
  /-- The value that it has if it is not given. -/
  default? : Option String := none

/-- What is told by its place, without a name being written. -/
structure Positional where
  /-- The name. -/
  name : String
  /-- Whether it must be given. -/
  isRequired : Bool := false
  /-- Whether an empty word is a value of it. -/
  mayBeEmpty : Bool := true
  /-- Whether every word from its first value on is a value of it. -/
  isTrailing : Bool := false
  /-- Whether a value may look like an option. -/
  allowsHyphens : Bool := false

/-- A subcommand. -/
structure Subcommand where
  /-- The name. -/
  name : String
  /-- The options. -/
  options : List OptionSpec := []
  /-- What is told by its place. -/
  positional : Option Positional := none

/-- What the words of a program may be. -/
structure Declaration where
  /-- The flags of the program, which may be given before the subcommand and among its options. -/
  flags : List String
  /-- The subcommands. -/
  subcommands : List Subcommand

/-- The values that are given for each name, in order. -/
abbrev Matches := String → List String

/-- Nothing is given. -/
def Matches.none : Matches := fun _ ↦ []

/-- One more value is given for `name`. -/
def Matches.add (given : Matches) (name value : String) : Matches :=
  fun other ↦ if other = name then given name ++ [value] else given other

namespace Subcommand

/-- The option of that name. -/
def option? (s : Subcommand) (name : String) : Option OptionSpec :=
  s.options.find? (·.name == name)

/-- Whether the word is written as an option that the subcommand knows. -/
def knows (s : Subcommand) (word : String) : Bool :=
  match Word.ofString word with
  | .dashes => true
  | .long name _ => (s.option? name).isSome || asksForHelp word
  | _ => asksForHelp word

/-- What is given, and the values of the options that are not. -/
def complete (s : Subcommand) (given : Matches) : Matches := fun name ↦
  if given name = [] then ((s.option? name).bind (·.default?)).toList else given name

end Subcommand

namespace Declaration

/-- The subcommand of that name, with the flags of the program among its options. -/
def subcommand? (d : Declaration) (name : String) : Option Subcommand :=
  (d.subcommands.find? (·.name == name)).map fun s ↦
    { s with options := s.options ++ d.flags.map ({ name := · }) }

/-- What is given to a subcommand, and the flags that were given before it. -/
def inherit (d : Declaration) (before given : Matches) : Matches := fun name ↦
  if given name = [] ∧ name ∈ d.flags then before name else given name

/-- Where no flag was given before a subcommand, only what is given to it is given. -/
theorem inherit_none (d : Declaration) (given : Matches) :
    d.inherit .none given = given := by
  funext name
  rw [inherit]
  split
  · rename_i h
    exact h.1.symm
  · rfl

end Declaration

/-! ### The parser -/

/-- How words are taken. -/
inductive Mode where
  /-- Options are told from other words. -/
  | options
  /-- Every word is a value. -/
  | words
  deriving DecidableEq, Repr

/-- An **option parser**. -/
structure OptionParser where
  /-- Read the words of a subcommand, some of which have been read: what they give. -/
  readSubcommand : Subcommand → Mode → (given : Matches) → List String → Except Stop Matches
  /-- Read the words of a program, some of which have been read: the subcommand, and what is given
  to it. -/
  readProgram : Declaration → (given : Matches) → List String → Except Stop (String × Matches)

/-- **The documented behaviour** of an option parser. -/
structure OptionParser.Lawful (p : OptionParser) : Prop where
  /-- A flag is given by its name. -/
  flag {s : Subcommand} {o : OptionSpec} {given : Matches} {w : String} {ws : List String} :
    s.option? o.name = some o → o.takesValue = false → Word.ofString w = .long o.name none →
      given o.name = [] →
        p.readSubcommand s .options given (w :: ws) =
          p.readSubcommand s .options (given.add o.name "true") ws
  /-- A flag takes no value. -/
  flag_value {s : Subcommand} {o : OptionSpec} {given m : Matches} {w value : String}
    {ws : List String} :
    s.option? o.name = some o → o.takesValue = false → Word.ofString w = .long o.name (some value) →
      p.readSubcommand s .options given (w :: ws) ≠ .ok m
  /-- A value may stand in one word with the name of its option, behind an equals sign. -/
  attached {s : Subcommand} {o : OptionSpec} {given : Matches} {w value : String}
    {ws : List String} :
    s.option? o.name = some o → o.takesValue = true → Word.ofString w = .long o.name (some value) →
      given o.name = [] →
        p.readSubcommand s .options given (w :: ws) =
          p.readSubcommand s .options (given.add o.name value) ws
  /-- A value may be the word behind the name of its option. -/
  separate {s : Subcommand} {o : OptionSpec} {given : Matches} {w value : String}
    {ws : List String} :
    s.option? o.name = some o → o.takesValue = true → Word.ofString w = .long o.name none →
      StandsForItself value → given o.name = [] →
        p.readSubcommand s .options given (w :: value :: ws) =
          p.readSubcommand s .options (given.add o.name value) ws
  /-- A request for help is answered, and nothing else is done. -/
  help {s : Subcommand} {given m : Matches} {w : String} {ws : List String} :
    s.option? "help" = none → asksForHelp w = true →
      p.readSubcommand s .options given (w :: ws) ≠ .ok m
  /-- A word that is no option is the value of what is told by its place. -/
  positional {s : Subcommand} {a : Positional} {given : Matches} {w : String} {ws : List String} :
    s.positional = some a → a.isTrailing = false → StandsForItself w → given a.name = [] →
      p.readSubcommand s .options given (w :: ws) =
        p.readSubcommand s .options (given.add a.name w) ws
  /-- Known options take precedence over values that look like options. With any other word a
  trailing argument begins. -/
  trailing {s : Subcommand} {a : Positional} {given : Matches} {w : String} {ws : List String} :
    s.positional = some a → a.isTrailing = true → a.allowsHyphens = true → s.knows w = false →
      p.readSubcommand s .options given (w :: ws) = p.readSubcommand s .words given (w :: ws)
  /-- Behind `--` every word is a value. -/
  dashes {s : Subcommand} {given : Matches} {ws : List String} :
    p.readSubcommand s .options given ("--" :: ws) = p.readSubcommand s .words given ws
  /-- A trailing argument takes one word after the other. -/
  word {s : Subcommand} {a : Positional} {given : Matches} {w : String} {ws : List String} :
    s.positional = some a → a.isTrailing = true →
      p.readSubcommand s .words given (w :: ws) =
        p.readSubcommand s .words (given.add a.name w) ws
  /-- At the end of the words the options that are not given have their default values. -/
  ended {s : Subcommand} {mode : Mode} {given : Matches} :
    (∀ a ∈ s.positional, a.isRequired = true → given a.name ≠ []) →
      p.readSubcommand s mode given [] = .ok (s.complete given)
  /-- What is required must be given by then. -/
  missing {s : Subcommand} {a : Positional} {mode : Mode} {given m : Matches} :
    s.positional = some a → a.isRequired = true → given a.name = [] →
      p.readSubcommand s mode given [] ≠ .ok m
  /-- What is given remains given. -/
  keeps {s : Subcommand} {mode : Mode} {given m : Matches} {ws : List String} {name : String} :
    p.readSubcommand s mode given ws = .ok m → given name ≠ [] → m name ≠ []
  /-- Before the subcommand a flag of the program is given by its name, too. -/
  program_flag {d : Declaration} {name : String} {given : Matches} {w : String}
    {ws : List String} :
    name ∈ d.flags → Word.ofString w = .long name none → given name = [] →
      p.readProgram d given (w :: ws) = p.readProgram d (given.add name "true") ws
  /-- A subcommand reads the words behind its name by itself. A flag of the program that is given at
  either place is given. -/
  subcommand {d : Declaration} {s : Subcommand} {given : Matches} {w : String}
    {ws : List String} :
    Word.ofString w = .plain → d.subcommand? w = some s →
      p.readProgram d given (w :: ws) =
        (p.readSubcommand s .options .none ws).map fun m ↦ (w, d.inherit given m)

end TypedLine
