import Mathlib.Data.List.Nodup
import TypedLine.Builtin
import TypedLine.CommandLine
import TypedLine.Proofs.OptionParser.Standard

/-!
# The order of the options of a script

A path is given to `script`, and each of its options may be given once, the comment prefix in one of
two spellings. `allGiven` is one order of all that. In every other order the same is given, and the
request is the same, whatever option parser reads it: `parse_script_of_perm`.

Each rule of an option parser is about one thing that is given, so the words of one thing more are
read to one thing more that is given (`read_words_append`), and all that is given is known in the
end (`read_flatMap`). Two things of different names are given in either order (`Matches.add_comm`).
-/

namespace TypedLine

/-- Of two names the order in which they are given values does not matter. -/
theorem Matches.add_comm {given : Matches} {name other value value' : String} (h : name ≠ other) :
    (given.add name value).add other value' = (given.add other value').add name value := by
  funext third
  by_cases hname : third = name
  · subst hname
    simp [add, h]
  · by_cases hother : third = other
    · subst hother
      simp [add, hname]
    · simp [add, hname, hother]

/-! ### The configuration of a request -/

/-- The configuration of a script says what was asked for, where the script is a file and the
comment prefix is not blank. -/
theorem Request.checkedConfig_script_eq_ok_iff {storage : Storage} {config : Config}
    {path commentPrefix : String} {keepGoing : Bool} :
    (script path keepGoing commentPrefix).checkedConfig storage = .ok config ↔
      ((storage path).isFile = true ∧ Text.isBlank commentPrefix = false) ∧
        config = ⟨keepGoing, some path, commentPrefix⟩ := by
  have hvalid : Config.validate ⟨keepGoing, some path, commentPrefix⟩ storage = .ok () ↔
      (storage path).isFile = true ∧ Text.isBlank commentPrefix = false := by
    simp [Config.validate_eq_ok_iff]
  rw [← hvalid, checkedConfig, Request.config]
  rcases Config.validate ⟨keepGoing, some path, commentPrefix⟩ storage with e | -
  · exact ⟨nofun, fun h ↦ nomatch h.1⟩
  · exact ⟨fun h ↦ ⟨rfl, (Except.ok.inj h).symm⟩, fun h ↦ h.2 ▸ rfl⟩

namespace CommandLine

/-! ### What may be given -/

/-- How the comment prefix is written: behind its option, or in one word with it. -/
inductive Spelling where
  /-- Two words. -/
  | apart
  /-- One word, with an equals sign. -/
  | joined
  deriving DecidableEq, Repr

/-- What may be **given** to `script`, at most once each. -/
inductive Given where
  /-- The path of the script. -/
  | path (path : String)
  /-- The option to go on after a failure. -/
  | keepGoing
  /-- The option to debug. -/
  | debug
  /-- The comment prefix. -/
  | commentPrefix (spelling : Spelling) (value : String)
  deriving DecidableEq, Repr

namespace Given

/-- The words that it is given by. -/
def words : Given → List String
  | .path p => [p]
  | .keepGoing => ["--keep-going"]
  | .debug => ["--debug"]
  | .commentPrefix .apart value => ["--comment-prefix", value]
  | .commentPrefix .joined value => ["--comment-prefix=" ++ value]

/-- What it is that is given. -/
def name : Given → String
  | .path _ => "path"
  | .keepGoing => "keep-going"
  | .debug => "debug"
  | .commentPrefix _ _ => "comment-prefix"

/-- The value that is given. -/
def value : Given → String
  | .path p => p
  | .keepGoing | .debug => "true"
  | .commentPrefix _ value => value

/-- The texts that are given with it stand for themselves. -/
def Readable : Given → Prop
  | .path p => StandsForItself p
  | .commentPrefix _ value => StandsForItself value
  | .keepGoing | .debug => True

end Given

/-- What is given with one thing more. -/
def give (given : Matches) (g : Given) : Matches :=
  given.add g.name g.value

theorem ofString_joinedPrefix (value : String) :
    Word.ofString ("--comment-prefix=" ++ value) = .long "comment-prefix" (some value) := by
  refine Word.ofString_eq_long_iff.2 ⟨fun hdashes ↦ ?_, by decide, ?_⟩
  · cases String.toList_append.symm.trans (congrArg String.toList hdashes)
  · rw [String.toList_append]
    rfl

/-! ### Words -/

variable {p : OptionParser} {given : Matches} {g : Given} {gs gs' : List Given}

/-- The subcommand `script`, with the flag for debugging among its options. -/
def scriptWithFlags : Subcommand :=
  { scriptSubcommand with options := scriptSubcommand.options ++ [{ name := "debug" }] }

theorem subcommand?_script : declaration.subcommand? "script" = some scriptWithFlags := rfl

/-- **One thing more**: its words are read, and what is given then is that it is given, besides what
was given. -/
theorem read_words_append (hp : p.Lawful) (hg : g.Readable) (hfree : given g.name = [])
    (ws : List String) :
    p.readSubcommand scriptWithFlags .options given (g.words ++ ws) =
      p.readSubcommand scriptWithFlags .options (give given g) ws := by
  cases g with
  | path path =>
    exact hp.positional (a := { name := "path", isRequired := true, mayBeEmpty := false })
      rfl rfl hg hfree
  | keepGoing => exact hp.flag (o := { name := "keep-going" }) rfl rfl rfl hfree
  | debug => exact hp.flag (o := { name := "debug" }) rfl rfl rfl hfree
  | commentPrefix spelling value =>
    cases spelling with
    | apart =>
      exact hp.separate (o := { name := "comment-prefix", takesValue := true, default? := "#" })
        rfl rfl rfl hg hfree
    | joined =>
      exact hp.attached (o := { name := "comment-prefix", takesValue := true, default? := "#" })
        rfl rfl (ofString_joinedPrefix value) hfree

/-- **Things given one after the other**, none of them twice, are all read. -/
theorem read_flatMap (hp : p.Lawful) (hnames : (gs.map Given.name).Nodup)
    (hgs : ∀ g ∈ gs, g.Readable) (hfree : ∀ g ∈ gs, given g.name = []) :
    p.readSubcommand scriptWithFlags .options given (gs.flatMap Given.words) =
      p.readSubcommand scriptWithFlags .options (gs.foldl give given) [] := by
  -- What is still to come stays free to be given, since it has another name.
  induction gs generalizing given with
  | nil => rfl
  | cons g gs ih =>
    rw [List.map_cons, List.nodup_cons] at hnames
    obtain ⟨hg, hgs⟩ := List.forall_mem_cons.1 hgs
    obtain ⟨hfreeg, hfree⟩ := List.forall_mem_cons.1 hfree
    rw [List.flatMap_cons, read_words_append hp hg hfreeg, List.foldl_cons]
    refine ih hnames.2 hgs fun g' hg' ↦ ?_
    have hname : g'.name ≠ g.name := fun heq ↦ hnames.1 (heq ▸ List.mem_map_of_mem hg')
    rw [give, Matches.add_of_ne hname, hfree g' hg']

/-- What is given then does not depend on the order. -/
theorem foldl_give_of_perm (h : gs.Perm gs') (hnames : (gs.map Given.name).Nodup) :
    gs.foldl give given = gs'.foldl give given := by
  refine h.foldl_eq' (fun g hg g' hg' before ↦ ?_) given
  by_cases hname : g.name = g'.name
  · -- No name is given twice, so these are one thing.
    rw [List.inj_on_of_nodup_map hnames hg hg' hname]
  · exact Matches.add_comm hname

/-! ### The words of a script -/

/-- All that is given for a script, in one order. -/
def allGiven (path : String) (keepGoing debug : Bool) (spelling : Spelling)
    (commentPrefix : Option String) : List Given :=
  .path path :: ((if keepGoing then [.keepGoing] else []) ++ (if debug then [.debug] else []) ++
    (commentPrefix.map (.commentPrefix spelling)).toList)

variable {path : String} {keepGoing debug : Bool} {spelling : Spelling}
  {commentPrefix : Option String}

theorem nodup_map_name_allGiven :
    ((allGiven path keepGoing debug spelling commentPrefix).map Given.name).Nodup := by
  cases keepGoing <;> cases debug <;> cases commentPrefix <;> simp [allGiven, Given.name]

theorem readable_of_mem_allGiven (hpath : StandsForItself path)
    (hvalue : ∀ value ∈ commentPrefix, StandsForItself value) :
    ∀ g ∈ allGiven path keepGoing debug spelling commentPrefix, g.Readable := by
  cases keepGoing <;> cases debug <;> cases commentPrefix <;> simp_all [allGiven, Given.Readable]

/-- What comes of all that is given. -/
theorem ofMatches_allGiven :
    ofMatches "script" (scriptWithFlags.complete
        ((allGiven path keepGoing debug spelling commentPrefix).foldl give .none)) =
      .ok ⟨debug, .script path keepGoing (commentPrefix.getD "#")⟩ := by
  cases keepGoing <;> cases debug <;> cases commentPrefix <;> rfl

/-- **The options of a script may be given in any order**, before the path and behind it. Whichever
of them are given, and however the comment prefix is spelled, the words make the same request: it
has the path, goes on after a failure if that was given, and has the comment prefix that was given
or else the mark `#`. Where the script is a file and the prefix is not blank, these three make the
configuration that the request is carried out under.

This holds of every option parser that behaves as documented. -/
theorem parse_script_of_perm (hp : p.Lawful) (hpath : StandsForItself path)
    (hvalue : ∀ value ∈ commentPrefix, StandsForItself value)
    (hgs : gs.Perm (allGiven path keepGoing debug spelling commentPrefix)) :
    parse p ("script" :: gs.flatMap Given.words) =
        .ok ⟨debug, .script path keepGoing (commentPrefix.getD "#")⟩ ∧
      ∀ storage c, config ⟨debug, .script path keepGoing (commentPrefix.getD "#")⟩ storage = .ok c ↔
        ((storage path).isFile = true ∧ Text.isBlank (commentPrefix.getD "#") = false) ∧
          c = ⟨keepGoing, some path, commentPrefix.getD "#"⟩ := by
  have hnames : (gs.map Given.name).Nodup :=
    (hgs.map Given.name).nodup_iff.2 nodup_map_name_allGiven
  have hreadable : ∀ g ∈ gs, g.Readable :=
    fun g hg ↦ readable_of_mem_allGiven hpath hvalue g (hgs.subset hg)
  have hread : p.readSubcommand scriptWithFlags .options .none (gs.flatMap Given.words) =
      .ok (scriptWithFlags.complete
        ((allGiven path keepGoing debug spelling commentPrefix).foldl give .none)) := by
    rw [read_flatMap hp hnames hreadable fun _ _ ↦ rfl, foldl_give_of_perm hgs hnames]
    refine hp.ended fun a ha _ ↦ ?_
    obtain rfl := Option.some.inj ha
    -- The path is what is required, and it is given.
    cases keepGoing <;> cases debug <;> cases commentPrefix <;> exact List.cons_ne_nil path []
  refine ⟨?_, fun storage c ↦ Request.checkedConfig_script_eq_ok_iff⟩
  rw [parse, hp.subcommand rfl subcommand?_script, hread]
  show ofMatches "script" (declaration.inherit .none _) = _
  rw [Declaration.inherit_none, ofMatches_allGiven]

/-- The comment prefix comes first here, and it is a word that could name a subcommand; then comes
the path, which has a blank in it. -/
theorem parse_script_of_perm_scattered :
    OptionParser.standard.Lawful ∧ StandsForItself "a b" ∧
      (∀ value ∈ some "list", StandsForItself value) ∧
      [Given.commentPrefix .apart "list", .debug, .path "a b", .keepGoing].Perm
        (allGiven "a b" true true .apart (some "list")) ∧
      parse .standard ["script", "--comment-prefix", "list", "--debug", "a b", "--keep-going"] =
        .ok ⟨true, .script "a b" true "list"⟩ := by
  have hpath : StandsForItself "a b" := ⟨by decide, by decide⟩
  have hvalue : ∀ value ∈ some "list", StandsForItself value := by
    rintro _ ⟨⟩
    exact ⟨by decide, by decide⟩
  have hgs : [Given.commentPrefix .apart "list", .debug, .path "a b", .keepGoing].Perm
      (allGiven "a b" true true .apart (some "list")) := by decide
  exact ⟨OptionParser.standard_lawful, hpath, hvalue, hgs,
    (parse_script_of_perm OptionParser.standard_lawful hpath hvalue hgs).1⟩

end CommandLine

end TypedLine
