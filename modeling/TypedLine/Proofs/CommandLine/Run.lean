import TypedLine.Builtin
import TypedLine.CommandLine
import TypedLine.Proofs.OptionParser.Standard

/-!
# The words of a line

`run` passes the words behind it on as they are, whatever option parser reads them. What it does not
pass on are the options that may stand before the first word of the line, and one `--`. So behind
`--` every word is passed on, and without it the words are passed on exactly when the first of them
is no such option: `parse_run_iff`. What the later words look like does not matter.

An option is told by its form. It may come with a value, as in `--debug=x`, and its letter may be
repeated, as in `-hh`: such words are refused or ask for help, and are no words of a line either.
-/

namespace TypedLine

/-! ### Trailing words -/

/-- More values are given for `name`. -/
def Matches.addAll (given : Matches) (name : String) (values : List String) : Matches :=
  fun other ↦ if other = name then given name ++ values else given other

/-- **A trailing argument takes all the words** that are left, whatever they look like. -/
theorem OptionParser.Lawful.read_words {p : OptionParser} (hp : p.Lawful) {s : Subcommand}
    {a : Positional} (ha : s.positional = some a) (htrailing : a.isTrailing = true)
    (given : Matches) (ws : List String) :
    p.readSubcommand s .words given ws =
      p.readSubcommand s .words (given.addAll a.name ws) [] := by
  induction ws generalizing given with
  | nil =>
    have hnothing : given.addAll a.name [] = given := by
      funext other
      simp +contextual [Matches.addAll]
    rw [hnothing]
  | cons w ws ih =>
    have hfirst : (given.add a.name w).addAll a.name ws = given.addAll a.name (w :: ws) := by
      funext other
      by_cases hname : other = a.name
      · simp [Matches.addAll, Matches.add, hname]
      · simp [Matches.addAll, Matches.add, hname]
    rw [hp.word ha htrailing, ih, hfirst]

namespace CommandLine

/-- The words that `run` takes as its own where the line has not begun. -/
inductive RunOption : String → Prop
  /-- The mark behind which everything is a word. -/
  | dashes : RunOption "--"
  /-- An option, alone or with a value, which it does not take. -/
  | long {w name : String} {value : Option String} : name = "debug" ∨ name = "help" →
    w.toList = '-' :: '-' :: (name.toList ++ Word.valueText value) → RunOption w
  /-- The letter that asks for help, any number of times. -/
  | letters {w : String} {others : List Char} : w.toList = '-' :: 'h' :: others →
    (∀ ch ∈ others, ch = 'h') → RunOption w

variable {p : OptionParser} {w : String} {ws line : List String}

/-! ### The subcommand `run` -/

/-- The subcommand `run`, with the flag for debugging among its options. -/
def runWithFlags : Subcommand :=
  { runSubcommand with options := [{ name := "debug" }] }

theorem subcommand?_run : declaration.subcommand? "run" = some runWithFlags := rfl

theorem isSome_option?_iff {name : String} :
    (runWithFlags.option? name).isSome = true ↔ name = "debug" := by
  simp only [Subcommand.option?, runWithFlags, List.find?_isSome, List.mem_singleton,
    exists_eq_left, beq_iff_eq]
  exact eq_comm

/-- The options of `run` are those that it knows. -/
theorem runOption_iff : RunOption w ↔ runWithFlags.knows w = true := by
  refine ⟨fun h ↦ ?_, fun h ↦ ?_⟩
  · cases h with
    | dashes => rfl
    | @long _ name value hname hw =>
      have hform : Word.ofString w = .long name value := by
        refine Word.ofString_eq_long_iff.2 ⟨?_, ?_, hw⟩
        · rintro rfl
          rcases hname with rfl | rfl <;> cases hw
        · rcases hname with rfl | rfl <;> decide
      rw [Subcommand.knows, asksForHelp, hform]
      rcases hname with rfl | rfl <;> rfl
    | @letters _ others hw hall =>
      have hform : Word.ofString w = .letters 'h' others :=
        Word.ofString_eq_letters_iff.2 ⟨hw, by decide⟩
      rw [Subcommand.knows, asksForHelp, hform]
      simpa using hall
  · rw [Subcommand.knows, asksForHelp] at h
    rcases hform : Word.ofString w with - | ⟨name, value⟩ | ⟨first, others⟩ | -
    · exact Word.ofString_eq_dashes_iff.1 hform ▸ .dashes
    · rw [hform] at h
      have hname : name = "debug" ∨ name = "help" := by
        simpa [isSome_option?_iff] using h
      exact .long hname (Word.ofString_eq_long_iff.1 hform).2.2
    · rw [hform] at h
      obtain ⟨rfl, hall⟩ : first = 'h' ∧ ∀ ch ∈ others, ch = 'h' := by simpa using h
      exact .letters (Word.ofString_eq_letters_iff.1 hform).1 hall
    · rw [hform] at h
      cases h

/-- What `run` makes of what is given to it. -/
theorem parse_run_eq (hp : p.Lawful) (ws : List String) :
    parse p ("run" :: ws) = (p.readSubcommand runWithFlags .options .none ws).map fun m ↦
      ⟨m "debug" ≠ [], .run (m "words")⟩ := by
  rw [parse, hp.subcommand rfl subcommand?_run]
  simp only [Declaration.inherit_none]
  rcases p.readSubcommand runWithFlags .options .none ws with stop | m
  · rfl
  · rfl

/-- Words that are taken as they are make the line. -/
theorem readSubcommand_words (hp : p.Lawful) (hws : ws ≠ []) :
    p.readSubcommand runWithFlags .words .none ws =
      .ok (runWithFlags.complete (Matches.none.addAll "words" ws)) := by
  rw [hp.read_words rfl rfl]
  refine hp.ended fun a ha _ ↦ ?_
  obtain rfl := Option.some.inj ha
  exact hws

/-- The words of the line are all that is given then. -/
theorem parse_run_of_words (hp : p.Lawful) (hws : ws ≠ [])
    (h : p.readSubcommand runWithFlags .options .none line =
      p.readSubcommand runWithFlags .words .none ws) :
    parse p ("run" :: line) = .ok ⟨false, .run ws⟩ := by
  rw [parse_run_eq hp, h, readSubcommand_words hp hws]
  simp [Except.map, Subcommand.complete, Matches.addAll, Matches.none, Subcommand.option?,
    runWithFlags, hws]

/-- What `run` is given when a line is made of its words. -/
theorem exists_of_parse_run {debug : Bool} (hp : p.Lawful)
    (h : parse p ("run" :: ws) = .ok ⟨debug, .run line⟩) :
    ∃ m, p.readSubcommand runWithFlags .options .none ws = .ok m ∧
      (debug = false → m "debug" = []) ∧ line = m "words" := by
  rw [parse_run_eq hp] at h
  rcases hread : p.readSubcommand runWithFlags .options .none ws with stop | m
  · rw [hread] at h
    cases h
  · rw [hread] at h
    cases h
    exact ⟨m, rfl, fun hdebug ↦ by simpa using hdebug, rfl⟩

/-- **An option is no word of the line.** -/
theorem RunOption.parse_run_ne (hp : p.Lawful) (h : RunOption w) (ws : List String) :
    parse p ("run" :: w :: ws) ≠ .ok ⟨false, .run (w :: ws)⟩ := by
  intro hparse
  obtain ⟨m, hread, hdebug, hline⟩ := exists_of_parse_run hp hparse
  rw [runOption_iff, Subcommand.knows] at h
  rcases hform : Word.ofString w with - | ⟨name, value⟩ | ⟨first, others⟩ | -
  · obtain rfl := Word.ofString_eq_dashes_iff.1 hform
    rw [hp.dashes] at hread
    -- Behind the mark are only the words that follow it.
    rcases ws with - | ⟨v, ws⟩
    · exact hp.missing rfl rfl rfl hread
    · rw [readSubcommand_words hp (List.cons_ne_nil v ws)] at hread
      obtain rfl := Except.ok.inj hread
      simp [Subcommand.complete, Matches.addAll, Matches.none] at hline
  · by_cases hhelp : asksForHelp w = true
    · exact hp.help rfl hhelp hread
    · have hname : name = "debug" := by
        simpa [hform, hhelp, isSome_option?_iff] using h
      subst hname
      cases value with
      | none =>
        rw [hp.flag (o := { name := "debug" }) rfl rfl hform rfl] at hread
        exact hp.keeps hread (by simp [Matches.add]) (hdebug rfl)
      | some value => exact hp.flag_value (o := { name := "debug" }) rfl rfl hform hread
  · rw [hform] at h
    exact hp.help rfl h hread
  · rw [hform, asksForHelp, hform] at h
    cases h

/-! ### The whole line -/

/-- Without settings of its own a request is always carried out. -/
theorem validate_default (storage : Storage) : Config.validate {} storage = .ok () :=
  Config.validate_eq_ok_iff.2 ⟨nofun, by decide⟩

/-- **The words of a line are passed on as they are.** Behind `--` this holds of any words, and
without it exactly when the first word is no option of `run`. What is done is to run the line that
the words make with single spaces between them. -/
theorem parse_run_iff (hp : p.Lawful) :
    (ws ≠ [] → parse p ("run" :: "--" :: ws) = .ok ⟨false, .run ws⟩) ∧
    (parse p ("run" :: w :: ws) = .ok ⟨false, .run (w :: ws)⟩ ↔ ¬ RunOption w) ∧
    ∀ (r : Registry) (storage : Storage),
      (Request.run ws).perform r storage = .ok (r.execute (" ".intercalate ws)) := by
  refine ⟨fun hws ↦ ?_, ⟨fun h hw ↦ hw.parse_run_ne hp ws h, fun hw ↦ ?_⟩, fun r storage ↦ ?_⟩
  · exact parse_run_of_words hp hws hp.dashes
  · have hknows : runWithFlags.knows w = false := by
      rw [← Bool.not_eq_true, ← runOption_iff]
      exact hw
    exact parse_run_of_words hp (List.cons_ne_nil w ws) (hp.trailing rfl rfl rfl hknows)
  · have hvalid : (Request.run ws).config.validate storage = .ok () := validate_default storage
    rw [Request.perform, Request.checkedConfig, hvalid]
    rfl

/-- Behind the first word an option is a word like any other, and so is an empty word. -/
theorem parse_run_iff_options :
    OptionParser.standard.Lawful ∧ ¬ RunOption "-hx" ∧
      parse .standard ["run", "-hx", "--debug", "--", "", "--help=x"] =
        .ok ⟨false, .run ["-hx", "--debug", "--", "", "--help=x"]⟩ := by
  have hoption : ¬ RunOption "-hx" := by
    rw [runOption_iff]
    decide
  exact ⟨OptionParser.standard_lawful, hoption,
    (parse_run_iff OptionParser.standard_lawful).2.1.2 hoption⟩

/-- The word `--debug=x` is none of the options that are written in full, and yet it is refused. -/
theorem not_passedOn_debug_value :
    "--debug=x" ∉ ["--", "--debug", "-h", "--help"] ∧
      (∃ p : OptionParser, p.Lawful) ∧ ∀ p : OptionParser, p.Lawful →
        parse p ["run", "--debug=x"] ≠ .ok ⟨false, .run ["--debug=x"]⟩ := by
  have hoption : RunOption "--debug=x" := @RunOption.long _ "debug" (some "x") (.inl rfl) rfl
  exact ⟨by decide, ⟨_, OptionParser.standard_lawful⟩, fun p hp ↦ hoption.parse_run_ne hp []⟩

end CommandLine

end TypedLine
