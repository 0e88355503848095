import TypedLine.Builtin
import TypedLine.CommandLine
import TypedLine.Proofs.OptionParser.Standard

/-!
# Asking for debugging

`--debug` may be asked for before the subcommand and once more among the subcommand's own options. A
subcommand reads its words by itself, so what it makes of them does not depend on what stands before
its name, and the request is made of what is given to the subcommand alone (`requestOf_inherit`).
Words that are accepted without the flag before them are therefore accepted with it, and ask for the
same request.

The flag decides from which level on the log is shown. The configuration, what is printed and how it
ends are the same with it, and so is the log from `info` on: `parse_debug`.
-/

namespace TypedLine.CommandLine

variable {p : OptionParser} {w : String} {ws : List String} {d : Bool} {request : Request}

/-! ### The request -/

/-- **A request is no matter of the flags of the program.** -/
theorem requestOf_inherit (name : String) (before given : Matches) :
    requestOf name (declaration.inherit before given) = requestOf name given := by
  have hinherit : ∀ other, other ≠ "debug" →
      declaration.inherit before given other = given other := by
    intro other hother
    simp [Declaration.inherit, declaration, hother]
  rw [requestOf, requestOf, hinherit "words" (by decide), hinherit "path" (by decide),
    hinherit "comment-prefix" (by decide), hinherit "keep-going" (by decide)]

/-- A flag that was given before the subcommand is given. -/
theorem inherit_debug_ne_nil (given : Matches) :
    declaration.inherit (Matches.none.add "debug" "true") given "debug" ≠ [] := by
  rw [Declaration.inherit]
  split
  · simp [Matches.add]
  · rename_i h
    simpa [declaration] using h

/-- The subcommands are told of by their names. -/
theorem exists_subcommand? (hw : w ∈ ["run", "script", "list"]) :
    Word.ofString w = .plain ∧ ∃ s, declaration.subcommand? w = some s := by
  have hcases : w = "run" ∨ w = "script" ∨ w = "list" := by simpa using hw
  rcases hcases with rfl | rfl | rfl
  · exact ⟨rfl, _, rfl⟩
  · exact ⟨rfl, _, rfl⟩
  · exact ⟨rfl, _, rfl⟩

/-! ### What is shown -/

/-- Two executions **agree from `info` on**. -/
structure AgreeFromInfo (e e' : Execution) : Prop where
  /-- They print the same, -/
  output_eq : e.output = e'.output
  /-- log the same but for entries that are less serious, -/
  log_eq : e.log .info = e'.log .info
  /-- end in the same way, with the same messages if they fail, -/
  result_eq : e.result = e'.result
  /-- and so with the same code. -/
  exitCode_eq : e.exitCode = e'.exitCode

/-- What is done, with all entries of the log. -/
def carriedOut (request : Request) (commands : List Attempt) (storage : Storage) : Execution :=
  match request.checkedConfig storage with
  | .error e => .failed e.chain
  | .ok c => request.carryOut commands c storage

theorem perform_eq (l : CommandLine) (shows : Level → Level → Bool) (commands : List Attempt)
    (storage : Storage) :
    l.perform shows commands storage =
      { carriedOut l.request commands storage with
        entries := (carriedOut l.request commands storage).entries.filter
          fun entry ↦ shows l.leastLevel entry.level } :=
  rfl

/-- The log from `info` on is shown with the flag and without it. -/
theorem log_perform {shows : Level → Level → Bool}
    (hshows : ∀ least level, least.rank ≤ level.rank → shows least level = true) (l : CommandLine)
    (commands : List Attempt) (storage : Storage) :
    (l.perform shows commands storage).log .info =
      (carriedOut l.request commands storage).log .info := by
  have hleast : l.leastLevel.rank ≤ Level.info.rank := by
    rw [leastLevel]
    split
    · exact Nat.zero_le _
    · exact Nat.le_refl _
  rw [perform_eq, Execution.log, Execution.log, List.filter_filter]
  refine List.filter_congr fun entry _ ↦ ?_
  rw [Bool.and_eq_left_iff_imp]
  intro hinfo
  exact hshows _ _ (Nat.le_trans hleast (of_decide_eq_true hinfo))

/-- The flag is no matter of what is done. -/
theorem agreeFromInfo_perform {shows : Level → Level → Bool}
    (hshows : ∀ least level, least.rank ≤ level.rank → shows least level = true) (d d' : Bool)
    (request : Request) (commands : List Attempt) (storage : Storage) :
    AgreeFromInfo (perform ⟨d, request⟩ shows commands storage)
      (perform ⟨d', request⟩ shows commands storage) where
  output_eq := rfl
  log_eq := by rw [log_perform hshows, log_perform hshows]
  result_eq := rfl
  exitCode_eq := rfl

/-- **Asking for debugging before the subcommand changes nothing but that it was asked for.** Words
that are accepted are accepted with `--debug` before them, as the same request. And whatever the
commands and the stored files are, the configuration is the same, and what is done agrees: what is
printed, the log from `info` on, and how it ends.

This holds of every option parser that behaves as documented, and of every logger that shows the
entries from the level on that it is told of. -/
theorem parse_debug (hp : p.Lawful) (hw : w ∈ ["run", "script", "list"])
    (h : parse p (w :: ws) = .ok ⟨d, request⟩) :
    parse p ("--debug" :: w :: ws) = .ok ⟨true, request⟩ ∧
      ∀ storage, config ⟨true, request⟩ storage = config ⟨d, request⟩ storage ∧
        ∀ shows : Level → Level → Bool,
          (∀ least level, least.rank ≤ level.rank → shows least level = true) →
            ∀ commands, AgreeFromInfo (perform ⟨true, request⟩ shows commands storage)
              (perform ⟨d, request⟩ shows commands storage) := by
  obtain ⟨hplain, s, hs⟩ := exists_subcommand? hw
  have hwith : parse p ("--debug" :: w :: ws) = .ok ⟨true, request⟩ := by
    rw [parse, hp.program_flag (.head _) rfl rfl, hp.subcommand hplain hs]
    rw [parse, hp.subcommand hplain hs] at h
    rcases hread : p.readSubcommand s .options .none ws with stop | m
    · rw [hread] at h
      cases h
    · rw [hread] at h
      obtain ⟨request', hrequest, hline⟩ := map_eq_ok_iff.1 h
      obtain rfl : request' = request := congrArg CommandLine.request hline
      rw [requestOf_inherit] at hrequest
      refine map_eq_ok_iff.2 ⟨request', (requestOf_inherit _ _ _).trans hrequest, ?_⟩
      simp [inherit_debug_ne_nil]
  exact ⟨hwith, fun storage ↦ ⟨rfl, fun shows hshows commands ↦
    agreeFromInfo_perform hshows true d request commands storage⟩⟩

/-- Behind the first word of the line `--debug` is a word of the line, and before the subcommand it
is the flag. -/
theorem parse_debug_run :
    OptionParser.standard.Lawful ∧ "run" ∈ ["run", "script", "list"] ∧
      parse .standard ["run", "echo", "--debug"] = .ok ⟨false, .run ["echo", "--debug"]⟩ ∧
      (∀ least level : Level, least.rank ≤ level.rank → least.shows level = true) ∧
      parse .standard ["--debug", "run", "echo", "--debug"] =
        .ok ⟨true, .run ["echo", "--debug"]⟩ ∧
      AgreeFromInfo
        (perform ⟨true, .run ["echo", "--debug"]⟩ Level.shows Builtin.commands fun _ ↦ .missing)
        (perform ⟨false, .run ["echo", "--debug"]⟩ Level.shows Builtin.commands
          fun _ ↦ .missing) := by
  have hw : "run" ∈ ["run", "script", "list"] := by decide
  have haccepted : parse .standard ["run", "echo", "--debug"] =
      .ok ⟨false, .run ["echo", "--debug"]⟩ := rfl
  have hshows : ∀ least level : Level, least.rank ≤ level.rank → least.shows level = true :=
    fun _ _ h ↦ decide_eq_true h
  obtain ⟨hwith, hagree⟩ := parse_debug OptionParser.standard_lawful hw haccepted
  exact ⟨OptionParser.standard_lawful, hw, haccepted, hshows, hwith,
    (hagree _).2 Level.shows hshows Builtin.commands⟩

end TypedLine.CommandLine
