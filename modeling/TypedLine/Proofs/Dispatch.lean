import TypedLine.Proofs.Decoding
import TypedLine.Proofs.Registry
import TypedLine.Proofs.Text.Pieces

/-!
# What comes of a line

`Dispatches` gives the outcome of every line by five rules: which calls of handlers are made, and
what the result is. A rule speaks of the text of the line and of the commands that are registered;
no cursor moves through it. The rules cover every line and exclude each other, and they describe
`Registry.run` exactly: `dispatches_iff`.

A call is an `Invocation`. Running a line makes at most one (`Registry.calls`), and a line that
makes none is refused.
-/

namespace TypedLine

open Text

/-- The number of arguments that a line seems to have: its spaces, and one more unless the name is
one of the pieces between them. -/
def countedArguments (line name : List Char) : Nat :=
  line.count ' ' + if IsPiece ' ' line name then 0 else 1

/-- The line is not blank. It starts with `name`, the longest run of characters of a bare string,
and goes on with `after`. -/
structure Named (line : String) (name after : List Char) : Prop where
  /-- Something else than whitespace stands in the line. -/
  notBlank : ∃ ch ∈ line.toList, isSpace ch = false
  /-- The name is the longest run. -/
  longest : LongestRun isBareChar line.toList name after

/-- **What comes of a line**: the calls that are made, and the result. -/
inductive Dispatches (r : Registry) (line : String) :
    (calls : List Invocation) → (result : Except Failure Reply) → Prop
  /-- A line of nothing but whitespace is refused. -/
  | blank : (∀ ch ∈ line.toList, isSpace ch = true) → Dispatches r line [] (.error .emptyLine)
  /-- A name is refused whose lower-case form is no key. -/
  | unknown {name after : List Char} :
    Named line name after → lowerCase (String.ofList name) ∉ r.names →
      Dispatches r line [] (.error (.unknownCommand (String.ofList name)))
  /-- A number of arguments is refused that is not the arity. -/
  | arity {name after : List Char} {command : Command} :
    Named line name after → ⟨lowerCase (String.ofList name), command⟩ ∈ r.entries →
      countedArguments line.toList name ≠ command.arity →
        Dispatches r line [] (.error (.arityMismatch (String.ofList name)
          (countedArguments line.toList name) command.arity))
  /-- An argument is refused that does not read. -/
  | argument {name after : List Char} {command : Command} {i : Nat} {e : Failure} :
    Named line name after → ⟨lowerCase (String.ofList name), command⟩ ∈ r.entries →
      countedArguments line.toList name = command.arity →
        Cursor.StopsAt command.signature ⟨name, after⟩ i e →
          Dispatches r line [] (.error (.argument (String.ofList name) i e))
  /-- The command is called on what the text behind the name decodes to, whatever comes after. -/
  | called {name after rest : List Char} {command : Command} {vs : Arguments} :
    Named line name after → ⟨lowerCase (String.ofList name), command⟩ ∈ r.entries →
      countedArguments line.toList name = command.arity →
        Decodes command.signature after vs rest →
          Dispatches r line [⟨String.ofList name, command, vs⟩] (.ok (command.handler vs))

/-! ### The parts of a dispatch -/

theorem argumentCount_eq (line name : List Char) :
    argumentCount line name = countedArguments line name := by
  rw [argumentCount, countedArguments, List.length_erase, length_pieces]
  simp only [mem_pieces_iff]
  split <;> simp

/-- A line that is not blank has a name, perhaps an empty one. -/
theorem exists_named {line : String} (h : ¬ isBlank line) : ∃ name after, Named line name after := by
  have hchar : ∃ ch ∈ line.toList, isSpace ch = false := by simpa [isBlank] using h
  exact ⟨_, _, hchar, longestRun_takeWhile isBareChar line.toList⟩

namespace Named

variable {r : Registry} {line : String} {name after : List Char} {command : Command}

theorem isBlank_eq_false (h : Named line name after) : isBlank line = false := by
  obtain ⟨ch, hch, hspace⟩ := h.notBlank
  refine Bool.eq_false_iff.2 fun hblank ↦ ?_
  rw [isBlank_iff.1 hblank ch hch] at hspace
  cases hspace

/-- Behind the name everything depends on the command that is found under it. -/
theorem resolve_eq (h : Named line name after) :
    r.resolve line = match r.lookup? (lowerCase (String.ofList name)) with
      | none => .error (.unknownCommand (String.ofList name))
      | some command =>
        if countedArguments line.toList name = command.arity then
          ((Cursor.mk name after).readArguments (String.ofList name) command.signature 0).outcome.map
            (⟨String.ofList name, command, ·⟩)
        else .error (.arityMismatch (String.ofList name) (countedArguments line.toList name)
          command.arity) := by
  have hrun : (Cursor.ofString line).run isBareChar = name := h.longest.takeWhile_eq
  have hskip : (Cursor.ofString line).skipWhile isBareChar = ⟨name, after⟩ := by
    rw [Cursor.skipWhile, Cursor.ofString, h.longest.takeWhile_eq, h.longest.dropWhile_eq]
    rfl
  rcases hfind : r.lookup? (lowerCase (String.ofList name)) with - | command
  · simp only [Registry.resolve, h.isBlank_eq_false, Bool.false_eq_true, if_false, hrun,
      Registry.find?, hfind]
  · simp only [Registry.resolve, h.isBlank_eq_false, Bool.false_eq_true, if_false, hrun, hskip,
      argumentCount_eq, Registry.find?, hfind]

theorem resolve_of_notMem (h : Named line name after)
    (hkey : lowerCase (String.ofList name) ∉ r.names) :
    r.resolve line = .error (.unknownCommand (String.ofList name)) := by
  rw [h.resolve_eq, Registry.lookup?_eq_none_iff.2 hkey]

theorem resolve_of_arity_ne (h : Named line name after)
    (hkey : ⟨lowerCase (String.ofList name), command⟩ ∈ r.entries)
    (hcount : countedArguments line.toList name ≠ command.arity) :
    r.resolve line = .error (.arityMismatch (String.ofList name)
      (countedArguments line.toList name) command.arity) := by
  rw [h.resolve_eq, Registry.lookup?_eq_some_iff.2 hkey]
  exact if_neg hcount

theorem resolve_of_arity_eq (h : Named line name after)
    (hkey : ⟨lowerCase (String.ofList name), command⟩ ∈ r.entries)
    (hcount : countedArguments line.toList name = command.arity) :
    r.resolve line =
      ((Cursor.mk name after).readArguments (String.ofList name) command.signature 0).outcome.map
        (⟨String.ofList name, command, ·⟩) := by
  rw [h.resolve_eq, Registry.lookup?_eq_some_iff.2 hkey]
  exact if_pos hcount

/-- What is read of the arguments, when the text behind the name decodes. -/
theorem resolve_of_decodes {rest : List Char} {vs : Arguments} (h : Named line name after)
    (hkey : ⟨lowerCase (String.ofList name), command⟩ ∈ r.entries)
    (hcount : countedArguments line.toList name = command.arity)
    (hdec : Decodes command.signature after vs rest) :
    r.resolve line = .ok ⟨String.ofList name, command, vs⟩ := by
  have hread : ((Cursor.mk name after).readArguments (String.ofList name) command.signature
      0).outcome = .ok vs := Cursor.readArguments_outcome_eq_ok_iff.2 ⟨rest, hdec⟩
  rw [h.resolve_of_arity_eq hkey hcount, hread]
  rfl

/-- What is read of the arguments, when one of them does not read. -/
theorem resolve_of_stopsAt {i : Nat} {e : Failure} (h : Named line name after)
    (hkey : ⟨lowerCase (String.ofList name), command⟩ ∈ r.entries)
    (hcount : countedArguments line.toList name = command.arity)
    (hstop : Cursor.StopsAt command.signature ⟨name, after⟩ i e) :
    r.resolve line = .error (.argument (String.ofList name) i e) := by
  have hread : ((Cursor.mk name after).readArguments (String.ofList name) command.signature
      0).outcome = .error (.argument (String.ofList name) (0 + i) e) :=
    Cursor.readArguments_outcome_eq_error_iff.2 ⟨i, e, hstop, rfl⟩
  rw [h.resolve_of_arity_eq hkey hcount, hread, Nat.zero_add]
  rfl

end Named

/-! ### The outcome of a line -/

theorem Registry.calls_of_ok {r : Registry} {line : String} {call : Invocation}
    (h : r.resolve line = .ok call) : r.calls line = [call] ∧ r.run line = .ok call.run := by
  rw [calls, run, dispatch, h]
  exact ⟨rfl, rfl⟩

theorem Registry.calls_of_error {r : Registry} {line : String} {e : Failure}
    (h : r.resolve line = .error e) : r.calls line = [] ∧ r.run line = .error e := by
  rw [calls, run, dispatch, h]
  exact ⟨rfl, rfl⟩

theorem Registry.resolve_of_isBlank {r : Registry} {line : String} (h : isBlank line) :
    r.resolve line = .error .emptyLine := by
  rw [resolve, if_pos h]

/-- A rule that applies gives the outcome. -/
theorem Dispatches.sound {r : Registry} {line : String} {calls : List Invocation}
    {result : Except Failure Reply} (h : Dispatches r line calls result) :
    r.calls line = calls ∧ r.run line = result := by
  cases h with
  | blank hblank => exact Registry.calls_of_error (Registry.resolve_of_isBlank (isBlank_iff.2 hblank))
  | unknown hname hkey => exact Registry.calls_of_error (hname.resolve_of_notMem hkey)
  | arity hname hkey hcount => exact Registry.calls_of_error (hname.resolve_of_arity_ne hkey hcount)
  | argument hname hkey hcount hstop =>
    exact Registry.calls_of_error (hname.resolve_of_stopsAt hkey hcount hstop)
  | called hname hkey hcount hdec =>
    exact Registry.calls_of_ok (hname.resolve_of_decodes hkey hcount hdec)

/-- To every line a rule applies. -/
theorem exists_dispatches (r : Registry) (line : String) :
    ∃ calls result, Dispatches r line calls result := by
  by_cases hblank : isBlank line
  · exact ⟨_, _, .blank (isBlank_iff.1 hblank)⟩
  obtain ⟨name, after, hname⟩ := exists_named hblank
  by_cases hkey : lowerCase (String.ofList name) ∈ r.names
  · obtain ⟨command, hkey⟩ := Registry.mem_names_iff.1 hkey
    by_cases hcount : countedArguments line.toList name = command.arity
    · rcases hread : ((Cursor.mk name after).readArguments "" command.signature 0).outcome with
        e | vs
      · obtain ⟨i, e', hstop, -⟩ := Cursor.readArguments_outcome_eq_error_iff.1 hread
        exact ⟨_, _, .argument hname hkey hcount hstop⟩
      · obtain ⟨rest, hdec⟩ := Cursor.readArguments_outcome_eq_ok_iff.1 hread
        exact ⟨_, _, .called hname hkey hcount hdec⟩
    · exact ⟨_, _, .arity hname hkey hcount⟩
  · exact ⟨_, _, .unknown hname hkey⟩

/-- **The exact outcome of a line.** The rules of `Dispatches` say which calls are made and what
the result is. -/
theorem dispatches_iff (r : Registry) (line : String) (calls : List Invocation)
    (result : Except Failure Reply) :
    Dispatches r line calls result ↔ r.calls line = calls ∧ r.run line = result := by
  constructor
  · exact Dispatches.sound
  · rintro ⟨rfl, rfl⟩
    obtain ⟨calls, result, h⟩ := exists_dispatches r line
    obtain ⟨hcalls, hresult⟩ := h.sound
    rwa [hcalls, hresult]

end TypedLine
