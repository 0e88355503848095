import TypedLine.Builtin
import TypedLine.Proofs.Dispatch
import TypedLine.Proofs.ReadFault

/-!
# The argument at fault

A line that is refused for one of its arguments is refused with the failure of a read. That read is
the first that fails: the arguments before it were read, each from where the one before it ended,
and the failure is one that the kind of the argument admits. `PointsAt` says so of a failure, an
index and the place where the argument starts, and every such refusal is of this form
(`pointsAt_of_run_eq_error`).

So a position in a refusal can be shown in the line as it stands. It is a place of the line, never
before the argument at fault; it is where that argument starts, but for a fault inside a quote.
-/

namespace TypedLine

open Text

/-- **The failure points at the argument** `index` of the line: it is the failure of the read of a
value of the kind `k` from the place `start`. The line starts with `name`, which is that of
`command`, and `ending` is where the argument before it ends, or the name if there is none. -/
structure PointsAt (line : String) (name after : List Char) (command : Command) (index : Nat)
    (k : Kind) (ending start : Cursor) (source : Failure) : Prop where
  /-- The name is the token at the start of the line, and `after` is what follows it. -/
  named : Named line name after
  /-- The kind is the one that is declared for the argument. -/
  kind_eq : command.signature[index]? = some k
  /-- The arguments before it have been read. -/
  earlier : ∃ vs, (Cursor.mk name after).readArguments (String.ofList name)
    (command.signature.take index) 0 = ⟨.ok vs, ending⟩
  /-- The argument starts behind the whitespace after them. -/
  start_eq : ∃ gap, LongestRun isSpace ending.after gap start.after ∧
    start.before = ending.before ++ gap
  /-- The failure is one that the kind admits. -/
  fault : start.ReadFault k source
  /-- The position is a place of the line, and not before the argument. -/
  position : byteLength name ≤ start.position ∧ ∃ p, source.position? = some p ∧
    start.position ≤ p ∧ p ≤ line.utf8ByteSize ∧ ∃ place, (Cursor.ofString line).moveTo p = .ok place
  /-- The position is where the argument starts, but for a fault inside a quote. -/
  position_eq : ¬ source.liesInQuote → source.position? = some start.position

namespace Cursor

variable {c place start : Cursor} {k : Kind} {e : Failure}

/-- A fault that lies in no quote is where the read starts. -/
theorem ReadFault.position?_eq (h : c.ReadFault k e) (hquote : ¬ e.liesInQuote) :
    e.position? = some c.position := by
  rcases h with - | - | - | - | -
  · rfl
  · rfl
  · rfl
  · exact absurd rfl hquote
  · exact absurd rfl hquote

/-- Of two places in a text, the one with less text after it has the greater position. -/
theorem position_le_of_suffix (hchars : place.chars = c.chars) (hafter : place.after <:+ c.after) :
    c.position ≤ place.position := by
  obtain ⟨used, hused⟩ := hafter
  have hbefore : place.before = c.before ++ used := by
    rw [chars, chars, ← hused, ← List.append_assoc] at hchars
    exact List.append_cancel_right hchars
  rw [position, position, hbefore, byteLength_append]
  exact Nat.le_add_right ..

/-- A failed read of a value has a position in the text, from where it starts on. -/
theorem exists_position_of_readContent {line : String} (hchars : c.chars = line.toList)
    (h : (c.readContent k).outcome = .error e) :
    ∃ p, e.position? = some p ∧ c.position ≤ p ∧ p ≤ line.utf8ByteSize ∧
      ∃ place, (Cursor.ofString line).moveTo p = .ok place := by
  obtain ⟨⟨place, harises⟩, -⟩ := readContent_of_error h
  obtain ⟨p, hp, hstart, hend, ⟨place, hmove⟩, -⟩ := harises.position
  obtain ⟨hplace, hposition⟩ := moveTo_eq_ok_iff.1 hmove
  refine ⟨p, hp, hstart, ?_, place, moveTo_eq_ok_iff.2 ⟨hplace.trans hchars, hposition⟩⟩
  rwa [utf8ByteSize_eq_byteLength, ← hchars]

end Cursor

namespace Registry

variable {r : Registry} {line name : String} {index : Nat} {source : Failure}

/-- Where the arguments of a line stop, the failure points at the argument there. -/
theorem pointsAt_of_stopsAt {word after : List Char} {command : Command}
    (hname : Named line word after)
    (hstop : Cursor.StopsAt command.signature ⟨word, after⟩ index source) :
    ∃ k ending start, PointsAt line word after command index k ending start source := by
  obtain @⟨k, vs, ending, hkind, hdec, hchars, hread⟩ := hstop
  have hcontent : (ending.skipSpace.readContent k).outcome = .error source :=
    Reading.outcome_map_eq_error_iff.1 hread
  have hline : ending.chars = line.toList := hchars.trans hname.longest.append_eq
  have hfault := Cursor.readFault_of_error hcontent
  have hgap := longestRun_takeWhile isSpace ending.after
  have hskip : ending.skipSpace.chars = ending.chars := Cursor.chars_skipWhile ending isSpace
  refine ⟨k, ending, ending.skipSpace, hname, hkind, ⟨vs, ?_⟩, ⟨_, hgap, rfl⟩, hfault, ⟨?_, ?_⟩,
    hfault.position?_eq⟩
  · exact Cursor.readArguments_eq_ok_iff.2 ⟨hdec, hchars⟩
  · have hafter : ending.skipSpace.after <:+ after :=
      List.IsSuffix.trans ⟨_, hgap.append_eq⟩ hdec.suffix
    exact Cursor.position_le_of_suffix (c := ⟨word, after⟩) (hskip.trans hchars) hafter
  · exact Cursor.exists_position_of_readContent (hskip.trans hline) hcontent

/-- **A line that is refused for an argument is refused with a failure that points at it.** The name
in the refusal is the one that the line starts with, and the index is one of the command's. -/
theorem pointsAt_of_run_eq_error (h : r.run line = .error (.argument name index source)) :
    ∃ after command k ending start, ⟨lowerCase name, command⟩ ∈ r.entries ∧
      index < command.arity ∧
        PointsAt line name.toList after command index k ending start source := by
  obtain ⟨calls, result, hdispatch⟩ := exists_dispatches r line
  obtain ⟨-, hresult⟩ := hdispatch.sound
  rw [h] at hresult
  subst hresult
  cases hdispatch with
  | @argument word after command _ _ hname hkey _ hstop =>
    obtain ⟨k, ending, start, hpoints⟩ := pointsAt_of_stopsAt hname hstop
    obtain ⟨harity, -⟩ := List.getElem?_eq_some_iff.1 hpoints.kind_eq
    refine ⟨after, command, k, ending, start, hkey, harity, ?_⟩
    rwa [String.toList_ofList]

/-- In `rePeat "é" ⇥1.5` the failure points at the second argument, behind a character of two bytes
and two of whitespace. -/
theorem pointsAt_of_run_eq_error_tab :
    Builtin.registry.run "rePeat \"é\" \t1.5" =
        .error (.argument "rePeat" 1 (.wrongType 13 "Int32" "1.5")) ∧
      ∃ after command k ending start, ⟨lowerCase "rePeat", command⟩ ∈ Builtin.registry.entries ∧
        1 < command.arity ∧ PointsAt "rePeat \"é\" \t1.5" "rePeat".toList after command 1 k ending
          start (.wrongType 13 "Int32" "1.5") := by
  have hrun : Builtin.registry.run "rePeat \"é\" \t1.5" =
      .error (.argument "rePeat" 1 (.wrongType 13 "Int32" "1.5")) := rfl
  exact ⟨hrun, pointsAt_of_run_eq_error hrun⟩

end Registry

end TypedLine
