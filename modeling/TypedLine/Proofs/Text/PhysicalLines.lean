import TypedLine.Proofs.Text.Pieces

/-!
# What the lines of a text are

The lines of a text are given by four rules: an empty text has none, a text without line feeds is
its only line, and otherwise the first line stands before the first line feed, or before a carriage
return and the first line feed. Exactly one list of lines follows from the rules, and it is the one
that `physicalLines` computes: `hasLines_iff`.
-/

namespace TypedLine.Text

/-- The text consists of the lines, in this order. -/
inductive HasLines : (cs : List Char) → (lines : List String) → Prop
  /-- Nothing stands after the last line feed. -/
  | nil : HasLines [] []
  /-- What stands after the last line feed is a line. A carriage return at its end belongs to it. -/
  | last {line : List Char} : line ≠ [] → '\n' ∉ line → HasLines line [String.ofList line]
  /-- A line that a line feed ends. -/
  | feed {line cs : List Char} {lines : List String} :
    '\n' ∉ line → line.getLast? ≠ some '\r' → HasLines cs lines →
      HasLines (line ++ '\n' :: cs) (String.ofList line :: lines)
  /-- A line that a carriage return and a line feed end. -/
  | returnFeed {line cs : List Char} {lines : List String} :
    '\n' ∉ line → HasLines cs lines →
      HasLines (line ++ '\r' :: '\n' :: cs) (String.ofList line :: lines)

variable {cs line : List Char} {lines : List String}

/-! ### One line at a time -/

theorem dropReturn_of_getLast?_ne (h : line.getLast? ≠ some '\r') : dropReturn line = line := by
  rw [dropReturn, if_neg h]

theorem dropReturn_append_return (line : List Char) : dropReturn (line ++ ['\r']) = line := by
  rw [dropReturn, if_pos (by simp), List.dropLast_concat]

/-- The first line is closed by the first line feed. -/
theorem closeLines_append_cons (h : '\n' ∉ line) (cs : List Char) :
    closeLines (pieces '\n' (line ++ '\n' :: cs)) =
      dropReturn line :: closeLines (pieces '\n' cs) := by
  rw [pieces_append_cons, pieces_of_notMem h, List.singleton_append]
  rcases hp : pieces '\n' cs with - | ⟨p, ps⟩
  · exact absurd hp (pieces_ne_nil '\n' cs)
  · rfl

/-- A line feed ends a line, with or without a return before it. -/
theorem HasLines.cons (hline : '\n' ∉ line) (h : HasLines cs lines) :
    HasLines (line ++ '\n' :: cs) (String.ofList (dropReturn line) :: lines) := by
  by_cases hreturn : line.getLast? = some '\r'
  · obtain ⟨front, rfl⟩ := List.getLast?_eq_some_iff.1 hreturn
    rw [dropReturn_append_return, List.append_assoc, List.singleton_append]
    exact .returnFeed (fun hfront ↦ hline (List.mem_append_left _ hfront)) h
  · rw [dropReturn_of_getLast?_ne hreturn]
    exact .feed hline hreturn h

/-! ### The lines that are computed -/

/-- The rules lead to nothing but the lines that are computed. -/
theorem HasLines.eq_closeLines (h : HasLines cs lines) :
    (closeLines (pieces '\n' cs)).map String.ofList = lines := by
  induction h with
  | nil => rfl
  | last hne hline => rw [pieces_of_notMem hline, closeLines, if_neg hne, List.map_singleton]
  | feed hline hreturn _ ih =>
    rw [closeLines_append_cons hline, List.map_cons, ih, dropReturn_of_getLast?_ne hreturn]
  | @returnFeed line cs lines hline _ ih =>
    have hline' : '\n' ∉ line ++ ['\r'] := by simpa using hline
    have hcut : line ++ '\r' :: '\n' :: cs = (line ++ ['\r']) ++ '\n' :: cs := by simp
    rw [hcut, closeLines_append_cons hline', List.map_cons, ih, dropReturn_append_return]

/-- The rules lead to the lines that are computed. -/
theorem hasLines_closeLines (cs : List Char) :
    HasLines cs ((closeLines (pieces '\n' cs)).map String.ofList) := by
  -- Induction on the length: the text behind the first line feed is the shorter one.
  induction hn : cs.length using Nat.strongRecOn generalizing cs with
  | ind n ih =>
    by_cases hfeed : '\n' ∈ cs
    · obtain ⟨line, rest, rfl, hline⟩ := List.eq_append_cons_of_mem hfeed
      rw [closeLines_append_cons hline, List.map_cons]
      exact .cons hline (ih rest.length (by simp at hn; omega) rest rfl)
    · rw [pieces_of_notMem hfeed, closeLines]
      split
      · rename_i hnil
        rw [hnil]
        exact .nil
      · rename_i hne
        exact .last hne hfeed

/-- **The lines of a text are those that are computed.** -/
theorem hasLines_iff {s : String} : HasLines s.toList lines ↔ physicalLines s = lines := by
  constructor
  · exact HasLines.eq_closeLines
  · rintro rfl
    exact hasLines_closeLines s.toList

end TypedLine.Text
