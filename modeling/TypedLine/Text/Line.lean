/-!
# Lines and pieces

Two ways to cut a text. `pieces sep` cuts at every `sep`, so that it always gives one piece more
than there are separators (`length_pieces`). `physicalLines` cuts a text into its lines: a line
ends at a line feed, a carriage return before the line feed belongs to neither line, and a text
that ends with a line feed has no further line.
-/

namespace TypedLine.Text

/-- The parts of `cs` between the occurrences of `sep`, empty parts included. -/
def pieces (sep : Char) : List Char → List (List Char)
  | [] => [[]]
  | c :: cs =>
    if c = sep then [] :: pieces sep cs
    else match pieces sep cs with
      | [] => [[c]]
      | p :: ps => (c :: p) :: ps

theorem pieces_ne_nil (sep : Char) (cs : List Char) : pieces sep cs ≠ [] := by
  cases cs with
  | nil => simp [pieces]
  | cons c cs =>
    rw [pieces]
    split
    · simp
    · split <;> simp

/-- There is one piece more than there are separators. -/
theorem length_pieces (sep : Char) (cs : List Char) :
    (pieces sep cs).length = cs.count sep + 1 := by
  induction cs with
  | nil => rfl
  | cons c cs ih =>
    by_cases h : c = sep
    · simp [pieces, h, ih]
    · rw [pieces, if_neg h, List.count_cons_of_ne (by simpa using h), ← ih]
      cases hp : pieces sep cs with
      | nil => exact absurd hp (pieces_ne_nil sep cs)
      | cons p ps => simp

/-- Drop one carriage return at the end of a line. -/
def dropReturn (cs : List Char) : List Char :=
  if cs.getLast? = some '\r' then cs.dropLast else cs

/-- Drop the return of every piece that a line feed ends, and the last piece when it is empty.
The last piece is ended by no line feed, so a return there stays. -/
def closeLines : List (List Char) → List (List Char)
  | [] => []
  | [last] => if last = [] then [] else [last]
  | p :: ps => dropReturn p :: closeLines ps

/-- The lines of `s`. -/
def physicalLines (s : String) : List String :=
  (closeLines (pieces '\n' s.toList)).map String.ofList

end TypedLine.Text
