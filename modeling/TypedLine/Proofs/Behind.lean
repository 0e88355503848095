import TypedLine.Dispatch

/-!
# Reading behind another text

A read sees what stands after the cursor. Of what stands before it the read knows only how long that
is, from the places in its failures. So when some text is put before the whole, every read goes as
it went, with all places moved on by the bytes of that text: `readContent_behind` for one value, and
`readArguments_behind` for the arguments of a line.
-/

namespace TypedLine

open Text

/-- The failure, with the places in it **moved on** by `n` bytes. -/
def Failure.moveOn (n : Nat) : Failure → Failure
  | endOfText position => endOfText (n + position)
  | missingValue position expected => missingValue (n + position) expected
  | wrongType position expected token => wrongType (n + position) expected token
  | invalidEscape position found => invalidEscape (n + position) found
  | unterminatedQuote position => unterminatedQuote (n + position)
  | unexpectedChar position expected found => unexpectedChar (n + position) expected found
  | argument command index source => argument command index (source.moveOn n)
  | e => e

/-- The same place when `front` stands before the text. -/
def Cursor.behind (front : List Char) (c : Cursor) : Cursor :=
  ⟨front ++ c.before, c.after⟩

/-- The same read when `front` stands before the text. -/
def Reading.behind {α : Type} (front : List Char) (r : Reading α) : Reading α :=
  ⟨r.outcome.mapError (.moveOn (byteLength front)), r.cursor.behind front⟩

@[simp] theorem Reading.behind_error {α : Type} (front : List Char) (e : Failure) (c : Cursor) :
    (Reading.mk (.error e) c : Reading α).behind front =
      ⟨.error (e.moveOn (byteLength front)), c.behind front⟩ := rfl

@[simp] theorem Reading.behind_ok {α : Type} (front : List Char) (a : α) (c : Cursor) :
    (Reading.mk (.ok a) c).behind front = ⟨.ok a, c.behind front⟩ := rfl

theorem Reading.map_behind {α β : Type} (front : List Char) (g : α → β) (r : Reading α) :
    (r.behind front).map g = (r.map g).behind front := by
  rcases r with ⟨e | a, c⟩
  · rfl
  · rfl

namespace Cursor

variable (front : List Char) (c : Cursor)

@[simp] theorem position_behind : (c.behind front).position = byteLength front + c.position :=
  byteLength_append front c.before

@[simp] theorem peek?_behind : (c.behind front).peek? = c.peek? := rfl

@[simp] theorem run_behind (p : Char → Bool) : (c.behind front).run p = c.run p := rfl

@[simp] theorem skipWhile_behind (p : Char → Bool) :
    (c.behind front).skipWhile p = (c.skipWhile p).behind front := by
  simp only [skipWhile, behind, List.append_assoc]

@[simp] theorem skipSpace_behind : (c.behind front).skipSpace = c.skipSpace.behind front :=
  skipWhile_behind front c isSpace

/-! ### One character -/

theorem skip_behind : (c.behind front).skip = c.skip.behind front := by
  rcases c with ⟨before, _ | ⟨ch, after⟩⟩
  · rfl
  · exact congrArg (Cursor.mk · after) (List.append_assoc front before [ch])

theorem readChar_behind : (c.behind front).readChar = c.readChar.behind front := by
  rcases c with ⟨before, _ | ⟨ch, after⟩⟩
  · simp [readChar, behind, Failure.moveOn, position]
  · exact congrArg (Reading.mk (.ok ch)) (skip_behind front ⟨before, ch :: after⟩)

theorem expect_behind (ch : Char) : (c.behind front).expect ch = (c.expect ch).behind front := by
  rw [expect, expect, peek?_behind, skip_behind, position_behind]
  split
  · rfl
  · rfl

/-! ### One value -/

theorem readNumber_behind {k : Kind} {α : Type} (decode : List Char → Option α) :
    (c.behind front).readNumber k decode = (c.readNumber k decode).behind front := by
  simp only [readNumber, run_behind, position_behind, skipWhile_behind]
  split
  · rfl
  · split
    · rfl
    · rfl

theorem readBare_behind : (c.behind front).readBare = c.readBare.behind front := by
  rw [readBare, run_behind, skipWhile_behind]
  rfl

theorem readQuoted_behind : (c.behind front).readQuoted = c.readQuoted.behind front := by
  obtain ⟨before, after⟩ := c
  rcases after with - | ⟨ch, after⟩
  · simp [readQuoted, behind, Failure.moveOn, position]
  by_cases hmark : ch = '"'
  · subst hmark
    -- The body is read off the text behind the mark, wherever the mark stands.
    rcases hbody : (readBody after).outcome with (found | -) | cs <;>
      simp [readQuoted, behind, Failure.moveOn, position, hbody]
  · simp [readQuoted, behind, Failure.moveOn, position]

theorem readString_behind : (c.behind front).readString = c.readString.behind front := by
  rw [readString, readString, peek?_behind]
  split
  · exact readQuoted_behind front c
  · exact readBare_behind front c

theorem readBoolean_behind : (c.behind front).readBoolean = c.readBoolean.behind front := by
  simp only [readBoolean, readString_behind]
  rcases c.readString with ⟨e | token, d⟩
  · rfl
  · simp only [Reading.behind_ok]
    split
    · rfl
    split
    · rfl
    split
    · simp [Failure.moveOn]
    · simp [Failure.moveOn]

theorem readContent_behind (k : Kind) :
    (c.behind front).readContent k = (c.readContent k).behind front := by
  cases k with
  | string => exact readString_behind front c
  | boolean => exact readBoolean_behind front c
  | int32 => exact readNumber_behind front c fun token ↦ (Numeral.readInt? token).bind int32?
  | int64 => exact readNumber_behind front c fun token ↦ (Numeral.readInt? token).bind int64?
  | single | double => exact readNumber_behind front c BinaryFloat.read?

theorem readValue_behind (k : Kind) :
    (c.behind front).readValue k = (c.readValue k).behind front := by
  rw [readValue, readContent_behind, Reading.map_behind]
  rfl

/-! ### The arguments of a line -/

/-- **The arguments are read as if nothing stood before them**, but for the places in a failure. -/
theorem readArguments_behind (name : String) (ks : List Kind) (index : Nat) :
    (c.behind front).readArguments name ks index = (c.readArguments name ks index).behind front := by
  induction ks generalizing c index with
  | nil => rfl
  | cons k ks ih =>
    simp only [readArguments, skipSpace_behind, readValue_behind]
    rcases c.skipSpace.readValue k with ⟨e | v, d⟩
    · rfl
    · show ((d.behind front).readArguments name ks (index + 1)).map (v :: ·) = _
      rw [ih, Reading.map_behind]

/-- A place is the start of the text after it, behind the text before it. -/
theorem mk_eq_behind (front after : List Char) :
    Cursor.mk front after = (Cursor.mk [] after).behind front :=
  congrArg (Cursor.mk · after) (List.append_nil front).symm

/-- So what stands before them matters only by its length. -/
theorem readArguments_outcome_congr {front front' : List Char} (after : List Char) (name : String)
    (ks : List Kind) (index : Nat) (h : byteLength front = byteLength front') :
    ((Cursor.mk front after).readArguments name ks index).outcome =
      ((Cursor.mk front' after).readArguments name ks index).outcome := by
  rw [mk_eq_behind front, mk_eq_behind front', readArguments_behind, readArguments_behind,
    Reading.behind, Reading.behind, h]

end Cursor

end TypedLine
