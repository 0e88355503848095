import TypedLine.Failure
import TypedLine.Text.Utf8
import TypedLine.Text.Whitespace

/-!
# Cursors

A place in a text, between two characters: what stands before it and what stands after it. A
cursor is never inside a character and never past the end, because there is no way to write such
a cursor down. Positions count bytes; the look-ahead counts characters.

Moving never changes the text (`chars_skip`, `chars_skipWhile`); only `moveTo` may go back, and it
leads to every place of the text (`moveTo_eq_ok_iff`).
-/

namespace TypedLine

/-- A place in a text. -/
structure Cursor where
  /-- The characters before the place. -/
  before : List Char
  /-- The characters after the place. -/
  after : List Char
  deriving DecidableEq, Repr

namespace Cursor

/-- The start of a text. -/
def ofString (s : String) : Cursor :=
  ⟨[], s.toList⟩

/-- The characters of the text. -/
def chars (c : Cursor) : List Char :=
  c.before ++ c.after

/-- The text that the cursor is in. -/
def text (c : Cursor) : String :=
  String.ofList c.chars

/-- The text before the cursor. -/
def consumed (c : Cursor) : String :=
  String.ofList c.before

/-- The text after the cursor. -/
def remaining (c : Cursor) : String :=
  String.ofList c.after

/-- The place, in bytes from the start. -/
def position (c : Cursor) : Nat :=
  Text.byteLength c.before

/-- The length of the text, in bytes. -/
def length (c : Cursor) : Nat :=
  Text.byteLength c.chars

/-- Whether the text is empty. -/
def isEmpty (c : Cursor) : Bool :=
  c.chars.isEmpty

/-! ### Looking ahead -/

/-- Whether a character stands after the cursor. -/
def isReadable (c : Cursor) : Bool :=
  !c.after.isEmpty

/-- Whether at least `n` characters stand after the cursor. -/
def canRead (c : Cursor) (n : Nat) : Bool :=
  n ≤ c.after.length

/-- The character `n` characters past the cursor. -/
def peekAt? (c : Cursor) (n : Nat) : Option Char :=
  c.after[n]?

/-- The character after the cursor. -/
def peek? (c : Cursor) : Option Char :=
  c.peekAt? 0

/-! ### Moving -/

/-- The cursor at byte offset `n` of the same text. -/
def moveTo (c : Cursor) (n : Nat) : Except Failure Cursor :=
  match Text.splitAtByte? n c.chars with
  | some (before, after) => .ok ⟨before, after⟩
  | none => .error (.invalidPosition n c.length)

/-- Go past one character, if there is one. -/
def skip (c : Cursor) : Cursor :=
  match c.after with
  | [] => c
  | ch :: after => ⟨c.before ++ [ch], after⟩

/-- The longest run of characters after the cursor that satisfy `p`. -/
def run (c : Cursor) (p : Char → Bool) : List Char :=
  c.after.takeWhile p

/-- Go past the longest run of characters that satisfy `p`. -/
def skipWhile (c : Cursor) (p : Char → Bool) : Cursor :=
  ⟨c.before ++ c.after.takeWhile p, c.after.dropWhile p⟩

/-- Go past the whitespace after the cursor. -/
def skipSpace (c : Cursor) : Cursor :=
  c.skipWhile Text.isSpace

/-- A move leads to the place at the given offset of the same text, where there is one. -/
theorem moveTo_eq_ok_iff {c c' : Cursor} {n : Nat} :
    c.moveTo n = .ok c' ↔ c'.chars = c.chars ∧ c'.position = n := by
  obtain ⟨before', after'⟩ := c'
  have hcut : Text.splitAtByte? n c.chars = some (before', after') ↔
      c.chars = before' ++ after' ∧ Text.byteLength before' = n := Text.splitAtByte?_eq_some_iff
  rw [eq_comm (a := c.chars)] at hcut
  show _ ↔ before' ++ after' = c.chars ∧ Text.byteLength before' = n
  rw [← hcut, moveTo]
  rcases Text.splitAtByte? n c.chars with - | ⟨before, after⟩
  · simp
  · simp

@[simp] theorem chars_skip (c : Cursor) : c.skip.chars = c.chars := by
  rcases c with ⟨before, _ | ⟨ch, after⟩⟩ <;> simp [skip, chars]

@[simp] theorem chars_skipWhile (c : Cursor) (p : Char → Bool) :
    (c.skipWhile p).chars = c.chars := by
  simp [skipWhile, chars]

end Cursor

end TypedLine
