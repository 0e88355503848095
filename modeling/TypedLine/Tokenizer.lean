import TypedLine.Cursor.Read

/-!
# Tokenizers

A text, and a byte offset into it that is moved by hand: forward by the width of the character that
stands there, back to an offset that was noted before a read, or to any offset that the caller
names. What stands at the offset is found by slicing the text. A slice that begins or ends inside a
character or past the end of the text is none, and an operation that asks for it **panics**; this is
what `none` stands for below. Nothing in a tokenizer rules that out.

Every operation is that of a cursor (`Cursor`), carried out on offsets. That the two agree, so that
no operation panics, is shown in `TypedLine.Proofs.Tokenizer`.
-/

namespace TypedLine

/-- A text and a byte offset into it. -/
structure Tokenizer where
  /-- The text. -/
  text : String
  /-- The offset, in bytes. -/
  position : Nat
  deriving DecidableEq, Repr

namespace Tokenizer

/-- How an operation goes, unless it panics: what it gives, and the tokenizer after it. -/
structure Reading (α : Type) where
  /-- What it gives, or why it gives nothing. -/
  outcome : Except Failure α
  /-- The tokenizer after it. -/
  tokenizer : Tokenizer

/-- The start of a text. -/
def ofString (text : String) : Tokenizer :=
  ⟨text, 0⟩

/-! ### Slices -/

/-- The text before the offset. -/
def consumed? (t : Tokenizer) : Option String := do
  let p ← t.text.pos? ⟨t.position⟩
  return (t.text.sliceTo p).copy

/-- The text from the offset on. -/
def remaining? (t : Tokenizer) : Option String := do
  let p ← t.text.pos? ⟨t.position⟩
  return (t.text.sliceFrom p).copy

/-- The text from one offset up to another. -/
def slice? (text : String) (start stop : Nat) : Option String := do
  let p ← text.pos? ⟨start⟩
  let q ← text.pos? ⟨stop⟩
  let slice ← text.slice? p q
  return slice.copy

/-! ### Looking ahead -/

/-- The length of the text, in bytes. -/
def length (t : Tokenizer) : Nat :=
  t.text.utf8ByteSize

/-- Whether the text is empty. -/
def isEmpty (t : Tokenizer) : Bool :=
  t.length == 0

/-- Whether the offset is before the end. -/
def isReadable (t : Tokenizer) : Bool :=
  t.position < t.length

/-- The number of characters after the offset. -/
def remainingLength? (t : Tokenizer) : Option Nat := do
  return (← t.remaining?).length

/-- The character `n` characters past the offset. -/
def peekAt? (t : Tokenizer) (n : Nat) : Option (Option Char) := do
  return (← t.remaining?).toList[n]?

/-- The character at the offset. -/
def peek? (t : Tokenizer) : Option (Option Char) :=
  t.peekAt? 0

/-- Whether at least `n` characters stand after the offset. -/
def canRead? (t : Tokenizer) (n : Nat) : Option Bool :=
  if n = 0 then some true else do return (← t.peekAt? (n - 1)).isSome

/-- The place at an offset has that offset. -/
theorem offset_eq_of_pos? {text : String} {n : String.Pos.Raw} {p : text.Pos}
    (h : text.pos? n = some p) : p.offset = n := by
  simp only [String.pos?, String.Slice.pos?, Option.map_dif, Option.dite_none_right_eq_some,
    Option.some.injEq] at h
  obtain ⟨-, rfl⟩ := h
  rfl

/-- A place is at its offset. -/
theorem pos?_offset {text : String} (p : text.Pos) : text.pos? p.offset = some p := by
  have hvalid : String.Pos.Raw.IsValidForSlice text.toSlice p.offset :=
    String.Pos.Raw.isValidForSlice_toSlice_iff.2 p.isValid
  simp only [String.pos?, String.Slice.pos?, String.Pos.Raw.isValidForSlice_eq_true_iff, hvalid,
    dite_true]
  rfl

/-- A character is found only before the end. -/
theorem position_lt_of_peek? {t : Tokenizer} {ch : Char} (h : t.peek? = some (some ch)) :
    t.position < t.text.utf8ByteSize := by
  obtain ⟨rest, hrest, hch⟩ := Option.bind_eq_some_iff.1 h
  obtain ⟨p, hp, hcopy⟩ := Option.bind_eq_some_iff.1 hrest
  obtain rfl : (t.text.sliceFrom p).copy = rest := Option.some.inj hcopy
  have hne : (t.text.sliceFrom p).copy.utf8ByteSize ≠ 0 := by
    rw [Ne, String.utf8ByteSize_eq_zero_iff]
    rintro hempty
    simp [hempty] at hch
  have hsize := congrArg String.utf8ByteSize p.splits.eq_append
  have hposition : t.position = (t.text.sliceTo p).copy.utf8ByteSize := by
    have hoffset := (offset_eq_of_pos? hp).symm.trans p.splits.offset_eq_rawEndPos
    exact congrArg String.Pos.Raw.byteIdx hoffset
  rw [String.utf8ByteSize_append] at hsize
  omega

/-! ### Moving -/

/-- Move the offset past the character `ch`. -/
def advance (t : Tokenizer) (ch : Char) : Tokenizer :=
  { t with position := t.position + ch.utf8Size }

/-- Move the offset back to one that was noted before. -/
def rewind (t : Tokenizer) (start : Nat) : Tokenizer :=
  { t with position := start }

/-- Move the offset to the one named, which must lie between two characters. -/
def setPosition (t : Tokenizer) (n : Nat) : Option (Reading Unit) :=
  if t.length < n ∨ ¬ String.Pos.Raw.IsValid t.text ⟨n⟩ then
    some ⟨.error (.invalidPosition n t.length), t⟩
  else some ⟨.ok (), t.rewind n⟩

/-- A move goes exactly to the offsets at which the text can be cut. -/
theorem setPosition_eq (t : Tokenizer) (n : Nat) :
    t.setPosition n =
      if String.Pos.Raw.IsValid t.text ⟨n⟩ then some ⟨.ok (), ⟨t.text, n⟩⟩
      else some ⟨.error (.invalidPosition n t.length), t⟩ := by
  by_cases hvalid : String.Pos.Raw.IsValid t.text ⟨n⟩
  · have hle : n ≤ t.length := hvalid.le_rawEndPos
    rw [setPosition, if_neg (by simp [hvalid, hle]), if_pos hvalid, rewind]
  · rw [setPosition, if_pos (.inr hvalid), if_neg hvalid]

/-- Go past one character, if there is one. -/
def skip (t : Tokenizer) : Option (Reading Unit) := do
  match ← t.peek? with
  | some ch => return ⟨.ok (), t.advance ch⟩
  | none => return ⟨.ok (), t⟩

/-- Go past one character after the other, as long as they satisfy `p`. -/
def advanceWhile (t : Tokenizer) (p : Char → Bool) : Option Tokenizer :=
  match _ : t.peek? with
  | none => none
  | some none => some t
  | some (some ch) => if p ch then (t.advance ch).advanceWhile p else some t
termination_by t.text.utf8ByteSize - t.position
decreasing_by
  have hlt := position_lt_of_peek? ‹t.peek? = some (some ch)›
  have hpos := ch.utf8Size_pos
  simp only [advance]
  omega

theorem advanceWhile_of_end {t : Tokenizer} (p : Char → Bool) (h : t.peek? = some none) :
    t.advanceWhile p = some t := by
  rw [advanceWhile]
  split <;> simp_all

theorem advanceWhile_of_peek? {t : Tokenizer} {ch : Char} (p : Char → Bool)
    (h : t.peek? = some (some ch)) :
    t.advanceWhile p = if p ch then (t.advance ch).advanceWhile p else some t := by
  rw [advanceWhile]
  split <;> simp_all

/-- Go past the longest run of characters that satisfy `p`, and take it. -/
def scan (t : Tokenizer) (p : Char → Bool) : Option (String × Tokenizer) := do
  let t' ← t.advanceWhile p
  let token ← slice? t.text t.position t'.position
  return (token, t')

/-- Go past the whitespace at the offset. -/
def skipSpace (t : Tokenizer) : Option (Reading Unit) := do
  let (_, t') ← t.scan Text.isSpace
  return ⟨.ok (), t'⟩

/-! ### Reading -/

/-- Read one character. -/
def readChar (t : Tokenizer) : Option (Reading Char) := do
  match ← t.peek? with
  | some ch => return ⟨.ok ch, t.advance ch⟩
  | none => return ⟨.error (.endOfText t.position), t⟩

/-- Read one character, which must be `ch`. -/
def expect (t : Tokenizer) (ch : Char) : Option (Reading Unit) := do
  let found ← t.peek?
  if found = some ch then t.skip
  else return ⟨.error (.unexpectedChar t.position s!"symbol '{ch}'" found), t⟩

/-- Read a number of the kind `k`, which `decode` makes out of its characters. -/
def readNumber (t : Tokenizer) (k : Kind) {α : Type} (decode : List Char → Option α) :
    Option (Reading α) := do
  let (token, t') ← t.scan isNumberChar
  if token.isEmpty then return ⟨.error (.missingValue t.position k.name), t'⟩
  match decode token.toList with
  | some number => return ⟨.ok number, t'⟩
  | none => return ⟨.error (.wrongType t.position k.name token), t'.rewind t.position⟩

/-- Read a bare string. -/
def readBare (t : Tokenizer) : Option (Reading String) := do
  let (token, t') ← t.scan isBareChar
  return ⟨.ok token, t'⟩

/-- Read on in a string in quote marks, of which `result` is read; `escaped` says whether a
backslash stands before the offset. -/
def readBody (t : Tokenizer) (result : String) (escaped : Bool) : Option (Reading String) :=
  match _ : t.peek? with
  | none => none
  | some none => some ⟨.error (.unterminatedQuote t.position), t⟩
  | some (some ch) =>
    if escaped then
      if ch ≠ '"' ∧ ch ≠ '\\' then some ⟨.error (.invalidEscape t.position ch), t⟩
      else (t.advance ch).readBody (result.push ch) false
    else if ch = '\\' then (t.advance ch).readBody result true
    else if ch = '"' then some ⟨.ok result, t.advance ch⟩
    else (t.advance ch).readBody (result.push ch) false
termination_by t.text.utf8ByteSize - t.position
decreasing_by
  all_goals
    have hlt := position_lt_of_peek? ‹t.peek? = some (some ch)›
    have hpos := ch.utf8Size_pos
    simp only [advance]
    omega

theorem readBody_of_end {t : Tokenizer} (result : String) (escaped : Bool)
    (h : t.peek? = some none) :
    t.readBody result escaped = some ⟨.error (.unterminatedQuote t.position), t⟩ := by
  rw [readBody]
  split <;> simp_all

theorem readBody_of_peek? {t : Tokenizer} {ch : Char} (result : String) (escaped : Bool)
    (h : t.peek? = some (some ch)) :
    t.readBody result escaped =
      if escaped then
        if ch ≠ '"' ∧ ch ≠ '\\' then some ⟨.error (.invalidEscape t.position ch), t⟩
        else (t.advance ch).readBody (result.push ch) false
      else if ch = '\\' then (t.advance ch).readBody result true
      else if ch = '"' then some ⟨.ok result, t.advance ch⟩
      else (t.advance ch).readBody (result.push ch) false := by
  rw [readBody]
  split <;> simp_all

/-- Read a string in quote marks. -/
def readQuoted (t : Tokenizer) : Option (Reading String) := do
  match ← t.peek? with
  | none => return ⟨.error (.endOfText t.position), t⟩
  | some '"' =>
    let opened ← t.skip
    opened.tokenizer.readBody "" false
  | some ch => return ⟨.error (.unexpectedChar t.position "quote" (some ch)), t⟩

/-- Read a string in quote marks if a mark stands at the offset, and a bare one otherwise. -/
def readString (t : Tokenizer) : Option (Reading String) := do
  if (← t.peek?) = some '"' then t.readQuoted else t.readBare

/-- Read a boolean. -/
def readBoolean (t : Tokenizer) : Option (Reading Bool) := do
  let ⟨word, t'⟩ ← t.readString
  match word with
  | .error e => return ⟨.error e, t'.rewind t.position⟩
  | .ok token =>
    if token = Value.booleanText true then return ⟨.ok true, t'⟩
    else if token = Value.booleanText false then return ⟨.ok false, t'⟩
    else if token = "" then
      return ⟨.error (.missingValue t.position Kind.boolean.name), t'.rewind t.position⟩
    else return ⟨.error (.wrongType t.position Kind.boolean.name token), t'.rewind t.position⟩

/-- Read what a value of the kind `k` holds. -/
def readContent (t : Tokenizer) : (k : Kind) → Option (Reading k.Carrier)
  | .string => t.readString
  | .boolean => t.readBoolean
  | .int32 => t.readNumber .int32 fun token ↦ (Numeral.readInt? token).bind int32?
  | .int64 => t.readNumber .int64 fun token ↦ (Numeral.readInt? token).bind int64?
  | .single => t.readNumber .single BinaryFloat.read?
  | .double => t.readNumber .double BinaryFloat.read?

end Tokenizer

end TypedLine
