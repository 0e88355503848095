import TypedLine.Cursor
import TypedLine.Integer
import TypedLine.Text.Quoted
import TypedLine.Value

/-!
# Reading values

Each read takes the longest text of its form after a cursor and says where the cursor stands
afterwards, whether the read succeeds or fails. A failed read leaves the cursor where it was, so
that another kind can be tried there, with one exception: a read of a quoted text that meets a
bad escape or no closing mark leaves the cursor at the fault.

A **number** is the longest run of digits, points and minus signs, and is read as a whole or not
at all. A **bare** string is the longest run of letters, digits and `_`, `-`, `.`, `+`, and may be
empty. A boolean is a string, bare or quoted, that says `true` or `false`.
-/

namespace TypedLine

/-- How a read goes: what is read, and where the cursor stands after it. -/
structure Reading (α : Type) where
  /-- What is read, or why nothing is. -/
  outcome : Except Failure α
  /-- The cursor after the read. -/
  cursor : Cursor

/-- Change what is read. -/
def Reading.map {α β : Type} (g : α → β) (r : Reading α) : Reading β :=
  ⟨r.outcome.map g, r.cursor⟩

/-- Whether `ch` may stand in a number. -/
def isNumberChar (ch : Char) : Bool :=
  ch.isDigit || ch == '.' || ch == '-'

/-- Whether `ch` may stand in a bare string. -/
def isBareChar (ch : Char) : Bool :=
  ch.isAlphanum || ch == '_' || ch == '-' || ch == '.' || ch == '+'

namespace Cursor

/-- Read one character. -/
def readChar (c : Cursor) : Reading Char :=
  match c.after with
  | [] => ⟨.error (.endOfText c.position), c⟩
  | ch :: _ => ⟨.ok ch, c.skip⟩

/-- Read one character, which must be `ch`. -/
def expect (c : Cursor) (ch : Char) : Reading Unit :=
  if c.peek? = some ch then ⟨.ok (), c.skip⟩
  else ⟨.error (.unexpectedChar c.position s!"symbol '{ch}'" c.peek?), c⟩

/-! ### Numbers -/

/-- Read a number of the kind `k`, which `decode` makes out of its characters. -/
def readNumber (c : Cursor) (k : Kind) {α : Type} (decode : List Char → Option α) : Reading α :=
  let token := c.run isNumberChar
  if token.isEmpty then ⟨.error (.missingValue c.position k.name), c⟩
  else match decode token with
    | some number => ⟨.ok number, c.skipWhile isNumberChar⟩
    | none => ⟨.error (.wrongType c.position k.name (String.ofList token)), c⟩

/-- Read an integer of 32 bits. -/
def readInt32 (c : Cursor) : Reading Int32 :=
  c.readNumber .int32 fun token ↦ (Numeral.readInt? token).bind int32?

/-- Read an integer of 64 bits. -/
def readInt64 (c : Cursor) : Reading Int64 :=
  c.readNumber .int64 fun token ↦ (Numeral.readInt? token).bind int64?

/-- Read a floating-point number of 32 bits. -/
def readSingle (c : Cursor) : Reading Single :=
  c.readNumber .single BinaryFloat.read?

/-- Read a floating-point number of 64 bits. -/
def readDouble (c : Cursor) : Reading Double :=
  c.readNumber .double BinaryFloat.read?

/-! ### Strings -/

/-- Read a bare string. This read never fails. -/
def readBare (c : Cursor) : Reading String :=
  ⟨.ok (String.ofList (c.run isBareChar)), c.skipWhile isBareChar⟩

/-- Read a string in quote marks. -/
def readQuoted (c : Cursor) : Reading String :=
  match c.after with
  | [] => ⟨.error (.endOfText c.position), c⟩
  | '"' :: after =>
    let body := Text.readBody after
    let stop : Cursor := ⟨c.before ++ '"' :: body.used, body.rest⟩
    match body.outcome with
    | .ok cs => ⟨.ok (String.ofList cs), stop⟩
    | .error (.badEscape found) => ⟨.error (.invalidEscape stop.position found), stop⟩
    | .error .unterminated => ⟨.error (.unterminatedQuote stop.position), stop⟩
  | ch :: _ => ⟨.error (.unexpectedChar c.position "quote" (some ch)), c⟩

/-- Read a string in quote marks if a mark stands after the cursor, and a bare one otherwise. -/
def readString (c : Cursor) : Reading String :=
  if c.peek? = some '"' then c.readQuoted else c.readBare

/-- Read a boolean. -/
def readBoolean (c : Cursor) : Reading Bool :=
  let word := c.readString
  match word.outcome with
  | .error e => ⟨.error e, c⟩
  | .ok token =>
    if token = Value.booleanText true then ⟨.ok true, word.cursor⟩
    else if token = Value.booleanText false then ⟨.ok false, word.cursor⟩
    else if token = "" then ⟨.error (.missingValue c.position Kind.boolean.name), c⟩
    else ⟨.error (.wrongType c.position Kind.boolean.name token), c⟩

/-! ### Values of any kind -/

/-- Read what a value of the kind `k` holds. -/
def readContent (c : Cursor) : (k : Kind) → Reading k.Carrier
  | .string => c.readString
  | .boolean => c.readBoolean
  | .int32 => c.readInt32
  | .int64 => c.readInt64
  | .single => c.readSingle
  | .double => c.readDouble

/-- Read a value of the kind `k`. -/
def readValue (c : Cursor) (k : Kind) : Reading Value :=
  (c.readContent k).map (Value.of k)

end Cursor

end TypedLine
