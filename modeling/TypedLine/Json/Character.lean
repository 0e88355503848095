import TypedLine.Numeral

/-!
# The characters of JSON

Which characters may stand between the tokens of a JSON text, which need an escape inside a string
and what the escapes stand for, which runs of characters are integers, and where a number ends.
-/

namespace TypedLine.Json

/-! ### Whitespace -/

/-- Whether `ch` may stand between tokens. -/
def isSpace (ch : Char) : Bool :=
  ch == ' ' || ch == '\t' || ch == '\n' || ch == '\r'

/-- A text that may stand between tokens. -/
def IsGap (gap : List Char) : Prop :=
  ∀ ch ∈ gap, isSpace ch = true

theorem isGap_nil : IsGap [] := nofun

theorem isSpace_iff {ch : Char} : isSpace ch ↔ ch ∈ [' ', '\t', '\n', '\r'] := by
  simp [isSpace, or_assoc]

/-- A gap is skipped as a whole. -/
theorem IsGap.dropWhile_append {gap : List Char} (hgap : IsGap gap) (cs : List Char) :
    (gap ++ cs).dropWhile isSpace = cs.dropWhile isSpace := by
  rw [List.dropWhile_append_of_pos hgap]

/-! ### Escapes -/

/-- Whether `ch` must be escaped inside a string: the quote mark, the backslash and the control
characters. -/
def needsEscape (ch : Char) : Bool :=
  ch == '"' || ch == '\\' || ch.toNat < 0x20

/-- The character that an escape of one letter stands for. -/
def shortEscape? : Char → Option Char
  | '"' => some '"'
  | '\\' => some '\\'
  | '/' => some '/'
  | 'b' => some '\x08'
  | 'f' => some '\x0c'
  | 'n' => some '\n'
  | 'r' => some '\r'
  | 't' => some '\t'
  | _ => none

/-- The value of a hexadecimal digit. -/
def hexDigit? (ch : Char) : Option Nat :=
  if ch.isDigit then some (ch.toNat - '0'.toNat)
  else if 'a' ≤ ch ∧ ch ≤ 'f' then some (ch.toNat - 'a'.toNat + 10)
  else if 'A' ≤ ch ∧ ch ≤ 'F' then some (ch.toNat - 'A'.toNat + 10)
  else none

/-- The value of four hexadecimal digits. -/
def hexUnit? (a b c d : Char) : Option Nat := do
  let a ← hexDigit? a
  let b ← hexDigit? b
  let c ← hexDigit? c
  let d ← hexDigit? d
  return ((a * 16 + b) * 16 + c) * 16 + d

/-- A hexadecimal digit in lower case. -/
def hexChar (n : Nat) : Char :=
  Nat.digitChar n

/-- Whether `n` is one half of a character that takes two units of 16 bits. -/
def isHalf (n : Nat) : Bool :=
  0xD800 ≤ n && n < 0xE000

theorem hexDigit?_hexChar : ∀ n < 16, hexDigit? (hexChar n) = some n := by
  decide

/-- The escape of a control character names its code point. -/
theorem hexUnit?_hexChar {n : Nat} (h : n < 0x100) :
    hexUnit? '0' '0' (hexChar (n / 16)) (hexChar (n % 16)) = some n := by
  have hzero : hexDigit? '0' = some 0 := by decide
  have hhigh := hexDigit?_hexChar (n / 16) (by omega)
  have hlow := hexDigit?_hexChar (n % 16) (by omega)
  rw [hexUnit?, hzero, hhigh, hlow]
  show some (((0 * 16 + 0) * 16 + n / 16) * 16 + n % 16) = some n
  congr 1
  omega

/-! ### Numbers -/

/-- The text is an **integer**: digits that start with no zero, or a zero alone, and a minus sign
before what is negative. -/
inductive IsInteger : List Char → Int → Prop
  | zero : IsInteger ['0'] 0
  | plain {ds : List Char} :
    Numeral.isDigits ds → ds.head? ≠ some '0' → IsInteger ds (Numeral.ofDigits ds)
  | minus {ds : List Char} :
    Numeral.isDigits ds → ds.head? ≠ some '0' → IsInteger ('-' :: ds) (-(Numeral.ofDigits ds : Int))

/-- A number that comes before `rest` ends there: `rest` does not go on with a digit, a point or an
exponent. -/
def EndsNumber (rest : List Char) : Prop :=
  ∀ ch ∈ rest.head?, ch.isDigit = false ∧ ch ≠ '.' ∧ ch ≠ 'e' ∧ ch ≠ 'E'

end TypedLine.Json
