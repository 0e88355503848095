import TypedLine.Json.Character
import TypedLine.Storable

/-!
# JSON codecs

What is stored is written as a JSON text and read from one by a codec that is told how the types are
declared (`Storable`). The codec is not written here. What is known of it are the rules that its
documentation gives (`JsonCodec.Lawful`): how each part is written, without whitespace and with no
more escapes than there must be, and how a text is read, from left to right and with whitespace
wherever it may be. Reading a record takes one member after the other: it is told the fields that
have been read, refuses a name that is given twice, and refuses in the end a record without one of
its fields, unless that one is optional.

Nothing is said of how floating-point numbers are written, of members with other names, and of which
error is made of a text that is not read. One codec that keeps the rules is `JsonCodec.standard`.
-/

namespace TypedLine

open Json

/-- What a field that has no member is read as. -/
def Shape.ifMissing? : Shape → Option Part
  | .optional _ => some .null
  | _ => none

/-- The fields of a record in the order of their declaration, from the members that have been read
in some order. -/
def Storable.complete? (fields : List (String × Shape)) (given : List (String × Part)) :
    Option (List (String × Part)) :=
  fields.mapM fun f ↦ ((given.lookup f.1).or f.2.ifMissing?).map fun p ↦ (f.1, p)

/-- A **JSON codec**. -/
structure JsonCodec where
  /-- The text of something stored. -/
  write {α : Type} [Storable α] : α → String
  /-- Read something stored from a text. -/
  read? {α : Type} [Storable α] : String → Option α
  /-- The written form of a character of a string. -/
  escape : Char → List Char
  /-- The written form of a part. -/
  partText : Part → List Char
  /-- Read the characters of a string up to its closing mark; also the text behind it. -/
  readText? : List Char → Option (List Char × List Char)
  /-- Read a part of the given shape from the front; also the text behind it. -/
  readPart? : Shape → List Char → Option (Part × List Char)
  /-- Read the members of a record from a name on, some of which have been read, up to the closing
  brace: the fields; also the text behind the brace. -/
  readFields? : (fields : List (String × Shape)) → (given : List (String × Part)) → List Char →
    Option (List (String × Part) × List Char)

namespace JsonCodec

/-- The written form of a member of an object. -/
def memberText (c : JsonCodec) (m : String × Part) : List Char :=
  c.partText (.name m.1) ++ ':' :: c.partText m.2

/-- **The documented behaviour** of a JSON codec. -/
structure Lawful (c : JsonCodec) : Prop where
  /-- What needs no escape is written as it is. -/
  escape_self {ch : Char} : needsEscape ch = false → c.escape ch = [ch]
  /-- What needs an escape is written as a letter that stands for it, or by its code point. -/
  escape_of_needsEscape {ch : Char} : needsEscape ch = true →
    (∃ e, shortEscape? e = some ch ∧ c.escape ch = ['\\', e]) ∨
      c.escape ch = ['\\', 'u', '0', '0', hexChar (ch.toNat / 16), hexChar (ch.toNat % 16)]
  /-- A string is written between quote marks. -/
  partText_string (text : String) :
    c.partText (.scalar (.string text)) = '"' :: (text.toList.flatMap c.escape ++ ['"'])
  /-- A truth value is written as a word. -/
  partText_boolean (truth : Bool) :
    c.partText (.scalar (.boolean truth)) = (Value.booleanText truth).toList
  /-- An integer of 32 bits is written in decimal. -/
  partText_int32 (n : Int32) : c.partText (.scalar (.int32 n)) = Numeral.showInt n.toInt
  /-- An integer of 64 bits is written in decimal. -/
  partText_int64 (n : Int64) : c.partText (.scalar (.int64 n)) = Numeral.showInt n.toInt
  /-- What is not there is written as `null`. -/
  partText_null : c.partText .null = "null".toList
  /-- A name is written as a string. -/
  partText_name (name : String) : c.partText (.name name) = c.partText (.scalar (.string name))
  /-- What goes with a name is written as the one member of an object. -/
  partText_tagged (name : String) (v : Value) :
    c.partText (.tagged name v) = '\x7b' :: (c.memberText (name, .scalar v) ++ ['\x7d'])
  /-- What has a single part is written as the part. -/
  write_part {α : Type} [Storable α] {a : α} {p : Part} :
    Storable.content a = .part p → c.write a = String.ofList (c.partText p)
  /-- A record is written as an object, with the fields in the order of their declaration. -/
  write_record {α : Type} [Storable α] {a : α} {data : List (String × Part)} :
    Storable.content a = .record data →
      c.write a = String.ofList
        ('\x7b' :: ([','].intercalate (data.map c.memberText) ++ ['\x7d']))
  /-- A string ends with the next quote mark. -/
  text_end {cs : List Char} : c.readText? ('"' :: cs) = some ([], cs)
  /-- A character that needs no escape stands for itself. -/
  text_self {ch : Char} {cs : List Char} : needsEscape ch = false →
    c.readText? (ch :: cs) = (c.readText? cs).map fun r ↦ (ch :: r.1, r.2)
  /-- A letter behind a backslash stands for a character. -/
  text_short {e ch : Char} {cs : List Char} : shortEscape? e = some ch →
    c.readText? ('\\' :: e :: cs) = (c.readText? cs).map fun r ↦ (ch :: r.1, r.2)
  /-- Four hexadecimal digits name a code point. -/
  text_unicode {h₁ h₂ h₃ h₄ : Char} {n : Nat} {cs : List Char} :
    hexUnit? h₁ h₂ h₃ h₄ = some n → isHalf n = false →
      c.readText? ('\\' :: 'u' :: h₁ :: h₂ :: h₃ :: h₄ :: cs) =
        (c.readText? cs).map fun r ↦ (Char.ofNat n :: r.1, r.2)
  /-- Whitespace before a part is skipped. -/
  space {shape : Shape} {ch : Char} {cs : List Char} : isSpace ch = true →
    c.readPart? shape (ch :: cs) = c.readPart? shape cs
  /-- A string is read from behind its opening mark. -/
  string {cs : List Char} :
    c.readPart? (.scalar .string) ('"' :: cs) =
      (c.readText? cs).map fun r ↦ (.scalar (.string (String.ofList r.1)), r.2)
  /-- A truth value is one of two words. -/
  boolean {truth : Bool} {cs : List Char} :
    c.readPart? (.scalar .boolean) ((Value.booleanText truth).toList ++ cs) =
      some (.scalar (.boolean truth), cs)
  /-- An integer that fits is read into 32 bits. -/
  int32 {numeral cs : List Char} {n : Int32} : IsInteger numeral n.toInt → EndsNumber cs →
    c.readPart? (.scalar .int32) (numeral ++ cs) = some (.scalar (.int32 n), cs)
  /-- An integer that fits is read into 64 bits. -/
  int64 {numeral cs : List Char} {n : Int64} : IsInteger numeral n.toInt → EndsNumber cs →
    c.readPart? (.scalar .int64) (numeral ++ cs) = some (.scalar (.int64 n), cs)
  /-- Where something may be missing, `null` says that it is. -/
  null {k : Kind} {cs : List Char} :
    c.readPart? (.optional k) ("null".toList ++ cs) = some (.null, cs)
  /-- What does not start as `null` does is there. -/
  present {k : Kind} {cs : List Char} : (cs.dropWhile isSpace).head? ≠ some 'n' →
    c.readPart? (.optional k) cs = c.readPart? (.scalar k) cs
  /-- A name is read from a string. -/
  name {names : List String} {name : String} {cs rest : List Char} :
    name ∈ names → c.readText? cs = some (name.toList, rest) →
      c.readPart? (.names names) ('"' :: cs) = some (.name name, rest)
  /-- A name and what goes with it are read from the one member of an object. -/
  tagged {cases : List (String × Kind)} {name : String} {k : Kind} {v : Value}
    {gap₀ gap₁ gap₂ cs value rest : List Char} :
    cases.lookup name = some k → IsGap gap₀ → IsGap gap₁ → IsGap gap₂ →
      c.readText? cs = some (name.toList, gap₁ ++ ':' :: value) →
      c.readPart? (.scalar k) value = some (.scalar v, gap₂ ++ '\x7d' :: rest) →
        c.readPart? (.tagged cases) ('\x7b' :: (gap₀ ++ '"' :: cs)) = some (.tagged name v, rest)
  /-- A member whose name is that of a field gives the field, and reading goes on behind the
  comma. -/
  field {fields : List (String × Shape)} {given : List (String × Part)} {name : String}
    {shape : Shape} {p : Part} {gap₁ gap₂ gap₃ cs value rest : List Char} :
    fields.lookup name = some shape → given.lookup name = none →
      IsGap gap₁ → IsGap gap₂ → IsGap gap₃ →
      c.readText? cs = some (name.toList, gap₁ ++ ':' :: value) →
      c.readPart? shape value = some (p, gap₂ ++ ',' :: (gap₃ ++ '"' :: rest)) →
        c.readFields? fields given ('"' :: cs) =
          c.readFields? fields (given ++ [(name, p)]) ('"' :: rest)
  /-- Behind the closing brace the record is complete, if no field is missing that must be there. -/
  last {fields : List (String × Shape)} {given : List (String × Part)} {name : String}
    {shape : Shape} {p : Part} {gap₁ gap₂ cs value rest : List Char} :
    fields.lookup name = some shape → given.lookup name = none → IsGap gap₁ → IsGap gap₂ →
      c.readText? cs = some (name.toList, gap₁ ++ ':' :: value) →
      c.readPart? shape value = some (p, gap₂ ++ '\x7d' :: rest) →
        c.readFields? fields given ('"' :: cs) =
          (Storable.complete? fields (given ++ [(name, p)])).map fun data ↦ (data, rest)
  /-- A field is given once. -/
  duplicate {fields : List (String × Shape)} {given : List (String × Part)} {name : String}
    {shape : Shape} {p : Part} {gap cs value : List Char} :
    fields.lookup name = some shape → given.lookup name = some p → IsGap gap →
      c.readText? cs = some (name.toList, gap ++ ':' :: value) →
        c.readFields? fields given ('"' :: cs) = none
  /-- A text holds one thing, with nothing but whitespace behind it. -/
  read_part {α : Type} [Storable α] {a : α} {shape : Shape} {p : Part} {s : String}
    {gap : List Char} :
    Storable.schema α = .part shape → Storable.content a = .part p →
      c.readPart? shape s.toList = some (p, gap) → IsGap gap → c.read? s = some a
  /-- A record is read from an object. -/
  read_record {α : Type} [Storable α] {a : α} {fields : List (String × Shape)}
    {data : List (String × Part)} {s : String} {gap₀ gap₁ gap₂ cs : List Char} :
    Storable.schema α = .record fields → Storable.content a = .record data →
      IsGap gap₀ → IsGap gap₁ → s.toList = gap₀ ++ '\x7b' :: (gap₁ ++ '"' :: cs) →
      c.readFields? fields [] ('"' :: cs) = some (data, gap₂) → IsGap gap₂ → c.read? s = some a

end JsonCodec

end TypedLine
