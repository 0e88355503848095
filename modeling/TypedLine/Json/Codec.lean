import TypedLine.Integer
import TypedLine.Json.Tree
import TypedLine.JsonCodec

/-!
# A JSON codec

`JsonCodec.standard` keeps the rules of a JSON codec and decides what they leave open. A text is
read as a JSON value first, and what is stored is then taken from the value.

Reading is more generous than writing. A record may have members of other names, and may be an array
of its fields; a name may be an object that maps the name to `null`. A number with a point or an
exponent is no integer, and a floating-point number that is not finite is written as `null`.
-/

namespace TypedLine

namespace Json

/-! ### Reading parts -/

/-- A text. -/
def text? : Json → Option String
  | .string text => text
  | _ => none

/-- A truth value. -/
def boolean? : Json → Option Bool
  | .boolean truth => some truth
  | _ => none

/-- A name on its own. -/
def name? : Json → Option String
  | .string text => text
  | .object [(name, .null)] => name
  | _ => none

/-- An integer. -/
def integer? : Json → Option Int
  | .number q =>
    match q.quantity? with
    | some (.integer n) => some n
    | _ => none
  | _ => none

/-- A floating-point number of a format. An integer is rounded to the format directly, any other
number by way of a double. -/
def float? {f : FloatFormat} : Json → Option (BinaryFloat f)
  | .number q =>
    match q.quantity? with
    | some (.integer n) => some (.ofRatio (n < 0) n.natAbs 1)
    | some (.floating x) => some x.convert
    | none => none
  | _ => none

/-- A value of the kind `k`. -/
def scalar? (tree : Json) : (k : Kind) → Option Value
  | .string => tree.text?.map .string
  | .boolean => tree.boolean?.map .boolean
  | .int32 => (tree.integer?.bind int32?).map .int32
  | .int64 => (tree.integer?.bind int64?).map .int64
  | .single => tree.float?.map .single
  | .double => tree.float?.map .double

/-- A part of the given shape. -/
def part? : Shape → Json → Option Part
  | .scalar k, tree => (tree.scalar? k).map .scalar
  | .optional _, .null => some .null
  | .optional k, tree => (tree.scalar? k).map .scalar
  | .names names, tree => (tree.name?.filter (· ∈ names)).map .name
  | .tagged cases, .object [(some name, tree)] =>
    (cases.lookup name).bind fun k ↦ (tree.scalar? k).map (.tagged name)
  | .tagged _, _ => none

/-! ### Records -/

/-- The fields of a record from the members that are left, some fields having been read. No name of
a field may come twice, and every name must be a text. -/
def fieldsFrom? (fields : List (String × Shape)) :
    (given : List (String × Part)) → List (Option String × Json) → Option (List (String × Part))
  | given, [] => Storable.complete? fields given
  | _, (none, _) :: _ => none
  | given, (some name, tree) :: members =>
    match fields.lookup name with
    | none => fieldsFrom? fields given members
    | some shape =>
      if (given.lookup name).isSome then none
      else (tree.part? shape).bind fun p ↦ fieldsFrom? fields (given ++ [(name, p)]) members

/-- The fields of a record, which is an object or an array. -/
def record? (fields : List (String × Shape)) : Json → Option (List (String × Part))
  | .object members => fieldsFrom? fields [] members
  | .array elements =>
    if elements.length = fields.length then
      (fields.zip elements).mapM fun ((name, shape), tree) ↦
        (tree.part? shape).map fun p ↦ (name, p)
    else none
  | _ => none

/-! ### Writing -/

/-- The written form of a floating-point number. -/
def floatText (layout : Layout) {f : FloatFormat} (x : BinaryFloat f) : List Char :=
  match Number.ofFloat? layout x with
  | some q => q.text
  | none => "null".toList

/-- The written form of a value. -/
def scalarText : Value → List Char
  | .string text => stringText text
  | .boolean truth => (Value.booleanText truth).toList
  | .int32 n => Numeral.showInt n.toInt
  | .int64 n => Numeral.showInt n.toInt
  | .single x => floatText .single x
  | .double x => floatText .double x

/-- The written form of a part. -/
def partText : Part → List Char
  | .scalar v => scalarText v
  | .null => "null".toList
  | .name name => stringText name
  | .tagged name v => '\x7b' :: (stringText name ++ ':' :: scalarText v ++ ['\x7d'])

/-- The written form of what something stored consists of. -/
def contentText : Content → List Char
  | .part p => partText p
  | .record data =>
    '\x7b' :: ([','].intercalate (data.map fun m ↦ stringText m.1 ++ ':' :: partText m.2) ++
      ['\x7d'])

end Json

/-- A codec that reads a text as a JSON value first. -/
def JsonCodec.standard : JsonCodec where
  write a := String.ofList (Json.contentText (Storable.content a))
  read? {α} _ s :=
    (Json.readTree? s.toList).bind fun (tree, rest) ↦
      if rest.all Json.isSpace then
        match Storable.schema α with
        | .part shape => (tree.part? shape).bind fun p ↦ Storable.ofContent? (.part p)
        | .record fields => (tree.record? fields).bind fun data ↦ Storable.ofContent? (.record data)
      else none
  escape := Json.escape
  partText := Json.partText
  readText? cs :=
    (Json.readString? cs).bind fun (us, rest) ↦ (Json.joinHalves? us).map fun text ↦ (text, rest)
  readPart? shape cs :=
    (Json.readTree? cs).bind fun (tree, rest) ↦ (tree.part? shape).map fun p ↦ (p, rest)
  readFields? fields given cs :=
    (Json.readMembers? cs).bind fun (members, rest) ↦
      (Json.fieldsFrom? fields given members).map fun data ↦ (data, rest)

/-- The text of something stored. -/
def Storable.write {α : Type} [Storable α] (a : α) : String :=
  JsonCodec.standard.write a

/-- Read something stored from a text. -/
def Storable.read? {α : Type} [Storable α] (s : String) : Option α :=
  JsonCodec.standard.read? s

end TypedLine
