import TypedLine.Json.Token

/-!
# JSON values

A JSON value is a tree, which is read from the front of a text (`Json.readTree?`). The members of an
object keep their order, and a name may occur more than once.

A value starts with the token that comes next, and every reader is told this token and the text
behind it. It leaves a text that is no longer than the one it was given. This fact is part of what
it gives (`NoLonger`), because it is what the recursion ends by.
-/

namespace TypedLine

/-- A JSON value. -/
inductive Json where
  | null
  | boolean (truth : Bool)
  | number (q : Json.Number)
  | string (text : Option String)
  | array (elements : List Json)
  | object (members : List (Option String × Json))
  deriving Repr

namespace Json

/-- A text that is shorter than `cs`. -/
abbrev Shorter (cs : List Char) : Type :=
  { rest : List Char // rest.length < cs.length }

/-- A text that is no longer than `cs`. -/
abbrev NoLonger (cs : List Char) : Type :=
  { rest : List Char // rest.length ≤ cs.length }

/-- What is behind something shorter is shorter. -/
def Shorter.behind {cs : List Char} (rest : Shorter cs) (behind : NoLonger rest.1) : Shorter cs :=
  ⟨behind.1, Nat.lt_of_le_of_lt behind.2 rest.2⟩

/-- What is shorter is no longer. -/
def Shorter.noLonger {cs : List Char} (rest : Shorter cs) : NoLonger cs :=
  ⟨rest.1, Nat.le_of_lt rest.2⟩

/-- What is shorter than something no longer is shorter. -/
def NoLonger.behind {cs : List Char} (rest : NoLonger cs) (behind : Shorter rest.1) : Shorter cs :=
  ⟨behind.1, Nat.lt_of_lt_of_le behind.2 rest.2⟩

/-- Read the next token. The text behind it is shorter. -/
def readNext (cs : List Char) : Option (Token × Shorter cs) :=
  (readNext? cs).attach.map fun ⟨r, h⟩ ↦
    (r.1, ⟨r.2, length_lt_of_readNext? h⟩)

mutual

/-- Read the value that starts with the token `t`. -/
def readTree (t : Token) (cs : List Char) : Option (Json × NoLonger cs) :=
  match t with
  | .null => some (.null, ⟨cs, Nat.le_refl _⟩)
  | .boolean truth => some (.boolean truth, ⟨cs, Nat.le_refl _⟩)
  | .number q => some (.number q, ⟨cs, Nat.le_refl _⟩)
  | .string text => some (.string text, ⟨cs, Nat.le_refl _⟩)
  | .mark ch =>
    (readNext cs).bind fun (t, rest) ↦
      have := rest.2
      if ch = '[' then
        if t = .mark ']' then some (.array [], rest.noLonger)
        else (readElements t rest.1).map fun (elements, behind) ↦
          (.array elements, (rest.behind behind).noLonger)
      else if ch = '\x7b' then
        if t = .mark '\x7d' then some (.object [], rest.noLonger)
        else (readMembers t rest.1).map fun (members, behind) ↦
          (.object members, (rest.behind behind).noLonger)
      else none
termination_by (cs.length, 0)

/-- Read the elements of an array, the first of which starts with the token `t`, and the closing
bracket. -/
def readElements (t : Token) (cs : List Char) : Option (List Json × NoLonger cs) :=
  (readTree t cs).bind fun (element, rest) ↦
    (readNext rest.1).bind fun (t, behind) ↦
      let rest := rest.behind behind
      if t = .mark ',' then
        (readNext rest.1).bind fun (t, behind) ↦
          let rest := rest.behind behind.noLonger
          have := rest.2
          (readElements t rest.1).map fun (elements, behind) ↦
            (element :: elements, (rest.behind behind).noLonger)
      else if t = .mark ']' then some ([element], rest.noLonger)
      else none
termination_by (cs.length, 1)

/-- Read the members of an object, the first of which starts with the token `t`, and the closing
brace. -/
def readMembers (t : Token) (cs : List Char) :
    Option (List (Option String × Json) × NoLonger cs) :=
  match t with
  | .string name =>
    (readNext cs).bind fun (t, rest) ↦
      if t = .mark ':' then
        (readNext rest.1).bind fun (t, behind) ↦
          let rest := rest.behind behind.noLonger
          have := rest.2
          (readTree t rest.1).bind fun (tree, behind) ↦
            let rest := rest.behind behind
            (readNext rest.1).bind fun (t, behind) ↦
              let rest := rest.behind behind.noLonger
              if t = .mark ',' then
                (readNext rest.1).bind fun (t, behind) ↦
                  let rest := rest.behind behind.noLonger
                  have := rest.2
                  (readMembers t rest.1).map fun (members, behind) ↦
                    ((name, tree) :: members, (rest.behind behind).noLonger)
              else if t = .mark '\x7d' then some ([(name, tree)], rest.noLonger)
              else none
      else none
  | _ => none
termination_by (cs.length, 0)

end

/-- Read one value from the front of a text; also the text behind it. -/
def readTree? (cs : List Char) : Option (Json × List Char) :=
  (readNext? cs).bind fun (t, rest) ↦
    (readTree t rest).map fun (tree, behind) ↦ (tree, behind.1)

/-- Read the members of an object, at least one, and the closing brace; also the text behind it. -/
def readMembers? (cs : List Char) : Option (List (Option String × Json) × List Char) :=
  (readNext? cs).bind fun (t, rest) ↦
    (readMembers t rest).map fun (members, behind) ↦ (members, behind.1)

end Json

end TypedLine
