import TypedLine.Text.CaseTable

/-!
# Lower-casing

The lower-case form of a text, by the full Unicode mapping. Every character but one is mapped on
its own: the capital sigma becomes the **final** sigma `ς` where a cased character stands before
it and none after it, case-ignorable characters in between not counting, and `σ` elsewhere. The
surroundings are those of the text as given, so a text is walked with what lies behind it.
-/

namespace TypedLine.Text

/-- The lower-case form of a character that stands alone. Only the capital I with a dot above
has a form of two characters. -/
def lowerChar (c : Char) : List Char :=
  if c = 'İ' then ['i', '\u0307']
  else match caseRuns.find? (·.covers c.toNat) with
    | some r => [Char.ofNat (r.apply c.toNat)]
    | none => [c]

/-- Whether the first character that is not case-ignorable is a cased one. -/
def meetsCased (cs : List Char) : Bool :=
  match cs.dropWhile caseIgnorable.holds with
  | [] => false
  | c :: _ => cased.holds c

/-- The form of a capital sigma with `behind` before it, nearest character first, and `ahead`
after it. -/
def lowerSigma (behind ahead : List Char) : Char :=
  if meetsCased behind && !meetsCased ahead then 'ς' else 'σ'

/-- The lower-case form of the rest of a text, with `behind` before it, nearest character
first. -/
def lowerAfter (behind : List Char) : List Char → List Char
  | [] => []
  | c :: ahead =>
    (if c = 'Σ' then [lowerSigma behind ahead] else lowerChar c) ++ lowerAfter (c :: behind) ahead

/-- The lower-case form of `s`. -/
def lowerCase (s : String) : String :=
  String.ofList (lowerAfter [] s.toList)

end TypedLine.Text
