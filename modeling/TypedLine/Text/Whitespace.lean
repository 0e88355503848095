import TypedLine.Text.CharClass

/-!
# Whitespace

The Unicode property `White_Space`, given by its ranges of code points, with the two operations
that rest on it: a text is **blank** when it has no other character, and **trimming** takes the
whitespace off both ends.
-/

namespace TypedLine.Text

/-- The class of the characters with the property `White_Space`. -/
def whiteSpace : CharClass :=
  [(0x0009, 0x000D), (0x0020, 0x0020), (0x0085, 0x0085), (0x00A0, 0x00A0), (0x1680, 0x1680),
    (0x2000, 0x200A), (0x2028, 0x2029), (0x202F, 0x202F), (0x205F, 0x205F), (0x3000, 0x3000)]

/-- Whether `c` has the property `White_Space`. -/
def isSpace (c : Char) : Bool :=
  whiteSpace.holds c

/-- Take the whitespace off the front. -/
def trimStart (cs : List Char) : List Char :=
  cs.dropWhile isSpace

/-- Take the whitespace off the end. -/
def trimEnd (cs : List Char) : List Char :=
  (cs.reverse.dropWhile isSpace).reverse

/-- Take the whitespace off both ends. -/
def trim (s : String) : String :=
  String.ofList (trimEnd (trimStart s.toList))

/-- Whether `s` holds nothing but whitespace. -/
def isBlank (s : String) : Bool :=
  s.toList.all isSpace

theorem isBlank_iff {s : String} : isBlank s ↔ ∀ ch ∈ s.toList, isSpace ch = true := by
  rw [isBlank, List.all_eq_true]

theorem isBlank_eq_false_iff {s : String} :
    isBlank s = false ↔ ∃ ch ∈ s.toList, isSpace ch = false := by
  simp [isBlank]

end TypedLine.Text
