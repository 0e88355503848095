import Mathlib.Data.List.Basic
import TypedLine.JsonCodec
import TypedLine.Proofs.Json.Number

/-!
# How parts are spelled

What is stored has many spellings: whitespace may stand between the tokens, any character of a
string may be escaped, and the members of a record may come in any order. A spelling is told here
from left to right, by the text that it starts and by the text that is left behind it (`SpellsText`,
`SpellsPart`, `SpellsMembers`).

What a codec writes for a part is one of the spellings of the part
(`JsonCodec.Lawful.spellsPart_partText`), and from each of its spellings a codec reads the part
(`JsonCodec.Lawful.readPart?_of_spellsPart`), if its rules say enough about parts of this shape
(`Part.Fits`): it must be no floating-point number.
-/

namespace TypedLine

-- Powers are those of the core library, also where other powers are at hand.
attribute [local instance (high)] instPowNat

namespace Json

/-! ### Spellings -/

/-- The text starts with the characters of a string, each of them plain or escaped, and the closing
mark. -/
inductive SpellsText : (text cs rest : List Char) → Prop
  | nil {rest : List Char} : SpellsText [] ('"' :: rest) rest
  | self {ch : Char} {text cs rest : List Char} :
    needsEscape ch = false → SpellsText text cs rest → SpellsText (ch :: text) (ch :: cs) rest
  | short {e ch : Char} {text cs rest : List Char} :
    shortEscape? e = some ch → SpellsText text cs rest →
      SpellsText (ch :: text) ('\\' :: e :: cs) rest
  | unicode {h₁ h₂ h₃ h₄ : Char} {n : Nat} {text cs rest : List Char} :
    hexUnit? h₁ h₂ h₃ h₄ = some n → isHalf n = false → SpellsText text cs rest →
      SpellsText (Char.ofNat n :: text) ('\\' :: 'u' :: h₁ :: h₂ :: h₃ :: h₄ :: cs) rest

/-- The text starts with whitespace, if any, and a part. -/
inductive SpellsPart : Part → (cs rest : List Char) → Prop
  | space {p : Part} {ch : Char} {cs rest : List Char} :
    isSpace ch = true → SpellsPart p cs rest → SpellsPart p (ch :: cs) rest
  | string {text : String} {cs rest : List Char} :
    SpellsText text.toList cs rest → SpellsPart (.scalar (.string text)) ('"' :: cs) rest
  | boolean (truth : Bool) {rest : List Char} :
    SpellsPart (.scalar (.boolean truth)) ((Value.booleanText truth).toList ++ rest) rest
  | int32 {n : Int32} {numeral rest : List Char} :
    IsInteger numeral n.toInt → EndsNumber rest →
      SpellsPart (.scalar (.int32 n)) (numeral ++ rest) rest
  | int64 {n : Int64} {numeral rest : List Char} :
    IsInteger numeral n.toInt → EndsNumber rest →
      SpellsPart (.scalar (.int64 n)) (numeral ++ rest) rest
  | null {rest : List Char} : SpellsPart .null ("null".toList ++ rest) rest
  | name {name : String} {cs rest : List Char} :
    SpellsText name.toList cs rest → SpellsPart (.name name) ('"' :: cs) rest
  | tagged {name : String} {v : Value} {gap₀ gap₁ gap₂ cs value rest : List Char} :
    IsGap gap₀ → IsGap gap₁ → IsGap gap₂ → SpellsText name.toList cs (gap₁ ++ ':' :: value) →
      SpellsPart (.scalar v) value (gap₂ ++ '\x7d' :: rest) →
        SpellsPart (.tagged name v) ('\x7b' :: (gap₀ ++ '"' :: cs)) rest

/-- From behind the first quote mark on the text spells members of an object, in the given order,
and the closing brace. -/
inductive SpellsMembers : List (String × Part) → (cs rest : List Char) → Prop
  | last {name : String} {p : Part} {gap₁ gap₂ cs value rest : List Char} :
    IsGap gap₁ → IsGap gap₂ → SpellsText name.toList cs (gap₁ ++ ':' :: value) →
      SpellsPart p value (gap₂ ++ '\x7d' :: rest) → SpellsMembers [(name, p)] cs rest
  | cons {name : String} {p : Part} {members : List (String × Part)}
    {gap₁ gap₂ gap₃ cs value more rest : List Char} :
    IsGap gap₁ → IsGap gap₂ → IsGap gap₃ → SpellsText name.toList cs (gap₁ ++ ':' :: value) →
      SpellsPart p value (gap₂ ++ ',' :: (gap₃ ++ '"' :: more)) → SpellsMembers members more rest →
        SpellsMembers ((name, p) :: members) cs rest

/-! ### Where parts start and end -/

/-- What is escaped comes early among the characters. -/
theorem toNat_lt_of_needsEscape {ch : Char} (h : needsEscape ch) : ch.toNat < 0x80 := by
  simp only [needsEscape, Bool.or_eq_true, beq_iff_eq, decide_eq_true_eq] at h
  obtain (rfl | rfl) | h := h
  · decide
  · decide
  · omega

/-- A number ends before a mark that is none of its own. -/
theorem endsNumber_brace (rest : List Char) : EndsNumber ('\x7d' :: rest) := by
  rintro ch ⟨⟩
  decide

theorem endsNumber_comma (rest : List Char) : EndsNumber (',' :: rest) := by
  rintro ch ⟨⟩
  decide

/-- No integer starts as the word `null` does. -/
theorem IsInteger.head?_ne {numeral : List Char} {n : Int} (h : IsInteger numeral n)
    (rest : List Char) : ((numeral ++ rest).dropWhile isSpace).head? ≠ some 'n' := by
  obtain ⟨ch, cs, rfl, hch⟩ := h.exists_eq_cons
  rw [List.cons_append, List.dropWhile_cons_of_neg (by rw [isSpace_eq_false_of_number hch]; decide)]
  rintro ⟨⟩
  exact absurd hch (by decide)

/-- No value starts as the word `null` does. -/
theorem SpellsPart.head?_ne {v : Value} {cs rest : List Char} (h : SpellsPart (.scalar v) cs rest) :
    (cs.dropWhile isSpace).head? ≠ some 'n' := by
  generalize hp : Part.scalar v = p at h
  induction h with
  | space hch _ ih =>
    rw [List.dropWhile_cons_of_pos hch]
    exact ih hp
  | string _ => simp [isSpace]
  | boolean truth => cases truth <;> simp [Value.booleanText, isSpace]
  | int32 hnumeral _ => exact hnumeral.head?_ne _
  | int64 hnumeral _ => exact hnumeral.head?_ne _
  | _ => cases hp

end Json

open Json

/-- The part is of the given shape, and no floating-point number. -/
inductive Part.Fits : Shape → Part → Prop
  | string (text : String) : Fits (.scalar .string) (.scalar (.string text))
  | boolean (truth : Bool) : Fits (.scalar .boolean) (.scalar (.boolean truth))
  | int32 (n : Int32) : Fits (.scalar .int32) (.scalar (.int32 n))
  | int64 (n : Int64) : Fits (.scalar .int64) (.scalar (.int64 n))
  | null (k : Kind) : Fits (.optional k) .null
  | present {k : Kind} {v : Value} :
    Fits (.scalar k) (.scalar v) → Fits (.optional k) (.scalar v)
  | name {names : List String} {name : String} : name ∈ names → Fits (.names names) (.name name)
  | tagged {cases : List (String × Kind)} {name : String} {k : Kind} {v : Value} :
    cases.lookup name = some k → Fits (.scalar k) (.scalar v) →
      Fits (.tagged cases) (.tagged name v)

namespace JsonCodec.Lawful

variable {c : JsonCodec} {p : Part} {shape : Shape} {k : Kind} {v : Value} {cs rest : List Char}

/-! ### Writing -/

/-- The characters of a string are spelled as they are written. -/
theorem spellsText_flatMap_escape (hc : c.Lawful) (text rest : List Char) :
    SpellsText text (text.flatMap c.escape ++ '"' :: rest) rest := by
  induction text with
  | nil => exact .nil
  | cons ch text ih =>
    rw [List.flatMap_cons, List.append_assoc]
    rcases hneeds : needsEscape ch with - | -
    · rw [hc.escape_self hneeds]
      exact .self hneeds ih
    · obtain ⟨e, he, hescape⟩ | hescape := hc.escape_of_needsEscape hneeds
      · rw [hescape]
        exact .short he ih
      · have hlt := toNat_lt_of_needsEscape hneeds
        have hhalf : isHalf ch.toNat = false := by simp [isHalf]; omega
        have h := SpellsText.unicode (hexUnit?_hexChar (by omega)) hhalf ih
        rw [Char.ofNat_toNat] at h
        rw [hescape]
        exact h

theorem partText_string_append (hc : c.Lawful) (text : String) (rest : List Char) :
    c.partText (.scalar (.string text)) ++ rest =
      '"' :: (text.toList.flatMap c.escape ++ '"' :: rest) := by
  rw [hc.partText_string, List.cons_append, List.append_assoc, List.singleton_append]

/-- A written member starts with its name. -/
theorem memberText_append (hc : c.Lawful) (m : String × Part) (rest : List Char) :
    c.memberText m ++ rest =
      '"' :: (m.1.toList.flatMap c.escape ++ '"' :: ':' :: (c.partText m.2 ++ rest)) := by
  rw [memberText, List.append_assoc, hc.partText_name, partText_string_append hc, List.cons_append]

/-- **What is written for a part spells the part**, where it ends. -/
theorem spellsPart_partText (hc : c.Lawful) (hp : p.Fits shape) (hrest : EndsNumber rest) :
    SpellsPart p (c.partText p ++ rest) rest := by
  induction hp generalizing rest with
  | string text =>
    rw [partText_string_append hc]
    exact .string (hc.spellsText_flatMap_escape _ _)
  | boolean truth =>
    rw [hc.partText_boolean]
    exact .boolean truth
  | int32 n =>
    rw [hc.partText_int32]
    exact .int32 (isInteger_showInt n.toInt) hrest
  | int64 n =>
    rw [hc.partText_int64]
    exact .int64 (isInteger_showInt n.toInt) hrest
  | null k =>
    rw [hc.partText_null]
    exact .null
  | present _ ih => exact ih hrest
  | name _ =>
    rw [hc.partText_name, partText_string_append hc]
    exact .name (hc.spellsText_flatMap_escape _ _)
  | tagged _ _ ih =>
    rw [hc.partText_tagged, List.cons_append, List.append_assoc, List.singleton_append,
      memberText_append hc]
    exact .tagged isGap_nil isGap_nil isGap_nil (hc.spellsText_flatMap_escape _ _)
      (ih (endsNumber_brace rest))

/-! ### Reading -/

/-- The characters of a string are read from each of their spellings. -/
theorem readText?_of_spellsText (hc : c.Lawful) {text : List Char} (h : SpellsText text cs rest) :
    c.readText? cs = some (text, rest) := by
  induction h with
  | nil => exact hc.text_end
  | self hneeds _ ih => rw [hc.text_self hneeds, ih, Option.map_some]
  | short he _ ih => rw [hc.text_short he, ih, Option.map_some]
  | unicode hn hhalf _ ih => rw [hc.text_unicode hn hhalf, ih, Option.map_some]

/-- Where a value may be missing it is read as if it could not be. -/
theorem readPart?_eq_of_fits (hc : c.Lawful) (h : SpellsPart (.scalar v) cs rest)
    (hp : (Part.scalar v).Fits shape) : c.readPart? shape cs = c.readPart? (.scalar v.kind) cs := by
  cases hp with
  | present hv =>
    rw [hc.present h.head?_ne]
    cases hv with
    | _ => rfl
  | _ => rfl

/-- **From each of its spellings a part is read.** -/
theorem readPart?_of_spellsPart (hc : c.Lawful) (h : SpellsPart p cs rest) (hp : p.Fits shape) :
    c.readPart? shape cs = some (p, rest) := by
  induction h generalizing shape with
  | space hch _ ih => rw [hc.space hch, ih hp]
  | string htext =>
    rw [hc.readPart?_eq_of_fits (.string htext) hp, Value.kind, hc.string,
      hc.readText?_of_spellsText htext, Option.map_some, String.ofList_toList]
  | boolean truth => rw [hc.readPart?_eq_of_fits (.boolean truth) hp, Value.kind, hc.boolean]
  | int32 hn hrest =>
    rw [hc.readPart?_eq_of_fits (.int32 hn hrest) hp, Value.kind, hc.int32 hn hrest]
  | int64 hn hrest =>
    rw [hc.readPart?_eq_of_fits (.int64 hn hrest) hp, Value.kind, hc.int64 hn hrest]
  | null =>
    cases hp with
    | null k => exact hc.null
  | name htext =>
    cases hp with
    | name hmem => exact hc.name hmem (hc.readText?_of_spellsText htext)
  | tagged hgap₀ hgap₁ hgap₂ htext _ ih =>
    cases hp with
    | tagged hcase hv =>
      exact hc.tagged hcase hgap₀ hgap₁ hgap₂ (hc.readText?_of_spellsText htext) (ih hv)

end JsonCodec.Lawful

end TypedLine
