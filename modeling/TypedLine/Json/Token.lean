import TypedLine.Json.Character
import TypedLine.Json.Number

/-!
# The tokens of JSON

A JSON text is a row of tokens with whitespace between them. `readNext?` reads the next of them
and leaves a shorter text (`length_lt_of_readNext?`); what the tokens of a text mean together
is not decided here.

A string is written in units of 16 bits: an escape may name one half of a character that takes
two. Halves that belong together are joined; a string with a half that has no partner is still a
token, but stands for no text.
-/

namespace TypedLine.Json

/-- A token. -/
inductive Token where
  /-- A bracket, brace, colon or comma. -/
  | mark (ch : Char)
  /-- The word `null`. -/
  | null
  /-- The word `true` or `false`. -/
  | boolean (truth : Bool)
  /-- A number, as it is written. -/
  | number (q : Number)
  /-- A string, and the text that it stands for. -/
  | string (text : Option String)
  deriving DecidableEq, Repr

/-- Whether `ch` is a token of its own. -/
def isMark (ch : Char) : Bool :=
  ch == '[' || ch == ']' || ch == '\x7b' || ch == '\x7d' || ch == ':' || ch == ','

/-! ### Strings -/

/-- One item of a string as it is written. -/
inductive Unit16 where
  /-- A whole character. -/
  | whole (ch : Char)
  /-- One half of a character that takes two units. -/
  | half (n : Nat)
  deriving DecidableEq, Repr

/-- The item that an escaped unit of 16 bits is. -/
def Unit16.ofNat (n : Nat) : Unit16 :=
  if isHalf n then .half n else .whole (Char.ofNat n)

/-- Join each leading half with the trailing half that must follow it. -/
def joinHalves? : List Unit16 → Option (List Char)
  | [] => some []
  | .whole ch :: us => (joinHalves? us).map (ch :: ·)
  | .half high :: .half low :: us =>
    if high < 0xDC00 ∧ 0xDC00 ≤ low then
      let n := 0x10000 + (high - 0xD800) * 0x400 + (low - 0xDC00)
      (joinHalves? us).map (Char.ofNat n :: ·)
    else none
  | .half _ :: _ => none

/-- Read the items of a string up to its closing mark. A control character must be escaped. -/
def readString? : List Char → Option (List Unit16 × List Char)
  | [] => none
  | '"' :: cs => some ([], cs)
  | '\\' :: 'u' :: a :: b :: c :: d :: cs =>
    (hexUnit? a b c d).bind fun n ↦ (readString? cs).map fun r ↦ (.ofNat n :: r.1, r.2)
  | '\\' :: e :: cs =>
    (shortEscape? e).bind fun ch ↦ (readString? cs).map fun r ↦ (.whole ch :: r.1, r.2)
  | ch :: cs =>
    if needsEscape ch then none
    else (readString? cs).map fun r ↦ (.whole ch :: r.1, r.2)

/-- The written form of a character in a string. Quote marks, backslashes and control characters
are escaped, the most usual of them by a letter. -/
def escape (ch : Char) : List Char :=
  if ch = '"' then ['\\', '"']
  else if ch = '\\' then ['\\', '\\']
  else if ch = '\x08' then ['\\', 'b']
  else if ch = '\t' then ['\\', 't']
  else if ch = '\n' then ['\\', 'n']
  else if ch = '\x0c' then ['\\', 'f']
  else if ch = '\r' then ['\\', 'r']
  else if ch.toNat < 0x20 then
    ['\\', 'u', '0', '0', hexChar (ch.toNat / 16), hexChar (ch.toNat % 16)]
  else [ch]

/-- The written form of a text. -/
def stringText (s : String) : List Char :=
  '"' :: s.toList.flatMap escape ++ ['"']

/-! ### Numbers -/

/-- Read the digits before the point: a zero alone, or digits that start with none. -/
def readWhole? : List Char → Option (List Char × List Char)
  | '0' :: cs => some (['0'], cs)
  | cs =>
    let ds := cs.takeWhile Char.isDigit
    if ds.isEmpty then none else some (ds, cs.dropWhile Char.isDigit)

/-- Read a point and the digits after it, if a point comes next. -/
def readPart? : List Char → Option (List Char × List Char)
  | '.' :: cs =>
    let ds := cs.takeWhile Char.isDigit
    if ds.isEmpty then none else some (ds, cs.dropWhile Char.isDigit)
  | cs => some ([], cs)

/-- Read the sign and the digits of an exponent. -/
def readExponentDigits? (negative : Bool) (cs : List Char) : Option (Int × List Char) :=
  let ds := cs.takeWhile Char.isDigit
  if ds.isEmpty then none
  else
    let n : Int := TypedLine.Numeral.ofDigits ds
    some (if negative then -n else n, cs.dropWhile Char.isDigit)

/-- Read an exponent, if one comes next. -/
def readExponent? : List Char → Option (Option Int × List Char)
  | e :: cs =>
    if e = 'e' ∨ e = 'E' then
      let exponent := match cs with
        | '-' :: ds => readExponentDigits? true ds
        | '+' :: ds => readExponentDigits? false ds
        | ds => readExponentDigits? false ds
      exponent.map fun r ↦ (some r.1, r.2)
    else some (none, e :: cs)
  | [] => some (none, [])

/-- Read a number. -/
def readNumber? (cs : List Char) : Option (Number × List Char) := do
  let (negative, cs) := TypedLine.Numeral.splitSign cs
  let (whole, cs) ← readWhole? cs
  let (part, cs) ← readPart? cs
  let (exponent, cs) ← readExponent? cs
  return (⟨negative, whole, part, exponent⟩, cs)

/-- The written form of an exponent, which always has a sign. -/
def exponentText : Int → List Char
  | .ofNat n => 'e' :: '+' :: TypedLine.Numeral.showNat n
  | .negSucc n => 'e' :: '-' :: TypedLine.Numeral.showNat (n + 1)

/-- The written form of a number. -/
def Number.text (q : Number) : List Char :=
  (if q.negative then ['-'] else []) ++ q.whole
    ++ (if q.part.isEmpty then [] else '.' :: q.part)
    ++ match q.exponent with
      | none => []
      | some e => exponentText e

/-! ### Texts -/

/-- Read the token at the front. -/
def readToken? : List Char → Option (Token × List Char)
  | 'n' :: 'u' :: 'l' :: 'l' :: cs => some (.null, cs)
  | 't' :: 'r' :: 'u' :: 'e' :: cs => some (.boolean true, cs)
  | 'f' :: 'a' :: 'l' :: 's' :: 'e' :: cs => some (.boolean false, cs)
  | '"' :: cs => (readString? cs).map fun r ↦ (.string ((joinHalves? r.1).map String.ofList), r.2)
  | cs@(ch :: rest) =>
    if isMark ch then some (.mark ch, rest)
    else (readNumber? cs).map fun r ↦ (.number r.1, r.2)
  | [] => none

/-- Read the next token, with any whitespace before it; also the text behind it. -/
def readNext? (cs : List Char) : Option (Token × List Char) :=
  readToken? (cs.dropWhile isSpace)

/-! ### What is left -/

/-- A closing mark at least is read. -/
theorem length_lt_of_readString? {cs : List Char} :
    ∀ r ∈ readString? cs, r.2.length < cs.length := by
  fun_induction readString? cs with
  | case1 => exact nofun
  | case2 cs =>
    rintro r ⟨⟩
    exact Nat.lt_succ_self _
  | case3 a b c d cs ih =>
    intro r h
    obtain ⟨n, -, hmap⟩ := Option.bind_eq_some_iff.1 h
    obtain ⟨r, hr, rfl⟩ := Option.map_eq_some_iff.1 hmap
    exact Nat.lt_trans (ih r hr) (by simp only [List.length_cons]; omega)
  | case4 e cs _ ih =>
    intro r h
    obtain ⟨ch, -, hmap⟩ := Option.bind_eq_some_iff.1 h
    obtain ⟨r, hr, rfl⟩ := Option.map_eq_some_iff.1 hmap
    exact Nat.lt_trans (ih r hr) (by simp only [List.length_cons]; omega)
  | case5 => exact nofun
  | case6 ch cs _ _ _ _ ih =>
    intro r h
    obtain ⟨r, hr, rfl⟩ := Option.map_eq_some_iff.1 h
    exact Nat.lt_succ_of_lt (ih r hr)

/-- Where there are digits, fewer characters are behind them. -/
theorem length_dropWhile_lt {cs : List Char} (h : (cs.takeWhile Char.isDigit).isEmpty = false) :
    (cs.dropWhile Char.isDigit).length < cs.length := by
  have hlength := congrArg List.length
    (List.takeWhile_append_dropWhile (p := Char.isDigit) (l := cs))
  rw [List.length_append] at hlength
  have hpos := List.length_pos_iff.2 (List.isEmpty_eq_false_iff.1 h)
  omega

theorem length_splitSign_le (cs : List Char) :
    (TypedLine.Numeral.splitSign cs).2.length ≤ cs.length := by
  unfold TypedLine.Numeral.splitSign
  split
  · exact Nat.le_succ _
  · exact Nat.le_refl _

theorem length_lt_of_readWhole? {cs : List Char} {r : List Char × List Char}
    (h : readWhole? cs = some r) : r.2.length < cs.length := by
  unfold readWhole? at h
  split at h
  · obtain rfl := Option.some.inj h
    exact Nat.lt_succ_self _
  · simp only [Option.ite_none_left_eq_some, Option.some.injEq, Bool.not_eq_true] at h
    obtain ⟨hdigits, rfl⟩ := h
    exact length_dropWhile_lt hdigits

theorem length_le_of_readPart? {cs : List Char} {r : List Char × List Char}
    (h : readPart? cs = some r) : r.2.length ≤ cs.length := by
  unfold readPart? at h
  split at h
  · simp only [Option.ite_none_left_eq_some, Option.some.injEq, Bool.not_eq_true] at h
    obtain ⟨hdigits, rfl⟩ := h
    exact Nat.le_succ_of_le (Nat.le_of_lt (length_dropWhile_lt hdigits))
  · obtain rfl := Option.some.inj h
    exact Nat.le_refl _

theorem length_lt_of_readExponentDigits? {negative : Bool} {cs : List Char} {r : Int × List Char}
    (h : readExponentDigits? negative cs = some r) : r.2.length < cs.length := by
  simp only [readExponentDigits?, Option.ite_none_left_eq_some, Option.some.injEq,
    Bool.not_eq_true] at h
  obtain ⟨hdigits, rfl⟩ := h
  exact length_dropWhile_lt hdigits

theorem length_le_of_readExponent? {cs : List Char} {r : Option Int × List Char}
    (h : readExponent? cs = some r) : r.2.length ≤ cs.length := by
  unfold readExponent? at h
  split at h
  · rename_i e cs
    split at h
    · obtain ⟨r', hr', rfl⟩ := Option.map_eq_some_iff.1 h
      split at hr'
      all_goals
        have := length_lt_of_readExponentDigits? hr'
        simp only [List.length_cons] at this ⊢
        omega
    · obtain rfl := Option.some.inj h
      exact Nat.le_refl _
  · obtain rfl := Option.some.inj h
    exact Nat.le_refl _

/-- A digit at least is read. -/
theorem length_lt_of_readNumber? {cs : List Char} {r : Number × List Char}
    (h : readNumber? cs = some r) : r.2.length < cs.length := by
  have hsign := length_splitSign_le cs
  simp only [readNumber?, Option.bind_eq_bind, Option.bind_eq_some_iff, Option.pure_def,
    Option.some.injEq] at h
  obtain ⟨whole, hwhole, part, hpart, exponent, hexponent, rfl⟩ := h
  have h₁ := length_lt_of_readWhole? hwhole
  have h₂ := length_le_of_readPart? hpart
  have h₃ := length_le_of_readExponent? hexponent
  show exponent.2.length < cs.length
  omega

/-- **A token has at least one character.** -/
theorem length_lt_of_readToken? {cs : List Char} {r : Token × List Char}
    (h : readToken? cs = some r) : r.2.length < cs.length := by
  unfold readToken? at h
  split at h
  · obtain rfl := Option.some.inj h
    simp only [List.length_cons]
    omega
  · obtain rfl := Option.some.inj h
    simp only [List.length_cons]
    omega
  · obtain rfl := Option.some.inj h
    simp only [List.length_cons]
    omega
  · obtain ⟨r', hr', rfl⟩ := Option.map_eq_some_iff.1 h
    exact Nat.lt_succ_of_lt (length_lt_of_readString? r' hr')
  · split at h
    · obtain rfl := Option.some.inj h
      exact Nat.lt_succ_self _
    · obtain ⟨r', hr', rfl⟩ := Option.map_eq_some_iff.1 h
      exact length_lt_of_readNumber? hr'
  · cases h

theorem length_lt_of_readNext? {cs : List Char} {r : Token × List Char}
    (h : readNext? cs = some r) : r.2.length < cs.length :=
  Nat.lt_of_lt_of_le (length_lt_of_readToken? h) (List.dropWhile_suffix isSpace).length_le

end TypedLine.Json
