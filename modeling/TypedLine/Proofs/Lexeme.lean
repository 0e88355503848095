import TypedLine.Proofs.NumberReading
import TypedLine.Proofs.Numeral
import TypedLine.Proofs.Quoted

/-!
# Lexemes

The text that stands for one value of a kind, said without a cursor. A lexeme is **greedy**: a
number or a bare string is the longest run of its characters at the place, so a text has at most
one lexeme of each kind at its front, whatever follows.

The reads of a cursor find these lexemes and no others, and go just past them
(`readValue_eq_ok_iff`). Everything said below about texts that are read rests on that statement
alone; no read is opened again.
-/

namespace TypedLine

open Text

/-- The text starts with `used`, which stands for the string `s`, and goes on with `rest`. -/
inductive StringLexeme (text : List Char) : (used : List Char) → String → (rest : List Char) → Prop
  /-- The string in quote marks. -/
  | quoted {s : String} {rest : List Char} :
    text = (quote s).toList ++ rest → StringLexeme text (quote s).toList s rest
  /-- The string itself, perhaps empty, where no quote mark stands. -/
  | bare {run rest : List Char} :
    text.head? ≠ some '"' → LongestRun isBareChar text run rest →
      StringLexeme text run (String.ofList run) rest

/-- The text is a numeral of the kind, and denotes the value. A kind of integers has numerals of
the integers that fit; a kind of floating-point numbers has a numeral for the nearest number. -/
inductive NumeralOf : Kind → List Char → Value → Prop
  | int32 {cs : List Char} {i : Int32} :
    Numeral.IsInteger cs i.toInt → NumeralOf .int32 cs (.int32 i)
  | int64 {cs : List Char} {i : Int64} :
    Numeral.IsInteger cs i.toInt → NumeralOf .int64 cs (.int64 i)
  | single {cs : List Char} {q : Numeral.Fraction} :
    Numeral.IsFraction cs q → NumeralOf .single cs (.single (.ofFraction q))
  | double {cs : List Char} {q : Numeral.Fraction} :
    Numeral.IsFraction cs q → NumeralOf .double cs (.double (.ofFraction q))

/-- The text starts with `used`, which stands for a value of the kind, and goes on with `rest`. -/
inductive Lexeme (text : List Char) : Kind → (used : List Char) → Value → (rest : List Char) → Prop
  | string {used rest : List Char} {s : String} :
    StringLexeme text used s rest → Lexeme text .string used (.string s) rest
  | boolean {used rest : List Char} {truth : Bool} :
    StringLexeme text used (Value.booleanText truth) rest →
      Lexeme text .boolean used (.boolean truth) rest
  | number {k : Kind} {used rest : List Char} {v : Value} :
    LongestRun isNumberChar text used rest → NumeralOf k used v → Lexeme text k used v rest

/-! ### The parts of a lexeme -/

variable {text used rest : List Char} {k : Kind} {v : Value}

theorem StringLexeme.append_eq {s : String} (h : StringLexeme text used s rest) :
    used ++ rest = text := by
  cases h with
  | quoted htext => exact htext.symm
  | bare _ hrun => exact hrun.append_eq

/-- A lexeme and what follows it are the text. -/
theorem Lexeme.append_eq (h : Lexeme text k used v rest) : used ++ rest = text := by
  cases h with
  | string hs => exact hs.append_eq
  | boolean hs => exact hs.append_eq
  | number hrun _ => exact hrun.append_eq

/-- A numeral of a kind denotes a value of that kind. -/
theorem NumeralOf.kind_eq (h : NumeralOf k used v) : v.kind = k := by
  cases h <;> rfl

/-- A lexeme of a kind stands for a value of that kind. -/
theorem Lexeme.kind_eq (h : Lexeme text k used v rest) : v.kind = k := by
  cases h with
  | string _ => rfl
  | boolean _ => rfl
  | number _ hv => exact hv.kind_eq

/-- The lexemes of the four kinds of numbers. -/
theorem lexeme_number_iff (hs : k ≠ .string) (hb : k ≠ .boolean) :
    Lexeme text k used v rest ↔ LongestRun isNumberChar text used rest ∧ NumeralOf k used v := by
  refine ⟨fun h ↦ ?_, fun h ↦ ?_⟩
  · cases h with
    | string _ => exact absurd rfl hs
    | boolean _ => exact absurd rfl hb
    | number hrun hv => exact ⟨hrun, hv⟩
  · obtain ⟨hrun, hv⟩ := h
    exact .number hrun hv

/-! ### Reads -/

theorem Reading.map_eq_ok_iff {α β : Type} {g : α → β} {r : Reading α} {b : β} {c : Cursor} :
    r.map g = ⟨.ok b, c⟩ ↔ ∃ a, r = ⟨.ok a, c⟩ ∧ g a = b := by
  obtain ⟨o, c'⟩ := r
  refine ⟨fun h ↦ ?_, fun h ↦ ?_⟩
  · rcases o with e | a
    · cases congrArg Reading.outcome h
    · obtain rfl : c' = c := congrArg Reading.cursor h
      exact ⟨a, rfl, Except.ok.inj (congrArg Reading.outcome h)⟩
  · obtain ⟨a, h, rfl⟩ := h
    rw [h]
    rfl

/-- A change of what is read changes no failure. -/
theorem Reading.outcome_map_eq_error_iff {α β : Type} {g : α → β} {r : Reading α} {e : Failure} :
    (r.map g).outcome = .error e ↔ r.outcome = .error e := by
  rcases r with ⟨e' | a, c⟩ <;> simp [Reading.map, Except.map]

/-- A fractional numeral is read as the number nearest to it. -/
theorem BinaryFloat.read?_eq_some_iff {f : FloatFormat} {cs : List Char} {x : BinaryFloat f} :
    read? cs = some x ↔ ∃ q, Numeral.IsFraction cs q ∧ ofFraction q = x := by
  simp only [read?, Option.map_eq_some_iff, Numeral.readFraction?_eq_some_iff]

namespace Cursor

variable {c c' : Cursor}

/-- A number is read where the longest run of number characters is a numeral. -/
theorem readNumber_eq_ok_iff {k : Kind} {α : Type} {decode : List Char → Option α} {x : α}
    (hnil : decode [] = none) :
    c.readNumber k decode = ⟨.ok x, c'⟩ ↔ ∃ used rest, LongestRun isNumberChar c.after used rest ∧
      decode used = some x ∧ c' = ⟨c.before ++ used, rest⟩ := by
  have hnumber {used rest : List Char} {r : Reading α}
      (hrun : LongestRun isNumberChar c.after used rest) :
      c.readNumber k decode = r ↔ NumberReading (decode · = some ·) c k used rest r :=
    readNumber_iff (fun _ _ ↦ Iff.rfl) (fun x hx ↦ by simp [hnil] at hx) hrun
  constructor
  · intro h
    have hrun := longestRun_takeWhile isNumberChar c.after
    cases (hnumber hrun).1 h with
    | taken hx => exact ⟨_, _, hrun, hx, rfl⟩
  · rintro ⟨used, rest, hrun, hx, rfl⟩
    exact (hnumber hrun).2 (.taken hx)

theorem readBare_eq_ok_iff {s : String} :
    c.readBare = ⟨.ok s, c'⟩ ↔ ∃ used rest, LongestRun isBareChar c.after used rest ∧
      String.ofList used = s ∧ c' = ⟨c.before ++ used, rest⟩ := by
  refine ⟨fun h ↦ ?_, fun h ↦ ?_⟩
  · exact ⟨_, _, longestRun_takeWhile isBareChar c.after,
      Except.ok.inj (congrArg Reading.outcome h), (congrArg Reading.cursor h).symm⟩
  · obtain ⟨used, rest, hrun, rfl, rfl⟩ := h
    obtain ⟨htake, hdrop⟩ := longestRun_iff.1 hrun
    rw [readBare, run, skipWhile, htake, hdrop]

theorem peek?_eq_head? (c : Cursor) : c.peek? = c.after.head? := by
  rw [peek?, peekAt?, List.head?_eq_getElem?]

/-- **A string is read where a string lexeme stands.** -/
theorem readString_eq_ok_iff {s : String} :
    c.readString = ⟨.ok s, c'⟩ ↔
      ∃ used rest, StringLexeme c.after used s rest ∧ c' = ⟨c.before ++ used, rest⟩ := by
  refine ⟨fun h ↦ ?_, fun h ↦ ?_⟩
  · rw [readString, peek?_eq_head?] at h
    split at h
    · obtain ⟨hbefore, hafter⟩ := readQuoted_eq_ok_iff.1 h
      exact ⟨_, _, .quoted hafter, by rw [← hbefore]⟩
    · rename_i hmark
      obtain ⟨used, rest, hrun, rfl, rfl⟩ := readBare_eq_ok_iff.1 h
      exact ⟨used, rest, .bare hmark hrun, rfl⟩
  · obtain ⟨used, rest, hlex, rfl⟩ := h
    rw [readString, peek?_eq_head?]
    cases hlex with
    | quoted hafter =>
      rw [if_pos (by rw [hafter, toList_quote]; rfl)]
      exact readQuoted_eq_ok_iff.2 ⟨rfl, hafter⟩
    | bare hmark hrun =>
      rw [if_neg hmark]
      exact readBare_eq_ok_iff.2 ⟨used, rest, hrun, rfl, rfl⟩

/-- A boolean is read where its name is read as a string. -/
theorem readBoolean_eq_ok_iff {truth : Bool} :
    c.readBoolean = ⟨.ok truth, c'⟩ ↔ c.readString = ⟨.ok (Value.booleanText truth), c'⟩ := by
  rcases hs : c.readString with ⟨o, d⟩
  rcases o with e | token
  · simp [readBoolean, hs]
  · simp only [readBoolean, hs, Reading.mk.injEq, Except.ok.injEq]
    by_cases htrue : token = Value.booleanText true
    · subst htrue
      cases truth <;> simp [Value.booleanText]
    · by_cases hfalse : token = Value.booleanText false
      · subst hfalse
        cases truth <;> simp [Value.booleanText]
      · rw [if_neg htrue, if_neg hfalse]
        have : token ≠ Value.booleanText truth := by cases truth <;> assumption
        split <;> simp [this]

/-- The kinds of numbers in common: a number is read where a numeral of the kind is the longest
run of number characters. -/
theorem readNumber_map_eq_ok_iff {decode : List Char → Option k.Carrier} (hnil : decode [] = none)
    (hdecode : ∀ used x, decode used = some x ↔ NumeralOf k used (.of k x)) :
    (∃ x, c.readNumber k decode = ⟨.ok x, c'⟩ ∧ Value.of k x = v) ↔
      ∃ used rest, (LongestRun isNumberChar c.after used rest ∧ NumeralOf k used v) ∧
        c' = ⟨c.before ++ used, rest⟩ := by
  simp only [readNumber_eq_ok_iff hnil, hdecode]
  refine ⟨fun h ↦ ?_, fun h ↦ ?_⟩
  · obtain ⟨x, ⟨used, rest, hrun, hx, rfl⟩, rfl⟩ := h
    exact ⟨used, rest, ⟨hrun, hx⟩, rfl⟩
  · obtain ⟨used, rest, ⟨hrun, hv⟩, rfl⟩ := h
    obtain ⟨x, rfl⟩ : ∃ x, Value.of k x = v := by cases hv <;> exact ⟨_, rfl⟩
    exact ⟨x, ⟨used, rest, hrun, hv, rfl⟩, rfl⟩

/-- **A value is read where a lexeme of its kind stands**, and the cursor goes just past it. -/
theorem readValue_eq_ok_iff :
    c.readValue k = ⟨.ok v, c'⟩ ↔
      ∃ used rest, Lexeme c.after k used v rest ∧ c' = ⟨c.before ++ used, rest⟩ := by
  rw [readValue, Reading.map_eq_ok_iff]
  cases k with
  | string =>
    refine ⟨fun h ↦ ?_, fun h ↦ ?_⟩
    · obtain ⟨s, hread, rfl⟩ := h
      obtain ⟨used, rest, hlex, rfl⟩ := readString_eq_ok_iff.1 hread
      exact ⟨used, rest, .string hlex, rfl⟩
    · obtain ⟨used, rest, hlex, rfl⟩ := h
      cases hlex with
      | @string _ _ s hlex => exact ⟨s, readString_eq_ok_iff.2 ⟨used, rest, hlex, rfl⟩, rfl⟩
      | number _ hv => cases hv
  | boolean =>
    refine ⟨fun h ↦ ?_, fun h ↦ ?_⟩
    · obtain ⟨truth, hread, rfl⟩ := h
      obtain ⟨used, rest, hlex, rfl⟩ := readString_eq_ok_iff.1 (readBoolean_eq_ok_iff.1 hread)
      exact ⟨used, rest, .boolean hlex, rfl⟩
    · obtain ⟨used, rest, hlex, rfl⟩ := h
      cases hlex with
      | @boolean _ _ truth hlex =>
        exact ⟨truth, readBoolean_eq_ok_iff.2 (readString_eq_ok_iff.2 ⟨used, rest, hlex, rfl⟩), rfl⟩
      | number _ hv => cases hv
  | int32 =>
    have hdecode : ∀ used (i : Int32), (Numeral.readInt? used).bind int32? = some i ↔
        NumeralOf .int32 used (.int32 i) := fun used i ↦
      (Numeral.readInt?_bind_eq_some_iff fun _ _ ↦ int32?_eq_some_iff).trans
        ⟨.int32, fun | .int32 hi => hi⟩
    simp only [lexeme_number_iff (k := .int32) (by decide) (by decide)]
    exact readNumber_map_eq_ok_iff (k := .int32) rfl hdecode
  | int64 =>
    have hdecode : ∀ used (i : Int64), (Numeral.readInt? used).bind int64? = some i ↔
        NumeralOf .int64 used (.int64 i) := fun used i ↦
      (Numeral.readInt?_bind_eq_some_iff fun _ _ ↦ int64?_eq_some_iff).trans
        ⟨.int64, fun | .int64 hi => hi⟩
    simp only [lexeme_number_iff (k := .int64) (by decide) (by decide)]
    exact readNumber_map_eq_ok_iff (k := .int64) rfl hdecode
  | single =>
    have hdecode : ∀ used (x : Single), BinaryFloat.read? used = some x ↔
        NumeralOf .single used (.single x) := fun used x ↦ BinaryFloat.read?_eq_some_iff.trans
      ⟨fun ⟨_, hq, hx⟩ ↦ hx ▸ .single hq, fun | .single hq => ⟨_, hq, rfl⟩⟩
    simp only [lexeme_number_iff (k := .single) (by decide) (by decide)]
    exact readNumber_map_eq_ok_iff (k := .single) rfl hdecode
  | double =>
    have hdecode : ∀ used (x : Double), BinaryFloat.read? used = some x ↔
        NumeralOf .double used (.double x) := fun used x ↦ BinaryFloat.read?_eq_some_iff.trans
      ⟨fun ⟨_, hq, hx⟩ ↦ hx ▸ .double hq, fun | .double hq => ⟨_, hq, rfl⟩⟩
    simp only [lexeme_number_iff (k := .double) (by decide) (by decide)]
    exact readNumber_map_eq_ok_iff (k := .double) rfl hdecode

end Cursor

end TypedLine
