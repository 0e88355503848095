import TypedLine.Builtin
import TypedLine.Proofs.Alphabet
import TypedLine.Proofs.Dispatch

/-!
# Canonical lines

Every value has a written form: a string stands in quote marks, and any other value is its text.
A **canonical line** is a name and the written forms of some values, with one space before each.
Such a line decodes to the values it was made of, whatever their strings hold
(`decodes_writtenArguments`).

The count of arguments sees only spaces, so a space inside a string is one argument too many. A
canonical line is therefore run exactly when its strings have no spaces: `run_canonicalLine`.
-/

namespace TypedLine

open Text

namespace Value

/-- The written form of a value. -/
def written : Value → List Char
  | string s => (quote s).toList
  | v => v.text.toList

/-- The number of spaces in the string that a value holds. -/
def spaces : Value → Nat
  | string s => s.toList.count ' '
  | _ => 0

/-- The text of the value, alone, reads as the value and is used up by that. -/
def Rereads (v : Value) : Prop :=
  (Cursor.ofString v.text).readValue v.kind = ⟨.ok v, ⟨v.text.toList, []⟩⟩

/-- A value is **writable** when its written form stands for it. Strings and booleans are; a number
is when its text is a numeral of it. -/
inductive Writable : Value → Prop
  | string (s : String) : Writable (string s)
  | boolean (truth : Bool) : Writable (boolean truth)
  | number {v : Value} : NumeralOf v.kind v.written v → Writable v

end Value

/-- The written forms of the arguments, with a space before each. -/
def writtenArguments (vs : Arguments) : List Char :=
  vs.flatMap fun v ↦ ' ' :: v.written

/-- The line with the given name and arguments. -/
def canonicalLine (name : String) (vs : Arguments) : String :=
  String.ofList (name.toList ++ writtenArguments vs)

/-! ### Numerals are made of number characters -/

namespace Numeral

theorem isNumberChar_of_isDigits {ds : List Char} (h : isDigits ds) :
    ∀ ch ∈ ds, isNumberChar ch = true := by
  intro ch hch
  simp [isNumberChar, isDigit_of_mem h ch hch]

theorem isNumberChar_of_mem_sign {negative : Bool} :
    ∀ ch ∈ sign negative, isNumberChar ch = true :=
  List.all_eq_true.1 (by cases negative <;> decide)

theorem IsInteger.isNumberChar {cs : List Char} {n : Int} (h : IsInteger cs n) :
    ∀ ch ∈ cs, isNumberChar ch = true := by
  cases h with
  | plain hds => exact isNumberChar_of_isDigits hds
  | minus hds => exact List.forall_mem_cons.2 ⟨rfl, isNumberChar_of_isDigits hds⟩

theorem IsFraction.isNumberChar {cs : List Char} {q : Fraction} (h : IsFraction cs q) :
    ∀ ch ∈ cs, isNumberChar ch = true := by
  cases h with
  | whole hds => exact List.forall_mem_append.2 ⟨isNumberChar_of_mem_sign, isNumberChar_of_isDigits hds⟩
  | pointed hds =>
    obtain ⟨hwhole, hpart⟩ := List.forall_mem_append.1 (isNumberChar_of_isDigits hds)
    exact List.forall_mem_append.2 ⟨isNumberChar_of_mem_sign,
      List.forall_mem_append.2 ⟨hwhole, List.forall_mem_cons.2 ⟨rfl, hpart⟩⟩⟩

end Numeral

namespace NumeralOf

variable {k : Kind} {cs : List Char} {v : Value}

theorem isNumberChar (h : NumeralOf k cs v) : ∀ ch ∈ cs, isNumberChar ch = true := by
  cases h with
  | int32 hi => exact hi.isNumberChar
  | int64 hi => exact hi.isNumberChar
  | single hq => exact hq.isNumberChar
  | double hq => exact hq.isNumberChar

/-- The empty text is no numeral. -/
theorem ne_nil (h : NumeralOf k cs v) : cs ≠ [] := by
  rintro rfl
  cases h with
  | int32 hi => cases Numeral.readInt?_eq_some_iff.2 hi
  | int64 hi => cases Numeral.readInt?_eq_some_iff.2 hi
  | single hq => cases Numeral.readFraction?_eq_some_iff.2 hq
  | double hq => cases Numeral.readFraction?_eq_some_iff.2 hq

/-- A numeral denotes no string, so nothing with spaces. -/
theorem spaces_eq_zero (h : NumeralOf k cs v) : v.spaces = 0 := by
  cases h <;> rfl

end NumeralOf

/-! ### The values that are writable -/

variable {v : Value} {vs : Arguments} {rest : List Char}

/-- The text of a value that reads back as a number is a numeral. -/
theorem Value.Rereads.numeralOf (h : v.Rereads) (hs : v.kind ≠ .string) (hb : v.kind ≠ .boolean) :
    NumeralOf v.kind v.text.toList v := by
  obtain ⟨used, rest, hlex, hplace⟩ := Cursor.readValue_eq_ok_iff.1 h
  obtain ⟨hrun, hv⟩ := (lexeme_number_iff hs hb).1 hlex
  have hused : v.text.toList = used := congrArg Cursor.before hplace
  rwa [hused]

/-- The text of an integer is a numeral of it. -/
theorem Numeral.isInteger_showInt (n : Int) : IsInteger (String.ofList (showInt n)).toList n := by
  rw [String.toList_ofList]
  exact readInt?_eq_some_iff.1 (readInt?_showInt n)

/-- **Every value is writable** but for floating-point numbers whose text does not read back. -/
theorem Value.writable (hv : v.kind = .single ∨ v.kind = .double → v.Rereads) : v.Writable := by
  cases v with
  | string s => exact .string s
  | boolean truth => exact .boolean truth
  | int32 i => exact .number (.int32 (Numeral.isInteger_showInt i.toInt))
  | int64 i => exact .number (.int64 (Numeral.isInteger_showInt i.toInt))
  | single x => exact .number ((hv (.inl rfl)).numeralOf nofun nofun)
  | double x => exact .number ((hv (.inr rfl)).numeralOf nofun nofun)

/-! ### The written form is a lexeme -/

/-- The name of a truth value is a bare string. -/
theorem stringLexeme_booleanText (truth : Bool) (hrest : ∀ ch ∈ rest.head?, isSpace ch = true) :
    StringLexeme ((Value.booleanText truth).toList ++ rest) (Value.booleanText truth).toList
      (Value.booleanText truth) rest := by
  have hbare : ∀ ch ∈ (Value.booleanText truth).toList, isBareChar ch = true :=
    List.all_eq_true.1 (by cases truth <;> decide)
  have hmark : ((Value.booleanText truth).toList ++ rest).head? ≠ some '"' := by
    cases truth <;> simp [Value.booleanText]
  have hlex : StringLexeme ((Value.booleanText truth).toList ++ rest)
      (Value.booleanText truth).toList (String.ofList (Value.booleanText truth).toList) rest :=
    .bare hmark (longestRun_append hbare fun ch hch ↦ isBareChar_eq_false_of_isSpace (hrest ch hch))
  rwa [String.ofList_toList] at hlex

/-- **A written form is a lexeme of its value** where whitespace or nothing follows it. -/
theorem Value.Writable.lexeme (h : v.Writable) (hrest : ∀ ch ∈ rest.head?, isSpace ch = true) :
    Lexeme (v.written ++ rest) v.kind v.written v rest := by
  cases h with
  | string s => exact .string (.quoted rfl)
  | boolean truth => exact .boolean (stringLexeme_booleanText truth hrest)
  | number hnum =>
    exact .number (longestRun_append hnum.isNumberChar fun ch hch ↦
      isNumberChar_eq_false_of_isSpace (hrest ch hch)) hnum

/-- A written form starts with something else than whitespace. -/
theorem Value.Writable.exists_written_eq_cons (h : v.Writable) :
    ∃ ch cs, v.written = ch :: cs ∧ isSpace ch = false := by
  cases h with
  | string s => exact ⟨'"', _, toList_quote s, by decide⟩
  | boolean truth =>
    cases truth with
    | false => exact ⟨'f', _, rfl, by decide⟩
    | true => exact ⟨'t', _, rfl, by decide⟩
  | number hnum =>
    rcases hw : v.written with - | ⟨ch, cs⟩
    · exact absurd hw hnum.ne_nil
    · have hch : isNumberChar ch := hnum.isNumberChar ch (by rw [hw]; exact .head _)
      exact ⟨ch, cs, rfl, isSpace_eq_false_of_isBareChar (isBareChar_of_isNumberChar hch)⟩

/-! ### The arguments of a canonical line -/

theorem writtenArguments_cons (v : Value) (vs : Arguments) :
    writtenArguments (v :: vs) = ' ' :: (v.written ++ writtenArguments vs) :=
  List.flatMap_cons

/-- Whitespace or nothing stands at the front of the arguments. -/
theorem isSpace_of_mem_head?_writtenArguments (vs : Arguments) :
    ∀ ch ∈ (writtenArguments vs).head?, isSpace ch = true := by
  rcases vs with - | ⟨v, vs⟩
  · rintro ch ⟨⟩
  · rw [writtenArguments_cons]
    rintro ch ⟨⟩
    decide

/-- **The written arguments decode to the arguments**, and nothing is left over. -/
theorem decodes_writtenArguments (hvs : ∀ v ∈ vs, v.Writable) :
    Decodes (vs.map Value.kind) (writtenArguments vs) vs [] := by
  induction vs with
  | nil => exact .nil
  | cons v vs ih =>
    obtain ⟨hv, hvs⟩ := List.forall_mem_cons.1 hvs
    obtain ⟨ch, cs, hw, hch⟩ := hv.exists_written_eq_cons
    -- The gap before an argument is the one space, as the argument does not start with whitespace.
    have hgap : LongestRun isSpace ([' '] ++ (v.written ++ writtenArguments vs)) [' ']
        (v.written ++ writtenArguments vs) := by
      refine longestRun_append (List.forall_mem_singleton.2 (by decide)) ?_
      rw [hw]
      rintro _ ⟨⟩
      exact hch
    rw [List.map_cons, writtenArguments_cons]
    exact .cons hgap (hv.lexeme (isSpace_of_mem_head?_writtenArguments vs)) (ih hvs)

/-! ### The spaces of a canonical line -/

/-- Quote marks and backslashes add no space. -/
theorem count_space_quotedBody (cs : List Char) : (quotedBody cs).count ' ' = cs.count ' ' := by
  induction cs with
  | nil => rfl
  | cons c cs ih =>
    rw [quotedBody_cons, List.count_append, ih, List.count_cons, escape]
    split
    · rename_i hc
      rcases hc with rfl | rfl <;> simp
    · rw [List.count_singleton, Nat.add_comm]

/-- A written form has the spaces of the string that is written, and no other. -/
theorem Value.Writable.count_space (h : v.Writable) : v.written.count ' ' = v.spaces := by
  cases h with
  | string s =>
    show (quote s).toList.count ' ' = s.toList.count ' '
    rw [toList_quote]
    simp [count_space_quotedBody]
  | boolean truth => cases truth <;> decide
  | number hnum =>
    rw [hnum.spaces_eq_zero, List.count_eq_zero]
    intro hmem
    exact absurd (hnum.isNumberChar ' ' hmem) (by decide)

theorem count_space_writtenArguments (hvs : ∀ v ∈ vs, v.Writable) :
    (writtenArguments vs).count ' ' = vs.length + (vs.map Value.spaces).sum := by
  induction vs with
  | nil => rfl
  | cons v vs ih =>
    obtain ⟨hv, hvs⟩ := List.forall_mem_cons.1 hvs
    rw [writtenArguments_cons, List.count_cons_self, List.count_append, hv.count_space, ih hvs,
      List.length_cons, List.map_cons, List.sum_cons]
    omega

/-- A name without spaces is the first piece of a canonical line. -/
theorem isPiece_append_writtenArguments {name : List Char} (hname : ' ' ∉ name) :
    IsPiece ' ' (name ++ writtenArguments vs) name := by
  rcases vs with - | ⟨v, vs⟩
  · show IsPiece ' ' (name ++ []) name
    rw [List.append_nil]
    exact .refl hname
  · rw [writtenArguments_cons]
    exact .head hname _

/-- **The arguments that are counted in a canonical line** are its arguments and the spaces in
their strings. -/
theorem countedArguments_append_writtenArguments {name : List Char} (hname : ' ' ∉ name)
    (hvs : ∀ v ∈ vs, v.Writable) :
    countedArguments (name ++ writtenArguments vs) name =
      vs.length + (vs.map Value.spaces).sum := by
  rw [countedArguments, if_pos (isPiece_append_writtenArguments hname), List.count_append,
    List.count_eq_zero.2 hname, count_space_writtenArguments hvs]
  omega

/-- The sum of the spaces is zero exactly when no string has one. -/
theorem sum_spaces_eq_zero_iff :
    (vs.map Value.spaces).sum = 0 ↔ ∀ s, .string s ∈ vs → ' ' ∉ s.toList := by
  induction vs with
  | nil => simp
  | cons v vs ih =>
    rw [List.map_cons, List.sum_cons, Nat.add_eq_zero_iff, ih]
    cases v with
    | string s =>
      simp [Value.spaces, List.count_eq_zero]
    | _ => simp [Value.spaces]

/-! ### Running a canonical line -/

/-- What a name is that spells a key: bare characters, at least one of them, whose lower-case form
is the key. -/
theorem lowerCase_eq_of_spelling {k n : String} (hk : k ≠ "" ∧ ∀ ch ∈ k.toList, isKeyChar ch)
    (hn : n.toList.map Char.toLower = k.toList) :
    n.toList ≠ [] ∧ (∀ ch ∈ n.toList, isBareChar ch = true) ∧ lowerCase n = k := by
  have hbare : ∀ ch ∈ n.toList, isBareChar ch = true := by
    intro ch hch
    have hkey : isKeyChar ch.toLower := hk.2 _ (hn ▸ List.mem_map_of_mem hch)
    rw [isKeyChar, Bool.and_eq_true] at hkey
    exact isBareChar_of_toLower hkey.1
  refine ⟨?_, hbare, ?_⟩
  · intro hnil
    rw [hnil, List.map_nil] at hn
    exact hk.1 (String.toList_inj.1 hn.symm)
  · have hlower := toList_lowerCase fun ch hch ↦ toNat_lt_of_isBareChar (hbare ch hch)
    exact String.toList_inj.1 (hlower.trans hn)

/-- The name of a canonical line is what it was made with. -/
theorem named_canonicalLine {n : String} (hne : n.toList ≠ [])
    (hbare : ∀ ch ∈ n.toList, isBareChar ch = true) :
    Named (canonicalLine n vs) n.toList (writtenArguments vs) := by
  obtain ⟨ch, hch⟩ := List.exists_mem_of_ne_nil _ hne
  rw [canonicalLine]
  refine ⟨⟨ch, ?_, isSpace_eq_false_of_isBareChar (hbare ch hch)⟩, ?_⟩
  · rw [String.toList_ofList]
    exact List.mem_append_left _ hch
  · rw [String.toList_ofList]
    exact longestRun_append hbare fun ch hch ↦
      isBareChar_eq_false_of_isSpace (isSpace_of_mem_head?_writtenArguments vs ch hch)

/-- **A canonical line is run exactly as it was made**: the command is called once, on the values,
unless a string has spaces; then each space counts as an argument, and nothing is called. -/
theorem run_canonicalLine {r : Registry} {k n : String} {command : Command} {vs : Arguments}
    (hkey : ⟨k, command⟩ ∈ r.entries) (hk : k ≠ "" ∧ ∀ ch ∈ k.toList, isKeyChar ch)
    (hn : n.toList.map Char.toLower = k.toList) (hkinds : vs.map Value.kind = command.signature)
    (hvs : ∀ v ∈ vs, v.kind = .single ∨ v.kind = .double → v.Rereads) :
    ((∀ s, .string s ∈ vs → ' ' ∉ s.toList) →
      r.calls (canonicalLine n vs) = [⟨n, command, vs⟩] ∧
        r.run (canonicalLine n vs) = .ok (command.handler vs)) ∧
    ((∃ s, .string s ∈ vs ∧ ' ' ∈ s.toList) →
      r.calls (canonicalLine n vs) = [] ∧
        r.run (canonicalLine n vs) = .error (.arityMismatch n
          (command.arity + (vs.map Value.spaces).sum) command.arity)) := by
  have hwritable : ∀ v ∈ vs, v.Writable := fun v hv ↦ Value.writable (hvs v hv)
  obtain ⟨hne, hbare, rfl⟩ := lowerCase_eq_of_spelling hk hn
  have hname : Named (canonicalLine n vs) n.toList (writtenArguments vs) :=
    named_canonicalLine hne hbare
  have hspace : ' ' ∉ n.toList := fun hmem ↦ absurd (hbare ' ' hmem) (by decide)
  have hline : (canonicalLine n vs).toList = n.toList ++ writtenArguments vs :=
    String.toList_ofList
  have harity : vs.length = command.arity := by
    rw [Command.arity, ← hkinds, List.length_map]
  have hcount : countedArguments (canonicalLine n vs).toList n.toList =
      command.arity + (vs.map Value.spaces).sum := by
    rw [hline, countedArguments_append_writtenArguments hspace hwritable, harity]
  rw [← String.ofList_toList (s := n)] at hkey
  refine ⟨fun hstrings ↦ ?_, fun ⟨s, hs, hmem⟩ ↦ ?_⟩
  · have hdec : Decodes command.signature (writtenArguments vs) vs [] :=
      hkinds ▸ decodes_writtenArguments hwritable
    rw [sum_spaces_eq_zero_iff.2 hstrings] at hcount
    have hcalled := (Dispatches.called hname hkey hcount hdec).sound
    rwa [String.ofList_toList] at hcalled
  · have hsum : (vs.map Value.spaces).sum ≠ 0 := fun hzero ↦
      sum_spaces_eq_zero_iff.1 hzero s hs hmem
    have hrefused := (Dispatches.arity hname hkey (by omega)).sound
    rwa [String.ofList_toList, hcount] at hrefused

/-- The line `ScaLe 0.5 -3` is run, and the line `RePeat "a \"b\"" 3` has a space too many. -/
theorem run_canonicalLine_builtin :
    Builtin.registry.run (canonicalLine "ScaLe" [.single (.ofFraction ⟨false, ['0'], ['5']⟩),
        .single (.ofFraction ⟨true, ['3'], []⟩)]) = .ok ⟨"-1.5", .success⟩ ∧
      Builtin.registry.run (canonicalLine "RePeat" [.string "a \"b\"", .int32 3]) =
        .error (.arityMismatch "RePeat" 3 2) := by
  constructor
  · have hvs : ∀ v ∈ ([.single (.ofFraction ⟨false, ['0'], ['5']⟩),
        .single (.ofFraction ⟨true, ['3'], []⟩)] : Arguments),
        v.kind = .single ∨ v.kind = .double → v.Rereads :=
      List.forall_mem_cons.2 ⟨fun _ ↦ rfl, List.forall_mem_singleton.2 fun _ ↦ rfl⟩
    have hrun := (run_canonicalLine (r := Builtin.registry) (k := "scale") (n := "ScaLe")
      (.tail _ (.tail _ (.tail _ (.tail _ (.tail _ (.head _))))))
      ⟨by decide, List.all_eq_true.1 (by decide)⟩ (by decide) rfl hvs).1 (by simp)
    exact hrun.2
  · have hkinds : ([.string "a \"b\"", .int32 3] : Arguments).map Value.kind =
        Builtin.repetition.signature := rfl
    have hrun := (run_canonicalLine (r := Builtin.registry) (k := "repeat") (n := "RePeat")
      (.tail _ (.tail _ (.tail _ (.tail _ (.head _)))))
      ⟨by decide, List.all_eq_true.1 (by decide)⟩ (by decide) hkinds
      (by simp [Value.kind])).2 ⟨"a \"b\"", .head _, by decide⟩
    exact hrun.2

end TypedLine
