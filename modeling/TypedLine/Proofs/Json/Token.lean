import TypedLine.Proofs.Json.Number
import TypedLine.Value

/-!
# Tokens read

The written forms of the single tokens, and the items of a string, one by one: what a character, an
escape and the closing mark of a string are read as (`readString?_self`, `readString?_short`,
`readString?_unicode`), and which token comes next in front of a mark, a word, a string or an
integer.
-/

namespace TypedLine.Json

-- Powers are those of the core library, also where other powers are at hand.
attribute [local instance (high)] instPowNat

/-! ### Strings -/

variable {ch e : Char} {n : Nat} {cs rest : List Char}

theorem needsEscape_iff : needsEscape ch ↔ ch = '"' ∨ ch = '\\' ∨ ch.toNat < 0x20 := by
  simp [needsEscape, or_assoc]

theorem readString?_self (h : needsEscape ch = false) :
    readString? (ch :: cs) = (readString? cs).map fun r ↦ (.whole ch :: r.1, r.2) := by
  have hne : ch ≠ '"' ∧ ch ≠ '\\' := by
    simp only [← Bool.not_eq_true, needsEscape_iff, not_or] at h
    exact ⟨h.1, h.2.1⟩
  rw [readString?]
  · rw [h, if_neg Bool.false_ne_true]
  · exact fun hch ↦ hne.1 hch
  · exact fun _ _ _ _ _ hch _ ↦ hne.2 hch
  · exact fun _ _ hch _ ↦ hne.2 hch

theorem readString?_short (h : shortEscape? e = some ch) :
    readString? ('\\' :: e :: cs) = (readString? cs).map fun r ↦ (.whole ch :: r.1, r.2) := by
  rw [readString?]
  · rw [h, Option.bind_some]
  · rintro a b c d cs rfl -
    cases h

theorem readString?_unicode {a b c d : Char} (h : hexUnit? a b c d = some n)
    (hhalf : isHalf n = false) :
    readString? ('\\' :: 'u' :: a :: b :: c :: d :: cs) =
      (readString? cs).map fun r ↦ (.whole (Char.ofNat n) :: r.1, r.2) := by
  rw [readString?, h, Option.bind_some, Unit16.ofNat, hhalf, if_neg Bool.false_ne_true]

/-! ### The written form of a character -/

/-- What needs no escape is written as it is. -/
theorem escape_self (h : needsEscape ch = false) : escape ch = [ch] := by
  have hspecial : ∀ c ∈ ['"', '\\', '\x08', '\t', '\n', '\x0c', '\r'], ch ≠ c := by
    rintro c hc rfl
    have hneeds := List.all_eq_true.1
      (by decide : ['"', '\\', '\x08', '\t', '\n', '\x0c', '\r'].all needsEscape) ch hc
    rw [h] at hneeds
    cases hneeds
  simp only [List.forall_mem_cons, List.not_mem_nil, false_implies, implies_true, and_true]
    at hspecial
  obtain ⟨h₁, h₂, h₃, h₄, h₅, h₆, h₇⟩ := hspecial
  have hcontrol : ¬ ch.toNat < 0x20 := by
    simp only [← Bool.not_eq_true, needsEscape_iff, not_or] at h
    exact h.2.2
  simp only [escape, h₁, h₂, h₃, h₄, h₅, h₆, h₇, hcontrol, if_false]

/-- What needs an escape is written as a letter that stands for it, or by its code point. -/
theorem escape_of_needsEscape (h : needsEscape ch = true) :
    (∃ e, shortEscape? e = some ch ∧ escape ch = ['\\', e]) ∨
      escape ch = ['\\', 'u', '0', '0', hexChar (ch.toNat / 16), hexChar (ch.toNat % 16)] := by
  by_cases hshort : ch ∈ ['"', '\\', '\x08', '\t', '\n', '\x0c', '\r']
  · simp only [List.mem_cons, List.not_mem_nil, or_false] at hshort
    obtain rfl | rfl | rfl | rfl | rfl | rfl | rfl := hshort
    all_goals exact .inl ⟨_, rfl, rfl⟩
  · simp only [List.mem_cons, List.not_mem_nil, or_false, not_or] at hshort
    obtain ⟨h₁, h₂, h₃, h₄, h₅, h₆, h₇⟩ := hshort
    have hcontrol : ch.toNat < 0x20 :=
      ((needsEscape_iff.1 h).resolve_left h₁).resolve_left h₂
    right
    simp only [escape, h₁, h₂, h₃, h₄, h₅, h₆, h₇, hcontrol, if_false, if_true]

/-! ### Tokens -/

theorem isMark_iff : isMark ch ↔ ch ∈ ['[', ']', '\x7b', '\x7d', ':', ','] := by
  simp [isMark, or_assoc]

theorem readToken?_mark (h : isMark ch) (rest : List Char) :
    readToken? (ch :: rest) = some (.mark ch, rest) := by
  have hmarks := isMark_iff.1 h
  simp only [List.mem_cons, List.not_mem_nil, or_false] at hmarks
  obtain rfl | rfl | rfl | rfl | rfl | rfl := hmarks
  all_goals rfl

/-- A token that starts as a number does is one. -/
theorem readToken?_of_number (h : ch.isDigit ∨ ch = '-') (cs : List Char) :
    readToken? (ch :: cs) = (readNumber? (ch :: cs)).map fun r ↦ (.number r.1, r.2) := by
  have hne (d : Char) (hd : ¬ (d.isDigit ∨ d = '-')) : ch ≠ d := fun hch ↦ hd (hch ▸ h)
  have hmark : isMark ch = false := by
    simp [isMark, hne '[' (by decide), hne ']' (by decide), hne '\x7b' (by decide),
      hne '\x7d' (by decide), hne ':' (by decide), hne ',' (by decide)]
  rw [readToken?, hmark, if_neg (by decide)]
  · exact fun _ hch _ ↦ hne 'n' (by decide) hch
  · exact fun _ hch _ ↦ hne 't' (by decide) hch
  · exact fun _ hch _ ↦ hne 'f' (by decide) hch
  · exact fun hch ↦ hne '"' (by decide) hch

/-! ### The token that comes next -/

/-- Whitespace before a token is skipped. -/
theorem readNext?_append {gap : List Char} (hgap : IsGap gap) (cs : List Char) :
    readNext? (gap ++ cs) = readNext? cs := by
  rw [readNext?, readNext?, hgap.dropWhile_append]

/-- What starts with no space is read from there. -/
theorem readNext?_cons (h : isSpace ch = false) (cs : List Char) :
    readNext? (ch :: cs) = readToken? (ch :: cs) := by
  rw [readNext?, List.dropWhile_cons_of_neg (by rw [h]; exact Bool.false_ne_true)]

theorem readNext?_mark (h : isMark ch) {gap : List Char} (hgap : IsGap gap) (rest : List Char) :
    readNext? (gap ++ ch :: rest) = some (.mark ch, rest) := by
  have hspace : isSpace ch = false := by
    have hmarks := isMark_iff.1 h
    simp only [List.mem_cons, List.not_mem_nil, or_false] at hmarks
    obtain rfl | rfl | rfl | rfl | rfl | rfl := hmarks
    all_goals decide
  rw [readNext?_append hgap, readNext?_cons hspace, readToken?_mark h]

theorem readNext?_boolean (truth : Bool) (rest : List Char) :
    readNext? ((Value.booleanText truth).toList ++ rest) = some (.boolean truth, rest) := by
  cases truth with
  | true => rfl
  | false => rfl

theorem readNext?_string {us : List Unit16} {text : List Char}
    (hread : readString? cs = some (us, rest)) (hjoin : joinHalves? us = some text) :
    readNext? ('"' :: cs) = some (.string (some (String.ofList text)), rest) := by
  show (readString? cs).map _ = _
  rw [hread, Option.map_some, hjoin, Option.map_some]

theorem IsInteger.exists_readNext? {numeral : List Char} {n : Int} (h : IsInteger numeral n)
    (hlow : -2 ^ (63 : Nat) ≤ n) (hhigh : n < 2 ^ (64 : Nat)) (hrest : EndsNumber rest) :
    ∃ q, readNext? (numeral ++ rest) = some (.number q, rest) ∧
      q.quantity? = some (.integer n) := by
  obtain ⟨q, hread, hquantity⟩ := h.exists_readNumber? hlow hhigh hrest
  obtain ⟨ch, cs, rfl, hch⟩ := h.exists_eq_cons
  refine ⟨q, ?_, hquantity⟩
  rw [List.cons_append] at hread ⊢
  rw [readNext?_cons (isSpace_eq_false_of_number hch), readToken?_of_number hch, hread,
    Option.map_some]

end TypedLine.Json
