import TypedLine.Numeral
import TypedLine.Proofs.Text.LongestRun

/-!
# The grammar of numerals

What a numeral is, said without a reader: an integer numeral is a run of digits, perhaps after a
minus sign; a fractional one may have a point before, among or after its digits. The readers
accept these texts and no others, and give what they denote (`readInt?_eq_some_iff`,
`readFraction?_eq_some_iff`).
-/

namespace TypedLine

namespace Numeral

/-- The sign of a numeral. -/
def sign (negative : Bool) : List Char :=
  if negative then ['-'] else []

/-- The text is an **integer numeral** that denotes the given integer. -/
inductive IsInteger : List Char → Int → Prop
  | plain {ds : List Char} : isDigits ds → IsInteger ds (ofDigits ds)
  | minus {ds : List Char} : isDigits ds → IsInteger ('-' :: ds) (-(ofDigits ds : Int))

/-- The text is a **fractional numeral** with the given parts. -/
inductive IsFraction : List Char → Fraction → Prop
  | whole {negative : Bool} {ds : List Char} :
    isDigits ds → IsFraction (sign negative ++ ds) ⟨negative, ds, []⟩
  | pointed {negative : Bool} {whole part : List Char} :
    isDigits (whole ++ part) →
      IsFraction (sign negative ++ (whole ++ '.' :: part)) ⟨negative, whole, part⟩

/-! ### Digits -/

theorem isDigits_iff {ds : List Char} : isDigits ds ↔ ds ≠ [] ∧ ∀ d ∈ ds, d.isDigit := by
  simp [isDigits]

theorem isDigit_of_mem {ds : List Char} (h : isDigits ds) : ∀ d ∈ ds, d.isDigit :=
  (isDigits_iff.1 h).2

/-- A sign comes off a text that has none of its own. -/
theorem splitSign_sign_append {negative : Bool} {body : List Char} (h : body.head? ≠ some '-') :
    splitSign (sign negative ++ body) = (negative, body) := by
  cases negative with
  | true => rfl
  | false =>
    show splitSign body = _
    rw [splitSign]
    rintro cs rfl
    exact h rfl

/-- What a sign comes off is put together again. -/
theorem sign_append_of_splitSign {cs body : List Char} {negative : Bool}
    (h : splitSign cs = (negative, body)) : cs = sign negative ++ body := by
  unfold splitSign at h
  split at h
  all_goals
    obtain ⟨rfl, rfl⟩ := Prod.mk.inj h
    rfl

/-! ### Integers -/

/-- Behind the sign everything depends on the digits. -/
theorem readInt?_of_splitSign {cs ds : List Char} {negative : Bool}
    (h : splitSign cs = (negative, ds)) :
    readInt? cs =
      if isDigits ds then some (if negative then -(ofDigits ds : Int) else ofDigits ds)
      else none := by
  simp only [readInt?, h]

/-- **The integer numerals are what reads as an integer.** -/
theorem readInt?_eq_some_iff {cs : List Char} {n : Int} : readInt? cs = some n ↔ IsInteger cs n := by
  refine ⟨fun h ↦ ?_, fun h ↦ ?_⟩
  · rcases hs : splitSign cs with ⟨negative, ds⟩
    rw [readInt?_of_splitSign hs] at h
    have hcs := sign_append_of_splitSign hs
    by_cases hds : isDigits ds
    · rw [if_pos hds] at h
      obtain rfl := Option.some.inj h
      cases negative with
      | true => exact hcs ▸ .minus hds
      | false => exact hcs ▸ .plain hds
    · rw [if_neg hds] at h
      cases h
  · cases h with
    | plain hds =>
      rw [readInt?_of_splitSign (splitSign_of_isDigits hds), if_pos hds, if_neg (by decide)]
    | @minus ds hds =>
      have hs : splitSign ('-' :: ds) = (true, ds) := rfl
      rw [readInt?_of_splitSign hs, if_pos hds, if_pos rfl]

/-- What reads as an integer and fits into a width is a numeral of the number that is kept. -/
theorem readInt?_bind_eq_some_iff {α : Type} {narrow : Int → Option α} {toInt : α → Int}
    (hnarrow : ∀ n i, narrow n = some i ↔ toInt i = n) {cs : List Char} {i : α} :
    (readInt? cs).bind narrow = some i ↔ IsInteger cs (toInt i) := by
  rw [Option.bind_eq_some_iff]
  refine ⟨fun h ↦ ?_, fun h ↦ ?_⟩
  · obtain ⟨n, hn, hi⟩ := h
    rw [(hnarrow n i).1 hi]
    exact readInt?_eq_some_iff.1 hn
  · exact ⟨toInt i, readInt?_eq_some_iff.2 h, (hnarrow _ i).2 rfl⟩

/-! ### Fractions -/

/-- The digits before the point are the longest run of digits. -/
theorem scan_isDigit {ds : List Char} (hds : ∀ d ∈ ds, d.isDigit) (rest : List Char)
    (hrest : ∀ ch ∈ rest.head?, ch.isDigit = false) :
    (ds ++ rest).takeWhile Char.isDigit = ds ∧ (ds ++ rest).dropWhile Char.isDigit = rest :=
  Text.longestRun_iff.1 (Text.longestRun_append hds hrest)

theorem IsFraction.readFraction? {cs : List Char} {q : Fraction} (h : IsFraction cs q) :
    readFraction? cs = some q := by
  cases h with
  | @whole negative ds hds =>
    have hsign : ds.head? ≠ some '-' := by
      intro hhead
      have := isDigit_of_mem hds '-' (List.mem_of_mem_head? hhead)
      exact absurd this (by decide)
    obtain ⟨htake, hdrop⟩ := scan_isDigit (isDigit_of_mem hds) [] (by simp)
    rw [List.append_nil] at htake hdrop
    simp only [Numeral.readFraction?, splitSign_sign_append hsign, htake, hdrop, hds, if_true]
  | @pointed negative whole part hds =>
    have hwhole : ∀ d ∈ whole, d.isDigit := fun d hd ↦
      isDigit_of_mem hds d (List.mem_append_left _ hd)
    have hsign : (whole ++ '.' :: part).head? ≠ some '-' := by
      intro hhead
      rcases whole with - | ⟨d, whole⟩
      · cases hhead
      · obtain rfl : d = '-' := Option.some.inj hhead
        exact absurd (hwhole '-' (.head _)) (by decide)
    obtain ⟨htake, hdrop⟩ := scan_isDigit hwhole ('.' :: part) (by simp)
    simp only [Numeral.readFraction?, splitSign_sign_append hsign, htake, hdrop, hds, if_true]

theorem isFraction_of_readFraction? {cs : List Char} {q : Fraction}
    (h : readFraction? cs = some q) : IsFraction cs q := by
  rcases hs : splitSign cs with ⟨negative, body⟩
  have hcs := sign_append_of_splitSign hs
  have hbody : body.takeWhile Char.isDigit ++ body.dropWhile Char.isDigit = body :=
    List.takeWhile_append_dropWhile
  simp only [readFraction?, hs] at h
  split at h
  · rename_i hdrop
    rw [hdrop, List.append_nil] at hbody
    split at h
    · rename_i hds
      obtain rfl := Option.some.inj h
      rw [hbody] at hds
      rw [hcs, hbody]
      exact .whole hds
    · cases h
  · rename_i part hdrop
    rw [hdrop] at hbody
    split at h
    · rename_i hds
      obtain rfl := Option.some.inj h
      have hq : IsFraction (sign negative ++ (_ ++ '.' :: part)) ⟨negative, _, part⟩ := .pointed hds
      rwa [hbody, ← hcs] at hq
    · cases h
  · cases h

/-- **The fractional numerals are what reads as a fraction.** -/
theorem readFraction?_eq_some_iff {cs : List Char} {q : Fraction} :
    readFraction? cs = some q ↔ IsFraction cs q :=
  ⟨isFraction_of_readFraction?, IsFraction.readFraction?⟩

end Numeral

end TypedLine
