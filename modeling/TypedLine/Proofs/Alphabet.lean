import Mathlib
import TypedLine.Cursor.Read
import TypedLine.Text.Case

/-!
# The alphabet of a line

How the classes of characters meet that a line is read by: every number character is a bare
character, and every bare character is one of ASCII, but not whitespace. So a run of one class
never goes on into the whitespace behind a lexeme.

Within ASCII the lower-case form of a text is taken character by character (`toList_lowerCase`).
-/

namespace TypedLine

open Text

variable {ch : Char}

/-- What holds of the first 128 code points holds of every character of ASCII. -/
theorem forall_ascii {p : Char → Prop} (h : ∀ n < 128, p (Char.ofNat n)) (hch : ch.toNat < 128) :
    p ch :=
  Char.ofNat_toNat ch ▸ h ch.toNat hch

/-- Within ASCII a text has as many bytes as characters. -/
theorem byteLength_of_ascii {cs : List Char} (h : ∀ ch ∈ cs, ch.toNat < 128) :
    byteLength cs = cs.length := by
  have hsize : ∀ ch ∈ cs, ch.utf8Size = 1 := fun ch hch ↦
    forall_ascii (p := fun ch ↦ ch.utf8Size = 1) (by decide) (h ch hch)
  rw [byteLength, List.map_congr_left hsize]
  simp

/-! ### Bare characters and number characters -/

theorem toNat_lt_of_isBareChar (h : isBareChar ch) : ch.toNat < 128 := by
  simp only [isBareChar, Char.isAlphanum, Char.isAlpha, Char.isUpper, Char.isLower, Char.isDigit,
    Bool.or_eq_true, Bool.and_eq_true, decide_eq_true_eq, beq_iff_eq, ge_iff_le,
    UInt32.le_iff_toNat_le] at h
  rcases h with ((((((h | h) | h) | rfl) | rfl) | rfl) | rfl)
  · have : ch.toNat ≤ 90 := h.2
    omega
  · have : ch.toNat ≤ 122 := h.2
    omega
  · have : ch.toNat ≤ 57 := h.2
    omega
  all_goals decide

theorem isSpace_eq_false_of_isBareChar (h : isBareChar ch) : isSpace ch = false :=
  forall_ascii (p := fun ch ↦ isBareChar ch → isSpace ch = false) (by decide +kernel)
    (toNat_lt_of_isBareChar h) h

/-- There is no space in a bare string. -/
theorem space_notMem_of_bare {cs : List Char} (h : ∀ ch ∈ cs, isBareChar ch = true) : ' ' ∉ cs := by
  intro hmem
  have hspace : isBareChar ' ' = false := rfl
  rw [h ' ' hmem] at hspace
  cases hspace

theorem isBareChar_of_isNumberChar (h : isNumberChar ch) : isBareChar ch := by
  simp only [isNumberChar, Bool.or_eq_true] at h
  rcases h with (h | h) | h
  · simp [isBareChar, Char.isAlphanum, h]
  · simp [isBareChar, h]
  · simp [isBareChar, h]

/-- Whitespace ends a bare string. -/
theorem isBareChar_eq_false_of_isSpace (h : isSpace ch) : isBareChar ch = false := by
  refine Bool.eq_false_iff.2 fun hbare ↦ ?_
  rw [isSpace_eq_false_of_isBareChar hbare] at h
  cases h

/-- Whitespace ends a number. -/
theorem isNumberChar_eq_false_of_isSpace (h : isSpace ch) : isNumberChar ch = false := by
  refine Bool.eq_false_iff.2 fun hnumber ↦ ?_
  have hbare := isBareChar_of_isNumberChar hnumber
  rw [isBareChar_eq_false_of_isSpace h] at hbare
  cases hbare

/-! ### Letter case within ASCII -/

/-- The characters of a key that a line can name: bare characters, but no capitals. -/
def isKeyChar (ch : Char) : Bool :=
  isBareChar ch && !ch.isUpper

/-- The lower-case form of a bare character may stand in a key. -/
theorem isKeyChar_toLower (h : isBareChar ch) : isKeyChar ch.toLower :=
  forall_ascii (p := fun ch ↦ isBareChar ch → isKeyChar ch.toLower) (by decide +kernel)
    (toNat_lt_of_isBareChar h) h

/-- The run of the capitals of ASCII. It comes first in the table. -/
def asciiRun : CaseRun :=
  ⟨0x41, 0x5A, 1, 0x61⟩

theorem le_first_of_mem_tail_caseRuns : ∀ run ∈ caseRuns.tail, 128 ≤ run.first := by
  decide +kernel

/-- Only the first run covers characters of ASCII. -/
theorem find?_caseRuns_of_ascii (hch : ch.toNat < 128) :
    caseRuns.find? (·.covers ch.toNat) = if asciiRun.covers ch.toNat then some asciiRun else none := by
  have hrest : caseRuns.tail.find? (·.covers ch.toNat) = none := by
    refine List.find?_eq_none.2 fun run hrun hcovers ↦ ?_
    have hfirst := le_first_of_mem_tail_caseRuns run hrun
    simp only [CaseRun.covers, Bool.and_eq_true, decide_eq_true_eq] at hcovers
    omega
  show (asciiRun :: caseRuns.tail).find? _ = _
  rw [List.find?_cons, hrest]
  rcases asciiRun.covers ch.toNat with - | -
  · rfl
  · rfl

theorem lowerChar_of_ascii (hch : ch.toNat < 128) : lowerChar ch = [ch.toLower] := by
  have hdot : ch ≠ 'İ' := by
    rintro rfl
    exact absurd hch (by decide)
  rw [lowerChar, if_neg hdot, find?_caseRuns_of_ascii hch]
  by_cases hcovers : asciiRun.covers ch.toNat
  · rw [if_pos hcovers]
    exact forall_ascii (p := fun ch ↦ asciiRun.covers ch.toNat →
      [Char.ofNat (asciiRun.apply ch.toNat)] = [ch.toLower]) (by decide) hch hcovers
  · rw [if_neg hcovers]
    exact forall_ascii (p := fun ch ↦ ¬ asciiRun.covers ch.toNat → [ch] = [ch.toLower])
      (by decide) hch hcovers

/-- A character outside ASCII has no other letter case within it. -/
theorem isBareChar_of_toLower (h : isBareChar ch.toLower) : isBareChar ch := by
  by_cases hch : ch.toNat < 128
  · exact forall_ascii (p := fun ch ↦ isBareChar ch.toLower → isBareChar ch) (by decide +kernel) hch h
  · have hlower : ch.toLower = ch := by
      rw [Char.toLower, dif_neg]
      rintro ⟨-, hz⟩
      have : ch.toNat ≤ 90 := UInt32.le_iff_toNat_le.1 hz
      omega
    rwa [hlower] at h

/-- **Within ASCII the lower-case form is taken character by character.** -/
theorem lowerAfter_of_ascii {behind cs : List Char} (h : ∀ ch ∈ cs, ch.toNat < 128) :
    lowerAfter behind cs = cs.map Char.toLower := by
  induction cs generalizing behind with
  | nil => rfl
  | cons ch cs ih =>
    have hch : ch.toNat < 128 := h ch (.head _)
    have hsigma : ch ≠ 'Σ' := by
      rintro rfl
      exact absurd hch (by decide)
    rw [lowerAfter, if_neg hsigma, lowerChar_of_ascii hch, ih fun d hd ↦ h d (.tail _ hd)]
    rfl

theorem toList_lowerCase {s : String} (h : ∀ ch ∈ s.toList, ch.toNat < 128) :
    (lowerCase s).toList = s.toList.map Char.toLower := by
  rw [lowerCase, String.toList_ofList, lowerAfter_of_ascii h]

end TypedLine
