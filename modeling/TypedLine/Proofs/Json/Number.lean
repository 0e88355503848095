import Mathlib.Data.List.Basic
import TypedLine.Json.Token
import TypedLine.Proofs.Numeral

/-!
# Integers in JSON

What is written for an integer is an integer of JSON (`isInteger_showInt`), and from an integer of
JSON that ends where the number ends the reader takes just its digits
(`IsInteger.exists_readNumber?`). These stand for the integer itself as long as it fits in 64 bits
with or without a sign.
-/

namespace TypedLine.Json

open TypedLine.Numeral

-- Powers are those of the core library, also where other powers are at hand.
attribute [local instance (high)] instPowNat

/-! ### Written integers -/

/-- The digits of a number start with no zero, but for the number zero. -/
theorem showNat_of_zero (n : Nat) : (showNat n).head? = some '0' → n = 0 := by
  have hsmall : ∀ d < 10, Nat.digitChar d = '0' → d = 0 := by decide
  induction n using Nat.strongRecOn with
  | ind n ih =>
    rcases Nat.lt_or_ge n 10 with hn | hn
    · intro hhead
      rw [showNat, Nat.toDigits_of_lt_base hn] at hhead
      exact hsmall n hn (Option.some.inj hhead)
    · have hstep : showNat n = showNat (n / 10) ++ [Nat.digitChar (n % 10)] :=
        Nat.toDigits_of_base_le (by decide) hn
      have hne : showNat (n / 10) ≠ [] := Nat.toDigits_ne_nil
      intro hhead
      rw [hstep, List.head?_append_of_ne_nil _ hne] at hhead
      have := ih (n / 10) (by omega) hhead
      omega

theorem isInteger_showNat {n : Nat} (hn : n ≠ 0) : IsInteger (showNat n) n := by
  have h := IsInteger.plain (isDigits_showNat n) (mt (showNat_of_zero n) hn)
  rwa [ofDigits_showNat] at h

/-- **What is written for an integer is an integer of JSON.** -/
theorem isInteger_showInt (n : Int) : IsInteger (showInt n) n := by
  cases n with
  | ofNat n =>
    rcases Nat.eq_zero_or_pos n with rfl | hn
    · exact .zero
    · exact isInteger_showNat (Nat.ne_of_gt hn)
  | negSucc n =>
    have h := IsInteger.minus (isDigits_showNat (n + 1))
      (mt (showNat_of_zero (n + 1)) (Nat.succ_ne_zero n))
    rwa [ofDigits_showNat] at h

/-! ### Reading -/

theorem readWhole?_append {whole rest : List Char} (hds : isDigits whole)
    (hzero : whole.head? = some '0' → whole = ['0'])
    (hrest : ∀ ch ∈ rest.head?, ch.isDigit = false) :
    readWhole? (whole ++ rest) = some (whole, rest) := by
  obtain ⟨htake, hdrop⟩ := scan_isDigit (isDigit_of_mem hds) rest hrest
  by_cases hhead : whole.head? = some '0'
  · rw [hzero hhead]
    rfl
  · have hne := (isDigits_iff.1 hds).1
    rw [readWhole?]
    · simp only [htake, hdrop, List.isEmpty_eq_false_iff.2 hne, Bool.false_eq_true, if_false]
    · intro cs hcs
      obtain ⟨d, ds, rfl⟩ := List.exists_cons_of_ne_nil hne
      exact hhead (congrArg List.head? (hcs ▸ rfl : d :: ds ++ rest = '0' :: cs))

theorem EndsNumber.readPart? {rest : List Char} (h : EndsNumber rest) :
    readPart? rest = some ([], rest) := by
  rw [Json.readPart?]
  rintro cs rfl
  exact (h '.' rfl).2.1 rfl

theorem EndsNumber.readExponent? {rest : List Char} (h : EndsNumber rest) :
    readExponent? rest = some (none, rest) := by
  rcases rest with - | ⟨ch, cs⟩
  · rfl
  · obtain ⟨-, -, he, hE⟩ := h ch rfl
    simp only [Json.readExponent?, he, hE, or_self, if_false]

/-- The digits of an integer are read up to the end of the number. -/
theorem readNumber?_sign_append (negative : Bool) {ds rest : List Char} (hds : isDigits ds)
    (hzero : ds.head? = some '0' → ds = ['0']) (hrest : EndsNumber rest) :
    readNumber? (sign negative ++ (ds ++ rest)) = some (⟨negative, ds, [], none⟩, rest) := by
  have hminus : (ds ++ rest).head? ≠ some '-' := by
    obtain ⟨d, ds, rfl⟩ := List.exists_cons_of_ne_nil (isDigits_iff.1 hds).1
    rintro ⟨⟩
    exact absurd (isDigit_of_mem hds '-' List.mem_cons_self) (by decide)
  rw [readNumber?, splitSign_sign_append hminus]
  simp only [readWhole?_append hds hzero fun ch hch ↦ (hrest ch hch).1, hrest.readPart?,
    hrest.readExponent?, Option.bind_eq_bind, Option.bind_some]
  rfl

/-! ### What the digits stand for -/

/-- A number does not get smaller as digits are added. -/
theorem le_ofDigitChars (ds : List Char) (acc : Nat) : acc ≤ Nat.ofDigitChars 10 ds acc := by
  induction ds generalizing acc with
  | nil => exact Nat.le_refl acc
  | cons d ds ih =>
    rw [Nat.ofDigitChars_cons]
    exact Nat.le_trans (by omega) (ih _)

/-- Digits that start with no zero stand for no zero. -/
theorem ofDigits_pos {ds : List Char} (hds : isDigits ds) (hzero : ds.head? ≠ some '0') :
    0 < ofDigits ds := by
  obtain ⟨d, ds, rfl⟩ := List.exists_cons_of_ne_nil (isDigits_iff.1 hds).1
  have hd := Char.isDigit_iff_toNat.1 (isDigit_of_mem hds d List.mem_cons_self)
  have hne : d.toNat ≠ '0'.toNat := fun h ↦ hzero (congrArg some (Char.toNat_inj.1 h))
  have hle := le_ofDigitChars ds (10 * 0 + (d.toNat - '0'.toNat))
  rw [ofDigits, Nat.ofDigitChars_cons]
  have : '0'.toNat = 48 := rfl
  omega

/-- Digits are taken to their end when the number that they make fits. -/
theorem takeDigits_of_le {ds : List Char} {acc : Nat}
    (h : Nat.ofDigitChars 10 ds acc ≤ maxSignificand) :
    takeDigits acc ds = (Nat.ofDigitChars 10 ds acc, []) := by
  induction ds generalizing acc with
  | nil => rfl
  | cons d ds ih =>
    rw [Nat.ofDigitChars_cons] at h ⊢
    have hnext : 10 * acc + (d.toNat - '0'.toNat) ≤ maxSignificand :=
      Nat.le_trans (le_ofDigitChars ds _) h
    rw [takeDigits]
    simp only [hnext, if_true]
    exact ih h

theorem quantity?_plain {ds : List Char} (h : ofDigits ds ≤ maxSignificand) :
    Number.quantity? ⟨false, ds, [], none⟩ = some (.integer (ofDigits ds)) := by
  have hdigits : takeDigits 0 ds = (ofDigits ds, []) := takeDigits_of_le h
  simp only [Number.quantity?, hdigits, takeDigits, ne_eq, not_true_eq_false, or_self, if_false,
    Bool.not_false, if_true]

theorem quantity?_minus {ds : List Char} (hpos : 0 < ofDigits ds)
    (h : ofDigits ds ≤ 2 ^ (63 : Nat)) :
    Number.quantity? ⟨true, ds, [], none⟩ = some (.integer (-(ofDigits ds : Int))) := by
  have hdigits : takeDigits 0 ds = (ofDigits ds, []) :=
    takeDigits_of_le (Nat.le_trans h (by decide))
  simp only [Number.quantity?, hdigits, takeDigits, ne_eq, not_true_eq_false, or_self, if_false,
    Bool.not_true, Bool.false_eq_true, hpos, h, true_and, if_true]

/-- **An integer of JSON is read as a number that stands for it**, when it fits in 64 bits with or
without a sign. -/
theorem IsInteger.exists_readNumber? {numeral rest : List Char} {n : Int} (h : IsInteger numeral n)
    (hlow : -2 ^ (63 : Nat) ≤ n) (hhigh : n < 2 ^ (64 : Nat)) (hrest : EndsNumber rest) :
    ∃ q, readNumber? (numeral ++ rest) = some (q, rest) ∧ q.quantity? = some (.integer n) := by
  cases h with
  | zero =>
    exact ⟨_, readNumber?_sign_append false (by decide) (fun _ ↦ rfl) hrest, by decide⟩
  | plain hds hzero =>
    exact ⟨_, readNumber?_sign_append false hds (fun hhead ↦ absurd hhead hzero) hrest,
      quantity?_plain (by unfold maxSignificand; omega)⟩
  | minus hds hzero =>
    exact ⟨_, readNumber?_sign_append true hds (fun hhead ↦ absurd hhead hzero) hrest,
      quantity?_minus (ofDigits_pos hds hzero) (by omega)⟩

/-- No number starts with a space. -/
theorem isSpace_eq_false_of_number {ch : Char} (h : ch.isDigit ∨ ch = '-') :
    isSpace ch = false := by
  rw [← Bool.not_eq_true, isSpace_iff]
  intro hmem
  simp only [List.mem_cons, List.not_mem_nil, or_false] at hmem
  obtain rfl | rfl | rfl | rfl := hmem
  all_goals exact absurd h (by decide)

/-- An integer of JSON starts with a digit or a minus sign. -/
theorem IsInteger.exists_eq_cons {numeral : List Char} {n : Int} (h : IsInteger numeral n) :
    ∃ ch cs, numeral = ch :: cs ∧ (ch.isDigit ∨ ch = '-') := by
  cases h with
  | zero => exact ⟨_, _, rfl, .inl (by decide)⟩
  | plain hds _ =>
    obtain ⟨d, ds, rfl⟩ := List.exists_cons_of_ne_nil (isDigits_iff.1 hds).1
    exact ⟨d, ds, rfl, .inl (isDigit_of_mem hds d List.mem_cons_self)⟩
  | minus _ _ => exact ⟨_, _, rfl, .inr rfl⟩

end TypedLine.Json
