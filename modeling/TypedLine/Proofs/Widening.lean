import TypedLine.Proofs.Lexeme

/-!
# Narrow and wide kinds of numbers

What each of the four kinds of numbers takes as a token. An integer is taken when it fits into the
width of its kind: no digit is dropped and nothing wraps around (`readIntegers_iff`). A fraction is
taken whatever its magnitude, by both floating-point kinds alike.

The kinds widen from one to the next: what is read as a narrower kind is read as a wider one as
well, from the same token (`floats_widen_integers`). So whoever tries one kind after the other finds
the end of the lexeme at the same place.
-/

namespace TypedLine

open Text

-- Powers are those of the core library, also where other powers are at hand.
attribute [local instance (high)] instPowNat

/-! ### Integers -/

/-- The token is an integer numeral of `n`, and `n` needs no more than `bits` bits besides its
sign. -/
def Numeral.IsIntegerWithin (bits : Nat) (token : List Char) (n : Int) : Prop :=
  IsInteger token n ∧ -2 ^ bits ≤ n ∧ n < 2 ^ bits

namespace Numeral

variable {token : List Char} {n : Int}

/-- A token is taken into a width when its number is in the range of that width. -/
theorem map_readInt?_bind_eq_some_iff {α : Type} {narrow : Int → Option α} {toInt : α → Int}
    {bits : Nat} (hnarrow : ∀ n i, narrow n = some i ↔ toInt i = n)
    (hrange : ∀ n, (∃ i, toInt i = n) ↔ -2 ^ bits ≤ n ∧ n < 2 ^ bits) :
    ((readInt? token).bind narrow).map toInt = some n ↔ IsIntegerWithin bits token n := by
  rw [Option.map_eq_some_iff]
  simp only [readInt?_bind_eq_some_iff hnarrow]
  constructor
  · rintro ⟨i, hi, rfl⟩
    exact ⟨hi, (hrange _).1 ⟨i, rfl⟩⟩
  · rintro ⟨hn, hbits⟩
    obtain ⟨i, rfl⟩ := (hrange n).2 hbits
    exact ⟨i, hn, rfl⟩

theorem not_isIntegerWithin_nil {bits : Nat} : ¬ IsIntegerWithin bits [] n := by
  rintro ⟨h, -⟩
  rw [← readInt?_eq_some_iff] at h
  cases h

/-- What fits into a narrow width fits into a wide one. -/
theorem IsIntegerWithin.mono {bits bits' : Nat} (hle : bits ≤ bits')
    (h : IsIntegerWithin bits token n) : IsIntegerWithin bits' token n := by
  obtain ⟨hn, hlow, hhigh⟩ := h
  have hpow : (2 : Int) ^ bits ≤ 2 ^ bits' := by
    exact_mod_cast Nat.pow_le_pow_right (by decide) hle
  exact ⟨hn, by omega, by omega⟩

/-- An integer numeral is a fractional one that has no point. -/
theorem IsInteger.exists_isFraction (h : IsInteger token n) : ∃ q, IsFraction token q := by
  cases h with
  | plain hds => exact ⟨_, @IsFraction.whole false _ hds⟩
  | minus hds => exact ⟨_, @IsFraction.whole true _ hds⟩

end Numeral

namespace Cursor

open Numeral

variable {c : Cursor} {k : Kind} {token rest : List Char} {r : Reading Int}

/-- The reads of integers in common. -/
theorem map_readNumber_integer_iff {α : Type} {narrow : Int → Option α} {toInt : α → Int}
    {bits : Nat} (hnarrow : ∀ n i, narrow n = some i ↔ toInt i = n)
    (hrange : ∀ n, (∃ i, toInt i = n) ↔ -2 ^ bits ≤ n ∧ n < 2 ^ bits)
    (hrun : LongestRun isNumberChar c.after token rest) :
    (c.readNumber k fun token ↦ (readInt? token).bind narrow).map toInt = r ↔
      NumberReading (IsIntegerWithin bits) c k token rest r := by
  rw [map_readNumber]
  exact readNumber_iff (fun _ _ ↦ map_readInt?_bind_eq_some_iff hnarrow hrange)
    (fun _ ↦ not_isIntegerWithin_nil) hrun

theorem map_readInt32_iff (hrun : LongestRun isNumberChar c.after token rest) :
    c.readInt32.map Int32.toInt = r ↔ NumberReading (IsIntegerWithin 31) c .int32 token rest r :=
  map_readNumber_integer_iff (fun _ _ ↦ int32?_eq_some_iff) (fun _ ↦ exists_int32_iff) hrun

theorem map_readInt64_iff (hrun : LongestRun isNumberChar c.after token rest) :
    c.readInt64.map Int64.toInt = r ↔ NumberReading (IsIntegerWithin 63) c .int64 token rest r :=
  map_readNumber_integer_iff (fun _ _ ↦ int64?_eq_some_iff) (fun _ ↦ exists_int64_iff) hrun

/-- **How the integer kinds are read**: each of them goes by the token, and their widths are all
that sets them apart. -/
theorem readIntegers_iff (c : Cursor) :
    ∃ token rest, LongestRun isNumberChar c.after token rest ∧ ∀ r : Reading Int,
      (c.readInt32.map Int32.toInt = r ↔
        NumberReading (IsIntegerWithin 31) c .int32 token rest r) ∧
      (c.readInt64.map Int64.toInt = r ↔
        NumberReading (IsIntegerWithin 63) c .int64 token rest r) := by
  have hrun := longestRun_takeWhile isNumberChar c.after
  exact ⟨_, _, hrun, fun r ↦ ⟨map_readInt32_iff hrun, map_readInt64_iff hrun⟩⟩

-- The least number of the kind, with more digits than the kind ever writes.
example : (Cursor.mk [] "-0002147483648".toList).readInt32.outcome = .ok (-2147483648) := by
  rfl

end Cursor

/-! ### Fractions -/

/-- What is known of a read of a floating-point number from the cursor `c`, where the longest run of
number characters is `token` and `rest` is what follows it. -/
structure ReadsFractions {f : FloatFormat} (c : Cursor) (k : Kind) (token rest : List Char)
    (r : Reading (BinaryFloat f)) : Prop where
  /-- It goes through on the fractional numerals, however great and however long. -/
  ok_iff : (∃ x, r.outcome = .ok x) ↔ ∃ q, Numeral.IsFraction token q
  /-- Then it never gives a not-a-number, and the cursor goes just past the token. -/
  of_ok : ∀ x, r.outcome = .ok x → x ≠ .nan ∧ r.cursor = ⟨c.before ++ token, rest⟩
  /-- Otherwise a number is missing or the token is refused as a whole, and the cursor stays. -/
  of_error : ∀ e, r.outcome = .error e → r.cursor = c ∧
    e = if token = [] then .missingValue c.position k.name
      else .wrongType c.position k.name (String.ofList token)

/-- The token is a fractional numeral, and `x` is the number nearest to it. -/
def BinaryFloat.IsReadFrom {f : FloatFormat} (token : List Char) (x : BinaryFloat f) : Prop :=
  ∃ q, Numeral.IsFraction token q ∧ ofFraction q = x

theorem BinaryFloat.IsReadFrom.ne_nan {f : FloatFormat} {token : List Char} {x : BinaryFloat f}
    (h : IsReadFrom token x) : x ≠ .nan := by
  obtain ⟨q, -, rfl⟩ := h
  exact nofun

theorem Numeral.not_isFraction_nil {q : Fraction} : ¬ IsFraction [] q := by
  rw [← readFraction?_eq_some_iff]
  exact nofun

namespace Cursor

open Numeral

variable {f : FloatFormat} {c : Cursor} {k : Kind} {token rest : List Char}
  {r : Reading (BinaryFloat f)}

theorem readNumber_fraction_iff (hrun : LongestRun isNumberChar c.after token rest) :
    c.readNumber k BinaryFloat.read? = r ↔
      NumberReading BinaryFloat.IsReadFrom c k token rest r :=
  readNumber_iff (fun _ _ ↦ BinaryFloat.read?_eq_some_iff)
    (fun _ ⟨_, hq, _⟩ ↦ not_isFraction_nil hq) hrun

/-- What the two floating-point kinds have in common: their formats decide what is read, and nothing
else. -/
theorem readsFractions (hrun : LongestRun isNumberChar c.after token rest) :
    ReadsFractions c k token rest (c.readNumber k (BinaryFloat.read? (f := f))) := by
  have hread := (readNumber_fraction_iff (f := f) (k := k) hrun).1 rfl
  generalize c.readNumber k BinaryFloat.read? = r at hread
  cases hread with
  | missing htoken =>
    refine ⟨⟨nofun, fun ⟨q, hq⟩ ↦ ?_⟩, nofun, fun e he ↦ ?_⟩
    · rw [htoken] at hq
      exact absurd hq not_isFraction_nil
    · obtain rfl := Except.error.inj he
      exact ⟨rfl, (if_pos htoken).symm⟩
  | @taken x hx =>
    obtain ⟨q, hq, -⟩ := id hx
    refine ⟨⟨fun _ ↦ ⟨q, hq⟩, fun _ ↦ ⟨x, rfl⟩⟩, fun y hy ↦ ?_, nofun⟩
    obtain rfl := Except.ok.inj hy
    exact ⟨hx.ne_nan, rfl⟩
  | refused htoken hnone =>
    refine ⟨⟨nofun, fun ⟨q, hq⟩ ↦ absurd ⟨q, hq, rfl⟩ (hnone _)⟩, nofun, fun e he ↦ ?_⟩
    obtain rfl := Except.error.inj he
    exact ⟨rfl, (if_neg htoken).symm⟩

/-- Where an integer is read, a fraction is. -/
theorem exists_readNumber_of_isInteger {n : Int} (hrun : LongestRun isNumberChar c.after token rest)
    (h : IsInteger token n) :
    ∃ x : BinaryFloat f, c.readNumber k BinaryFloat.read? = ⟨.ok x, ⟨c.before ++ token, rest⟩⟩ := by
  obtain ⟨q, hq⟩ := h.exists_isFraction
  exact ⟨_, (readNumber_fraction_iff hrun).2 (.taken ⟨q, hq, rfl⟩)⟩

/-- The read `wide` **widens** the read `narrow` of the same cursor `c`: whether or not the narrow
one is tried first, the lexeme ends at the same place. -/
structure Widens {α β : Type} (c : Cursor) (narrow : Reading α) (wide : Reading β) : Prop where
  /-- What the narrow read takes, the wide one takes as well. -/
  of_ok : ∀ x c', narrow = ⟨.ok x, c'⟩ → ∃ y, wide = ⟨.ok y, c'⟩
  /-- Where the narrow read fails, the cursor is where the wide one would have started. -/
  of_error : ∀ e c', narrow = ⟨.error e, c'⟩ → c' = c

/-- A floating-point kind widens the integers of 64 bits. -/
theorem widens_map_readInt64 (hrun : LongestRun isNumberChar c.after token rest) :
    Widens c (c.readInt64.map Int64.toInt) (c.readNumber k (BinaryFloat.read? (f := f))) where
  of_ok n c' h := by
    cases (map_readInt64_iff hrun).1 h with
    | taken hn => exact exists_readNumber_of_isInteger hrun hn.1
  of_error e c' h := ((map_readInt64_iff hrun).1 h).cursor_of_error rfl

/-- **The floating-point kinds share one grammar, and it is wider than that of the integers.** All
four kinds see the same token, and each of them widens the narrower ones; of the integers, the
number is the same as well. -/
theorem floats_widen_integers (c : Cursor) :
    ∃ token rest, LongestRun isNumberChar c.after token rest ∧
      ReadsFractions c .single token rest c.readSingle ∧
      ReadsFractions c .double token rest c.readDouble ∧
      (∀ n c', c.readInt32.map Int32.toInt = ⟨.ok n, c'⟩ →
        c.readInt64.map Int64.toInt = ⟨.ok n, c'⟩) ∧
      Widens c (c.readInt32.map Int32.toInt) (c.readInt64.map Int64.toInt) ∧
      Widens c (c.readInt64.map Int64.toInt) c.readSingle ∧
      Widens c (c.readInt64.map Int64.toInt) c.readDouble := by
  have hrun := longestRun_takeWhile isNumberChar c.after
  have hsame : ∀ n c', c.readInt32.map Int32.toInt = ⟨.ok n, c'⟩ →
      c.readInt64.map Int64.toInt = ⟨.ok n, c'⟩ := by
    intro n c' h
    cases (map_readInt32_iff hrun).1 h with
    | taken hn => exact (map_readInt64_iff hrun).2 (.taken (hn.mono (by decide)))
  have hintegers : Widens c (c.readInt32.map Int32.toInt) (c.readInt64.map Int64.toInt) := by
    refine ⟨fun n c' h ↦ ⟨n, hsame n c' h⟩, fun e c' h ↦ ?_⟩
    exact ((map_readInt32_iff hrun).1 h).cursor_of_error rfl
  exact ⟨_, _, hrun, readsFractions hrun, readsFractions hrun, hsame, hintegers,
    widens_map_readInt64 hrun, widens_map_readInt64 hrun⟩

end Cursor

end TypedLine
