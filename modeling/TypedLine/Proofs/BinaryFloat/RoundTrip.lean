import TypedLine.Proofs.BinaryFloat.BitPattern
import TypedLine.Proofs.BinaryFloat.ShortestDecimal
import TypedLine.Proofs.CanonicalLine

/-!
# Floating-point numbers through their text

The text of a finite number, read where no further number character follows, is the number again,
bit for bit; and no numeral with fewer significant digits is. This holds of every finite bit pattern
of either width, both zeros and the subnormal numbers among them: `finite_readsBack`.

The text is positional, so it has no character that is not a number character, and its digits and
its point denote exactly the decimal that was chosen (`isFraction_positional`). That decimal rounds
to the rank it was chosen for, and reading rounds just so.
-/

namespace TypedLine

-- Powers are those of the core library, also where other powers are at hand.
attribute [local instance (high)] instPowNat

/-! ### Digits and zeros around them -/

namespace Numeral

theorem isDigits_replicate_append {ds : List Char} (hds : isDigits ds) (zeros : Nat) :
    isDigits (List.replicate zeros '0' ++ ds) := by
  obtain ⟨hne, hdigit⟩ := isDigits_iff.1 hds
  refine isDigits_iff.2 ⟨List.append_ne_nil_of_right_ne_nil _ hne, ?_⟩
  refine List.forall_mem_append.2 ⟨fun d hd ↦ ?_, hdigit⟩
  rw [List.eq_of_mem_replicate hd]
  decide

theorem isDigits_append_replicate {ds : List Char} (hds : isDigits ds) (zeros : Nat) :
    isDigits (ds ++ List.replicate zeros '0') := by
  obtain ⟨hne, hdigit⟩ := isDigits_iff.1 hds
  refine isDigits_iff.2 ⟨List.append_ne_nil_of_left_ne_nil hne _, ?_⟩
  refine List.forall_mem_append.2 ⟨hdigit, fun d hd ↦ ?_⟩
  rw [List.eq_of_mem_replicate hd]
  decide

/-- Zeros before the digits change nothing. -/
theorem ofDigits_replicate_append (zeros : Nat) (ds : List Char) :
    ofDigits (List.replicate zeros '0' ++ ds) = ofDigits ds := by
  rw [ofDigits, Nat.ofDigitChars_append, Nat.ofDigitChars_replicate_zero, Nat.mul_zero, ofDigits]

/-- Each zero behind the digits multiplies by ten. -/
theorem ofDigits_append_replicate (ds : List Char) (zeros : Nat) :
    ofDigits (ds ++ List.replicate zeros '0') = ofDigits ds * 10 ^ zeros := by
  rw [ofDigits, Nat.ofDigitChars_append, Nat.ofDigitChars_replicate_zero, Nat.mul_comm, ofDigits]

/-- A run of digits is less than the power of ten that is one digit longer. -/
theorem ofDigits_lt {ds : List Char} (hds : ∀ d ∈ ds, d.isDigit) :
    ofDigits ds < 10 ^ ds.length := by
  induction ds with
  | nil => exact Nat.one_pos
  | cons d ds ih =>
    obtain ⟨hd, hds⟩ := List.forall_mem_cons.1 hds
    have hlt := ih hds
    have hdigit : d.toNat - '0'.toNat ≤ 9 := by
      have hnine : d.toNat ≤ '9'.toNat := by
        simp only [Char.isDigit, Bool.and_eq_true, decide_eq_true_eq] at hd
        exact UInt32.le_iff_toNat_le.1 hd.2
      exact Nat.sub_le_sub_right hnine _
    have hvalue : ofDigits (d :: ds) =
        10 ^ ds.length * (d.toNat - '0'.toNat) + ofDigits ds := by
      rw [ofDigits, Nat.ofDigitChars_cons, Nat.ofDigitChars_eq_ofDigitChars_zero, Nat.mul_zero,
        Nat.zero_add, ofDigits]
    have hle := Nat.mul_le_mul_left (10 ^ ds.length) hdigit
    rw [hvalue, List.length_cons, Nat.pow_succ]
    omega

end Numeral

/-! ### The positional text of a decimal -/

namespace Decimal

open Numeral

/-- **The positional text denotes the decimal**, exactly: its digits are the numerator of the power
of ten, and the digits behind its point are as many as the denominator has zeros. -/
theorem isFraction_positional (negative : Bool) (d : Decimal) :
    ∃ q, IsFraction (sign negative ++ d.positional) q ∧ q.negative = negative ∧
      q.numerator = d.digits * (tenPower d.exponent).1 ∧
      q.denominator = (tenPower d.exponent).2 ∧
      ∃ before behind, q.whole ++ q.part =
        List.replicate before '0' ++ showNat d.digits ++ List.replicate behind '0' := by
  obtain ⟨digits, exponent⟩ := d
  cases exponent with
  | ofNat n =>
    have hds : isDigits (showNat digits ++ List.replicate n '0') :=
      isDigits_append_replicate (isDigits_showNat digits) n
    refine ⟨⟨negative, showNat digits ++ List.replicate n '0', []⟩, .whole hds, rfl, ?_, rfl, 0, n,
      ?_⟩
    · rw [Fraction.numerator, List.append_nil, ofDigits_append_replicate, ofDigits_showNat]
      rfl
    · rw [List.append_nil]
      rfl
  | negSucc n =>
    -- The padding leaves one digit at least before the point.
    have hpadded := isDigits_replicate_append (isDigits_showNat digits)
      (n + 2 - (showNat digits).length)
    have hlength : n + 2 ≤
        (List.replicate (n + 2 - (showNat digits).length) '0' ++ showNat digits).length := by
      rw [List.length_append, List.length_replicate]
      omega
    have hdigits := ofDigits_replicate_append (n + 2 - (showNat digits).length) (showNat digits)
    rw [ofDigits_showNat] at hdigits
    show ∃ q, IsFraction (sign negative ++ (_ ++ '.' :: _)) q ∧ _
    generalize hpad : List.replicate (n + 2 - (showNat digits).length) '0' ++ showNat digits =
      padded at hpadded hlength hdigits
    have hparts : padded.take (padded.length - (n + 1)) ++ padded.drop (padded.length - (n + 1)) =
        padded := List.take_append_drop _ _
    refine ⟨⟨negative, padded.take (padded.length - (n + 1)),
      padded.drop (padded.length - (n + 1))⟩, ?_, rfl, ?_, ?_,
        n + 2 - (showNat digits).length, 0, ?_⟩
    · subst hpad
      exact .pointed (hparts.symm ▸ hpadded)
    · rw [Fraction.numerator, hparts, hdigits]
      exact (Nat.mul_one _).symm
    · rw [Fraction.denominator, List.length_drop, Nat.sub_sub_self (by omega)]
      rfl
    · rw [hparts, ← hpad]
      exact (List.append_nil _).symm

end Decimal

/-! ### Significant digits -/

namespace Numeral

/-- Apart from zeros before them and behind them, the digits of the numeral are at most `count`:
it has no more **significant digits** than that. -/
def SignificantAtMost (count : Nat) (cs : List Char) : Prop :=
  ∃ before digits behind,
    cs.filter Char.isDigit =
        List.replicate before '0' ++ digits ++ List.replicate behind '0' ∧
      digits.length ≤ count

/-- The digits of a fractional numeral are those on both sides of the point. -/
theorem IsFraction.filter_isDigit {cs : List Char} {q : Fraction} (h : IsFraction cs q) :
    cs.filter Char.isDigit = q.whole ++ q.part := by
  have hsign : ∀ negative, (sign negative).filter Char.isDigit = [] := by decide
  cases h with
  | @whole negative ds hds =>
    rw [List.filter_append, hsign, List.nil_append, List.append_nil]
    exact List.filter_eq_self.2 (isDigit_of_mem hds)
  | @pointed negative whole part hds =>
    obtain ⟨hwhole, hpart⟩ := List.forall_mem_append.1 (isDigit_of_mem hds)
    rw [List.filter_append, hsign, List.nil_append, List.filter_append,
      List.filter_eq_self.2 hwhole, List.filter_cons_of_neg (by decide), List.filter_eq_self.2 hpart]

/-- A numeral with few significant digits denotes a decimal with few digits. -/
theorem IsFraction.exists_decimal {cs : List Char} {q : Fraction} {count : Nat}
    (h : IsFraction cs q) (hcount : SignificantAtMost count cs) :
    ∃ d : Decimal, d.digits < 10 ^ count ∧ d.value = q.numerator / q.denominator := by
  obtain ⟨before, digits, behind, hsplit, hlength⟩ := hcount
  have hds := h.filter_isDigit
  rw [hsplit] at hds
  have hdigit : ∀ d ∈ digits, d.isDigit := by
    intro d hd
    have hmem : d ∈ cs.filter Char.isDigit := by
      rw [hsplit]
      exact List.mem_append_left _ (List.mem_append_right _ hd)
    exact (List.mem_filter.1 hmem).2
  have hlt : ofDigits digits < 10 ^ count :=
    Nat.lt_of_lt_of_le (ofDigits_lt hdigit) (Nat.pow_le_pow_right (by decide) hlength)
  have hnumerator : q.numerator = ofDigits digits * 10 ^ behind := by
    rw [Fraction.numerator, ← hds, ofDigits_append_replicate, ofDigits_replicate_append]
  refine ⟨⟨ofDigits digits, behind - q.part.length⟩, hlt, ?_⟩
  rw [Decimal.value, hnumerator, Fraction.denominator, zpow_sub₀ (by norm_num), zpow_natCast,
    zpow_natCast]
  push_cast
  ring

end Numeral

/-! ### The text of a finite number -/

namespace FloatFormat

/-- The decimal that is written for a finite rank. -/
def writtenDecimal (f : FloatFormat) (rank : Nat) : Decimal :=
  if rank = 0 then ⟨0, 0⟩ else f.shortest .up rank

variable {f : FloatFormat} {rank : Nat}

theorem readsAs_writtenDecimal (f : FloatFormat) (rank : Nat) :
    f.readsAs rank (f.writtenDecimal rank) = true := by
  rw [writtenDecimal]
  split
  · rename_i hzero
    subst hzero
    have hvalue : (Decimal.mk 0 0).value * f.unitsPerOne = (f.units 0 : ℚ) := by
      rw [Decimal.value, units_zero, Nat.cast_zero, zero_mul, zero_mul]
    rw [readsAs_iff, hvalue]
    exact f.roundsTo_units 0
  · exact (f.shortest_coarsest .up (by omega)).1

/-- No decimal with fewer digits reads back. -/
theorem digits_writtenDecimal_lt {d : Decimal} (h : f.readsAs rank d = true) {count : Nat}
    (hcount : d.digits < 10 ^ count) : (f.writtenDecimal rank).digits < 10 ^ count := by
  rw [writtenDecimal]
  split
  · exact Nat.pow_pos (by decide)
  · exact digits_shortest_lt .up (by omega) h hcount

theorem magnitudeText_eq (h : rank < f.infinityRank) :
    BinaryFloat.magnitudeText f rank = (f.writtenDecimal rank).positional := by
  rw [BinaryFloat.magnitudeText, writtenDecimal]
  by_cases hzero : rank = 0
  · rw [if_pos hzero, if_pos hzero]
    rfl
  · rw [if_neg hzero, if_neg hzero, if_pos h]

/-- The bit pattern is that of a finite number of the format: it has no more bits than the format,
and those of the exponent are not all set. -/
def IsFinite (f : FloatFormat) (bits : Nat) : Prop :=
  bits < 2 * (2 ^ f.exponentBits * f.binade) ∧
    bits / f.binade % 2 ^ f.exponentBits ≠ 2 ^ f.exponentBits - 1

instance (f : FloatFormat) (bits : Nat) : Decidable (f.IsFinite bits) :=
  inferInstanceAs (Decidable (_ ∧ _))

/-- A pattern is finite when its rank, without the sign, is less than that of infinity. -/
theorem isFinite_iff {bits : Nat} :
    f.IsFinite bits ↔ bits < 2 * f.ranks ∧ bits % f.ranks < f.infinityRank := by
  have hfield : f.exponentField bits < 2 ^ f.exponentBits := Nat.mod_lt _ (Nat.two_pow_pos _)
  rw [infinityRank, ← Nat.div_lt_iff_lt_mul f.binade_pos, (f.mod_ranks_div bits).1]
  refine and_congr_right fun _ ↦ ?_
  show f.exponentField bits ≠ _ ↔ _
  omega

end FloatFormat

namespace BinaryFloat

open Numeral

variable {f : FloatFormat} {negative : Bool} {rank : Fin (f.infinityRank + 1)}

/-- The text of a finite number is a sign and a decimal. -/
theorem text_eq (hfinite : rank.val < f.infinityRank) :
    (number negative rank).text = sign negative ++ (f.writtenDecimal rank).positional := by
  rw [text, FloatFormat.magnitudeText_eq hfinite]
  cases negative with
  | true => rfl
  | false => rfl

/-- A rank that is not past infinity is kept. -/
theorem ofRank_val (negative : Bool) (rank : Fin (f.infinityRank + 1)) :
    ofRank negative rank.val = number negative rank := by
  rw [ofRank]
  congr 1
  exact Fin.ext (Nat.min_eq_left (Nat.le_of_lt_succ rank.isLt))

/-- A finite number is read from exactly the numerals that round to it. -/
theorem ofFraction_eq_iff {q : Fraction} (hfinite : rank.val < f.infinityRank) :
    ofFraction q = number negative rank ↔ q.negative = negative ∧
      f.nearestRank (q.numerator * f.unitsPerOne) q.denominator = rank := by
  rw [ofFraction, ofRatio, ofRank, number.injEq, Fin.ext_iff]
  show _ ∧ min _ _ = rank.val ↔ _
  refine and_congr_right fun _ ↦ ?_
  omega

/-- **The text of a finite number reads as the number.** -/
theorem read?_text (hfinite : rank.val < f.infinityRank) :
    read? (number negative rank).text = some (number negative rank) := by
  obtain ⟨q, hq, hsign, hnumerator, hdenominator, -⟩ :=
    (f.writtenDecimal rank).isFraction_positional negative
  have hreads : f.nearestRank (q.numerator * f.unitsPerOne) q.denominator = rank := by
    have hwritten := f.readsAs_writtenDecimal rank
    rw [FloatFormat.readsAs, beq_iff_eq] at hwritten
    rwa [hnumerator, hdenominator]
  rw [text_eq hfinite]
  exact read?_eq_some_iff.2 ⟨q, hq, (ofFraction_eq_iff hfinite).2 ⟨hsign, hreads⟩⟩

/-- The text of a finite number is a numeral, so it is made of number characters. -/
theorem isNumberChar_of_mem_text (hfinite : rank.val < f.infinityRank) :
    ∀ ch ∈ (number negative rank).text, isNumberChar ch = true := by
  have hread : read? (number negative rank).text = some (number negative rank) := read?_text hfinite
  obtain ⟨q, hq, -⟩ := read?_eq_some_iff.1 hread
  exact hq.isNumberChar

/-- **No numeral with fewer significant digits reads as the number.** -/
theorem significantAtMost_text {cs : List Char} {count : Nat} (hfinite : rank.val < f.infinityRank)
    (h : read? cs = some (number negative rank)) (hcount : SignificantAtMost count cs) :
    SignificantAtMost count (number negative rank).text := by
  obtain ⟨q, hq, hnumber⟩ := read?_eq_some_iff.1 h
  obtain ⟨d, hdigits, hvalue⟩ := hq.exists_decimal hcount
  have hreads : f.readsAs rank d = true := by
    have hden : 0 < q.denominator := Nat.pow_pos (by decide)
    have hrounds := (f.nearestRank_eq_iff hden).1 ((ofFraction_eq_iff hfinite).1 hnumber).2
    have hunits : d.value * f.unitsPerOne =
        (q.numerator * f.unitsPerOne : Nat) / q.denominator := by
      rw [hvalue]
      push_cast
      ring
    rwa [FloatFormat.readsAs_iff, hunits]
  have hwritten := FloatFormat.digits_writtenDecimal_lt hreads hdigits
  obtain ⟨q', hq', -, -, -, before, behind, hsplit⟩ :=
    (f.writtenDecimal rank).isFraction_positional negative
  rw [← text_eq hfinite] at hq'
  rcases Nat.eq_zero_or_pos count with rfl | hpos
  · -- Only zero has no significant digit, and then the digit that is written is a zero as well.
    have hzero : (f.writtenDecimal rank).digits = 0 := by
      rw [Nat.pow_zero] at hwritten
      omega
    refine ⟨before + 1, [], behind, ?_, Nat.le_refl _⟩
    rw [hq'.filter_isDigit, hsplit, hzero, List.append_nil, List.replicate_succ']
    rfl
  · exact ⟨before, showNat (f.writtenDecimal rank).digits, behind,
      hq'.filter_isDigit.trans hsplit, (Nat.length_toDigits_le_iff (by decide) hpos).2 hwritten⟩

/-- A finite pattern is that of one number, which has it. -/
theorem exists_ofBits_eq {bits : Nat} (h : f.IsFinite bits) :
    ∃ negative rank, rank.val < f.infinityRank ∧
      (ofBits bits : BinaryFloat f) = number negative rank ∧
        (number negative rank).bits? = some bits := by
  obtain ⟨hbits, hrank⟩ := FloatFormat.isFinite_iff.1 h
  let rank : Fin (f.infinityRank + 1) := ⟨bits % f.ranks, by omega⟩
  refine ⟨f.isNegative bits, rank, hrank, ?_,
    congrArg some (FloatFormat.pattern_isNegative_mod hbits)⟩
  show (if bits % f.ranks ≤ f.infinityRank then ofRank (f.isNegative bits) (bits % f.ranks)
    else .nan) = _
  rw [if_pos hrank.le]
  exact ofRank_val _ rank

end BinaryFloat

/-- What it means that the text of a number **reads back**. The number is that of the bit pattern;
its text has number characters only; where no further number character follows, the read gives the
number again and goes just past the text; and the text has no more significant digits than any
numeral of the number. -/
structure BinaryFloat.ReadsBack {f : FloatFormat} (read : Cursor → Reading (BinaryFloat f))
    (x : BinaryFloat f) (text : List Char) (bits : Nat) : Prop where
  /-- The number has the bit pattern. -/
  bits_eq : x.bits? = some bits
  /-- The text is over digits, the point and the minus sign. -/
  alphabet : ∀ ch ∈ text, isNumberChar ch = true
  /-- The text is read as the number at any place. -/
  reads : ∀ front back, (∀ ch ∈ back.head?, isNumberChar ch = false) →
    read ⟨front, text ++ back⟩ = ⟨.ok x, ⟨front ++ text, back⟩⟩
  /-- No numeral of the number is shorter. -/
  shortest : ∀ cs count, BinaryFloat.read? cs = some x → Numeral.SignificantAtMost count cs →
    Numeral.SignificantAtMost count text

/-- **A finite number reads back from its text**, in every format. -/
theorem BinaryFloat.readsBack_text {f : FloatFormat} {k : Kind} {bits : Nat} (h : f.IsFinite bits) :
    ReadsBack (fun c ↦ c.readNumber k read?) (ofBits bits : BinaryFloat f)
      (ofBits bits : BinaryFloat f).text bits := by
  obtain ⟨negative, rank, hfinite, hnumber, hbits⟩ := exists_ofBits_eq h
  rw [hnumber]
  exact {
    bits_eq := hbits
    alphabet := isNumberChar_of_mem_text hfinite
    reads := fun front back hback ↦
      (Cursor.readNumber_eq_ok_iff rfl).2 ⟨_, back,
        Text.longestRun_append (isNumberChar_of_mem_text hfinite) hback, read?_text hfinite, rfl⟩
    shortest := fun cs count hread hcount ↦ significantAtMost_text hfinite hread hcount }

/-- **Every finite number of 32 or 64 bits reads back from its text**, bit for bit. -/
theorem finite_readsBack :
    (∀ bits : UInt32, FloatFormat.single.IsFinite bits.toNat →
      BinaryFloat.ReadsBack Cursor.readSingle (.ofBits bits.toNat)
        (Value.single (.ofBits bits.toNat)).text.toList bits.toNat) ∧
    (∀ bits : UInt64, FloatFormat.double.IsFinite bits.toNat →
      BinaryFloat.ReadsBack Cursor.readDouble (.ofBits bits.toNat)
        (Value.double (.ofBits bits.toNat)).text.toList bits.toNat) := by
  refine ⟨fun bits h ↦ ?_, fun bits h ↦ ?_⟩
  · have htext : (Value.single (.ofBits bits.toNat)).text.toList =
        (BinaryFloat.ofBits bits.toNat : Single).text := String.toList_ofList
    rw [htext]
    exact BinaryFloat.readsBack_text h
  · have htext : (Value.double (.ofBits bits.toNat)).text.toList =
        (BinaryFloat.ofBits bits.toNat : Double).text := String.toList_ofList
    rw [htext]
    exact BinaryFloat.readsBack_text h

/-- The negative number of 32 bits that is nearest to zero is written with one significant digit,
and is read back from in between other text. -/
theorem finite_readsBack_subnormal :
    FloatFormat.single.IsFinite 0x80000001 ∧
      (Cursor.mk ['x']
          ("-0.000000000000000000000000000000000000000000001".toList ++ [','])).readSingle =
        ⟨.ok (.ofBits 0x80000001),
          ⟨['x'] ++ "-0.000000000000000000000000000000000000000000001".toList, [',']⟩⟩ := by
  have hbits : (0x80000001 : UInt32).toNat = 0x80000001 := by decide
  have hfinite : FloatFormat.single.IsFinite (0x80000001 : UInt32).toNat := by decide
  have htext : (Value.single (.ofBits (0x80000001 : UInt32).toNat)).text =
      "-0.000000000000000000000000000000000000000000001" := by decide +kernel
  have hread := (finite_readsBack.1 0x80000001 hfinite).reads ['x'] [','] (by simp [isNumberChar])
  rw [htext] at hread
  rw [hbits] at hfinite hread
  exact ⟨hfinite, hread⟩

end TypedLine
