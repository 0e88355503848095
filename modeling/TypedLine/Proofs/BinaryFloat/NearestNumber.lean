import TypedLine.Proofs.BinaryFloat.RoundTrip
import TypedLine.Proofs.Widening

/-!
# The nearest number

What it means that a number of a format is **correctly rounded** from an exact number, on bit
patterns and the rational numbers they stand for (`CorrectlyRounded`): no finite pattern is nearer,
of two that are equally near the one with the even significand is taken, and from a limit on the
result is infinite. The sign is that of the exact number, of a zero as well.

A number that lies in the interval of a rank is nearest to the magnitude of the rank, and the other
way round: `RoundsTo.nearestEven` and `NearestEven.roundsTo`. So what is read is what is correctly
rounded, in one step from the exact number to the width asked for: `Cursor.readFloats_iff`.
-/

namespace TypedLine

open Text

-- Powers are those of the core library, also where other powers are at hand.
attribute [local instance (high)] instPowNat

/-! ### Distances -/

/-- The lower one of two numbers is as near as the higher one up to the number halfway. -/
theorem abs_sub_lower_le_iff {a b x : ℚ} (h : a < b) : |x - a| ≤ |x - b| ↔ 2 * x ≤ a + b := by
  have hdiff : (x - b) ^ 2 - (x - a) ^ 2 = (b - a) * (a + b - 2 * x) := by ring
  rw [← sq_le_sq, ← sub_nonneg, hdiff, mul_nonneg_iff_of_pos_left (sub_pos.2 h), sub_nonneg]

/-- The higher one is as near from there on. -/
theorem abs_sub_higher_le_iff {a b x : ℚ} (h : a < b) : |x - b| ≤ |x - a| ↔ a + b ≤ 2 * x := by
  have hdiff : (x - a) ^ 2 - (x - b) ^ 2 = (b - a) * (2 * x - (a + b)) := by ring
  rw [← sq_le_sq, ← sub_nonneg, hdiff, mul_nonneg_iff_of_pos_left (sub_pos.2 h), sub_nonneg]

namespace FloatFormat

variable {f : FloatFormat} {u x : ℚ} {r s bits : Nat} {negative : Bool}

theorem cast_units_lt (h : r < s) : (f.units r : ℚ) < f.units s := by
  exact_mod_cast f.strictMono_units h

theorem cast_units_le (h : r ≤ s) : (f.units r : ℚ) ≤ f.units s := by
  exact_mod_cast f.strictMono_units.monotone h

theorem cast_middle (f : FloatFormat) (r : Nat) :
    (f.middle r : ℚ) = f.units r + f.units (r + 1) :=
  Nat.cast_add ..

namespace RoundsTo

/-- What is so of the rank before is so of every rank before: the number is not below the middle. -/
theorem above_of_lt (h : f.RoundsTo u r) (hlt : s < r) :
    f.units s + f.units r < 2 * u ∨ f.units s + f.units r = 2 * u ∧ r % 2 = 0 := by
  obtain ⟨before, rfl⟩ : ∃ before, r = before + 1 := ⟨r - 1, by omega⟩
  have hle : (f.units s + f.units (before + 1) : ℚ) ≤ f.middle before := by
    rw [cast_middle]
    exact add_le_add_left (cast_units_le (Nat.le_of_lt_succ hlt)) _
  rcases h.above before rfl with habove | ⟨habove, heven⟩
  · exact .inl (hle.trans_lt habove)
  · exact (hle.trans_eq habove).lt_or_eq.imp_right fun htie ↦ ⟨htie, heven⟩

/-- Likewise of every rank behind. -/
theorem below_of_lt (h : f.RoundsTo u r) (hlt : r < s) :
    2 * u < f.units r + f.units s ∨ 2 * u = f.units r + f.units s ∧ r % 2 = 0 := by
  have hle : (f.middle r : ℚ) ≤ f.units r + f.units s := by
    rw [cast_middle]
    exact add_le_add_right (cast_units_le hlt) _
  rcases h.below with hbelow | ⟨hbelow, heven⟩
  · exact .inl (hbelow.trans_le hle)
  · exact (hbelow.trans_le hle).lt_or_eq.imp_right fun htie ↦ ⟨htie, heven⟩

/-- **The rank that a number rounds to is nearest to it.** -/
theorem abs_sub_le (h : f.RoundsTo u r) (s : Nat) : |u - f.units r| ≤ |u - f.units s| := by
  rcases Nat.lt_trichotomy s r with hlt | rfl | hgt
  · refine (abs_sub_higher_le_iff (cast_units_lt hlt)).2 ?_
    rcases h.above_of_lt hlt with habove | ⟨htie, -⟩
    · exact habove.le
    · exact htie.le
  · exact le_rfl
  · refine (abs_sub_lower_le_iff (cast_units_lt hgt)).2 ?_
    rcases h.below_of_lt hgt with hbelow | ⟨htie, -⟩
    · exact hbelow.le
    · exact htie.le

/-- Where another rank is as near, the one that a number rounds to is even. -/
theorem even_of_abs_sub_eq (h : f.RoundsTo u r) (hne : s ≠ r)
    (heq : |u - f.units s| = |u - f.units r|) : r % 2 = 0 := by
  rcases Nat.lt_or_gt_of_ne hne with hlt | hgt
  · have hhalf := (abs_sub_lower_le_iff (cast_units_lt hlt)).1 heq.le
    rcases h.above_of_lt hlt with habove | ⟨-, heven⟩
    · exact absurd habove hhalf.not_gt
    · exact heven
  · have hhalf := (abs_sub_higher_le_iff (cast_units_lt hgt)).1 heq.le
    rcases h.below_of_lt hgt with hbelow | ⟨-, heven⟩
    · exact absurd hbelow hhalf.not_gt
    · exact heven

/-- A number rounds to infinity or past it from the middle before infinity on, since the rank of
infinity is even. -/
theorem infinityRank_le_iff (hf : 0 < f.fractionBits) (he : 0 < f.exponentBits)
    (h : f.RoundsTo u r) : f.infinityRank ≤ r ↔ f.middle (f.infinityRank - 1) ≤ 2 * u := by
  have hpos : 0 < f.infinityRank :=
    Nat.mul_pos (Nat.sub_pos_of_lt (Nat.one_lt_two_pow he.ne')) f.binade_pos
  have hinfinity : f.infinityRank % 2 = 0 := mul_binade_mod_two hf _
  constructor
  · intro hle
    have hmiddle : (f.middle (f.infinityRank - 1) : ℚ) ≤ f.middle (r - 1) := by
      exact_mod_cast f.strictMono_middle.monotone (Nat.sub_le_sub_right hle 1)
    rcases h.above (r - 1) (by omega) with habove | ⟨habove, -⟩
    · linarith
    · linarith
  · intro hmiddle
    by_contra hlt
    have hlast : (f.middle r : ℚ) ≤ f.middle (f.infinityRank - 1) := by
      exact_mod_cast f.strictMono_middle.monotone (by omega)
    rcases h.below with hbelow | ⟨hbelow, heven⟩
    · linarith
    · -- The middle itself would be that of the last rank, which is odd.
      have hsame : (f.middle r : ℚ) = f.middle (f.infinityRank - 1) := by linarith
      have : r = f.infinityRank - 1 := f.strictMono_middle.injective (by exact_mod_cast hsame)
      omega

end RoundsTo

/-! ### Correct rounding -/

/-- The finite pattern is **nearest** to the number `x`. -/
structure NearestEven (f : FloatFormat) (x : ℚ) (bits : Nat) : Prop where
  isFinite : f.IsFinite bits
  /-- No finite pattern is nearer. -/
  nearest : ∀ other, f.IsFinite other →
    |x - f.patternValue bits| ≤ |x - f.patternValue other|
  /-- Where the number of another one is as near, the significand is even. -/
  even_of_tie : ∀ other, f.IsFinite other → f.patternValue other ≠ f.patternValue bits →
    |x - f.patternValue other| = |x - f.patternValue bits| → f.significand bits % 2 = 0

/-- The pattern is **correctly rounded** from the number `x` of the given sign, where magnitudes
from `limit` on are infinite. -/
structure CorrectlyRounded (f : FloatFormat) (limit : ℚ) (negative : Bool) (x : ℚ) (bits : Nat) :
    Prop where
  /-- The sign is kept, also where the result is a zero or infinite. -/
  isNegative_eq : f.isNegative bits = negative
  isInfinite_iff : f.IsInfinite bits ↔ limit ≤ |x|
  nearestEven : |x| < limit → f.NearestEven x bits

/-- The distance of a number from a pattern of the same sign. -/
theorem abs_signed_sub_patternValue (hf : 0 < f.fractionBits) (hu : 0 ≤ u)
    (hsign : f.isNegative bits = negative) :
    |signed negative (u / f.unitsPerOne) - f.patternValue bits| =
      |u - f.units (bits % f.ranks)| / f.unitsPerOne := by
  have hone : (0 : ℚ) ≤ f.unitsPerOne := Nat.cast_nonneg _
  rw [patternValue_eq hf, hsign,
    abs_signed_sub_signed (div_nonneg hu hone) (div_nonneg (Nat.cast_nonneg _) hone), if_pos rfl,
    ← sub_div, abs_div, abs_of_nonneg hone]

/-- The distance of a number from a pattern of the other sign. -/
theorem abs_signed_sub_patternValue_of_ne (hf : 0 < f.fractionBits) (hu : 0 ≤ u)
    (hsign : f.isNegative bits ≠ negative) :
    |signed negative (u / f.unitsPerOne) - f.patternValue bits| =
      (u + f.units (bits % f.ranks)) / f.unitsPerOne := by
  have hone : (0 : ℚ) ≤ f.unitsPerOne := Nat.cast_nonneg _
  rw [patternValue_eq hf,
    abs_signed_sub_signed (div_nonneg hu hone) (div_nonneg (Nat.cast_nonneg _) hone),
    if_neg hsign.symm, ← add_div]

/-- A pattern of the rank that a number rounds to is nearest to the number. -/
theorem RoundsTo.nearestEven (hf : 0 < f.fractionBits) (hu : 0 ≤ u)
    (hsign : f.isNegative bits = negative) (hfinite : f.IsFinite bits)
    (h : f.RoundsTo u (bits % f.ranks)) :
    f.NearestEven (signed negative (u / f.unitsPerOne)) bits := by
  have hone : (0 : ℚ) < f.unitsPerOne := by exact_mod_cast f.unitsPerOne_pos
  have hzero : |u - f.units 0| = u := by
    rw [units_zero, Nat.cast_zero, sub_zero, abs_of_nonneg hu]
  -- A pattern of the other sign is at least as far as zero is.
  have hfar : ∀ s, |u - f.units 0| ≤ u + f.units s := fun s ↦
    hzero.trans_le (le_add_of_nonneg_right (Nat.cast_nonneg _))
  refine ⟨hfinite, fun other _ ↦ ?_, fun other _ hvalue htie ↦ ?_⟩
  · rw [abs_signed_sub_patternValue hf hu hsign]
    by_cases hother : f.isNegative other = negative
    · rw [abs_signed_sub_patternValue hf hu hother, div_le_div_iff_of_pos_right hone]
      exact h.abs_sub_le _
    · rw [abs_signed_sub_patternValue_of_ne hf hu hother, div_le_div_iff_of_pos_right hone]
      exact (h.abs_sub_le 0).trans (hfar _)
  · rw [significand_mod_two hf]
    rw [abs_signed_sub_patternValue hf hu hsign] at htie
    by_cases hother : f.isNegative other = negative
    · rw [abs_signed_sub_patternValue hf hu hother, div_left_inj' hone.ne'] at htie
      refine h.even_of_abs_sub_eq (fun hrank ↦ hvalue ?_) htie
      rw [patternValue_eq hf, patternValue_eq hf, hother, hsign, hrank]
    · rw [abs_signed_sub_patternValue_of_ne hf hu hother, div_left_inj' hone.ne'] at htie
      by_cases hrank : 0 = bits % f.ranks
      · rw [← hrank]
      · exact h.even_of_abs_sub_eq hrank (((hfar _).trans_eq htie).antisymm (h.abs_sub_le 0))

/-- The rank of the nearest pattern, next to any other finite rank: the other one is not nearer, and
where it is as near the first one is even. -/
theorem NearestEven.abs_sub_units_le (hf : 0 < f.fractionBits) (hu : 0 ≤ u)
    (hsign : f.isNegative bits = negative)
    (h : f.NearestEven (signed negative (u / f.unitsPerOne)) bits) (hs : s < f.infinityRank)
    (hne : s ≠ bits % f.ranks) :
    |u - f.units (bits % f.ranks)| ≤ |u - f.units s| ∧
      (|u - f.units s| = |u - f.units (bits % f.ranks)| → bits % f.ranks % 2 = 0) := by
  have hone : (0 : ℚ) < f.unitsPerOne := by exact_mod_cast f.unitsPerOne_pos
  have hlt : s < f.ranks := hs.trans f.infinityRank_lt_ranks
  have hother : f.isNegative (f.pattern negative s) = negative := isNegative_pattern hlt
  have hfinite : f.IsFinite (f.pattern negative s) :=
    isFinite_iff.2 ⟨pattern_lt hlt, (pattern_mod hlt).trans_lt hs⟩
  have hvalue : f.patternValue (f.pattern negative s) ≠ f.patternValue bits := by
    rw [patternValue_eq hf, patternValue_eq hf, hother, hsign, pattern_mod hlt, Ne, signed_inj,
      div_left_inj' hone.ne', Nat.cast_inj]
    exact f.strictMono_units.injective.ne hne
  have hnearest := h.nearest _ hfinite
  have heven := h.even_of_tie _ hfinite hvalue
  rw [abs_signed_sub_patternValue hf hu hsign, abs_signed_sub_patternValue hf hu hother,
    pattern_mod hlt] at hnearest heven
  rw [div_le_div_iff_of_pos_right hone] at hnearest
  rw [div_left_inj' hone.ne', significand_mod_two hf] at heven
  exact ⟨hnearest, heven⟩

/-- Short of infinity, a number rounds to the rank of the pattern that is nearest to it. -/
theorem NearestEven.roundsTo (hf : 0 < f.fractionBits) (hu : 0 ≤ u)
    (hsign : f.isNegative bits = negative) (hlimit : 2 * u < f.middle (f.infinityRank - 1))
    (h : f.NearestEven (signed negative (u / f.unitsPerOne)) bits) :
    f.RoundsTo u (bits % f.ranks) := by
  have hrank := (isFinite_iff.1 h.isFinite).2
  have hneighbour := fun s ↦ h.abs_sub_units_le (s := s) hf hu hsign
  -- Only the neighbours on both sides matter.
  generalize bits % f.ranks = r at hrank hneighbour
  constructor
  · rintro before rfl
    have hlt := cast_units_lt (f := f) before.lt_succ_self
    obtain ⟨hle, heven⟩ := hneighbour before (by omega) (by omega)
    have hmiddle := (abs_sub_higher_le_iff hlt).1 hle
    rw [cast_middle]
    rcases hmiddle.lt_or_eq with habove | htie
    · exact .inl habove
    · exact .inr ⟨htie, heven (((abs_sub_lower_le_iff hlt).2 htie.ge).antisymm hle)⟩
  · have hlt := cast_units_lt (f := f) r.lt_succ_self
    rcases Nat.lt_or_ge (r + 1) f.infinityRank with hnext | hlast
    · obtain ⟨hle, heven⟩ := hneighbour (r + 1) hnext (by omega)
      have hmiddle := (abs_sub_lower_le_iff hlt).1 hle
      rw [cast_middle]
      rcases hmiddle.lt_or_eq with hbelow | htie
      · exact .inl hbelow
      · exact .inr ⟨htie, heven (((abs_sub_higher_le_iff hlt).2 htie.ge).antisymm hle)⟩
    · obtain rfl : r = f.infinityRank - 1 := by omega
      exact .inl hlimit

/-! ### Infinity -/

/-- **The overflow limit**: the number halfway from the greatest finite magnitude to the one that
would follow it. -/
def overflowLimit (f : FloatFormat) : ℚ :=
  f.middle (f.infinityRank - 1) / 2 / f.unitsPerOne

/-- A magnitude is past the limit when it is not below the last middle. -/
theorem overflowLimit_le_iff (hu : 0 ≤ u) :
    f.overflowLimit ≤ |signed negative (u / f.unitsPerOne)| ↔
      f.middle (f.infinityRank - 1) ≤ 2 * u := by
  have hone : (0 : ℚ) < f.unitsPerOne := by exact_mod_cast f.unitsPerOne_pos
  rw [abs_signed, abs_of_nonneg (div_nonneg hu hone.le), overflowLimit,
    div_le_div_iff_of_pos_right hone, div_le_iff₀' two_pos]

/-- **A pattern is correctly rounded from a number when its rank is the one that the number rounds
to**, or that of infinity if the number rounds past it. -/
theorem RoundsTo.correctlyRounded_iff (hf : 0 < f.fractionBits) (he : 0 < f.exponentBits)
    (hu : 0 ≤ u) (h : f.RoundsTo u r) :
    f.CorrectlyRounded f.overflowLimit negative (signed negative (u / f.unitsPerOne)) bits ↔
      bits = f.pattern negative (min r f.infinityRank) := by
  have hover : f.overflowLimit ≤ |signed negative (u / f.unitsPerOne)| ↔ f.infinityRank ≤ r :=
    (overflowLimit_le_iff hu).trans (h.infinityRank_le_iff hf he).symm
  rw [eq_pattern_iff ((Nat.min_le_right ..).trans_lt f.infinityRank_lt_ranks)]
  constructor
  · rintro ⟨hsign, hinfinite, hnearest⟩
    rcases Nat.lt_or_ge r f.infinityRank with hlt | hge
    · have hnear := hnearest (not_le.1 (mt hover.1 hlt.not_ge))
      have hmiddle := not_le.1 (mt (h.infinityRank_le_iff hf he).2 hlt.not_ge)
      have hrank := (hnear.roundsTo hf hu hsign hmiddle).unique h
      exact ⟨(isFinite_iff.1 hnear.isFinite).1, hsign, hrank.trans (Nat.min_eq_left hlt.le).symm⟩
    · obtain ⟨hbits, hrank⟩ := isInfinite_iff.1 (hinfinite.2 (hover.2 hge))
      exact ⟨hbits, hsign, hrank.trans (Nat.min_eq_right hge).symm⟩
  · rintro ⟨hbits, hsign, hrank⟩
    refine ⟨hsign, ?_, fun hlimit ↦ ?_⟩
    · rw [isInfinite_iff, hover, hrank, and_iff_right hbits, min_eq_right_iff]
    · have hlt := Nat.lt_of_not_ge (mt hover.2 hlimit.not_ge)
      rw [Nat.min_eq_left hlt.le] at hrank
      exact RoundsTo.nearestEven hf hu hsign (isFinite_iff.2 ⟨hbits, hrank.trans_lt hlt⟩)
        (hrank ▸ h)

/-- The limit of a format, from an equation in whole numbers. -/
theorem overflowLimit_eq_of_middle (high low : Nat)
    (h : f.middle (f.infinityRank - 1) + low * (2 * f.unitsPerOne) = high * (2 * f.unitsPerOne)) :
    f.overflowLimit = high - low := by
  have hone : (0 : ℚ) < 2 * f.unitsPerOne := by
    exact_mod_cast Nat.mul_pos two_pos f.unitsPerOne_pos
  rw [overflowLimit, div_div, div_eq_iff hone.ne', sub_mul, eq_sub_iff_add_eq]
  exact_mod_cast h

theorem overflowLimit_single : single.overflowLimit = 2 ^ 128 - 2 ^ 103 := by
  rw [overflowLimit_eq_of_middle (2 ^ 128) (2 ^ 103) (by decide +kernel), Nat.cast_pow, Nat.cast_pow]
  rfl

theorem overflowLimit_double : double.overflowLimit = 2 ^ 1024 - 2 ^ 970 := by
  rw [overflowLimit_eq_of_middle (2 ^ 1024) (2 ^ 970) (by decide +kernel), Nat.cast_pow, Nat.cast_pow]
  rfl

end FloatFormat

/-! ### Reading -/

/-- The number that a fractional numeral denotes. -/
def Numeral.Fraction.value (q : Numeral.Fraction) : ℚ :=
  signed q.negative (q.numerator / q.denominator)

namespace BinaryFloat

open FloatFormat Numeral

variable {f : FloatFormat} {q : Fraction} {x y : BinaryFloat f} {token : List Char} {bits : Nat}

/-- A bit pattern belongs to one number only. -/
theorem eq_of_bits?_eq_some (hx : x.bits? = some bits) (hy : y.bits? = some bits) : x = y := by
  rcases x with - | ⟨s, a⟩
  · nomatch hx
  rcases y with - | ⟨t, b⟩
  · nomatch hy
  have hlt : ∀ rank : Fin (f.infinityRank + 1), rank.val < f.ranks := fun rank ↦
    (Nat.le_of_lt_succ rank.isLt).trans_lt f.infinityRank_lt_ranks
  obtain ⟨-, rfl, ha⟩ := (eq_pattern_iff (hlt a)).1 (Option.some.inj hx).symm
  obtain ⟨-, rfl, hb⟩ := (eq_pattern_iff (hlt b)).1 (Option.some.inj hy).symm
  rw [Fin.ext (ha.symm.trans hb)]

/-- **A numeral is read as the correctly rounded number.** -/
theorem bits?_ofFraction_eq_some_iff (hf : 0 < f.fractionBits) (he : 0 < f.exponentBits) :
    (ofFraction q : BinaryFloat f).bits? = some bits ↔
      f.CorrectlyRounded f.overflowLimit q.negative q.value bits := by
  have hden : 0 < q.denominator := Nat.pow_pos (by decide)
  have hone : (f.unitsPerOne : ℚ) ≠ 0 := by exact_mod_cast f.unitsPerOne_pos.ne'
  have hrounds : f.RoundsTo ((q.numerator * f.unitsPerOne : Nat) / q.denominator)
      (f.nearestRank (q.numerator * f.unitsPerOne) q.denominator) := f.roundsTo_nearestRank hden
  have hvalue : q.value = signed q.negative
      ((q.numerator * f.unitsPerOne : Nat) / q.denominator / f.unitsPerOne) := by
    rw [Fraction.value, Nat.cast_mul, mul_div_right_comm, mul_div_cancel_right₀ _ hone]
  rw [hvalue, hrounds.correctlyRounded_iff hf he (by positivity)]
  show some _ = some bits ↔ _
  rw [Option.some_inj, eq_comm]
  rfl

/-- The token is a fractional numeral, and `x` is **correctly rounded** from the number it denotes,
with the sign of the numeral. -/
def IsRoundedFrom (limit : ℚ) (token : List Char) (x : BinaryFloat f) : Prop :=
  ∃ q bits, IsFraction token q ∧ x.bits? = some bits ∧
    f.CorrectlyRounded limit q.negative q.value bits

/-- What is read from a token is what is correctly rounded from it, and nothing else. -/
theorem isReadFrom_iff (hf : 0 < f.fractionBits) (he : 0 < f.exponentBits) :
    IsReadFrom token x ↔ IsRoundedFrom f.overflowLimit token x := by
  constructor
  · rintro ⟨q, hq, rfl⟩
    exact ⟨q, _, hq, rfl, (bits?_ofFraction_eq_some_iff hf he).1 rfl⟩
  · rintro ⟨q, bits, hq, hbits, hrounded⟩
    exact ⟨q, hq, eq_of_bits?_eq_some ((bits?_ofFraction_eq_some_iff hf he).2 hrounded) hbits⟩

end BinaryFloat

namespace Cursor

variable {f : FloatFormat} {c : Cursor} {k : Kind} {token rest : List Char}
  {r : Reading (BinaryFloat f)}

/-- The reads of floating-point numbers in common. -/
theorem readNumber_rounded_iff {limit : ℚ} (hf : 0 < f.fractionBits) (he : 0 < f.exponentBits)
    (hlimit : f.overflowLimit = limit) (hrun : LongestRun isNumberChar c.after token rest) :
    c.readNumber k BinaryFloat.read? = r ↔
      NumberReading (BinaryFloat.IsRoundedFrom limit) c k token rest r := by
  have hsame : BinaryFloat.IsReadFrom (f := f) = BinaryFloat.IsRoundedFrom limit := by
    funext token x
    rw [← hlimit, BinaryFloat.isReadFrom_iff hf he]
  rw [readNumber_fraction_iff hrun, hsame]

/-- **Floating-point numbers are rounded once, in their own width.** Each kind goes by the token and
takes the number of its own format that is correctly rounded from the exact number, with the limit
of the format. -/
theorem readFloats_iff (c : Cursor) :
    ∃ token rest, LongestRun isNumberChar c.after token rest ∧
      (∀ r, c.readSingle = r ↔
        NumberReading (BinaryFloat.IsRoundedFrom (2 ^ 128 - 2 ^ 103)) c .single token rest r) ∧
      (∀ r, c.readDouble = r ↔
        NumberReading (BinaryFloat.IsRoundedFrom (2 ^ 1024 - 2 ^ 970)) c .double token rest r) := by
  have hrun := longestRun_takeWhile isNumberChar c.after
  refine ⟨_, _, hrun, fun r ↦ ?_, fun r ↦ ?_⟩
  · exact readNumber_rounded_iff (by decide) (by decide) FloatFormat.overflowLimit_single hrun
  · exact readNumber_rounded_iff (by decide) (by decide) FloatFormat.overflowLimit_double hrun

-- Rounded to 64 bits first, it would be the middle of two numbers of 32 bits and then go down.
example : (Cursor.mk [] "1.00000005960464477539062500000000001".toList).readSingle.outcome =
    .ok (.ofBits 0x3f800001) := by
  rfl

end Cursor

end TypedLine
