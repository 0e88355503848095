import TypedLine.Proofs.BinaryFloat.RoundingInterval

/-!
# What a bit pattern stands for

A bit pattern has a field for the sign, one for the exponent and one for the fraction, and stands
for a rational number: the significand, scaled by a power of two (`patternValue`). This is said of
the fields alone, with no ranks and no units. That it comes to the same is `patternValue_eq`:
without its sign a pattern is a rank, and its number is the magnitude of the rank.
-/

namespace TypedLine

-- Powers are those of the core library, also where other powers are at hand.
attribute [local instance (high)] instPowNat

/-! ### Signs -/

/-- The number of the given sign and magnitude. -/
def signed (negative : Bool) (magnitude : ℚ) : ℚ :=
  if negative then -magnitude else magnitude

theorem abs_signed (negative : Bool) (magnitude : ℚ) : |signed negative magnitude| = |magnitude| := by
  rcases negative with - | -
  · rfl
  · exact abs_neg magnitude

theorem signed_inj {negative : Bool} {a b : ℚ} : signed negative a = signed negative b ↔ a = b := by
  rcases negative with - | -
  · exact Iff.rfl
  · exact neg_inj

/-- Numbers of one sign are as far apart as their magnitudes, and others are farther apart. -/
theorem abs_signed_sub_signed {s t : Bool} {a b : ℚ} (ha : 0 ≤ a) (hb : 0 ≤ b) :
    |signed s a - signed t b| = if s = t then |a - b| else a + b := by
  have hsum : |a + b| = a + b := abs_of_nonneg (add_nonneg ha hb)
  rcases s with - | - <;> rcases t with - | -
  · rfl
  · show |a - -b| = a + b
    rw [sub_neg_eq_add, hsum]
  · show |-a - b| = a + b
    rw [← neg_add', abs_neg, hsum]
  · show |-a - -b| = |a - b|
    rw [neg_sub_neg, abs_sub_comm]

namespace FloatFormat

variable (f : FloatFormat)

/-! ### The fields of a pattern -/

/-- The number of patterns of each sign. -/
def ranks : Nat :=
  2 ^ f.exponentBits * f.binade

/-- Whether the sign bit is set. -/
def isNegative (bits : Nat) : Bool :=
  bits / f.ranks % 2 == 1

/-- The field of the exponent. -/
def exponentField (bits : Nat) : Nat :=
  bits / f.binade % 2 ^ f.exponentBits

/-- The field of the fraction. -/
def fractionField (bits : Nat) : Nat :=
  bits % f.binade

/-- What is taken off the field of the exponent. -/
def bias : Nat :=
  2 ^ (f.exponentBits - 1) - 1

/-- The significand. Its leading bit is not written; it is there unless the exponent is least. -/
def significand (bits : Nat) : Nat :=
  if f.exponentField bits = 0 then f.fractionField bits
  else 2 ^ f.fractionBits + f.fractionField bits

/-- **The number that a finite pattern stands for.** The two least exponents are the same. -/
def patternValue (bits : Nat) : ℚ :=
  signed (f.isNegative bits)
    (f.significand bits * 2 ^ (max (f.exponentField bits) 1 - f.bias - f.fractionBits : ℤ))

/-- The pattern is that of an infinite number: the bits of the exponent are all set, and no bit of
the fraction is. -/
def IsInfinite (bits : Nat) : Prop :=
  bits < 2 * f.ranks ∧ f.exponentField bits = 2 ^ f.exponentBits - 1 ∧ f.fractionField bits = 0

/-! ### Patterns as ranks -/

/-- The pattern of a sign and a rank. -/
def pattern (negative : Bool) (rank : Nat) : Nat :=
  if negative then f.ranks + rank else rank

theorem ranks_pos : 0 < f.ranks :=
  Nat.mul_pos (Nat.two_pow_pos _) f.binade_pos

theorem infinityRank_lt_ranks : f.infinityRank < f.ranks :=
  Nat.mul_lt_mul_of_pos_right (Nat.sub_lt (Nat.two_pow_pos _) Nat.one_pos) f.binade_pos

variable {f} {negative : Bool} {rank bits : Nat}

theorem pattern_lt (h : rank < f.ranks) : f.pattern negative rank < 2 * f.ranks := by
  rcases negative with - | -
  · show rank < _
    omega
  · show f.ranks + rank < _
    omega

theorem pattern_mod (h : rank < f.ranks) : f.pattern negative rank % f.ranks = rank := by
  rcases negative with - | -
  · exact Nat.mod_eq_of_lt h
  · exact (Nat.add_mod_left ..).trans (Nat.mod_eq_of_lt h)

theorem isNegative_pattern (h : rank < f.ranks) : f.isNegative (f.pattern negative rank) = negative := by
  rcases negative with - | -
  · show (rank / f.ranks % 2 == 1) = false
    rw [Nat.div_eq_of_lt h]
    rfl
  · show ((f.ranks + rank) / f.ranks % 2 == 1) = true
    rw [Nat.add_div_left _ f.ranks_pos, Nat.div_eq_of_lt h]
    rfl

/-- A pattern is put together again from its sign and its rank. -/
theorem pattern_isNegative_mod (h : bits < 2 * f.ranks) :
    f.pattern (f.isNegative bits) (bits % f.ranks) = bits := by
  have hsplit := Nat.div_add_mod bits f.ranks
  have hsign : bits / f.ranks < 2 := (Nat.div_lt_iff_lt_mul f.ranks_pos).2 h
  rcases Nat.le_one_iff_eq_zero_or_eq_one.1 (Nat.le_of_lt_succ hsign) with hplus | hminus
  · rw [hplus, Nat.mul_zero, Nat.zero_add] at hsplit
    simpa [pattern, isNegative, hplus] using hsplit
  · rw [hminus, Nat.mul_one] at hsplit
    simpa [pattern, isNegative, hminus] using hsplit

/-- The pattern of a sign and a rank is the one with this sign and this rank. -/
theorem eq_pattern_iff (h : rank < f.ranks) : bits = f.pattern negative rank ↔
    bits < 2 * f.ranks ∧ f.isNegative bits = negative ∧ bits % f.ranks = rank := by
  constructor
  · rintro rfl
    exact ⟨pattern_lt h, isNegative_pattern h, pattern_mod h⟩
  · rintro ⟨hlt, rfl, rfl⟩
    exact (pattern_isNegative_mod hlt).symm

/-- The fields of a pattern are those of its rank. -/
theorem mod_ranks_div (f : FloatFormat) (bits : Nat) :
    bits % f.ranks / f.binade = f.exponentField bits ∧
      bits % f.ranks % f.binade = f.fractionField bits :=
  ⟨Nat.mod_mul_left_div_self .., Nat.mod_mul_left_mod ..⟩

theorem mod_ranks_eq (f : FloatFormat) (bits : Nat) :
    bits % f.ranks = f.exponentField bits * f.binade + f.fractionField bits := by
  obtain ⟨hexponent, hfraction⟩ := f.mod_ranks_div bits
  rw [← hexponent, ← hfraction, Nat.mul_comm]
  exact (Nat.div_add_mod ..).symm

theorem isInfinite_iff :
    f.IsInfinite bits ↔ bits < 2 * f.ranks ∧ bits % f.ranks = f.infinityRank := by
  refine and_congr_right fun _ ↦ ⟨fun ⟨hexponent, hfraction⟩ ↦ ?_, fun hrank ↦ ?_⟩
  · rw [mod_ranks_eq, hexponent, hfraction]
    rfl
  · obtain ⟨hexponent, hfraction⟩ := f.mod_ranks_div bits
    rw [← hexponent, ← hfraction, hrank]
    exact ⟨Nat.mul_div_cancel _ f.binade_pos, Nat.mul_mod_left ..⟩

/-! ### The number of a pattern -/

/-- The magnitude of a pattern in units is its significand, shifted by its exponent. -/
theorem units_mod_ranks (f : FloatFormat) (bits : Nat) :
    f.units (bits % f.ranks) = f.significand bits * 2 ^ (max (f.exponentField bits) 1 - 1) := by
  obtain ⟨hexponent, hfraction⟩ := f.mod_ranks_div bits
  simp only [units, hexponent, hfraction, significand]
  split
  · rename_i hzero
    rw [hzero]
    exact (Nat.mul_one _).symm
  · rename_i hpos
    rw [Nat.max_eq_left (by omega)]
    rfl

/-- **A pattern stands for the magnitude of its rank**, with its sign. -/
theorem patternValue_eq (hf : 0 < f.fractionBits) (bits : Nat) :
    f.patternValue bits =
      signed (f.isNegative bits) (f.units (bits % f.ranks) / f.unitsPerOne) := by
  have hscale : (max (f.exponentField bits) 1 - f.bias - f.fractionBits : ℤ) =
      ((max (f.exponentField bits) 1 - 1 : Nat) : ℤ) - (f.unitExponent : ℤ) := by
    have hpow : 0 < 2 ^ (f.exponentBits - 1) := Nat.two_pow_pos _
    rw [unitExponent, bias]
    omega
  rw [patternValue, hscale, units_mod_ranks, zpow_sub₀ (by norm_num), zpow_natCast, zpow_natCast,
    unitsPerOne]
  push_cast
  rw [mul_div_assoc]

/-- A rank that begins a binade is even. -/
theorem mul_binade_mod_two (hf : 0 < f.fractionBits) (n : Nat) : n * f.binade % 2 = 0 :=
  Nat.mod_eq_zero_of_dvd ((dvd_pow_self 2 hf.ne').mul_left n)

/-- The significand and the rank are even together. -/
theorem significand_mod_two (hf : 0 < f.fractionBits) (bits : Nat) :
    f.significand bits % 2 = bits % f.ranks % 2 := by
  have hbinade := mul_binade_mod_two hf 1
  have hexponent := mul_binade_mod_two hf (f.exponentField bits)
  rw [mod_ranks_eq, significand]
  split
  · omega
  · show (f.binade + _) % 2 = _
    omega

end FloatFormat

end TypedLine
