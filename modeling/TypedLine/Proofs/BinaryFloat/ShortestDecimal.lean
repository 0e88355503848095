import TypedLine.BinaryFloat.Shortest
import TypedLine.Proofs.BinaryFloat.RoundingInterval

/-!
# The shortest decimal reads back

The decimal that is written for a rank rounds to that rank, and no decimal with fewer digits does.

A power of ten is passed over only when none of its multiples rounds to the rank: if one did, so
would one of the two on either side of the magnitude, because the numbers that round to a rank are
an interval (`not_readsAs_of_onGrid?_eq_none`). So the decimal that is taken lies on the coarsest
grid there is (`shortest_coarsest`). A decimal with fewer digits would be less than the power of ten
at its first digit; that power lies between the two, rounds to the rank as well, and is on a coarser
grid: `digits_shortest_lt`.
-/

namespace TypedLine

-- Powers are those of the core library, also where other powers are at hand.
attribute [local instance (high)] instPowNat

/-! ### Decimals as numbers -/

namespace Decimal

/-- The number that a decimal stands for. -/
def value (d : Decimal) : ℚ :=
  d.digits * 10 ^ d.exponent

theorem tenPower_pos (exponent : Int) :
    0 < (tenPower exponent).1 ∧ 0 < (tenPower exponent).2 := by
  cases exponent with
  | ofNat n => exact ⟨Nat.pow_pos (by decide), Nat.one_pos⟩
  | negSucc n => exact ⟨Nat.one_pos, Nat.pow_pos (by decide)⟩

/-- The ratio is the power of ten. -/
theorem tenPower_div (exponent : Int) :
    ((tenPower exponent).1 / (tenPower exponent).2 : ℚ) = 10 ^ exponent := by
  cases exponent with
  | ofNat n =>
    show ((10 ^ n : Nat) / (1 : Nat) : ℚ) = 10 ^ (n : ℤ)
    rw [zpow_natCast]
    push_cast
    ring
  | negSucc n =>
    show ((1 : Nat) / (10 ^ (n + 1) : Nat) : ℚ) = 10 ^ Int.negSucc n
    rw [zpow_negSucc]
    push_cast
    ring

theorem tenPower_neg (n : Nat) : tenPower (-(n : Int)) = (1, 10 ^ n) := by
  cases n with
  | zero => rfl
  | succ n => rfl

/-- On one grid the decimals ascend with their digits. -/
theorem value_le_value {d e : Decimal} (hexponent : d.exponent = e.exponent)
    (hdigits : d.digits ≤ e.digits) : d.value ≤ e.value := by
  rw [value, value, hexponent]
  have hcast : (d.digits : ℚ) ≤ e.digits := by exact_mod_cast hdigits
  exact mul_le_mul_of_nonneg_right hcast (by positivity)

end Decimal

namespace FloatFormat

open Decimal

variable {f : FloatFormat} {tie : TieRule} {rank : Nat} {d : Decimal} {exponent : Int}

/-- **A decimal reads as a rank exactly when its number of units rounds to it.** -/
theorem readsAs_iff : f.readsAs rank d = true ↔ f.RoundsTo (d.value * f.unitsPerOne) rank := by
  have hratio : ((d.digits * (tenPower d.exponent).1 * f.unitsPerOne : Nat) /
      (tenPower d.exponent).2 : ℚ) = d.value * f.unitsPerOne := by
    rw [value, ← tenPower_div]
    push_cast
    ring
  rw [readsAs, beq_iff_eq, nearestRank_eq_iff f (tenPower_pos _).2, hratio]

/-- Only the rank zero has the decimal zero. -/
theorem digits_pos_of_readsAs (hrank : 0 < rank) (h : f.readsAs rank d = true) : 0 < d.digits := by
  by_contra hzero
  have hvalue : d.value * f.unitsPerOne = (f.units 0 : ℚ) := by
    rw [value, show d.digits = 0 by omega, units_zero]
    push_cast
    ring
  have hrounds := readsAs_iff.1 h
  rw [hvalue] at hrounds
  have := hrounds.unique (f.roundsTo_units 0)
  omega

/-! ### The two neighbours on a grid -/

/-- The multiple of a power of ten that is not above the magnitude. -/
def gridBelow (f : FloatFormat) (rank : Nat) (exponent : Int) : Decimal :=
  ⟨f.units rank * (tenPower exponent).2 / (f.unitsPerOne * (tenPower exponent).1), exponent⟩

/-- The next multiple. -/
def gridAbove (f : FloatFormat) (rank : Nat) (exponent : Int) : Decimal :=
  ⟨(f.gridBelow rank exponent).digits + 1, exponent⟩

/-- A decimal in units, as a ratio of natural numbers. -/
theorem value_mul_unitsPerOne (d : Decimal) :
    d.value * f.unitsPerOne =
      (d.digits * (f.unitsPerOne * (tenPower d.exponent).1) : Nat) / (tenPower d.exponent).2 := by
  rw [value, ← tenPower_div]
  push_cast
  ring

/-- The magnitude lies between its neighbours. -/
theorem units_between_grid (f : FloatFormat) (rank : Nat) (exponent : Int) :
    (f.gridBelow rank exponent).value * f.unitsPerOne ≤ f.units rank ∧
      f.units rank ≤ (f.gridAbove rank exponent).value * f.unitsPerOne := by
  obtain ⟨hnum, hden⟩ := tenPower_pos exponent
  have hstep : 0 < f.unitsPerOne * (tenPower exponent).1 := Nat.mul_pos f.unitsPerOne_pos hnum
  have hpos : (0 : ℚ) < (tenPower exponent).2 := by exact_mod_cast hden
  constructor
  · rw [value_mul_unitsPerOne]
    refine (div_le_iff₀ hpos).2 ?_
    exact_mod_cast Nat.div_mul_le_self _ _
  · rw [value_mul_unitsPerOne]
    refine (le_div_iff₀ hpos).2 ?_
    exact_mod_cast (Nat.lt_mul_of_div_lt (Nat.lt_succ_self _) hstep).le

/-- A search on a grid finds a neighbour that reads back, or neither does. -/
theorem onGrid?_cases (f : FloatFormat) (tie : TieRule) (rank : Nat) (exponent : Int) :
    f.onGrid? tie rank exponent = none ∧ f.readsAs rank (f.gridBelow rank exponent) = false ∧
        f.readsAs rank (f.gridAbove rank exponent) = false ∨
      f.onGrid? tie rank exponent = some (f.gridBelow rank exponent) ∧
        f.readsAs rank (f.gridBelow rank exponent) = true ∨
      f.onGrid? tie rank exponent = some (f.gridAbove rank exponent) ∧
        f.readsAs rank (f.gridAbove rank exponent) = true := by
  rcases hbelow : f.readsAs rank (f.gridBelow rank exponent) with - | - <;>
    rcases habove : f.readsAs rank (f.gridAbove rank exponent) with - | - <;>
    simp only [gridBelow, gridAbove] at hbelow habove
  · exact .inl ⟨by simp only [onGrid?, hbelow, habove], rfl, rfl⟩
  · exact .inr (.inr ⟨by simp only [onGrid?, hbelow, habove, gridBelow, gridAbove], rfl⟩)
  · exact .inr (.inl ⟨by simp only [onGrid?, hbelow, habove, gridBelow], rfl⟩)
  · -- Both read back, and whichever is taken is one of them.
    have hgrid : f.onGrid? tie rank exponent = some (f.gridBelow rank exponent) ∨
        f.onGrid? tie rank exponent = some (f.gridAbove rank exponent) := by
      simp only [onGrid?, hbelow, habove]
      split_ifs
      · exact .inl rfl
      · exact .inr rfl
      · cases tie with
        | up => exact .inr rfl
        | even => exact .inl rfl
      · cases tie with
        | up => exact .inr rfl
        | even => exact .inr rfl
    rcases hgrid with hgrid | hgrid
    · exact .inr (.inl ⟨hgrid, rfl⟩)
    · exact .inr (.inr ⟨hgrid, rfl⟩)

/-- What is found on a grid is on the grid, and reads back. -/
theorem readsAs_of_onGrid? (h : f.onGrid? tie rank exponent = some d) :
    d.exponent = exponent ∧ f.readsAs rank d = true := by
  rcases f.onGrid?_cases tie rank exponent with ⟨hnone, -⟩ | ⟨hsome, hreads⟩ | ⟨hsome, hreads⟩
  · rw [h] at hnone
    cases hnone
  · rw [h] at hsome
    obtain rfl := Option.some.inj hsome
    exact ⟨rfl, hreads⟩
  · rw [h] at hsome
    obtain rfl := Option.some.inj hsome
    exact ⟨rfl, hreads⟩

/-- **A grid is passed over only when no decimal on it reads back.** -/
theorem not_readsAs_of_onGrid?_eq_none (h : f.onGrid? tie rank d.exponent = none) :
    f.readsAs rank d = false := by
  have hneighbours : f.readsAs rank (f.gridBelow rank d.exponent) = false ∧
      f.readsAs rank (f.gridAbove rank d.exponent) = false := by
    rcases f.onGrid?_cases tie rank d.exponent with ⟨-, hneither⟩ | ⟨hsome, -⟩ | ⟨hsome, -⟩
    · exact hneither
    · rw [h] at hsome
      cases hsome
    · rw [h] at hsome
      cases hsome
  obtain ⟨hbelow, habove⟩ := units_between_grid f rank d.exponent
  by_contra hreads
  rw [Bool.not_eq_false, readsAs_iff] at hreads
  have hself := f.roundsTo_units rank
  -- The neighbour on the side of `d` lies between `d` and the magnitude.
  rcases Nat.lt_or_ge (f.gridBelow rank d.exponent).digits d.digits with hlt | hge
  · have hle : (f.gridAbove rank d.exponent).value ≤ d.value := value_le_value rfl hlt
    have hrounds : f.RoundsTo ((f.gridAbove rank d.exponent).value * f.unitsPerOne) rank :=
      hself.of_between hreads habove (mul_le_mul_of_nonneg_right hle (Nat.cast_nonneg _))
    rw [← readsAs_iff, hneighbours.2] at hrounds
    cases hrounds
  · have hle : d.value ≤ (f.gridBelow rank d.exponent).value := value_le_value rfl hge
    have hrounds : f.RoundsTo ((f.gridBelow rank d.exponent).value * f.unitsPerOne) rank :=
      hreads.of_between hself (mul_le_mul_of_nonneg_right hle (Nat.cast_nonneg _)) hbelow
    rw [← readsAs_iff, hneighbours.1] at hrounds
    cases hrounds

/-! ### The grids that are tried -/

theorem mem_exponents_iff :
    exponent ∈ f.exponents rank ↔
      -(f.unitExponent : Int) ≤ exponent ∧ exponent ≤ f.leadingExponent rank := by
  simp only [exponents, List.mem_map, List.mem_range]
  constructor
  · rintro ⟨k, hk, rfl⟩
    omega
  · rintro ⟨hlow, hhigh⟩
    exact ⟨(f.leadingExponent rank - exponent).toNat, by omega, by omega⟩

theorem pairwise_exponents (f : FloatFormat) (rank : Nat) :
    (f.exponents rank).Pairwise (· > ·) := by
  rw [exponents, List.pairwise_map]
  refine List.pairwise_lt_range.imp ?_
  intro j k hjk
  omega

/-- The digits of a number say between which powers of ten it lies. -/
theorem length_showNat {n : Nat} (hn : 0 < n) :
    10 ^ ((Numeral.showNat n).length - 1) ≤ n ∧ n < 10 ^ (Numeral.showNat n).length := by
  have hpos : 0 < (Numeral.showNat n).length := Nat.length_toDigits_pos
  constructor
  · rcases Nat.eq_zero_or_pos ((Numeral.showNat n).length - 1) with hzero | hlong
    · rw [hzero]
      exact hn
    · by_contra hlt
      have hle : (Numeral.showNat n).length ≤ (Numeral.showNat n).length - 1 :=
        (Nat.length_toDigits_le_iff (by decide) hlong).2 (by omega)
      omega
  · exact (Nat.length_toDigits_le_iff (by decide) hpos).1 (Nat.le_refl _)

/-- The first grid that is tried is coarser than the magnitude. -/
theorem units_lt_leadingExponent (hrank : 0 < rank) :
    (f.units rank : ℚ) < 10 ^ f.leadingExponent rank * f.unitsPerOne := by
  have hunits : 0 < f.units rank := f.units_pos hrank
  by_cases hone : f.unitsPerOne ≤ f.units rank
  · have hpos : 0 < f.units rank / f.unitsPerOne := Nat.div_pos hone f.unitsPerOne_pos
    have hlt := (Nat.div_lt_iff_lt_mul f.unitsPerOne_pos).1 (length_showNat hpos).2
    simp only [leadingExponent, if_pos hone, zpow_natCast]
    exact_mod_cast hlt
  · have hpos : 0 < (f.unitsPerOne - 1) / f.units rank := Nat.div_pos (by omega) hunits
    obtain ⟨places, hplaces⟩ : ∃ places,
        (Numeral.showNat ((f.unitsPerOne - 1) / f.units rank)).length = places + 1 :=
      Nat.exists_eq_add_one.2 Nat.length_toDigits_pos
    have hlow := (length_showNat hpos).1
    rw [hplaces, Nat.add_sub_cancel] at hlow
    have hlt : 10 ^ places * f.units rank < f.unitsPerOne := by
      have hle := (Nat.le_div_iff_mul_le hunits).1 hlow
      have huPO := f.unitsPerOne_pos
      omega
    have hexponent : f.leadingExponent rank = -(places : Int) := by
      simp only [leadingExponent, if_neg hone, hplaces]
      omega
    rw [hexponent, zpow_neg, zpow_natCast, lt_inv_mul_iff₀ (by positivity)]
    exact_mod_cast hlt

/-- The last grid that is tried is one of those that are tried. -/
theorem neg_unitExponent_le_leadingExponent (f : FloatFormat) (rank : Nat) :
    -(f.unitExponent : Int) ≤ f.leadingExponent rank := by
  by_cases hone : f.unitsPerOne ≤ f.units rank
  · simp only [leadingExponent, if_pos hone]
    omega
  · have hlt : (f.unitsPerOne - 1) / f.units rank < 10 ^ (f.unitExponent + 1) := by
      have hdiv := Nat.div_le_self (f.unitsPerOne - 1) (f.units rank)
      have hpow : f.unitsPerOne ≤ 10 ^ f.unitExponent := Nat.pow_le_pow_left (by decide) _
      have hstep : 10 ^ f.unitExponent ≤ 10 ^ (f.unitExponent + 1) :=
        Nat.pow_le_pow_right (by decide) (Nat.le_succ _)
      have hunits := f.unitsPerOne_pos
      omega
    have hlength : (Numeral.showNat ((f.unitsPerOne - 1) / f.units rank)).length ≤
        f.unitExponent + 1 := (Nat.length_toDigits_le_iff (by decide) (Nat.succ_pos _)).2 hlt
    simp only [leadingExponent, if_neg hone]
    omega

/-- All digits of a magnitude are on the last grid. -/
theorem readsAs_exactDecimal (f : FloatFormat) (rank : Nat) :
    f.readsAs rank (f.exactDecimal rank) = true := by
  have hvalue : (f.exactDecimal rank).value * f.unitsPerOne = (f.units rank : ℚ) := by
    rw [value_mul_unitsPerOne]
    show ((f.units rank * 5 ^ f.unitExponent *
      (f.unitsPerOne * (tenPower (-(f.unitExponent : Int))).1) : Nat) : ℚ) /
        (tenPower (-(f.unitExponent : Int))).2 = f.units rank
    rw [tenPower_neg, unitsPerOne, div_eq_iff (by positivity)]
    have hten : 10 ^ f.unitExponent = 5 ^ f.unitExponent * 2 ^ f.unitExponent :=
      Nat.mul_pow 5 2 _
    rw [hten]
    push_cast
    ring
  rw [readsAs_iff, hvalue]
  exact f.roundsTo_units rank

/-- Nothing reads back that is coarser than the first grid. -/
theorem exponent_le_leadingExponent (hrank : 0 < rank) (h : f.readsAs rank d = true) :
    d.exponent ≤ f.leadingExponent rank := by
  by_contra hlt
  have hdigits : (1 : ℚ) ≤ d.digits := by exact_mod_cast digits_pos_of_readsAs hrank h
  have hpower : (10 : ℚ) ^ (f.leadingExponent rank + 1) ≤ 10 ^ d.exponent :=
    zpow_le_zpow_right₀ (by norm_num) (by omega)
  rw [zpow_add_one₀ (by norm_num)] at hpower
  have hunits := units_lt_leadingExponent (f := f) hrank
  have hnext : (f.units (rank + 1) : ℚ) ≤ 2 * f.units rank := by
    exact_mod_cast f.units_succ_le hrank
  -- Ten times the magnitude is past the next one, which rounds to its own rank.
  have hle : (f.units (rank + 1) : ℚ) ≤ d.value * f.unitsPerOne := by
    have hone : (0 : ℚ) ≤ f.unitsPerOne := Nat.cast_nonneg _
    have hself : (0 : ℚ) ≤ f.units rank := Nat.cast_nonneg _
    calc (f.units (rank + 1) : ℚ) ≤ 2 * f.units rank := hnext
      _ ≤ 10 * f.units rank := by linarith
      _ ≤ 10 ^ f.leadingExponent rank * 10 * f.unitsPerOne := by linarith
      _ ≤ 10 ^ d.exponent * f.unitsPerOne := mul_le_mul_of_nonneg_right hpower hone
      _ ≤ d.value * f.unitsPerOne :=
        mul_le_mul_of_nonneg_right (le_mul_of_one_le_left (by positivity) hdigits) hone
  have := (f.roundsTo_units (rank + 1)).mono (readsAs_iff.1 h) hle
  omega

/-! ### The decimal that is taken -/

/-- Some grid has a decimal that reads back, so the search does not come away empty. -/
theorem exists_findSome? (f : FloatFormat) (tie : TieRule) (rank : Nat) :
    ∃ d, (f.exponents rank).findSome? (f.onGrid? tie rank) = some d := by
  rcases hfind : (f.exponents rank).findSome? (f.onGrid? tie rank) with - | d
  · have hnone : f.onGrid? tie rank (f.exactDecimal rank).exponent = none :=
      List.findSome?_eq_none_iff.1 hfind _
        (mem_exponents_iff.2 ⟨le_rfl, f.neg_unitExponent_le_leadingExponent rank⟩)
    have hreads := f.readsAs_exactDecimal rank
    rw [not_readsAs_of_onGrid?_eq_none hnone] at hreads
    cases hreads
  · exact ⟨d, rfl⟩

/-- **The decimal that is taken reads back**, and nothing that reads back is on a coarser grid. -/
theorem shortest_coarsest (tie : TieRule) (hrank : 0 < rank) :
    f.readsAs rank (f.shortest tie rank) = true ∧
      ∀ d, f.readsAs rank d = true → d.exponent ≤ (f.shortest tie rank).exponent := by
  obtain ⟨e, hfind⟩ := f.exists_findSome? tie rank
  have hshortest : f.shortest tie rank = e := by
    rw [shortest, hfind]
    rfl
  obtain ⟨coarser, exponent, finer, hsplit, hgrid, hnone⟩ := List.findSome?_eq_some_iff.1 hfind
  obtain ⟨rfl, hreads⟩ := readsAs_of_onGrid? hgrid
  rw [hshortest]
  refine ⟨hreads, fun d hd ↦ ?_⟩
  by_contra hlt
  have hmem : e.exponent ∈ f.exponents rank := by
    rw [hsplit]
    exact List.mem_append_right _ (.head _)
  have hlow := (mem_exponents_iff.1 hmem).1
  have hhigh := exponent_le_leadingExponent hrank hd
  have hd' : d.exponent ∈ f.exponents rank := mem_exponents_iff.2 ⟨by omega, hhigh⟩
  have hdescend := f.pairwise_exponents rank
  rw [hsplit] at hd' hdescend
  -- So the grid of `d` was tried before, and passed over.
  rcases List.mem_append.1 hd' with hcoarser | hfiner
  · have hpassed := not_readsAs_of_onGrid?_eq_none (hnone _ hcoarser)
    rw [hd] at hpassed
    cases hpassed
  · rcases List.mem_cons.1 hfiner with hsame | hfiner
    · omega
    · have := (List.pairwise_cons.1 (List.pairwise_append.1 hdescend).2.1).1 _ hfiner
      omega

/-- **No decimal with fewer digits reads back.** -/
theorem digits_shortest_lt (tie : TieRule) (hrank : 0 < rank) (h : f.readsAs rank d = true)
    {count : Nat} (hcount : d.digits < 10 ^ count) : (f.shortest tie rank).digits < 10 ^ count := by
  obtain ⟨hreads, hcoarsest⟩ := f.shortest_coarsest tie hrank
  generalize f.shortest tie rank = e at hreads hcoarsest
  have hdigits := digits_pos_of_readsAs hrank h
  have hexponent := hcoarsest d h
  by_contra hlong
  -- The power of ten at the first digit of `e` is not above `e`, and not below `d`.
  have hpower : f.readsAs rank ⟨1, e.exponent + count⟩ = true := by
    have hten : (10 : ℚ) ^ (e.exponent + count) = 10 ^ count * 10 ^ e.exponent := by
      rw [zpow_add₀ (by norm_num), zpow_natCast, mul_comm]
    have hvalue : (Decimal.mk 1 (e.exponent + count)).value = 10 ^ count * 10 ^ e.exponent := by
      rw [value, Nat.cast_one, one_mul, hten]
    have hbelow : d.value ≤ (Decimal.mk 1 (e.exponent + count)).value := by
      have hle : (d.digits : ℚ) ≤ 10 ^ count := by exact_mod_cast hcount.le
      have hfiner : (10 : ℚ) ^ d.exponent ≤ 10 ^ e.exponent :=
        zpow_le_zpow_right₀ (by norm_num) hexponent
      rw [hvalue, value]
      exact mul_le_mul hle hfiner (by positivity) (by positivity)
    have habove : (Decimal.mk 1 (e.exponent + count)).value ≤ e.value := by
      have hle : (10 ^ count : ℚ) ≤ e.digits := by exact_mod_cast Nat.not_lt.1 hlong
      rw [hvalue, value]
      exact mul_le_mul_of_nonneg_right hle (by positivity)
    have hone : (0 : ℚ) ≤ f.unitsPerOne := Nat.cast_nonneg _
    rw [readsAs_iff] at h hreads ⊢
    exact h.of_between hreads (mul_le_mul_of_nonneg_right hbelow hone)
      (mul_le_mul_of_nonneg_right habove hone)
  -- But it is on a coarser grid, unless `d` has no digit at all.
  have hgrid := hcoarsest _ hpower
  have hzero : count = 0 := by
    dsimp only at hgrid
    omega
  rw [hzero, Nat.pow_zero] at hcount
  omega

end FloatFormat

end TypedLine
