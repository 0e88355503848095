import Mathlib.Algebra.Order.Field.Power
import Mathlib.Data.Rat.Cast.Order
import Mathlib.Order.Monotone.Basic
import Mathlib.Tactic.Linarith
import Mathlib.Tactic.Positivity
import Mathlib.Tactic.Ring
import TypedLine.BinaryFloat.Rounding

/-!
# Rounding intervals

Which exact numbers are rounded to a given rank. The magnitudes of the ranks ascend strictly
(`strictMono_units`), so there is a **middle** between each two neighbours, and a rank takes the
numbers between the middle below it and the middle above it. Of the two ranks next to a middle the
even one takes the middle itself. `RoundsTo` says this of a rational number of units, and it is
what `nearestRank` computes: `nearestRank_eq_iff`.

Two facts make the intervals useful: rounding is monotone (`RoundsTo.mono`), and each interval holds
the magnitude of its own rank (`roundsTo_units`).
-/

namespace TypedLine.FloatFormat

-- Powers are those of the core library, also where other powers are at hand.
attribute [local instance (high)] instPowNat

variable (f : FloatFormat)

/-! ### Magnitudes ascend -/

theorem binade_pos : 0 < f.binade :=
  Nat.two_pow_pos _

theorem unitsPerOne_pos : 0 < f.unitsPerOne :=
  Nat.two_pow_pos _

/-- Below the second binade a magnitude is its own rank. -/
theorem units_of_lt {fraction : Nat} (h : fraction < f.binade) : f.units fraction = fraction := by
  simp only [units, Nat.div_eq_of_lt h, Nat.mod_eq_of_lt h, if_true]

/-- From the second binade on the distances double. -/
theorem units_of_binade {exponent fraction : Nat} (h : fraction < f.binade) :
    f.units ((exponent + 1) * f.binade + fraction) = (f.binade + fraction) * 2 ^ exponent := by
  have hdiv : ((exponent + 1) * f.binade + fraction) / f.binade = exponent + 1 := by
    rw [Nat.add_comm, Nat.add_mul_div_right _ _ f.binade_pos, Nat.div_eq_of_lt h, Nat.zero_add]
  have hmod : ((exponent + 1) * f.binade + fraction) % f.binade = fraction := by
    rw [Nat.add_comm, Nat.add_mul_mod_self_right, Nat.mod_eq_of_lt h]
  simp only [units, hdiv, hmod, Nat.add_one_ne_zero, if_false, Nat.add_sub_cancel]

/-- The distance from a magnitude to the next one. -/
theorem units_succ (rank : Nat) :
    f.units (rank + 1) = f.units rank + 2 ^ (rank / f.binade - 1) := by
  have hpos := f.binade_pos
  have hfraction : rank % f.binade < f.binade := Nat.mod_lt _ hpos
  have hrank : rank = rank / f.binade * f.binade + rank % f.binade := by
    rw [Nat.mul_comm]
    exact (Nat.div_add_mod ..).symm
  generalize rank / f.binade = exponent at hrank ⊢
  generalize rank % f.binade = fraction at hrank hfraction
  subst hrank
  -- Either the next rank is in the same binade, or it is the first of the next one.
  rcases Nat.lt_or_ge (fraction + 1) f.binade with hnext | hlast
  · cases exponent with
    | zero =>
      rw [Nat.zero_mul, Nat.zero_add, f.units_of_lt hnext, f.units_of_lt hfraction]
    | succ exponent =>
      rw [Nat.add_assoc, f.units_of_binade hnext, f.units_of_binade hfraction, Nat.add_sub_cancel]
      ring
  · have hbinade : f.binade = fraction + 1 := by omega
    have hfirst : exponent * f.binade + fraction + 1 = (exponent + 1) * f.binade + 0 := by
      rw [Nat.add_mul]
      omega
    rw [hfirst, f.units_of_binade hpos]
    cases exponent with
    | zero =>
      rw [Nat.zero_mul, Nat.zero_add, f.units_of_lt hfraction, hbinade, Nat.add_zero, Nat.pow_zero,
        Nat.mul_one]
    | succ exponent =>
      rw [f.units_of_binade hfraction, Nat.add_sub_cancel, hbinade]
      ring

theorem units_lt_units_succ (rank : Nat) : f.units rank < f.units (rank + 1) := by
  have hpos : 0 < 2 ^ (rank / f.binade - 1) := Nat.two_pow_pos _
  rw [units_succ]
  omega

/-- **The magnitudes ascend with the ranks.** -/
theorem strictMono_units : StrictMono f.units :=
  strictMono_nat_of_lt_succ f.units_lt_units_succ

@[simp]
theorem units_zero : f.units 0 = 0 :=
  f.units_of_lt f.binade_pos

theorem units_pos {rank : Nat} (h : 0 < rank) : 0 < f.units rank := by
  have hlt := f.strictMono_units h
  rwa [units_zero] at hlt

/-- A magnitude is at most doubled by going to the next rank. -/
theorem units_succ_le {rank : Nat} (h : 0 < rank) : f.units (rank + 1) ≤ 2 * f.units rank := by
  have hstep : 2 ^ (rank / f.binade - 1) ≤ f.units rank := by
    rcases hexponent : rank / f.binade with - | exponent
    · exact f.units_pos h
    · have hrank : rank = (exponent + 1) * f.binade + rank % f.binade := by
        rw [← hexponent, Nat.mul_comm]
        exact (Nat.div_add_mod ..).symm
      rw [hrank, f.units_of_binade (Nat.mod_lt _ f.binade_pos), Nat.add_sub_cancel]
      exact Nat.le_mul_of_pos_left _ (Nat.add_pos_left f.binade_pos _)
  rw [units_succ]
  omega

/-! ### The rank below a number of units -/

/-- The magnitude of a significand with all its bits, shifted into its place. -/
theorem units_of_significand (shift : Nat) {significand : Nat} (hlow : f.binade ≤ significand)
    (hhigh : significand < 2 * f.binade) :
    f.units (shift * f.binade + significand) = significand * 2 ^ shift ∧
      f.units (shift * f.binade + significand + 1) = significand * 2 ^ shift + 2 ^ shift := by
  have hrank : shift * f.binade + significand =
      (shift + 1) * f.binade + (significand - f.binade) := by
    rw [Nat.add_mul]
    omega
  have hfraction : significand - f.binade < f.binade := by omega
  have hunits : f.units (shift * f.binade + significand) = significand * 2 ^ shift := by
    rw [hrank, f.units_of_binade hfraction, Nat.add_sub_cancel' hlow]
  have hexponent : (shift * f.binade + significand) / f.binade - 1 = shift := by
    rw [hrank, Nat.add_comm, Nat.add_mul_div_right _ _ f.binade_pos, Nat.div_eq_of_lt hfraction]
    omega
  refine ⟨hunits, ?_⟩
  rw [units_succ, hunits, hexponent]

/-- **The rank that is found lies below the number, and the next one above it.** -/
theorem units_floorRank (units : Nat) :
    f.units (f.floorRank units) ≤ units ∧ units < f.units (f.floorRank units + 1) := by
  rcases Nat.lt_or_ge units f.binade with hsmall | hlarge
  · -- Such a number is a magnitude itself, and its own rank.
    have hlog : Nat.log2 units - f.fractionBits = 0 := by
      rcases Nat.eq_zero_or_pos units with rfl | hpos
      · exact Nat.zero_sub _
      · have hlt : Nat.log2 units < f.fractionBits := (Nat.log2_lt (Nat.ne_of_gt hpos)).2 hsmall
        omega
    have hfloor : f.floorRank units = units := by
      simp only [floorRank, hlog, Nat.zero_mul, Nat.zero_add, Nat.pow_zero, Nat.div_one]
    have hnext := f.units_lt_units_succ units
    rw [hfloor]
    rw [f.units_of_lt hsmall] at hnext ⊢
    exact ⟨Nat.le_refl _, hnext⟩
  · have hne : units ≠ 0 := by
      have := f.binade_pos
      omega
    have hlog : f.fractionBits ≤ Nat.log2 units := (Nat.le_log2 hne).2 hlarge
    obtain ⟨shift, hshift⟩ : ∃ shift, Nat.log2 units = f.fractionBits + shift :=
      Nat.exists_eq_add_of_le hlog
    have hfloor : f.floorRank units = shift * f.binade + units / 2 ^ shift := by
      simp only [floorRank, hshift, Nat.add_sub_cancel_left]
    have hpow : 0 < 2 ^ shift := Nat.two_pow_pos _
    -- The quotient has all the bits of a significand.
    have hlow : f.binade ≤ units / 2 ^ shift := by
      rw [Nat.le_div_iff_mul_le hpow, binade, ← Nat.pow_add, ← hshift]
      exact Nat.log2_self_le hne
    have hhigh : units / 2 ^ shift < 2 * f.binade := by
      rw [Nat.div_lt_iff_lt_mul hpow, binade, ← Nat.pow_succ', ← Nat.pow_add, Nat.succ_add,
        ← hshift]
      exact Nat.lt_log2_self
    obtain ⟨hunits, hnext⟩ := f.units_of_significand shift hlow hhigh
    rw [hfloor, hnext, hunits]
    have hdiv := Nat.div_add_mod units (2 ^ shift)
    have hmod := Nat.mod_lt units hpow
    rw [Nat.mul_comm] at hdiv
    omega

/-! ### Rounding intervals -/

/-- Twice the number halfway between a magnitude and the next one, in units. -/
def middle (rank : Nat) : Nat :=
  f.units rank + f.units (rank + 1)

theorem strictMono_middle : StrictMono f.middle := by
  intro r s h
  have hlow := f.strictMono_units h
  have hhigh := f.strictMono_units (Nat.succ_lt_succ h)
  exact Nat.add_lt_add hlow hhigh

/-- A number of units **rounds to** a rank when it lies between the middles on both sides of it; a
middle itself counts for an even rank. -/
structure RoundsTo (units : ℚ) (rank : Nat) : Prop where
  /-- It is not below the middle to the rank before. -/
  above : ∀ before, rank = before + 1 →
    f.middle before < 2 * units ∨ f.middle before = 2 * units ∧ rank % 2 = 0
  /-- It is not above the middle to the rank behind. -/
  below : 2 * units < f.middle rank ∨ 2 * units = f.middle rank ∧ rank % 2 = 0

namespace RoundsTo

variable {f} {x y z : ℚ} {r s : Nat}

/-- **Rounding is monotone.** -/
theorem mono (hx : f.RoundsTo x r) (hy : f.RoundsTo y s) (hxy : x ≤ y) : r ≤ s := by
  by_contra hlt
  obtain ⟨before, rfl⟩ : ∃ before, r = before + 1 := ⟨r - 1, by omega⟩
  have hmiddle : (f.middle s : ℚ) ≤ f.middle before := by
    exact_mod_cast f.strictMono_middle.monotone (show s ≤ before by omega)
  -- Otherwise one middle would be taken by the ranks on both sides of it.
  rcases hx.above before rfl with habove | ⟨habove, heven⟩ <;>
    rcases hy.below with hbelow | ⟨hbelow, heven'⟩
  · linarith
  · linarith
  · linarith
  · have hsame : (f.middle s : ℚ) = f.middle before := by linarith
    have : s = before := f.strictMono_middle.injective (by exact_mod_cast hsame)
    omega

/-- A number rounds to one rank only. -/
theorem unique (h : f.RoundsTo x r) (h' : f.RoundsTo x s) : r = s :=
  Nat.le_antisymm (h.mono h' le_rfl) (h'.mono h le_rfl)

/-- What lies between two numbers that round to a rank rounds to it too. -/
theorem of_between (hx : f.RoundsTo x r) (hz : f.RoundsTo z r) (hxy : x ≤ y) (hyz : y ≤ z) :
    f.RoundsTo y r where
  above := by
    intro before hr
    rcases hx.above before hr with habove | ⟨habove, heven⟩
    · left
      linarith
    · rcases hxy.lt_or_eq with hlt | rfl
      · left
        linarith
      · exact .inr ⟨habove, heven⟩
  below := by
    rcases hz.below with hbelow | ⟨hbelow, heven⟩
    · left
      linarith
    · rcases hyz.lt_or_eq with hlt | rfl
      · left
        linarith
      · exact .inr ⟨hbelow, heven⟩

end RoundsTo

section Nearest

variable {f} {x : ℚ} {rank : Nat}

/-- Below the middle a number rounds to the rank below it. -/
theorem roundsTo_of_below (hlow : f.units rank ≤ x)
    (h : 2 * x < f.middle rank ∨ 2 * x = f.middle rank ∧ rank % 2 = 0) : f.RoundsTo x rank where
  above := by
    rintro before rfl
    have hlt : (f.units before : ℚ) < f.units (before + 1) := by
      exact_mod_cast f.units_lt_units_succ before
    left
    rw [middle]
    push_cast
    linarith
  below := h

/-- Above the middle it rounds to the next rank. -/
theorem roundsTo_of_above (hhigh : x < f.units (rank + 1))
    (h : f.middle rank < 2 * x ∨ f.middle rank = 2 * x ∧ (rank + 1) % 2 = 0) :
    f.RoundsTo x (rank + 1) where
  above := by
    intro before hrank
    obtain rfl : rank = before := by omega
    exact h
  below := by
    have hlt : (f.units (rank + 1) : ℚ) < f.units (rank + 1 + 1) := by
      exact_mod_cast f.units_lt_units_succ (rank + 1)
    left
    rw [middle]
    push_cast
    linarith

end Nearest

/-- **A magnitude rounds to its own rank.** -/
theorem roundsTo_units (rank : Nat) : f.RoundsTo (f.units rank) rank := by
  refine roundsTo_of_below le_rfl (.inl ?_)
  have hlt : (f.units rank : ℚ) < f.units (rank + 1) := by
    exact_mod_cast f.units_lt_units_succ rank
  rw [middle]
  push_cast
  linarith

/-- The rank that is computed is one that the number rounds to. -/
theorem roundsTo_nearestRank {num den : Nat} (hden : 0 < den) :
    f.RoundsTo (num / den) (f.nearestRank num den) := by
  obtain ⟨hfloor, hnext⟩ := f.units_floorRank (num / den)
  have hpos : (0 : ℚ) < den := by exact_mod_cast hden
  have hlow : (f.units (f.floorRank (num / den)) : ℚ) ≤ num / den := by
    rw [le_div_iff₀ hpos]
    exact_mod_cast (Nat.le_div_iff_mul_le hden).1 hfloor
  have hhigh : (num / den : ℚ) < f.units (f.floorRank (num / den) + 1) := by
    rw [div_lt_iff₀ hpos]
    exact_mod_cast (Nat.div_lt_iff_lt_mul hden).1 hnext
  have htwice : (2 * (num / den) : ℚ) = (2 * num : Nat) / den := by
    push_cast
    ring
  generalize hbelow : f.floorRank (num / den) = below at hlow hhigh
  have hrank : f.nearestRank num den =
      if 2 * num < f.middle below * den then below
      else if f.middle below * den < 2 * num then below + 1 else below + below % 2 := by
    rw [← hbelow]
    rfl
  rw [hrank]
  split
  · rename_i hlt
    refine roundsTo_of_below hlow (.inl ?_)
    rw [htwice, div_lt_iff₀ hpos]
    exact_mod_cast hlt
  · rename_i hge
    split
    · rename_i hgt
      refine roundsTo_of_above hhigh (.inl ?_)
      rw [htwice, lt_div_iff₀ hpos]
      exact_mod_cast hgt
    · rename_i hle
      have htie : 2 * num = f.middle below * den := by omega
      have hmiddle : (2 * (num / den) : ℚ) = f.middle below := by
        rw [htwice, div_eq_iff hpos.ne']
        exact_mod_cast htie
      -- At the middle the even one of the two ranks is taken.
      rcases Nat.mod_two_eq_zero_or_one below with heven | hodd
      · rw [heven]
        exact roundsTo_of_below hlow (.inr ⟨hmiddle, heven⟩)
      · rw [hodd]
        exact roundsTo_of_above hhigh (.inr ⟨hmiddle.symm, by omega⟩)

/-- **Rounding computes the rank whose interval the number lies in.** -/
theorem nearestRank_eq_iff {num den rank : Nat} (hden : 0 < den) :
    f.nearestRank num den = rank ↔ f.RoundsTo (num / den) rank := by
  refine ⟨fun h ↦ ?_, fun h ↦ ?_⟩
  · exact h ▸ f.roundsTo_nearestRank hden
  · exact (f.roundsTo_nearestRank hden).unique h

end TypedLine.FloatFormat
