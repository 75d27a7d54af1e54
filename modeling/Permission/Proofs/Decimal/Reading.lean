import Permission.Proofs.Decimal.Rounding

namespace Permission.Decimal

/-!
# Numerals that are read exactly

A coefficient of up to fifty-three bits is a number, and so is a power of ten up to
the twenty-second.  Where these are all that a numeral is made of, reading it rounds
only once, and yields the number nearest to it.
-/

open Binary64 (fractionCount infinityMagnitude unitsOf unitsPerOne)

/--
The numeral that stands in the text of a numeral.  Where it is written out and has no
places, zeros go before the point and one more goes behind it.
-/
def Layout.written
    (layout : Layout)
    (decimal : Decimal) :
    Decimal :=
  let leading := decimal.leadingExponent
  if 0 ≤ decimal.exponent ∧
      layout.leastPositional ≤ leading ∧ leading < layout.leastExponential then
    ⟨decimal.coefficient * powerOfTen (decimal.exponent.toNat + 1), -1⟩
  else
    decimal

/-- The greatest exponent of a power of ten that needs no rounding. -/
def exactPowerLimit : Nat :=
  22

/-- Coefficient and power of ten of a numeral are numbers. -/
structure IsExact
    (decimal : Decimal) :
    Prop where
  coefficient : decimal.coefficient < 2 * fractionCount
  exponent : decimal.exponent.natAbs ≤ exactPowerLimit

instance (decimal : Decimal) : Decidable decimal.IsExact :=
  decidable_of_iff
    (decimal.coefficient < 2 * fractionCount ∧
      decimal.exponent.natAbs ≤ exactPowerLimit)
    ⟨fun parts => ⟨parts.1, parts.2⟩, fun exact => ⟨exact.1, exact.2⟩⟩

theorem unitsOf_powerMagnitude :
    ∀ exponent ≤ exactPowerLimit,
      unitsOf (powerMagnitude exponent) = powerOfTen exponent * unitsPerOne := by
  decide +kernel

theorem nearest_of_ofNat
    (coefficient exponent : Nat) :
    nearest ⟨coefficient, .ofNat exponent⟩ =
      Binary64.nearestMagnitude (coefficient * powerOfTen exponent) 1 := by
  have noPlaces : (-Int.ofNat exponent).toNat = 0 := by
    rw [Int.ofNat_eq_natCast]
    omega
  unfold nearest
  dsimp only
  rw [noPlaces]
  rfl

theorem nearest_of_negSucc
    (coefficient fewer : Nat) :
    nearest ⟨coefficient, .negSucc fewer⟩ =
      Binary64.nearestMagnitude coefficient (powerOfTen (fewer + 1)) :=
  congrArg (Binary64.nearestMagnitude · _) (Nat.mul_one coefficient)

/-- A numeral that is read exactly is read as the number nearest to it. -/
theorem IsExact.magnitude?_eq
    {decimal : Decimal}
    (isExact : decimal.IsExact)
    (positive : 0 < decimal.coefficient)
    (finite : decimal.nearest < infinityMagnitude) :
    decimal.magnitude? = some decimal.nearest := by
  obtain ⟨coefficient, exponent⟩ := decimal
  obtain ⟨small, near⟩ := isExact
  dsimp only at small near positive
  have units := Binary64.unitsOf_nearestMagnitude_one small
  have nonzero : Binary64.nearestMagnitude coefficient 1 ≠ 0 := by
    intro zero
    have noUnits : unitsOf 0 = 0 :=
      rfl
    have someUnits := Nat.mul_pos positive Binary64.unitsPerOne_pos
    rw [zero, noUnits] at units
    omega
  cases exponent with
  | ofNat exponent =>
      have isPower : exponent ≤ exactPowerLimit :=
        near
      have product :=
        Binary64.productOf_eq units (unitsOf_powerMagnitude exponent isPower)
      have withinLimit : exponent ≤ powerLimit :=
        Nat.le_trans isPower (by decide)
      unfold magnitude? enlarge?
      dsimp only
      rw [if_neg nonzero, if_pos withinLimit, product, ← nearest_of_ofNat,
        if_pos finite]
  | negSucc fewer =>
      have isPower : fewer + 1 ≤ exactPowerLimit :=
        near
      have below : fewer < powerLimit :=
        Nat.lt_of_lt_of_le (Nat.lt_of_succ_le isPower) (by decide)
      have quotient :=
        Binary64.quotientOf_eq units (unitsOf_powerMagnitude (fewer + 1) isPower)
      unfold magnitude?
      dsimp only
      rw [Nat.div_eq_of_lt below, Nat.mod_eq_of_lt below, nearest_of_negSucc,
        ← quotient]
      rfl

/-! ## Numerals as they are written -/

section Written

variable {decimal : Decimal} (layout : Layout)

/-- Zeros that are added do not change which number is nearest. -/
theorem nearest_written
    (decimal : Decimal) :
    (layout.written decimal).nearest = decimal.nearest := by
  obtain ⟨coefficient, exponent⟩ := decimal
  unfold Layout.written
  dsimp only
  split
  · rename_i writtenOut
    obtain ⟨power, rfl⟩ := Int.eq_ofNat_of_zero_le writtenOut.1
    have onePlace : powerOfTen (0 + 1) = 10 :=
      rfl
    have cancelled :=
      Binary64.nearestMagnitude_mul_right (coefficient * powerOfTen power) 1
        (by decide : 0 < 10)
    rw [Nat.one_mul] at cancelled
    have regrouped :
        coefficient * powerOfTen (power + 1) = coefficient * powerOfTen power * 10 := by
      rw [powerOfTen_succ, Nat.mul_assoc]
    calc
      nearest ⟨coefficient * powerOfTen (power + 1), .negSucc 0⟩ =
          Binary64.nearestMagnitude (coefficient * powerOfTen power * 10) 10 := by
        rw [nearest_of_negSucc, onePlace, regrouped]
      _ = nearest ⟨coefficient, .ofNat power⟩ :=
        cancelled.trans (nearest_of_ofNat coefficient power).symm
  · rfl

theorem coefficient_written_pos
    (positive : 0 < decimal.coefficient) :
    0 < (layout.written decimal).coefficient := by
  unfold Layout.written
  dsimp only
  split
  · exact Nat.mul_pos positive (powerOfTen_pos _)
  · exact positive

end Written

end Permission.Decimal
