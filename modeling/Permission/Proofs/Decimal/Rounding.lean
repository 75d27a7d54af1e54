import Permission.Proofs.Binary64.Rounding
import Permission.Proofs.Decimal.Digits

namespace Permission.Decimal

/-!
# Rounding intervals

The interval of a number holds what is rounded to that number.  So the numeral that is
chosen for a number, which lies in its interval, is a numeral of that number.
-/

open Binary64 (significandOf scaleOf fractionCount unitsPerOne)

namespace RoundingInterval

theorem holds_iff
    {interval : RoundingInterval}
    {numerator denominator : Nat} :
    interval.holds numerator denominator = true ↔
      interval.lower * denominator ≤ numerator ∧
        numerator ≤ interval.upper * denominator ∧
        (interval.closed = false →
          interval.lower * denominator ≠ numerator ∧
            numerator ≠ interval.upper * denominator) := by
  unfold holds
  cases interval.closed with
  | false =>
      simp only [Bool.false_eq_true, reduceIte, Bool.and_eq_true, decide_eq_true_eq,
        true_imp_iff]
      omega
  | true =>
      simp

/-- The lower end is nearer than the upper one, as it is at a power of two. -/
def IsNarrow
    (magnitude : Nat) :
    Prop :=
  significandOf magnitude = fractionCount ∧ 0 < scaleOf magnitude

variable {magnitude numerator denominator : Nat}

theorem closed_eq_false_iff :
    (ofMagnitude magnitude).closed = false ↔ significandOf magnitude % 2 = 1 := by
  unfold ofMagnitude
  simp

/-- At an odd significand both ends are a half of the last place away. -/
theorem lower_add_of_odd
    (odd : significandOf magnitude % 2 = 1) :
    (ofMagnitude magnitude).lower + 2 * (1 <<< scaleOf magnitude) =
      4 * (significandOf magnitude * (1 <<< scaleOf magnitude)) := by
  have positive : 0 < significandOf magnitude := by
    omega
  have notNarrow : ¬ significandOf magnitude = fractionCount := by
    unfold fractionCount
    omega
  have covers :
      1 <<< scaleOf magnitude ≤
        significandOf magnitude * (1 <<< scaleOf magnitude) :=
    Nat.le_mul_of_pos_left _ positive
  unfold ofMagnitude
  simp [notNarrow]
  omega

theorem number_le_lower_add
    (magnitude : Nat) :
    4 * (significandOf magnitude * (1 <<< scaleOf magnitude)) ≤
      (ofMagnitude magnitude).lower + 2 * (1 <<< scaleOf magnitude) := by
  unfold ofMagnitude
  dsimp only
  split <;> omega

theorem number_le_lower_add_of_narrow
    (narrow : IsNarrow magnitude) :
    4 * (significandOf magnitude * (1 <<< scaleOf magnitude)) ≤
      (ofMagnitude magnitude).lower + 1 <<< scaleOf magnitude := by
  unfold ofMagnitude
  simp [narrow.1, narrow.2]
  omega

/-! ## What an interval holds -/

/-- Distances to an interval are counted in places of the denominator. -/
theorem place_mul
    (count : Nat) :
    count * (1 <<< scaleOf magnitude) * denominator =
      count * (denominator <<< scaleOf magnitude) := by
  rw [Nat.shiftLeft_eq, Nat.shiftLeft_eq, Nat.one_mul, Nat.mul_assoc,
    Nat.mul_comm denominator]

theorem number_mul :
    4 * (significandOf magnitude * (1 <<< scaleOf magnitude)) * denominator =
      4 * (significandOf magnitude * (denominator <<< scaleOf magnitude)) := by
  rw [Nat.mul_assoc, place_mul]

theorem mul_quartersPerOne
    (numerator : Nat) :
    numerator * quartersPerOne = 4 * (numerator * unitsPerOne) := by
  unfold quartersPerOne
  exact Nat.mul_left_comm numerator 4 unitsPerOne

section Held

variable
  (held :
    (ofMagnitude magnitude).holds (numerator * quartersPerOne) denominator = true)

include held

/-- What an interval holds lies no more than half a last place from the number. -/
theorem isRounded_of_holds :
    Binary64.IsRounded (numerator * unitsPerOne)
      (denominator <<< scaleOf magnitude) (significandOf magnitude) := by
  rw [holds_iff, mul_quartersPerOne, closed_eq_false_iff] at held
  obtain ⟨aboveLower, belowUpper, inside⟩ := held
  have upper :
      (ofMagnitude magnitude).upper * denominator =
        4 * (significandOf magnitude * (denominator <<< scaleOf magnitude)) +
          2 * (denominator <<< scaleOf magnitude) := by
    rw [← number_mul, ← place_mul 2, ← Nat.add_mul]
    rfl
  have lower :=
    Nat.mul_le_mul_right denominator (number_le_lower_add magnitude)
  rw [Nat.add_mul, number_mul, place_mul] at lower
  refine ⟨by omega, by omega, ?_⟩
  intro odd
  have exactLower :=
    congrArg (· * denominator) (lower_add_of_odd odd)
  rw [Nat.add_mul, number_mul, place_mul] at exactLower
  have notAtEnds := inside odd
  omega

/-- Below a power of two an interval holds no more than a quarter of a place. -/
theorem number_le_of_holds
    (narrow : IsNarrow magnitude) :
    4 * (significandOf magnitude * (denominator <<< scaleOf magnitude)) ≤
      4 * (numerator * unitsPerOne) + denominator <<< scaleOf magnitude := by
  rw [holds_iff, mul_quartersPerOne] at held
  have lower :=
    Nat.mul_le_mul_right denominator (number_le_lower_add_of_narrow narrow)
  have onePlace :
      1 <<< scaleOf magnitude * denominator = denominator <<< scaleOf magnitude := by
    rw [Nat.shiftLeft_eq, Nat.shiftLeft_eq, Nat.one_mul, Nat.mul_comm]
  rw [Nat.add_mul, number_mul, onePlace] at lower
  omega

end Held

/--
What lies below a power of two, but no more than a quarter of a place, is cut to a
place of half the size and carried up to it.
-/
theorem nearestMagnitude_of_below_power
    (positive : 0 < denominator)
    (narrow : IsNarrow magnitude)
    (below :
      numerator * unitsPerOne <
        fractionCount * (denominator <<< scaleOf magnitude))
    (near :
      4 * (fractionCount * (denominator <<< scaleOf magnitude)) ≤
        4 * (numerator * unitsPerOne) + denominator <<< scaleOf magnitude) :
    Binary64.nearestMagnitude numerator denominator = magnitude := by
  obtain ⟨isPower, doubled⟩ := narrow
  obtain ⟨scale, isNext⟩ := Nat.exists_eq_add_one_of_ne_zero (Nat.ne_of_gt doubled)
  have halved :
      denominator <<< scaleOf magnitude = 2 * (denominator <<< scale) := by
    rw [isNext, Nat.shiftLeft_succ]
  have pattern := Binary64.scaleOf_mul_add_significandOf magnitude
  rw [isNext, isPower, Nat.add_one_mul] at pattern
  rw [halved, Nat.mul_left_comm fractionCount] at below near
  have twice := Nat.mul_assoc 2 fractionCount (denominator <<< scale)
  have carried :
      Binary64.nearestMagnitude numerator denominator =
        scale * fractionCount + 2 * fractionCount := by
    apply Binary64.nearestMagnitude_of_isRounded positive
    · omega
    · intro _
      have covers : denominator <<< scale ≤ fractionCount * (denominator <<< scale) :=
        Nat.le_mul_of_pos_left _ (by decide)
      omega
    · refine ⟨by omega, by omega, ?_⟩
      intro odd
      omega
  rw [carried]
  omega

/-- What the interval of a number holds is rounded to that number. -/
theorem nearestMagnitude_of_holds
    (positive : 0 < denominator)
    (held :
      (ofMagnitude magnitude).holds (numerator * quartersPerOne) denominator =
        true) :
    Binary64.nearestMagnitude numerator denominator = magnitude := by
  have isRounded := isRounded_of_holds held
  have significandBelow := Binary64.significandOf_lt magnitude
  have placePositive := Binary64.shiftLeft_pos positive (scaleOf magnitude)
  have below :
      numerator * unitsPerOne <
        2 * fractionCount * (denominator <<< scaleOf magnitude) := by
    have step :=
      Nat.mul_le_mul_right (denominator <<< scaleOf magnitude)
        (Nat.succ_le_of_lt significandBelow)
    rw [Nat.succ_mul] at step
    have bound := isRounded.2.1
    omega
  by_cases reaches :
      0 < scaleOf magnitude →
        fractionCount * (denominator <<< scaleOf magnitude) ≤
          numerator * unitsPerOne
  · exact
      (Binary64.nearestMagnitude_of_isRounded positive below reaches isRounded).trans
        (Binary64.scaleOf_mul_add_significandOf magnitude)
  · rw [Classical.not_imp, Nat.not_le] at reaches
    obtain ⟨doubled, less⟩ := reaches
    have leading := Binary64.fractionCount_le_significandOf magnitude doubled
    have isPower : significandOf magnitude = fractionCount := by
      by_contra other
      have step :=
        Nat.mul_le_mul_right (denominator <<< scaleOf magnitude)
          (Nat.succ_le_of_lt (Nat.lt_of_le_of_ne leading (Ne.symm other)))
      rw [Nat.succ_mul] at step
      have bound := isRounded.1
      omega
    have near := number_le_of_holds held ⟨isPower, doubled⟩
    rw [isPower] at near
    exact nearestMagnitude_of_below_power positive ⟨isPower, doubled⟩ less near

end RoundingInterval

/-! ## The numeral chosen for a number -/

/-- The magnitude pattern nearest to a numeral. -/
def nearest
    (decimal : Decimal) :
    Nat :=
  Binary64.nearestMagnitude
    (decimal.coefficient * powerOfTen decimal.exponent.toNat)
    (powerOfTen (-decimal.exponent).toNat)

variable {magnitude grids : Nat} {exponent : Int} {decimal : Decimal}

/-- What is found on a grid lies in the interval. -/
theorem nearest_of_onGrid?
    {coefficient : Nat}
    (found :
      onGrid? (RoundingInterval.ofMagnitude magnitude) exponent = some coefficient) :
    nearest ⟨coefficient, exponent⟩ = magnitude := by
  have chosen := List.find?_some found
  rw [Bool.and_eq_true] at chosen
  have held := chosen.2
  rw [Nat.mul_comm RoundingInterval.quartersPerOne, ← Nat.mul_assoc] at held
  exact RoundingInterval.nearestMagnitude_of_holds (powerOfTen_pos _) held

/-- What is found on one of several grids lies in the interval. -/
theorem nearest_of_onGrids?
    (found :
      onGrids? (RoundingInterval.ofMagnitude magnitude) grids exponent =
        some decimal) :
    decimal.nearest = magnitude := by
  induction grids generalizing exponent with
  | zero =>
      cases found
  | succ grids inductionHypothesis =>
      unfold onGrids? at found
      split at found
      · rename_i coefficient onGrid
        cases found
        exact nearest_of_onGrid? onGrid
      · exact inductionHypothesis found

/-- A zero at the end of a coefficient can go into the exponent. -/
theorem nearest_div_ten
    (zero : decimal.coefficient % 10 = 0) :
    nearest ⟨decimal.coefficient / 10, decimal.exponent + 1⟩ = decimal.nearest := by
  obtain ⟨coefficient, exponent⟩ := decimal
  have whole : coefficient / 10 * 10 = coefficient :=
    Nat.div_mul_cancel (Nat.dvd_of_mod_eq_zero zero)
  unfold nearest
  dsimp only
  by_cases negative : exponent < 0
  · have noPower : exponent.toNat = 0 ∧ (exponent + 1).toNat = 0 := by
      omega
    have onePlace : (-exponent).toNat = (-(exponent + 1)).toNat + 1 := by
      omega
    rw [noPower.1, noPower.2, onePlace, powerOfTen_succ,
      ← Binary64.nearestMagnitude_mul_right _ _ (by decide : 0 < 10),
      Nat.mul_right_comm, whole]
  · have noPlaces : (-exponent).toNat = 0 ∧ (-(exponent + 1)).toNat = 0 := by
      omega
    have onePower : (exponent + 1).toNat = exponent.toNat + 1 := by
      omega
    rw [noPlaces.1, noPlaces.2, onePower, powerOfTen_succ, ← Nat.mul_assoc,
      Nat.mul_right_comm, whole]

/-- Dropping zeros leaves a numeral of the same number. -/
theorem nearest_dropZeros
    (places : Nat)
    (decimal : Decimal) :
    (dropZeros places decimal).nearest = decimal.nearest := by
  induction places generalizing decimal with
  | zero =>
      rfl
  | succ places inductionHypothesis =>
      unfold dropZeros
      split
      · rename_i zero
        rw [inductionHypothesis, nearest_div_ten zero]
      · rfl

end Permission.Decimal
