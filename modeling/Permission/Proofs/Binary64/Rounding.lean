import Permission.Proofs.Binary64.Truncation

namespace Permission.Binary64

/-!
# Rounded quotients

A quotient that lies no more than half a last place from a number is rounded to that
number, and to it too if it lies exactly between two and the pattern of this one is
even.  The last place is narrower below a power of two than above it, but what lies
below is then cut to a finer place, and carried.
-/

/--
An integer lies within a half of a quotient, and is even if it lies just a half from
it.
-/
def IsRounded
    (numerator denominator rounded : Nat) :
    Prop :=
  2 * (rounded * denominator) ≤ 2 * numerator + denominator ∧
    2 * numerator ≤ 2 * (rounded * denominator) + denominator ∧
    (rounded % 2 = 1 →
      2 * (rounded * denominator) ≠ 2 * numerator + denominator ∧
        2 * numerator ≠ 2 * (rounded * denominator) + denominator)

/-- Only the quotient cut down and the integer above it lie within a half of it. -/
theorem IsRounded.eq_div_or
    {numerator denominator rounded : Nat}
    (positive : 0 < denominator)
    (isRounded : IsRounded numerator denominator rounded) :
    rounded = numerator / denominator ∨ rounded = numerator / denominator + 1 := by
  obtain ⟨notAbove, notBelow, -⟩ := isRounded
  have split := Nat.div_add_mod' numerator denominator
  have rest := Nat.mod_lt numerator positive
  have notLess : ¬ rounded < numerator / denominator := by
    intro less
    have behind := Nat.mul_le_mul_right denominator (Nat.succ_le_of_lt less)
    rw [Nat.succ_mul] at behind
    omega
  have notMore : ¬ numerator / denominator + 1 < rounded := by
    intro more
    have ahead := Nat.mul_le_mul_right denominator (Nat.succ_le_of_lt more)
    rw [Nat.succ_mul, Nat.succ_mul] at ahead
    omega
  omega

/-- Rounding finds the integer that lies within a half. -/
theorem roundHalfEven_eq
    {numerator denominator rounded : Nat}
    (positive : 0 < denominator)
    (isRounded : IsRounded numerator denominator rounded) :
    roundHalfEven numerator denominator = rounded := by
  have split := Nat.div_add_mod' numerator denominator
  have above := Nat.add_one_mul (numerator / denominator) denominator
  have candidates := isRounded.eq_div_or positive
  obtain ⟨notAbove, notBelow, tie⟩ := isRounded
  unfold roundHalfEven
  dsimp only
  split
  · rename_i less
    rw [Nat.compare_eq_lt] at less
    rcases candidates with rfl | rfl <;> omega
  · rename_i more
    rw [Nat.compare_eq_gt] at more
    rcases candidates with rfl | rfl <;> omega
  · rename_i half
    rw [Nat.compare_eq_eq] at half
    rcases candidates with rfl | rfl <;> omega

/-- Rounding depends on the quotient alone. -/
theorem roundHalfEven_mul_right
    (numerator denominator : Nat)
    {factor : Nat}
    (positive : 0 < factor) :
    roundHalfEven (numerator * factor) (denominator * factor) =
      roundHalfEven numerator denominator := by
  have nonzero : factor ≠ 0 :=
    Nat.ne_of_gt positive
  have sameOrder :
      compare (2 * (numerator % denominator * factor)) (denominator * factor) =
        compare (2 * (numerator % denominator)) denominator := by
    rw [← Nat.mul_assoc]
    simp only [compare, compareOfLessAndEq, Nat.mul_lt_mul_right positive,
      Nat.mul_left_inj nonzero]
  unfold roundHalfEven
  dsimp only
  rw [Nat.mul_div_mul_right _ _ positive, Nat.mul_mod_mul_right, sameOrder]

theorem nearestMagnitude_mul_right
    (numerator denominator : Nat)
    {factor : Nat}
    (positive : 0 < factor) :
    nearestMagnitude (numerator * factor) (denominator * factor) =
      nearestMagnitude numerator denominator := by
  have scaled : numerator * factor * unitsPerOne = numerator * unitsPerOne * factor :=
    Nat.mul_right_comm numerator factor unitsPerOne
  have shifted :
      ∀ scale, (denominator * factor) <<< scale = denominator <<< scale * factor := by
    intro scale
    rw [Nat.shiftLeft_eq, Nat.shiftLeft_eq, Nat.mul_right_comm]
  unfold nearestMagnitude
  dsimp only
  rw [scaled, Nat.mul_div_mul_right _ _ positive, shifted,
    roundHalfEven_mul_right _ _ positive]

/-! ## Patterns -/

section Patterns

variable (magnitude : Nat)

theorem significandOf_lt :
    significandOf magnitude < 2 * fractionCount := by
  unfold significandOf fractionCount
  split <;> omega

/-- Where the last place is doubled, the significand has its leading bit. -/
theorem fractionCount_le_significandOf
    (doubled : 0 < scaleOf magnitude) :
    fractionCount ≤ significandOf magnitude := by
  unfold scaleOf at doubled
  unfold significandOf
  split
  · rename_i small
    rw [Nat.div_eq_of_lt small] at doubled
    cases doubled
  · exact Nat.le_add_right _ _

/-- A pattern counts whole binades and then the significand. -/
theorem scaleOf_mul_add_significandOf :
    scaleOf magnitude * fractionCount + significandOf magnitude = magnitude := by
  unfold scaleOf significandOf fractionCount
  split <;> omega

end Patterns

theorem unitsOf_pos
    {magnitude : Nat}
    (positive : 0 < magnitude) :
    0 < unitsOf magnitude := by
  have significand : 0 < significandOf magnitude := by
    unfold significandOf fractionCount
    split <;> omega
  rw [unitsOf_eq]
  exact Nat.mul_pos significand (Nat.two_pow_pos _)

/-! ## Quotients -/

theorem shiftLeft_pos
    {denominator : Nat}
    (positive : 0 < denominator)
    (scale : Nat) :
    0 < denominator <<< scale := by
  rw [Nat.shiftLeft_eq]
  exact Nat.mul_pos positive (Nat.two_pow_pos scale)

section Quotients

variable {scaled denominator scale : Nat} (positive : 0 < denominator)

include positive

/-- The place to which a quotient of units is cut follows from its size. -/
theorem log2_div_sub_eq
    (below : scaled < 2 * fractionCount * (denominator <<< scale))
    (above : 0 < scale → fractionCount * (denominator <<< scale) ≤ scaled) :
    Nat.log2 (scaled / denominator) - 52 = scale := by
  rw [Nat.shiftLeft_eq] at below above
  have fewBits : Nat.log2 (scaled / denominator) < 53 + scale := by
    by_cases zero : scaled / denominator = 0
    · rw [zero, Nat.log2_zero]
      omega
    · rw [Nat.log2_lt zero, Nat.div_lt_iff_lt_mul positive]
      calc
        scaled < 2 * fractionCount * (denominator * 2 ^ scale) :=
          below
        _ = 2 ^ (53 + scale) * denominator := by
          rw [Nat.pow_add, Nat.mul_comm denominator, ← Nat.mul_assoc]
          rfl
  by_cases doubled : 0 < scale
  · have enoughBits : 52 + scale ≤ Nat.log2 (scaled / denominator) := by
      have quotient : 2 ^ (52 + scale) ≤ scaled / denominator := by
        rw [Nat.le_div_iff_mul_le positive]
        calc
          2 ^ (52 + scale) * denominator =
              fractionCount * (denominator * 2 ^ scale) := by
            rw [Nat.pow_add, Nat.mul_comm denominator, ← Nat.mul_assoc]
            rfl
          _ ≤ scaled :=
            above doubled
      have nonzero : scaled / denominator ≠ 0 :=
        Nat.ne_of_gt (Nat.lt_of_lt_of_le (Nat.two_pow_pos _) quotient)
      exact (Nat.le_log2 nonzero).mpr quotient
    omega
  · omega

/-- A quotient is rounded to the pattern of a place and what rounds to that place. -/
theorem nearestMagnitude_of_isRounded
    {numerator significand : Nat}
    (below :
      numerator * unitsPerOne < 2 * fractionCount * (denominator <<< scale))
    (above :
      0 < scale →
        fractionCount * (denominator <<< scale) ≤ numerator * unitsPerOne)
    (isRounded :
      IsRounded (numerator * unitsPerOne) (denominator <<< scale) significand) :
    nearestMagnitude numerator denominator = scale * fractionCount + significand := by
  have rounded := roundHalfEven_eq (shiftLeft_pos positive scale) isRounded
  unfold nearestMagnitude
  dsimp only
  rw [log2_div_sub_eq positive below above, rounded]

end Quotients

/-! ## Numbers that need no rounding -/

/-- A significand with its leading bit, at some place, is a number. -/
theorem unitsOf_nearestMagnitude_of_eq
    {natural scale significand : Nat}
    (leading : fractionCount ≤ significand)
    (bounded : significand < 2 * fractionCount)
    (exactly : natural * unitsPerOne = significand * 2 ^ scale) :
    unitsOf (nearestMagnitude natural 1) = natural * unitsPerOne := by
  have place : 1 <<< scale = 2 ^ scale :=
    Nat.one_shiftLeft scale
  have placePositive : 0 < 2 ^ scale :=
    Nat.two_pow_pos scale
  have rounded :
      nearestMagnitude natural 1 = scale * fractionCount + significand := by
    apply nearestMagnitude_of_isRounded Nat.one_pos
    · rw [exactly, place]
      exact Nat.mul_lt_mul_of_pos_right bounded placePositive
    · intro _
      rw [exactly, place]
      exact Nat.mul_le_mul_right _ leading
    · rw [exactly, place]
      exact ⟨by omega, by omega, fun _ => by omega⟩
  obtain ⟨fraction, rfl⟩ := Nat.exists_eq_add_of_le leading
  have proper : fraction < fractionCount := by
    omega
  have pattern :
      scale * fractionCount + (fractionCount + fraction) =
        (scale + 1) * fractionCount + fraction := by
    rw [Nat.add_one_mul, Nat.add_assoc]
  rw [rounded, pattern, unitsOf_of_exponent (Nat.succ_pos scale) proper, exactly]
  rfl

/-- Integers of up to fifty-three bits are numbers. -/
theorem unitsOf_nearestMagnitude_one
    {natural : Nat}
    (small : natural < 2 * fractionCount) :
    unitsOf (nearestMagnitude natural 1) = natural * unitsPerOne := by
  by_cases zero : natural = 0
  · rw [zero]
    decide +kernel
  · have bits : Nat.log2 natural < 53 :=
      (Nat.log2_lt zero).mpr small
    obtain ⟨missing, isMissing⟩ :=
      Nat.exists_eq_add_of_le (Nat.le_of_lt_succ bits)
    have unit : unitsPerOne = 2 ^ missing * 2 ^ (1074 - missing) := by
      have places : missing + (1074 - missing) = 1074 := by
        omega
      rw [← Nat.pow_add, places]
      exact Nat.one_shiftLeft 1074
    have leading : fractionCount ≤ natural * 2 ^ missing :=
      calc
        fractionCount = 2 ^ Nat.log2 natural * 2 ^ missing := by
          rw [← Nat.pow_add, ← isMissing]
          rfl
        _ ≤ natural * 2 ^ missing :=
          Nat.mul_le_mul_right _ (Nat.log2_self_le zero)
    have bounded : natural * 2 ^ missing < 2 * fractionCount :=
      calc
        natural * 2 ^ missing < 2 ^ (Nat.log2 natural + 1) * 2 ^ missing :=
          Nat.mul_lt_mul_of_pos_right Nat.lt_log2_self (Nat.two_pow_pos missing)
        _ = 2 * fractionCount := by
          rw [← Nat.pow_add, Nat.add_right_comm, ← isMissing]
          rfl
    have exactly :
        natural * unitsPerOne = natural * 2 ^ missing * 2 ^ (1074 - missing) := by
      rw [unit, Nat.mul_assoc]
    exact unitsOf_nearestMagnitude_of_eq leading bounded exactly

/-! ## Products and quotients of integers -/

section Integers

variable
  {left right leftSize rightSize : Nat}
  (leftUnits : unitsOf left = leftSize * unitsPerOne)
  (rightUnits : unitsOf right = rightSize * unitsPerOne)

include leftUnits rightUnits

theorem productOf_eq :
    productOf left right = nearestMagnitude (leftSize * rightSize) 1 := by
  unfold productOf
  rw [leftUnits, rightUnits, Nat.mul_mul_mul_comm]
  have cancelled :=
    nearestMagnitude_mul_right (leftSize * rightSize) 1
      (Nat.mul_pos unitsPerOne_pos unitsPerOne_pos)
  rwa [Nat.one_mul] at cancelled

theorem quotientOf_eq :
    quotientOf left right = nearestMagnitude leftSize rightSize := by
  unfold quotientOf
  rw [leftUnits, rightUnits]
  exact nearestMagnitude_mul_right leftSize rightSize unitsPerOne_pos

end Integers

end Permission.Binary64
