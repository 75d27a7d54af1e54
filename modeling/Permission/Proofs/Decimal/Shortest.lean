import Permission.Proofs.Decimal.Rounding

namespace Permission.Decimal

/-!
# Seventeen digits are enough

The grids that are looked at get finer down to one of eighteen digits.  A step on that
one is less than half a last place of the number, so that the next numeral above the
number still lies in its interval.  A numeral is therefore found for each number.
-/

open Binary64 (scaleOf fractionCount unitsOf unitsPerOne)

theorem unitsPerOne_le_powerOfTen :
    unitsPerOne ≤ powerOfTen exponentLimit := by
  decide +kernel

/-- A number is no less than the power of ten of its leading digit. -/
theorem powerOfTen_leadingExponentOf_le
    {magnitude : Nat}
    (positive : 0 < magnitude) :
    powerOfTen (leadingExponentOf magnitude).toNat * unitsPerOne ≤
      unitsOf magnitude * powerOfTen (-leadingExponentOf magnitude).toNat := by
  let scaled := unitsOf magnitude * powerOfTen exponentLimit / unitsPerOne
  have scaledPositive : 0 < scaled := by
    apply Nat.div_pos _ Binary64.unitsPerOne_pos
    exact Nat.le_trans unitsPerOne_le_powerOfTen
      (Nat.le_mul_of_pos_left _ (Binary64.unitsOf_pos positive))
  have leading : powerOfTen (digitCount scaled - 1) * unitsPerOne ≤
      unitsOf magnitude * powerOfTen exponentLimit :=
    Nat.le_trans (Nat.mul_le_mul_right _ (powerOfTen_digitCount_le scaledPositive))
      (Nat.div_mul_le_self _ _)
  have someDigits := digitCount_pos scaled
  have places :
      digitCount scaled - 1 + (-leadingExponentOf magnitude).toNat =
        (leadingExponentOf magnitude).toNat + exponentLimit := by
    have shape :
        leadingExponentOf magnitude = digitCount scaled - 1 - exponentLimit :=
      rfl
    omega
  apply Nat.le_of_mul_le_mul_right _ (powerOfTen_pos exponentLimit)
  calc
    powerOfTen (leadingExponentOf magnitude).toNat * unitsPerOne *
          powerOfTen exponentLimit =
        powerOfTen (digitCount scaled - 1) * unitsPerOne *
          powerOfTen (-leadingExponentOf magnitude).toNat := by
      rw [Nat.mul_right_comm, ← powerOfTen_add, ← places, powerOfTen_add,
        Nat.mul_right_comm]
    _ ≤ unitsOf magnitude * powerOfTen exponentLimit *
          powerOfTen (-leadingExponentOf magnitude).toNat :=
      Nat.mul_le_mul_right _ leading
    _ = unitsOf magnitude * powerOfTen (-leadingExponentOf magnitude).toNat *
          powerOfTen exponentLimit :=
      Nat.mul_right_comm _ _ _

/-! ## The finest grid -/

/-- A number has as many steps of a grid as its leading digit has, and more. -/
theorem steps_le
    {magnitude : Nat}
    {exponent : Int}
    {places : Nat}
    (positive : 0 < magnitude)
    (fine : exponent = leadingExponentOf magnitude - places) :
    unitsPerOne * powerOfTen exponent.toNat * powerOfTen places ≤
      unitsOf magnitude * powerOfTen (-exponent).toNat := by
  have leading := powerOfTen_leadingExponentOf_le positive
  have steps :
      powerOfTen exponent.toNat * powerOfTen places *
          powerOfTen (-leadingExponentOf magnitude).toNat =
        powerOfTen (leadingExponentOf magnitude).toNat *
          powerOfTen (-exponent).toNat := by
    rw [← powerOfTen_add, ← powerOfTen_add, ← powerOfTen_add]
    congr 1
    omega
  apply Nat.le_of_mul_le_mul_right _
    (powerOfTen_pos (-leadingExponentOf magnitude).toNat)
  calc
    unitsPerOne * powerOfTen exponent.toNat * powerOfTen places *
          powerOfTen (-leadingExponentOf magnitude).toNat =
        powerOfTen (leadingExponentOf magnitude).toNat * unitsPerOne *
          powerOfTen (-exponent).toNat := by
      rw [Nat.mul_right_comm (powerOfTen (leadingExponentOf magnitude).toNat),
        ← steps, Nat.mul_assoc unitsPerOne, Nat.mul_assoc unitsPerOne,
        Nat.mul_comm unitsPerOne]
    _ ≤ unitsOf magnitude * powerOfTen (-leadingExponentOf magnitude).toNat *
          powerOfTen (-exponent).toNat :=
      Nat.mul_le_mul_right _ leading
    _ = unitsOf magnitude * powerOfTen (-exponent).toNat *
          powerOfTen (-leadingExponentOf magnitude).toNat :=
      Nat.mul_right_comm _ _ _

/-- On a grid of eighteen digits two steps are less than a last place. -/
theorem two_steps_lt_place
    {magnitude : Nat}
    {exponent : Int}
    (positive : 0 < magnitude)
    (fine : exponent = leadingExponentOf magnitude - (17 : Nat)) :
    2 * (unitsPerOne * powerOfTen exponent.toNat) <
      2 ^ scaleOf magnitude * powerOfTen (-exponent).toNat := by
  have steps := steps_le positive fine
  have digits : 2 * (2 * fractionCount) ≤ powerOfTen 17 := by
    decide
  have placePositive : 0 < 2 ^ scaleOf magnitude * powerOfTen (-exponent).toNat :=
    Nat.mul_pos (Nat.two_pow_pos _) (powerOfTen_pos _)
  have number :
      unitsOf magnitude * powerOfTen (-exponent).toNat <
        2 * fractionCount *
          (2 ^ scaleOf magnitude * powerOfTen (-exponent).toNat) := by
    rw [Binary64.unitsOf_eq, Nat.mul_assoc]
    exact
      Nat.mul_lt_mul_of_pos_right (Binary64.significandOf_lt magnitude) placePositive
  have enlarged :=
    Nat.mul_le_mul_left (unitsPerOne * powerOfTen exponent.toNat) digits
  apply Nat.lt_of_mul_lt_mul_left (a := 2 * fractionCount)
  calc
    2 * fractionCount * (2 * (unitsPerOne * powerOfTen exponent.toNat)) =
        unitsPerOne * powerOfTen exponent.toNat * (2 * (2 * fractionCount)) := by
      rw [Nat.mul_left_comm, ← Nat.mul_assoc 2, Nat.mul_comm]
    _ ≤ unitsPerOne * powerOfTen exponent.toNat * powerOfTen 17 :=
      enlarged
    _ ≤ unitsOf magnitude * powerOfTen (-exponent).toNat :=
      steps
    _ < 2 * fractionCount *
          (2 ^ scaleOf magnitude * powerOfTen (-exponent).toNat) :=
      number

/-! ## What is found -/

/-- The next numeral above a number lies in its interval if a step is short enough. -/
theorem holds_of_step_lt
    {magnitude step denominator : Nat}
    (positive : 0 < step)
    (short : step < 2 * (2 ^ scaleOf magnitude * denominator)) :
    (RoundingInterval.ofMagnitude magnitude).holds
        (((RoundingInterval.ofMagnitude magnitude).number * denominator / step + 1) *
          step)
        denominator =
      true := by
  have lower :
      (RoundingInterval.ofMagnitude magnitude).lower * denominator ≤
        (RoundingInterval.ofMagnitude magnitude).number * denominator :=
    Nat.mul_le_mul_right _ (Nat.sub_le _ _)
  have upper :
      (RoundingInterval.ofMagnitude magnitude).upper * denominator =
        (RoundingInterval.ofMagnitude magnitude).number * denominator +
          2 * (2 ^ scaleOf magnitude * denominator) := by
    have shape :
        (RoundingInterval.ofMagnitude magnitude).upper =
          (RoundingInterval.ofMagnitude magnitude).number +
            2 * (1 <<< scaleOf magnitude) :=
      rfl
    rw [shape, Nat.add_mul, Nat.one_shiftLeft, Nat.mul_assoc 2]
  rw [RoundingInterval.holds_iff, upper]
  generalize (RoundingInterval.ofMagnitude magnitude).number * denominator = number
    at lower ⊢
  have split := Nat.div_add_mod' number step
  have rest := Nat.mod_lt number positive
  have above := Nat.add_one_mul (number / step) step
  refine ⟨?_, ?_, fun _ => ⟨?_, ?_⟩⟩ <;> omega

theorem exists_onGrid?
    {magnitude : Nat}
    {exponent : Int}
    (positive : 0 < magnitude)
    (fine : exponent = leadingExponentOf magnitude - (17 : Nat)) :
    ∃ coefficient,
      onGrid? (RoundingInterval.ofMagnitude magnitude) exponent =
        some coefficient := by
  have short := two_steps_lt_place positive fine
  have stepPositive :
      0 < RoundingInterval.quartersPerOne * powerOfTen exponent.toNat :=
    Nat.mul_pos (Nat.mul_pos (by decide) Binary64.unitsPerOne_pos) (powerOfTen_pos _)
  have stepShort :
      RoundingInterval.quartersPerOne * powerOfTen exponent.toNat <
        2 * (2 ^ scaleOf magnitude * powerOfTen (-exponent).toNat) := by
    unfold RoundingInterval.quartersPerOne
    rw [Nat.mul_assoc]
    omega
  have held := holds_of_step_lt stepPositive stepShort
  rw [← Option.isSome_iff_exists]
  unfold onGrid?
  dsimp only
  rw [List.find?_isSome]
  refine ⟨_, ?_, Bool.and_eq_true_iff.mpr ⟨decide_eq_true (Nat.succ_pos _), held⟩⟩
  split
  · simp
  · simp
  · split <;> simp

/-- A hit on one of the grids makes for a hit on one of them. -/
theorem exists_onGrids?
    {interval : RoundingInterval}
    {grids finer : Nat}
    {exponent : Int}
    (within : finer < grids)
    (found : ∃ coefficient, onGrid? interval (exponent - finer) = some coefficient) :
    ∃ decimal, onGrids? interval grids exponent = some decimal := by
  induction grids generalizing finer exponent with
  | zero =>
      cases within
  | succ grids inductionHypothesis =>
      unfold onGrids?
      split
      · exact ⟨_, rfl⟩
      · rename_i none
        cases finer with
        | zero =>
            obtain ⟨coefficient, onGrid⟩ := found
            rw [Int.natCast_zero, Int.sub_zero, none] at onGrid
            cases onGrid
        | succ finer =>
            apply inductionHypothesis (Nat.lt_of_succ_lt_succ within)
            have finerStill :
                exponent - 1 - (finer : Int) = exponent - (finer + 1 : Nat) := by
              omega
            rwa [finerStill]

/-- A numeral is chosen for every positive number. -/
theorem exists_shortest
    {magnitude : Nat}
    (positive : 0 < magnitude) :
    ∃ decimal,
      onGrids? (RoundingInterval.ofMagnitude magnitude) gridLimit
          (leadingExponentOf magnitude) =
        some decimal ∧
      shortest magnitude = dropZeros gridLimit decimal := by
  obtain ⟨decimal, found⟩ :=
    exists_onGrids? (by decide : 17 < gridLimit) (exists_onGrid? positive rfl)
  refine ⟨decimal, found, ?_⟩
  unfold shortest
  dsimp only
  rw [found, Option.map_some, Option.getD_some]

/-- The number is nearest to the numeral that is chosen for it. -/
theorem nearest_shortest
    {magnitude : Nat}
    (positive : 0 < magnitude) :
    (shortest magnitude).nearest = magnitude := by
  obtain ⟨decimal, found, isShortest⟩ := exists_shortest positive
  rw [isShortest, nearest_dropZeros]
  exact nearest_of_onGrids? found

theorem coefficient_onGrids?_pos
    {interval : RoundingInterval}
    {grids : Nat}
    {exponent : Int}
    {decimal : Decimal}
    (found : onGrids? interval grids exponent = some decimal) :
    0 < decimal.coefficient := by
  induction grids generalizing exponent with
  | zero =>
      cases found
  | succ grids inductionHypothesis =>
      unfold onGrids? at found
      split at found
      · rename_i coefficient onGrid
        cases found
        have chosen := List.find?_some onGrid
        rw [Bool.and_eq_true, decide_eq_true_eq] at chosen
        exact chosen.1
      · exact inductionHypothesis found

theorem coefficient_dropZeros_pos
    {decimal : Decimal}
    (places : Nat)
    (positive : 0 < decimal.coefficient) :
    0 < (dropZeros places decimal).coefficient := by
  induction places generalizing decimal with
  | zero =>
      exact positive
  | succ places inductionHypothesis =>
      unfold dropZeros
      split
      · apply inductionHypothesis
        dsimp only
        omega
      · exact positive

theorem coefficient_shortest_pos
    {magnitude : Nat}
    (positive : 0 < magnitude) :
    0 < (shortest magnitude).coefficient := by
  obtain ⟨decimal, found, isShortest⟩ := exists_shortest positive
  rw [isShortest]
  exact coefficient_dropZeros_pos _ (coefficient_onGrids?_pos found)

end Permission.Decimal
