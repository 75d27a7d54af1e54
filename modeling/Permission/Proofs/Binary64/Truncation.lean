import Mathlib.Data.Nat.ModEq
import Permission.Proofs.Binary64.Nearest

namespace Permission.Binary64

/-!
# The whole part of a number

Clearing the bits behind the point cuts a number, counted in units, down to a
whole multiple of one.  So an integer and a number between the limits of all
integers are ordered by their whole parts, and by what stands behind the point
if those are the same: this is the order of their sizes.
-/

/-! ## Magnitudes -/

theorem unitsPerOne_pos :
    0 < unitsPerOne := by
  have doubled : ∀ count : Nat, 0 < 1 <<< count := by
    intro count
    rw [Nat.one_shiftLeft]
    exact Nat.two_pow_pos count
  exact doubled 1074

theorem unitsOf_eq
    (magnitude : Nat) :
    unitsOf magnitude = significandOf magnitude * 2 ^ scaleOf magnitude :=
  Nat.shiftLeft_eq _ _

/-- A size has the fifty-three bits of a significand and one for each doubling. -/
theorem unitsOf_lt_shiftLeft
    {magnitude bits : Nat}
    (doublings : 53 + scaleOf magnitude ≤ bits) :
    unitsOf magnitude < 1 <<< bits := by
  have significand : significandOf magnitude < 2 ^ 53 := by
    unfold significandOf fractionCount
    split <;> omega
  rw [Nat.one_shiftLeft]
  calc
    unitsOf magnitude = significandOf magnitude * 2 ^ scaleOf magnitude :=
      unitsOf_eq magnitude
    _ < 2 ^ 53 * 2 ^ scaleOf magnitude :=
      Nat.mul_lt_mul_of_pos_right significand (Nat.two_pow_pos _)
    _ = 2 ^ (53 + scaleOf magnitude) :=
      (Nat.pow_add 2 53 _).symm
    _ ≤ 2 ^ bits :=
      Nat.pow_le_pow_right Nat.two_pos doublings

/-- A magnitude below the pattern of one is less than one. -/
theorem unitsOf_lt_unitsPerOne
    {magnitude : Nat}
    (small : magnitude < oneMagnitude) :
    unitsOf magnitude < unitsPerOne := by
  have doublings : 53 + scaleOf magnitude ≤ 1074 := by
    unfold oneMagnitude fractionCount at small
    unfold scaleOf fractionCount
    omega
  exact unitsOf_lt_shiftLeft doublings

/-- Without an exponent the fraction counts units. -/
theorem unitsOf_of_lt_fractionCount
    {magnitude : Nat}
    (subnormal : magnitude < fractionCount) :
    unitsOf magnitude = magnitude := by
  have scale : scaleOf magnitude = 0 := by
    rw [scaleOf, Nat.div_eq_of_lt subnormal]
  rw [unitsOf_eq, scale, significandOf, if_pos subnormal, Nat.pow_zero,
    Nat.mul_one]

/-- With an exponent there is a leading one, and each step up doubles the size. -/
theorem unitsOf_of_exponent
    {exponent fraction : Nat}
    (normal : 0 < exponent)
    (proper : fraction < fractionCount) :
    unitsOf (exponent * fractionCount + fraction) =
      (fractionCount + fraction) * 2 ^ (exponent - 1) := by
  have quotient : (exponent * fractionCount + fraction) / fractionCount = exponent := by
    unfold fractionCount at proper ⊢
    omega
  have rest : (exponent * fractionCount + fraction) % fractionCount = fraction := by
    unfold fractionCount at proper ⊢
    omega
  have notBelow : ¬ exponent * fractionCount + fraction < fractionCount := by
    unfold fractionCount
    omega
  rw [unitsOf_eq, significandOf, if_neg notBelow, scaleOf, quotient, rest]

/-- Clearing low bits keeps a multiple of what stands above them. -/
theorem add_div_mul_of_dvd
    {step base : Nat}
    (divides : step ∣ base)
    (rest : Nat) :
    (base + rest) / step * step = base + rest / step * step := by
  rw [Nat.add_div_of_dvd_right divides, Nat.add_mul, Nat.div_mul_cancel divides]

/-- Cutting a multiple of a power of two down cuts the factor down. -/
theorem mul_two_pow_div_mul
    (factor scale shift : Nat) :
    factor * 2 ^ scale / 1 <<< shift * 1 <<< shift =
      factor / 2 ^ (shift - scale) * 2 ^ (shift - scale) * 2 ^ scale := by
  rw [Nat.one_shiftLeft]
  rcases Nat.le_total scale shift with lower | higher
  · have split : 2 ^ shift = 2 ^ (shift - scale) * 2 ^ scale := by
      rw [← Nat.pow_add, Nat.sub_add_cancel lower]
    rw [split, Nat.mul_div_mul_right _ _ (Nat.two_pow_pos scale), Nat.mul_assoc]
  · have whole : 2 ^ shift ∣ factor * 2 ^ scale :=
      Nat.dvd_mul_left_of_dvd (Nat.pow_dvd_pow 2 higher) factor
    rw [Nat.div_mul_cancel whole, Nat.sub_eq_zero_of_le higher, Nat.pow_zero,
      Nat.div_one, Nat.mul_one]

/-- From the pattern of one on, no more than the fraction stands behind the point. -/
theorem two_pow_dvd_fractionCount
    {exponent : Nat}
    (large : 1023 ≤ exponent) :
    2 ^ (1075 - exponent) ∣ fractionCount := by
  have bounded : 1075 - exponent ≤ 52 := by omega
  exact Nat.pow_dvd_pow 2 bounded

theorem wholeMagnitude_of_exponent
    {exponent fraction : Nat}
    (large : 1023 ≤ exponent)
    (proper : fraction < fractionCount) :
    wholeMagnitude (exponent * fractionCount + fraction) =
      exponent * fractionCount +
        fraction / 2 ^ (1075 - exponent) * 2 ^ (1075 - exponent) := by
  have notBelow : ¬ exponent * fractionCount + fraction < oneMagnitude := by
    unfold oneMagnitude fractionCount
    omega
  have places :
      placesOf (exponent * fractionCount + fraction) = 1075 - exponent := by
    unfold placesOf
    unfold fractionCount at proper ⊢
    omega
  have divides : 2 ^ (1075 - exponent) ∣ exponent * fractionCount :=
    Nat.dvd_mul_left_of_dvd (two_pow_dvd_fractionCount large) exponent
  unfold wholeMagnitude
  rw [if_neg notBelow, places, Nat.shiftLeft_eq, Nat.shiftRight_eq_div_pow,
    add_div_mul_of_dvd divides]

/-- The whole part of a magnitude counts the whole ones in it. -/
theorem unitsOf_wholeMagnitude
    (magnitude : Nat) :
    unitsOf (wholeMagnitude magnitude) =
      unitsOf magnitude / unitsPerOne * unitsPerOne := by
  by_cases small : magnitude < oneMagnitude
  · have nothing : wholeMagnitude magnitude = 0 :=
      if_pos small
    have none : unitsOf 0 = 0 :=
      rfl
    rw [nothing, none, Nat.div_eq_of_lt (unitsOf_lt_unitsPerOne small),
      Nat.zero_mul]
  · obtain ⟨exponent, fraction, proper, rfl⟩ :
        ∃ exponent fraction, fraction < fractionCount ∧
          magnitude = exponent * fractionCount + fraction :=
      ⟨magnitude / fractionCount, magnitude % fractionCount,
        Nat.mod_lt magnitude (by decide), (Nat.div_add_mod' _ _).symm⟩
    have large : 1023 ≤ exponent := by
      unfold oneMagnitude at small
      unfold fractionCount at small proper
      omega
    have normal : 0 < exponent :=
      Nat.lt_of_lt_of_le (by decide) large
    have cleared :
        fraction / 2 ^ (1075 - exponent) * 2 ^ (1075 - exponent) <
          fractionCount :=
      Nat.lt_of_le_of_lt (Nat.div_mul_le_self _ _) proper
    have places : 1074 - (exponent - 1) = 1075 - exponent := by
      omega
    calc
      unitsOf (wholeMagnitude (exponent * fractionCount + fraction)) =
          (fractionCount +
              fraction / 2 ^ (1075 - exponent) * 2 ^ (1075 - exponent)) *
            2 ^ (exponent - 1) := by
        rw [wholeMagnitude_of_exponent large proper,
          unitsOf_of_exponent normal cleared]
      _ = (fractionCount + fraction) / 2 ^ (1075 - exponent) *
            2 ^ (1075 - exponent) * 2 ^ (exponent - 1) := by
        rw [add_div_mul_of_dvd (two_pow_dvd_fractionCount large)]
      _ = (fractionCount + fraction) * 2 ^ (exponent - 1) / unitsPerOne *
            unitsPerOne :=
        places ▸
          (mul_two_pow_div_mul (fractionCount + fraction) (exponent - 1) 1074).symm
      _ = unitsOf (exponent * fractionCount + fraction) / unitsPerOne *
            unitsPerOne := by
        rw [unitsOf_of_exponent normal proper]

/-! ## Numbers -/

theorem isNegative_ofMagnitude
    {magnitude : Nat}
    (negative : Bool)
    (bounded : magnitude < signCount) :
    (ofMagnitude negative magnitude).isNegative = negative := by
  unfold ofMagnitude isNegative
  rw [UInt64.toNat_ofNat']
  cases negative <;> simp [signCount] at bounded ⊢ <;> omega

theorem units_ofMagnitude
    {magnitude : Nat}
    (negative : Bool)
    (bounded : magnitude < signCount) :
    (ofMagnitude negative magnitude).units =
      if negative then -(unitsOf magnitude : Int) else (unitsOf magnitude : Int) := by
  rw [units, isNegative_ofMagnitude negative bounded,
    magnitude_ofMagnitude negative bounded]

theorem magnitude_lt_signCount
    (number : Binary64) :
    number.magnitude < signCount :=
  Nat.mod_lt _ (by decide)

/-- A number is made up of its sign and its magnitude. -/
theorem ofMagnitude_magnitude
    (number : Binary64) :
    ofMagnitude number.isNegative number.magnitude = number := by
  have bounded := number.bits.toNat_lt
  obtain ⟨bits⟩ := number
  unfold ofMagnitude isNegative magnitude
  refine congrArg Binary64.mk (UInt64.toNat.inj ?_)
  rw [UInt64.toNat_ofNat']
  unfold signCount
  dsimp only at bounded ⊢
  by_cases negative : 0x8000000000000000 ≤ bits.toNat
  · rw [if_pos (decide_eq_true negative)]
    omega
  · rw [if_neg (by simp [negative])]
    omega

theorem wholeMagnitude_le
    (magnitude : Nat) :
    wholeMagnitude magnitude ≤ magnitude := by
  unfold wholeMagnitude
  split
  · exact Nat.zero_le magnitude
  · rw [Nat.shiftLeft_eq, Nat.shiftRight_eq_div_pow]
    exact Nat.div_mul_le_self _ _

theorem wholeMagnitude_lt_signCount
    (number : Binary64) :
    wholeMagnitude number.magnitude < signCount :=
  Nat.lt_of_le_of_lt (wholeMagnitude_le _) number.magnitude_lt_signCount

/-- Truncating rounds a number to a whole one, towards zero. -/
theorem units_truncate
    (number : Binary64) :
    number.truncate.units = number.units.tdiv unitsPerOne * unitsPerOne := by
  rw [truncate, units_ofMagnitude _ number.wholeMagnitude_lt_signCount,
    unitsOf_wholeMagnitude, units]
  cases number.isNegative with
  | false =>
      simp
  | true =>
      simp only [↓reduceIte, Int.natCast_mul, Int.natCast_ediv, Int.neg_tdiv,
        Int.natCast_tdiv_eq_ediv, Int.neg_mul]

theorem isNaN_truncate
    {number : Binary64}
    (isNumber : number.isNaN = false) :
    number.truncate.isNaN = false := by
  unfold isNaN at isNumber ⊢
  rw [truncate, magnitude_ofMagnitude _ number.wholeMagnitude_lt_signCount]
  have smaller := wholeMagnitude_le number.magnitude
  have bounded := of_decide_eq_false isNumber
  exact decide_eq_false fun above => bounded (Nat.lt_of_lt_of_le above smaller)

theorem units_negate
    (number : Binary64) :
    number.negate.units = -number.units := by
  rw [negate, units_ofMagnitude _ number.magnitude_lt_signCount, units]
  cases number.isNegative <;> simp

theorem isNaN_negate
    (number : Binary64) :
    number.negate.isNaN = number.isNaN := by
  unfold isNaN
  rw [negate, magnitude_ofMagnitude _ number.magnitude_lt_signCount]

section Numbers

variable
  {left right : Binary64}
  (leftIsNumber : left.isNaN = false)
  (rightIsNumber : right.isNaN = false)

include leftIsNumber rightIsNumber

theorem compare?_of_numbers :
    left.compare? right = some (compare left.units right.units) := by
  simp [compare?, leftIsNumber, rightIsNumber]

theorem isBelow_iff :
    left.isBelow right = true ↔ left.units < right.units := by
  rw [isBelow, compare?_of_numbers leftIsNumber rightIsNumber, Option.any_some,
    Ordering.isLT_iff_eq_lt, Int.compare_eq_lt]

theorem isAtLeast_iff :
    left.isAtLeast right = true ↔ right.units ≤ left.units := by
  rw [isAtLeast, compare?_of_numbers leftIsNumber rightIsNumber, Option.any_some,
    Ordering.isGE_iff_ne_lt]
  exact (not_congr Int.compare_eq_lt).trans Int.not_lt

/-- Two tests for the smaller one find the order. -/
theorem order_of_isBelow :
    (if left.isBelow right then
        Ordering.lt
      else if right.isBelow left then
        Ordering.gt
      else
        Ordering.eq) =
      compare left.units right.units := by
  simp only [isBelow_iff leftIsNumber rightIsNumber,
    isBelow_iff rightIsNumber leftIsNumber]
  rcases Int.lt_trichotomy left.units right.units with below | same | above
  · rw [if_pos below, Int.compare_eq_lt.mpr below]
  · rw [same, if_neg (Int.lt_irrefl _), if_neg (Int.lt_irrefl _),
      Int.compare_eq_eq.mpr rfl]
  · rw [if_neg (Int.lt_asymm above), if_pos above, Int.compare_eq_gt.mpr above]

end Numbers

/-- A size is ordered against a whole one by its whole part first. -/
theorem compare_mul_eq_then
    (whole size unit : Int)
    (positive : 0 < unit) :
    compare (whole * unit) size =
      (compare whole (size.tdiv unit)).then
        (compare (size.tdiv unit * unit) size) := by
  have parts := Int.tdiv_mul_add_tmod size unit
  have restBelow := Int.tmod_lt_of_pos size positive
  have restAbove := Int.lt_tmod_of_pos size positive
  rcases Int.lt_trichotomy whole (size.tdiv unit) with below | same | above
  · have step : (whole + 1) * unit ≤ size.tdiv unit * unit :=
      Int.mul_le_mul_of_nonneg_right below (Int.le_of_lt positive)
    rw [Int.add_mul, Int.one_mul] at step
    have sizeAbove : whole * unit < size := by omega
    rw [Int.compare_eq_lt.mpr below, Int.compare_eq_lt.mpr sizeAbove]
    rfl
  · rw [← same, Int.compare_eq_eq.mpr rfl]
    rfl
  · have step : (size.tdiv unit + 1) * unit ≤ whole * unit :=
      Int.mul_le_mul_of_nonneg_right above (Int.le_of_lt positive)
    rw [Int.add_mul, Int.one_mul] at step
    have sizeBelow : size < whole * unit := by omega
    rw [Int.compare_eq_gt.mpr above, Int.compare_eq_gt.mpr sizeBelow]
    rfl

theorem units_integerLimit :
    integerLimit.units = 2 ^ 63 * unitsPerOne := by
  decide +kernel

/-- Between the limits of all integers the whole part of a number is one. -/
theorem toInt_toInt64_truncate
    {number : Binary64}
    (isNumber : number.isNaN = false)
    (atLeast : -(2 ^ 63 * unitsPerOne) ≤ number.units)
    (below : number.units < 2 ^ 63 * unitsPerOne) :
    number.truncate.toInt64.toInt = number.units.tdiv unitsPerOne := by
  have positive : (0 : Int) < unitsPerOne :=
    Int.natCast_pos.mpr unitsPerOne_pos
  have lower : -2 ^ 63 ≤ number.units.tdiv unitsPerOne :=
    Int.le_tdiv_of_mul_le positive (by omega)
  have upper : number.units.tdiv unitsPerOne < 2 ^ 63 := by
    by_contra beyond
    have parts := Int.tdiv_mul_add_tmod number.units unitsPerOne
    have restAbove := Int.lt_tmod_of_pos number.units positive
    have step :
        2 ^ 63 * (unitsPerOne : Int) ≤
          number.units.tdiv unitsPerOne * unitsPerOne :=
      Int.mul_le_mul_of_nonneg_right (Int.not_lt.mp beyond) (Int.le_of_lt positive)
    have restNonneg : 0 ≤ number.units.tmod unitsPerOne :=
      Int.tmod_nonneg _ (by omega)
    omega
  have whole :
      number.truncate.units.tdiv unitsPerOne = number.units.tdiv unitsPerOne := by
    rw [units_truncate, Int.mul_tdiv_cancel _ (Int.ne_of_gt positive)]
  rw [toInt64, isNaN_truncate isNumber, whole, if_neg Bool.false_ne_true,
    Int.min_eq_right (by omega), Int.max_eq_right (by omega),
    Int64.toInt_ofInt_of_le lower upper]

/-- An integer is ordered against a number by their sizes. -/
theorem compareInteger?_of_isNaN_eq_false
    (integer : Int64)
    {number : Binary64}
    (isNumber : number.isNaN = false) :
    number.compareInteger? integer =
      some (compare (integer.toInt * unitsPerOne) number.units) := by
  have positive : (0 : Int) < unitsPerOne :=
    Int.natCast_pos.mpr unitsPerOne_pos
  have limitIsNumber : integerLimit.isNaN = false := by
    decide
  have negatedIsNumber : integerLimit.negate.isNaN = false :=
    integerLimit.isNaN_negate.trans limitIsNumber
  have integerBelow := integer.toInt_lt
  have integerAtLeast := integer.le_toInt
  unfold compareInteger?
  rw [isNumber, if_neg Bool.false_ne_true]
  by_cases beyond : number.isAtLeast integerLimit = true
  · rw [if_pos beyond]
    rw [isAtLeast_iff isNumber limitIsNumber, units_integerLimit] at beyond
    have step : integer.toInt * unitsPerOne < 2 ^ 63 * (unitsPerOne : Int) :=
      Int.mul_lt_mul_of_pos_right integerBelow positive
    rw [Int.compare_eq_lt.mpr (Int.lt_of_lt_of_le step beyond)]
  · rw [if_neg beyond]
    rw [isAtLeast_iff isNumber limitIsNumber, units_integerLimit,
      Int.not_le] at beyond
    by_cases under : number.isBelow integerLimit.negate = true
    · rw [if_pos under]
      rw [isBelow_iff isNumber negatedIsNumber, units_negate,
        units_integerLimit] at under
      have step : -2 ^ 63 * (unitsPerOne : Int) ≤ integer.toInt * unitsPerOne :=
        Int.mul_le_mul_of_nonneg_right integerAtLeast (Int.le_of_lt positive)
      rw [Int.compare_eq_gt.mpr (by omega)]
    · rw [if_neg under]
      rw [isBelow_iff isNumber negatedIsNumber, units_negate, units_integerLimit,
        Int.not_lt] at under
      dsimp only
      rw [order_of_isBelow (isNaN_truncate isNumber) isNumber,
        compare_mul_eq_then _ _ _ positive,
        toInt_toInt64_truncate isNumber under beyond, ← units_truncate]

end Permission.Binary64
