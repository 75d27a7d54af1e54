import Mathlib
import Permission.Proofs.Value.Form

namespace Permission

/-!
# Numbers by their exact sizes

The size of an integer is itself, and that of a float is the rational number that
its sign, exponent and fraction make up, or an infinity.  Counting units keeps the
order of sizes, and an integer counts as fewer units than an infinity does, so
values that are numbers are ordered by their sizes with no rounding on either
side.
-/

/-- The rational numbers, with one more number below and one above them all. -/
abbrev ExtendedRational :=
  WithBot (WithTop ℚ)

namespace Binary64

/-- The eleven exponent bits. -/
def exponent
    (number : Binary64) :
    Nat :=
  number.bits.toNat / 2 ^ 52 % 2 ^ 11

/-- The fifty-two fraction bits. -/
def fraction
    (number : Binary64) :
    Nat :=
  number.bits.toNat % 2 ^ 52

/--
The rational number that a pattern stands for unless its exponent bits are all
set: a fraction with a leading one, scaled by the exponent, or without it, if no
exponent bit is set.
-/
def rational
    (number : Binary64) :
    ℚ :=
  (if number.isNegative then -1 else 1) *
    if number.exponent = 0 then
      ((number.fraction : ℚ) / 2 ^ 52) * 2 ^ (-1022 : ℤ)
    else
      (1 + (number.fraction : ℚ) / 2 ^ 52) * 2 ^ ((number.exponent : ℤ) - 1023)

/-- The size of the number that a pattern stands for, if it stands for one. -/
def size?
    (number : Binary64) :
    Option ExtendedRational :=
  if number.exponent = 2047 then
    if number.fraction = 0 then
      some (if number.isNegative then ⊥ else ⊤)
    else
      none
  else
    some (number.rational : WithTop ℚ)

theorem magnitude_eq
    (number : Binary64) :
    number.magnitude =
      number.exponent * fractionCount + number.fraction := by
  unfold magnitude exponent fraction signCount fractionCount
  omega

theorem exponent_lt
    (number : Binary64) :
    number.exponent < 2048 :=
  Nat.mod_lt _ (by decide)

theorem fraction_lt
    (number : Binary64) :
    number.fraction < fractionCount :=
  Nat.mod_lt _ (by decide)

theorem cast_one_shiftLeft
    (shift : Nat) :
    ((1 <<< shift : Nat) : ℚ) = 2 ^ (shift : ℤ) := by
  rw [Nat.one_shiftLeft, Nat.cast_pow, Nat.cast_ofNat, zpow_natCast]

theorem cast_unitsPerOne :
    (unitsPerOne : ℚ) = 2 ^ ((1074 : ℕ) : ℤ) :=
  cast_one_shiftLeft 1074

/-- The units of a magnitude are those of its fraction, scaled by its exponent. -/
theorem unitsOf_magnitude_div
    (number : Binary64) :
    (unitsOf number.magnitude : ℚ) / unitsPerOne =
      if number.exponent = 0 then
        ((number.fraction : ℚ) / 2 ^ 52) * 2 ^ (-1022 : ℤ)
      else
        (1 + (number.fraction : ℚ) / 2 ^ 52) *
          2 ^ ((number.exponent : ℤ) - 1023) := by
  have proper := number.fraction_lt
  rw [magnitude_eq, cast_unitsPerOne]
  generalize number.exponent = exponent
  generalize number.fraction = fraction at proper
  by_cases subnormal : exponent = 0
  · have scale : (2 : ℚ) ^ (-1022 : ℤ) = 2 ^ 52 / 2 ^ ((1074 : ℕ) : ℤ) := by
      rw [← zpow_natCast 2 52, ← zpow_sub₀ two_ne_zero]
      rfl
    rw [subnormal, if_pos rfl, Nat.zero_mul, Nat.zero_add,
      unitsOf_of_lt_fractionCount proper, scale]
    field_simp
  · have normal : 0 < exponent :=
      Nat.pos_of_ne_zero subnormal
    have scale :
        (2 : ℚ) ^ ((exponent : ℤ) - 1023) =
          2 ^ 52 * 2 ^ (exponent - 1) / 2 ^ ((1074 : ℕ) : ℤ) := by
      rw [← zpow_natCast 2 52, ← zpow_natCast 2 (exponent - 1),
        ← zpow_add₀ two_ne_zero, ← zpow_sub₀ two_ne_zero]
      congr 1
      omega
    have count : (fractionCount : ℚ) = 2 ^ 52 := by
      norm_num [fractionCount]
    rw [if_neg subnormal, unitsOf_of_exponent normal proper, scale, Nat.cast_mul,
      Nat.cast_add, Nat.cast_pow, Nat.cast_ofNat, count]
    field_simp

theorem rational_eq
    (number : Binary64) :
    number.rational = number.units / unitsPerOne := by
  rw [rational, ← unitsOf_magnitude_div, units]
  cases number.isNegative with
  | false =>
      simp
  | true =>
      simp [neg_div]

/-! ## Units as sizes -/

/-- How many units infinity counts for. -/
def infinityUnits : Nat :=
  unitsOf infinityMagnitude

theorem infinityUnits_eq :
    infinityUnits = 1 <<< 2098 := by
  decide +kernel

/-- The size that a count of units stands for, as long as it is finite. -/
def ofUnits
    (units : Int) :
    ExtendedRational :=
  if (infinityUnits : Int) ≤ units then
    ⊤
  else if units ≤ -(infinityUnits : Int) then
    ⊥
  else
    ((units / unitsPerOne : ℚ) : WithTop ℚ)

/-- The counts of units that are those of a number. -/
abbrev unitsRange : Set Int :=
  Set.Icc (-(infinityUnits : Int)) infinityUnits

theorem ofUnits_of_finite
    {units : Int}
    (above : -(infinityUnits : Int) < units)
    (below : units < infinityUnits) :
    ofUnits units = ((units / unitsPerOne : ℚ) : WithTop ℚ) := by
  rw [ofUnits, if_neg (not_le.mpr below), if_neg (not_le.mpr above)]

theorem infinityUnits_pos :
    (0 : Int) < infinityUnits := by
  decide +kernel

theorem ofUnits_infinityUnits :
    ofUnits infinityUnits = ⊤ :=
  if_pos le_rfl

theorem ofUnits_neg_infinityUnits :
    ofUnits (-(infinityUnits : Int)) = ⊥ := by
  have positive := infinityUnits_pos
  have notAbove : ¬ (infinityUnits : Int) ≤ -(infinityUnits : Int) := by
    omega
  rw [ofUnits, if_neg notAbove, if_pos le_rfl]

theorem ofUnits_strictMonoOn :
    StrictMonoOn ofUnits unitsRange := by
  rintro left ⟨leftAtLeast, -⟩ right ⟨-, rightAtMost⟩ less
  have positive : (0 : ℚ) < unitsPerOne :=
    Nat.cast_pos.mpr unitsPerOne_pos
  have leftBelow : ¬ (infinityUnits : Int) ≤ left := by
    omega
  have rightAbove : ¬ right ≤ -(infinityUnits : Int) := by
    omega
  unfold ofUnits
  rw [if_neg leftBelow, if_neg rightAbove]
  split
  · split
    · exact bot_lt_top
    · exact WithBot.bot_lt_coe _
  · split
    · exact WithBot.coe_lt_coe.mpr (WithTop.coe_lt_top _)
    · apply WithBot.coe_lt_coe.mpr
      apply WithTop.coe_lt_coe.mpr
      exact div_lt_div_of_pos_right (Int.cast_lt.mpr less) positive

theorem unitsOf_lt_infinityUnits
    {magnitude : Nat}
    (finite : magnitude < infinityMagnitude) :
    unitsOf magnitude < infinityUnits := by
  rw [infinityUnits_eq]
  apply unitsOf_lt_shiftLeft
  unfold infinityMagnitude fractionCount at finite
  unfold scaleOf fractionCount
  omega

theorem units_mem_unitsRange
    {number : Binary64}
    (isNumber : number.isNaN = false) :
    number.units ∈ unitsRange := by
  have atMost : unitsOf number.magnitude ≤ infinityUnits := by
    rcases Nat.lt_or_ge number.magnitude infinityMagnitude with finite | infinite
    · exact Nat.le_of_lt (unitsOf_lt_infinityUnits finite)
    · have same : number.magnitude = infinityMagnitude :=
        Nat.le_antisymm (Nat.not_lt.mp (of_decide_eq_false isNumber)) infinite
      rw [same, infinityUnits]
  rw [Set.mem_Icc, units]
  split <;> omega

/-- What is no number has all exponent bits set and some fraction bit. -/
theorem isNaN_iff
    (number : Binary64) :
    number.isNaN = true ↔ number.exponent = 2047 ∧ number.fraction ≠ 0 := by
  have fields := number.magnitude_eq
  have exponentBounded := number.exponent_lt
  have proper := number.fraction_lt
  rw [isNaN, decide_eq_true_iff]
  unfold infinityMagnitude
  unfold fractionCount at fields proper ⊢
  omega

/-- A pattern stands for the size that its units stand for. -/
theorem size?_eq
    (number : Binary64) :
    number.size? = number.units?.map ofUnits := by
  have fields := number.magnitude_eq
  by_cases special : number.exponent = 2047
  · by_cases infinite : number.fraction = 0
    · have isNumber : number.isNaN = false :=
        Bool.eq_false_iff.mpr fun none => (number.isNaN_iff.mp none).2 infinite
      have magnitude : unitsOf number.magnitude = infinityUnits := by
        rw [fields, special, infinite]
        rfl
      rw [size?, if_pos special, if_pos infinite, units?, isNumber, units,
        magnitude, if_neg Bool.false_ne_true, Option.map_some]
      cases number.isNegative with
      | false =>
          exact congrArg some ofUnits_infinityUnits.symm
      | true =>
          exact congrArg some ofUnits_neg_infinityUnits.symm
    · have notNumber : number.isNaN = true :=
        number.isNaN_iff.mpr ⟨special, infinite⟩
      rw [size?, if_pos special, if_neg infinite, units?, notNumber, if_pos rfl]
      rfl
  · have isNumber : number.isNaN = false :=
      Bool.eq_false_iff.mpr fun none => special (number.isNaN_iff.mp none).1
    have finite : unitsOf number.magnitude < infinityUnits := by
      apply unitsOf_lt_infinityUnits
      have exponentBounded := number.exponent_lt
      have proper := number.fraction_lt
      unfold infinityMagnitude
      unfold fractionCount at fields proper ⊢
      omega
    rw [size?, if_neg special, units?, isNumber, rational_eq]
    have above : -(infinityUnits : Int) < number.units := by
      rw [units]
      split <;> omega
    have below : number.units < infinityUnits := by
      rw [units]
      split <;> omega
    rw [if_neg Bool.false_ne_true, Option.map_some, ofUnits_of_finite above below]

end Binary64

/-- A value that is a number: an integer or a float. -/
inductive Numeral where
  | integer (number : Int64)
  | float (number : Binary64)

namespace Numeral

/-- The number as a value. -/
def value : Numeral → Value
  | integer number =>
      .integer number
  | float number =>
      .float number

/-- The size of the number, unless it is a float that stands for none. -/
def size? : Numeral → Option ExtendedRational
  | integer number =>
      some ((number.toInt : ℚ) : WithTop ℚ)
  | float number =>
      number.size?

/-- The units that the form of the number counts. -/
def units? : Numeral → Option Int
  | integer number =>
      some (number.toInt * Binary64.unitsPerOne)
  | float number =>
      number.units?

theorem form?_value
    (numeral : Numeral) :
    numeral.value.form? = numeral.units?.map .number := by
  cases numeral <;> rfl

open Binary64 in
/-- No integer is as far out as the infinities are. -/
theorem integer_units_bounds
    (number : Int64) :
    -(infinityUnits : Int) < number.toInt * unitsPerOne ∧
      number.toInt * unitsPerOne < infinityUnits := by
  have limit : 2 ^ 63 * (unitsPerOne : Int) < infinityUnits := by
    decide +kernel
  have nonneg : (0 : Int) ≤ unitsPerOne :=
    Int.natCast_nonneg unitsPerOne
  have lower : -2 ^ 63 * (unitsPerOne : Int) ≤ number.toInt * unitsPerOne :=
    Int.mul_le_mul_of_nonneg_right number.le_toInt nonneg
  have upper : number.toInt * unitsPerOne ≤ 2 ^ 63 * (unitsPerOne : Int) :=
    Int.mul_le_mul_of_nonneg_right (Int.le_of_lt number.toInt_lt) nonneg
  omega

open Binary64 in
theorem units?_mem
    {numeral : Numeral}
    {units : Int}
    (counted : numeral.units? = some units) :
    units ∈ unitsRange := by
  cases numeral with
  | integer number =>
      cases counted
      obtain ⟨above, below⟩ := integer_units_bounds number
      exact ⟨le_of_lt above, le_of_lt below⟩
  | float number =>
      rw [units?, Binary64.units?] at counted
      split at counted
      · cases counted
      · rename_i isNumber
        cases counted
        exact units_mem_unitsRange (Bool.eq_false_iff.mpr isNumber)

open Binary64 in
theorem size?_eq
    (numeral : Numeral) :
    numeral.size? = numeral.units?.map ofUnits := by
  cases numeral with
  | integer number =>
      have nonzero : (unitsPerOne : ℚ) ≠ 0 :=
        Nat.cast_ne_zero.mpr (Nat.ne_of_gt unitsPerOne_pos)
      obtain ⟨above, below⟩ := integer_units_bounds number
      rw [size?, units?, Option.map_some, ofUnits_of_finite above below,
        Int.cast_mul, Int.cast_natCast, mul_div_cancel_right₀ _ nonzero]
  | float number =>
      exact number.size?_eq

/-- A change that keeps two results apart keeps them the same result or not. -/
private theorem exists_map_eq_some_iff
    {α β : Type}
    {change : α → β}
    {left right : Option α}
    (keepsApart :
      ∀ first second, left = some first → right = some second →
        change first = change second → first = second) :
    (∃ shared, left.map change = some shared ∧ right.map change = some shared) ↔
      ∃ shared, left = some shared ∧ right = some shared := by
  constructor
  · rintro ⟨shared, leftShared, rightShared⟩
    obtain ⟨first, isLeft, rfl⟩ := Option.map_eq_some_iff.mp leftShared
    obtain ⟨second, isRight, same⟩ := Option.map_eq_some_iff.mp rightShared
    have equal : first = second :=
      keepsApart first second isLeft isRight same.symm
    exact ⟨first, isLeft, equal ▸ isRight⟩
  · rintro ⟨shared, rfl, rfl⟩
    exact ⟨change shared, rfl, rfl⟩

/--
Numbers are ordered as their exact sizes are, and equal if these are: integers by
themselves, floats as the rational numbers or infinities that their bits stand
for.  A float that stands for no number has neither an order nor an equal.
-/
theorem ordered_by_exact_size
    (left right : Numeral) :
    (left.value.compare? right.value =
        left.size?.bind fun leftSize =>
          right.size?.map fun rightSize => compare leftSize rightSize) ∧
      ((left.value == right.value) = true ↔
        ∃ size, left.size? = some size ∧ right.size? = some size) := by
  constructor
  · rw [Value.compare?_eq, form?_value, form?_value, size?_eq, size?_eq]
    cases leftUnits : left.units? with
    | none =>
        rfl
    | some leftCount =>
        cases rightUnits : right.units? with
        | none =>
            rfl
        | some rightCount =>
            have sameOrder :=
              Binary64.ofUnits_strictMonoOn.cmp_map_eq
                (units?_mem leftUnits) (units?_mem rightUnits)
            rw [cmp_eq_compare, cmp_eq_compare] at sameOrder
            exact congrArg some sameOrder.symm
  · calc
      (left.value == right.value) = true ↔
          ∃ form, left.units?.map .number = some form ∧
            right.units?.map ValueForm.number = some form := by
        rw [Value.beq_iff_form, form?_value, form?_value]
      _ ↔ ∃ count, left.units? = some count ∧ right.units? = some count :=
        exists_map_eq_some_iff fun _ _ _ _ same => ValueForm.number.inj same
      _ ↔ ∃ size, left.units?.map Binary64.ofUnits = some size ∧
            right.units?.map Binary64.ofUnits = some size := by
        refine (exists_map_eq_some_iff ?_).symm
        intro leftCount rightCount leftUnits rightUnits same
        exact Binary64.ofUnits_strictMonoOn.injOn
          (units?_mem leftUnits) (units?_mem rightUnits) same
      _ ↔ ∃ size, left.size? = some size ∧ right.size? = some size := by
        rw [size?_eq, size?_eq]

/-- The first integer that no float stands for is above the float next to it. -/
example :
    (Value.integer 0x20000000000001).compare? (.float ⟨0x4340000000000000⟩) =
      some .gt := by
  decide +kernel

end Numeral

end Permission
