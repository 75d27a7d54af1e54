import Permission.Conditions.Check
import Permission.Proofs.Value.Comparison

namespace Permission

/-!
# Ranges as intervals

A range holds what stands between its bounds.  Since steps in the order of values
can be put together, nothing stands between bounds that are out of order or cannot
be ordered, and what stands between two members is a member.
-/

namespace ValueRange

/-- A range holds what stands between its bounds, in front of the end if exclusive. -/
theorem contains_iff
    {range : ValueRange}
    {value : Value} :
    range.contains value = true ↔
      range.lower ≤ value ∧ value ≤ range.upper ∧
        (range.exclusive = true → value < range.upper) := by
  unfold contains
  rw [Bool.and_eq_true]
  refine and_congr ?_ ?_
  · rw [Value.le_def]
    cases range.lower.compare? value with
    | none =>
        simp
    | some order =>
        cases order <;> simp
  · rw [Value.le_def, Value.lt_def]
    cases value.compare? range.upper with
    | none =>
        simp
    | some order =>
        cases order <;> simp

theorem contains_of_between
    {range : ValueRange}
    {first value last : Value}
    (holdsFirst : range.contains first = true)
    (holdsLast : range.contains last = true)
    (fromFirst : first ≤ value)
    (toLast : value ≤ last) :
    range.contains value = true := by
  obtain ⟨fromLower, -, -⟩ := contains_iff.mp holdsFirst
  obtain ⟨-, toUpper, strictly⟩ := contains_iff.mp holdsLast
  refine contains_iff.mpr ⟨?_, ?_, ?_⟩
  · exact Value.le_trans fromLower fromFirst
  · exact Value.le_trans toLast toUpper
  · intro exclusive
    exact Value.lt_of_le_of_lt toLast (strictly exclusive)

/-- A range that holds anything goes up, and strictly so if it is exclusive. -/
theorem bounds_of_contains
    {range : ValueRange}
    {value : Value}
    (holds : range.contains value = true) :
    range.lower ≤ range.upper ∧
      (range.exclusive = true → range.lower < range.upper) := by
  obtain ⟨fromLower, toUpper, strictly⟩ := contains_iff.mp holds
  refine ⟨Value.le_trans fromLower toUpper, ?_⟩
  intro exclusive
  exact Value.lt_of_le_of_lt fromLower (strictly exclusive)

/-- Bounds that are out of order or cannot be ordered hold nothing. -/
theorem contains_eq_false_of_bounds
    {range : ValueRange}
    (unfit :
      range.upper < range.lower ∨ ¬ range.lower.Comparable range.upper)
    (value : Value) :
    range.contains value = false := by
  refine Bool.eq_false_iff.mpr fun holds => ?_
  have up : range.lower ≤ range.upper :=
    (bounds_of_contains holds).1
  rcases unfit with inverted | incomparable
  · exact Value.not_le_of_lt inverted up
  · exact incomparable (Value.comparable_of_le up)

theorem contains_exclusive_iff
    {lower upper value : Value} :
    contains ⟨lower, upper, true⟩ value = true ↔
      contains ⟨lower, upper, false⟩ value = true ∧ (value == upper) = false := by
  simp only [contains_iff, Value.lt_iff_le_and_ne]
  constructor
  · rintro ⟨fromLower, toUpper, strictly⟩
    exact ⟨⟨fromLower, toUpper, nofun⟩, (strictly trivial).2⟩
  · rintro ⟨⟨fromLower, toUpper, -⟩, different⟩
    exact ⟨fromLower, toUpper, fun _ => ⟨toUpper, different⟩⟩

/-- Between a value that can be ordered and itself stands what equals it. -/
theorem contains_single
    {bound : Value}
    (comparable : bound.Comparable bound)
    (value : Value) :
    contains ⟨bound, bound, false⟩ value = (value == bound) := by
  rw [Bool.eq_iff_iff, contains_iff]
  constructor
  · rintro ⟨fromBound, toBound, -⟩
    have beside := Value.compare?_eq_of_le_of_le toBound fromBound
    exact (Value.compare?_eq_some_eq_iff.mp beside).1
  · intro equal
    have above : bound.compare? value = some .eq :=
      Value.compare?_eq_some_eq_iff.mpr ⟨BEq.symm equal, comparable⟩
    have below : value.compare? bound = some .eq := by
      rw [Value.compare?_swap, above]
      rfl
    exact ⟨.inr above, .inr below, nofun⟩

/--
A range is an interval in the order of values.  With two members it holds what
stands between them.  It holds nothing unless its bounds go up, strictly if it is
exclusive, and in particular if they are the wrong way round or cannot be ordered.
Without its end it holds what it holds with it, apart from what equals the end.
From a number, a string, a boolean or an identity up to itself it holds what equals
that, so that membership asks the same as equality.
-/
theorem interval_of_values
    (range : ValueRange)
    (first value last : Value) :
    (range.contains first = true → range.contains last = true →
        first ≤ value → value ≤ last → range.contains value = true) ∧
      (range.contains value = true →
        range.lower ≤ range.upper ∧
          (range.exclusive = true → range.lower < range.upper)) ∧
      (range.upper < range.lower ∨ ¬ range.lower.Comparable range.upper →
        range.contains value = false) ∧
      (contains ⟨range.lower, range.upper, true⟩ value = true ↔
        contains ⟨range.lower, range.upper, false⟩ value = true ∧
          (value == range.upper) = false) ∧
      (∀ bound : Value,
        bound.IsNumber ∨ bound.kind = .string ∨ bound.kind = .boolean ∨
            bound.kind = .identifier →
          contains ⟨bound, bound, false⟩ value = (value == bound) ∧
            Requirement.check (.memberOf (.range ⟨bound, bound, false⟩)) value =
              Requirement.check (.equalTo bound) value) := by
  refine ⟨contains_of_between, bounds_of_contains,
    fun unfit => contains_eq_false_of_bounds unfit value,
    contains_exclusive_iff, ?_⟩
  intro bound ordered
  have held : contains ⟨bound, bound, false⟩ value = (value == bound) :=
    contains_single (Value.comparable_self_iff.mpr ordered) value
  exact ⟨held, congrArg Except.ok held⟩

/-- From one up to, but not including, ten. -/
def ratingRange : ValueRange :=
  ⟨.integer 1, .integer 10, true⟩

theorem interval_of_values_rating :
    ratingRange.contains (.float ⟨0x4023FAE147AE147B⟩) = true ∧
      ratingRange.lower < ratingRange.upper ∧
      contains ⟨.integer 10, .integer 1, false⟩ (.integer 5) = false ∧
      contains ⟨.integer 1, .string "10", false⟩ (.integer 5) = false ∧
      Requirement.check
          (.memberOf (.range ⟨.integer 1, .integer 1, false⟩))
          (.float ⟨0x3FF0000000000000⟩) =
        Requirement.check (.equalTo (.integer 1)) (.float ⟨0x3FF0000000000000⟩) := by
  have holdsFirst : ratingRange.contains (.integer 1) = true := by
    decide +kernel
  have holdsLast :
      ratingRange.contains (.float ⟨0x4023FFFFFFFFFFFF⟩) = true := by
    decide +kernel
  have fromFirst : Value.integer 1 ≤ .float ⟨0x4023FAE147AE147B⟩ := by
    decide +kernel
  have toLast :
      Value.float ⟨0x4023FAE147AE147B⟩ ≤ .float ⟨0x4023FFFFFFFFFFFF⟩ := by
    decide +kernel
  have inverted : Value.integer 1 < .integer 10 := by
    decide
  have incomparable : ¬ (Value.integer 1).Comparable (.string "10") := by
    rw [← Value.isSome_compare?_iff]
    decide
  obtain ⟨between, goesUp, -⟩ :=
    interval_of_values ratingRange (.integer 1) (.float ⟨0x4023FAE147AE147B⟩)
      (.float ⟨0x4023FFFFFFFFFFFF⟩)
  have holds := between holdsFirst holdsLast fromFirst toLast
  refine ⟨holds, (goesUp holds).2 rfl, ?_, ?_, ?_⟩
  · exact (interval_of_values ⟨.integer 10, .integer 1, false⟩ .null (.integer 5)
      .null).2.2.1 (.inl inverted)
  · exact (interval_of_values ⟨.integer 1, .string "10", false⟩ .null (.integer 5)
      .null).2.2.1 (.inr incomparable)
  · exact ((interval_of_values ratingRange .null (.float ⟨0x3FF0000000000000⟩)
      .null).2.2.2.2 (.integer 1) (.inl ⟨.inl rfl, rfl⟩)).2

end ValueRange

end Permission
