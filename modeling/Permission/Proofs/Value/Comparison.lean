import Permission.Proofs.Value.Equality

namespace Permission

/-!
# The order of values

Values are ordered within four sorts: numbers, strings, booleans and identities.
Within each sort the order is total, whether numbers are given as integers or as
floats, and values of one sort are equal if neither stands before the other one.
No other two values can be ordered.
-/

/-- In a total order, two steps up make one, strict if one of them is. -/
theorem compare_eq_then
    {α : Type}
    [Ord α]
    [Std.TransOrd α]
    {left middle right : α}
    (first : (compare left middle).isLE = true)
    (second : (compare middle right).isLE = true) :
    compare left right = (compare left middle).then (compare middle right) := by
  cases step : compare left middle with
  | lt =>
      exact Std.TransCmp.lt_of_lt_of_isLE step second
  | eq =>
      exact Std.TransCmp.congr_left step
  | gt =>
      rw [step] at first
      cases first

namespace ValueForm

theorem compare?_swap
    (left right : ValueForm) :
    right.compare? left = (left.compare? right).map Ordering.swap := by
  cases left with
  | number leftUnits =>
      cases right with
      | number rightUnits =>
          exact congrArg some Std.OrientedOrd.eq_swap
      | _ =>
          rfl
  | string leftText =>
      cases right with
      | string rightText =>
          exact congrArg some Std.OrientedOrd.eq_swap
      | _ =>
          rfl
  | boolean leftTruth =>
      cases right with
      | boolean rightTruth =>
          exact congrArg some Std.OrientedOrd.eq_swap
      | _ =>
          rfl
  | identifier leftIdentity =>
      cases right with
      | identifier rightIdentity =>
          exact congrArg some Std.OrientedOrd.eq_swap
      | _ =>
          rfl
  | _ =>
      cases right <;> rfl

/-- Steps within one kind of forms are put together as they are within that kind. -/
theorem compare?_eq_then
    {left middle right : ValueForm}
    {first second : Ordering}
    (firstStep : left.compare? middle = some first)
    (secondStep : middle.compare? right = some second)
    (firstUp : first.isLE = true)
    (secondUp : second.isLE = true) :
    left.compare? right = some (first.then second) := by
  -- Each step rules out all mixed kinds, so four cases are left.
  cases left <;> cases middle <;> cases firstStep <;>
    cases right <;> cases secondStep <;>
    exact congrArg some (compare_eq_then firstUp secondUp)

/-- Only a form itself stands beside it. -/
theorem eq_of_compare?_eq
    {left right : ValueForm}
    (beside : left.compare? right = some .eq) :
    left = right := by
  cases left with
  | number leftUnits =>
      cases right with
      | number rightUnits =>
          rw [Std.LawfulEqOrd.eq_of_compare (Option.some.inj beside)]
      | _ =>
          cases beside
  | string leftText =>
      cases right with
      | string rightText =>
          rw [Std.LawfulEqOrd.eq_of_compare (Option.some.inj beside)]
      | _ =>
          cases beside
  | boolean leftTruth =>
      cases right with
      | boolean rightTruth =>
          rw [Std.LawfulEqOrd.eq_of_compare (Option.some.inj beside)]
      | _ =>
          cases beside
  | identifier leftIdentity =>
      cases right with
      | identifier rightIdentity =>
          obtain ⟨leftNumber⟩ := leftIdentity
          obtain ⟨rightNumber⟩ := rightIdentity
          have sameNumber : leftNumber.toNat = rightNumber.toNat :=
            Std.LawfulEqOrd.eq_of_compare (Option.some.inj beside)
          rw [BitVec.eq_of_toNat_eq sameNumber]
      | _ =>
          cases beside
  | _ =>
      cases beside

end ValueForm

namespace Binary64

theorem isSome_units?
    (number : Binary64) :
    number.units?.isSome = !number.isNaN := by
  unfold units?
  cases number.isNaN <;> rfl

theorem isSome_compare?
    (left right : Binary64) :
    (left.compare? right).isSome = (!left.isNaN && !right.isNaN) := by
  rw [compare?_eq, ← isSome_units?, ← isSome_units?]
  cases left.units? <;> cases right.units? <;> rfl

theorem isSome_compareInteger?
    (integer : Int64)
    (number : Binary64) :
    (number.compareInteger? integer).isSome = !number.isNaN := by
  rw [compareInteger?_eq, ← isSome_units?]
  cases number.units? <;> rfl

end Binary64

namespace Value

/-- Values stand below or beside others only if they can be ordered against them. -/
instance : LE Value :=
  ⟨fun left right =>
    left.compare? right = some .lt ∨ left.compare? right = some .eq⟩

instance : LT Value :=
  ⟨fun left right => left.compare? right = some .lt⟩

instance (left right : Value) : Decidable (left ≤ right) :=
  inferInstanceAs
    (Decidable
      (left.compare? right = some .lt ∨ left.compare? right = some .eq))

instance (left right : Value) : Decidable (left < right) :=
  inferInstanceAs (Decidable (left.compare? right = some .lt))

theorem le_def
    {left right : Value} :
    left ≤ right ↔
      left.compare? right = some .lt ∨ left.compare? right = some .eq :=
  Iff.rfl

theorem lt_def
    {left right : Value} :
    left < right ↔ left.compare? right = some .lt :=
  Iff.rfl

theorem le_iff
    {left right : Value} :
    left ≤ right ↔
      ∃ order : Ordering, left.compare? right = some order ∧ order.isLE = true := by
  constructor
  · rintro (below | beside)
    · exact ⟨.lt, below, rfl⟩
    · exact ⟨.eq, beside, rfl⟩
  · rintro ⟨order, step, up⟩
    cases order with
    | lt =>
        exact .inl step
    | eq =>
        exact .inr step
    | gt =>
        cases up

theorem le_of_lt
    {left right : Value}
    (below : left < right) :
    left ≤ right :=
  .inl below

/-- Values are ordered if they have forms which are. -/
theorem compare?_eq_some_iff
    {left right : Value}
    {order : Ordering} :
    left.compare? right = some order ↔
      ∃ leftForm rightForm, left.form? = some leftForm ∧
        right.form? = some rightForm ∧
        leftForm.compare? rightForm = some order := by
  rw [compare?_eq]
  simp only [Option.bind_eq_some_iff]
  constructor
  · rintro ⟨leftForm, ofLeft, rightForm, ofRight, step⟩
    exact ⟨leftForm, rightForm, ofLeft, ofRight, step⟩
  · rintro ⟨leftForm, rightForm, ofLeft, ofRight, step⟩
    exact ⟨leftForm, ofLeft, rightForm, ofRight, step⟩

theorem compare?_swap
    (left right : Value) :
    right.compare? left = (left.compare? right).map Ordering.swap := by
  rw [compare?_eq, compare?_eq]
  cases left.form? with
  | none =>
      cases right.form? <;> rfl
  | some leftForm =>
      cases right.form? with
      | none =>
          rfl
      | some rightForm =>
          exact leftForm.compare?_swap rightForm

/-- Two steps up make one, whatever the values on the way are represented by. -/
theorem compare?_eq_then
    {left middle right : Value}
    {first second : Ordering}
    (firstStep : left.compare? middle = some first)
    (secondStep : middle.compare? right = some second)
    (firstUp : first.isLE = true)
    (secondUp : second.isLE = true) :
    left.compare? right = some (first.then second) := by
  obtain ⟨leftForm, middleForm, ofLeft, ofMiddle, formStep⟩ :=
    compare?_eq_some_iff.mp firstStep
  obtain ⟨otherForm, rightForm, ofOther, ofRight, otherStep⟩ :=
    compare?_eq_some_iff.mp secondStep
  obtain rfl : middleForm = otherForm :=
    Option.some.inj (ofMiddle.symm.trans ofOther)
  exact compare?_eq_some_iff.mpr
    ⟨leftForm, rightForm, ofLeft, ofRight,
      ValueForm.compare?_eq_then formStep otherStep firstUp secondUp⟩

theorem le_trans
    {left middle right : Value}
    (first : left ≤ middle)
    (second : middle ≤ right) :
    left ≤ right := by
  obtain ⟨firstOrder, firstStep, firstUp⟩ := le_iff.mp first
  obtain ⟨secondOrder, secondStep, secondUp⟩ := le_iff.mp second
  refine le_iff.mpr
    ⟨_, compare?_eq_then firstStep secondStep firstUp secondUp, ?_⟩
  cases firstOrder with
  | lt =>
      rfl
  | eq =>
      exact secondUp
  | gt =>
      cases firstUp

theorem lt_of_lt_of_le
    {left middle right : Value}
    (first : left < middle)
    (second : middle ≤ right) :
    left < right := by
  obtain ⟨order, step, up⟩ := le_iff.mp second
  exact compare?_eq_then first step rfl up

theorem lt_of_le_of_lt
    {left middle right : Value}
    (first : left ≤ middle)
    (second : middle < right) :
    left < right := by
  rcases first with below | beside
  · exact compare?_eq_then below second rfl rfl
  · exact compare?_eq_then beside second rfl rfl

/-- No two values stand before each other. -/
theorem not_le_of_lt
    {left right : Value}
    (below : left < right) :
    ¬ right ≤ left := by
  have above : right.compare? left = some .gt := by
    rw [compare?_swap, lt_def.mp below]
    rfl
  rw [le_def, above]
  rintro (same | same) <;> cases same

/-- Values that stand neither before nor behind each other stand side by side. -/
theorem compare?_eq_of_le_of_le
    {left right : Value}
    (up : left ≤ right)
    (down : right ≤ left) :
    left.compare? right = some .eq := by
  rcases up with below | beside
  · exact absurd down (not_le_of_lt below)
  · exact beside

/-! ## Values that can be ordered -/

/-- An integer, or a float that stands for a number. -/
def IsNumber
    (value : Value) :
    Prop :=
  (value.kind = .integer ∨ value.kind = .float) ∧ value.isNaN = false

/-- Both values are numbers, or strings, booleans or identities. -/
def Comparable
    (left right : Value) :
    Prop :=
  (left.IsNumber ∧ right.IsNumber) ∨
    (left.kind = .string ∧ right.kind = .string) ∨
    (left.kind = .boolean ∧ right.kind = .boolean) ∨
    (left.kind = .identifier ∧ right.kind = .identifier)

theorem isSome_compare?_iff
    {left right : Value} :
    (left.compare? right).isSome = true ↔ left.Comparable right := by
  -- The kinds alone decide, except of floats.
  cases left <;> cases right <;>
    simp [compare?, Comparable, IsNumber, kind, isNaN,
      Binary64.isSome_compare?, Binary64.isSome_compareInteger?]

theorem comparable_of_le
    {left right : Value}
    (up : left ≤ right) :
    left.Comparable right := by
  obtain ⟨order, step, -⟩ := le_iff.mp up
  rw [← isSome_compare?_iff, step]
  rfl

theorem comparable_self_iff
    {value : Value} :
    value.Comparable value ↔
      value.IsNumber ∨ value.kind = .string ∨ value.kind = .boolean ∨
        value.kind = .identifier := by
  simp only [Comparable, and_self]

theorem Comparable.left_self
    {left right : Value}
    (comparable : left.Comparable right) :
    left.Comparable left := by
  rcases comparable with numbers | strings | booleans | identities
  · exact .inl ⟨numbers.1, numbers.1⟩
  · exact .inr (.inl ⟨strings.1, strings.1⟩)
  · exact .inr (.inr (.inl ⟨booleans.1, booleans.1⟩))
  · exact .inr (.inr (.inr ⟨identities.1, identities.1⟩))

/-- What can be ordered stands beside itself. -/
theorem compare?_self_iff
    {value : Value} :
    value.compare? value = some .eq ↔ value.Comparable value := by
  rw [← isSome_compare?_iff]
  constructor
  · intro beside
    rw [beside]
    rfl
  · intro ordered
    obtain ⟨order, step⟩ := Option.isSome_iff_exists.mp ordered
    have swapped : value.compare? value = some order.swap := by
      rw [compare?_swap, step]
      rfl
    rw [step] at swapped ⊢
    cases order with
    | eq =>
        rfl
    | _ =>
        cases swapped

/-- Values that stand side by side are equal ones that can be ordered. -/
theorem compare?_eq_some_eq_iff
    {left right : Value} :
    left.compare? right = some .eq ↔
      (left == right) = true ∧ left.Comparable left := by
  constructor
  · intro beside
    obtain ⟨leftForm, rightForm, ofLeft, ofRight, sameForm⟩ :=
      compare?_eq_some_iff.mp beside
    obtain rfl := ValueForm.eq_of_compare?_eq sameForm
    have comparable : left.Comparable right := by
      rw [← isSome_compare?_iff, beside]
      rfl
    exact ⟨beq_iff_form.mpr ⟨leftForm, ofLeft, ofRight⟩, comparable.left_self⟩
  · rintro ⟨equal, comparable⟩
    rw [← compare?_congr_right equal, compare?_self_iff]
    exact comparable

/-- A strict step leads up to something else. -/
theorem lt_iff_le_and_ne
    {left right : Value} :
    left < right ↔ left ≤ right ∧ (left == right) = false := by
  constructor
  · intro below
    refine ⟨le_of_lt below, Bool.eq_false_iff.mpr fun equal => ?_⟩
    have comparable : left.Comparable left :=
      (comparable_of_le (le_of_lt below)).left_self
    have beside : left.compare? right = some .eq :=
      compare?_eq_some_eq_iff.mpr ⟨equal, comparable⟩
    cases (lt_def.mp below).symm.trans beside
  · rintro ⟨below | beside, different⟩
    · exact below
    · rw [(compare?_eq_some_eq_iff.mp beside).1] at different
      cases different

/-- Equal values can be ordered unless they are null, lists or records. -/
theorem comparable_self_of_beq
    {left right : Value}
    (equal : (left == right) = true)
    (notNull : left.kind ≠ .null)
    (notList : left.kind ≠ .list)
    (notRecord : left.kind ≠ .record) :
    left.Comparable left := by
  have equalsItself : (left == left) = true :=
    BEq.trans equal (BEq.symm equal)
  have isNumber : left.isNaN = false :=
    (freeOfNaN_iff.mp ((beq_self_iff left).mp equalsItself)).1
  cases left with
  | null =>
      exact absurd rfl notNull
  | list elements =>
      exact absurd rfl notList
  | record attributes =>
      exact absurd rfl notRecord
  | integer number =>
      exact .inl ⟨⟨.inl rfl, isNumber⟩, ⟨.inl rfl, isNumber⟩⟩
  | float number =>
      exact .inl ⟨⟨.inr rfl, isNumber⟩, ⟨.inr rfl, isNumber⟩⟩
  | string text =>
      exact .inr (.inl ⟨rfl, rfl⟩)
  | boolean truth =>
      exact .inr (.inr (.inl ⟨rfl, rfl⟩))
  | identifier identity =>
      exact .inr (.inr (.inr ⟨rfl, rfl⟩))

/--
Numbers, strings, booleans and identities are each totally ordered, and no other
values are ordered at all: turned around, two values are ordered the other way;
steps up lead up, and strictly so if one of them does, through any mixture of
integers and floats; and values stand side by side exactly if they are equal, as
long as they are not null, lists or records.
-/
theorem ordered_totally_within_sorts
    (left middle right : Value) :
    right.compare? left = (left.compare? right).map Ordering.swap ∧
      ((left.compare? right).isSome = true ↔ left.Comparable right) ∧
      (left ≤ middle → middle ≤ right →
        left ≤ right ∧ (left < middle ∨ middle < right → left < right)) ∧
      (left.compare? right = some .eq → (left == right) = true) ∧
      ((left == right) = true →
        left.kind ≠ .null → left.kind ≠ .list → left.kind ≠ .record →
          left.compare? right = some .eq) := by
  refine ⟨compare?_swap left right, isSome_compare?_iff, ?_, ?_, ?_⟩
  · intro first second
    refine ⟨le_trans first second, ?_⟩
    rintro (firstStrict | secondStrict)
    · exact lt_of_lt_of_le firstStrict second
    · exact lt_of_le_of_lt first secondStrict
  · intro beside
    exact (compare?_eq_some_eq_iff.mp beside).1
  · intro equal notNull notList notRecord
    exact compare?_eq_some_eq_iff.mpr
      ⟨equal, comparable_self_of_beq equal notNull notList notRecord⟩

/-- Two floats next to each other, around an integer that no float stands for. -/
theorem ordered_totally_within_sorts_neighbours :
    float ⟨0x4340000000000000⟩ < integer 0x20000000000001 ∧
      integer 0x20000000000001 < float ⟨0x4340000000000001⟩ ∧
      float ⟨0x4340000000000000⟩ < float ⟨0x4340000000000001⟩ ∧
      (integer 0x20000000000000 == float ⟨0x4340000000000000⟩) = true ∧
      (integer 0x20000000000000).compare? (float ⟨0x4340000000000000⟩) =
        some .eq := by
  have first : float ⟨0x4340000000000000⟩ < integer 0x20000000000001 := by
    decide +kernel
  have second : integer 0x20000000000001 < float ⟨0x4340000000000001⟩ := by
    decide +kernel
  have equal :
      (integer 0x20000000000000 == float ⟨0x4340000000000000⟩) = true := by
    decide +kernel
  obtain ⟨-, -, steps, -⟩ :=
    ordered_totally_within_sorts (float ⟨0x4340000000000000⟩)
      (integer 0x20000000000001) (float ⟨0x4340000000000001⟩)
  obtain ⟨-, -, -, -, beside⟩ :=
    ordered_totally_within_sorts (integer 0x20000000000000) .null
      (float ⟨0x4340000000000000⟩)
  exact
    ⟨first, second,
      (steps (le_of_lt first) (le_of_lt second)).2 (.inl first),
      equal, beside equal nofun nofun nofun⟩

end Value

end Permission
