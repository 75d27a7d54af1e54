import Permission.Proofs.Value.Written

namespace Permission

/-!
# Values that equal themselves

Equality of values is symmetric and transitive, since equal values have one form.
It is not reflexive: a value equals itself unless one of its parts is a float that
stands for no number, and then it equals nothing at all.
-/

namespace Value

/-- The value is a float that stands for no number. -/
def isNaN : Value → Bool
  | float number =>
      number.isNaN
  | _ =>
      false

/-- No part of the value is a float that stands for no number. -/
def FreeOfNaN
    (value : Value) :
    Prop :=
  ∀ part, value.HasPart part → part.isNaN = false

theorem freeOfNaN_iff
    {value : Value} :
    value.FreeOfNaN ↔
      value.isNaN = false ∧ ∀ inner ∈ value.contents, inner.FreeOfNaN :=
  forall_hasPart_iff

theorem freeOfNaN_float_iff
    {number : Binary64} :
    (float number).FreeOfNaN ↔ number.isNaN = false := by
  rw [freeOfNaN_iff]
  exact and_iff_left nofun

theorem freeOfNaN_list_iff
    {elements : List Value} :
    (list elements).FreeOfNaN ↔ ∀ element ∈ elements, element.FreeOfNaN := by
  rw [freeOfNaN_iff]
  exact and_iff_right rfl

theorem freeOfNaN_record_iff
    {attributes : Record} :
    (record attributes).FreeOfNaN ↔
      ∀ entry ∈ attributes, entry.2.FreeOfNaN := by
  rw [freeOfNaN_iff]
  refine (and_iff_right rfl).trans ?_
  simp only [contents, List.forall_mem_map]

/-- What is neither a float nor holds values is free of such floats. -/
theorem freeOfNaN_of_kind
    {value : Value}
    (notFloat : value.kind ≠ .float)
    (notList : value.kind ≠ .list)
    (notRecord : value.kind ≠ .record) :
    value.FreeOfNaN := by
  rw [freeOfNaN_iff]
  cases value with
  | float number =>
      exact absurd rfl notFloat
  | list elements =>
      exact absurd rfl notList
  | record attributes =>
      exact absurd rfl notRecord
  | _ =>
      exact ⟨rfl, nofun⟩

/-- A list equals itself if its elements do. -/
theorem list_beq_self_iff
    {elements : List Value} :
    (list elements == list elements) = true ↔
      ∀ element ∈ elements, (element == element) = true := by
  rw [beq_def, equals, equalElements_eq_beq, List.beq_iff_forall₂,
    List.forall₂_same]

/-- A record equals itself if its attributes do. -/
theorem record_beq_self_iff
    {attributes : Record} :
    (record attributes == record attributes) = true ↔
      ∀ entry ∈ attributes, (entry.2 == entry.2) = true := by
  rw [beq_def, equals, equalAttributes_eq_beq, List.beq_iff_forall₂,
    List.forall₂_same]
  simp only [NameMap.entry_beq_iff, true_and]

theorem float_beq_self_iff
    {number : Binary64} :
    (float number == float number) = true ↔ number.isNaN = false := by
  refine ⟨?_, float_beq_self⟩
  intro equal
  obtain ⟨form, ofNumber, -⟩ := beq_iff_form.mp equal
  cases isNumber : number.isNaN with
  | false =>
      rfl
  | true =>
      simp [form?, Binary64.units?, isNumber] at ofNumber

/-- A value equals itself if it is free of floats that stand for no number. -/
theorem beq_self_iff
    (value : Value) :
    (value == value) = true ↔ value.FreeOfNaN := by
  induction value using inductionOn with
  | float number =>
      rw [float_beq_self_iff, freeOfNaN_float_iff]
  | list elements inductionHypothesis =>
      rw [list_beq_self_iff, freeOfNaN_list_iff]
      exact forall₂_congr inductionHypothesis
  | record attributes inductionHypothesis =>
      rw [record_beq_self_iff, freeOfNaN_record_iff]
      exact forall₂_congr inductionHypothesis
  | null =>
      exact iff_of_true rfl (freeOfNaN_of_kind nofun nofun nofun)
  | boolean truth =>
      refine iff_of_true ?_ (freeOfNaN_of_kind nofun nofun nofun)
      exact beq_self_eq_true truth
  | integer number =>
      refine iff_of_true ?_ (freeOfNaN_of_kind nofun nofun nofun)
      exact beq_self_eq_true number
  | string text =>
      refine iff_of_true ?_ (freeOfNaN_of_kind nofun nofun nofun)
      exact beq_self_eq_true text
  | identifier identity =>
      refine iff_of_true ?_ (freeOfNaN_of_kind nofun nofun nofun)
      exact beq_self_eq_true identity

/--
Equality of values is symmetric and transitive, whether numbers are given as
integers or as floats, and a value equals itself exactly if no float in it, at any
depth, stands for no number.
-/
theorem equality_partial_equivalence :
    (∀ left right : Value, (left == right) = true → (right == left) = true) ∧
      (∀ left middle right : Value,
        (left == middle) = true → (middle == right) = true →
          (left == right) = true) ∧
      ∀ value : Value, (value == value) = true ↔ value.FreeOfNaN := by
  refine ⟨?_, ?_, beq_self_iff⟩
  · intro left right equal
    exact BEq.symm equal
  · intro left middle right first second
    exact BEq.trans first second

/-- A measurement whose only number stands in a list of lists. -/
def measurement
    (reading : Value) :
    Value :=
  record [("readings", list [list [reading], null])]

theorem equality_partial_equivalence_measurement :
    (measurement (integer 0) == measurement (float ⟨0x8000000000000000⟩)) = true ∧
      (measurement (float ⟨0⟩) == measurement (float ⟨0x8000000000000000⟩)) =
        true ∧
      (measurement (float ⟨0x7FF8000000000000⟩) ==
        measurement (float ⟨0x7FF8000000000000⟩)) = false := by
  obtain ⟨symmetric, transitive, reflexive⟩ := equality_partial_equivalence
  have fromNegative :
      (measurement (float ⟨0x8000000000000000⟩) == measurement (integer 0)) =
        true := by
    decide +kernel
  have fromPositive :
      (measurement (float ⟨0⟩) == measurement (integer 0)) = true := by
    decide +kernel
  have toNegative := symmetric _ _ fromNegative
  refine ⟨toNegative, transitive _ _ _ fromPositive toNegative, ?_⟩
  rw [← Bool.not_eq_true, reflexive]
  intro free
  have isPart :
      (measurement (float ⟨0x7FF8000000000000⟩)).HasPart
        (float ⟨0x7FF8000000000000⟩) :=
    .within (List.mem_singleton_self _)
      (.within List.mem_cons_self
        (.within (List.mem_singleton_self _) (.itself _)))
  exact absurd (free _ isPart) (by decide)

end Value

end Permission
