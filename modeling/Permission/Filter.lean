import Permission.Conditions
import Permission.Resource

namespace Permission

/-!
# Filters of a store

A filter is the language in which a store selects records: a conjunction of
clauses, each of which puts a predicate on one field.  A store never fails on a
field that it cannot read.  Such a field is absent, and the only predicate that
holds of an absent field is the one that asks for its absence.
-/

/-- What a store tests on one field. -/
inductive Predicate where
  /-- The field is there and equals the value. -/
  | equalTo (value : Value)
  /-- The field is there and equals one of the values. -/
  | oneOf (values : List Value)
  /-- The field is there and lies in the range. -/
  | within (range : ValueRange)
  /-- The field is there, or is not, as expected. -/
  | present (expected : Bool)
  /-- The field is there and of the kind. -/
  | ofKind (kind : ValueKind)
  /--
  The field is there and passes the filter or, if it is a list, one of its
  elements does.
  -/
  | embedded (filter : List (String × Predicate))

/-- Clauses in the order in which they were added: a field and its predicate. -/
abbrev Filter :=
  List (String × Predicate)

mutual

/-- A record passes all clauses of a filter. -/
def Filter.evaluate :
    Filter → Attributes → Bool
  | [], _ =>
      true
  | (field, predicate) :: rest, attributes =>
      predicate.evaluate (attributes field).toOption &&
        Filter.evaluate rest attributes

/-- A field, absent or present, passes a predicate. -/
def Predicate.evaluate :
    Predicate → Option Value → Bool
  | .present expected, field =>
      field.isSome == expected
  | _, none =>
      false
  | .equalTo expected, some value =>
      value == expected
  | .oneOf values, some value =>
      values.any (· == value)
  | .within range, some value =>
      range.contains value
  | .ofKind kind, some value =>
      value.kind == kind
  | .embedded filter, some (.list elements) =>
      elements.any fun element =>
        Filter.evaluate filter element.attributes
  | .embedded filter, some value =>
      Filter.evaluate filter value.attributes

end

namespace Filter

/-- A resource passes all clauses of a filter. -/
def accepts
    {ρ : Type}
    [Resource ρ]
    (filter : Filter)
    (resource : ρ) :
    Bool :=
  filter.evaluate (Resource.attributes resource)

def push
    (filter : Filter)
    (field : String)
    (predicate : Predicate) :
    Filter :=
  filter ++ [(field, predicate)]

@[simp] theorem evaluate_nil
    (attributes : Attributes) :
    evaluate [] attributes = true :=
  rfl

@[simp] theorem evaluate_cons
    (field : String)
    (predicate : Predicate)
    (rest : Filter)
    (attributes : Attributes) :
    evaluate ((field, predicate) :: rest) attributes =
      (predicate.evaluate (attributes field).toOption &&
        evaluate rest attributes) :=
  rfl

/-- A filter is a conjunction, so its order does not matter to the answer. -/
theorem evaluate_eq_all
    (filter : Filter)
    (attributes : Attributes) :
    evaluate filter attributes =
      filter.all fun clause =>
        clause.2.evaluate (attributes clause.1).toOption := by
  induction filter with
  | nil =>
      rfl
  | cons clause rest inductionHypothesis =>
      obtain ⟨field, predicate⟩ := clause
      simp [inductionHypothesis]

theorem evaluate_push
    (filter : Filter)
    (field : String)
    (predicate : Predicate)
    (attributes : Attributes) :
    evaluate (filter.push field predicate) attributes =
      (evaluate filter attributes &&
        predicate.evaluate (attributes field).toOption) := by
  simp [evaluate_eq_all, push]

end Filter

namespace Predicate

/-! Each predicate has its own equations, for an absent and a present field. -/

@[simp] theorem evaluate_present
    (expected : Bool)
    (field : Option Value) :
    evaluate (.present expected) field = (field.isSome == expected) := by
  cases field <;> rfl

@[simp] theorem evaluate_equalTo_none
    (expected : Value) :
    evaluate (.equalTo expected) none = false :=
  rfl

@[simp] theorem evaluate_equalTo_some
    (expected value : Value) :
    evaluate (.equalTo expected) (some value) = (value == expected) :=
  rfl

@[simp] theorem evaluate_oneOf_none
    (values : List Value) :
    evaluate (.oneOf values) none = false :=
  rfl

@[simp] theorem evaluate_oneOf_some
    (values : List Value)
    (value : Value) :
    evaluate (.oneOf values) (some value) = values.any (· == value) :=
  rfl

@[simp] theorem evaluate_within_none
    (range : ValueRange) :
    evaluate (.within range) none = false :=
  rfl

@[simp] theorem evaluate_within_some
    (range : ValueRange)
    (value : Value) :
    evaluate (.within range) (some value) = range.contains value :=
  rfl

@[simp] theorem evaluate_ofKind_none
    (kind : ValueKind) :
    evaluate (.ofKind kind) none = false :=
  rfl

@[simp] theorem evaluate_ofKind_some
    (kind : ValueKind)
    (value : Value) :
    evaluate (.ofKind kind) (some value) = (value.kind == kind) :=
  rfl

@[simp] theorem evaluate_embedded_none
    (filter : Filter) :
    evaluate (.embedded filter) none = false :=
  rfl

@[simp] theorem evaluate_embedded_list
    (filter : Filter)
    (elements : List Value) :
    evaluate (.embedded filter) (some (.list elements)) =
      elements.any fun element => filter.evaluate element.attributes :=
  rfl

/-- On a value that is no list a filter looks at the value itself. -/
theorem evaluate_embedded_single
    (filter : Filter)
    (value : Value)
    (single : value.kind ≠ .list) :
    evaluate (.embedded filter) (some value) =
      filter.evaluate value.attributes := by
  cases value with
  | list _ =>
      exact absurd rfl single
  | _ =>
      rfl

mutual

def equals : Predicate → Predicate → Bool
  | equalTo left, equalTo right =>
      left == right
  | oneOf left, oneOf right =>
      left == right
  | within left, within right =>
      left == right
  | present left, present right =>
      left == right
  | ofKind left, ofKind right =>
      left == right
  | embedded left, embedded right =>
      equalFilters left right
  | _, _ =>
      false

def equalFilters :
    Filter → Filter → Bool
  | [], [] =>
      true
  | (leftField, left) :: lefts, (rightField, right) :: rights =>
      leftField == rightField && equals left right &&
        equalFilters lefts rights
  | _, _ =>
      false

end

instance : BEq Predicate :=
  ⟨equals⟩

theorem equalFilters_eq_beq
    (left right : Filter) :
    equalFilters left right = (left == right) := by
  induction left generalizing right with
  | nil =>
      cases right <;> rfl
  | cons clause rest inductionHypothesis =>
      obtain ⟨field, predicate⟩ := clause
      cases right with
      | nil =>
          rfl
      | cons otherClause others =>
          obtain ⟨otherField, other⟩ := otherClause
          simp only [equalFilters, inductionHypothesis]
          rfl

end Predicate

end Permission
