import Permission.Value

namespace Permission

/-!
# Conditions

Conditions are a conjunction of requirements, one for each attribute they name,
in the order of the names.  A requirement compares the attribute with a value,
asks for its membership in a set or in a range, or puts conditions on the
attribute itself.  Empty conditions ask for nothing.
-/

/--
The values from `lower` up to `upper`, which itself is left out of an exclusive
range.
-/
structure ValueRange where
  lower : Value
  upper : Value
  exclusive : Bool

namespace ValueRange

/-- The value can be ordered against both bounds and lies between them. -/
def contains
    (range : ValueRange)
    (value : Value) :
    Bool :=
  let fromLower :=
    match range.lower.compare? value with
    | some .lt | some .eq =>
        true
    | _ =>
        false
  let toUpper :=
    match value.compare? range.upper with
    | some .lt =>
        true
    | some .eq =>
        !range.exclusive
    | _ =>
        false
  fromLower && toUpper

def equals
    (left right : ValueRange) :
    Bool :=
  left.lower == right.lower && left.upper == right.upper &&
    left.exclusive == right.exclusive

instance : BEq ValueRange :=
  ⟨equals⟩

end ValueRange

/-- The values that an attribute may have. -/
inductive Membership where
  | set (values : List Value)
  | range (range : ValueRange)

namespace Membership

def contains
    (membership : Membership)
    (value : Value) :
    Bool :=
  match membership with
  | set values =>
      values.any (· == value)
  | range bounds =>
      bounds.contains value

def equals : Membership → Membership → Bool
  | set left, set right =>
      left == right
  | range left, range right =>
      left == right
  | _, _ =>
      false

instance : BEq Membership :=
  ⟨equals⟩

end Membership

/-- What is asked of one attribute. -/
inductive Requirement where
  | equalTo (value : Value)
  | memberOf (membership : Membership)
  /--
  The attribute satisfies the conditions or, if it is a list, one of its
  elements does.
  -/
  | nested (conditions : List (String × Requirement))

/-- Requirements on attributes, in the order of their names. -/
abbrev Conditions :=
  NameMap Requirement

namespace Requirement

mutual

def equals : Requirement → Requirement → Bool
  | equalTo left, equalTo right =>
      left == right
  | memberOf left, memberOf right =>
      left == right
  | nested left, nested right =>
      equalConditions left right
  | _, _ =>
      false

def equalConditions :
    Conditions → Conditions → Bool
  | [], [] =>
      true
  | (leftName, left) :: lefts, (rightName, right) :: rights =>
      leftName == rightName && equals left right &&
        equalConditions lefts rights
  | _, _ =>
      false

end

instance : BEq Requirement :=
  ⟨equals⟩

theorem equalConditions_eq_beq
    (left right : Conditions) :
    equalConditions left right = (left == right) := by
  induction left generalizing right with
  | nil =>
      cases right <;> rfl
  | cons entry rest inductionHypothesis =>
      obtain ⟨name, requirement⟩ := entry
      cases right with
      | nil =>
          rfl
      | cons otherEntry others =>
          obtain ⟨otherName, other⟩ := otherEntry
          simp only [equalConditions, inductionHypothesis]
          rfl

end Requirement

end Permission
