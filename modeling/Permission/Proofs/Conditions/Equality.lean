import Permission.Conditions
import Permission.Proofs.Elementwise

namespace Permission

/-!
# Equality of requirements, part by part

Equality goes through requirements and ranges constructor by constructor.  Each
equation here opens one constructor, so that a proof about equal conditions
meets only equalities of values, of names and of lists.
-/

theorem ValueRange.beq_iff
    {left right : ValueRange} :
    (left == right) = true ↔
      (left.lower == right.lower) = true ∧
        (left.upper == right.upper) = true ∧ left.exclusive = right.exclusive := by
  have parts :
      (left == right) =
        (left.lower == right.lower && left.upper == right.upper &&
          left.exclusive == right.exclusive) :=
    rfl
  rw [parts, Bool.and_eq_true, Bool.and_eq_true, and_assoc,
    beq_iff_eq (a := left.exclusive)]

namespace Requirement

@[simp] theorem equalTo_beq
    (left right : Value) :
    (equalTo left == equalTo right) = (left == right) :=
  rfl

@[simp] theorem memberOf_beq
    (left right : Membership) :
    (memberOf left == memberOf right) = (left == right) :=
  rfl

@[simp] theorem nested_beq
    (left right : Conditions) :
    (nested left == nested right) = (left == right) :=
  equalConditions_eq_beq left right

end Requirement

namespace Membership

@[simp] theorem set_beq
    (left right : List Value) :
    (set left == set right) = (left == right) :=
  rfl

@[simp] theorem range_beq
    (left right : ValueRange) :
    (range left == range right) = (left == right) :=
  rfl

end Membership

end Permission
