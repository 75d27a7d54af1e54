import Permission.Conditions
import Permission.Resource

namespace Permission

/-!
# Checking a resource against conditions

The attributes that conditions name are read in the order of the names.  The
first requirement that is not met answers the check, and so does the first read
that fails, with its error.  Conditions on a list hold when they hold for one of
its elements, which are tried in turn.  Empty conditions hold without any read.
-/

mutual

/-- The reads of a resource meet all requirements. -/
def Conditions.check :
    Conditions → Attributes → Except AttributeError Bool
  | [], _ =>
      .ok true
  | (name, requirement) :: rest, attributes => do
      let value ← attributes name
      if ← requirement.check value then
        Conditions.check rest attributes
      else
        return false

/-- A value meets a requirement. -/
def Requirement.check :
    Requirement → Value → Except AttributeError Bool
  | .equalTo expected, value =>
      .ok (value == expected)
  | .memberOf membership, value =>
      .ok (membership.contains value)
  | .nested conditions, .list elements =>
      elements.anyM fun element =>
        Conditions.check conditions element.attributes
  | .nested conditions, value =>
      Conditions.check conditions value.attributes

end

/-- A resource meets all requirements. -/
def Conditions.holdFor
    {ρ : Type}
    [Resource ρ]
    (conditions : Conditions)
    (resource : ρ) :
    Except AttributeError Bool :=
  Conditions.check conditions (Resource.attributes resource)

end Permission
