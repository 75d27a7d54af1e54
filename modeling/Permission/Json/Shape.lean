import Permission.Json
import Permission.Text.Quoted

namespace Permission.Json

/-!
# Shape errors

JSON that is well formed may still not have the shape a reader expects.  Each
cause is a constructor; the wording of all of them is in one function.
-/

/-- What stands where something else was expected. -/
inductive Found where
  | scalar (scalar : Scalar)
  | sequence
  | map
  deriving DecidableEq

/-- Why a well formed tree has the wrong shape. -/
inductive ShapeError where
  | missingField (name : String)
  | duplicateField (name : String)
  | unknownVariant (found : String) (known : List String)
  /-- Something of another type stands in the place. -/
  | wrongType (found : Found) (expected : String)
  /-- A sequence has too few or too many items. -/
  | wrongLength (found : Nat) (expected : String)
  deriving DecidableEq

/-- A name between single back quotes. -/
def tick
    (name : String) :
    String :=
  "\x60" ++ name ++ "\x60"

namespace Found

/-- How a message names what was found. -/
def describe : Found → String
  | scalar .null =>
      "null"
  | scalar (.boolean truth) =>
      "boolean " ++ tick (if truth then "true" else "false")
  | scalar (.integer number) =>
      "integer " ++ tick (toString number.value)
  | scalar (.float number) =>
      "floating point " ++ tick number.number.render
  | scalar (.string text) =>
      "string " ++ Text.quote text
  | sequence =>
      "sequence"
  | map =>
      "map"

end Found

/-- The type of a tree as a message names it. -/
def found : Json → Found
  | .scalar leaf =>
      .scalar leaf
  | .array _ =>
      .sequence
  | .object _ =>
      .map

namespace ShapeError

/-- How a message lists the known names. -/
def oneOf : List String → String
  | [] =>
      "there are no variants"
  | [only] =>
      "expected " ++ tick only
  | [first, second] =>
      "expected " ++ tick first ++ " or " ++ tick second
  | names =>
      "expected one of " ++ ", ".intercalate (names.map tick)

def message : ShapeError → String
  | missingField name =>
      "missing field " ++ tick name
  | duplicateField name =>
      "duplicate field " ++ tick name
  | unknownVariant found known =>
      "unknown variant " ++ tick found ++ ", " ++ oneOf known
  | wrongType found expected =>
      "invalid type: " ++ found.describe ++ ", expected " ++ expected
  | wrongLength found expected =>
      "invalid length " ++ toString found ++ ", expected " ++ expected

end ShapeError

end Permission.Json
