import Permission.Conditions
import Permission.Value.Document
import Permission.Json.Shape

namespace Permission

/-!
# Conditions as JSON trees

Conditions are an object with a requirement under each attribute name.  An array
asks for membership in a set and a scalar for equality.  An object asks for
nested conditions, unless its only member has a reserved name: `$eq` asks for
equality with any value, `$range` for membership in a range, and `$id` for
equality with an identity.

Reading meets the members of objects in their order and reports the first one
that has no meaning.
-/

/-- Why a tree describes no conditions. -/
inductive ConditionError where
  /-- Something other than an object or null stands for conditions. -/
  | notAnObject (found : Json)
  /-- The operator of identities holds no identity. -/
  | notAnIdentity
  /-- The operator of ranges holds no range. -/
  | notARange (error : Json.ShapeError)

namespace ConditionError

/-- What is wrong with the tree. -/
def reason : ConditionError → String
  | notAnObject found =>
      "conditions must be an object, found " ++ found.render
  | notAnIdentity =>
      Value.identityKey ++ " must hold a ULID string"
  | notARange error =>
      error.message

def message
    (error : ConditionError) :
    String :=
  "Malformed condition: " ++ error.reason

end ConditionError

/-! ## Ranges -/

namespace ValueRange

def typeName : String :=
  "ValueRange"

/-- Reads whether a range is exclusive. -/
def exclusiveOf : Json → Except Json.ShapeError Bool
  | .scalar (.boolean truth) =>
      .ok truth
  | other =>
      .error (.wrongType other.found "a boolean")

/-- Reads a range from the members of an object; others than its fields are ignored. -/
def ofMembers
    (members : NameMap Json) :
    Except Json.ShapeError ValueRange := do
  let exclusive ←
    match members.find? "exclusive" with
    | some tree =>
        exclusiveOf tree
    | none =>
        .ok false
  match members.find? "start", members.find? "end" with
  | none, _ =>
      .error (.missingField "start")
  | some _, none =>
      .error (.missingField "end")
  | some lower, some upper =>
      .ok ⟨Value.ofJson lower, Value.ofJson upper, exclusive⟩

/-- How a message describes the fields of a range in order. -/
def itemsDescription : String :=
  "struct " ++ typeName ++ " with 3 elements"

/-- Reads a range from its fields in order, of which the last may be missing. -/
def ofItems : List Json → Except Json.ShapeError ValueRange
  | [] =>
      .error (.wrongLength 0 itemsDescription)
  | [_] =>
      .error (.wrongLength 1 itemsDescription)
  | [lower, upper] =>
      .ok ⟨Value.ofJson lower, Value.ofJson upper, false⟩
  | lower :: upper :: tree :: rest => do
      let exclusive ← exclusiveOf tree
      if rest.isEmpty then
        return ⟨Value.ofJson lower, Value.ofJson upper, exclusive⟩
      else
        .error (.wrongLength (rest.length + 3) "fewer elements in array")

def ofJson : Json → Except Json.ShapeError ValueRange
  | .object members =>
      ofMembers members
  | .array items =>
      ofItems items
  | .scalar leaf =>
      .error (.wrongType (.scalar leaf) ("struct " ++ typeName))

/-- Writes a range with its fields in ascending order of their names. -/
def toJson
    (range : ValueRange) :
    Json :=
  .object
    [("end", range.upper.toJson),
      ("exclusive", .boolean range.exclusive),
      ("start", range.lower.toJson)]

/-- Writes a range with its fields in their own order. -/
def toDeclaredJson
    (range : ValueRange) :
    Json :=
  .object
    [("start", range.lower.toJson),
      ("end", range.upper.toJson),
      ("exclusive", .boolean range.exclusive)]

end ValueRange

/-! ## Operators -/

/-- What the only member of an object may stand for. -/
inductive Operator where
  | identity
  | range
  | equality
  deriving DecidableEq, Repr

namespace Operator

/-- The reserved name of an operator. -/
def name : Operator → String
  | identity =>
      Value.identityKey
  | range =>
      "$range"
  | equality =>
      "$eq"

def all : List Operator :=
  [identity, range, equality]

/-- The operator with a name. -/
def named?
    (name : String) :
    Option Operator :=
  all.find? fun operator => operator.name == name

/-- The operator that an object is, if it has no other member, and what it holds. -/
def ofMembers? : NameMap Json → Option (Operator × Json)
  | [(name, operand)] =>
      (named? name).map fun operator => (operator, operand)
  | _ =>
      none

theorem mem_all
    (operator : Operator) :
    operator ∈ all := by
  cases operator <;> decide

/-- Operators are known by their names. -/
theorem named?_eq_some_iff
    {text : String}
    {operator : Operator} :
    named? text = some operator ↔ operator.name = text := by
  constructor
  · intro found
    simpa using List.find?_some found
  · rintro rfl
    cases operator <;> decide

end Operator

/-! ## Requirements and conditions -/

mutual

def Requirement.ofJson :
    Json → Except ConditionError Requirement
  | .scalar leaf =>
      .ok (.equalTo (Value.ofScalar leaf))
  | .array items =>
      .ok (.memberOf (.set (Value.ofItems items)))
  | .object members =>
      match Operator.ofMembers? members with
      | some (.identity, _) =>
          match Value.identityOf? members with
          | some identity =>
              .ok (.equalTo (.identifier identity))
          | none =>
              .error .notAnIdentity
      | some (.range, operand) =>
          match ValueRange.ofJson operand with
          | .ok range =>
              .ok (.memberOf (.range range))
          | .error error =>
              .error (.notARange error)
      | some (.equality, operand) =>
          .ok (.equalTo (Value.ofJson operand))
      | none =>
          (Conditions.ofMembers members).map .nested

def Conditions.ofMembers :
    NameMap Json → Except ConditionError Conditions
  | [] =>
      .ok []
  | (name, tree) :: rest => do
      let requirement ← Requirement.ofJson tree
      let requirements ← Conditions.ofMembers rest
      return (name, requirement) :: requirements

end

/-- Reads conditions from a tree; null stands for empty ones. -/
def Conditions.ofJson : Json → Except ConditionError Conditions
  | .object members =>
      Conditions.ofMembers members
  | .scalar .null =>
      .ok []
  | other =>
      .error (.notAnObject other)

mutual

def Requirement.toJson : Requirement → Json
  | .equalTo (.list elements) =>
      .object [(Operator.equality.name, (Value.list elements).toJson)]
  | .equalTo (.record attributes) =>
      .object [(Operator.equality.name, (Value.record attributes).toJson)]
  | .equalTo value =>
      value.toJson
  | .memberOf (.set values) =>
      .array (Value.toItems values)
  | .memberOf (.range range) =>
      .object [(Operator.range.name, range.toJson)]
  | .nested conditions =>
      .object (Conditions.toMembers conditions)

def Conditions.toMembers :
    Conditions → NameMap Json
  | [] =>
      []
  | (name, requirement) :: rest =>
      (name, requirement.toJson) :: Conditions.toMembers rest

end

def Conditions.toJson
    (conditions : Conditions) :
    Json :=
  .object (Conditions.toMembers conditions)

theorem Conditions.toMembers_eq_map
    (conditions : Conditions) :
    Conditions.toMembers conditions =
      conditions.map fun entry => (entry.1, entry.2.toJson) := by
  induction conditions with
  | nil =>
      rfl
  | cons entry rest inductionHypothesis =>
      simp [Conditions.toMembers, inductionHypothesis]

end Permission
