import Permission.Value
import Permission.Json

namespace Permission

/-!
# Values as JSON trees

Nulls, booleans, integers, finite floats, strings, lists and records are the
corresponding trees.  An identity is the object whose one member, named `$id`,
holds its text; every other object is a record.  A float that is not finite is
written as null, the one thing in a value that a tree cannot hold.

An integer beyond the signed sixty-four bits reads as the nearest float.
-/

namespace Value

/-- The name of the one member of a written identity. -/
def identityKey : String :=
  "$id"

/-- The identity that an object holds, if it is a written one. -/
def identityOf?
    (members : NameMap Json) :
    Option Identifier :=
  match members with
  | [(name, .scalar (.string text))] =>
      if name = identityKey then Identifier.ofText? text else none
  | _ =>
      none

/-- The value of a number or another scalar. -/
def ofScalar : Json.Scalar → Value
  | .null =>
      .null
  | .boolean truth =>
      .boolean truth
  | .integer number =>
      if number.value < 0x8000000000000000 then
        .integer (Int64.ofInt number.value)
      else
        .float (Binary64.ofNatNearest number.value.toNat)
  | .float number =>
      .float number.number
  | .string text =>
      .string text

mutual

/-- Reads a value from a tree; every tree is one. -/
def ofJson : Json → Value
  | .scalar leaf =>
      ofScalar leaf
  | .array items =>
      .list (ofItems items)
  | .object members =>
      match identityOf? members with
      | some identity =>
          .identifier identity
      | none =>
          .record (ofMembers members)

def ofItems : List Json → List Value
  | [] =>
      []
  | item :: rest =>
      ofJson item :: ofItems rest

def ofMembers : NameMap Json → Record
  | [] =>
      []
  | (name, value) :: rest =>
      (name, ofJson value) :: ofMembers rest

end

/-- The object that an identity is written as. -/
def identityJson
    (identity : Identifier) :
    Json :=
  .object [(identityKey, .string identity.render)]

/-- The tree of a float, null if it is not finite. -/
def floatJson
    (number : Binary64) :
    Json :=
  match Json.Float.ofBinary64? number with
  | some finite =>
      .scalar (.float finite)
  | none =>
      .null

mutual

def toJson : Value → Json
  | null =>
      .null
  | boolean truth =>
      .boolean truth
  | integer number =>
      .scalar (.integer (Json.Integer.ofInt64 number))
  | float number =>
      floatJson number
  | string text =>
      .string text
  | identifier identity =>
      identityJson identity
  | list elements =>
      .array (toItems elements)
  | record attributes =>
      .object (toMembers attributes)

def toItems : List Value → List Json
  | [] =>
      []
  | element :: rest =>
      toJson element :: toItems rest

def toMembers : Record → NameMap Json
  | [] =>
      []
  | (name, value) :: rest =>
      (name, toJson value) :: toMembers rest

end

def render
    (value : Value) :
    String :=
  value.toJson.render

theorem ofItems_eq_map
    (items : List Json) :
    ofItems items = items.map ofJson := by
  induction items with
  | nil =>
      rfl
  | cons item rest inductionHypothesis =>
      simp [ofItems, inductionHypothesis]

theorem toItems_eq_map
    (elements : List Value) :
    toItems elements = elements.map toJson := by
  induction elements with
  | nil =>
      rfl
  | cons element rest inductionHypothesis =>
      simp [toItems, inductionHypothesis]

theorem ofMembers_eq_map
    (members : NameMap Json) :
    ofMembers members =
      members.map fun member => (member.1, ofJson member.2) := by
  induction members with
  | nil =>
      rfl
  | cons member rest inductionHypothesis =>
      simp [ofMembers, inductionHypothesis]

theorem toMembers_eq_map
    (attributes : Record) :
    toMembers attributes =
      attributes.map fun entry => (entry.1, toJson entry.2) := by
  induction attributes with
  | nil =>
      rfl
  | cons entry rest inductionHypothesis =>
      simp [toMembers, inductionHypothesis]

end Value

end Permission
