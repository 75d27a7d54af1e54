import Permission.NameMap
import Permission.Binary64
import Permission.Identifier

namespace Permission

/-!
# Attribute values

A value is null, a boolean, a number, a string, an identity, a list of values or
a record of named values.  Checks in memory and filters in a store compare
attributes through the one equality and the one order defined here.

Numbers compare by size, whether they are integers or floats, and neither side
is ever rounded.  A float that is no number equals nothing, itself included.
-/

/-- A value of an attribute. -/
inductive Value where
  | null
  | boolean (truth : Bool)
  | integer (number : Int64)
  | float (number : Binary64)
  | string (text : String)
  | identifier (identity : Identifier)
  | list (elements : List Value)
  | record (attributes : List (String × Value))

/-- Named values in the order of their names. -/
abbrev Record :=
  NameMap Value

/-- What sort of value a value is. -/
inductive ValueKind where
  | null
  | boolean
  | integer
  | float
  | string
  | identifier
  | list
  | record
  deriving DecidableEq, Repr

namespace ValueKind

/-- The name of a kind in messages and in filters. -/
def name : ValueKind → String
  | null =>
      "null"
  | boolean =>
      "boolean"
  | integer =>
      "signed_int"
  | float =>
      "float"
  | string =>
      "string"
  | identifier =>
      "identifier"
  | list =>
      "list"
  | record =>
      "record"

def all : List ValueKind :=
  [null, boolean, integer, float, string, identifier, list, record]

theorem mem_all
    (kind : ValueKind) :
    kind ∈ all := by
  cases kind <;> decide

theorem name_inj
    {left right : ValueKind} :
    left.name = right.name ↔ left = right := by
  cases left <;> cases right <;> decide

end ValueKind

namespace Value

def kind : Value → ValueKind
  | null =>
      .null
  | boolean _ =>
      .boolean
  | integer _ =>
      .integer
  | float _ =>
      .float
  | string _ =>
      .string
  | identifier _ =>
      .identifier
  | list _ =>
      .list
  | record _ =>
      .record

def elements? : Value → Option (List Value)
  | list elements =>
      some elements
  | _ =>
      none

def record? : Value → Option Record
  | record attributes =>
      some attributes
  | _ =>
      none

/--
Orders two values of comparable kinds: numbers with numbers, and strings,
booleans and identities each with their own kind.
-/
def compare? : Value → Value → Option Ordering
  | integer left, integer right =>
      some (compare left.toInt right.toInt)
  | integer left, float right =>
      right.compareInteger? left
  | float left, integer right =>
      (left.compareInteger? right).map Ordering.swap
  | float left, float right =>
      left.compare? right
  | string left, string right =>
      some (compare left right)
  | boolean left, boolean right =>
      some (compare left right)
  | identifier left, identifier right =>
      some (compare left.number.toNat right.number.toNat)
  | _, _ =>
      none

mutual

/-- Equality of values: numbers by size, lists and records part by part. -/
def equals : Value → Value → Bool
  | null, null =>
      true
  | boolean left, boolean right =>
      left == right
  | integer left, integer right =>
      left == right
  | integer left, float right =>
      right.compareInteger? left == some .eq
  | float left, integer right =>
      left.compareInteger? right == some .eq
  | float left, float right =>
      left.compare? right == some .eq
  | string left, string right =>
      left == right
  | identifier left, identifier right =>
      left == right
  | list left, list right =>
      equalElements left right
  | record left, record right =>
      equalAttributes left right
  | _, _ =>
      false

def equalElements : List Value → List Value → Bool
  | [], [] =>
      true
  | left :: lefts, right :: rights =>
      equals left right && equalElements lefts rights
  | _, _ =>
      false

def equalAttributes :
    Record → Record → Bool
  | [], [] =>
      true
  | (leftName, left) :: lefts, (rightName, right) :: rights =>
      leftName == rightName && equals left right &&
        equalAttributes lefts rights
  | _, _ =>
      false

end

instance : BEq Value :=
  ⟨equals⟩

theorem beq_def
    (left right : Value) :
    (left == right) = equals left right :=
  rfl

theorem equalElements_eq_beq
    (left right : List Value) :
    equalElements left right = (left == right) := by
  induction left generalizing right with
  | nil =>
      cases right <;> rfl
  | cons first rest inductionHypothesis =>
      cases right with
      | nil =>
          rfl
      | cons other others =>
          simp [equalElements, inductionHypothesis, beq_def]

theorem equalAttributes_eq_beq
    (left right : Record) :
    equalAttributes left right = (left == right) := by
  induction left generalizing right with
  | nil =>
      cases right <;> rfl
  | cons entry rest inductionHypothesis =>
      obtain ⟨name, value⟩ := entry
      cases right with
      | nil =>
          rfl
      | cons otherEntry others =>
          obtain ⟨otherName, other⟩ := otherEntry
          simp only [equalAttributes, inductionHypothesis]
          rfl

end Value

end Permission
