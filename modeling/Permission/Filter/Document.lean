import Permission.Filter
import Permission.Value.Document

namespace Permission

/-!
# The document form of filters

A filter is written as an object with one member for each field.  A single
clause is written as the operators of its predicate, or for equality with a
value that cannot be mistaken for operators, as that value.  Further clauses on
a field add their operators to it, a bare value counting as equality; of equal
operators the last one counts.
-/

namespace Filter

def equalityName : String :=
  "$eq"

def isOperatorName
    (name : String) :
    Bool :=
  name.toList.head? == some '$'

def areOperators
    (members : NameMap Json) :
    Bool :=
  !members.isEmpty && members.all fun member => isOperatorName member.1

/-- Adds operators to what a field is already asked for. -/
def addOperators
    (existing : Json)
    (operators : NameMap Json) :
    Json :=
  match existing with
  | .object members =>
      if areOperators members then
        .object (NameMap.insertAll members operators)
      else
        .object (NameMap.insertAll [(equalityName, existing)] operators)
  | _ =>
      .object (NameMap.insertAll [(equalityName, existing)] operators)

end Filter

namespace Predicate

/-- The value that equality may be written as by itself. -/
def bareValue? : Predicate → Option Value
  | equalTo (.record _) =>
      none
  | equalTo (.identifier _) =>
      none
  | equalTo value =>
      some value
  | _ =>
      none

/-- What a field with this one predicate is written as, given its operators. -/
def alone
    (predicate : Predicate)
    (operators : NameMap Json) :
    Json :=
  match predicate.bareValue? with
  | some value =>
      value.toJson
  | none =>
      .object operators

end Predicate

mutual

/-- The operators of a predicate. -/
def Predicate.operators : Predicate → NameMap Json
  | .equalTo value =>
      [(Filter.equalityName, value.toJson)]
  | .oneOf values =>
      [("$in", .array (Value.toItems values))]
  | .within range =>
      [("$gte", range.lower.toJson),
        (if range.exclusive then "$lt" else "$lte", range.upper.toJson)]
  | .present expected =>
      [("$exists", .boolean expected)]
  | .ofKind kind =>
      [("$type", .string kind.name)]
  | .embedded filter =>
      [("$matches", .object (Filter.addTo filter []))]

/-- Adds the clauses of a filter to a document. -/
def Filter.addTo :
    Filter → NameMap Json → NameMap Json
  | [], document =>
      document
  | (field, predicate) :: rest, document =>
      let operators := predicate.operators
      let member :=
        match document.find? field with
        | none =>
            predicate.alone operators
        | some existing =>
            Filter.addOperators existing operators
      Filter.addTo rest (document.insert field member)

end

namespace Filter

/-- Writes a filter as a document. -/
def toJson
    (filter : Filter) :
    Json :=
  .object (filter.addTo [])

def render
    (filter : Filter) :
    String :=
  filter.toJson.render

end Filter

end Permission
