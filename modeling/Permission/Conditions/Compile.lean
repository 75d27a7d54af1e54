import Permission.Conditions
import Permission.Filter.Compiled

namespace Permission

/-!
# Compiling conditions to filters

Conditions compile to a filter with one clause for each attribute, which selects
exactly the records that meet them.  Where the store lacks a feature, or where no
filter says the same, compilation refuses and names the first offending
attribute: attributes come in the order of their names, and an attribute comes
before those nested in it.
-/

/-- Which predicates a store can execute beyond equality and sets. -/
structure Capabilities where
  /-- Predicates that put a field in a range. -/
  ranges : Bool
  /-- Predicates on embedded records and on lists of them. -/
  embedded : Bool
  deriving DecidableEq, Repr

namespace Capabilities

/-- A store that can execute every predicate. -/
def full : Capabilities :=
  ⟨true, true⟩

/-- A store with equality and sets alone. -/
def minimal : Capabilities :=
  ⟨false, false⟩

instance : Inhabited Capabilities :=
  ⟨full⟩

end Capabilities

/-- Why an attribute cannot be compiled. -/
inductive Obstacle where
  /-- The store has no range predicates. -/
  | ranges
  /-- The store has no predicates on embedded records. -/
  | embedded
  /--
  Empty nested conditions hold for every single value but not for an empty list,
  which no filter on the embedded record tells apart.
  -/
  | emptyNested
  deriving DecidableEq, Repr

namespace Obstacle

def reason : Obstacle → String
  | ranges =>
      "store does not support range predicates"
  | embedded =>
      "store does not support matching embedded records"
  | emptyNested =>
      "empty nested conditions depend on whether the attribute is a collection"

end Obstacle

/-- The first attribute that cannot be compiled, and why. -/
structure CompileError where
  /-- The names from the outermost conditions down to the attribute. -/
  path : List String
  obstacle : Obstacle
  deriving DecidableEq, Repr

namespace CompileError

/-- The names of the path with points between them. -/
def pathText
    (error : CompileError) :
    String :=
  ".".intercalate error.path

/-- What stands in the way of the attribute, in words. -/
def reason
    (error : CompileError) :
    String :=
  error.obstacle.reason

def message
    (error : CompileError) :
    String :=
  "Condition on " ++ Text.quote error.pathText ++
    " cannot be expressed as a store filter: " ++ error.reason

end CompileError

mutual

/-- The clauses of conditions that stand below a path. -/
def Conditions.translate
    (capabilities : Capabilities)
    (path : List String) :
    Conditions → Except CompileError Filter
  | [] =>
      .ok []
  | (name, requirement) :: rest => do
      let predicate ← requirement.translate capabilities (path ++ [name])
      let clauses ← Conditions.translate capabilities path rest
      return (name, predicate) :: clauses

/-- The predicate of a requirement on the attribute at a path. -/
def Requirement.translate
    (capabilities : Capabilities)
    (path : List String) :
    Requirement → Except CompileError Predicate
  | .equalTo value =>
      .ok (.equalTo value)
  | .memberOf (.set values) =>
      .ok (.oneOf values)
  | .memberOf (.range range) =>
      if capabilities.ranges then
        .ok (.within range)
      else
        .error ⟨path, .ranges⟩
  | .nested conditions =>
      if !capabilities.embedded then
        .error ⟨path, .embedded⟩
      else if conditions.isEmpty then
        .error ⟨path, .emptyNested⟩
      else
        (Conditions.translate capabilities path conditions).map .embedded

end

/--
Compiles the conditions of a rule for a store.  Without a rule nothing is
selected, and empty conditions select everything.
-/
def compile
    (capabilities : Capabilities)
    (conditions : Option Conditions) :
    Except CompileError Compiled :=
  match conditions with
  | none =>
      .ok .nothing
  | some [] =>
      .ok .everything
  | some requirements =>
      (Conditions.translate capabilities [] requirements).map .native

end Permission
