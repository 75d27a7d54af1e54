import Permission.Conditions.Check
import Permission.Conditions.Compile
import Permission.Rule.Precedence

namespace Permission

/-!
# Queries

A query asks for one action on one subject type, with the rule in effect already
resolved to its conditions.  Checks of single resources and queries for records
start from these same conditions.
-/

/-- A question, with the conditions of the rule in effect if it permits. -/
structure Query where
  action : Action
  subject : Subject
  conditions : Option Conditions

namespace Query

/-- The reads of a resource are permitted; without conditions none are. -/
def check
    (query : Query)
    (attributes : Attributes) :
    Except AttributeError Bool :=
  match query.conditions with
  | some conditions =>
      conditions.check attributes
  | none =>
      .ok false

def permitsResource
    {ρ : Type}
    [Resource ρ]
    (query : Query)
    (resource : ρ) :
    Except AttributeError Bool :=
  query.check (Resource.attributes resource)

def compile
    (query : Query)
    (capabilities : Capabilities) :
    Except CompileError Compiled :=
  Permission.compile capabilities query.conditions

end Query

/-- The query for an action on a subject type. -/
def RuleSet.query
    {π : Type}
    [Arbiter π]
    (ruleSet : RuleSet π)
    (action : Action)
    (subject : Subject) :
    Query :=
  ⟨action, subject, ruleSet.conditions? action subject⟩

end Permission
