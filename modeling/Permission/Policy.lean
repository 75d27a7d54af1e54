import Permission.Enforcement

namespace Permission

/-!
# Policies

A policy is a rule set together with the way it is enforced.  Single resources
are always checked in memory; for the records of a store the subject type is the
kind of the store.
-/

/-- Rules and where their conditions are evaluated. -/
structure Policy (π : Type := Precedence) where
  ruleSet : RuleSet π
  enforcement : Enforcement

namespace Policy

variable {π ρ : Type}

/-- Without rules nothing is permitted. -/
def empty : Policy :=
  ⟨.empty, .inMemory⟩

/-- The query for an action on a subject type. -/
def query
    [Arbiter π]
    (policy : Policy π)
    (action : Action)
    (subject : Subject) :
    Query :=
  policy.ruleSet.query action subject

/-- An action on a resource of a subject type is permitted. -/
def can
    [Arbiter π]
    [Resource ρ]
    (policy : Policy π)
    (action : Action)
    (subject : Subject)
    (resource : ρ) :
    Except AttributeError Bool :=
  (policy.query action subject).permitsResource resource

/-- An action on a resource of a subject type is not permitted. -/
def cannot
    [Arbiter π]
    [Resource ρ]
    (policy : Policy π)
    (action : Action)
    (subject : Subject)
    (resource : ρ) :
    Except AttributeError Bool :=
  (policy.can action subject resource).map Bool.not

/-- An action on a record that the store holds is permitted. -/
def permits
    [Arbiter π]
    [Resource ρ]
    (policy : Policy π)
    (action : Action)
    (store : Store ρ)
    (record : ρ) :
    Except PolicyError Bool :=
  policy.enforcement.permits (policy.query action ⟨store.kind⟩) store record

/-- The records of a store on which an action is permitted. -/
def accessible
    [Arbiter π]
    [Resource ρ]
    (policy : Policy π)
    (action : Action)
    (store : Store ρ) :
    Except PolicyError (List ρ) :=
  policy.enforcement.accessible (policy.query action ⟨store.kind⟩) store

end Policy

end Permission
