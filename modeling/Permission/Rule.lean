import Permission.Conditions

namespace Permission

/-!
# Permission rules

A rule grants or denies an action on a subject type where its conditions hold.
Two names are reserved: the action `manage` covers every action, and the subject
type `all` covers every subject type.
-/

structure Action where
  name : String
  deriving DecidableEq, Repr

namespace Action

/-- The action that covers every other. -/
def manage : Action :=
  ⟨"manage"⟩

/-- The action of a query for records. -/
def read : Action :=
  ⟨"read"⟩

def isWildcard
    (action : Action) :
    Bool :=
  action == manage

/-- A rule for the first action applies to the second. -/
def covers
    (action asked : Action) :
    Bool :=
  action.isWildcard || action == asked

end Action

structure Subject where
  name : String
  deriving DecidableEq, Repr

namespace Subject

def all : Subject :=
  ⟨"all"⟩

def isWildcard
    (subject : Subject) :
    Bool :=
  subject == all

def covers
    (subject asked : Subject) :
    Bool :=
  subject.isWildcard || subject == asked

end Subject

/-- One declaration of a permission. -/
structure Rule where
  action : Action
  subject : Subject
  conditions : Conditions
  /-- The rule permits; otherwise it denies. -/
  grants : Bool

namespace Rule

def equals
    (left right : Rule) :
    Bool :=
  left.action == right.action && left.subject == right.subject &&
    left.conditions == right.conditions && left.grants == right.grants

instance : BEq Rule :=
  ⟨equals⟩

/-- Permits an action on a subject type where conditions hold. -/
def can
    (action : Action)
    (subject : Subject)
    (conditions : Conditions) :
    Rule :=
  ⟨action, subject, conditions, true⟩

/-- Denies an action on a subject type where conditions hold. -/
def cannot
    (action : Action)
    (subject : Subject)
    (conditions : Conditions) :
    Rule :=
  ⟨action, subject, conditions, false⟩

/-- The rule applies to an action on a subject type. -/
def isRelevant
    (rule : Rule)
    (action : Action)
    (subject : Subject) :
    Bool :=
  rule.action.covers action && rule.subject.covers subject

/-- How many of action and subject type the rule names exactly. -/
def specificity
    (rule : Rule) :
    Nat :=
  (!rule.action.isWildcard).toNat + (!rule.subject.isWildcard).toNat

end Rule

end Permission
