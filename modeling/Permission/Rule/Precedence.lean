import Permission.Rule

namespace Permission

/-!
# The rule in effect

Of the rules that apply to an action on a subject type a precedence picks the
one in effect.  A denial in effect permits nothing, like the absence of a rule.
-/

/-- How the rule in effect is picked among those that apply. -/
inductive Precedence where
  | firstDefined
  | lastDefined
  /-- The most specific one, and of equally specific ones the latest. -/
  | mostSpecific
  deriving DecidableEq, Repr

namespace Precedence

/-- Unless another one is named, later rules override earlier ones. -/
def standard : Precedence :=
  lastDefined

def name : Precedence → String
  | firstDefined =>
      "first_defined"
  | lastDefined =>
      "last_defined"
  | mostSpecific =>
      "most_specific"

def all : List Precedence :=
  [firstDefined, lastDefined, mostSpecific]

/-- The last of the candidates with the greatest rank. -/
def lastMaximal?
    {α : Type}
    (rank : α → Nat)
    (candidates : List α) :
    Option α :=
  candidates.foldl
    (fun best candidate =>
      match best with
      | none =>
          some candidate
      | some leader =>
          if rank leader ≤ rank candidate then some candidate else best)
    none

/-- The winner among candidates in the order in which they were defined. -/
def winner?
    {α : Type}
    (precedence : Precedence)
    (specificity : α → Nat)
    (candidates : List α) :
    Option α :=
  match precedence with
  | firstDefined =>
      candidates.head?
  | lastDefined =>
      candidates.getLast?
  | mostSpecific =>
      lastMaximal? specificity candidates

end Precedence

/--
Types whose members pick the rule in effect.  A host may bring one of its own
beside `Precedence`.
-/
class Arbiter (π : Type) where
  /-- Picks among the rules that apply, each given with its place among all. -/
  pick? : π → List (Rule × Nat) → Option (Rule × Nat)

instance : Arbiter Precedence :=
  ⟨fun precedence => precedence.winner? fun placed => placed.1.specificity⟩

/-! Each precedence is also an arbiter by itself, for a host that never chooses. -/

/-- The rule that was defined first. -/
structure FirstDefined where

/-- The rule that was defined last. -/
structure LastDefined where

/-- The last of the rules that name most exactly what they are about. -/
structure MostSpecific where

instance : Arbiter FirstDefined :=
  ⟨fun _ candidates => candidates.head?⟩

instance : Arbiter LastDefined :=
  ⟨fun _ candidates => candidates.getLast?⟩

instance : Arbiter MostSpecific :=
  ⟨fun _ candidates =>
    Precedence.lastMaximal? (fun placed => placed.1.specificity) candidates⟩

/-- Rules in the order of their definition, and how one of them is picked. -/
structure RuleSet (π : Type := Precedence) where
  rules : List Rule
  precedence : π

namespace RuleSet

variable {π : Type}

/-- No rules, under the standard precedence. -/
def empty : RuleSet :=
  ⟨[], .standard⟩

def push
    (ruleSet : RuleSet π)
    (rule : Rule) :
    RuleSet π :=
  { ruleSet with rules := ruleSet.rules ++ [rule] }

/-- The rules that apply, each with its place among all rules. -/
def relevant
    (ruleSet : RuleSet π)
    (action : Action)
    (subject : Subject) :
    List (Rule × Nat) :=
  ruleSet.rules.zipIdx.filter fun placed => placed.1.isRelevant action subject

/-- The rule in effect, with its place among all rules. -/
def resolve?
    [Arbiter π]
    (ruleSet : RuleSet π)
    (action : Action)
    (subject : Subject) :
    Option (Rule × Nat) :=
  Arbiter.pick? ruleSet.precedence (ruleSet.relevant action subject)

/-- The conditions under which an action is permitted, if it is at all. -/
def conditions?
    [Arbiter π]
    (ruleSet : RuleSet π)
    (action : Action)
    (subject : Subject) :
    Option Conditions :=
  ((ruleSet.resolve? action subject).filter fun placed => placed.1.grants).map
    fun placed => placed.1.conditions

end RuleSet

end Permission
