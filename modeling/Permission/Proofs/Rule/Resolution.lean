import Permission.Query

namespace Permission

/-!
# The absence of a grant

Conditions come from the rule in effect and from no other.  There are none if no
rule is in effect or if the one in effect denies.  Nothing keeps an arbiter of a
host from putting a rule in effect where none applies; a lawful one does not, and
each of the provided ones is lawful.
-/

/-- Arbiters that pick nothing where no rule applies. -/
class LawfulArbiter (π : Type) [Arbiter π] : Prop where
  pick?_nil : ∀ precedence : π, Arbiter.pick? precedence [] = none

instance : LawfulArbiter FirstDefined :=
  ⟨fun _ => rfl⟩

instance : LawfulArbiter LastDefined :=
  ⟨fun _ => rfl⟩

instance : LawfulArbiter MostSpecific :=
  ⟨fun _ => rfl⟩

instance : LawfulArbiter Precedence where
  pick?_nil precedence := by
    cases precedence <;> rfl

namespace RuleSet

variable
  {π : Type}
  {ruleSet : RuleSet π}
  {action : Action}
  {subject : Subject}

/-- A rule applies at its own place. -/
theorem mem_relevant_iff
    {rule : Rule}
    {place : Nat} :
    (rule, place) ∈ ruleSet.relevant action subject ↔
      ruleSet.rules[place]? = some rule ∧
        rule.isRelevant action subject = true := by
  unfold relevant
  rw [List.mem_filter, List.mk_mem_zipIdx_iff_getElem?]

theorem relevant_eq_nil_iff :
    ruleSet.relevant action subject = [] ↔
      ∀ rule ∈ ruleSet.rules, rule.isRelevant action subject = false := by
  rw [List.eq_nil_iff_forall_not_mem]
  constructor
  · intro none rule member
    obtain ⟨place, found⟩ := List.mem_iff_getElem?.mp member
    exact eq_false_of_ne_true fun applies =>
      none (rule, place) (mem_relevant_iff.mpr ⟨found, applies⟩)
  · rintro none ⟨rule, place⟩ placed
    obtain ⟨found, applies⟩ := mem_relevant_iff.mp placed
    rw [none rule (List.mem_of_getElem? found)] at applies
    cases applies

variable [Arbiter π]

/-- No rule applies, or the one in effect denies. -/
def GrantsNothing
    (ruleSet : RuleSet π)
    (action : Action)
    (subject : Subject) :
    Prop :=
  (∀ rule ∈ ruleSet.rules, rule.isRelevant action subject = false) ∨
    ∃ placed, ruleSet.resolve? action subject = some placed ∧
      placed.1.grants = false

/-- There are conditions only of a rule in effect that grants. -/
theorem conditions?_eq_none_iff :
    ruleSet.conditions? action subject = none ↔
      ∀ placed, ruleSet.resolve? action subject = some placed →
        placed.1.grants = false := by
  unfold conditions?
  rw [Option.map_eq_none_iff, Option.filter_eq_none_iff]
  exact forall₂_congr fun placed _ => iff_of_eq (Bool.not_eq_true placed.1.grants)

variable [LawfulArbiter π]

/-- Where no rule applies, none is in effect. -/
theorem resolve?_of_none_relevant
    (noneRelevant :
      ∀ rule ∈ ruleSet.rules, rule.isRelevant action subject = false) :
    ruleSet.resolve? action subject = none := by
  unfold resolve?
  rw [relevant_eq_nil_iff.mpr noneRelevant]
  exact LawfulArbiter.pick?_nil ruleSet.precedence

/-- A query without a grant has no conditions, whatever those of the denial are. -/
theorem GrantsNothing.conditions_query
    (denied : ruleSet.GrantsNothing action subject) :
    (ruleSet.query action subject).conditions = none := by
  refine conditions?_eq_none_iff.mpr ?_
  intro placed resolved
  rcases denied with noneRelevant | ⟨winner, inEffect, denies⟩
  · rw [resolve?_of_none_relevant noneRelevant] at resolved
    cases resolved
  · rw [inEffect] at resolved
    cases resolved
    exact denies

end RuleSet

end Permission
