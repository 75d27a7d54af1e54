import Permission.Policy
import Permission.Store.Collection
import Permission.Proofs.Rule.Resolution

namespace Permission

/-!
# Denial

A query without conditions permits nothing.  In memory it is settled before any
read or fetch; pushed down, single records are settled as well, and a listing
hands the store a filter that no record passes, whatever it shows as its
identity.
-/

namespace Query

variable
  {ρ : Type}
  [Resource ρ]
  {query : Query}
  (denied : query.conditions = none)

include denied

/-- Nothing is read of a resource that is denied. -/
theorem permitsResource_of_denied
    (resource : ρ) :
    query.permitsResource resource = .ok false := by
  unfold permitsResource check
  rw [denied]

theorem compile_of_denied
    (capabilities : Capabilities) :
    query.compile capabilities = .ok .nothing := by
  unfold compile
  rw [denied]
  rfl

theorem permitsInMemory_of_denied
    (record : ρ) :
    query.permitsInMemory record = .ok false := by
  unfold permitsInMemory
  rw [permitsResource_of_denied denied]
  rfl

/-- The store is not asked about a record that is denied. -/
theorem permitsPushedDown_of_denied
    (fallback : Bool)
    (store : Store ρ)
    (record : ρ) :
    query.permitsPushedDown fallback store record = .ok false := by
  unfold permitsPushedDown
  rw [compile_of_denied denied]

/-- Nothing is fetched from a store whose records are denied. -/
theorem accessibleInMemory_of_denied
    (store : Store ρ) :
    query.accessibleInMemory store = .ok [] := by
  unfold accessibleInMemory
  rw [denied]

end Query

/-- What selects nothing selects no stored record, whatever its identity. -/
theorem Collection.select_nothing
    {ρ : Type}
    [Resource ρ]
    (collection : Collection ρ) :
    collection.select Compiled.nothing.lower = [] := by
  unfold select
  rw [List.map_eq_nil_iff, List.filter_eq_nil_iff]
  intro entry _ passed
  rw [Compiled.evaluate_lower] at passed
  cases passed

namespace Query

variable
  {ρ : Type}
  [Resource ρ]
  [BEq ρ]
  {query : Query}

theorem accessiblePushedDown_of_denied
    (denied : query.conditions = none)
    (fallback : Bool)
    (collection : Collection ρ) :
    query.accessiblePushedDown fallback collection.toStore = .ok [] := by
  unfold accessiblePushedDown
  rw [compile_of_denied denied]
  exact congrArg Except.ok collection.select_nothing

end Query

namespace Enforcement

variable
  {ρ : Type}
  [Resource ρ]
  {query : Query}

/-- Wherever conditions are evaluated, no record of any store is permitted. -/
theorem permits_of_denied
    (denied : query.conditions = none)
    (enforcement : Enforcement)
    (store : Store ρ)
    (record : ρ) :
    enforcement.permits query store record = .ok false := by
  cases enforcement with
  | inMemory =>
      exact Query.permitsInMemory_of_denied denied record
  | pushdown fallback =>
      exact Query.permitsPushedDown_of_denied denied fallback store record

/-- Wherever conditions are evaluated, no record of a collection is listed. -/
theorem accessible_of_denied
    [BEq ρ]
    (denied : query.conditions = none)
    (enforcement : Enforcement)
    (collection : Collection ρ) :
    enforcement.accessible query collection.toStore = .ok [] := by
  cases enforcement with
  | inMemory =>
      exact Query.accessibleInMemory_of_denied denied collection.toStore
  | pushdown fallback =>
      exact Query.accessiblePushedDown_of_denied denied fallback collection

end Enforcement

/--
Where no rule grants, nothing is permitted, whichever lawful arbiter picks the rule
in effect: no resource, be its reads as they may, no record of any store, and no
record of a collection, whether it owns an identity or is no record at all.  In
memory this does not even take a store that works.
-/
theorem Policy.nothing_permitted_of_grantsNothing
    {π : Type}
    [Arbiter π]
    [LawfulArbiter π]
    (ρ : Type)
    [Resource ρ]
    (ruleSet : RuleSet π)
    (action : Action)
    (subject : Subject)
    (denied : ruleSet.GrantsNothing action subject) :
    (ruleSet.query action subject).conditions = none ∧
    (∀ enforcement (resource : ρ),
      Policy.can ⟨ruleSet, enforcement⟩ action subject resource = .ok false) ∧
    (∀ (enforcement : Enforcement) (store : Store ρ) record,
      enforcement.permits (ruleSet.query action subject) store record =
        .ok false) ∧
    (∀ [BEq ρ] (enforcement : Enforcement) (collection : Collection ρ),
      enforcement.accessible (ruleSet.query action subject) collection.toStore =
        .ok []) ∧
    (∀ store : Store ρ,
      Enforcement.inMemory.accessible (ruleSet.query action subject) store =
        .ok []) ∧
    (∀ enforcement (store : Store ρ) record, ⟨store.kind⟩ = subject →
      Policy.permits ⟨ruleSet, enforcement⟩ action store record = .ok false) ∧
    (∀ [BEq ρ] enforcement (collection : Collection ρ),
      ⟨collection.kind⟩ = subject →
        Policy.accessible ⟨ruleSet, enforcement⟩ action collection.toStore =
          .ok []) := by
  have noConditions := denied.conditions_query
  refine ⟨noConditions, ?_, ?_, ?_, ?_, ?_, ?_⟩
  · intro enforcement resource
    exact Query.permitsResource_of_denied noConditions resource
  · intro enforcement store record
    exact enforcement.permits_of_denied noConditions store record
  · intro equality enforcement collection
    exact enforcement.accessible_of_denied noConditions collection
  · intro store
    exact Query.accessibleInMemory_of_denied noConditions store
  · rintro enforcement store record rfl
    exact enforcement.permits_of_denied noConditions store record
  · rintro equality enforcement collection rfl
    exact enforcement.accessible_of_denied noConditions collection

/-- Anything may be read, but no article of a stranger. -/
def strangerRules : List Rule :=
  [.can .read .all [],
    .cannot .read ⟨"Article"⟩ [("owner", .equalTo (.string "stranger"))]]

/-- A resource whose every read fails. -/
def offlineAttributes : Attributes :=
  fun name => .error (.unreadable name "offline")

/-- What owns an identity, what owns something else by that name, and no record. -/
def mixedValues : Collection Value :=
  (Collection.empty "Article").insertAll
    [(.ofNat 1, .record [("_id", .identifier (.ofNat 9))]),
      (.ofNat 2, .record [("_id", .null), ("owner", .string "author")]),
      (.ofNat 3, .integer 4)]

/--
The denial is in effect where it comes last, where it comes first, and as the more
specific rule; for an action that neither rule is about there is none in effect.
-/
theorem Policy.nothing_permitted_of_grantsNothing_stranger :
    Policy.can ⟨⟨strangerRules, Precedence.lastDefined⟩, .inMemory⟩ .read
        ⟨"Article"⟩ offlineAttributes =
      .ok false ∧
    Policy.permits ⟨⟨strangerRules, LastDefined.mk⟩, .pushdown false⟩ .read
        (Store.failing "Article" ⟨"offline"⟩) offlineAttributes =
      .ok false ∧
    Policy.accessible ⟨⟨strangerRules, MostSpecific.mk⟩, .pushdown false⟩ .read
        mixedValues.toStore =
      .ok [] ∧
    Policy.accessible
        ⟨⟨strangerRules.reverse, FirstDefined.mk⟩, .pushdown true⟩ .read
        mixedValues.toStore =
      .ok [] ∧
    Policy.can ⟨⟨strangerRules, Precedence.mostSpecific⟩, .inMemory⟩ .manage
        ⟨"Article"⟩ offlineAttributes =
      .ok false := by
  have lastDenies :
      RuleSet.GrantsNothing ⟨strangerRules, Precedence.lastDefined⟩ .read
        ⟨"Article"⟩ :=
    .inr ⟨_, rfl, rfl⟩
  have lastAloneDenies :
      RuleSet.GrantsNothing ⟨strangerRules, LastDefined.mk⟩ .read ⟨"Article"⟩ :=
    .inr ⟨_, rfl, rfl⟩
  have mostSpecificDenies :
      RuleSet.GrantsNothing ⟨strangerRules, MostSpecific.mk⟩ .read ⟨"Article"⟩ :=
    .inr ⟨_, rfl, rfl⟩
  have firstDenies :
      RuleSet.GrantsNothing ⟨strangerRules.reverse, FirstDefined.mk⟩ .read
        ⟨"Article"⟩ :=
    .inr ⟨_, rfl, rfl⟩
  have unmentioned :
      RuleSet.GrantsNothing ⟨strangerRules, Precedence.mostSpecific⟩ .manage
        ⟨"Article"⟩ :=
    .inl (by decide)
  obtain ⟨-, can, -⟩ :=
    nothing_permitted_of_grantsNothing Attributes _ _ _ lastDenies
  obtain ⟨-, -, -, -, -, permits, -⟩ :=
    nothing_permitted_of_grantsNothing Attributes _ _ _ lastAloneDenies
  obtain ⟨-, -, -, -, -, -, accessible⟩ :=
    nothing_permitted_of_grantsNothing Value _ _ _ mostSpecificDenies
  obtain ⟨-, -, -, -, -, -, accessibleToo⟩ :=
    nothing_permitted_of_grantsNothing Value _ _ _ firstDenies
  obtain ⟨-, canManage, -⟩ :=
    nothing_permitted_of_grantsNothing Attributes _ _ _ unmentioned
  exact
    ⟨can _ _, permits _ _ _ rfl, accessible _ _ rfl, accessibleToo _ _ rfl,
      canManage _ _⟩

end Permission
