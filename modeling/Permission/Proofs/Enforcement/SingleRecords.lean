import Permission.Policy
import Permission.Proofs.Conditions.Congruence
import Permission.Proofs.Store.View

namespace Permission

/-!
# Checking single records

Pushed down, a record is looked up among the stored ones by equality, and the
filter is put to the stored records that equal it.  They may differ from it in
the representation of numbers and show an assigned identity, but not in what the
filter makes of them.
-/

namespace Query

variable {ρ : Type} [Resource ρ] {query : Query} {record : ρ} {permitted : Bool}

/-- Where the conditions are refused, the fallback decides. -/
theorem permitsPushedDown_of_compile_eq_error
    {fallback : Bool}
    {error : CompileError}
    (store : Store ρ)
    (refused : query.compile store.capabilities = .error error) :
    query.permitsPushedDown fallback store record =
      fallBack fallback error (query.permitsInMemory record) := by
  unfold permitsPushedDown
  rw [refused]

theorem permitsInMemory_of_permitsResource
    (checked : query.permitsResource record = .ok permitted) :
    query.permitsInMemory record = .ok permitted := by
  unfold permitsInMemory
  rw [checked]
  rfl

variable [BEq ρ] {collection : Collection ρ} {compiled : Compiled}

/-- A record that equals no stored one is in no collection, whatever the filter. -/
theorem includes_eq_false_of_not_stored
    {filter : Filter}
    (absent : ∀ stored ∈ collection.records, (stored == record) = false) :
    collection.includes filter record = false := by
  rw [← Bool.not_eq_true, Collection.includes_eq_true_iff]
  rintro ⟨entry, member, equal, -⟩
  have differs : (entry.2 == record) = false :=
    absent entry.2 (List.mem_map_of_mem member)
  rw [equal] at differs
  cases differs

/-- Pushed down, conditions that ask for anything permit stored records alone. -/
theorem permitsPushedDown_of_not_stored
    {fallback : Bool}
    {conditions : Conditions}
    (resolved : query.conditions = some conditions)
    (nonempty : conditions ≠ [])
    (compiles : query.compile collection.capabilities = .ok compiled)
    (absent : ∀ stored ∈ collection.records, (stored == record) = false) :
    query.permitsPushedDown fallback collection.toStore record = .ok false := by
  have requirementsCompile :
      Permission.compile collection.capabilities (some conditions) = .ok compiled :=
    resolved ▸ compiles
  rcases compile_some_eq_ok requirementsCompile with ⟨empty, -⟩ | ⟨-, native⟩
  · exact absurd empty nonempty
  · unfold permitsPushedDown
    rw [Collection.capabilities_toStore, compiles, native]
    exact congrArg Except.ok (includes_eq_false_of_not_stored absent)

variable [LawfulResource ρ]

/-- A filter makes of a stored record what the check makes of an equal one. -/
theorem evaluate_view_of_beq
    {entry : Identifier × ρ}
    (compiles : query.compile collection.capabilities = .ok compiled)
    (checked : query.permitsResource record = .ok permitted)
    (equal : (entry.2 == record) = true) :
    compiled.evaluate (Collection.view entry) = permitted := by
  have storedChecked : query.permitsResource entry.2 = .ok permitted :=
    (permitsResource_alike equal).eq_ok_iff.mpr checked
  exact evaluate_view_of_permitsResource compiles storedChecked

/-- A record that equals a stored one passes the filter if it is permitted. -/
theorem includes_eq_of_stored
    (compiles : query.compile collection.capabilities = .ok compiled)
    (checked : query.permitsResource record = .ok permitted)
    (stored : ∃ stored ∈ collection.records, (stored == record) = true) :
    collection.includes compiled.lower record = permitted := by
  rw [Bool.eq_iff_iff, Collection.includes_eq_true_iff]
  simp only [Compiled.evaluate_lower]
  constructor
  · rintro ⟨entry, -, equal, passed⟩
    exact (evaluate_view_of_beq compiles checked equal).symm.trans passed
  · rintro rfl
    obtain ⟨_, isRecord, equal⟩ := stored
    obtain ⟨entry, member, rfl⟩ := List.mem_map.mp isRecord
    exact ⟨entry, member, equal, evaluate_view_of_beq compiles checked equal⟩

/-- Pushed down, a record that equals a stored one is answered as by the check. -/
theorem permitsPushedDown_of_stored
    {fallback : Bool}
    (compiles : query.compile collection.capabilities = .ok compiled)
    (checked : query.permitsResource record = .ok permitted)
    (stored : ∃ stored ∈ collection.records, (stored == record) = true) :
    query.permitsPushedDown fallback collection.toStore record =
      .ok permitted := by
  have selected := evaluate_of_check compiles checked
  have included := includes_eq_of_stored compiles checked stored
  unfold permitsPushedDown
  rw [Collection.capabilities_toStore, compiles]
  cases compiled with
  | everything =>
      exact congrArg Except.ok selected
  | nothing =>
      exact congrArg Except.ok selected
  | native filter =>
      exact congrArg Except.ok included

end Query

/--
A record that equals a stored one is permitted alike in memory and pushed down,
unless the conditions are refused and there is no fallback.  A record that equals
no stored one is not permitted by any conditions that were compiled, except by
empty ones.
-/
theorem Policy.permits_of_can
    {π ρ : Type}
    [Arbiter π]
    [Resource ρ]
    [BEq ρ]
    [LawfulResource ρ]
    {query : Query}
    (ruleSet : RuleSet π)
    (enforcement : Enforcement)
    (action : Action)
    (collection : Collection ρ)
    (record : ρ)
    (asked : ruleSet.query action ⟨collection.kind⟩ = query) :
    (∀ permitted,
      Policy.can ⟨ruleSet, enforcement⟩ action ⟨collection.kind⟩ record =
          .ok permitted →
      (∃ stored ∈ collection.records, (stored == record) = true) →
        query.permitsInMemory record = .ok permitted ∧
        query.permitsPushedDown true collection.toStore record = .ok permitted ∧
        (∀ compiled, query.compile collection.capabilities = .ok compiled →
          query.permitsPushedDown false collection.toStore record =
            .ok permitted) ∧
        (∀ error, query.compile collection.capabilities = .error error →
          query.permitsPushedDown false collection.toStore record =
            .error (.compile error))) ∧
    ((∀ stored ∈ collection.records, (stored == record) = false) →
      ∀ conditions, query.conditions = some conditions → conditions ≠ [] →
      ∀ compiled, query.compile collection.capabilities = .ok compiled →
      ∀ fallback,
        query.permitsPushedDown fallback collection.toStore record = .ok false) ∧
    Policy.permits ⟨ruleSet, .inMemory⟩ action collection.toStore record =
      query.permitsInMemory record ∧
    (∀ fallback,
      Policy.permits ⟨ruleSet, .pushdown fallback⟩ action collection.toStore
          record =
        query.permitsPushedDown fallback collection.toStore record) := by
  subst asked
  refine ⟨?_, ?_, rfl, fun _ => rfl⟩
  · intro permitted checked stored
    have inMemory :=
      (ruleSet.query action ⟨collection.kind⟩).permitsInMemory_of_permitsResource
        checked
    refine ⟨inMemory, ?_, ?_, ?_⟩
    · cases outcome :
          (ruleSet.query action ⟨collection.kind⟩).compile
            collection.capabilities with
      | ok compiled =>
          exact Query.permitsPushedDown_of_stored outcome checked stored
      | error error =>
          rw [Query.permitsPushedDown_of_compile_eq_error collection.toStore
            outcome]
          exact inMemory
    · intro compiled compiles
      exact Query.permitsPushedDown_of_stored compiles checked stored
    · intro error refused
      exact Query.permitsPushedDown_of_compile_eq_error collection.toStore refused
  · intro absent conditions resolved nonempty compiled compiles fallback
    exact Query.permitsPushedDown_of_not_stored resolved nonempty compiles absent

/-- An article with an owner. -/
def ownedArticle
    (owner : Value) :
    Record :=
  [("owner", owner)]

/-- Articles of the first owner are for reading. -/
def ownerRules : RuleSet :=
  RuleSet.empty.push <|
    .can .read ⟨"Article"⟩ [("owner", .equalTo (.integer 1))]

/-- An article of the first owner, whose number is kept as a float. -/
def ownedArticles : Collection Record :=
  (Collection.empty "Article").insert (.ofNat 1)
    (ownedArticle (.float ⟨0x3FF0000000000000⟩))

/-- The same article as a value. -/
def ownedValues : Collection Value :=
  (Collection.empty "Article").insert (.ofNat 1)
    (.record (ownedArticle (.float ⟨0x3FF0000000000000⟩)))

theorem Policy.permits_of_can_ownedArticle :
    (ownerRules.query .read ⟨"Article"⟩).permitsPushedDown false
        ownedArticles.toStore (ownedArticle (.integer 1)) =
      .ok true ∧
    (ownerRules.query .read ⟨"Article"⟩).permitsPushedDown true
        ownedValues.toStore (.record (ownedArticle (.integer 1))) =
      .ok true ∧
    (ownerRules.query .read ⟨"Article"⟩).permitsPushedDown false
        ownedArticles.toStore (ownedArticle (.integer 2)) =
      .ok false := by
  have ofRecord :=
    Policy.permits_of_can ownerRules .inMemory .read ownedArticles
      (ownedArticle (.integer 1)) rfl
  have ofValue :=
    Policy.permits_of_can ownerRules .inMemory .read ownedValues
      (.record (ownedArticle (.integer 1))) rfl
  have ofStranger :=
    Policy.permits_of_can ownerRules .inMemory .read ownedArticles
      (ownedArticle (.integer 2)) rfl
  refine ⟨(ofRecord.1 true rfl ⟨_, List.mem_singleton_self _, rfl⟩).2.2.1 _ rfl,
    (ofValue.1 true rfl ⟨_, List.mem_singleton_self _, rfl⟩).2.1,
    ofStranger.2.1 ?_ _ rfl (List.cons_ne_nil _ _) _ rfl false⟩
  intro stored member
  rw [List.mem_singleton.mp member]
  rfl

end Permission
