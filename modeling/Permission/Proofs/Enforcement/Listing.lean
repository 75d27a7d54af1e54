import Permission.Proofs.Enforcement.Denial
import Permission.Proofs.Failure
import Permission.Proofs.Store.View

namespace Permission

/-!
# Listing permitted records

Wherever the records of a collection can be listed in memory at all, pushing the
query down lists the same ones.  The only other outcome is the refusal to
compile the conditions.
-/

namespace Query

variable {ρ : Type} [Resource ρ] {query : Query}

/-- Records are listed if all of them have an answer, and then the permitted ones. -/
theorem permittedAmong_eq_ok_iff
    {records permitted : List ρ} :
    query.permittedAmong records = .ok permitted ↔
      (∀ record ∈ records, ∃ answer, query.permitsResource record = .ok answer) ∧
      permitted =
        records.filter fun record => query.permitsResource record = .ok true := by
  induction records generalizing permitted with
  | nil =>
      simp [permittedAmong, eq_comm]
  | cons record rest inductionHypothesis =>
      unfold permittedAmong permitsInMemory
      simp only [Except.bind_eq_ok_iff, Except.mapError_eq_ok_iff,
        Except.pure_eq_ok_iff, inductionHypothesis, List.forall_mem_cons]
      constructor
      · rintro ⟨answer, answered, _, ⟨restAnswered, rfl⟩, shape⟩
        refine ⟨⟨⟨answer, answered⟩, restAnswered⟩, ?_⟩
        rw [← shape]
        cases answer <;> simp [answered]
      · rintro ⟨⟨⟨answer, answered⟩, restAnswered⟩, shape⟩
        refine ⟨answer, answered, _, ⟨restAnswered, rfl⟩, ?_⟩
        rw [shape]
        cases answer <;> simp [answered]

/-- Where the conditions are refused, the fallback decides. -/
theorem accessiblePushedDown_of_compile_eq_error
    {fallback : Bool}
    {error : CompileError}
    (store : Store ρ)
    (refused : query.compile store.capabilities = .error error) :
    query.accessiblePushedDown fallback store =
      fallBack fallback error (query.accessibleInMemory store) := by
  unfold accessiblePushedDown
  rw [refused]

variable [BEq ρ] {collection : Collection ρ} {records : List ρ}

/-- A collection is listed in memory like its records. -/
theorem accessibleInMemory_toStore
    (query : Query)
    (collection : Collection ρ) :
    query.accessibleInMemory collection.toStore =
      query.permittedAmong collection.records := by
  unfold accessibleInMemory
  cases conditions : query.conditions with
  | none =>
      have denied : ∀ record : ρ, query.permitsResource record = .ok false :=
        permitsResource_of_denied conditions
      have listed : query.permittedAmong collection.records = .ok [] :=
        permittedAmong_eq_ok_iff.mpr ⟨fun record _ => ⟨false, denied record⟩,
          by simp [denied]⟩
      exact listed.symm
  | some requirements =>
      have fetched :
          collection.toStore.fetch .everything = .ok collection.records := by
        simp [Store.fetch, Collection.toStore, Collection.select,
          Collection.records, Compiled.evaluate]
      rw [fetched]
      rfl

theorem accessibleInMemory_eq_ok_iff :
    query.accessibleInMemory collection.toStore = .ok records ↔
      (∀ record ∈ collection.records, ∃ answer,
        query.permitsResource record = .ok answer) ∧
      records =
        collection.records.filter fun record =>
          query.permitsResource record = .ok true := by
  rw [accessibleInMemory_toStore, permittedAmong_eq_ok_iff]

/-- A collection whose records all have an answer hands over the permitted ones. -/
theorem fetch_eq_ok_of_compile
    {compiled : Compiled}
    (compiles : query.compile collection.capabilities = .ok compiled)
    (answered :
      ∀ record ∈ collection.records, ∃ answer,
        query.permitsResource record = .ok answer) :
    collection.toStore.fetch compiled =
      .ok (collection.records.filter fun record =>
        query.permitsResource record = .ok true) := by
  have selected :
      collection.select compiled.lower =
        collection.records.filter fun record =>
          query.permitsResource record = .ok true := by
    unfold Collection.select Collection.records
    rw [List.filter_map]
    refine congrArg (List.map Prod.snd) (List.filter_congr ?_)
    intro entry member
    have stored : entry.2 ∈ collection.records :=
      List.mem_map_of_mem member
    obtain ⟨answer, checked⟩ := answered entry.2 stored
    rw [Compiled.evaluate_lower,
      evaluate_view_of_permitsResource compiles checked]
    cases answer <;> simp [checked]
  exact congrArg Except.ok selected

/-- Where the conditions compile, pushing down lists what is listed in memory. -/
theorem accessiblePushedDown_of_compile_eq_ok
    {fallback : Bool}
    {compiled : Compiled}
    (compiles : query.compile collection.capabilities = .ok compiled)
    (listed : query.accessibleInMemory collection.toStore = .ok records) :
    query.accessiblePushedDown fallback collection.toStore = .ok records := by
  obtain ⟨answered, shape⟩ := accessibleInMemory_eq_ok_iff.mp listed
  have fetched := fetch_eq_ok_of_compile compiles answered
  unfold accessiblePushedDown
  rw [Collection.capabilities_toStore, compiles, shape]
  exact congrArg (Except.mapError PolicyError.store) fetched

end Query

/--
Records that can be listed in memory are exactly the permitted ones among those
of the collection, in their order, and pushing the query down lists them too: in
any case if it may fall back, and otherwise unless the conditions are refused.
-/
theorem Policy.accessible_of_accessibleInMemory
    {π ρ : Type}
    [Arbiter π]
    [Resource ρ]
    [BEq ρ]
    {query : Query}
    {records : List ρ}
    (ruleSet : RuleSet π)
    (action : Action)
    (collection : Collection ρ)
    (asked : ruleSet.query action ⟨collection.kind⟩ = query)
    (listed : query.accessibleInMemory collection.toStore = .ok records) :
    query.accessiblePushedDown true collection.toStore = .ok records ∧
    (∀ compiled, query.compile collection.capabilities = .ok compiled →
      query.accessiblePushedDown false collection.toStore = .ok records) ∧
    (∀ error, query.compile collection.capabilities = .error error →
      query.accessiblePushedDown false collection.toStore =
        .error (.compile error)) ∧
    Policy.accessible ⟨ruleSet, .inMemory⟩ action collection.toStore =
      query.accessibleInMemory collection.toStore ∧
    (∀ fallback,
      Policy.accessible ⟨ruleSet, .pushdown fallback⟩ action collection.toStore =
        query.accessiblePushedDown fallback collection.toStore) ∧
    (∀ enforcement,
      records =
        collection.records.filter fun record =>
          Policy.can ⟨ruleSet, enforcement⟩ action ⟨collection.kind⟩ record =
            .ok true) := by
  subst asked
  have shape := (Query.accessibleInMemory_eq_ok_iff.mp listed).2
  refine ⟨?_, ?_, ?_, rfl, fun _ => rfl, fun _ => shape⟩
  · cases outcome :
        (ruleSet.query action ⟨collection.kind⟩).compile
          collection.capabilities with
    | ok compiled =>
        exact Query.accessiblePushedDown_of_compile_eq_ok outcome listed
    | error error =>
        rw [Query.accessiblePushedDown_of_compile_eq_error collection.toStore
          outcome]
        exact listed
  · intro compiled compiles
    exact Query.accessiblePushedDown_of_compile_eq_ok compiles listed
  · intro error refused
    exact
      Query.accessiblePushedDown_of_compile_eq_error collection.toStore refused

/-- Articles of a decade are for reading where the shelf and the identity agree. -/
def archiveRules : RuleSet :=
  RuleSet.empty.push <|
    .can .read ⟨"Article"⟩
      [("Shelf", .equalTo (.string "a")),
        ("_id", .equalTo (.string "x")),
        ("year", .memberOf (.range ⟨.integer 1990, .integer 2000, true⟩))]

/-- An article that brings its own identity. -/
def shelvedArticle : Record :=
  [("Shelf", .string "a"), ("_id", .string "x"), ("year", .integer 1995)]

/-- An article twice, and between its copies one that has no identity of its own. -/
def archive : Collection Record :=
  (Collection.empty "Article").insertAll
    [(.ofNat 1, shelvedArticle),
      (.ofNat 2, [("Shelf", .string "b")]),
      (.ofNat 3, shelvedArticle)]

theorem Policy.accessible_of_accessibleInMemory_archive :
    (archiveRules.query .read ⟨"Article"⟩).accessiblePushedDown false
        archive.toStore =
      .ok [shelvedArticle, shelvedArticle] ∧
    (archiveRules.query .read ⟨"Article"⟩).accessiblePushedDown false
        (archive.withCapabilities .minimal).toStore =
      .error (.compile ⟨["year"], .ranges⟩) ∧
    (archiveRules.query .read ⟨"Article"⟩).accessiblePushedDown true
        (archive.withCapabilities .minimal).toStore =
      .ok [shelvedArticle, shelvedArticle] := by
  have listed :
      ∀ capabilities,
        (archiveRules.query .read ⟨"Article"⟩).accessibleInMemory
            (archive.withCapabilities capabilities).toStore =
          .ok [shelvedArticle, shelvedArticle] :=
    fun _ => rfl
  have fully :=
    Policy.accessible_of_accessibleInMemory archiveRules .read archive rfl
      (listed .full)
  have minimally :=
    Policy.accessible_of_accessibleInMemory archiveRules .read
      (archive.withCapabilities .minimal) rfl (listed .minimal)
  exact ⟨fully.2.1 _ rfl, minimally.2.2.1 _ rfl, minimally.1⟩

end Permission
