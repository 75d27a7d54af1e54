import Permission.Proofs.Enforcement.SingleRecords
import Permission.Proofs.Enforcement.Unmentioned

namespace Permission

/-!
# Errors of enforcement

Three things can fail while a query is answered: the conditions are refused when
they are compiled, the store fails, or an attribute cannot be read.  None of them
turns into a permission.  Pushed down, a query fails with the store or, without a
fallback, with the refusal, and never with a read; in memory it fails with the
store or with the first read that fails, and then lists no record at all.
-/

namespace Query

variable {ρ : Type} [Resource ρ] {query : Query}

/--
What listing in memory comes to: the failure of the store, the failure of the
first check that fails, or all permitted records in the order of the store.
-/
inductive ListsAs
    (query : Query)
    (store : Store ρ) :
    Except PolicyError (List ρ) → Prop where
  | notFetched
      {failure : StoreFailure}
      (failed : store.fetch .everything = .error failure) :
      ListsAs query store (.error (.store failure))
  | notRead
      {before after : List ρ}
      {failing : ρ}
      {error : AttributeError}
      (fetched : store.fetch .everything = .ok (before ++ failing :: after))
      (answered :
        ∀ earlier ∈ before, ∃ answer, query.permitsResource earlier = .ok answer)
      (failed : query.permitsResource failing = .error error) :
      ListsAs query store (.error (.attributeRead error))
  | listed
      {records : List ρ}
      (fetched : store.fetch .everything = .ok records)
      (answered :
        ∀ record ∈ records, ∃ answer, query.permitsResource record = .ok answer) :
      ListsAs query store
        (.ok (records.filter fun record => query.permitsResource record = .ok true))

/-! ## In memory -/

theorem permitsInMemory_eq_error_iff
    {record : ρ}
    {error : PolicyError} :
    query.permitsInMemory record = .error error ↔
      ∃ cause, query.permitsResource record = .error cause ∧
        error = .attributeRead cause :=
  Except.mapError_eq_error_iff

/-- The first check that fails is reported, and no record is listed. -/
theorem permittedAmong_eq_error_iff
    {records : List ρ}
    {error : PolicyError} :
    query.permittedAmong records = .error error ↔
      ∃ before failing after cause, records = before ++ failing :: after ∧
        (∀ earlier ∈ before, ∃ answer, query.permitsResource earlier = .ok answer) ∧
        query.permitsResource failing = .error cause ∧
        error = .attributeRead cause := by
  rw [permittedAmong_eq_mapM, Except.mapError_eq_error_iff]
  simp only [Except.map_eq_error_iff, List.mapM_eq_error_iff]
  constructor
  · rintro ⟨cause, ⟨before, failing, after, shape, answered, failed⟩, rfl⟩
    exact ⟨before, failing, after, cause, shape, answered, failed, rfl⟩
  · rintro ⟨before, failing, after, cause, shape, answered, failed, rfl⟩
    exact ⟨cause, ⟨before, failing, after, shape, answered, failed⟩, rfl⟩

section Conditional

variable
  {conditions : Conditions}
  (resolved : query.conditions = some conditions)

include resolved

/-- With conditions, records are fetched and then checked one after another. -/
theorem accessibleInMemory_of_conditions
    (store : Store ρ) :
    query.accessibleInMemory store =
      (store.fetch .everything).mapError .store >>= query.permittedAmong := by
  unfold accessibleInMemory
  rw [resolved]

theorem accessibleInMemory_eq_iff
    {store : Store ρ}
    {outcome : Except PolicyError (List ρ)} :
    query.accessibleInMemory store = outcome ↔ query.ListsAs store outcome := by
  rw [accessibleInMemory_of_conditions resolved]
  constructor
  · rintro rfl
    cases fetched : store.fetch .everything with
    | error failure =>
        exact .notFetched fetched
    | ok records =>
        show query.ListsAs store (query.permittedAmong records)
        cases checked : query.permittedAmong records with
        | error error =>
            obtain ⟨before, failing, after, cause, rfl, answered, failed, rfl⟩ :=
              permittedAmong_eq_error_iff.mp checked
            exact .notRead fetched answered failed
        | ok permitted =>
            obtain ⟨answered, rfl⟩ := permittedAmong_eq_ok_iff.mp checked
            exact .listed fetched answered
  · intro listing
    cases listing with
    | notFetched failed =>
        rw [failed]
        rfl
    | notRead fetched answered failed =>
        rw [fetched]
        exact permittedAmong_eq_error_iff.mpr
          ⟨_, _, _, _, rfl, answered, failed, rfl⟩
    | listed fetched answered =>
        rw [fetched]
        exact permittedAmong_eq_ok_iff.mpr ⟨answered, rfl⟩

end Conditional

/-- Nothing is compiled in memory, so nothing is refused. -/
theorem accessibleInMemory_ne_compile
    (query : Query)
    (store : Store ρ)
    (refusal : CompileError) :
    query.accessibleInMemory store ≠ .error (.compile refusal) := by
  intro failed
  cases resolved : query.conditions with
  | none =>
      rw [accessibleInMemory_of_denied resolved] at failed
      cases failed
  | some conditions =>
      cases (accessibleInMemory_eq_iff resolved).mp failed

/-! ## Pushed down -/

section Compiled

variable
  {store : Store ρ}
  {compiled : Compiled}
  (compiles : query.compile store.capabilities = .ok compiled)

include compiles

/-- Only a filter is put to the store, and only the store can fail on it. -/
theorem permitsPushedDown_eq_error_iff
    {fallback : Bool}
    {record : ρ}
    {error : PolicyError} :
    query.permitsPushedDown fallback store record = .error error ↔
      ∃ filter failure, compiled = .native filter ∧
        store.includes filter record = .error failure ∧
        error = .store failure := by
  unfold permitsPushedDown
  rw [compiles]
  cases compiled with
  | everything =>
      simp
  | nothing =>
      simp
  | native filter =>
      simp [Except.mapError_eq_error_iff]

/-- A listing is what the store selects, or the failure of the store to do so. -/
theorem accessiblePushedDown_of_compiled
    (fallback : Bool) :
    query.accessiblePushedDown fallback store =
      (store.select compiled.lower).mapError .store := by
  unfold accessiblePushedDown
  rw [compiles]
  rfl

end Compiled

end Query

/--
Errors are surfaced.  If the conditions are refused, pushing down reports the
refusal, or with a fallback does all that is done in memory.  If they compile, it
fails with the store and in no other way, and lists what the store selects.  In
memory nothing is refused, and with conditions a listing is whole or fails: with
the store, or with the first record in the order of the store that fails its check.
-/
theorem Enforcement.surfaces_errors
    {ρ : Type}
    [Resource ρ]
    (query : Query)
    (store : Store ρ)
    (record : ρ) :
    (∀ refusal, query.compile store.capabilities = .error refusal →
      (pushdown false).permits query store record = .error (.compile refusal) ∧
      (pushdown false).accessible query store = .error (.compile refusal) ∧
      (pushdown true).permits query store record =
        inMemory.permits query store record ∧
      (pushdown true).accessible query store = inMemory.accessible query store) ∧
    (∀ compiled fallback, query.compile store.capabilities = .ok compiled →
      (∀ error,
        (pushdown fallback).permits query store record = .error error ↔
          ∃ filter failure, compiled = .native filter ∧
            store.includes filter record = .error failure ∧
            error = .store failure) ∧
      (∀ records,
        (pushdown fallback).accessible query store = .ok records ↔
          store.select compiled.lower = .ok records) ∧
      (∀ error,
        (pushdown fallback).accessible query store = .error error ↔
          ∃ failure, store.select compiled.lower = .error failure ∧
            error = .store failure)) ∧
    (∀ error,
      inMemory.permits query store record = .error error ↔
        ∃ cause, query.permitsResource record = .error cause ∧
          error = .attributeRead cause) ∧
    (∀ refusal,
      inMemory.permits query store record ≠ .error (.compile refusal) ∧
        inMemory.accessible query store ≠ .error (.compile refusal)) ∧
    (∀ conditions, query.conditions = some conditions →
      ∀ outcome,
        inMemory.accessible query store = outcome ↔
          query.ListsAs store outcome) := by
  refine ⟨?_, ?_, ?_, ?_, ?_⟩
  · intro refusal refused
    exact
      ⟨Query.permitsPushedDown_of_compile_eq_error store refused,
        Query.accessiblePushedDown_of_compile_eq_error store refused,
        Query.permitsPushedDown_of_compile_eq_error store refused,
        Query.accessiblePushedDown_of_compile_eq_error store refused⟩
  · intro compiled fallback compiles
    have listing :
        (pushdown fallback).accessible query store =
          (store.select compiled.lower).mapError .store :=
      Query.accessiblePushedDown_of_compiled compiles fallback
    refine ⟨?_, ?_, ?_⟩
    · intro error
      exact Query.permitsPushedDown_eq_error_iff compiles
    · intro records
      rw [listing, Except.mapError_eq_ok_iff]
    · intro error
      rw [listing, Except.mapError_eq_error_iff]
  · intro error
    exact Query.permitsInMemory_eq_error_iff
  · intro refusal
    refine ⟨?_, query.accessibleInMemory_ne_compile store refusal⟩
    intro failed
    obtain ⟨cause, -, isRead⟩ := Query.permitsInMemory_eq_error_iff.mp failed
    cases isRead
  · intro conditions resolved outcome
    exact Query.accessibleInMemory_eq_iff resolved

/-- Articles of a decade. -/
def decadeQuery : Query :=
  ⟨.read, ⟨"Article"⟩,
    some [("year", .memberOf (.range ⟨.integer 1990, .integer 2000, true⟩))]⟩

/-- An article of the decade before one without a year, in a store without ranges. -/
def undatedArticles : Collection Record :=
  ((Collection.empty "Article").insertAll
    [(.ofNat 1, [("year", .integer 1995)]), (.ofNat 2, [])]).withCapabilities
      .minimal

theorem Enforcement.surfaces_errors_decade :
    (pushdown false).accessible decadeQuery undatedArticles.toStore =
        .error (.compile ⟨["year"], .ranges⟩) ∧
      (pushdown true).accessible decadeQuery undatedArticles.toStore =
        .error (.attributeRead (.missing "year")) ∧
      (pushdown true).permits decadeQuery
          (Store.failing "Article" ⟨"offline"⟩) shelvedArticle =
        .error (.store ⟨"offline"⟩) ∧
      inMemory.accessible decadeQuery
          (Store.failing "Article" ⟨"offline"⟩ : Store Record) =
        .error (.store ⟨"offline"⟩) := by
  obtain ⟨refused, -, -, -, listsAs⟩ :=
    surfaces_errors decadeQuery undatedArticles.toStore shelvedArticle
  obtain ⟨-, pushedDown, -, -, offlineListsAs⟩ :=
    surfaces_errors decadeQuery (Store.failing "Article" ⟨"offline"⟩)
      shelvedArticle
  obtain ⟨-, refusal, -, fallsBack⟩ := refused ⟨["year"], .ranges⟩ rfl
  have fetched :
      undatedArticles.toStore.fetch .everything =
        .ok ([[("year", .integer 1995)]] ++ ([] : Record) :: []) :=
    rfl
  have firstAnswered :
      ∀ earlier ∈ ([[("year", .integer 1995)]] : List Record),
        ∃ answer, decadeQuery.permitsResource earlier = .ok answer :=
    List.forall_mem_singleton.mpr ⟨true, rfl⟩
  have undated :
      inMemory.accessible decadeQuery undatedArticles.toStore =
        .error (.attributeRead (.missing "year")) :=
    (listsAs _ rfl _).mpr (.notRead fetched firstAnswered rfl)
  refine ⟨refusal, fallsBack.trans undated, ?_, ?_⟩
  · exact ((pushedDown _ true rfl).1 _).mpr ⟨_, _, rfl, rfl, rfl⟩
  · exact (offlineListsAs _ rfl _).mpr (.notFetched rfl)

end Permission
