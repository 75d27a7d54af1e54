import Permission.Proofs.Elementwise
import Permission.Proofs.Enforcement.Listing

namespace Permission

/-!
# Attributes that no rule mentions

A decision rests on the attributes that the rule in effect names at its top level
and on the identities assigned to the records.  Two collections that agree on
these are treated alike: the same positions are listed, or listing fails for the
same reason, whatever else their records hold.
-/

/-- The same answer, a value or an error, to the reads of certain attributes. -/
def Attributes.AgreeOn
    (names : List String)
    (left right : Attributes) :
    Prop :=
  ∀ name ∈ names, left name = right name

/-- The attributes that the resolved conditions name at their top level. -/
def Query.attributeNames
    (query : Query) :
    List String :=
  query.conditions.elim [] NameMap.names

/-- The items at the positions that a mask marks. -/
def atMarks
    {α : Type}
    (mask : List Bool)
    (items : List α) :
    List α :=
  ((mask.zip items).filter Prod.fst).map Prod.snd

/-- The items that pass a test stand where the results of the test say so. -/
theorem atMarks_map
    {α β : Type}
    (test : α → Bool)
    (view : α → β)
    (items : List α) :
    atMarks (items.map test) (items.map view) = (items.filter test).map view := by
  unfold atMarks
  induction items with
  | nil =>
      rfl
  | cons item rest inductionHypothesis =>
      by_cases passes : test item = true <;>
        simp [passes, inductionHypothesis]

/--
Two listings fail for one reason, a read or the compilation, or both hold the
records at the same positions.
-/
inductive SameListing
    {ρ σ : Type}
    (left : List ρ)
    (right : List σ) :
    Except PolicyError (List ρ) → Except PolicyError (List σ) → Prop where
  | attributeRead
      (error : AttributeError) :
      SameListing left right (.error (.attributeRead error))
        (.error (.attributeRead error))
  | compile
      (error : CompileError) :
      SameListing left right (.error (.compile error)) (.error (.compile error))
  | listed
      (mask : List Bool) :
      SameListing left right (.ok (atMarks mask left)) (.ok (atMarks mask right))

/-! ## One record -/

section SingleRecord

variable {left right : Attributes}

/-- A check reads no attribute that the conditions do not name. -/
theorem Conditions.check_of_agreeOn
    {conditions : Conditions}
    (agree : left.AgreeOn conditions.names right) :
    conditions.check left = conditions.check right := by
  induction conditions with
  | nil =>
      rfl
  | cons entry rest inductionHypothesis =>
      obtain ⟨name, requirement⟩ := entry
      obtain ⟨first, later⟩ := List.forall_mem_cons.mp agree
      rw [check_cons, check_cons, first, inductionHypothesis later]

/-- Nor does the filter that the conditions are translated to. -/
theorem Conditions.evaluate_toFilter_of_agreeOn
    {conditions : Conditions}
    (agree : left.AgreeOn conditions.names right) :
    conditions.toFilter.evaluate left = conditions.toFilter.evaluate right := by
  induction conditions with
  | nil =>
      rfl
  | cons entry rest inductionHypothesis =>
      obtain ⟨name, requirement⟩ := entry
      obtain ⟨first, later⟩ := List.forall_mem_cons.mp agree
      unfold Conditions.toFilter
      rw [Filter.evaluate_cons, Filter.evaluate_cons, first,
        inductionHypothesis later]

/-- Under the same assigned identity reads agree as before. -/
theorem Attributes.AgreeOn.withIdentity
    {names : List String}
    (agree : left.AgreeOn names right)
    (identity : Identifier) :
    (left.withIdentity identity).AgreeOn names (right.withIdentity identity) := by
  intro name member
  unfold Attributes.withIdentity
  rw [agree name member]

namespace Query

variable {query : Query}

theorem check_of_agreeOn
    (agree : left.AgreeOn query.attributeNames right) :
    query.check left = query.check right := by
  unfold check
  unfold attributeNames at agree
  cases conditions : query.conditions with
  | none =>
      rfl
  | some requirements =>
      rw [conditions] at agree
      exact Conditions.check_of_agreeOn agree

/-- Lowering a denial mentions the identity, but does not let it decide. -/
theorem evaluate_of_agreeOn
    {capabilities : Capabilities}
    {compiled : Compiled}
    (compiles : query.compile capabilities = .ok compiled)
    (agree : left.AgreeOn query.attributeNames right) :
    compiled.evaluate left = compiled.evaluate right := by
  unfold compile at compiles
  unfold attributeNames at agree
  cases conditions : query.conditions with
  | none =>
      rw [conditions] at compiles
      cases compiles
      rfl
  | some requirements =>
      rw [conditions] at compiles agree
      rw [evaluate_of_compile_eq_ok compiles, evaluate_of_compile_eq_ok compiles]
      exact Conditions.evaluate_toFilter_of_agreeOn agree

end Query

end SingleRecord

/-! ## Collections -/

/-- Records under the same identities, which agree on attributes in pairs. -/
def Collection.AgreeOn
    {ρ σ : Type}
    [Resource ρ]
    [Resource σ]
    (names : List String)
    (left : Collection ρ)
    (right : Collection σ) :
    Prop :=
  List.Forall₂
    (fun entry other =>
      entry.1 = other.1 ∧
        (Resource.attributes entry.2).AgreeOn names (Resource.attributes other.2))
    left.entries right.entries

/-- What a filter selects stands where the entries pass it. -/
theorem Collection.select_eq_atMarks
    {ρ : Type}
    [Resource ρ]
    (collection : Collection ρ)
    (filter : Filter) :
    collection.select filter =
      atMarks (collection.entries.map fun entry => filter.evaluate (view entry))
        collection.records :=
  (atMarks_map _ Prod.snd collection.entries).symm

namespace Query

variable
  {ρ σ : Type}
  [Resource ρ]
  [Resource σ]
  {query : Query}

/-- Records are listed where their checks say so, if all checks have an answer. -/
theorem permittedAmong_eq_mapM
    (records : List ρ) :
    query.permittedAmong records =
      ((records.mapM query.permitsResource).map fun mask =>
        atMarks mask records).mapError .attributeRead := by
  induction records with
  | nil =>
      rfl
  | cons record rest inductionHypothesis =>
      unfold permittedAmong permitsInMemory
      rw [inductionHypothesis, List.mapM_cons]
      cases query.permitsResource record with
      | error error =>
          rfl
      | ok permitted =>
          cases rest.mapM query.permitsResource with
          | error error =>
              rfl
          | ok mask =>
              cases permitted <;> rfl

variable
  {left : Collection ρ}
  {right : Collection σ}
  (agree : left.AgreeOn query.attributeNames right)

include agree

theorem permitsResource_of_agreeOn :
    List.Forall₂
      (fun record other =>
        query.permitsResource record = query.permitsResource other)
      left.records right.records := by
  unfold Collection.records
  rw [List.forall₂_map_left_iff, List.forall₂_map_right_iff]
  refine agree.imp ?_
  rintro entry other ⟨-, sameReads⟩
  exact check_of_agreeOn sameReads

/-- What a store sees of the records is as alike as the records are. -/
theorem evaluate_view_of_agreeOn
    {capabilities : Capabilities}
    {compiled : Compiled}
    (compiles : query.compile capabilities = .ok compiled) :
    (left.entries.map fun entry =>
        compiled.lower.evaluate (Collection.view entry)) =
      right.entries.map fun entry =>
        compiled.lower.evaluate (Collection.view entry) := by
  refine List.map_eq_of_forall₂ (agree.imp ?_)
  rintro ⟨identity, record⟩ ⟨_, other⟩ ⟨rfl, sameReads⟩
  rw [Compiled.evaluate_lower, Compiled.evaluate_lower]
  exact evaluate_of_agreeOn compiles (sameReads.withIdentity identity)

variable [BEq ρ] [BEq σ]

/-- In memory the same read fails first, or the same positions are listed. -/
theorem accessibleInMemory_of_agreeOn :
    SameListing left.records right.records
      (query.accessibleInMemory left.toStore)
      (query.accessibleInMemory right.toStore) := by
  have sameAnswers :
      left.records.mapM query.permitsResource =
        right.records.mapM query.permitsResource :=
    List.mapM_eq_of_forall₂ (permitsResource_of_agreeOn agree)
  rw [accessibleInMemory_toStore, accessibleInMemory_toStore,
    permittedAmong_eq_mapM, permittedAmong_eq_mapM, sameAnswers]
  cases right.records.mapM query.permitsResource with
  | error error =>
      exact .attributeRead error
  | ok mask =>
      exact .listed mask

/-- Pushed down the same conditions are refused, or the same positions selected. -/
theorem accessiblePushedDown_of_agreeOn
    (sameCapabilities : left.capabilities = right.capabilities)
    (fallback : Bool) :
    SameListing left.records right.records
      (query.accessiblePushedDown fallback left.toStore)
      (query.accessiblePushedDown fallback right.toStore) := by
  unfold accessiblePushedDown
  rw [Collection.capabilities_toStore, Collection.capabilities_toStore,
    ← sameCapabilities]
  cases outcome : query.compile left.capabilities with
  | error error =>
      cases fallback with
      | false =>
          exact .compile error
      | true =>
          exact accessibleInMemory_of_agreeOn agree
  | ok compiled =>
      have leftSelected :
          left.toStore.fetch compiled =
            .ok (atMarks
              (left.entries.map fun entry =>
                compiled.lower.evaluate (Collection.view entry))
              left.records) :=
        congrArg Except.ok (left.select_eq_atMarks compiled.lower)
      have rightSelected :
          right.toStore.fetch compiled =
            .ok (atMarks
              (left.entries.map fun entry =>
                compiled.lower.evaluate (Collection.view entry))
              right.records) := by
        rw [evaluate_view_of_agreeOn agree outcome]
        exact congrArg Except.ok (right.select_eq_atMarks compiled.lower)
      dsimp only
      rw [leftSelected, rightSelected]
      exact .listed _

end Query

/--
Collections that agree on the assigned identities and on all attributes that the
resolved conditions name are listed alike, however they are enforced: listing
fails for both with one error of a read or of compilation, or lists the records
at the same positions.  Of the records at one position both are permitted, or
neither is, or both fail to be read in the same way.
-/
theorem Policy.accessible_of_agreeOn
    {π ρ σ : Type}
    [Arbiter π]
    [Resource ρ]
    [BEq ρ]
    [Resource σ]
    [BEq σ]
    (policy : Policy π)
    (action : Action)
    {left : Collection ρ}
    {right : Collection σ}
    (sameKind : left.kind = right.kind)
    (sameCapabilities : left.capabilities = right.capabilities)
    (agree :
      left.AgreeOn (policy.query action ⟨left.kind⟩).attributeNames right) :
    SameListing left.records right.records
      (policy.accessible action left.toStore)
      (policy.accessible action right.toStore) ∧
    List.Forall₂
      (fun record other =>
        policy.can action ⟨left.kind⟩ record =
          policy.can action ⟨right.kind⟩ other)
      left.records right.records := by
  have sameQuery :
      policy.query action ⟨right.kind⟩ = policy.query action ⟨left.kind⟩ := by
    rw [sameKind]
  refine ⟨?_, ?_⟩
  · have ofQuery :
        ∀ enforcement : Enforcement,
          SameListing left.records right.records
            (enforcement.accessible (policy.query action ⟨left.kind⟩)
              left.toStore)
            (enforcement.accessible (policy.query action ⟨right.kind⟩)
              right.toStore) := by
      intro enforcement
      rw [sameQuery]
      cases enforcement with
      | inMemory =>
          exact Query.accessibleInMemory_of_agreeOn agree
      | pushdown fallback =>
          exact
            Query.accessiblePushedDown_of_agreeOn agree sameCapabilities fallback
    exact ofQuery policy.enforcement
  · unfold can
    rw [sameQuery]
    exact Query.permitsResource_of_agreeOn agree

/-- Notes of one owner are for reading where they have an identity. -/
def noteRules : RuleSet :=
  RuleSet.empty.push <|
    .can .read ⟨"Note"⟩
      [("_id", .equalTo (.identifier (.ofNat 2))),
        ("owner", .equalTo (.integer 7))]

/-- Notes that hold what the rule asks for and no more. -/
def plainNotes : Collection Record :=
  (Collection.empty "Note").insertAll
    [(.ofNat 1, [("owner", .integer 7)]), (.ofNat 2, [("owner", .integer 7)])]

/-- The same notes as values, one of them with a text and a reader. -/
def annotatedNotes : Collection Value :=
  (Collection.empty "Note").insertAll
    [(.ofNat 1, .record [("owner", .integer 7), ("text", .string "secret")]),
      (.ofNat 2, .record [("owner", .integer 7), ("reader", .null)])]

theorem Policy.accessible_of_agreeOn_notes :
    Policy.accessible ⟨noteRules, .pushdown false⟩ .read plainNotes.toStore =
      .ok [[("owner", .integer 7)]] ∧
    SameListing plainNotes.records annotatedNotes.records
      (Policy.accessible ⟨noteRules, .pushdown false⟩ .read plainNotes.toStore)
      (Policy.accessible ⟨noteRules, .pushdown false⟩ .read
        annotatedNotes.toStore) ∧
    SameListing plainNotes.records annotatedNotes.records
      (.error (.attributeRead (.missing "_id")))
      (Policy.accessible ⟨noteRules, .inMemory⟩ .read annotatedNotes.toStore) := by
  have agree :
      plainNotes.AgreeOn (noteRules.query .read ⟨"Note"⟩).attributeNames
        annotatedNotes := by
    have names :
        (noteRules.query .read ⟨"Note"⟩).attributeNames = ["_id", "owner"] :=
      rfl
    rw [names]
    refine .cons ⟨rfl, ?_⟩ (.cons ⟨rfl, ?_⟩ .nil)
    all_goals
      intro name member
      rcases List.mem_cons.mp member with rfl | later
      · rfl
      · rw [List.mem_singleton.mp later]
        rfl
  have sameKind : plainNotes.kind = annotatedNotes.kind :=
    rfl
  have sameCapabilities :
      plainNotes.capabilities = annotatedNotes.capabilities :=
    rfl
  have pushedDown :=
    Policy.accessible_of_agreeOn ⟨noteRules, .pushdown false⟩ .read sameKind
      sameCapabilities agree
  have inMemory :=
    Policy.accessible_of_agreeOn ⟨noteRules, .inMemory⟩ .read sameKind
      sameCapabilities agree
  exact ⟨rfl, pushedDown.1, inMemory.1⟩

end Permission
