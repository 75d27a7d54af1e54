import Permission.Proofs.Conditions.Obstacle

namespace Permission

/-!
# The shape of compiled filters

A filter that conditions compile to mirrors them: at every depth there is one
clause for each attribute, in the same order, and an embedded filter stands where
conditions are nested.  So no filter in it is empty, no field occurs twice, and it
makes no use of a feature that the store lacks.
-/

namespace Predicate

/-- The clauses that a predicate holds directly. -/
def inner : Predicate → Filter
  | embedded filter =>
      filter
  | _ =>
      []

/--
A predicate that the store can execute and that says what some requirement says:
none on the presence or on the kind of a field.
-/
inductive UsesOnly
    (capabilities : Capabilities) :
    Predicate → Prop where
  | equalTo
      (value : Value) :
      UsesOnly capabilities (.equalTo value)
  | oneOf
      (values : List Value) :
      UsesOnly capabilities (.oneOf values)
  | within
      (available : capabilities.ranges = true)
      (range : ValueRange) :
      UsesOnly capabilities (.within range)
  | embedded
      (available : capabilities.embedded = true)
      (filter : Filter) :
      UsesOnly capabilities (.embedded filter)

end Predicate

namespace Requirement

/-- The clauses in the predicate of a requirement are those of what is nested in it. -/
theorem inner_toPredicate
    (requirement : Requirement) :
    requirement.toPredicate.inner =
      requirement.inner.map fun entry => (entry.1, entry.2.toPredicate) := by
  cases requirement with
  | equalTo value =>
      rfl
  | memberOf membership =>
      cases membership with
      | set values =>
          rfl
      | range range =>
          rfl
  | nested conditions =>
      exact Conditions.toFilter_eq_map conditions

/-- Only nested conditions become an embedded filter. -/
theorem eq_nested_of_toPredicate
    {requirement : Requirement}
    {filter : Filter}
    (shape : requirement.toPredicate = .embedded filter) :
    ∃ conditions : Conditions,
      requirement = .nested conditions ∧ filter = conditions.toFilter := by
  cases requirement with
  | equalTo value =>
      cases shape
  | memberOf membership =>
      cases membership with
      | set values =>
          cases shape
      | range range =>
          cases shape
  | nested conditions =>
      exact ⟨conditions, rfl, (Predicate.embedded.inj shape).symm⟩

/-- The predicate of a requirement that is not refused can be executed. -/
theorem usesOnly_toPredicate
    {capabilities : Capabilities}
    {requirement : Requirement}
    (accepted : ∀ obstacle, ¬ capabilities.Refuses requirement obstacle) :
    requirement.toPredicate.UsesOnly capabilities := by
  cases requirement with
  | equalTo value =>
      exact .equalTo value
  | memberOf membership =>
      cases membership with
      | set values =>
          exact .oneOf values
      | range range =>
          refine .within (Bool.eq_true_of_not_eq_false ?_) range
          intro missing
          exact accepted .ranges (.ranges missing range)
  | nested conditions =>
      refine .embedded (Bool.eq_true_of_not_eq_false ?_) (Conditions.toFilter conditions)
      intro missing
      exact accepted .embedded (.embedded missing conditions)

end Requirement

namespace Filter

/--
A filter has one clause for each attribute of conditions, and at least one, in the
ascending order of the names.
-/
structure Covers
    (filter : Filter)
    (conditions : Conditions) :
    Prop where
  notEmpty : filter ≠ []
  sameNames : NameMap.names filter = NameMap.names conditions
  ascending : NameMap.Ordered filter

theorem covers_toFilter
    {conditions : Conditions}
    (notEmpty : conditions ≠ [])
    (ordered : NameMap.Ordered conditions) :
    conditions.toFilter.Covers conditions := by
  rw [Conditions.toFilter_eq_map]
  refine ⟨?_, ?_, ?_⟩
  · exact fun isEmpty => notEmpty (List.map_eq_nil_iff.mp isEmpty)
  · exact List.map_map
  · exact NameMap.ordered_map_iff.mpr ordered

/-- Each predicate in the filter of conditions says what the requirement there says. -/
theorem exists_requirement
    {conditions : Conditions}
    {path : List String}
    {predicate : Predicate}
    (place : NameMap.HasNode Predicate.inner conditions.toFilter path predicate) :
    ∃ requirement, NameMap.HasNode Requirement.inner conditions path requirement ∧
      predicate = requirement.toPredicate := by
  rw [Conditions.toFilter_eq_map] at place
  exact place.exists_of_map Requirement.inner_toPredicate

/--
The filter that conditions compile to has a clause for each of their attributes,
and so has each filter embedded in it for the conditions nested at the same place.
No predicate in it needs a feature that the store lacks, and none asks for the
presence or for the kind of a field.
-/
theorem covers_of_compile
    {capabilities : Capabilities}
    {conditions : Conditions}
    {filter : Filter}
    (inOrder : conditions.InOrder)
    (compiles : compile capabilities (some conditions) = .ok (.native filter)) :
    filter.Covers conditions ∧
    (∀ path inner,
      NameMap.HasNode Predicate.inner filter path (.embedded inner) →
        ∃ nested,
          NameMap.HasNode Requirement.inner conditions path (.nested nested) ∧
            Filter.Covers inner nested) ∧
    (∀ path predicate,
      NameMap.HasNode Predicate.inner filter path predicate →
        predicate.UsesOnly capabilities) := by
  have clear :=
    (compile_outcome capabilities conditions).exists_ok_iff.mp ⟨_, compiles⟩
  rcases compile_some_eq_ok compiles with ⟨-, isEverything⟩ | ⟨notEmpty, isNative⟩
  · cases isEverything
  · obtain rfl : filter = conditions.toFilter :=
      Compiled.native.inj isNative
    refine ⟨covers_toFilter notEmpty inOrder.1, ?_, ?_⟩
    · intro path inner place
      obtain ⟨requirement, source, shape⟩ := exists_requirement place
      obtain ⟨nested, rfl, rfl⟩ := Requirement.eq_nested_of_toPredicate shape.symm
      refine ⟨nested, source, covers_toFilter ?_ ?_⟩
      · rintro rfl
        obtain ⟨obstacle, refuses⟩ := capabilities.exists_refuses_emptyNested
        exact clear path obstacle ⟨.nested [], source, refuses⟩
      · exact inOrder.ordered_inner path (.nested nested) source
    · intro path predicate place
      obtain ⟨requirement, source, rfl⟩ := exists_requirement place
      exact Requirement.usesOnly_toPredicate fun obstacle refuses =>
        clear path obstacle ⟨requirement, source, refuses⟩

/-- Drafts and reviews whose author has a name, for a store without ranges. -/
def signedConditions : Conditions :=
  [("author", .nested [("name", .equalTo (.string "ana"))]),
    ("status", .memberOf (.set [.string "draft", .string "review"]))]

theorem signedConditions_inOrder :
    signedConditions.InOrder := by
  have ascending : List.Pairwise (· < ·) ["author", "status"] := by
    decide
  have text (value : String) : (Value.string value).InOrder :=
    Value.inOrder_of_kind nofun nofun
  refine ⟨ascending, ?_⟩
  simp only [signedConditions, List.forall_mem_cons]
  refine ⟨Requirement.inOrder_nested_iff.mpr ⟨List.pairwise_singleton _ _, ?_⟩, ?_, nofun⟩
  · exact List.forall_mem_singleton.mpr
      (Requirement.inOrder_equalTo_iff.mpr (text "ana"))
  · rw [Requirement.inOrder_set_iff]
    simp only [List.forall_mem_cons]
    exact ⟨text "draft", text "review", nofun⟩

theorem covers_of_compile_signed :
    signedConditions.toFilter.Covers signedConditions ∧
      (∃ nested,
        NameMap.HasNode Requirement.inner signedConditions ["author"]
            (.nested nested) ∧
          Filter.Covers [("name", .equalTo (.string "ana"))] nested) ∧
      (Predicate.embedded [("name", .equalTo (.string "ana"))]).UsesOnly
        ⟨false, true⟩ := by
  have compiles :
      compile ⟨false, true⟩ (some signedConditions) =
        .ok (.native signedConditions.toFilter) :=
    rfl
  obtain ⟨covers, embedded, usesOnly⟩ :=
    covers_of_compile signedConditions_inOrder compiles
  have author :
      NameMap.HasNode Predicate.inner signedConditions.toFilter ["author"]
        (.embedded [("name", .equalTo (.string "ana"))]) :=
    .here List.mem_cons_self
  exact ⟨covers, embedded _ _ author, usesOnly _ _ author⟩

end Filter

end Permission
