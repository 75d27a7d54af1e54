import Permission.Proofs.Conditions.Obstacle
import Permission.Proofs.NameMap

namespace Permission

/-!
# Conditions on different attributes

Conditions that name different attributes can be put together, and then ask for
all that either asks for.  A check of the union goes through the attributes of
both in the order of their names, so it may stop or fail where a check of neither
part would.  Still it is met exactly if both parts are, and what the union compiles
to selects what both compiled parts select.
-/

namespace Conditions

/-- The requirements of both; of two on one attribute, that of the second. -/
def union
    (first second : Conditions) :
    Conditions :=
  NameMap.insertAll first second

/-- A requirement of the union is one of the second part, or else of the first. -/
theorem find?_union
    {first second : Conditions}
    (secondOrdered : NameMap.Ordered second)
    (name : String) :
    NameMap.find? name (first.union second) =
      (NameMap.find? name second).or (NameMap.find? name first) :=
  NameMap.find?_insertAll secondOrdered

theorem ordered_union
    {first : Conditions}
    (firstOrdered : NameMap.Ordered first)
    (second : Conditions) :
    NameMap.Ordered (first.union second) :=
  NameMap.ordered_insertAll firstOrdered second

/-! ## Entry by entry -/

/-- Conditions compile if no requirement in any of their entries is refused. -/
theorem exists_compile_iff
    {capabilities : Capabilities}
    {conditions : Conditions} :
    (∃ compiled, compile capabilities (some conditions) = .ok compiled) ↔
      ∀ entry ∈ conditions,
        NameMap.Clear Requirement.inner capabilities.Refuses [entry] := by
  rw [(compile_outcome capabilities conditions).exists_ok_iff,
    NameMap.clear_iff_forall_mem]

section Disjoint

variable
  {first second : Conditions}
  (firstOrdered : NameMap.Ordered first)
  (secondOrdered : NameMap.Ordered second)
  (disjoint : first.names.Disjoint second.names)

include firstOrdered secondOrdered disjoint

/-- No requirement of either is lost, and none comes in. -/
theorem mem_union_iff
    {entry : String × Requirement} :
    entry ∈ first.union second ↔ entry ∈ first ∨ entry ∈ second := by
  obtain ⟨name, requirement⟩ := entry
  rw [(ordered_union firstOrdered second).mem_iff, firstOrdered.mem_iff,
    secondOrdered.mem_iff, find?_union secondOrdered]
  cases inSecond : NameMap.find? name second with
  | none =>
      simp
  | some other =>
      have named : name ∈ NameMap.names second :=
        NameMap.mem_names_iff.mpr ⟨other, inSecond⟩
      have notInFirst : NameMap.find? name first = none :=
        NameMap.find?_eq_none_iff.mpr fun inFirst => disjoint inFirst named
      simp [notInFirst]

theorem forall_mem_union_iff
    {property : String × Requirement → Prop} :
    (∀ entry ∈ first.union second, property entry) ↔
      (∀ entry ∈ first, property entry) ∧ ∀ entry ∈ second, property entry := by
  simp only [mem_union_iff firstOrdered secondOrdered disjoint, or_imp,
    forall_and]

/-- A check of the union is met where all reads are as both parts ask. -/
theorem check_union_iff
    {attributes : Attributes} :
    (first.union second).check attributes = .ok true ↔
      first.check attributes = .ok true ∧ second.check attributes = .ok true := by
  simp only [check_eq_allM, List.allM_eq_ok_true_iff]
  exact forall_mem_union_iff firstOrdered secondOrdered disjoint

theorem exists_compile_union_iff
    {capabilities : Capabilities} :
    (∃ compiled, compile capabilities (some (first.union second)) = .ok compiled) ↔
      (∃ compiled, compile capabilities (some first) = .ok compiled) ∧
        ∃ compiled, compile capabilities (some second) = .ok compiled := by
  simp only [exists_compile_iff]
  exact forall_mem_union_iff firstOrdered secondOrdered disjoint

theorem evaluate_toFilter_union
    (attributes : Attributes) :
    (first.union second).toFilter.evaluate attributes =
      (first.toFilter.evaluate attributes &&
        second.toFilter.evaluate attributes) := by
  rw [Bool.eq_iff_iff, Bool.and_eq_true]
  simp only [evaluate_toFilter, List.all_eq_true]
  exact forall_mem_union_iff firstOrdered secondOrdered disjoint

/-- The union selects what both parts select, whether or not one of them is empty. -/
theorem selects_union
    {ρ : Type}
    [Resource ρ]
    {capabilities : Capabilities}
    {ofUnion ofFirst ofSecond : Compiled}
    (unionCompiles :
      compile capabilities (some (first.union second)) = .ok ofUnion)
    (firstCompiles : compile capabilities (some first) = .ok ofFirst)
    (secondCompiles : compile capabilities (some second) = .ok ofSecond)
    (resource : ρ) :
    ofUnion.selects resource =
      (ofFirst.selects resource && ofSecond.selects resource) := by
  unfold Compiled.selects
  rw [evaluate_of_compile_eq_ok unionCompiles,
    evaluate_of_compile_eq_ok firstCompiles,
    evaluate_of_compile_eq_ok secondCompiles]
  exact evaluate_toFilter_union firstOrdered secondOrdered disjoint _

end Disjoint

/-! ## One more attribute -/

section OneMore

variable
  {conditions : Conditions}
  {name : String}
  (ordered : NameMap.Ordered conditions)
  (unnamed : name ∉ conditions.names)
  (requirement : Requirement)

/-- A requirement on one more attribute is a union with that requirement alone. -/
theorem insert_eq_union
    (conditions : Conditions) :
    conditions.insert name requirement = conditions.union [(name, requirement)] :=
  rfl

include ordered unnamed

theorem check_of_check_insert
    {attributes : Attributes}
    (met :
      Conditions.check (conditions.insert name requirement) attributes =
        .ok true) :
    conditions.check attributes = .ok true := by
  rw [insert_eq_union] at met
  have alone : NameMap.Ordered [(name, requirement)] :=
    NameMap.ordered_singleton _
  have disjoint : conditions.names.Disjoint [name] :=
    List.disjoint_singleton.mpr unnamed
  exact ((check_union_iff ordered alone disjoint).mp met).1

/-- Where one more requirement compiles, the others do, and select no less. -/
theorem exists_compile_of_compile_insert
    {ρ : Type}
    [Resource ρ]
    {capabilities : Capabilities}
    {extended : Compiled}
    (compiles :
      compile capabilities (some (conditions.insert name requirement)) =
        .ok extended) :
    ∃ compiled, compile capabilities (some conditions) = .ok compiled ∧
      ∀ resource : ρ, extended.selects resource = true →
        compiled.selects resource = true := by
  rw [insert_eq_union] at compiles
  have alone : NameMap.Ordered [(name, requirement)] :=
    NameMap.ordered_singleton _
  have disjoint : conditions.names.Disjoint [name] :=
    List.disjoint_singleton.mpr unnamed
  obtain ⟨⟨compiled, before⟩, ⟨ofNew, newCompiles⟩⟩ :=
    (exists_compile_union_iff ordered alone disjoint).mp ⟨extended, compiles⟩
  refine ⟨compiled, before, ?_⟩
  intro resource selected
  rw [selects_union ordered alone disjoint compiles before newCompiles,
    Bool.and_eq_true] at selected
  exact selected.1

end OneMore

/--
Conditions on different attributes are a conjunction.  Their union has the
requirements of both.  A check of it is met exactly if the checks of both are,
whichever reads fail, it compiles for a store exactly if both do, and then selects
what both select.  So one more requirement, on an attribute that was not named
before, admits no resource that was not admitted, in memory or in a store.
-/
theorem union_is_conjunction
    (ρ : Type)
    [Resource ρ]
    (first second : Conditions)
    (firstOrdered : NameMap.Ordered first)
    (secondOrdered : NameMap.Ordered second)
    (disjoint : first.names.Disjoint second.names) :
    (NameMap.Ordered (first.union second) ∧
      ∀ entry, entry ∈ first.union second ↔ entry ∈ first ∨ entry ∈ second) ∧
    (∀ resource : ρ,
      (first.union second).holdFor resource = .ok true ↔
        first.holdFor resource = .ok true ∧ second.holdFor resource = .ok true) ∧
    (∀ capabilities,
      (∃ compiled,
          compile capabilities (some (first.union second)) = .ok compiled) ↔
        (∃ compiled, compile capabilities (some first) = .ok compiled) ∧
          ∃ compiled, compile capabilities (some second) = .ok compiled) ∧
    (∀ capabilities ofUnion ofFirst ofSecond,
      compile capabilities (some (first.union second)) = .ok ofUnion →
      compile capabilities (some first) = .ok ofFirst →
      compile capabilities (some second) = .ok ofSecond →
        ∀ resource : ρ,
          ofUnion.selects resource =
            (ofFirst.selects resource && ofSecond.selects resource)) ∧
    (∀ name requirement, name ∉ first.names →
      (∀ resource : ρ,
        Conditions.holdFor (first.insert name requirement) resource = .ok true →
          first.holdFor resource = .ok true) ∧
      ∀ capabilities extended,
        compile capabilities (some (first.insert name requirement)) =
            .ok extended →
          ∃ compiled, compile capabilities (some first) = .ok compiled ∧
            ∀ resource : ρ, extended.selects resource = true →
              compiled.selects resource = true) := by
  refine ⟨⟨ordered_union firstOrdered second, ?_⟩, ?_, ?_, ?_, ?_⟩
  · intro entry
    exact mem_union_iff firstOrdered secondOrdered disjoint
  · intro resource
    exact check_union_iff firstOrdered secondOrdered disjoint
  · intro capabilities
    exact exists_compile_union_iff firstOrdered secondOrdered disjoint
  · intro capabilities ofUnion ofFirst ofSecond compiles ofFirstCompiles
      ofSecondCompiles
    exact selects_union firstOrdered secondOrdered disjoint compiles
      ofFirstCompiles ofSecondCompiles
  · intro name requirement unnamed
    constructor
    · intro resource
      exact check_of_check_insert firstOrdered unnamed requirement
    · intro capabilities extended
      exact exists_compile_of_compile_insert firstOrdered unnamed requirement

/-- Drafts of one owner. -/
def draftConditions : Conditions :=
  [("owner", .equalTo (.integer 42)),
    ("status", .memberOf (.set [.string "draft"]))]

/-- A label that is asked for, and a score in a range. -/
def labelConditions : Conditions :=
  [("labels", .nested [("name", .equalTo (.string "x"))]),
    ("score", .memberOf (.range ⟨.integer 1, .integer 5, true⟩))]

/-- A draft that can be read where the first conditions ask, but has no labels. -/
def unlabelledDraft : Record :=
  [("owner", .float ⟨0x4045000000000000⟩), ("score", .integer 3),
    ("status", .string "draft")]

theorem union_is_conjunction_draft :
    draftConditions.holdFor unlabelledDraft = .ok true ∧
      (draftConditions.union labelConditions).holdFor unlabelledDraft ≠ .ok true ∧
      (Compiled.native (draftConditions.union labelConditions).toFilter).selects
          unlabelledDraft =
        ((Compiled.native draftConditions.toFilter).selects unlabelledDraft &&
          (Compiled.native labelConditions.toFilter).selects unlabelledDraft) ∧
      (Compiled.native (union [] labelConditions).toFilter).selects unlabelledDraft =
        (Compiled.everything.selects unlabelledDraft &&
          (Compiled.native labelConditions.toFilter).selects unlabelledDraft) := by
  have draftOrdered : NameMap.Ordered draftConditions := by
    have ascending : List.Pairwise (· < ·) ["owner", "status"] := by
      decide
    exact ascending
  have labelOrdered : NameMap.Ordered labelConditions := by
    have ascending : List.Pairwise (· < ·) ["labels", "score"] := by
      decide
    exact ascending
  have disjoint : draftConditions.names.Disjoint labelConditions.names := by
    have apart : ∀ name ∈ ["owner", "status"], name ∉ ["labels", "score"] := by
      decide
    exact fun name => apart name
  obtain ⟨-, holdsIff, -, selects, -⟩ :=
    union_is_conjunction Record draftConditions labelConditions draftOrdered
      labelOrdered disjoint
  obtain ⟨-, -, -, selectsOfEmpty, -⟩ :=
    union_is_conjunction Record [] labelConditions .nil labelOrdered
      (List.disjoint_nil_left _)
  refine ⟨rfl, ?_, selects .full _ _ _ rfl rfl rfl _,
    selectsOfEmpty .full _ _ _ rfl rfl rfl _⟩
  intro met
  cases ((holdsIff unlabelledDraft).mp met).2

end Conditions

end Permission
