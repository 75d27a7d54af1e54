import Permission.Proofs.Conditions.Order
import Permission.Proofs.Conditions.Translation
import Permission.Proofs.Place

namespace Permission

/-!
# Obstacles to compiling

Conditions cannot be compiled if a requirement anywhere in them asks for what the
store cannot execute, or is one that no filter says.  Compiling refuses exactly
then, and reports the first such requirement: the attributes come in the order of
their names, and each one before those nested in it.  A store with more features
compiles no fewer conditions, and to the same filters.
-/

namespace Obstacle

/-- The words that belong to each obstacle. -/
inductive IsWorded : Obstacle → String → Prop where
  | ranges :
      IsWorded .ranges "store does not support range predicates"
  | embedded :
      IsWorded .embedded "store does not support matching embedded records"
  | emptyNested :
      IsWorded .emptyNested
        "empty nested conditions depend on whether the attribute is a collection"

theorem isWorded_reason
    (obstacle : Obstacle) :
    obstacle.IsWorded obstacle.reason := by
  cases obstacle with
  | ranges =>
      exact .ranges
  | embedded =>
      exact .embedded
  | emptyNested =>
      exact .emptyNested

end Obstacle

namespace Capabilities

/--
A requirement that cannot be compiled, and why.  Nested conditions meet the lack of
the feature first, even if they are empty.
-/
inductive Refuses
    (capabilities : Capabilities) :
    Requirement → Obstacle → Prop where
  | ranges
      (missing : capabilities.ranges = false)
      (range : ValueRange) :
      Refuses capabilities (.memberOf (.range range)) .ranges
  | embedded
      (missing : capabilities.embedded = false)
      (conditions : Conditions) :
      Refuses capabilities (.nested conditions) .embedded
  | emptyNested
      (available : capabilities.embedded = true) :
      Refuses capabilities (.nested []) .emptyNested

/-- Each feature of the first store is one of the second store too. -/
structure Within
    (narrower wider : Capabilities) :
    Prop where
  ranges : narrower.ranges = true → wider.ranges = true
  embedded : narrower.embedded = true → wider.embedded = true

/-- Empty nested conditions are refused one way or the other. -/
theorem exists_refuses_emptyNested
    (capabilities : Capabilities) :
    ∃ obstacle, capabilities.Refuses (.nested []) obstacle := by
  cases own : capabilities.embedded with
  | false =>
      exact ⟨.embedded, .embedded own []⟩
  | true =>
      exact ⟨.emptyNested, .emptyNested own⟩

/-- What a store refuses is refused by each store with fewer features. -/
theorem Within.exists_refuses
    {narrower wider : Capabilities}
    (within : narrower.Within wider)
    {requirement : Requirement}
    {obstacle : Obstacle}
    (refuses : wider.Refuses requirement obstacle) :
    ∃ other, narrower.Refuses requirement other := by
  cases refuses with
  | ranges missing range =>
      refine ⟨.ranges, .ranges ?_ range⟩
      exact Bool.eq_false_iff.mpr fun available =>
        Bool.eq_false_iff.mp missing (within.ranges available)
  | embedded missing conditions =>
      refine ⟨.embedded, .embedded ?_ conditions⟩
      exact Bool.eq_false_iff.mpr fun available =>
        Bool.eq_false_iff.mp missing (within.embedded available)
  | emptyNested _ =>
      exact narrower.exists_refuses_emptyNested

end Capabilities

namespace Conditions

/-- A requirement at a place in conditions cannot be compiled. -/
def HasObstacle
    (capabilities : Capabilities)
    (conditions : Conditions)
    (path : List String)
    (obstacle : Obstacle) :
    Prop :=
  NameMap.HasFailure Requirement.inner capabilities.Refuses conditions path obstacle

/-- A requirement cannot be compiled, and none can before it. -/
def FirstObstacle
    (capabilities : Capabilities)
    (conditions : Conditions)
    (path : List String)
    (obstacle : Obstacle) :
    Prop :=
  NameMap.FirstFailure Requirement.inner capabilities.Refuses conditions path obstacle

/-- Wherever conditions are in order, what is nested there is too. -/
theorem InOrder.ordered_inner
    {conditions : Conditions}
    (inOrder : conditions.InOrder)
    (path : List String)
    (requirement : Requirement)
    (place : NameMap.HasNode Requirement.inner conditions path requirement) :
    NameMap.Ordered requirement.inner := by
  have requirementInOrder : requirement.InOrder := by
    refine place.inherits inOrder.2 ?_
    intro holder holderInOrder
    exact (Requirement.inOrder_iff.mp holderInOrder).2
  exact (Requirement.inOrder_iff.mp requirementInOrder).1.1

/-- Conditions are translated by a walk if each of their requirements is. -/
private theorem translate_outcome_of_entries
    {capabilities : Capabilities}
    {conditions : Conditions}
    (entries :
      ∀ entry ∈ conditions, ∀ path,
        NameMap.Outcome Requirement.inner capabilities.Refuses CompileError.mk path
          [entry] (entry.2.translate capabilities (path ++ [entry.1])))
    (path : List String) :
    NameMap.Outcome Requirement.inner capabilities.Refuses CompileError.mk path
      conditions (conditions.translate capabilities path) := by
  induction conditions with
  | nil =>
      exact .passes NameMap.clear_nil []
  | cons entry rest inductionHypothesis =>
      obtain ⟨name, requirement⟩ := entry
      obtain ⟨ofFirst, ofRest⟩ := List.forall_mem_cons.mp entries
      exact (ofFirst path).cons (inductionHypothesis ofRest)
        fun predicate clauses => (name, predicate) :: clauses

end Conditions

/-- The translation of a requirement is a walk that stops where one is refused. -/
theorem Requirement.translate_outcome
    (capabilities : Capabilities)
    (requirement : Requirement)
    (name : String)
    (path : List String) :
    NameMap.Outcome Requirement.inner capabilities.Refuses CompileError.mk path
      [(name, requirement)]
      (requirement.translate capabilities (path ++ [name])) := by
  induction requirement using Requirement.inductionOn generalizing name path with
  | equalTo value =>
      exact .leaf nofun rfl _
  | memberOf membership =>
      cases membership with
      | set values =>
          exact .leaf nofun rfl _
      | range range =>
          unfold translate
          split
          · rename_i available
            refine .leaf ?_ rfl _
            intro obstacle refuses
            cases refuses with
            | ranges missing =>
                exact Bool.false_ne_true (missing.symm.trans available)
          · rename_i missing
            exact .failing (.ranges (Bool.eq_false_iff.mpr missing) range)
  | nested conditions inductionHypothesis =>
      -- The feature is asked for before the conditions are looked at.
      unfold translate
      cases available : capabilities.embedded with
      | false =>
          exact .failing (.embedded available conditions)
      | true =>
          cases conditions with
          | nil =>
              exact .failing (.emptyNested available)
          | cons entry rest =>
              refine .holder ?_ ?_ _
              · intro obstacle refuses
                cases refuses with
                | embedded missing =>
                    exact Bool.false_ne_true (missing.symm.trans available)
              · exact Conditions.translate_outcome_of_entries
                  (fun entry member => inductionHypothesis entry member entry.1) _

/-- All stores that compile conditions compile them to the same. -/
theorem compile_unique
    {capabilities other : Capabilities}
    {conditions : Conditions}
    {compiled otherCompiled : Compiled}
    (compiles : compile capabilities (some conditions) = .ok compiled)
    (otherCompiles : compile other (some conditions) = .ok otherCompiled) :
    compiled = otherCompiled := by
  rcases compile_some_eq_ok compiles with ⟨isEmpty, rfl⟩ | ⟨notEmpty, rfl⟩
  · rcases compile_some_eq_ok otherCompiles with ⟨-, rfl⟩ | ⟨notEmpty, -⟩
    · rfl
    · exact absurd isEmpty notEmpty
  · rcases compile_some_eq_ok otherCompiles with ⟨isEmpty, -⟩ | ⟨-, rfl⟩
    · exact absurd isEmpty notEmpty
    · rfl

/-- Compiling is a walk over the conditions that stops where one is refused. -/
theorem compile_outcome
    (capabilities : Capabilities)
    (conditions : Conditions) :
    NameMap.Outcome Requirement.inner capabilities.Refuses CompileError.mk []
      conditions (compile capabilities (some conditions)) := by
  cases conditions with
  | nil =>
      exact .passes NameMap.clear_nil Compiled.everything
  | cons entry rest =>
      refine NameMap.Outcome.map ?_ Compiled.native
      exact Conditions.translate_outcome_of_entries
        (fun entry _ => entry.2.translate_outcome capabilities entry.1) []

/--
Conditions fail to compile exactly if a requirement at some place in them cannot
be compiled, and the error names the first one: where it stands and what stands in
its way, both of them in words as well.  A store with more features compiles what one with fewer does, and all
that compile the conditions compile them to the same.
-/
theorem compile_refuses_at_first_obstacle
    (capabilities : Capabilities)
    (conditions : Conditions)
    (inOrder : conditions.InOrder) :
    ((∃ error, compile capabilities (some conditions) = .error error) ↔
      ∃ path obstacle, conditions.HasObstacle capabilities path obstacle) ∧
    (∀ error, compile capabilities (some conditions) = .error error →
      conditions.FirstObstacle capabilities error.path error.obstacle ∧
        error.pathText = ".".intercalate error.path ∧
        error.obstacle.IsWorded error.reason ∧
        error.message =
          "Condition on " ++ Text.quote (".".intercalate error.path) ++
            " cannot be expressed as a store filter: " ++ error.obstacle.reason) ∧
    (∀ wider compiled, capabilities.Within wider →
      compile capabilities (some conditions) = .ok compiled →
        compile wider (some conditions) = .ok compiled) ∧
    (∀ other compiled otherCompiled,
      compile capabilities (some conditions) = .ok compiled →
        compile other (some conditions) = .ok otherCompiled →
          compiled = otherCompiled) := by
  refine ⟨?_, ?_, ?_, ?_⟩
  · exact (compile_outcome capabilities conditions).exists_error_iff
  · intro error refused
    have comesTo := compile_outcome capabilities conditions
    rw [refused] at comesTo
    obtain ⟨path, obstacle, first, rfl⟩ :=
      comesTo.exists_firstFailure inOrder.1 inOrder.ordered_inner
    exact ⟨first, rfl, Obstacle.isWorded_reason obstacle, rfl⟩
  · intro wider compiled within compiles
    have clear :=
      (compile_outcome capabilities conditions).exists_ok_iff.mp ⟨compiled, compiles⟩
    have widerClear :
        NameMap.Clear Requirement.inner wider.Refuses conditions := by
      rintro path obstacle ⟨requirement, place, refuses⟩
      obtain ⟨other, refusesToo⟩ := within.exists_refuses refuses
      exact clear path other ⟨requirement, place, refusesToo⟩
    obtain ⟨widerCompiled, widerCompiles⟩ :=
      (compile_outcome wider conditions).exists_ok_iff.mpr widerClear
    rw [widerCompiles, compile_unique compiles widerCompiles]
  · intro other compiled otherCompiled compiles otherCompiles
    exact compile_unique compiles otherCompiles

/-- An author with a rank of whom nothing is asked, and a score in a range. -/
def gradedConditions : Conditions :=
  [("author", .nested [("rank", .nested [])]),
    ("score", .memberOf (.range ⟨.integer 1, .integer 5, false⟩))]

theorem gradedConditions_inOrder :
    gradedConditions.InOrder := by
  have ascending : List.Pairwise (· < ·) ["author", "score"] := by
    decide
  have rankInOrder : Conditions.InOrder [("rank", .nested [])] :=
    ⟨List.pairwise_singleton _ _,
      List.forall_mem_singleton.mpr
        (Requirement.inOrder_nested_iff.mpr ⟨.nil, nofun⟩)⟩
  refine ⟨ascending, ?_⟩
  simp only [gradedConditions, List.forall_mem_cons]
  refine ⟨Requirement.inOrder_nested_iff.mpr rankInOrder, ?_, nofun⟩
  exact Requirement.inOrder_range_iff.mpr
    ⟨Value.inOrder_of_kind nofun nofun, Value.inOrder_of_kind nofun nofun⟩

/-- Of two obstacles the one under the lesser name is reported, though it lies deeper. -/
theorem compile_refuses_at_first_obstacle_graded :
    gradedConditions.FirstObstacle ⟨false, true⟩ ["author", "rank"] .emptyNested ∧
      gradedConditions.FirstObstacle .minimal ["author"] .embedded ∧
      gradedConditions.HasObstacle ⟨false, true⟩ ["score"] .ranges := by
  have behindEmbedded :
      compile ⟨false, true⟩ (some gradedConditions) =
        .error ⟨["author", "rank"], .emptyNested⟩ :=
    rfl
  have withoutEmbedded :
      compile .minimal (some gradedConditions) = .error ⟨["author"], .embedded⟩ :=
    rfl
  obtain ⟨-, reported, -, -⟩ :=
    compile_refuses_at_first_obstacle ⟨false, true⟩ gradedConditions
      gradedConditions_inOrder
  obtain ⟨-, minimalReported, -, -⟩ :=
    compile_refuses_at_first_obstacle .minimal gradedConditions
      gradedConditions_inOrder
  refine ⟨(reported _ behindEmbedded).1, (minimalReported _ withoutEmbedded).1, ?_⟩
  exact ⟨_, .here (List.mem_cons_of_mem _ List.mem_cons_self), .ranges rfl _⟩

end Permission
