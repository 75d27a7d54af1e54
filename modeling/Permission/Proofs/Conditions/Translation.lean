import Permission.Conditions.Compile
import Permission.Proofs.Conditions.Outcome
import Permission.Proofs.Failure

namespace Permission

/-!
# Conditions as filters

Where it does not refuse, compiling is a plain translation that depends neither
on capabilities nor on paths: each requirement becomes the predicate that says
the same.  What holds of this translation holds of every compiled filter.
-/

mutual

/-- The filter with one clause for each entry. -/
def Conditions.toFilter : Conditions → Filter
  | [] =>
      []
  | (name, requirement) :: rest =>
      (name, requirement.toPredicate) :: Conditions.toFilter rest

/-- The predicate that says what a requirement says. -/
def Requirement.toPredicate : Requirement → Predicate
  | .equalTo value =>
      .equalTo value
  | .memberOf (.set values) =>
      .oneOf values
  | .memberOf (.range range) =>
      .within range
  | .nested conditions =>
      .embedded (Conditions.toFilter conditions)

end

theorem Conditions.toFilter_eq_map
    (conditions : Conditions) :
    conditions.toFilter =
      conditions.map fun entry => (entry.1, entry.2.toPredicate) := by
  induction conditions with
  | nil =>
      rfl
  | cons entry rest inductionHypothesis =>
      rw [List.map_cons, ← inductionHypothesis]
      rfl

/-- A filter made from conditions is passed if every entry is. -/
theorem Conditions.evaluate_toFilter
    (conditions : Conditions)
    (attributes : Attributes) :
    conditions.toFilter.evaluate attributes =
      conditions.all fun entry =>
        entry.2.toPredicate.evaluate (attributes entry.1).toOption := by
  rw [Filter.evaluate_eq_all, toFilter_eq_map, List.all_map]
  rfl

/-- Entries that are translated as predicates make conditions a filter. -/
private theorem Conditions.translate_eq_toFilter
    {capabilities : Capabilities}
    {conditions : Conditions}
    {path : List String}
    {filter : Filter}
    (entries :
      ∀ entry ∈ conditions, ∀ path predicate,
        entry.2.translate capabilities path = .ok predicate →
          predicate = entry.2.toPredicate)
    (translated : conditions.translate capabilities path = .ok filter) :
    filter = conditions.toFilter := by
  induction conditions generalizing filter with
  | nil =>
      exact (Except.ok.inj translated).symm
  | cons entry rest inductionHypothesis =>
      obtain ⟨name, requirement⟩ := entry
      unfold Conditions.translate at translated
      obtain ⟨predicate, first, others⟩ := Except.bind_eq_ok_iff.mp translated
      obtain ⟨clauses, later, shape⟩ := Except.bind_eq_ok_iff.mp others
      have firstShape : predicate = requirement.toPredicate :=
        entries (name, requirement) (by simp) _ _ first
      have laterShape : clauses = Conditions.toFilter rest :=
        inductionHypothesis
          (fun other member => entries other (List.mem_cons_of_mem _ member))
          later
      rw [← Except.pure_eq_ok_iff.mp shape, firstShape, laterShape]
      rfl

/-- A requirement that is not refused is translated as its predicate. -/
theorem Requirement.translate_eq_toPredicate
    {capabilities : Capabilities}
    (requirement : Requirement)
    (path : List String)
    (predicate : Predicate)
    (translated : requirement.translate capabilities path = .ok predicate) :
    predicate = requirement.toPredicate := by
  induction requirement using Requirement.inductionOn
      generalizing path predicate with
  | equalTo value =>
      exact (Except.ok.inj translated).symm
  | memberOf membership =>
      cases membership with
      | set values =>
          exact (Except.ok.inj translated).symm
      | range range =>
          unfold Requirement.translate at translated
          split at translated
          · exact (Except.ok.inj translated).symm
          · cases translated
  | nested conditions inductionHypothesis =>
      unfold Requirement.translate at translated
      split at translated
      · cases translated
      · split at translated
        · cases translated
        · obtain ⟨filter, inner, rfl⟩ := Except.map_eq_ok_iff.mp translated
          rw [Conditions.translate_eq_toFilter inductionHypothesis inner]
          rfl

/-- Compiling empty conditions selects everything, others their filter. -/
theorem compile_some_eq_ok
    {capabilities : Capabilities}
    {conditions : Conditions}
    {compiled : Compiled}
    (compiles : compile capabilities (some conditions) = .ok compiled) :
    (conditions = [] ∧ compiled = .everything) ∨
      (conditions ≠ [] ∧ compiled = .native conditions.toFilter) := by
  cases conditions with
  | nil =>
      exact Or.inl ⟨rfl, (Except.ok.inj compiles).symm⟩
  | cons entry rest =>
      refine Or.inr ⟨List.cons_ne_nil entry rest, ?_⟩
      obtain ⟨filter, translated, rfl⟩ := Except.map_eq_ok_iff.mp compiles
      exact congrArg Compiled.native <|
        Conditions.translate_eq_toFilter
          (fun entry _ => entry.2.translate_eq_toPredicate) translated

/-- What conditions compile to selects what their filter selects. -/
theorem evaluate_of_compile_eq_ok
    {capabilities : Capabilities}
    {conditions : Conditions}
    {compiled : Compiled}
    (compiles : compile capabilities (some conditions) = .ok compiled)
    (attributes : Attributes) :
    compiled.evaluate attributes = conditions.toFilter.evaluate attributes := by
  rcases compile_some_eq_ok compiles with ⟨rfl, rfl⟩ | ⟨-, rfl⟩
  · rfl
  · rfl

end Permission
