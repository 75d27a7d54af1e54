import Permission.Conditions.Check
import Permission.Filter
import Permission.Proofs.Failure
import Permission.Proofs.Search

namespace Permission

/-!
# Checks and filters as searches

Checking conditions is a search for an entry that is not met, and checking
nested ones is a search for a value that meets them: among the elements of a
list, and on any other value for the value alone.  With these values named once,
lists and single values need not be told apart later on, neither in checks nor
in filters.
-/

namespace Value

/-- The values of which nested conditions ask that one meets them. -/
def targets : Value → List Value
  | list elements =>
      elements
  | value =>
      [value]

@[simp] theorem targets_list
    (elements : List Value) :
    (list elements).targets = elements :=
  rfl

/-- Only a list has several targets. -/
theorem eq_list_of_two_le
    {value : Value}
    (several : 2 ≤ value.targets.length) :
    ∃ elements, value = list elements := by
  cases value with
  | list elements =>
      exact ⟨elements, rfl⟩
  | _ =>
      simp [targets] at several

end Value

namespace Requirement

/--
Induction over requirements: what holds of nested conditions may rest on all
the requirements in them.
-/
@[elab_as_elim]
theorem inductionOn
    {motive : Requirement → Prop}
    (equalTo : ∀ value, motive (.equalTo value))
    (memberOf : ∀ membership, motive (.memberOf membership))
    (nested :
      ∀ conditions : Conditions, (∀ entry ∈ conditions, motive entry.2) →
        motive (.nested conditions))
    (requirement : Requirement) :
    motive requirement := by
  refine @Requirement.rec motive (fun conditions => ∀ entry ∈ conditions, motive entry.2)
    (fun entry => motive entry.2) equalTo memberOf nested ?_ ?_ ?_ requirement
  · exact List.forall_mem_nil _
  · intro first rest ofFirst ofRest
    exact List.forall_mem_cons.mpr ⟨ofFirst, ofRest⟩
  · intro name inner ofInner
    exact ofInner

/-- Nested conditions look for a target that meets them. -/
theorem check_nested
    (conditions : Conditions)
    (value : Value) :
    check (.nested conditions) value =
      value.targets.anyM fun target => conditions.check target.attributes := by
  cases value with
  | list elements =>
      rfl
  | _ =>
      exact (List.anyM_singleton _).symm

/-- Only nested requirements fail, at the first target that is not turned down. -/
theorem check_eq_error_iff
    {requirement : Requirement}
    {value : Value}
    {error : AttributeError} :
    requirement.check value = .error error ↔
      ∃ (conditions : Conditions) (before : List Value) (failing : Value)
          (after : List Value),
        requirement = .nested conditions ∧
        value.targets = before ++ failing :: after ∧
        (∀ earlier ∈ before, conditions.check earlier.attributes = .ok false) ∧
        conditions.check failing.attributes = .error error := by
  cases requirement with
  | equalTo expected =>
      simp [check]
  | memberOf membership =>
      simp [check]
  | nested conditions =>
      rw [check_nested, List.anyM_eq_iff_of_ne (by simp)]
      constructor
      · rintro ⟨before, failing, after, shape, turnedDown, failed⟩
        exact ⟨conditions, before, failing, after, rfl, shape, turnedDown, failed⟩
      · rintro ⟨other, before, failing, after, same, shape, turnedDown, failed⟩
        cases same
        exact ⟨before, failing, after, shape, turnedDown, failed⟩

end Requirement

namespace Conditions

/--
Induction over conditions: what holds of them may rest on all the conditions
nested in one of their entries.
-/
@[elab_as_elim]
theorem inductionOn
    {motive : Conditions → Prop}
    (step :
      ∀ conditions : Conditions,
        (∀ name nested, (name, .nested nested) ∈ conditions → motive nested) →
          motive conditions)
    (conditions : Conditions) :
    motive conditions := by
  have ofNested :
      ∀ (requirement : Requirement) (nested : Conditions),
        requirement = .nested nested → motive nested := by
    intro requirement
    induction requirement using Requirement.inductionOn with
    | equalTo value =>
        intro nested shape
        cases shape
    | memberOf membership =>
        intro nested shape
        cases shape
    | nested inner inductionHypothesis =>
        intro nested shape
        cases shape
        exact step inner fun name deeper member =>
          inductionHypothesis (name, .nested deeper) member deeper rfl
  exact step conditions fun name nested _ => ofNested (.nested nested) nested rfl

/-- Reads the attribute of an entry and checks it. -/
def checkEntry
    (attributes : Attributes)
    (entry : String × Requirement) :
    Except AttributeError Bool :=
  attributes entry.1 >>= entry.2.check

theorem check_cons
    (name : String)
    (requirement : Requirement)
    (rest : Conditions)
    (attributes : Attributes) :
    check ((name, requirement) :: rest) attributes = do
      let value ← attributes name
      if ← requirement.check value then
        check rest attributes
      else
        return false :=
  rfl

/-- Checking conditions looks for an entry that is not met. -/
theorem check_eq_allM
    (conditions : Conditions)
    (attributes : Attributes) :
    conditions.check attributes = conditions.allM (checkEntry attributes) := by
  induction conditions with
  | nil =>
      rfl
  | cons entry rest inductionHypothesis =>
      obtain ⟨name, requirement⟩ := entry
      rw [check_cons, List.allM_cons, checkEntry, ← inductionHypothesis]
      cases attributes name with
      | error error =>
          rfl
      | ok value =>
          cases requirement.check value with
          | error error =>
              rfl
          | ok met =>
              cases met <;> rfl

theorem checkEntry_eq_ok_iff
    {attributes : Attributes}
    {entry : String × Requirement}
    {met : Bool} :
    checkEntry attributes entry = .ok met ↔
      ∃ value, attributes entry.1 = .ok value ∧ entry.2.check value = .ok met :=
  Except.bind_eq_ok_iff

theorem checkEntry_eq_error_iff
    {attributes : Attributes}
    {entry : String × Requirement}
    {error : AttributeError} :
    checkEntry attributes entry = .error error ↔
      attributes entry.1 = .error error ∨
        ∃ value, attributes entry.1 = .ok value ∧
          entry.2.check value = .error error :=
  Except.bind_eq_error_iff

end Conditions

/-- A filter on an embedded record or a list looks for a target that passes it. -/
theorem Predicate.evaluate_embedded_some
    (filter : Filter)
    (value : Value) :
    evaluate (.embedded filter) (some value) =
      value.targets.any fun target => filter.evaluate target.attributes := by
  cases value with
  | list elements =>
      rfl
  | _ =>
      exact (Bool.or_false _).symm

end Permission
