import Permission.Proofs.Conditions.Translation

namespace Permission

/-!
# Agreement of checks and filters

A check stops at the first requirement that is not met and fails at the first
read that does, while a filter looks at every clause and takes a failed read for
an absent field.  Wherever the check has an answer, the filter made from the
conditions gives it too: what the check did not look at cannot change it.
-/

/-- The answer to a read, as a filter sees it. -/
theorem toOption_of_read
    {attributes : Attributes}
    {name : String}
    {value : Value}
    (read : attributes name = .ok value) :
    (attributes name).toOption = some value := by
  rw [read]
  rfl

/-- Predicates that agree with their requirements make filters that agree. -/
private theorem Conditions.evaluate_toFilter_of_entries
    {conditions : Conditions}
    {attributes : Attributes}
    {met : Bool}
    (agrees :
      ∀ entry ∈ conditions, ∀ value met, entry.2.check value = .ok met →
        entry.2.toPredicate.evaluate (some value) = met)
    (checked : conditions.check attributes = .ok met) :
    conditions.toFilter.evaluate attributes = met := by
  rw [Conditions.check_eq_allM] at checked
  rw [Conditions.evaluate_toFilter]
  refine List.all_eq_of_allM_eq_ok ?_ checked
  intro entry member entryMet entryChecked
  obtain ⟨value, read, valueChecked⟩ :=
    Conditions.checkEntry_eq_ok_iff.mp entryChecked
  rw [toOption_of_read read]
  exact agrees entry member value entryMet valueChecked

/-- A requirement that a check decides is decided alike by its predicate. -/
theorem Requirement.evaluate_toPredicate_of_check
    (requirement : Requirement)
    (value : Value)
    (met : Bool)
    (checked : requirement.check value = .ok met) :
    requirement.toPredicate.evaluate (some value) = met := by
  induction requirement using Requirement.inductionOn generalizing value met with
  | equalTo expected =>
      exact Except.ok.inj checked
  | memberOf membership =>
      cases membership with
      | set values =>
          exact Except.ok.inj checked
      | range range =>
          exact Except.ok.inj checked
  | nested conditions inductionHypothesis =>
      rw [Requirement.check_nested] at checked
      have asFilter :
          (Requirement.nested conditions).toPredicate =
            .embedded conditions.toFilter :=
        rfl
      rw [asFilter, Predicate.evaluate_embedded_some]
      refine List.any_eq_of_anyM_eq_ok ?_ checked
      intro target _ targetMet targetChecked
      exact Conditions.evaluate_toFilter_of_entries inductionHypothesis targetChecked

/-- Conditions that a check decides are decided alike by their filter. -/
theorem Conditions.evaluate_toFilter_of_check
    {conditions : Conditions}
    {attributes : Attributes}
    {met : Bool}
    (checked : conditions.check attributes = .ok met) :
    conditions.toFilter.evaluate attributes = met :=
  Conditions.evaluate_toFilter_of_entries
    (fun entry _ => entry.2.evaluate_toPredicate_of_check) checked

namespace Compiled

variable {ρ : Type} [Resource ρ]

/--
If conditions compile and their check of a resource has an answer, that answer
says whether the compiled result selects the resource, lowered or not.
-/
theorem selects_of_holdFor
    {capabilities : Capabilities}
    {conditions : Conditions}
    {compiled : Compiled}
    {resource : ρ}
    {met : Bool}
    (compiles : compile capabilities (some conditions) = .ok compiled)
    (checked : conditions.holdFor resource = .ok met) :
    compiled.selects resource = met ∧ compiled.lower.accepts resource = met := by
  have evaluated : compiled.evaluate (Resource.attributes resource) = met := by
    rw [evaluate_of_compile_eq_ok compiles]
    exact Conditions.evaluate_toFilter_of_check checked
  refine ⟨evaluated, ?_⟩
  unfold Filter.accepts
  rw [evaluate_lower]
  exact evaluated

/-- Conditions on an article: the age of its author, its tags and its zones. -/
def articleConditions : Conditions :=
  [("author",
      .nested [("age", .memberOf (.range ⟨.integer 18, .integer 65, true⟩))]),
    ("tags", .nested [("name", .memberOf (.set [.string "x", .string "y"]))]),
    ("zones", .equalTo (.list []))]

/-- An article with a tag that is asked for, in front of one that cannot be read. -/
def taggedArticle : Record :=
  [("author", .record [("age", .float ⟨0x4044400000000000⟩)]),
    ("tags",
      .list [.record [("name", .string "z")], .record [("name", .string "y")], .null]),
    ("zones", .list [])]

/-- An article without tags, and without zones that could be read. -/
def untaggedArticle : Record :=
  [("author", .record [("age", .integer 18)]), ("tags", .list [])]

theorem selects_of_holdFor_article :
    (Compiled.native articleConditions.toFilter).selects taggedArticle = true ∧
      (Compiled.native articleConditions.toFilter).lower.accepts untaggedArticle =
        false := by
  have compiles :
      compile .full (some articleConditions) =
        .ok (.native articleConditions.toFilter) :=
    rfl
  have tagged : articleConditions.holdFor taggedArticle = .ok true :=
    rfl
  have untagged : articleConditions.holdFor untaggedArticle = .ok false :=
    rfl
  exact
    ⟨(selects_of_holdFor compiles tagged).1,
      (selects_of_holdFor compiles untagged).2⟩

end Compiled

end Permission
