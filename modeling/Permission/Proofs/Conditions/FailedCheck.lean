import Permission.Proofs.Conditions.Agreement

namespace Permission

/-!
# Filters where the check fails

A filter takes a read that fails for an absent field, and no predicate that
conditions are translated to holds of an absent field.  So a filter turns down
what the check fails on, with one exception: in a list it goes past the element
that the check fails at and may accept a later one.
-/

/-- No requirement becomes a predicate that an absent field passes. -/
theorem Requirement.evaluate_toPredicate_none
    (requirement : Requirement) :
    requirement.toPredicate.evaluate none = false := by
  cases requirement with
  | equalTo expected =>
      rfl
  | memberOf membership =>
      cases membership <;> rfl
  | nested conditions =>
      rfl

namespace Conditions

/--
The values to which a check of a resource may put conditions nested in others:
those of the attributes that have nested requirements, and further those that
are reached in this way from their targets.
-/
inductive Reaches :
    Conditions → Attributes → Conditions → Value → Prop where
  | direct
      {conditions nested : Conditions}
      {attributes : Attributes}
      {name : String}
      {value : Value}
      (entry : (name, .nested nested) ∈ conditions)
      (read : attributes name = .ok value) :
      Reaches conditions attributes nested value
  | through
      {conditions outer nested : Conditions}
      {attributes : Attributes}
      {name : String}
      {holder target value : Value}
      (entry : (name, .nested outer) ∈ conditions)
      (read : attributes name = .ok holder)
      (member : target ∈ holder.targets)
      (inner : Reaches outer target.attributes nested value) :
      Reaches conditions attributes nested value

/--
Put to a list, conditions fail at one element while their filter passes one
behind it.
-/
def PassesOver
    (conditions : Conditions)
    (error : AttributeError)
    (elements : List Value) :
    Prop :=
  ∃ before failing after, elements = before ++ failing :: after ∧
    conditions.check failing.attributes = .error error ∧
    ∃ later ∈ after, conditions.toFilter.evaluate later.attributes = true

theorem PassesOver.two_le_length
    {conditions : Conditions}
    {error : AttributeError}
    {elements : List Value}
    (passesOver : conditions.PassesOver error elements) :
    2 ≤ elements.length := by
  obtain ⟨before, failing, after, shape, -, later, member, -⟩ := passesOver
  have nonempty : 0 < after.length :=
    List.length_pos_of_mem member
  rw [shape, List.length_append, List.length_cons]
  omega

/--
Where the check fails and the filter accepts nevertheless, a list was reached
whose failing element the filter passes over.
-/
theorem exists_passesOver_of_check_error
    (conditions : Conditions)
    {attributes : Attributes}
    {error : AttributeError}
    (failed : conditions.check attributes = .error error)
    (accepted : conditions.toFilter.evaluate attributes = true) :
    ∃ nested elements, conditions.Reaches attributes nested (.list elements) ∧
      nested.PassesOver error elements := by
  induction conditions using Conditions.inductionOn generalizing attributes with
  | step conditions inductionHypothesis =>
      rw [check_eq_allM, List.allM_eq_iff_of_ne (by simp)] at failed
      obtain ⟨earlier, ⟨name, requirement⟩, rest, shape, -, entryFailed⟩ := failed
      have entry : (name, requirement) ∈ conditions := by
        simp [shape]
      have passed :
          requirement.toPredicate.evaluate (attributes name).toOption = true := by
        rw [evaluate_toFilter, List.all_eq_true] at accepted
        exact accepted (name, requirement) entry
      rcases checkEntry_eq_error_iff.mp entryFailed with
          readFailed | ⟨value, read, valueFailed⟩
      · have absent : (attributes name).toOption = none := by
          rw [readFailed]
          rfl
        rw [absent, Requirement.evaluate_toPredicate_none] at passed
        cases passed
      · obtain ⟨nested, before, failing, after, rfl, targets, turnedDown, failed⟩ :=
          Requirement.check_eq_error_iff.mp valueFailed
        have found :
            (value.targets.any fun target =>
              nested.toFilter.evaluate target.attributes) = true := by
          rw [toOption_of_read read] at passed
          rw [← Predicate.evaluate_embedded_some]
          exact passed
        obtain ⟨target, member, targetAccepted⟩ := List.any_eq_true.mp found
        rw [targets] at member
        rcases List.mem_append.mp member with inBefore | inRest
        · -- What the check turned down, the filter turns down as well.
          have rejected :=
            evaluate_toFilter_of_check (turnedDown target inBefore)
          rw [rejected] at targetAccepted
          cases targetAccepted
        · rcases List.mem_cons.mp inRest with rfl | inAfter
          · obtain ⟨inner, elements, reached, passesOver⟩ :=
              inductionHypothesis name nested entry failed targetAccepted
            have isTarget : target ∈ value.targets := by
              simp [targets]
            exact
              ⟨inner, elements, .through entry read isTarget reached, passesOver⟩
          · have several : 2 ≤ value.targets.length := by
              have nonempty : 0 < after.length :=
                List.length_pos_of_mem inAfter
              rw [targets, List.length_append, List.length_cons]
              omega
            obtain ⟨elements, rfl⟩ := Value.eq_list_of_two_le several
            exact
              ⟨nested, elements, .direct entry read,
                before, failing, after, targets, failed,
                target, inAfter, targetAccepted⟩

end Conditions

namespace Compiled

variable {ρ : Type} [Resource ρ]

/--
What compiled conditions select is no resource that their check fails on, unless
nested conditions were put to a list of two or more elements.  If a resource is
selected nevertheless, the failing element of such a list has been passed over.
-/
theorem not_selects_of_holdFor_error
    {capabilities : Capabilities}
    {conditions : Conditions}
    {compiled : Compiled}
    {resource : ρ}
    {error : AttributeError}
    (compiles : compile capabilities (some conditions) = .ok compiled)
    (failed : conditions.holdFor resource = .error error) :
    ((∀ nested elements,
        conditions.Reaches (Resource.attributes resource) nested (.list elements) →
          elements.length < 2) →
      compiled.selects resource = false) ∧
    (compiled.selects resource = true →
      ∃ nested elements,
        conditions.Reaches (Resource.attributes resource) nested (.list elements) ∧
          2 ≤ elements.length ∧ nested.PassesOver error elements) := by
  have exception :
      compiled.selects resource = true →
        ∃ nested elements,
          conditions.Reaches (Resource.attributes resource) nested
              (.list elements) ∧
            2 ≤ elements.length ∧ nested.PassesOver error elements := by
    intro selected
    have accepted :
        conditions.toFilter.evaluate (Resource.attributes resource) = true := by
      rw [← evaluate_of_compile_eq_ok compiles]
      exact selected
    obtain ⟨nested, elements, reached, passesOver⟩ :=
      conditions.exists_passesOver_of_check_error failed accepted
    exact ⟨nested, elements, reached, passesOver.two_le_length, passesOver⟩
  refine ⟨?_, exception⟩
  intro short
  cases selected : compiled.selects resource with
  | false =>
      rfl
  | true =>
      obtain ⟨nested, elements, reached, several, -⟩ := exception selected
      have bounded := short nested elements reached
      omega

/-- Conditions on an author: one of the teams has a name. -/
def teamConditions : Conditions :=
  [("active", .equalTo (.boolean true)),
    ("teams", .nested [("name", .equalTo (.string "core"))])]

/-- An author of teams that are given by their attributes. -/
def authorOfTeams
    (teams : List Record) :
    Record :=
  [("active", .boolean true), ("teams", .list (teams.map .record))]

theorem not_selects_of_holdFor_error_author :
    (Compiled.native teamConditions.toFilter).selects (authorOfTeams [[]]) = false ∧
      ∃ nested elements,
        teamConditions.Reaches
            (authorOfTeams [[], [("name", .string "core")]]).attributes
            nested (.list elements) ∧
          2 ≤ elements.length ∧
          nested.PassesOver (.missing "name") elements := by
  have compiles :
      compile .full (some teamConditions) = .ok (.native teamConditions.toFilter) :=
    rfl
  have failsAlone :
      teamConditions.holdFor (authorOfTeams [[]]) = .error (.missing "name") :=
    rfl
  have failsFirst :
      teamConditions.holdFor (authorOfTeams [[], [("name", .string "core")]]) =
        .error (.missing "name") :=
    rfl
  have onlyTeams :
      ∀ name nested, (name, .nested nested) ∈ teamConditions →
        name = "teams" ∧ nested = [("name", .equalTo (.string "core"))] := by
    intro name nested entry
    simpa [teamConditions] using entry
  refine ⟨(not_selects_of_holdFor_error compiles failsAlone).1 ?_,
    (not_selects_of_holdFor_error compiles failsFirst).2 rfl⟩
  intro nested elements reached
  cases reached with
  | direct entry read =>
      obtain ⟨rfl, rfl⟩ := onlyTeams _ _ entry
      cases read
      decide
  | through entry read member inner =>
      -- The conditions on a team nest no others.
      obtain ⟨rfl, rfl⟩ := onlyTeams _ _ entry
      cases inner with
      | direct entry read =>
          simp at entry
      | through entry read member inner =>
          simp at entry

end Compiled

end Permission
