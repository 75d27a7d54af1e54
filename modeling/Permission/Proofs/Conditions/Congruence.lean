import Permission.Query
import Permission.Proofs.Resource
import Permission.Proofs.Conditions.Outcome

namespace Permission

/-!
# Checks of equal resources

Checks compare what they read and nothing else, so resources that answer every
read alike are answered alike by every check: with the same answer, or with
errors of one sort about one attribute.
-/

section Searches

variable {α β : Type}

/-- Searches in equal lists have alike outcomes if the tests of equal elements do. -/
theorem AlikeOutcomes.anyM
    [BEq α]
    {left right : List α}
    {test : α → Except AttributeError Bool}
    (equal : (left == right) = true)
    (alike :
      ∀ item other, (item == other) = true →
        AlikeOutcomes Eq (test item) (test other)) :
    AlikeOutcomes Eq (left.anyM test) (right.anyM test) := by
  induction left generalizing right with
  | nil =>
      cases right with
      | nil =>
          rfl
      | cons other others =>
          cases equal
  | cons item rest inductionHypothesis =>
      cases right with
      | nil =>
          cases equal
      | cons other others =>
          rw [List.cons_beq_cons, Bool.and_eq_true] at equal
          rw [List.anyM_cons, List.anyM_cons]
          refine (alike item other equal.1).bind ?_
          rintro passed _ rfl
          cases passed with
          | false =>
              exact inductionHypothesis equal.2
          | true =>
              rfl

/-- Searches in one list have alike outcomes if both tests of each element do. -/
theorem AlikeOutcomes.allM
    {items : List α}
    {leftTest rightTest : α → Except AttributeError Bool}
    (alike :
      ∀ item ∈ items, AlikeOutcomes Eq (leftTest item) (rightTest item)) :
    AlikeOutcomes Eq (items.allM leftTest) (items.allM rightTest) := by
  induction items with
  | nil =>
      rfl
  | cons item rest inductionHypothesis =>
      rw [List.allM_cons, List.allM_cons]
      refine (alike item (by simp)).bind ?_
      rintro passed _ rfl
      cases passed with
      | false =>
          rfl
      | true =>
          exact inductionHypothesis fun later member =>
            alike later (List.mem_cons_of_mem item member)

end Searches

/-- Equal values have equal targets. -/
theorem Value.targets_beq
    {left right : Value}
    (equal : (left == right) = true) :
    (left.targets == right.targets) = true := by
  cases left with
  | list leftElements =>
      cases right with
      | list rightElements =>
          rw [Value.targets_list, Value.targets_list, ← Value.equalElements_eq_beq]
          exact equal
      | _ =>
          cases equal
  | _ =>
      cases right with
      | list rightElements =>
          cases equal
      | _ =>
          simp [Value.targets, equal]

theorem ValueRange.contains_congr
    {left right : Value}
    (equal : (left == right) = true)
    (range : ValueRange) :
    range.contains left = range.contains right := by
  unfold contains
  rw [Value.compare?_congr_left equal, Value.compare?_congr_right equal]

/-- Equal values are members of the same sets and ranges. -/
theorem Membership.contains_congr
    {left right : Value}
    (equal : (left == right) = true)
    (membership : Membership) :
    membership.contains left = membership.contains right := by
  cases membership with
  | set values =>
      unfold contains
      simp only [BEq.congr_right equal]
  | range range =>
      exact range.contains_congr equal

/-- Entries that treat equal values alike make conditions that do. -/
private theorem Conditions.check_alike_of_entries
    {conditions : Conditions}
    {left right : Attributes}
    (entries :
      ∀ entry ∈ conditions, ∀ leftValue rightValue,
        (leftValue == rightValue) = true →
          AlikeOutcomes Eq (entry.2.check leftValue) (entry.2.check rightValue))
    (alike : left.Alike right) :
    AlikeOutcomes Eq (conditions.check left) (conditions.check right) := by
  rw [check_eq_allM, check_eq_allM]
  refine AlikeOutcomes.allM ?_
  intro entry member
  exact (alike entry.1).bind (entries entry member)

/-- A requirement is met by equal values alike. -/
theorem Requirement.check_alike
    (requirement : Requirement)
    (left right : Value)
    (equal : (left == right) = true) :
    AlikeOutcomes Eq (requirement.check left) (requirement.check right) := by
  induction requirement using Requirement.inductionOn generalizing left right with
  | equalTo expected =>
      exact BEq.congr_left equal
  | memberOf membership =>
      exact membership.contains_congr equal
  | nested conditions inductionHypothesis =>
      rw [check_nested, check_nested]
      refine AlikeOutcomes.anyM (Value.targets_beq equal) ?_
      intro target other sameTarget
      exact Conditions.check_alike_of_entries inductionHypothesis
        (Value.attributes_alike sameTarget)

/-- Reads that are alike are checked alike. -/
theorem Conditions.check_alike
    {conditions : Conditions}
    {left right : Attributes}
    (alike : left.Alike right) :
    AlikeOutcomes Eq (conditions.check left) (conditions.check right) :=
  Conditions.check_alike_of_entries (fun entry _ => entry.2.check_alike) alike

/-- Equal resources are permitted alike. -/
theorem Query.permitsResource_alike
    {ρ : Type}
    [Resource ρ]
    [BEq ρ]
    [LawfulResource ρ]
    {query : Query}
    {left right : ρ}
    (equal : (left == right) = true) :
    AlikeOutcomes Eq (query.permitsResource left) (query.permitsResource right) := by
  unfold permitsResource check
  cases query.conditions with
  | none =>
      rfl
  | some conditions =>
      exact Conditions.check_alike (LawfulResource.attributes_alike equal)

end Permission
