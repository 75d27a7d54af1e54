import Permission.Proofs.Conditions.Congruence
import Permission.Proofs.Conditions.Equality
import Permission.Proofs.Filter.Congruence

namespace Permission

/-!
# Equal conditions on equal resources

Conditions may be equal without being the same: a bound may be an integer in one
tree and the float of that size in the other.  No check can tell them apart, and
neither can compilation, which makes equal filters of them or refuses both at
one attribute for one reason.
-/

/-- Results that are equal, or the same reason why there is none. -/
def EqualOutcomes
    {α ε : Type}
    [BEq α] :
    Except ε α → Except ε α → Prop
  | .ok left, .ok right =>
      (left == right) = true
  | .error left, .error right =>
      left = right
  | _, _ =>
      False

namespace EqualOutcomes

variable {α β ε : Type} [BEq α] [BEq β] {left right : Except ε α}

/-- What goes on equally from equal results is equal. -/
theorem bind
    {leftNext rightNext : α → Except ε β}
    (first : EqualOutcomes left right)
    (next :
      ∀ leftResult rightResult, (leftResult == rightResult) = true →
        EqualOutcomes (leftNext leftResult) (rightNext rightResult)) :
    EqualOutcomes (left >>= leftNext) (right >>= rightNext) := by
  cases left with
  | error leftError =>
      cases right with
      | error rightError =>
          exact first
      | ok rightResult =>
          exact first.elim
  | ok leftResult =>
      cases right with
      | error rightError =>
          exact first.elim
      | ok rightResult =>
          exact next leftResult rightResult first

/-- A change that keeps results equal keeps outcomes equal. -/
theorem map
    {change : α → β}
    (outcomes : EqualOutcomes left right)
    (keeps :
      ∀ leftResult rightResult, (leftResult == rightResult) = true →
        (change leftResult == change rightResult) = true) :
    EqualOutcomes (left.map change) (right.map change) :=
  outcomes.bind keeps

end EqualOutcomes

namespace Requirement

/--
Induction over pairs of equal requirements: what is to hold of two equal nested
conditions may rest on their entries, which go by the same names in pairs.
-/
theorem beqInductionOn
    {motive : Requirement → Requirement → Prop}
    (equalTo :
      ∀ left right, (left == right) = true →
        motive (.equalTo left) (.equalTo right))
    (set :
      ∀ left right, (left == right) = true →
        motive (.memberOf (.set left)) (.memberOf (.set right)))
    (range :
      ∀ left right, (left == right) = true →
        motive (.memberOf (.range left)) (.memberOf (.range right)))
    (nested :
      ∀ left right : Conditions,
        List.Forall₂
            (fun entry other => entry.1 = other.1 ∧ motive entry.2 other.2)
            left right →
          motive (.nested left) (.nested right))
    (left right : Requirement)
    (equal : (left == right) = true) :
    motive left right := by
  induction left using inductionOn generalizing right with
  | equalTo value =>
      cases right with
      | equalTo other =>
          exact equalTo value other equal
      | _ =>
          cases equal
  | memberOf membership =>
      cases right with
      | memberOf other =>
          cases membership with
          | set values =>
              cases other with
              | set others =>
                  exact set values others equal
              | range bounds =>
                  cases equal
          | range bounds =>
              cases other with
              | set others =>
                  cases equal
              | range otherBounds =>
                  exact range bounds otherBounds equal
      | _ =>
          cases equal
  | nested conditions inductionHypothesis =>
      cases right with
      | nested others =>
          rw [nested_beq, List.beq_iff_forall₂] at equal
          refine nested conditions others ?_
          refine
            ((List.forall₂_and_left _ _).mpr ⟨inductionHypothesis, equal⟩).imp ?_
          rintro entry other ⟨ofEntry, sameEntry⟩
          obtain ⟨sameName, sameRequirement⟩ :=
            NameMap.entry_beq_iff.mp sameEntry
          exact ⟨sameName, ofEntry other.2 sameRequirement⟩
      | _ =>
          cases equal

end Requirement

/-! ## Checks -/

/-- Equal ranges have the same members. -/
theorem ValueRange.contains_congr_left
    {left right : ValueRange}
    (equal : (left == right) = true) :
    left.contains = right.contains := by
  obtain ⟨sameLower, sameUpper, sameExclusive⟩ := beq_iff.mp equal
  funext value
  unfold contains
  rw [Value.compare?_congr_left sameLower, Value.compare?_congr_right sameUpper,
    sameExclusive]

/-- Equal sets have the same members. -/
theorem Membership.contains_set_congr
    {left right : List Value}
    (equal : (left == right) = true) :
    (set left).contains = (set right).contains := by
  funext value
  refine List.any_eq_of_forall₂ ((List.beq_iff_forall₂.mp equal).imp ?_)
  intro member other same
  exact BEq.congr_left same

/-- Entries by the same names that check alike make conditions that do. -/
private theorem Conditions.check_congr_of_entries
    {left right : Conditions}
    (entries :
      List.Forall₂
        (fun entry other =>
          entry.1 = other.1 ∧ entry.2.check = other.2.check)
        left right) :
    left.check = right.check := by
  induction entries with
  | nil =>
      rfl
  | @cons entry other rest others same later inductionHypothesis =>
      obtain ⟨name, requirement⟩ := entry
      obtain ⟨otherName, otherRequirement⟩ := other
      obtain ⟨rfl, sameCheck⟩ := same
      dsimp only at sameCheck
      funext attributes
      rw [check_cons, check_cons, sameCheck, inductionHypothesis]

/-- Equal requirements are met by the same values. -/
theorem Requirement.check_congr
    (left right : Requirement)
    (equal : (left == right) = true) :
    left.check = right.check := by
  refine
    beqInductionOn (motive := fun left right => left.check = right.check)
      ?equalTo ?set ?range ?nested left right equal
  case equalTo =>
    intro expected other same
    funext value
    exact congrArg Except.ok (BEq.congr_right same)
  case set =>
    intro values others same
    funext value
    exact congrArg Except.ok (congrFun (Membership.contains_set_congr same) value)
  case range =>
    intro bounds others same
    funext value
    exact congrArg Except.ok
      (congrFun (ValueRange.contains_congr_left same) value)
  case nested =>
    intro conditions others entries
    funext value
    rw [check_nested, check_nested, Conditions.check_congr_of_entries entries]

/-- Equal conditions are met by the same reads. -/
theorem Conditions.check_congr
    {left right : Conditions}
    (equal : (left == right) = true) :
    left.check = right.check := by
  refine check_congr_of_entries ((List.beq_iff_forall₂.mp equal).imp ?_)
  intro entry other sameEntry
  obtain ⟨sameName, sameRequirement⟩ := NameMap.entry_beq_iff.mp sameEntry
  exact ⟨sameName, entry.2.check_congr other.2 sameRequirement⟩

/-! ## Compilation -/

/-- Entries by the same names that compile equally make conditions that do. -/
private theorem Conditions.translate_congr_of_entries
    {capabilities : Capabilities}
    {left right : Conditions}
    (path : List String)
    (entries :
      List.Forall₂
        (fun entry other =>
          entry.1 = other.1 ∧
            ∀ path,
              EqualOutcomes (entry.2.translate capabilities path)
                (other.2.translate capabilities path))
        left right) :
    EqualOutcomes (left.translate capabilities path)
      (right.translate capabilities path) := by
  induction entries with
  | nil =>
      rfl
  | @cons entry other rest others same later inductionHypothesis =>
      obtain ⟨name, requirement⟩ := entry
      obtain ⟨otherName, otherRequirement⟩ := other
      obtain ⟨rfl, sameOutcome⟩ := same
      unfold Conditions.translate
      refine (sameOutcome (path ++ [name])).bind ?_
      intro predicate otherPredicate samePredicate
      refine inductionHypothesis.bind ?_
      intro clauses otherClauses sameClauses
      have sameClause :
          ((name, predicate) == (name, otherPredicate)) = true :=
        NameMap.entry_beq_iff.mpr ⟨rfl, samePredicate⟩
      exact Bool.and_eq_true_iff.mpr ⟨sameClause, sameClauses⟩

/-- Equal requirements compile to equal predicates, or are refused alike. -/
theorem Requirement.translate_congr
    (capabilities : Capabilities)
    (left right : Requirement)
    (equal : (left == right) = true) :
    ∀ path,
      EqualOutcomes (left.translate capabilities path)
        (right.translate capabilities path) := by
  refine
    beqInductionOn
      (motive := fun left right =>
        ∀ path,
          EqualOutcomes (left.translate capabilities path)
            (right.translate capabilities path))
      ?equalTo ?set ?range ?nested left right equal
  case equalTo =>
    intro value other same path
    exact same
  case set =>
    intro values others same path
    exact same
  case range =>
    intro bounds others same path
    unfold translate
    split
    · exact same
    · rfl
  case nested =>
    intro conditions others entries path
    have sameEmpty : conditions.isEmpty = others.isEmpty := by
      cases entries <;> rfl
    unfold translate
    rw [sameEmpty]
    split
    · rfl
    · split
      · rfl
      · refine (Conditions.translate_congr_of_entries path entries).map ?_
        intro filter other sameFilter
        exact (Predicate.equalFilters_eq_beq filter other).trans sameFilter

/-- Equal conditions compile to equal filters, or are refused alike. -/
theorem compile_congr
    {left right : Conditions}
    (capabilities : Capabilities)
    (equal : (left == right) = true) :
    EqualOutcomes (compile capabilities (some left))
      (compile capabilities (some right)) := by
  have pairs := List.beq_iff_forall₂.mp equal
  have translated :
      EqualOutcomes (left.translate capabilities [])
        (right.translate capabilities []) := by
    refine Conditions.translate_congr_of_entries [] (pairs.imp ?_)
    intro entry other sameEntry
    obtain ⟨sameName, sameRequirement⟩ := NameMap.entry_beq_iff.mp sameEntry
    exact ⟨sameName, entry.2.translate_congr capabilities other.2 sameRequirement⟩
  cases pairs with
  | nil =>
      rfl
  | cons first rest =>
      exact translated.map fun filter other sameFilter => sameFilter

/-! ## Both at once -/

/--
Equal resources and equal conditions cannot be told apart: checks answer alike,
compilation makes equal filters or refuses for the same reason, and a filter that
asks for no kind accepts both resources or neither.
-/
theorem Resource.indiscernible_of_beq
    {ρ : Type}
    [Resource ρ]
    [BEq ρ]
    [LawfulResource ρ]
    {left right : ρ}
    {leftConditions rightConditions : Conditions}
    (sameResource : (left == right) = true)
    (sameConditions : (leftConditions == rightConditions) = true) :
    AlikeOutcomes Eq (leftConditions.holdFor left)
      (rightConditions.holdFor right) ∧
    (∀ capabilities,
      EqualOutcomes (compile capabilities (some leftConditions))
        (compile capabilities (some rightConditions))) ∧
    (∀ filter : Filter, filter.asksNoKind = true →
      filter.accepts left = filter.accepts right) := by
  have alike := LawfulResource.attributes_alike sameResource
  refine ⟨?_, ?_, ?_⟩
  · unfold Conditions.holdFor
    rw [Conditions.check_congr sameConditions]
    exact Conditions.check_alike alike
  · intro capabilities
    exact compile_congr capabilities sameConditions
  · intro filter noKind
    exact Filter.evaluate_alike noKind alike

/-- A scale with its lower end and one mark on it. -/
def markedScale
    (lower mark : Value) :
    Record :=
  [("lower", lower), ("marks", .list [.record [("place", mark)]])]

/-- Conditions on a scale that goes down to the lower end and has the mark. -/
def scaleConditions
    (lower mark : Value) :
    Conditions :=
  [("lower", .memberOf (.range ⟨lower, mark, false⟩)),
    ("marks", .nested [("place", .equalTo mark)])]

/-- One, as a float. -/
def floatOne : Value :=
  .float ⟨0x3FF0000000000000⟩

/-- Zero with a sign, as a float. -/
def negativeZero : Value :=
  .float ⟨0x8000000000000000⟩

theorem Resource.indiscernible_of_beq_markedScale :
    (scaleConditions (.integer 0) (.integer 1)).holdFor
        (markedScale negativeZero floatOne) =
      .ok true ∧
    (scaleConditions (.integer 0) (.integer 1)).holdFor
        (Value.record (markedScale negativeZero floatOne)) =
      .ok true ∧
    EqualOutcomes (.error ⟨["lower"], .ranges⟩)
      (compile .minimal (some (scaleConditions (.integer 0) (.integer 1)))) ∧
    Filter.accepts [("lower", .equalTo (.integer 0))]
        (markedScale negativeZero floatOne) =
      true := by
  have sameConditions :
      (scaleConditions negativeZero floatOne ==
          scaleConditions (.integer 0) (.integer 1)) =
        true :=
    rfl
  have sameRecord :
      (markedScale (.integer 0) (.integer 1) ==
          markedScale negativeZero floatOne) =
        true :=
    rfl
  have sameValue :
      (Value.record (markedScale (.integer 0) (.integer 1)) ==
          .record (markedScale negativeZero floatOne)) =
        true :=
    rfl
  have ofRecord := Resource.indiscernible_of_beq sameRecord sameConditions
  have ofValue := Resource.indiscernible_of_beq sameValue sameConditions
  refine ⟨ofRecord.1.eq_ok_iff.mp rfl, ofValue.1.eq_ok_iff.mp rfl,
    ofRecord.2.1 .minimal, ?_⟩
  exact (ofRecord.2.2 [("lower", .equalTo (.integer 0))] rfl).symm.trans rfl

end Permission
