import Permission.Proofs.Conditions.FailedCheck
import Permission.Proofs.Conditions.Interval

namespace Permission

/-!
# What conditions mean

Conditions say something of a resource without regard to the order in which it is
looked at: each attribute that they name has a value as required, and of a list to
which conditions are put some element satisfies them.  A check stops early and
fails at the first read that does, yet wherever all reads have answers it comes to
what the conditions say.  So the order of the elements of such lists does not
matter, and a check can fail with nothing but the failure of a read.
-/

/-- The value is one of a set, or stands in a range. -/
def Membership.Admits : Membership → Value → Prop
  | .set values, value =>
      ∃ member ∈ values, (member == value) = true
  | .range bounds, value =>
      bounds.lower ≤ value ∧ value ≤ bounds.upper ∧
        (bounds.exclusive = true → value < bounds.upper)

theorem Membership.contains_iff
    {membership : Membership}
    {value : Value} :
    membership.contains value = true ↔ membership.Admits value := by
  cases membership with
  | set values =>
      exact List.any_eq_true
  | range bounds =>
      exact ValueRange.contains_iff

mutual

/-- Each attribute that is named has a value as required. -/
def Conditions.MetBy : Conditions → Attributes → Prop
  | [], _ =>
      True
  | (name, requirement) :: rest, attributes =>
      (∃ value, attributes name = .ok value ∧ requirement.MetBy value) ∧
        Conditions.MetBy rest attributes

/--
The value is equal to the expected one, or a member, or satisfies nested conditions:
of a list some element does, anything else does so itself.
-/
def Requirement.MetBy : Requirement → Value → Prop
  | .equalTo expected, value =>
      (value == expected) = true
  | .memberOf membership, value =>
      membership.Admits value
  | .nested conditions, .list elements =>
      ∃ element ∈ elements, Conditions.MetBy conditions element.attributes
  | .nested conditions, value =>
      Conditions.MetBy conditions value.attributes

end

mutual

/-- Each attribute that is named can be read, down to those named in nested ones. -/
def Conditions.ReadableOn : Conditions → Attributes → Prop
  | [], _ =>
      True
  | (name, requirement) :: rest, attributes =>
      (∃ value, attributes name = .ok value ∧ requirement.ReadableOn value) ∧
        Conditions.ReadableOn rest attributes

/--
Nested conditions, if there are any, are put to a record that is readable for them
or to a list of such records.
-/
def Requirement.ReadableOn : Requirement → Value → Prop
  | .equalTo _, _ =>
      True
  | .memberOf _, _ =>
      True
  | .nested conditions, .record entries =>
      Conditions.ReadableOn conditions (Record.attributes entries)
  | .nested conditions, .list elements =>
      conditions ≠ [] →
        ∀ element ∈ elements, ∃ entries, element = .record entries ∧
          Conditions.ReadableOn conditions (Record.attributes entries)
  | .nested conditions, _ =>
      conditions = []

end

mutual

/--
What is read of the first resource is read of the second one too, up to the order
of the lists that nested conditions are put to.
-/
def Conditions.AlikeUpToOrder : Conditions → Attributes → Attributes → Prop
  | [], _, _ =>
      True
  | (name, requirement) :: rest, left, right =>
      (∀ value, left name = .ok value →
          ∃ other, right name = .ok other ∧ requirement.AlikeUpToOrder value other) ∧
        Conditions.AlikeUpToOrder rest left right

/--
Nested conditions meet the same values, if these are put in some order and then
rearranged inside.  All other values are the same.
-/
def Requirement.AlikeUpToOrder : Requirement → Value → Value → Prop
  | .nested conditions, value, other =>
      ∃ ordered, value.targets.Perm ordered ∧
        List.Forall₂
          (fun target otherTarget =>
            Conditions.AlikeUpToOrder conditions target.attributes
              otherTarget.attributes)
          ordered other.targets
  | _, value, other =>
      value = other

end

/-! ## Entry by entry and target by target -/

theorem Conditions.metBy_iff
    {conditions : Conditions}
    {attributes : Attributes} :
    conditions.MetBy attributes ↔
      ∀ entry ∈ conditions, ∃ value,
        attributes entry.1 = .ok value ∧ entry.2.MetBy value := by
  induction conditions with
  | nil =>
      simp [Conditions.MetBy]
  | cons entry rest inductionHypothesis =>
      simp only [Conditions.MetBy, inductionHypothesis, List.forall_mem_cons]

theorem Conditions.readableOn_iff
    {conditions : Conditions}
    {attributes : Attributes} :
    conditions.ReadableOn attributes ↔
      ∀ entry ∈ conditions, ∃ value,
        attributes entry.1 = .ok value ∧ entry.2.ReadableOn value := by
  induction conditions with
  | nil =>
      simp [Conditions.ReadableOn]
  | cons entry rest inductionHypothesis =>
      simp only [Conditions.ReadableOn, inductionHypothesis, List.forall_mem_cons]

theorem Conditions.alikeUpToOrder_iff
    {conditions : Conditions}
    {left right : Attributes} :
    conditions.AlikeUpToOrder left right ↔
      ∀ entry ∈ conditions, ∀ value, left entry.1 = .ok value →
        ∃ other, right entry.1 = .ok other ∧
          entry.2.AlikeUpToOrder value other := by
  induction conditions with
  | nil =>
      simp [Conditions.AlikeUpToOrder]
  | cons entry rest inductionHypothesis =>
      simp only [Conditions.AlikeUpToOrder, inductionHypothesis,
        List.forall_mem_cons]

namespace Requirement

theorem metBy_nested_iff
    {conditions : Conditions}
    {value : Value} :
    (nested conditions).MetBy value ↔
      ∃ target ∈ value.targets, conditions.MetBy target.attributes := by
  cases value with
  | list elements =>
      rfl
  | _ =>
      simp [MetBy, Value.targets]

/-- Only a record answers any read. -/
theorem eq_record_of_readableOn
    {conditions : Conditions}
    {value : Value}
    (nonempty : conditions ≠ [])
    (readable : conditions.ReadableOn value.attributes) :
    ∃ entries, value = .record entries := by
  obtain ⟨entry, rest, rfl⟩ := List.exists_cons_of_ne_nil nonempty
  obtain ⟨inner, read, -⟩ :=
    Conditions.readableOn_iff.mp readable entry List.mem_cons_self
  cases value with
  | record entries =>
      exact ⟨entries, rfl⟩
  | _ =>
      cases read

/-- Nested conditions are readable if they are on each target. -/
theorem readableOn_nested_iff
    {conditions : Conditions}
    {value : Value} :
    (nested conditions).ReadableOn value ↔
      ∀ target ∈ value.targets, conditions.ReadableOn target.attributes := by
  by_cases none : conditions = []
  · subst none
    cases value <;> simp [ReadableOn, Conditions.ReadableOn]
  · cases value with
    | record entries =>
        simp only [Value.targets, List.forall_mem_singleton]
        rfl
    | list elements =>
        constructor
        · intro readable element member
          obtain ⟨entries, rfl, ofEntries⟩ := readable none element member
          exact ofEntries
        · intro readable _ element member
          obtain ⟨entries, rfl⟩ :=
            eq_record_of_readableOn none (readable element member)
          exact ⟨entries, rfl, readable _ member⟩
    | _ =>
        refine iff_of_false none fun readable => ?_
        obtain ⟨entries, isRecord⟩ :=
          eq_record_of_readableOn none (readable _ List.mem_cons_self)
        cases isRecord

end Requirement

/-! ## Checks that read all they need -/

/-- Checks that decide what each entry asks for decide what all of them do. -/
private theorem Conditions.check_decides_of_entries
    {conditions : Conditions}
    {attributes : Attributes}
    (entries :
      ∀ entry ∈ conditions, ∀ value, entry.2.ReadableOn value →
        (entry.2.check value).Decides (entry.2.MetBy value))
    (readable : conditions.ReadableOn attributes) :
    (conditions.check attributes).Decides (conditions.MetBy attributes) := by
  rw [check_eq_allM, metBy_iff]
  refine List.allM_decides ?_
  intro entry member
  obtain ⟨value, read, valueReadable⟩ := readableOn_iff.mp readable entry member
  obtain ⟨met, checked, meaning⟩ := entries entry member value valueReadable
  refine ⟨met, checkEntry_eq_ok_iff.mpr ⟨value, read, checked⟩, meaning.trans ?_⟩
  constructor
  · intro metByValue
    exact ⟨value, read, metByValue⟩
  · rintro ⟨other, otherRead, metByOther⟩
    obtain rfl : value = other :=
      Except.ok.inj (read.symm.trans otherRead)
    exact metByOther

/-- A requirement that can be read throughout is checked as it is meant. -/
theorem Requirement.check_decides
    (requirement : Requirement)
    (value : Value)
    (readable : requirement.ReadableOn value) :
    (requirement.check value).Decides (requirement.MetBy value) := by
  induction requirement using Requirement.inductionOn generalizing value with
  | equalTo expected =>
      exact ⟨value == expected, rfl, Iff.rfl⟩
  | memberOf membership =>
      exact ⟨membership.contains value, rfl, membership.contains_iff⟩
  | nested conditions inductionHypothesis =>
      have targetsReadable := readableOn_nested_iff.mp readable
      rw [check_nested, metBy_nested_iff]
      refine List.anyM_decides ?_
      intro target member
      exact Conditions.check_decides_of_entries inductionHypothesis
        (targetsReadable target member)

theorem Conditions.check_decides
    {conditions : Conditions}
    {attributes : Attributes}
    (readable : conditions.ReadableOn attributes) :
    (conditions.check attributes).Decides (conditions.MetBy attributes) :=
  Conditions.check_decides_of_entries (fun entry _ => entry.2.check_decides)
    readable

/-! ## The order of lists -/

/-- Entries that ask the same in any order make conditions that do. -/
private theorem Conditions.sameMeaning_of_entries
    {conditions : Conditions}
    {left right : Attributes}
    (entries :
      ∀ entry ∈ conditions, ∀ value other,
        entry.2.AlikeUpToOrder value other → entry.2.ReadableOn value →
          entry.2.ReadableOn other ∧
            (entry.2.MetBy value ↔ entry.2.MetBy other))
    (alike : conditions.AlikeUpToOrder left right)
    (readable : conditions.ReadableOn left) :
    conditions.ReadableOn right ∧
      (conditions.MetBy left ↔ conditions.MetBy right) := by
  have answers :
      ∀ entry ∈ conditions, ∃ value other,
        left entry.1 = .ok value ∧ right entry.1 = .ok other ∧
          entry.2.ReadableOn other ∧
          (entry.2.MetBy value ↔ entry.2.MetBy other) := by
    intro entry member
    obtain ⟨value, read, valueReadable⟩ := readableOn_iff.mp readable entry member
    obtain ⟨other, otherRead, valueAlike⟩ :=
      alikeUpToOrder_iff.mp alike entry member value read
    exact
      ⟨value, other, read, otherRead,
        entries entry member value other valueAlike valueReadable⟩
  constructor
  · refine readableOn_iff.mpr fun entry member => ?_
    obtain ⟨value, other, -, otherRead, otherReadable, -⟩ := answers entry member
    exact ⟨other, otherRead, otherReadable⟩
  · rw [metBy_iff, metBy_iff]
    refine forall₂_congr fun entry member => ?_
    obtain ⟨value, other, read, otherRead, -, together⟩ := answers entry member
    simp only [read, otherRead, Except.ok.injEq, exists_eq_left', together]

/-- What is met by a value is met by one that differs only in the order of lists. -/
theorem Requirement.sameMeaning_of_alikeUpToOrder
    (requirement : Requirement)
    (value other : Value)
    (alike : requirement.AlikeUpToOrder value other)
    (readable : requirement.ReadableOn value) :
    requirement.ReadableOn other ∧
      (requirement.MetBy value ↔ requirement.MetBy other) := by
  induction requirement using Requirement.inductionOn generalizing value other with
  | equalTo expected =>
      cases alike
      exact ⟨readable, Iff.rfl⟩
  | memberOf membership =>
      cases alike
      exact ⟨readable, Iff.rfl⟩
  | nested conditions inductionHypothesis =>
      obtain ⟨ordered, permuted, pairs⟩ := alike
      have orderedReadable :
          ∀ target ∈ ordered, conditions.ReadableOn target.attributes := by
        intro target member
        exact readableOn_nested_iff.mp readable target
          (permuted.mem_iff.mpr member)
      have answers :=
        ((List.forall₂_and_left _ _).mpr ⟨orderedReadable, pairs⟩).imp
          fun target otherTarget pair =>
            Conditions.sameMeaning_of_entries inductionHypothesis pair.2 pair.1
      constructor
      · refine readableOn_nested_iff.mpr fun target member => ?_
        obtain ⟨_, -, targetReadable, -⟩ := answers.exists_mem_left member
        exact targetReadable
      · rw [metBy_nested_iff, metBy_nested_iff]
        simp only [permuted.mem_iff]
        exact List.exists_mem_iff_of_forall₂ (answers.imp fun _ _ pair => pair.2)

/-- All values are alike to themselves. -/
theorem Requirement.alikeUpToOrder_refl
    (requirement : Requirement)
    (value : Value) :
    requirement.AlikeUpToOrder value value := by
  induction requirement using Requirement.inductionOn generalizing value with
  | equalTo expected =>
      rfl
  | memberOf membership =>
      rfl
  | nested conditions inductionHypothesis =>
      refine ⟨value.targets, .refl _, List.forall₂_same.mpr fun target _ => ?_⟩
      refine Conditions.alikeUpToOrder_iff.mpr fun entry member inner read => ?_
      exact ⟨inner, read, inductionHypothesis entry member inner⟩

theorem Conditions.alikeUpToOrder_refl
    (conditions : Conditions)
    (attributes : Attributes) :
    conditions.AlikeUpToOrder attributes attributes :=
  alikeUpToOrder_iff.mpr fun entry _ value read =>
    ⟨value, read, entry.2.alikeUpToOrder_refl value⟩

/-- In particular a list that conditions are put to may be permuted. -/
theorem Requirement.alikeUpToOrder_of_perm
    {elements others : List Value}
    (permuted : elements.Perm others)
    (conditions : Conditions) :
    (nested conditions).AlikeUpToOrder (.list elements) (.list others) :=
  ⟨others, permuted,
    List.forall₂_same.mpr fun element _ =>
      conditions.alikeUpToOrder_refl element.attributes⟩

/-- Resources that differ only in the order of lists are checked with one result. -/
theorem Conditions.check_eq_of_alikeUpToOrder
    {conditions : Conditions}
    {left right : Attributes}
    (alike : conditions.AlikeUpToOrder left right)
    (readable : conditions.ReadableOn left) :
    conditions.check right = conditions.check left := by
  obtain ⟨rightReadable, together⟩ :=
    Conditions.sameMeaning_of_entries
      (fun entry _ => entry.2.sameMeaning_of_alikeUpToOrder) alike readable
  exact (check_decides rightReadable).eq_of_iff (check_decides readable)
    together.symm

/-! ## Failures -/

namespace Conditions

/--
The failure of a read that the conditions name: of the resource itself, or of a
value that is reached from it through nested conditions, of an attribute that these
name.
-/
def FailsToRead
    (conditions : Conditions)
    (attributes : Attributes)
    (error : AttributeError) :
    Prop :=
  (∃ name ∈ conditions.names, attributes name = .error error) ∨
    ∃ nested value, conditions.Reaches attributes nested value ∧
      ∃ target ∈ value.targets, ∃ name ∈ NameMap.names nested,
        target.attributes name = .error error

/-- A check fails with nothing but the failure of a read. -/
theorem failsToRead_of_check_error
    (conditions : Conditions)
    {attributes : Attributes}
    {error : AttributeError}
    (failed : conditions.check attributes = .error error) :
    conditions.FailsToRead attributes error := by
  induction conditions using Conditions.inductionOn generalizing attributes with
  | step conditions inductionHypothesis =>
      rw [check_eq_allM, List.allM_eq_iff_of_ne (by simp)] at failed
      obtain ⟨before, ⟨name, requirement⟩, after, shape, -, entryFailed⟩ := failed
      have entry : (name, requirement) ∈ conditions := by
        simp [shape]
      rcases checkEntry_eq_error_iff.mp entryFailed with
          readFailed | ⟨value, read, valueFailed⟩
      · exact .inl ⟨name, List.mem_map_of_mem entry, readFailed⟩
      · obtain ⟨nested, earlier, failing, later, rfl, targets, -, targetFailed⟩ :=
          Requirement.check_eq_error_iff.mp valueFailed
        have isTarget : failing ∈ value.targets := by
          simp [targets]
        rcases inductionHypothesis name nested entry targetFailed with
            ⟨innerName, named, innerFailed⟩ | ⟨inner, innerValue, reached, within⟩
        · exact .inr
            ⟨nested, value, .direct entry read,
              failing, isTarget, innerName, named, innerFailed⟩
        · exact .inr
            ⟨inner, innerValue, .through entry read isTarget reached, within⟩

/--
Where all that conditions name can be read, a check has a result, which says whether
the resource is as the conditions say.  The result is the same for each resource
that differs only in the order of the lists that nested conditions are put to.  If a
check fails, it does so with the failure of a read that the conditions name.
-/
theorem holdFor_of_meaning
    {ρ : Type}
    [Resource ρ]
    (conditions : Conditions)
    (resource : ρ) :
    (conditions.ReadableOn (Resource.attributes resource) →
      (∃ met, conditions.holdFor resource = .ok met ∧
        (met = true ↔ conditions.MetBy (Resource.attributes resource))) ∧
      ∀ reordered : ρ,
        conditions.AlikeUpToOrder (Resource.attributes resource)
            (Resource.attributes reordered) →
          conditions.holdFor reordered = conditions.holdFor resource) ∧
    ∀ error, conditions.holdFor resource = .error error →
      conditions.FailsToRead (Resource.attributes resource) error := by
  constructor
  · intro readable
    refine ⟨check_decides readable, ?_⟩
    intro reordered alike
    exact check_eq_of_alikeUpToOrder alike readable
  · intro error failed
    exact conditions.failsToRead_of_check_error failed

/-- A team with a lead among its members. -/
def ledConditions : Conditions :=
  [("members", .nested [("role", .memberOf (.set [.string "lead"]))])]

/-- An open project with a lead on one of its teams. -/
def staffedConditions : Conditions :=
  [("open", .equalTo (.boolean true)), ("teams", .nested ledConditions)]

/-- A team whose members are given by their roles. -/
def team
    (roles : List String) :
    Value :=
  .record
    [("members", .list (roles.map fun role => .record [("role", .string role)]))]

def project
    (teams : List Value) :
    Record :=
  [("open", .boolean true), ("teams", .list teams)]

theorem staffedConditions_readableOn
    (teams : List (List String)) :
    staffedConditions.ReadableOn (project (teams.map team)).attributes := by
  refine ⟨⟨_, rfl, trivial⟩, ⟨_, rfl, fun _ => ?_⟩, trivial⟩
  rw [List.forall_mem_map]
  intro roles _
  refine ⟨_, rfl, ⟨_, rfl, fun _ => ?_⟩, trivial⟩
  rw [List.forall_mem_map]
  intro role _
  exact ⟨_, rfl, ⟨_, rfl, trivial⟩, trivial⟩

/-- The members of a team may be listed in any order. -/
theorem ledConditions_alikeUpToOrder
    {roles others : List String}
    (permuted : roles.Perm others) :
    ledConditions.AlikeUpToOrder (team roles).attributes
      (team others).attributes := by
  refine ⟨fun value read => ⟨_, rfl, ?_⟩, trivial⟩
  cases read
  exact Requirement.alikeUpToOrder_of_perm (permuted.map _) _

theorem holdFor_of_meaning_project :
    (∃ met,
      staffedConditions.holdFor
          (project [team ["tester", "lead"], team ["writer"]]) = .ok met ∧
        (met = true ↔
          staffedConditions.MetBy
            (project [team ["tester", "lead"], team ["writer"]]).attributes)) ∧
      staffedConditions.holdFor
          (project [team ["writer"], team ["lead", "tester"]]) =
        staffedConditions.holdFor
          (project [team ["tester", "lead"], team ["writer"]]) ∧
      staffedConditions.FailsToRead
        (project [team ["writer"], .record []]).attributes (.missing "members") := by
  have reordered :
      staffedConditions.AlikeUpToOrder
        (project [team ["tester", "lead"], team ["writer"]]).attributes
        (project [team ["writer"], team ["lead", "tester"]]).attributes := by
    refine ⟨fun value read => ⟨value, read, rfl⟩,
      fun value read => ⟨_, rfl, ?_⟩, trivial⟩
    cases read
    refine ⟨[team ["writer"], team ["tester", "lead"]], .swap _ _ _, ?_⟩
    exact
      .cons (ledConditions_alikeUpToOrder (.refl _))
        (.cons (ledConditions_alikeUpToOrder (.swap _ _ _)) .nil)
  obtain ⟨meaning, anyOrder⟩ :=
    (holdFor_of_meaning staffedConditions
      (project [team ["tester", "lead"], team ["writer"]])).1
      (staffedConditions_readableOn [["tester", "lead"], ["writer"]])
  have failed :
      staffedConditions.holdFor (project [team ["writer"], .record []]) =
        .error (.missing "members") :=
    rfl
  exact
    ⟨meaning, anyOrder _ reordered,
      (holdFor_of_meaning staffedConditions _).2 _ failed⟩

end Conditions

end Permission
