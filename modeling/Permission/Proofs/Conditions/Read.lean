import Permission.Proofs.Conditions.Written
import Permission.Proofs.NameMap
import Permission.Proofs.Value.Read

namespace Permission

/-!
# Conditions that come from trees

Several trees describe the same conditions: a range may be an array, a value may
stand behind the operator of equality without need, and the text of an identity
may have either case.  The written form is one of them.  What is read is always
writable, so writing it and reading it again changes nothing.
-/

/-- The trees that a tree holds directly. -/
def Json.contents : Json → List Json
  | .scalar _ =>
      []
  | .array items =>
      items
  | .object members =>
      members.map Prod.snd

namespace ValueRange

/-- The bounds of a range that is read are read from parts of the tree. -/
theorem eq_of_ofJson_eq_ok
    {tree : Json}
    {range : ValueRange}
    (read : ofJson tree = .ok range) :
    ∃ lower ∈ tree.contents, ∃ upper ∈ tree.contents, ∃ exclusive,
      range = ⟨Value.ofJson lower, Value.ofJson upper, exclusive⟩ := by
  cases tree with
  | scalar leaf =>
      cases read
  | array items =>
      have itemsRead : ofItems items = .ok range := read
      unfold ofItems at itemsRead
      split at itemsRead
      · cases itemsRead
      · cases itemsRead
      · cases itemsRead
        exact ⟨_, by simp [Json.contents], _, by simp [Json.contents], _, rfl⟩
      · obtain ⟨exclusive, -, rest⟩ := Except.bind_eq_ok_iff.mp itemsRead
        split at rest
        · rw [← Except.pure_eq_ok_iff.mp rest]
          exact ⟨_, by simp [Json.contents], _, by simp [Json.contents], _, rfl⟩
        · cases rest
  | object members =>
      have membersRead : ofMembers members = .ok range := read
      unfold ofMembers at membersRead
      dsimp only at membersRead
      -- Whether the range says if it is exclusive makes no difference to its bounds.
      split at membersRead
      all_goals
        obtain ⟨exclusive, -, bounds⟩ := Except.bind_eq_ok_iff.mp membersRead
        split at bounds
        · cases bounds
        · cases bounds
        · rename_i lowerFound upperFound
          cases bounds
          exact
            ⟨_, List.mem_map_of_mem (NameMap.mem_of_find?_eq_some lowerFound),
              _, List.mem_map_of_mem (NameMap.mem_of_find?_eq_some upperFound),
              _, rfl⟩

end ValueRange

namespace Requirement

/-- What an object is read as: an identity, a range, a value or nested conditions. -/
theorem ofJson_object_eq_ok
    {members : NameMap Json}
    {requirement : Requirement}
    (read : ofJson (.object members) = .ok requirement) :
    (∃ identity, requirement = equalTo (.identifier identity)) ∨
      (∃ operand range, members = [(Operator.range.name, operand)] ∧
        ValueRange.ofJson operand = .ok range ∧
        requirement = memberOf (.range range)) ∨
      (∃ operand, members = [(Operator.equality.name, operand)] ∧
        requirement = equalTo (Value.ofJson operand)) ∨
      (Operator.ofMembers? members = none ∧
        ∃ conditions, Conditions.ofMembers members = .ok conditions ∧
          requirement = nested conditions) := by
  simp only [ofJson] at read
  split at read
  · split at read
    · cases read
      exact .inl ⟨_, rfl⟩
    · cases read
  · rename_i operand isRange
    split at read
    · rename_i range rangeRead
      cases read
      exact .inr (.inl ⟨operand, range,
        Operator.ofMembers?_eq_some_iff.mp isRange, rangeRead, rfl⟩)
    · cases read
  · rename_i operand isEquality
    cases read
    exact .inr (.inr (.inl ⟨operand,
      Operator.ofMembers?_eq_some_iff.mp isEquality, rfl⟩))
  · rename_i noOperator
    obtain ⟨conditions, membersRead, rfl⟩ := Except.map_eq_ok_iff.mp read
    exact .inr (.inr (.inr ⟨noOperator, conditions, membersRead, rfl⟩))

/-- Nested conditions come from an object that is no operator. -/
theorem not_isMiswritten_of_ofMembers
    {members : NameMap Json}
    {conditions : Conditions}
    (noOperator : Operator.ofMembers? members = none)
    (read : Conditions.ofMembers members = .ok conditions) :
    ¬ (nested conditions).IsMiswritten := by
  intro miswritten
  cases miswritten with
  | loneOperator operator inner =>
      obtain ⟨⟨name, tree⟩, others, ⟨rfl, -⟩, rest, rfl⟩ :=
        List.forall₂_cons_right_iff.mp (Conditions.ofMembers_eq_ok_iff.mp read)
      cases List.forall₂_nil_right_iff.mp rest
      have found :
          Operator.ofMembers? [(operator.name, tree)] = some (operator, tree) :=
        Operator.ofMembers?_eq_some_iff.mpr rfl
      rw [noOperator] at found
      cases found

end Requirement

/-- Conditions whose requirements come out writable are writable. -/
theorem Conditions.writable_of_ofMembers
    {members : NameMap Json}
    {conditions : Conditions}
    (entries :
      ∀ member ∈ members, ∀ requirement,
        Requirement.ofJson member.2 = .ok requirement → requirement.Writable)
    (read : Conditions.ofMembers members = .ok conditions) :
    conditions.Writable := by
  intro entry held
  obtain ⟨member, isMember, -, entryRead⟩ :=
    (Conditions.ofMembers_eq_ok_iff.mp read).exists_mem_left held
  exact entries member isMember entry.2 entryRead

/-- Each requirement that comes from a tree is writable. -/
theorem Requirement.writable_of_ofJson
    (requirement : Requirement)
    (tree : Json)
    (read : Requirement.ofJson tree = .ok requirement) :
    requirement.Writable := by
  induction tree using Json.inductionOn generalizing requirement with
  | scalar leaf =>
      cases read
      exact writable_equalTo_iff.mpr (Value.writable_ofScalar leaf)
  | array items =>
      cases read
      rw [writable_set_iff, Value.ofItems_eq_map, List.forall_mem_map]
      exact fun item _ => Value.writable_ofJson item
  | object members inductionHypothesis =>
      rcases ofJson_object_eq_ok read with
          ⟨identity, rfl⟩ | ⟨operand, range, -, rangeRead, rfl⟩ |
          ⟨operand, -, rfl⟩ | ⟨noOperator, conditions, membersRead, rfl⟩
      · exact writable_equalTo_iff.mpr (Value.writable_identifier identity)
      · obtain ⟨lower, -, upper, -, exclusive, rfl⟩ :=
          ValueRange.eq_of_ofJson_eq_ok rangeRead
        exact writable_range_iff.mpr
          ⟨Value.writable_ofJson lower, Value.writable_ofJson upper⟩
      · exact writable_equalTo_iff.mpr (Value.writable_ofJson operand)
      · exact writable_nested_iff.mpr
          ⟨not_isMiswritten_of_ofMembers noOperator membersRead,
            Conditions.writable_of_ofMembers inductionHypothesis membersRead⟩

theorem Conditions.writable_of_ofJson
    (conditions : Conditions)
    (tree : Json)
    (read : Conditions.ofJson tree = .ok conditions) :
    conditions.Writable := by
  unfold Conditions.ofJson at read
  split at read
  · exact Conditions.writable_of_ofMembers
      (fun member _ requirement => requirement.writable_of_ofJson member.2) read
  · cases read
    exact nofun
  · cases read

/--
What a tree is read as is writable, and reads back as itself from the tree that
it is written as: a value in any case, and a requirement and conditions where
the tree describes some.
-/
theorem Json.reread_of_read
    (tree : Json) :
    ((Value.ofJson tree).Writable ∧
      Value.ofJson (Value.ofJson tree).toJson = Value.ofJson tree) ∧
    (∀ requirement, Requirement.ofJson tree = .ok requirement →
      requirement.Writable ∧
        Requirement.ofJson requirement.toJson = .ok requirement) ∧
    (∀ conditions, Conditions.ofJson tree = .ok conditions →
      conditions.Writable ∧
        Conditions.ofJson conditions.toJson = .ok conditions) := by
  refine ⟨?_, ?_, ?_⟩
  · have writable := Value.writable_ofJson tree
    exact ⟨writable, (Value.ofJson tree).reread_of_writable writable⟩
  · intro requirement read
    have writable := requirement.writable_of_ofJson tree read
    exact ⟨writable, requirement.ofJson_toJson_of_writable writable⟩
  · intro conditions read
    have writable := conditions.writable_of_ofJson tree read
    exact ⟨writable, conditions.ofJson_toJson_of_writable writable⟩

/--
Conditions in forms that are read but not written: an identity in lower case with
more bits than it has room for, a range as an array up to an integer beyond the
signed ones, and a string behind the operator of equality.
-/
def draftTree : Json :=
  .object
    [("$id", .string "draft"),
      ("author", .object [("$id", .string "zzzzzzzzzzzzzzzzzzzzzzzzzz")]),
      ("score",
        .object
          [("$range",
            .array
              [.null, .scalar (.integer ⟨0xFFFFFFFFFFFFFFFF, by decide, by decide⟩),
                .boolean true])]),
      ("state", .object [("$eq", .string "open")])]

/-- What these forms stand for. -/
def draftConditions : Conditions :=
  [("$id", .equalTo (.string "draft")),
    ("author", .equalTo (.identifier ⟨.allOnes 128⟩)),
    ("score",
      .memberOf
        (.range ⟨.null, .float (Binary64.ofNatNearest 0xFFFFFFFFFFFFFFFF), true⟩)),
    ("state", .equalTo (.string "open"))]

theorem Json.reread_of_read_draft :
    Conditions.ofJson draftTree = .ok draftConditions ∧
      draftConditions.Writable ∧
      Conditions.ofJson draftConditions.toJson = .ok draftConditions ∧
      Requirement.ofJson (Requirement.nested draftConditions).toJson =
        .ok (.nested draftConditions) := by
  have conditionsRead : Conditions.ofJson draftTree = .ok draftConditions :=
    rfl
  have requirementRead :
      Requirement.ofJson draftTree = .ok (.nested draftConditions) :=
    rfl
  obtain ⟨-, requirements, conditions⟩ := Json.reread_of_read draftTree
  obtain ⟨writable, reread⟩ := conditions draftConditions conditionsRead
  exact ⟨conditionsRead, writable, reread,
    (requirements (.nested draftConditions) requirementRead).2⟩

end Permission
