import Permission.Proofs.Conditions.Read
import Permission.Proofs.Value.Order

namespace Permission

/-!
# Conditions in order throughout

Conditions list the attributes they name in ascending order, those that are
nested in others too, and so do the records that they compare with.  They are
written as trees in order, and what is read from such trees is in order again.
-/

namespace Requirement

/-- All conditions and all records in a requirement are in the order of their names. -/
def InOrder
    (requirement : Requirement) :
    Prop :=
  ∀ part, requirement.HasPart part →
    NameMap.Ordered part.inner ∧ ∀ value ∈ part.values, value.InOrder

theorem inOrder_iff
    {requirement : Requirement} :
    requirement.InOrder ↔
      (NameMap.Ordered requirement.inner ∧
        ∀ value ∈ requirement.values, value.InOrder) ∧
        ∀ entry ∈ requirement.inner, entry.2.InOrder :=
  forall_hasPart_iff

theorem inOrder_equalTo_iff
    {value : Value} :
    (equalTo value).InOrder ↔ value.InOrder := by
  rw [inOrder_iff, and_iff_left nofun, and_iff_right .nil]
  exact List.forall_mem_singleton

theorem inOrder_set_iff
    {members : List Value} :
    (memberOf (.set members)).InOrder ↔ ∀ value ∈ members, value.InOrder := by
  rw [inOrder_iff, and_iff_left nofun]
  exact and_iff_right .nil

theorem inOrder_range_iff
    {range : ValueRange} :
    (memberOf (.range range)).InOrder ↔
      range.lower.InOrder ∧ range.upper.InOrder := by
  rw [inOrder_iff, and_iff_left nofun, and_iff_right .nil]
  simp [values]

end Requirement

/-- Conditions are in the order of their names, at every depth. -/
def Conditions.InOrder
    (conditions : Conditions) :
    Prop :=
  NameMap.Ordered conditions ∧ ∀ entry ∈ conditions, entry.2.InOrder

theorem Requirement.inOrder_nested_iff
    {conditions : Conditions} :
    (nested conditions).InOrder ↔ conditions.InOrder := by
  rw [inOrder_iff]
  exact and_congr_left fun _ => and_iff_left nofun

/-! ## Written conditions -/

/-- Conditions are written in order if each of their requirements is. -/
private theorem Conditions.inOrder_toMembers
    {conditions : Conditions}
    (ascending : NameMap.Ordered conditions)
    (entries : ∀ entry ∈ conditions, entry.2.toJson.InOrder) :
    Json.InOrder (.object (Conditions.toMembers conditions)) := by
  rw [toMembers_eq_map]
  exact .object (NameMap.ordered_map_iff.mpr ascending)
    (List.forall_mem_map.mpr entries)

theorem ValueRange.inOrder_toJson
    {range : ValueRange}
    (lowerInOrder : range.lower.InOrder)
    (upperInOrder : range.upper.InOrder) :
    range.toJson.InOrder := by
  have ascending :
      NameMap.Ordered
        [("end", range.upper.toJson), ("exclusive", .boolean range.exclusive),
          ("start", range.lower.toJson)] := by
    have names : List.Pairwise (· < ·) ["end", "exclusive", "start"] := by
      decide
    exact names
  refine .object ascending ?_
  simp only [List.forall_mem_cons]
  exact ⟨upperInOrder.toJson, .scalar _, lowerInOrder.toJson, nofun⟩

theorem Requirement.InOrder.toJson
    {requirement : Requirement}
    (inOrder : requirement.InOrder) :
    requirement.toJson.InOrder := by
  induction requirement using Requirement.inductionOn with
  | equalTo value =>
      have valueInOrder := (inOrder_equalTo_iff.mp inOrder).toJson
      cases value with
      | list elements =>
          exact .singleton valueInOrder
      | record attributes =>
          exact .singleton valueInOrder
      | _ =>
          exact valueInOrder
  | memberOf membership =>
      cases membership with
      | set members =>
          have membersInOrder := inOrder_set_iff.mp inOrder
          rw [Requirement.toJson, Value.toItems_eq_map]
          apply Json.InOrder.array
          rw [List.forall_mem_map]
          exact fun value member => (membersInOrder value member).toJson
      | range range =>
          obtain ⟨lowerInOrder, upperInOrder⟩ := inOrder_range_iff.mp inOrder
          exact .singleton (range.inOrder_toJson lowerInOrder upperInOrder)
  | nested conditions inductionHypothesis =>
      obtain ⟨ascending, entriesInOrder⟩ := inOrder_nested_iff.mp inOrder
      exact Conditions.inOrder_toMembers ascending fun entry member =>
        inductionHypothesis entry member (entriesInOrder entry member)

/-- Conditions in order are written as a tree in order. -/
theorem Conditions.InOrder.toJson
    {conditions : Conditions}
    (inOrder : conditions.InOrder) :
    conditions.toJson.InOrder :=
  Conditions.inOrder_toMembers inOrder.1 fun entry member =>
    (inOrder.2 entry member).toJson

/-! ## Conditions that are read -/

/-- The parts of a tree in order are in order. -/
theorem Json.InOrder.contents
    {tree : Json}
    (inOrder : tree.InOrder) :
    ∀ part ∈ tree.contents, part.InOrder := by
  cases inOrder with
  | scalar leaf =>
      exact nofun
  | array inside =>
      exact inside
  | object ascending inside =>
      exact List.forall_mem_map.mpr inside

/-- Conditions are read in order if each of their requirements is. -/
private theorem Conditions.inOrder_of_ofMembers
    {members : NameMap Json}
    {conditions : Conditions}
    (ascending : members.Ordered)
    (entries :
      ∀ member ∈ members, ∀ requirement,
        Requirement.ofJson member.2 = .ok requirement → requirement.InOrder)
    (read : Conditions.ofMembers members = .ok conditions) :
    conditions.InOrder := by
  have pairs := ofMembers_eq_ok_iff.mp read
  have sameNames : NameMap.names members = NameMap.names conditions :=
    List.map_eq_of_forall₂ (pairs.imp fun _ _ pair => pair.1)
  refine ⟨?_, ?_⟩
  · unfold NameMap.Ordered at ascending ⊢
    rwa [← sameNames]
  · intro entry held
    obtain ⟨member, isMember, -, entryRead⟩ := pairs.exists_mem_left held
    exact entries member isMember entry.2 entryRead

/-- Each requirement that comes from a tree in order is in order. -/
theorem Requirement.inOrder_of_ofJson
    (requirement : Requirement)
    {tree : Json}
    (inOrder : tree.InOrder)
    (read : Requirement.ofJson tree = .ok requirement) :
    requirement.InOrder := by
  induction inOrder generalizing requirement with
  | scalar leaf =>
      cases read
      exact inOrder_equalTo_iff.mpr (Value.inOrder_ofScalar leaf)
  | array inside _ =>
      cases read
      rw [inOrder_set_iff, Value.ofItems_eq_map, List.forall_mem_map]
      exact fun item member => Value.inOrder_ofJson (inside item member)
  | object ascending inside inductionHypothesis =>
      rcases ofJson_object_eq_ok read with
          ⟨identity, rfl⟩ | ⟨operand, range, rfl, rangeRead, rfl⟩ |
          ⟨operand, rfl, rfl⟩ | ⟨noOperator, conditions, membersRead, rfl⟩
      · exact inOrder_equalTo_iff.mpr (Value.inOrder_of_kind nofun nofun)
      · have operandInOrder : operand.InOrder :=
          inside _ (List.mem_singleton_self _)
        obtain ⟨lower, isLower, upper, isUpper, exclusive, rfl⟩ :=
          ValueRange.eq_of_ofJson_eq_ok rangeRead
        exact inOrder_range_iff.mpr
          ⟨Value.inOrder_ofJson (operandInOrder.contents lower isLower),
            Value.inOrder_ofJson (operandInOrder.contents upper isUpper)⟩
      · exact inOrder_equalTo_iff.mpr
          (Value.inOrder_ofJson (inside _ (List.mem_singleton_self _)))
      · exact inOrder_nested_iff.mpr
          (Conditions.inOrder_of_ofMembers ascending inductionHypothesis
            membersRead)

/-- Conditions that come from a tree in order are in order. -/
theorem Conditions.inOrder_of_ofJson
    {conditions : Conditions}
    {tree : Json}
    (inOrder : tree.InOrder)
    (read : Conditions.ofJson tree = .ok conditions) :
    conditions.InOrder := by
  cases inOrder with
  | scalar leaf =>
      cases leaf with
      | null =>
          cases read
          exact ⟨.nil, nofun⟩
      | _ =>
          cases read
  | array inside =>
      cases read
  | object ascending inside =>
      refine Conditions.inOrder_of_ofMembers ascending ?_ read
      intro member isMember requirement entryRead
      exact requirement.inOrder_of_ofJson (inside member isMember) entryRead

end Permission
