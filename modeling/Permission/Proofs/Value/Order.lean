import Permission.Proofs.NameMap
import Permission.Proofs.Value.Read

namespace Permission

/-!
# Names in order throughout

The maps in values and the objects that are read for them list their names in
ascending order, at every depth.  Writing and reading values keeps this order.
-/

/-- The members of each object in a tree are in the order of their names. -/
inductive Json.InOrder : Json → Prop where
  | scalar
      (leaf : Json.Scalar) :
      InOrder (.scalar leaf)
  | array
      {items : List Json}
      (inside : ∀ item ∈ items, InOrder item) :
      InOrder (.array items)
  | object
      {members : NameMap Json}
      (ascending : members.Ordered)
      (inside : ∀ member ∈ members, InOrder member.2) :
      InOrder (.object members)

/-- A sole member is in order by itself. -/
theorem Json.InOrder.singleton
    {name : String}
    {tree : Json}
    (inside : tree.InOrder) :
    InOrder (.object [(name, tree)]) :=
  .object (List.pairwise_singleton _ name)
    (List.forall_mem_singleton.mpr inside)

namespace Value

/-- The attributes of a value, if it is a record, are in the order of their names. -/
def Ascends
    (value : Value) :
    Prop :=
  ∀ attributes : Record, value = record attributes → attributes.Ordered

/-- The attributes of each record in a value are in the order of their names. -/
def InOrder
    (value : Value) :
    Prop :=
  ∀ part, value.HasPart part → part.Ascends

theorem inOrder_iff
    {value : Value} :
    value.InOrder ↔
      value.Ascends ∧ ∀ inner ∈ value.contents, inner.InOrder :=
  forall_hasPart_iff

theorem ascends_record_iff
    {attributes : Record} :
    (record attributes).Ascends ↔ attributes.Ordered := by
  constructor
  · intro ascends
    exact ascends attributes rfl
  · intro ordered others same
    cases same
    exact ordered

/-- What holds no values is in order. -/
theorem inOrder_of_kind
    {value : Value}
    (notList : value.kind ≠ .list)
    (notRecord : value.kind ≠ .record) :
    value.InOrder := by
  rw [inOrder_iff]
  cases value with
  | list elements =>
      exact absurd rfl notList
  | record attributes =>
      exact absurd rfl notRecord
  | _ =>
      exact ⟨nofun, nofun⟩

theorem inOrder_identifier
    (identity : Identifier) :
    (identifier identity).InOrder :=
  inOrder_of_kind nofun nofun

theorem inOrder_list_iff
    {elements : List Value} :
    (list elements).InOrder ↔ ∀ element ∈ elements, element.InOrder := by
  rw [inOrder_iff]
  exact and_iff_right nofun

theorem inOrder_record_iff
    {attributes : Record} :
    (record attributes).InOrder ↔
      attributes.Ordered ∧ ∀ entry ∈ attributes, entry.2.InOrder := by
  rw [inOrder_iff, ascends_record_iff]
  simp only [contents, List.forall_mem_map]

/-- A value in order is written as a tree in order. -/
theorem InOrder.toJson
    {value : Value}
    (inOrder : value.InOrder) :
    value.toJson.InOrder := by
  induction value using inductionOn with
  | float number =>
      unfold Value.toJson floatJson
      split
      · exact .scalar _
      · exact .scalar _
  | identifier identity =>
      exact .singleton (.scalar _)
  | list elements inductionHypothesis =>
      have elementsInOrder := inOrder_list_iff.mp inOrder
      unfold Value.toJson
      rw [toItems_eq_map]
      refine .array (List.forall_mem_map.mpr ?_)
      intro element member
      exact inductionHypothesis element member (elementsInOrder element member)
  | record attributes inductionHypothesis =>
      obtain ⟨ascending, entriesInOrder⟩ := inOrder_record_iff.mp inOrder
      unfold Value.toJson
      rw [toMembers_eq_map]
      refine .object (NameMap.ordered_map_iff.mpr ascending)
        (List.forall_mem_map.mpr ?_)
      intro entry member
      exact inductionHypothesis entry member (entriesInOrder entry member)
  | _ =>
      exact .scalar _

theorem inOrder_ofScalar
    (leaf : Json.Scalar) :
    (ofScalar leaf).InOrder := by
  cases leaf with
  | integer number =>
      unfold ofScalar
      dsimp only
      split
      · exact inOrder_of_kind nofun nofun
      · exact inOrder_of_kind nofun nofun
  | _ =>
      exact inOrder_of_kind nofun nofun

/-- A tree in order is read as a value in order. -/
theorem inOrder_ofJson
    {tree : Json}
    (inOrder : tree.InOrder) :
    (ofJson tree).InOrder := by
  induction inOrder with
  | scalar leaf =>
      exact inOrder_ofScalar leaf
  | array inside inductionHypothesis =>
      rw [ofJson, ofItems_eq_map, inOrder_list_iff, List.forall_mem_map]
      exact inductionHypothesis
  | object ascending inside inductionHypothesis =>
      unfold ofJson
      split
      · exact inOrder_identifier _
      · rw [inOrder_record_iff, ofMembers_eq_map, List.forall_mem_map]
        exact ⟨NameMap.ordered_map_iff.mpr ascending, inductionHypothesis⟩

end Value

end Permission
