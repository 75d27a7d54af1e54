import Permission.Proofs.Conditions.Order
import Permission.Proofs.Place

namespace Permission

/-!
# The grammar of conditions

A tree describes conditions if it is null or an object and no node in it is
malformed.  The nodes are the members of the tree and, in turn, those of each node
that is an object, unless its only member has the name of an operator: what such a
member holds is an identity, a range or a value.  A node is malformed if it is an
operator and holds no identity or no range where it should.  Reading reports the
first such node, with the members of objects in the order of their names.
-/

/-! ## What operators hold -/

namespace Identifier

/-- Twenty-six digits of base thirty-two, each in either case. -/
structure IsText
    (text : String) :
    Prop where
  length : text.length = textLength
  digits : ∀ character ∈ text.toList, character.toUpper ∈ alphabet

theorem exists_digitOf?_iff
    {character : Char} :
    (∃ digit, digitOf? character = some digit) ↔ character.toUpper ∈ alphabet := by
  unfold digitOf?
  rw [← Option.isSome_iff_exists, List.isSome_idxOf?]

/-- All texts of identities are read, and nothing else is. -/
theorem exists_ofText?_iff
    {text : String} :
    (∃ identity, ofText? text = some identity) ↔ IsText text := by
  have digitsRead :
      (∃ digits, text.toList.mapM digitOf? = some digits) ↔
        ∀ character ∈ text.toList, character.toUpper ∈ alphabet := by
    simp only [List.exists_mapM_eq_some_iff, exists_digitOf?_iff]
  unfold ofText?
  split
  · rename_i length
    constructor
    · rintro ⟨identity, read⟩
      obtain ⟨digits, isRead, -⟩ := Option.map_eq_some_iff.mp read
      exact ⟨length, digitsRead.mp ⟨digits, isRead⟩⟩
    · intro isText
      obtain ⟨digits, isRead⟩ := digitsRead.mpr isText.digits
      exact ⟨ofNat (ofDigits digits), by rw [isRead, Option.map_some]⟩
  · rename_i otherLength
    exact iff_of_false nofun fun isText => otherLength isText.length

end Identifier

namespace Json

/-- The text of an identity. -/
inductive IsIdentity : Json → Prop where
  | text
      {text : String}
      (isText : Identifier.IsText text) :
      IsIdentity (.string text)

/--
A range: an object with both bounds, in which others than the fields of a range
are ignored, or an array of the bounds.  Either may say whether it is exclusive.
-/
inductive IsRange : Json → Prop where
  | object
      {members : NameMap Json}
      (lower : "start" ∈ members.names)
      (upper : "end" ∈ members.names)
      (exclusive :
        ∀ tree, members.find? "exclusive" = some tree →
          ∃ truth, tree = .boolean truth) :
      IsRange (.object members)
  | bounds
      (lower upper : Json) :
      IsRange (.array [lower, upper])
  | flagged
      (lower upper : Json)
      (exclusive : Bool) :
      IsRange (.array [lower, upper, .boolean exclusive])

end Json

/-- An operator of identities holds an identity exactly if it holds its text. -/
theorem Value.exists_identityOf?_iff
    {held : Json} :
    (∃ identity, identityOf? [(identityKey, held)] = some identity) ↔
      held.IsIdentity := by
  simp only [identityOf?_eq_some_iff]
  constructor
  · rintro ⟨identity, text, shape, read⟩
    cases shape
    exact .text (Identifier.exists_ofText?_iff.mp ⟨identity, read⟩)
  · rintro ⟨isText⟩
    obtain ⟨identity, read⟩ := Identifier.exists_ofText?_iff.mpr isText
    exact ⟨identity, _, rfl, read⟩

namespace ValueRange

theorem exists_exclusiveOf_iff
    {tree : Json} :
    (∃ exclusive, exclusiveOf tree = .ok exclusive) ↔
      ∃ truth, tree = .boolean truth := by
  unfold exclusiveOf
  split
  · rename_i truth
    exact iff_of_true ⟨truth, rfl⟩ ⟨truth, rfl⟩
  · rename_i other
    refine iff_of_false nofun ?_
    rintro ⟨truth, rfl⟩
    exact other truth rfl

theorem exists_ofMembers_iff
    {members : NameMap Json} :
    (∃ range, ofMembers members = .ok range) ↔ (Json.object members).IsRange := by
  constructor
  · rintro ⟨range, read⟩
    unfold ofMembers at read
    dsimp only at read
    have flag :
        ∀ tree, members.find? "exclusive" = some tree →
          ∃ truth, tree = .boolean truth := by
      intro tree found
      rw [found] at read
      obtain ⟨exclusive, isFlag, -⟩ := Except.bind_eq_ok_iff.mp read
      exact exists_exclusiveOf_iff.mp ⟨exclusive, isFlag⟩
    split at read
    all_goals
      obtain ⟨exclusive, -, bounds⟩ := Except.bind_eq_ok_iff.mp read
      split at bounds
      · cases bounds
      · cases bounds
      · rename_i lowerFound upperFound
        exact .object (NameMap.mem_names_iff.mpr ⟨_, lowerFound⟩)
          (NameMap.mem_names_iff.mpr ⟨_, upperFound⟩) flag
  · intro isRange
    cases isRange with
    | object lower upper exclusive =>
        obtain ⟨lowerTree, lowerFound⟩ := NameMap.mem_names_iff.mp lower
        obtain ⟨upperTree, upperFound⟩ := NameMap.mem_names_iff.mp upper
        unfold ofMembers
        rw [lowerFound, upperFound]
        cases flagFound : members.find? "exclusive" with
        | none =>
            exact ⟨_, rfl⟩
        | some tree =>
            obtain ⟨truth, rfl⟩ := exclusive tree flagFound
            exact ⟨_, rfl⟩

theorem exists_ofItems_iff
    {items : List Json} :
    (∃ range, ofItems items = .ok range) ↔ (Json.array items).IsRange := by
  constructor
  · rintro ⟨range, read⟩
    unfold ofItems at read
    split at read
    · cases read
    · cases read
    · exact .bounds _ _
    · obtain ⟨exclusive, flag, rest⟩ := Except.bind_eq_ok_iff.mp read
      obtain ⟨truth, rfl⟩ := exists_exclusiveOf_iff.mp ⟨exclusive, flag⟩
      split at rest
      · rename_i nothing
        rw [List.isEmpty_iff.mp nothing]
        exact .flagged _ _ truth
      · cases rest
  · intro isRange
    cases isRange with
    | bounds lower upper =>
        exact ⟨_, rfl⟩
    | flagged lower upper exclusive =>
        exact ⟨_, rfl⟩

/-- All ranges are read, and nothing else is. -/
theorem exists_ofJson_iff
    {tree : Json} :
    (∃ range, ofJson tree = .ok range) ↔ tree.IsRange := by
  cases tree with
  | scalar leaf =>
      exact iff_of_false nofun nofun
  | array items =>
      exact exists_ofItems_iff
  | object members =>
      exact exists_ofMembers_iff

end ValueRange

/-- What an operator is for: the text of an identity, a range, or any value. -/
def Operator.Accepts : Operator → Json → Prop
  | identity, held =>
      held.IsIdentity
  | range, held =>
      held.IsRange
  | equality, _ =>
      True

/-- Operators are read with what they are for, and with nothing else. -/
theorem Requirement.exists_ofJson_operator_iff
    {operator : Operator}
    {held : Json} :
    (∃ requirement, ofJson (.object [(operator.name, held)]) = .ok requirement) ↔
      operator.Accepts held := by
  rw [ofJson, Operator.ofMembers?_singleton]
  cases operator with
  | identity =>
      rw [Operator.Accepts, ← Value.exists_identityOf?_iff]
      dsimp only [Operator.name]
      cases Value.identityOf? [(Value.identityKey, held)] with
      | none =>
          simp only [reduceCtorEq, exists_false]
      | some identity =>
          exact iff_of_true ⟨_, rfl⟩ ⟨identity, rfl⟩
  | range =>
      rw [Operator.Accepts, ← ValueRange.exists_ofJson_iff]
      dsimp only
      cases ValueRange.ofJson held with
      | error error =>
          simp only [reduceCtorEq, exists_false]
      | ok range =>
          exact iff_of_true ⟨_, rfl⟩ ⟨range, rfl⟩
  | equality =>
      exact iff_of_true ⟨_, rfl⟩ trivial

/-! ## Nodes -/

namespace Json

/-- A tree that may stand for conditions as a whole. -/
inductive StandsForConditions : Json → Prop where
  | null :
      StandsForConditions .null
  | object
      (members : NameMap Json) :
      StandsForConditions (.object members)

def members : Json → NameMap Json
  | .object members =>
      members
  | _ =>
      []

/--
The nodes that a node holds directly: its members, unless its only member has the
name of an operator.
-/
def innerNodes : Json → NameMap Json
  | .object [(name, held)] =>
      if name ∈ Operator.all.map Operator.name then [] else [(name, held)]
  | .object members =>
      members
  | _ =>
      []

/-- A node stands at a place in the tree. -/
def HasNode
    (tree : Json)
    (path : List String)
    (node : Json) :
    Prop :=
  NameMap.HasNode innerNodes tree.members path node

/-- An operator that does not hold what it is for. -/
inductive IsMalformed : Json → Prop where
  | operator
      {operator : Operator}
      {held : Json}
      (refused : ¬ operator.Accepts held) :
      IsMalformed (.object [(operator.name, held)])

theorem isMalformed_operator_iff
    {operator : Operator}
    {held : Json} :
    (object [(operator.name, held)]).IsMalformed ↔ ¬ operator.Accepts held := by
  constructor
  · intro malformed
    generalize named : operator.name = name at malformed
    cases malformed with
    | operator refused =>
        rename_i other
        have found : Operator.named? other.name = some operator :=
          Operator.named?_eq_some_iff.mpr named
        rw [Operator.named?_eq_some_iff.mpr rfl] at found
        cases found
        exact refused
  · exact .operator

/-- A node holds all its members directly, or none. -/
theorem innerNodes_eq
    (tree : Json) :
    tree.innerNodes = [] ∨ tree.innerNodes = tree.members := by
  unfold innerNodes
  split
  · split
    · exact .inl rfl
    · exact .inr rfl
  · exact .inr rfl
  · exact .inl rfl

theorem innerNodes_operator
    (operator : Operator)
    (held : Json) :
    innerNodes (.object [(operator.name, held)]) = [] := by
  cases operator <;> rfl

theorem innerNodes_of_none
    {members : NameMap Json}
    (noOperator : Operator.ofMembers? members = none) :
    innerNodes (.object members) = members := by
  unfold innerNodes
  split
  · rename_i name held shape
    cases shape
    refine if_neg fun known => ?_
    obtain ⟨operator, -, rfl⟩ := List.mem_map.mp known
    rw [Operator.ofMembers?_singleton] at noOperator
    cases noOperator
  · rename_i shape
    cases shape
    rfl
  · rename_i _ other
    exact absurd rfl (other members)

end Json

/-! ## Reading -/

namespace Json

/-- A malformed node fails with the error that it is read with. -/
structure Fails
    (node : Json)
    (error : ConditionError) :
    Prop where
  isMalformed : node.IsMalformed
  isReported : Requirement.ofJson node = .error error

/-- Reading reports every malformed node. -/
theorem IsMalformed.exists_fails
    {node : Json}
    (malformed : node.IsMalformed) :
    ∃ error, node.Fails error := by
  cases malformed with
  | operator refused =>
      rename_i operator held
      cases read : Requirement.ofJson (.object [(operator.name, held)]) with
      | error error =>
          exact ⟨error, .operator refused, read⟩
      | ok requirement =>
          exact absurd (Requirement.exists_ofJson_operator_iff.mp ⟨_, read⟩) refused

end Json

/-- Conditions are read by a walk if each of their requirements is. -/
private theorem Conditions.ofMembers_outcome_of_entries
    {members : NameMap Json}
    {path : List String}
    (entries :
      ∀ member ∈ members,
        NameMap.Outcome Json.innerNodes Json.Fails (fun _ error => error) path
          [member] (Requirement.ofJson member.2)) :
    NameMap.Outcome Json.innerNodes Json.Fails (fun _ error => error) path
      members (Conditions.ofMembers members) := by
  induction members with
  | nil =>
      exact .passes NameMap.clear_nil []
  | cons member rest inductionHypothesis =>
      obtain ⟨name, tree⟩ := member
      obtain ⟨ofFirst, ofRest⟩ := List.forall_mem_cons.mp entries
      exact ofFirst.cons (inductionHypothesis ofRest)
        fun requirement requirements => (name, requirement) :: requirements

/-- A requirement is read by a walk that stops at a malformed node. -/
theorem Requirement.ofJson_outcome
    (node : Json)
    (name : String)
    (path : List String) :
    NameMap.Outcome Json.innerNodes Json.Fails (fun _ error => error) path
      [(name, node)] (Requirement.ofJson node) := by
  induction node using Json.inductionOn generalizing name path with
  | scalar leaf =>
      exact .leaf (fun _ fails => nomatch fails.isMalformed) rfl _
  | array items =>
      exact .leaf (fun _ fails => nomatch fails.isMalformed) rfl _
  | object members inductionHypothesis =>
      cases known : Operator.ofMembers? members with
      | some found =>
          obtain ⟨operator, held⟩ := found
          obtain rfl := Operator.ofMembers?_eq_some_iff.mp known
          by_cases accepts : operator.Accepts held
          · obtain ⟨requirement, read⟩ := exists_ofJson_operator_iff.mpr accepts
            rw [read]
            refine .leaf ?_ (Json.innerNodes_operator operator held) requirement
            intro error fails
            exact Json.isMalformed_operator_iff.mp fails.isMalformed accepts
          · obtain ⟨error, fails⟩ := (Json.IsMalformed.operator accepts).exists_fails
            rw [fails.isReported]
            exact .failing fails
      | none =>
          have read :
              Requirement.ofJson (.object members) =
                (Conditions.ofMembers members).map .nested := by
            rw [ofJson, known]
          rw [read]
          refine .holder ?_ ?_ Requirement.nested
          · intro error fails
            cases fails.isMalformed with
            | operator refused =>
                rw [Operator.ofMembers?_singleton] at known
                cases known
          · rw [Json.innerNodes_of_none known]
            exact Conditions.ofMembers_outcome_of_entries fun member isMember =>
              inductionHypothesis member isMember member.1 _

namespace Conditions

/-- What may stand for conditions is read by a walk over its members. -/
theorem ofJson_outcome
    {tree : Json}
    (stands : tree.StandsForConditions) :
    NameMap.Outcome Json.innerNodes Json.Fails (fun _ error => error) []
      tree.members (ofJson tree) := by
  cases stands with
  | null =>
      exact .passes NameMap.clear_nil []
  | object members =>
      exact ofMembers_outcome_of_entries fun member _ =>
        Requirement.ofJson_outcome member.2 member.1 []

theorem ofJson_of_not_stands
    {tree : Json}
    (other : ¬ tree.StandsForConditions) :
    ofJson tree = .error (.notAnObject tree) := by
  unfold ofJson
  split
  · rename_i members
    exact absurd (.object members) other
  · exact absurd .null other
  · rfl

end Conditions

namespace Json.InOrder

variable {tree : Json}

theorem ordered_members
    (inOrder : tree.InOrder) :
    tree.members.Ordered := by
  cases inOrder with
  | scalar leaf =>
      exact .nil
  | array inside =>
      exact .nil
  | object ascending inside =>
      exact ascending

theorem of_mem_members
    (inOrder : tree.InOrder) :
    ∀ member ∈ tree.members, member.2.InOrder := by
  cases inOrder with
  | scalar leaf =>
      exact nofun
  | array inside =>
      exact nofun
  | object ascending inside =>
      exact inside

/-- The nodes inside each node of a tree in order are in order. -/
theorem ordered_innerNodes
    (inOrder : tree.InOrder)
    (path : List String)
    (node : Json)
    (place : tree.HasNode path node) :
    node.innerNodes.Ordered := by
  have nodeInOrder : node.InOrder := by
    refine place.inherits inOrder.of_mem_members ?_
    intro holder holderInOrder
    rcases holder.innerNodes_eq with none | all
    · rw [none]
      exact nofun
    · rw [all]
      exact holderInOrder.of_mem_members
  rcases node.innerNodes_eq with none | all
  · rw [none]
    exact .nil
  · rw [all]
    exact nodeInOrder.ordered_members

end Json.InOrder

/--
A tree is read as conditions exactly if it is null or an object and no node in it
is malformed.  The error for a tree in order is that it is neither, or else the one
that the first malformed node is read with.
-/
theorem Conditions.ofJson_accepts_grammar
    (tree : Json) :
    ((∃ conditions, Conditions.ofJson tree = .ok conditions) ↔
      tree.StandsForConditions ∧
        ∀ path node, tree.HasNode path node → ¬ node.IsMalformed) ∧
    (tree.InOrder → ∀ error, Conditions.ofJson tree = .error error →
      ¬ tree.StandsForConditions ∧ error = .notAnObject tree ∨
        ∃ path node, tree.HasNode path node ∧ node.IsMalformed ∧
          Requirement.ofJson node = .error error ∧
          ∀ other found, tree.HasNode other found → found.IsMalformed →
            NameMap.NoLater path other) := by
  refine ⟨?_, ?_⟩
  · by_cases stands : tree.StandsForConditions
    · rw [(ofJson_outcome stands).exists_ok_iff, and_iff_right stands]
      constructor
      · intro clear path node place malformed
        obtain ⟨error, fails⟩ := malformed.exists_fails
        exact clear path error ⟨node, place, fails⟩
      · rintro sound path error ⟨node, place, fails⟩
        exact sound path node place fails.isMalformed
    · rw [ofJson_of_not_stands stands]
      exact iff_of_false nofun fun accepted => stands accepted.1
  · intro inOrder error read
    by_cases stands : tree.StandsForConditions
    · have comesTo := ofJson_outcome stands
      rw [read] at comesTo
      obtain ⟨path, reported, first, rfl⟩ :=
        comesTo.exists_firstFailure inOrder.ordered_members inOrder.ordered_innerNodes
      obtain ⟨node, place, fails⟩ := first.hasFailure
      refine .inr ⟨path, node, place, fails.isMalformed, fails.isReported, ?_⟩
      intro other found otherPlace malformed
      obtain ⟨otherError, otherFails⟩ := malformed.exists_fails
      exact first.least other otherError ⟨found, otherPlace, otherFails⟩
    · rw [ofJson_of_not_stands stands] at read
      cases read
      exact .inl ⟨stands, rfl⟩

/--
The reserved name of ranges as an attribute, an author whose number is a range
with one bound alone, and an owner who is no identity.
-/
def misreadTree : Json :=
  .object
    [("$range", .array []),
      ("author", .object [("number", .object [("$range", .array [.null])])]),
      ("owner", .object [("$id", .string "nobody")])]

theorem misreadTree_inOrder :
    misreadTree.InOrder := by
  have ascending : List.Pairwise (· < ·) ["$range", "author", "owner"] := by
    decide
  refine .object ascending ?_
  simp only [List.forall_mem_cons]
  refine ⟨.array nofun, .singleton (.singleton (.array ?_)), .singleton (.scalar _), nofun⟩
  exact List.forall_mem_singleton.mpr (.scalar _)

/-- Of two malformed nodes the one under the lesser name is reported. -/
theorem Conditions.ofJson_accepts_grammar_misread :
    Conditions.ofJson misreadTree =
        .error (.notARange (.wrongLength 1 ValueRange.itemsDescription)) ∧
      ∃ path node, misreadTree.HasNode path node ∧ node.IsMalformed ∧
        Requirement.ofJson node =
          .error (.notARange (.wrongLength 1 ValueRange.itemsDescription)) ∧
        NameMap.NoLater path ["owner"] := by
  have read :
      Conditions.ofJson misreadTree =
        .error (.notARange (.wrongLength 1 ValueRange.itemsDescription)) :=
    rfl
  have owner :
      misreadTree.HasNode ["owner"] (.object [("$id", .string "nobody")]) :=
    .here (by simp [misreadTree, Json.members])
  have refused : ¬ Operator.identity.Accepts (.string "nobody") := by
    rintro ⟨isText⟩
    exact absurd isText.length (by decide)
  have malformed : (Json.object [("$id", .string "nobody")]).IsMalformed :=
    .operator refused
  rcases (Conditions.ofJson_accepts_grammar misreadTree).2 misreadTree_inOrder _ read with
    ⟨other, -⟩ | ⟨path, node, place, isMalformed, reported, least⟩
  · exact absurd (.object _) other
  · exact ⟨read, path, node, place, isMalformed, reported,
      least _ _ owner malformed⟩

end Permission
