import Permission.Proofs.Conditions.Order
import Permission.Proofs.Conditions.Translation
import Permission.Proofs.Json.Equality

namespace Permission

/-!
# Filters told apart by their documents

The document of a compiled filter has one member for each attribute, and what
that member is tells which requirement it comes from: a bare value is never an
object, and the names of operators differ from one kind of predicate to the
next.  So two results of compilation that are written as equal documents are
equal, as long as the values in them are not written like other ones.
-/

namespace Predicate

/-- What a field that has this one predicate is written as. -/
def document
    (predicate : Predicate) :
    Json :=
  predicate.alone predicate.operators

/-- The first of the operators of a predicate. -/
def operatorName : Predicate → String
  | equalTo _ =>
      Filter.equalityName
  | oneOf _ =>
      "$in"
  | within _ =>
      "$gte"
  | present _ =>
      "$exists"
  | ofKind _ =>
      "$type"
  | embedded _ =>
      "$matches"

theorem exists_names_operators
    (predicate : Predicate) :
    ∃ later, NameMap.names predicate.operators =
      predicate.operatorName :: later := by
  cases predicate with
  | within range =>
      exact ⟨[_], rfl⟩
  | _ =>
      exact ⟨[], rfl⟩

/-- A value that stands by itself is no object. -/
theorem of_bareValue?_eq_some
    {predicate : Predicate}
    {value : Value}
    (bare : predicate.bareValue? = some value) :
    predicate = .equalTo value ∧ value.toJson.memberNames? = none := by
  cases predicate with
  | equalTo expected =>
      cases expected with
      | record attributes =>
          cases bare
      | identifier identity =>
          cases bare
      | float number =>
          cases bare
          refine ⟨rfl, ?_⟩
          rw [Value.toJson, Value.floatJson]
          split <;> rfl
      | _ =>
          cases bare
          exact ⟨rfl, rfl⟩
  | _ =>
      cases bare

theorem document_of_bareValue?
    {predicate : Predicate}
    {value : Value}
    (bare : predicate.bareValue? = some value) :
    predicate.document = value.toJson := by
  rw [document, alone, bare]

theorem document_of_no_bareValue?
    {predicate : Predicate}
    (notBare : predicate.bareValue? = none) :
    predicate.document = .object predicate.operators := by
  rw [document, alone, notBare]

/-- A predicate is written as a bare value or as an object of its operators. -/
theorem memberNames?_document
    (predicate : Predicate) :
    predicate.document.memberNames? =
      predicate.bareValue?.elim (some (NameMap.names predicate.operators))
        fun _ => none := by
  cases bare : predicate.bareValue? with
  | none =>
      rw [document_of_no_bareValue? bare]
      rfl
  | some value =>
      rw [document_of_bareValue? bare]
      exact (of_bareValue?_eq_some bare).2

section EqualDocuments

variable
  {left right : Predicate}
  (equal : (left.document == right.document) = true)

include equal

/-- Of predicates with equal documents both are a bare value, or neither is. -/
theorem equal_documents_cases :
    (∃ value other, left = .equalTo value ∧ right = .equalTo other ∧
        (value.toJson == other.toJson) = true) ∨
      (Json.object left.operators == Json.object right.operators) = true := by
  have sameNames := Json.memberNames?_eq_of_beq equal
  rw [memberNames?_document, memberNames?_document] at sameNames
  cases leftBare : left.bareValue? with
  | none =>
      cases rightBare : right.bareValue? with
      | none =>
          rw [document_of_no_bareValue? leftBare,
            document_of_no_bareValue? rightBare] at equal
          exact .inr equal
      | some other =>
          rw [leftBare, rightBare] at sameNames
          cases sameNames
  | some value =>
      cases rightBare : right.bareValue? with
      | none =>
          rw [leftBare, rightBare] at sameNames
          cases sameNames
      | some other =>
          rw [document_of_bareValue? leftBare,
            document_of_bareValue? rightBare] at equal
          exact .inl
            ⟨value, other, (of_bareValue?_eq_some leftBare).1,
              (of_bareValue?_eq_some rightBare).1, equal⟩

/-- Their operators begin alike. -/
theorem operatorName_eq_of_document_beq :
    left.operatorName = right.operatorName := by
  rcases equal_documents_cases equal with
    ⟨value, other, rfl, rfl, -⟩ | sameOperators
  · rfl
  · obtain ⟨later, leftNames⟩ := left.exists_names_operators
    obtain ⟨others, rightNames⟩ := right.exists_names_operators
    have sameNames :
        some (NameMap.names left.operators) =
          some (NameMap.names right.operators) :=
      Json.memberNames?_eq_of_beq sameOperators
    rw [leftNames, rightNames] at sameNames
    exact (List.cons.inj (Option.some.inj sameNames)).1

end EqualDocuments

end Predicate

/-! ## Documents of ordered filters -/

namespace Filter

/-- The members of a document, one for each clause. -/
def members
    (filter : Filter) :
    NameMap Json :=
  filter.map fun clause => (clause.1, clause.2.document)

/-- Clauses whose fields ascend are added to a document one after another. -/
theorem addTo_eq_append
    {filter : Filter}
    {document : NameMap Json}
    (ascending : NameMap.Ordered (document ++ filter.members)) :
    filter.addTo document = document ++ filter.members := by
  induction filter generalizing document with
  | nil =>
      rw [addTo]
      exact (List.append_nil document).symm
  | cons clause rest inductionHypothesis =>
      obtain ⟨field, predicate⟩ := clause
      have above : ∀ other ∈ document.names, other < field :=
        NameMap.Ordered.above ascending
      have regrouped :
          document ++ members ((field, predicate) :: rest) =
            (document ++ [(field, predicate.document)]) ++ members rest :=
        (List.append_assoc document [(field, predicate.document)] _).symm
      rw [regrouped] at ascending ⊢
      rw [addTo, NameMap.find?_eq_none_of_above above,
        NameMap.insert_eq_append _ above]
      exact inductionHypothesis ascending

theorem toJson_of_ordered
    {filter : Filter}
    (ascending : NameMap.Ordered filter) :
    filter.toJson = .object filter.members := by
  have membersAscend : NameMap.Ordered ([] ++ filter.members) :=
    NameMap.ordered_map_iff.mpr ascending
  rw [toJson, addTo_eq_append membersAscend]
  rfl

/-- Filters are equal if their fields are the same and their predicates are equal. -/
theorem beq_iff_forall₂
    {left right : Filter} :
    (left == right) = true ↔
      List.Forall₂
        (fun clause other =>
          clause.1 = other.1 ∧ (clause.2 == other.2) = true)
        left right := by
  rw [List.beq_iff_forall₂]
  simp only [NameMap.entry_beq_iff]

end Filter

/-! ## From documents back to conditions -/

namespace Requirement

/-- No value in the requirement is written like another one. -/
def HoldsWritable
    (requirement : Requirement) :
    Prop :=
  ∀ part, requirement.HasPart part → ∀ value ∈ part.values, value.Writable

theorem holdsWritable_iff
    {requirement : Requirement} :
    requirement.HoldsWritable ↔
      (∀ value ∈ requirement.values, value.Writable) ∧
        ∀ entry ∈ requirement.inner, entry.2.HoldsWritable :=
  forall_hasPart_iff

theorem holdsWritable_equalTo_iff
    {value : Value} :
    (equalTo value).HoldsWritable ↔ value.Writable := by
  rw [holdsWritable_iff, and_iff_left nofun]
  exact List.forall_mem_singleton

theorem holdsWritable_memberOf_iff
    {membership : Membership} :
    (memberOf membership).HoldsWritable ↔
      ∀ value ∈ (memberOf membership).values, value.Writable := by
  rw [holdsWritable_iff]
  exact and_iff_left nofun

end Requirement

/-- No value in the conditions is written like another one, at any depth. -/
def Conditions.HoldWritable
    (conditions : Conditions) :
    Prop :=
  ∀ entry ∈ conditions, entry.2.HoldsWritable

theorem Requirement.holdsWritable_nested_iff
    {conditions : Conditions} :
    (nested conditions).HoldsWritable ↔ conditions.HoldWritable := by
  rw [holdsWritable_iff]
  exact and_iff_right nofun

namespace Conditions

variable {left right : Conditions}

theorem ordered_toFilter
    {conditions : Conditions}
    (inOrder : conditions.InOrder) :
    NameMap.Ordered conditions.toFilter := by
  rw [toFilter_eq_map]
  exact NameMap.ordered_map_iff.mpr inOrder.1

/--
Conditions are told apart by the documents of their filters if their
requirements are.
-/
theorem toFilter_beq_of_entries
    (leftInOrder : left.InOrder)
    (rightInOrder : right.InOrder)
    (rightWritable : right.HoldWritable)
    (entries :
      ∀ entry ∈ left, ∀ other : Requirement,
        other.HoldsWritable → other.InOrder →
        (entry.2.toPredicate.document == other.toPredicate.document) = true →
          (entry.2.toPredicate == other.toPredicate) = true)
    (equal :
      (left.toFilter.toJson == right.toFilter.toJson) = true) :
    (left.toFilter == right.toFilter) = true := by
  rw [Filter.toJson_of_ordered (ordered_toFilter leftInOrder),
    Filter.toJson_of_ordered (ordered_toFilter rightInOrder),
    Json.object_beq_iff, Filter.members, Filter.members,
    toFilter_eq_map, toFilter_eq_map, List.map_map, List.map_map,
    List.forall₂_map_left_iff, List.forall₂_map_right_iff] at equal
  rw [Filter.beq_iff_forall₂, toFilter_eq_map, toFilter_eq_map,
    List.forall₂_map_left_iff, List.forall₂_map_right_iff]
  have rightSound :
      ∀ other ∈ right, other.2.HoldsWritable ∧ other.2.InOrder :=
    fun other member => ⟨rightWritable other member, rightInOrder.2 other member⟩
  have pairs :=
    (List.forall₂_and_left _ _).mpr
      ⟨entries, List.forall₂_and_right rightSound equal⟩
  refine pairs.imp fun entry other pair => ?_
  obtain ⟨ofEntry, ⟨otherWritable, otherInOrder⟩, sameName, sameDocument⟩ := pair
  exact ⟨sameName, ofEntry other.2 otherWritable otherInOrder sameDocument⟩

end Conditions

/-- Objects of one operator each hold equal operands. -/
theorem Json.beq_of_singleton_beq
    {name : String}
    {left right : Json}
    (equal : (object [(name, left)] == object [(name, right)]) = true) :
    (left == right) = true := by
  cases object_beq_iff.mp equal with
  | cons only nothing =>
      exact only.2

namespace Requirement

theorem toJson_beq_of_document_beq
    {left right : Value}
    (equal :
      ((Predicate.equalTo left).document ==
        (Predicate.equalTo right).document) = true) :
    (left.toJson == right.toJson) = true := by
  rcases Predicate.equal_documents_cases equal with
    ⟨value, other, isLeft, isRight, same⟩ | sameOperators
  · cases isLeft
    cases isRight
    exact same
  · exact Json.beq_of_singleton_beq sameOperators

/-- The operators of a range hold its bounds, and the second one tells if it is exclusive. -/
theorem range_beq_of_document_beq
    {left right : ValueRange}
    (leftWritable : (memberOf (.range left)).HoldsWritable)
    (rightWritable : (memberOf (.range right)).HoldsWritable)
    (equal :
      ((Predicate.within left).document ==
        (Predicate.within right).document) = true) :
    (left == right) = true := by
  simp only [holdsWritable_memberOf_iff, values, List.forall_mem_cons]
    at leftWritable rightWritable
  obtain ⟨leftLower, leftUpper, -⟩ := leftWritable
  obtain ⟨rightLower, rightUpper, -⟩ := rightWritable
  cases Json.object_beq_iff.mp equal with
  | cons lowers others =>
      cases others with
      | cons uppers nothing =>
          have sameExclusive : left.exclusive = right.exclusive := by
            have sameName := uppers.1
            by_cases leftExclusive : left.exclusive = true <;>
              by_cases rightExclusive : right.exclusive = true <;>
                simp_all
          exact ValueRange.beq_iff.mpr
            ⟨Value.beq_of_toJson_beq leftLower rightLower lowers.2,
              Value.beq_of_toJson_beq leftUpper rightUpper uppers.2,
              sameExclusive⟩

/-- A requirement is one of four sorts, each with an operator of its own. -/
@[elab_as_elim]
theorem sortCases
    {motive : Requirement → Prop}
    (equalTo : ∀ value, motive (.equalTo value))
    (set : ∀ members, motive (.memberOf (.set members)))
    (range : ∀ bounds, motive (.memberOf (.range bounds)))
    (nested : ∀ conditions, motive (.nested conditions))
    (requirement : Requirement) :
    motive requirement := by
  cases requirement with
  | equalTo value =>
      exact equalTo value
  | memberOf membership =>
      cases membership with
      | set members =>
          exact set members
      | range bounds =>
          exact range bounds
  | nested conditions =>
      exact nested conditions

/-- Requirements whose documents are equal ask a store for equal predicates. -/
theorem toPredicate_beq_of_document_beq
    (left right : Requirement)
    (leftWritable : left.HoldsWritable)
    (rightWritable : right.HoldsWritable)
    (leftInOrder : left.InOrder)
    (rightInOrder : right.InOrder)
    (equal :
      (left.toPredicate.document == right.toPredicate.document) = true) :
    (left.toPredicate == right.toPredicate) = true := by
  -- Requirements of two sorts are ruled out by their operators.
  induction left using inductionOn generalizing right with
  | equalTo value =>
      have sameOperator := Predicate.operatorName_eq_of_document_beq equal
      cases right using sortCases with
      | equalTo other =>
          rw [holdsWritable_equalTo_iff] at leftWritable rightWritable
          exact Value.beq_of_toJson_beq leftWritable rightWritable
            (toJson_beq_of_document_beq equal)
      | _ =>
          simp [toPredicate, Predicate.operatorName, Filter.equalityName]
            at sameOperator
  | memberOf membership =>
      have sameOperator := Predicate.operatorName_eq_of_document_beq equal
      cases membership with
      | set members =>
          cases right using sortCases with
          | set others =>
              rw [holdsWritable_memberOf_iff] at leftWritable rightWritable
              have sameItems :
                  (Value.toItems members == Value.toItems others) = true := by
                rw [← Json.array_beq]
                exact Json.beq_of_singleton_beq equal
              exact Value.beq_of_toItems_beq leftWritable rightWritable sameItems
          | _ =>
              simp [toPredicate, Predicate.operatorName, Filter.equalityName]
                at sameOperator
      | range bounds =>
          cases right using sortCases with
          | range others =>
              exact range_beq_of_document_beq leftWritable rightWritable equal
          | _ =>
              simp [toPredicate, Predicate.operatorName, Filter.equalityName]
                at sameOperator
  | nested conditions inductionHypothesis =>
      have sameOperator := Predicate.operatorName_eq_of_document_beq equal
      cases right using sortCases with
      | nested others =>
          rw [holdsWritable_nested_iff] at leftWritable rightWritable
          rw [inOrder_nested_iff] at leftInOrder rightInOrder
          have sameFilter :
              (conditions.toFilter == Conditions.toFilter others) = true := by
            apply Conditions.toFilter_beq_of_entries leftInOrder rightInOrder
              rightWritable
            · intro entry member other otherWritable otherInOrder
              exact inductionHypothesis entry member other
                (leftWritable entry member) otherWritable
                (leftInOrder.2 entry member) otherInOrder
            · exact Json.beq_of_singleton_beq equal
          exact (Predicate.equalFilters_eq_beq _ _).trans sameFilter
      | _ =>
          simp [toPredicate, Predicate.operatorName, Filter.equalityName]
            at sameOperator

end Requirement

/-! ## Documents of compiled results -/

/-- For each member of a document, the operators that it consists of. -/
def Json.operatorsInside
    (tree : Json) :
    List (Option (List String)) :=
  tree.contents.map memberNames?

/-- Equal objects have the same operators inside. -/
theorem Json.operatorsInside_eq_of_object_beq
    {left right : NameMap Json}
    (equal : (object left == object right) = true) :
    (object left).operatorsInside = (object right).operatorsInside := by
  unfold operatorsInside contents
  rw [List.map_map, List.map_map]
  exact List.map_eq_of_forall₂ <|
    (object_beq_iff.mp equal).imp fun _ _ pair => memberNames?_eq_of_beq pair.2

/-- No requirement asks a store whether a field exists. -/
theorem Requirement.operatorName_ne_exists
    (requirement : Requirement) :
    requirement.toPredicate.operatorName ≠ "$exists" := by
  cases requirement using sortCases <;>
    simp [toPredicate, Predicate.operatorName, Filter.equalityName]

namespace Compiled

theorem operatorsInside_nothing :
    nothing.lower.toJson.operatorsInside = [some ["$exists", "$type"]] :=
  rfl

theorem operatorsInside_native
    {conditions : Conditions}
    (inOrder : conditions.InOrder) :
    (native conditions.toFilter).lower.toJson.operatorsInside =
      conditions.map fun entry =>
        entry.2.toPredicate.document.memberNames? := by
  rw [lower, Filter.toJson_of_ordered (Conditions.ordered_toFilter inOrder),
    Filter.members, Conditions.toFilter_eq_map, Json.operatorsInside,
    Json.contents, List.map_map, List.map_map, List.map_map]
  rfl

/-- Selecting nothing is written with operators that no requirement is written with. -/
theorem operatorsInside_nothing_ne_native
    {conditions : Conditions}
    (inOrder : conditions.InOrder) :
    nothing.lower.toJson.operatorsInside ≠
      (native conditions.toFilter).lower.toJson.operatorsInside := by
  intro same
  have written :
      some ["$exists", "$type"] ∈
        (native conditions.toFilter).lower.toJson.operatorsInside := by
    rw [← same, operatorsInside_nothing]
    exact List.mem_singleton_self _
  rw [operatorsInside_native inOrder, List.mem_map] at written
  obtain ⟨entry, -, isSentinel⟩ := written
  rw [Predicate.memberNames?_document] at isSentinel
  cases bare : entry.2.toPredicate.bareValue? with
  | some value =>
      rw [bare] at isSentinel
      cases isSentinel
  | none =>
      obtain ⟨later, names⟩ := entry.2.toPredicate.exists_names_operators
      rw [bare, names] at isSentinel
      have isExists : entry.2.toPredicate.operatorName = "$exists" :=
        (List.cons.inj (Option.some.inj isSentinel)).1
      exact entry.2.operatorName_ne_exists isExists

theorem operatorsInside_native_ne_nil
    {conditions : Conditions}
    (inOrder : conditions.InOrder)
    (nonempty : conditions ≠ []) :
    (native conditions.toFilter).lower.toJson.operatorsInside ≠ [] := by
  rw [operatorsInside_native inOrder]
  exact fun isNil => nonempty (List.map_eq_nil_iff.mp isNil)

end Compiled

/-- What conditions compile to: nothing, everything or the filter they translate to. -/
theorem compile_eq_ok
    {capabilities : Capabilities}
    {conditions : Option Conditions}
    {compiled : Compiled}
    (compiles : compile capabilities conditions = .ok compiled) :
    (conditions = none ∧ compiled = .nothing) ∨
      (conditions = some [] ∧ compiled = .everything) ∨
      ∃ requirements, conditions = some requirements ∧ requirements ≠ [] ∧
        compiled = .native requirements.toFilter := by
  cases conditions with
  | none =>
      cases compiles
      exact .inl ⟨rfl, rfl⟩
  | some requirements =>
      rcases compile_some_eq_ok compiles with ⟨rfl, rfl⟩ | ⟨nonempty, rfl⟩
      · exact .inr (.inl ⟨rfl, rfl⟩)
      · exact .inr (.inr ⟨requirements, rfl, nonempty, rfl⟩)

/--
The document of a compiled result tells it apart from every other one: results
of compiling any conditions for any store are equal if they are lowered to
filters that are written as equal trees, as long as no value in the conditions
is written like another one.
-/
theorem Compiled.beq_of_toJson_lower_beq
    {leftCapabilities rightCapabilities : Capabilities}
    {leftConditions rightConditions : Option Conditions}
    {left right : Compiled}
    (leftCompiles : compile leftCapabilities leftConditions = .ok left)
    (rightCompiles : compile rightCapabilities rightConditions = .ok right)
    (leftInOrder : ∀ conditions ∈ leftConditions, conditions.InOrder)
    (rightInOrder : ∀ conditions ∈ rightConditions, conditions.InOrder)
    (leftWritable : ∀ conditions ∈ leftConditions, conditions.HoldWritable)
    (rightWritable : ∀ conditions ∈ rightConditions, conditions.HoldWritable)
    (equal : (left.lower.toJson == right.lower.toJson) = true) :
    (left == right) = true := by
  have sameInside :
      left.lower.toJson.operatorsInside = right.lower.toJson.operatorsInside :=
    Json.operatorsInside_eq_of_object_beq equal
  rcases compile_eq_ok leftCompiles with
    ⟨-, rfl⟩ | ⟨-, rfl⟩ | ⟨conditions, rfl, nonempty, rfl⟩
  · rcases compile_eq_ok rightCompiles with
      ⟨-, rfl⟩ | ⟨-, rfl⟩ | ⟨others, rfl, -, rfl⟩
    · rfl
    · cases sameInside
    · exact absurd sameInside
        (operatorsInside_nothing_ne_native (rightInOrder others rfl))
  · rcases compile_eq_ok rightCompiles with
      ⟨-, rfl⟩ | ⟨-, rfl⟩ | ⟨others, rfl, othersNonempty, rfl⟩
    · cases sameInside
    · rfl
    · exact absurd sameInside.symm
        (operatorsInside_native_ne_nil (rightInOrder others rfl) othersNonempty)
  · rcases compile_eq_ok rightCompiles with
      ⟨-, rfl⟩ | ⟨-, rfl⟩ | ⟨others, rfl, -, rfl⟩
    · exact absurd sameInside.symm
        (operatorsInside_nothing_ne_native (leftInOrder conditions rfl))
    · exact absurd sameInside
        (operatorsInside_native_ne_nil (leftInOrder conditions rfl) nonempty)
    · apply Conditions.toFilter_beq_of_entries (leftInOrder conditions rfl)
        (rightInOrder others rfl) (rightWritable others rfl)
      · intro entry member other otherWritable otherInOrder
        exact entry.2.toPredicate_beq_of_document_beq other
          (leftWritable conditions rfl entry member) otherWritable
          ((leftInOrder conditions rfl).2 entry member) otherInOrder
      · exact equal

/-- What is open and scores from a zero of either sign up to seven. -/
def openFrom
    (zero : Binary64) :
    Conditions :=
  [("score", .memberOf (.range ⟨.float zero, .integer 7, true⟩)),
    ("state", .equalTo (.string "open"))]

theorem openFrom_inOrder
    (zero : Binary64) :
    (openFrom zero).InOrder := by
  have ascending : List.Pairwise (· < ·) ["score", "state"] := by
    decide
  refine ⟨ascending, ?_⟩
  simp only [openFrom, List.forall_mem_cons]
  refine ⟨?_, ?_, nofun⟩
  · exact Requirement.inOrder_range_iff.mpr
      ⟨Value.inOrder_of_kind nofun nofun, Value.inOrder_of_kind nofun nofun⟩
  · exact Requirement.inOrder_equalTo_iff.mpr (Value.inOrder_of_kind nofun nofun)

theorem openFrom_holdWritable
    {zero : Binary64}
    (finite : zero.isFinite = true) :
    (openFrom zero).HoldWritable := by
  unfold Conditions.HoldWritable openFrom
  simp only [List.forall_mem_cons, Requirement.holdsWritable_memberOf_iff,
    Requirement.holdsWritable_equalTo_iff, Requirement.values]
  have wholeWritable : (Value.integer 7).Writable :=
    Value.writable_of_kind (by decide) (by decide) (by decide)
  have textWritable : (Value.string "open").Writable :=
    Value.writable_of_kind (by decide) (by decide) (by decide)
  exact
    ⟨⟨Value.writable_float_iff.mpr finite, wholeWritable, List.forall_mem_nil _⟩,
      textWritable, List.forall_mem_nil _⟩

theorem Compiled.beq_of_toJson_lower_beq_openFrom :
    openFrom ⟨0⟩ ≠ openFrom ⟨0x8000000000000000⟩ ∧
      (native (openFrom ⟨0⟩).toFilter ==
        native (openFrom ⟨0x8000000000000000⟩).toFilter) = true := by
  have leftCompiles :
      compile .full (some (openFrom ⟨0⟩)) =
        .ok (.native (openFrom ⟨0⟩).toFilter) :=
    rfl
  have rightCompiles :
      compile ⟨true, false⟩ (some (openFrom ⟨0x8000000000000000⟩)) =
        .ok (.native (openFrom ⟨0x8000000000000000⟩).toFilter) :=
    rfl
  refine ⟨by simp [openFrom], ?_⟩
  apply Compiled.beq_of_toJson_lower_beq leftCompiles rightCompiles
  · rintro _ ⟨⟩
    exact openFrom_inOrder _
  · rintro _ ⟨⟩
    exact openFrom_inOrder _
  · rintro _ ⟨⟩
    exact openFrom_holdWritable (by decide)
  · rintro _ ⟨⟩
    exact openFrom_holdWritable (by decide)
  · decide +kernel

end Permission
