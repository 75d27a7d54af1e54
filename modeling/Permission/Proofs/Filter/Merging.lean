import Permission.Proofs.Filter.Document
import Permission.Proofs.Filter.Written

namespace Permission

/-!
# Clauses merged into one document

The document of a filter is built up clause by clause.  What a field was written
as so far may be a bare value or an object of operators, and each further clause
on it adds its own operators to those.  At each step the document is what the
clauses so far are to be written as, so in the end it is the one tree that the
whole filter is written as.
-/

/-! ## The operators of one predicate -/

namespace Predicate

/-- The operators of the predicate have the operands that they are to have. -/
def HasItsOperands
    (predicate : Predicate) :
    Prop :=
  ∀ name operand, (name, operand) ∈ predicate.operators →
    predicate.HasOperand name operand

theorem names_operators
    (predicate : Predicate) :
    NameMap.names predicate.operators = predicate.operatorNames := by
  cases predicate <;> rfl

theorem ordered_operators
    (predicate : Predicate) :
    NameMap.Ordered predicate.operators := by
  cases predicate with
  | within range =>
      obtain ⟨lower, upper, exclusive⟩ := range
      have lowerFirst : "$gte" < if exclusive then "$lt" else "$lte" := by
        cases exclusive <;> decide
      exact List.pairwise_pair.mpr lowerFirst
  | _ =>
      exact NameMap.ordered_singleton _

/-- Every operator is marked as one. -/
theorem isOperatorName_of_mem
    {predicate : Predicate}
    {name : String}
    (member : name ∈ predicate.operatorNames) :
    Filter.isOperatorName name = true := by
  cases predicate with
  | within range =>
      have bothMarked :
          ∀ exclusive : Bool,
            ∀ known ∈ ["$gte", if exclusive then "$lt" else "$lte"],
              Filter.isOperatorName known = true := by
        decide
      exact bothMarked range.exclusive name member
  | _ =>
      obtain rfl := List.mem_singleton.mp member
      decide

theorem bareValue?_eq_some_iff
    {predicate : Predicate}
    {value : Value} :
    predicate.bareValue? = some value ↔
      predicate = .equalTo value ∧ value.StandsAlone := by
  constructor
  · intro bare
    obtain ⟨rfl, -⟩ := of_bareValue?_eq_some bare
    refine ⟨rfl, ?_⟩
    cases value with
    | record attributes =>
        cases bare
    | identifier identity =>
        cases bare
    | _ =>
        exact ⟨nofun, nofun⟩
  · rintro ⟨rfl, notRecord, notIdentifier⟩
    cases value with
    | record attributes =>
        exact absurd rfl notRecord
    | identifier identity =>
        exact absurd rfl notIdentifier
    | _ =>
        rfl

/-- A value that stands alone counts as the operator for equality. -/
theorem addOperators_bare
    {value : Value}
    (alone : value.StandsAlone)
    (operators : NameMap Json) :
    Filter.addOperators value.toJson operators =
      .object (NameMap.insertAll (equalTo value).operators operators) := by
  have bare := bareValue?_eq_some_iff.mpr ⟨rfl, alone⟩
  have notObject : value.toJson.memberNames? = none :=
    (of_bareValue?_eq_some bare).2
  rw [Predicate.operators]
  cases written : value.toJson with
  | object members =>
      rw [written] at notObject
      cases notObject
  | _ =>
      rfl

/-! ## One predicate more -/

section OneMore

variable
  {predicates : List Predicate}
  {predicate : Predicate}
  (operands : predicate.HasItsOperands)

/-- An operator that a further predicate does not have stays as it was. -/
theorem LastOperand.append
    {name : String}
    {operand : Json}
    (isLast : LastOperand predicates name operand)
    (notMember : name ∉ predicate.operatorNames) :
    LastOperand (predicates ++ [predicate]) name operand := by
  cases isLast with
  | last before after has noLater =>
      rw [List.append_assoc, List.cons_append]
      refine .last before (after ++ [predicate]) has ?_
      exact List.forall_mem_append.mpr
        ⟨noLater, List.forall_mem_singleton.mpr notMember⟩

include operands

theorem mergedAs_operators :
    MergedAs [predicate] predicate.operators := by
  refine .merged predicate.ordered_operators ?_ ?_
  · intro name
    rw [names_operators]
    simp only [List.mem_singleton, exists_eq_left]
  · intro name operand member
    exact .last [] [] (operands name operand member) nofun

/-- Its operators take precedence, and the other ones stay. -/
theorem MergedAs.append
    {soFar : NameMap Json}
    (merged : MergedAs predicates soFar) :
    MergedAs (predicates ++ [predicate])
      (soFar.insertAll predicate.operators) := by
  cases merged with
  | merged ascending names each =>
      have ascends := NameMap.ordered_insertAll ascending predicate.operators
      refine .merged ascends ?_ ?_
      · intro name
        rw [NameMap.mem_names_insertAll, names_operators, names, or_comm]
        simp only [List.mem_append, List.mem_singleton, or_and_right, exists_or,
          exists_eq_left]
      · intro name operand member
        rw [ascends.mem_iff,
          NameMap.find?_insertAll predicate.ordered_operators,
          Option.or_eq_some_iff] at member
        rcases member with isNew | ⟨notNew, isOld⟩
        · have has := operands name operand (NameMap.mem_of_find?_eq_some isNew)
          exact .last predicates [] has nofun
        · have isLast := each name operand (NameMap.mem_of_find?_eq_some isOld)
          rw [NameMap.find?_eq_none_iff, names_operators] at notNew
          exact isLast.append notNew

theorem allWrittenAs_document :
    AllWrittenAs [predicate] predicate.document := by
  cases bare : predicate.bareValue? with
  | none =>
      rw [document_of_no_bareValue? bare]
      refine .operators ?_ (mergedAs_operators operands)
      intro value same alone
      have isBare :=
        bareValue?_eq_some_iff.mpr ⟨List.singleton_inj.mp same, alone⟩
      rw [bare] at isBare
      cases isBare
  | some value =>
      rw [document_of_bareValue? bare]
      obtain ⟨rfl, alone⟩ := bareValue?_eq_some_iff.mp bare
      exact .bare alone

omit operands in
theorem MergedAs.areOperators
    {soFar : NameMap Json}
    (merged : MergedAs predicates soFar)
    (nonempty : predicates ≠ []) :
    Filter.areOperators soFar = true := by
  cases merged with
  | merged ascending names each =>
      obtain ⟨first, firstMember⟩ := List.exists_mem_of_ne_nil predicates nonempty
      obtain ⟨later, firstNames⟩ := first.exists_names_operators
      rw [names_operators] at firstNames
      have someName : first.operatorName ∈ soFar.names :=
        (names _).mpr ⟨first, firstMember, firstNames ▸ List.mem_cons_self⟩
      have notEmpty : soFar.isEmpty = false := by
        cases soFar with
        | nil =>
            cases someName
        | cons operator rest =>
            rfl
      rw [Filter.areOperators, notEmpty, Bool.not_false, Bool.true_and,
        List.all_eq_true]
      intro operator member
      obtain ⟨predicate, -, isName⟩ :=
        (names operator.1).mp (List.mem_map_of_mem member)
      exact isOperatorName_of_mem isName

/--
Whatever a field was written as, the operators of a further predicate are added
to its operators, of which a value that stands alone is one.
-/
theorem AllWrittenAs.append
    {existing : Json}
    (written : AllWrittenAs predicates existing)
    (nonempty : predicates ≠ []) :
    AllWrittenAs (predicates ++ [predicate])
      (Filter.addOperators existing predicate.operators) := by
  have notBare :
      ∀ value, predicates ++ [predicate] = [.equalTo value] →
        ¬ value.StandsAlone := by
    intro value same
    rcases List.append_eq_singleton_iff.mp same with
      ⟨noneBefore, -⟩ | ⟨-, noneAfter⟩
    · exact absurd noneBefore nonempty
    · cases noneAfter
  cases written with
  | @bare value alone =>
      have equality : (Predicate.equalTo value).HasItsOperands := by
        intro name operand member
        cases List.mem_singleton.mp member
        exact .equalTo value
      have soFar := mergedAs_operators equality
      rw [addOperators_bare alone]
      exact .operators notBare (MergedAs.append operands soFar)
  | operators _ merged =>
      rw [Filter.addOperators, if_pos (merged.areOperators nonempty)]
      exact .operators notBare (merged.append operands)

end OneMore

end Predicate

/-! ## One clause after another -/

namespace Filter

variable
  {filter : Filter}
  {field : String}

theorem predicatesOn_append
    (first later : Filter)
    (field : String) :
    predicatesOn (first ++ later) field =
      first.predicatesOn field ++ later.predicatesOn field := by
  unfold predicatesOn
  rw [List.filter_append, List.map_append]

theorem predicatesOn_single
    (field : String)
    (predicate : Predicate) :
    predicatesOn [(field, predicate)] field = [predicate] := by
  rw [predicatesOn, List.filter_singleton, decide_eq_true rfl]
  rfl

theorem predicatesOn_single_of_ne
    {other : String}
    (different : other ≠ field)
    (predicate : Predicate) :
    predicatesOn [(other, predicate)] field = [] := by
  rw [predicatesOn, List.filter_singleton, decide_eq_false different]
  rfl

theorem predicatesOn_ne_nil_iff :
    filter.predicatesOn field ≠ [] ↔ field ∈ NameMap.names filter := by
  rw [predicatesOn, NameMap.names, List.mem_map, Ne, List.map_eq_nil_iff,
    List.filter_eq_nil_iff]
  push Not
  simp only [decide_eq_true_iff]

/-- A clause changes the member for its field, and no other one. -/
theorem WrittenAs.append
    {document : NameMap Json}
    {predicate : Predicate}
    {member : Json}
    (written : filter.WrittenAs (.object document))
    (extended :
      Predicate.AllWrittenAs (filter.predicatesOn field ++ [predicate]) member) :
    WrittenAs (filter ++ [(field, predicate)])
      (.object (document.insert field member)) := by
  cases written with
  | document ascending fields each =>
      have ascends := NameMap.ordered_insert field member ascending
      refine .document ascends ?_ ?_
      · intro query
        rw [NameMap.mem_names_insert, fields, NameMap.names_append, or_comm,
          List.mem_append, NameMap.names_cons, NameMap.names_nil,
          List.mem_singleton]
      · intro query tree inDocument
        rw [ascends.mem_iff] at inDocument
        rw [predicatesOn_append]
        by_cases same : field = query
        · subst same
          rw [NameMap.find?_insert_self] at inDocument
          cases inDocument
          rw [predicatesOn_single]
          exact extended
        · rw [NameMap.find?_insert_of_ne same] at inDocument
          rw [predicatesOn_single_of_ne same, List.append_nil]
          exact each query tree (ascending.mem_iff.mpr inDocument)

/-- What the member for a field becomes when a predicate on it is added. -/
theorem WrittenAs.extended
    {document : NameMap Json}
    {predicate : Predicate}
    (operands : predicate.HasItsOperands)
    (written : filter.WrittenAs (.object document)) :
    Predicate.AllWrittenAs (filter.predicatesOn field ++ [predicate])
      (match document.find? field with
      | none =>
          predicate.alone predicate.operators
      | some existing =>
          addOperators existing predicate.operators) := by
  cases written with
  | document ascending fields each =>
      cases found : document.find? field with
      | none =>
          rw [NameMap.find?_eq_none_iff, fields, ← predicatesOn_ne_nil_iff,
            not_ne_iff] at found
          rw [found]
          exact Predicate.allWrittenAs_document operands
      | some existing =>
          have member := NameMap.mem_of_find?_eq_some found
          have known : field ∈ NameMap.names filter :=
            (fields field).mp (List.mem_map_of_mem member)
          exact Predicate.AllWrittenAs.append operands
            (each field existing member) (predicatesOn_ne_nil_iff.mpr known)

/-- What the predicates allow for, their filter is written as. -/
theorem writtenAs_addTo
    {done rest : Filter}
    {document : NameMap Json}
    (operands : ∀ clause ∈ rest, clause.2.HasItsOperands)
    (written : done.WrittenAs (.object document)) :
    WrittenAs (done ++ rest) (.object (rest.addTo document)) := by
  induction rest generalizing done document with
  | nil =>
      rw [List.append_nil, addTo]
      exact written
  | cons clause rest inductionHypothesis =>
      obtain ⟨field, predicate⟩ := clause
      obtain ⟨ofFirst, ofRest⟩ := List.forall_mem_cons.mp operands
      rw [addTo, List.append_cons]
      exact inductionHypothesis ofRest
        (written.append (written.extended ofFirst))

/-- The document of a filter starts out empty. -/
theorem writtenAs_nil :
    WrittenAs [] (.object []) :=
  .document List.Pairwise.nil (fun _ => Iff.rfl) nofun

end Filter

theorem Predicate.hasItsOperands
    (predicate : Predicate) :
    predicate.HasItsOperands := by
  induction predicate using inductionOn with
  | equalTo value =>
      intro name operand member
      cases List.mem_singleton.mp member
      exact .equalTo value
  | oneOf values =>
      intro name operand member
      cases List.mem_singleton.mp member
      rw [Value.toItems_eq_map]
      exact .oneOf values
  | within range =>
      intro name operand member
      obtain ⟨lower, upper, exclusive⟩ := range
      rcases List.mem_pair.mp member with isLower | isUpper
      · cases isLower
        exact .lower _
      · cases isUpper
        cases exclusive with
        | true =>
            exact .upperExcluded lower upper
        | false =>
            exact .upperIncluded lower upper
  | present expected =>
      intro name operand member
      cases List.mem_singleton.mp member
      exact .present expected
  | ofKind kind =>
      intro name operand member
      cases List.mem_singleton.mp member
      exact .ofKind kind
  | embedded filter inductionHypothesis =>
      intro name operand member
      cases List.mem_singleton.mp member
      exact .embedded
        (Filter.writtenAs_addTo inductionHypothesis Filter.writtenAs_nil)

theorem Filter.writtenAs_toJson
    (filter : Filter) :
    filter.WrittenAs filter.toJson :=
  writtenAs_addTo (fun clause _ => clause.2.hasItsOperands) writtenAs_nil

/-! ## The document of a filter -/

namespace Filter

theorem writtenAs_iff
    {filter : Filter}
    {tree : Json} :
    filter.WrittenAs tree ↔ tree = filter.toJson := by
  constructor
  · intro written
    exact written.unique (fun clause _ => clause.2.isDetermined)
      filter.writtenAs_toJson
  · rintro rfl
    exact filter.writtenAs_toJson

/--
The document of a filter is the one tree that the rules for merged clauses allow.
Where several clauses on a field share no operator, every operator of every one
of them is in the document with its own operand.
-/
theorem toJson_merges_clauses
    (filter : Filter) :
    (∀ tree, filter.WrittenAs tree ↔ tree = filter.toJson) ∧
      ∀ members, filter.toJson = .object members →
        ∀ field tree, (field, tree) ∈ members →
          2 ≤ (filter.predicatesOn field).length →
          Predicate.ShareNoOperator (filter.predicatesOn field) →
            ∃ operators : NameMap Json, tree = .object operators ∧
              ∀ predicate ∈ filter.predicatesOn field, ∀ name operand,
                predicate.HasOperand name operand →
                  (name, operand) ∈ operators := by
  refine ⟨fun tree => writtenAs_iff, ?_⟩
  intro members isDocument field tree member several shareNone
  have written : filter.WrittenAs (.object members) :=
    writtenAs_iff.mpr isDocument.symm
  cases written with
  | document ascending fields each =>
      have onField := each field tree member
      generalize filter.predicatesOn field = predicates at *
      cases onField with
      | bare alone =>
          exact absurd several (Nat.lt_irrefl 1)
      | @operators _ operators _ merged =>
          refine ⟨operators, rfl, ?_⟩
          intro predicate asked name operand has
          exact merged.mem_of_hasOperand shareNone asked has

/--
A bare title becomes an operator when its presence is asked for later on, and in
the embedded filter the later of two equal operators counts.
-/
theorem toJson_merges_clauses_title :
    Filter.WrittenAs
        [("title", .equalTo (.string "Plan")),
          ("notes", .embedded [("size", .present true), ("size", .present false)]),
          ("title", .present true)]
        (.object
          [("notes", .object
              [("$matches", .object
                [("size", .object [("$exists", .boolean false)])])]),
            ("title", .object
              [("$eq", .string "Plan"), ("$exists", .boolean true)])]) ∧
      ∃ operators : NameMap Json,
        Json.object [("$eq", .string "Plan"), ("$exists", .boolean true)] =
            .object operators ∧
          ∀ predicate ∈ [Predicate.equalTo (.string "Plan"), .present true],
            ∀ name operand, predicate.HasOperand name operand →
              (name, operand) ∈ operators := by
  have merges := toJson_merges_clauses
    [("title", .equalTo (.string "Plan")),
      ("notes", .embedded [("size", .present true), ("size", .present false)]),
      ("title", .present true)]
  have shareNone :
      Predicate.ShareNoOperator [.equalTo (.string "Plan"), .present true] := by
    have disjoint : List.Disjoint ["$eq"] ["$exists"] :=
      List.singleton_disjoint.mpr (by decide)
    exact List.pairwise_pair.mpr disjoint
  refine ⟨(merges.1 _).mpr rfl, ?_⟩
  exact merges.2 _ rfl "title" _ (List.mem_cons_of_mem _ List.mem_cons_self)
    (Nat.le_refl 2) shareNone

end Filter

end Permission
