import Mathlib.Data.List.Pairwise
import Permission.Filter.Document
import Permission.Proofs.Filter.Congruence
import Permission.Proofs.NameMap

namespace Permission

/-!
# What filters are written as

A filter may put several predicates on one field, in clauses that stand anywhere
in it, but its document has one member for the field.  A single predicate is
written by itself; several are written as one object of their operators, and of
those with one name the last one counts.  The rules are given as a relation that
does not go through the clauses one by one, and they leave no choice: a filter is
written as one tree at most.
-/

/-- The value stands by itself as an equality: it cannot be taken for operators. -/
def Value.StandsAlone
    (value : Value) :
    Prop :=
  value.kind ≠ .record ∧ value.kind ≠ .identifier

/-- The names of the operators that a predicate is written with. -/
def Predicate.operatorNames : Predicate → List String
  | equalTo _ =>
      ["$eq"]
  | oneOf _ =>
      ["$in"]
  | within range =>
      ["$gte", if range.exclusive then "$lt" else "$lte"]
  | present _ =>
      ["$exists"]
  | ofKind _ =>
      ["$type"]
  | embedded _ =>
      ["$matches"]

/-- What a filter asks of a field, in the order of its clauses. -/
def Filter.predicatesOn
    (filter : Filter)
    (field : String) :
    List Predicate :=
  (List.filter (fun clause => clause.1 = field) filter).map Prod.snd

mutual

/-- The object has one member for each field, for all predicates on it together. -/
inductive Filter.WrittenAs : Filter → Json → Prop where
  | document
      {filter : Filter}
      {members : NameMap Json}
      (ascending : members.Ordered)
      (fields : ∀ field, field ∈ members.names ↔ field ∈ NameMap.names filter)
      (each :
        ∀ field tree, (field, tree) ∈ members →
          Predicate.AllWrittenAs (filter.predicatesOn field) tree) :
      Filter.WrittenAs filter (.object members)

/-- The tree is what a field with these predicates is written as. -/
inductive Predicate.AllWrittenAs : List Predicate → Json → Prop where
  /-- A single equality with a value that stands alone is written as that value. -/
  | bare
      {value : Value}
      (alone : value.StandsAlone) :
      Predicate.AllWrittenAs [.equalTo value] value.toJson
  /-- All else is written as operators. -/
  | operators
      {predicates : List Predicate}
      {operators : NameMap Json}
      (notBare :
        ∀ value, predicates = [.equalTo value] → ¬ value.StandsAlone)
      (merged : Predicate.MergedAs predicates operators) :
      Predicate.AllWrittenAs predicates (.object operators)

/-- There is one operator for each name, as the last predicate with it has it. -/
inductive Predicate.MergedAs : List Predicate → NameMap Json → Prop where
  | merged
      {predicates : List Predicate}
      {operators : NameMap Json}
      (ascending : operators.Ordered)
      (names :
        ∀ name, name ∈ operators.names ↔
          ∃ predicate ∈ predicates, name ∈ predicate.operatorNames)
      (each :
        ∀ name operand, (name, operand) ∈ operators →
          Predicate.LastOperand predicates name operand) :
      Predicate.MergedAs predicates operators

/-- The operand of an operator in the last predicate that is written with it. -/
inductive Predicate.LastOperand : List Predicate → String → Json → Prop where
  | last
      (before after : List Predicate)
      {predicate : Predicate}
      {name : String}
      {operand : Json}
      (has : Predicate.HasOperand predicate name operand)
      (noLater : ∀ later ∈ after, name ∉ later.operatorNames) :
      Predicate.LastOperand (before ++ predicate :: after) name operand

/-- The operand of an operator of a predicate. -/
inductive Predicate.HasOperand : Predicate → String → Json → Prop where
  | equalTo
      (value : Value) :
      Predicate.HasOperand (.equalTo value) "$eq" value.toJson
  | oneOf
      (values : List Value) :
      Predicate.HasOperand (.oneOf values) "$in" (.array (values.map Value.toJson))
  | lower
      (range : ValueRange) :
      Predicate.HasOperand (.within range) "$gte" range.lower.toJson
  | upperExcluded
      (lower upper : Value) :
      Predicate.HasOperand (.within ⟨lower, upper, true⟩) "$lt" upper.toJson
  | upperIncluded
      (lower upper : Value) :
      Predicate.HasOperand (.within ⟨lower, upper, false⟩) "$lte" upper.toJson
  | present
      (expected : Bool) :
      Predicate.HasOperand (.present expected) "$exists" (.boolean expected)
  | ofKind
      (kind : ValueKind) :
      Predicate.HasOperand (.ofKind kind) "$type" (.string kind.name)
  /-- An embedded filter is written by the same rules. -/
  | embedded
      {filter : Filter}
      {tree : Json}
      (written : Filter.WrittenAs filter tree) :
      Predicate.HasOperand (.embedded filter) "$matches" tree

end

/-! ## No other tree -/

namespace Predicate

/-- Operands belong to names that the predicate is written with. -/
theorem HasOperand.mem_operatorNames
    {predicate : Predicate}
    {name : String}
    {operand : Json}
    (has : predicate.HasOperand name operand) :
    name ∈ predicate.operatorNames := by
  cases has <;> simp [operatorNames]

/-- No operator of the predicate can have two operands. -/
def IsDetermined
    (predicate : Predicate) :
    Prop :=
  ∀ name operand other, predicate.HasOperand name operand →
    predicate.HasOperand name other → operand = other

theorem LastOperand.exists_split
    {predicates : List Predicate}
    {name : String}
    {operand : Json}
    (isLast : LastOperand predicates name operand) :
    ∃ before predicate after, predicates = before ++ predicate :: after ∧
      predicate.HasOperand name operand ∧
        ∀ later ∈ after, name ∉ later.operatorNames := by
  cases isLast with
  | last before after has noLater =>
      exact ⟨before, _, after, rfl, has, noLater⟩

/-- Of two places at which a name stands last, neither is after the other. -/
private theorem eq_of_noLater
    {name : String}
    {before after others rest : List Predicate}
    {predicate other : Predicate}
    (same : before ++ predicate :: after = others ++ other :: rest)
    (member : name ∈ predicate.operatorNames)
    (otherMember : name ∈ other.operatorNames)
    (noLater : ∀ later ∈ after, name ∉ later.operatorNames)
    (noRest : ∀ later ∈ rest, name ∉ later.operatorNames) :
    predicate = other := by
  have sameOrLater
      {between after rest : List Predicate}
      {predicate other : Predicate}
      (same : predicate :: after = between ++ other :: rest)
      (otherMember : name ∈ other.operatorNames)
      (noLater : ∀ later ∈ after, name ∉ later.operatorNames) :
      predicate = other := by
    cases between with
    | nil =>
        exact (List.cons.inj same).1
    | cons first between =>
        have later : other ∈ after :=
          (List.cons.inj same).2 ▸ List.mem_append_cons_self
        exact absurd otherMember (noLater other later)
  rcases List.append_eq_append_iff.mp same with
    ⟨between, -, split⟩ | ⟨between, -, split⟩
  · exact sameOrLater split otherMember noLater
  · exact (sameOrLater split member noRest).symm

section Determined

variable
  {predicates : List Predicate}
  (determined : ∀ predicate ∈ predicates, predicate.IsDetermined)

include determined

theorem LastOperand.unique
    {name : String}
    {operand other : Json}
    (isLast : LastOperand predicates name operand)
    (otherLast : LastOperand predicates name other) :
    operand = other := by
  obtain ⟨before, predicate, after, rfl, has, noLater⟩ := isLast.exists_split
  obtain ⟨others, second, rest, same, otherHas, noRest⟩ :=
    otherLast.exists_split
  obtain rfl : predicate = second :=
    eq_of_noLater same has.mem_operatorNames otherHas.mem_operatorNames noLater
      noRest
  exact determined predicate List.mem_append_cons_self name operand other has
    otherHas

theorem MergedAs.unique
    {operators others : NameMap Json}
    (merged : MergedAs predicates operators)
    (otherMerged : MergedAs predicates others) :
    operators = others := by
  cases merged with
  | merged ascending names each =>
      cases otherMerged with
      | merged othersAscend otherNames otherEach =>
          refine ascending.eq_of_agreement othersAscend ?_ ?_
          · intro name
            rw [names, otherNames]
          · intro name operand other member otherMember
            exact (each name operand member).unique determined
              (otherEach name other otherMember)

theorem AllWrittenAs.unique
    {tree other : Json}
    (written : AllWrittenAs predicates tree)
    (otherWritten : AllWrittenAs predicates other) :
    tree = other := by
  cases written with
  | bare alone =>
      cases otherWritten with
      | bare _ =>
          rfl
      | operators notBare _ =>
          exact absurd alone (notBare _ rfl)
  | operators notBare merged =>
      cases otherWritten with
      | bare alone =>
          exact absurd alone (notBare _ rfl)
      | operators _ otherMerged =>
          rw [merged.unique determined otherMerged]

end Determined

end Predicate

/-- A filter whose predicates are determined is written as one tree only. -/
theorem Filter.WrittenAs.unique
    {filter : Filter}
    {tree other : Json}
    (determined : ∀ clause ∈ filter, clause.2.IsDetermined)
    (written : filter.WrittenAs tree)
    (otherWritten : filter.WrittenAs other) :
    tree = other := by
  cases written with
  | document ascending fields each =>
      cases otherWritten with
      | document othersAscend otherFields otherEach =>
          refine congrArg Json.object
            (ascending.eq_of_agreement othersAscend ?_ ?_)
          · intro field
            rw [fields, otherFields]
          · intro field tree other member otherMember
            refine (each field tree member).unique ?_
              (otherEach field other otherMember)
            intro predicate asked
            obtain ⟨clause, inFilter, rfl⟩ := List.mem_map.mp asked
            exact determined clause (List.mem_of_mem_filter inFilter)

theorem Predicate.isDetermined
    (predicate : Predicate) :
    predicate.IsDetermined := by
  induction predicate using inductionOn with
  | embedded filter inductionHypothesis =>
      intro name operand other has otherHas
      cases has with
      | embedded written =>
          cases otherHas with
          | embedded otherWritten =>
              exact written.unique inductionHypothesis otherWritten
  | within range =>
      have bounds
          {name : String}
          {operand : Json}
          (has : HasOperand (.within range) name operand) :
          operand =
            if name = "$gte" then range.lower.toJson else range.upper.toJson := by
        cases has <;> rfl
      intro name operand other has otherHas
      rw [bounds has, bounds otherHas]
  | _ =>
      intro name operand other has otherHas
      cases has
      cases otherHas
      rfl

/-! ## Clauses that share no operator -/

namespace Predicate

/-- Predicates that have no operator in common. -/
def ShareNoOperator
    (predicates : List Predicate) :
    Prop :=
  predicates.Pairwise fun predicate other =>
    predicate.operatorNames.Disjoint other.operatorNames

/-- A name that one of several such predicates has tells which one it is. -/
theorem ShareNoOperator.eq_of_mem
    {predicates : List Predicate}
    {predicate other : Predicate}
    {name : String}
    (shareNone : ShareNoOperator predicates)
    (asked : predicate ∈ predicates)
    (otherAsked : other ∈ predicates)
    (member : name ∈ predicate.operatorNames)
    (otherMember : name ∈ other.operatorNames) :
    predicate = other := by
  by_contra different
  have symmetric :
      Std.Symm fun predicate other : Predicate =>
        predicate.operatorNames.Disjoint other.operatorNames :=
    ⟨fun _ _ => List.disjoint_symm⟩
  exact shareNone.forall asked otherAsked different member otherMember

/-- None of their operators is lost. -/
theorem MergedAs.mem_of_hasOperand
    {predicates : List Predicate}
    {operators : NameMap Json}
    {predicate : Predicate}
    {name : String}
    {operand : Json}
    (merged : MergedAs predicates operators)
    (shareNone : ShareNoOperator predicates)
    (asked : predicate ∈ predicates)
    (has : predicate.HasOperand name operand) :
    (name, operand) ∈ operators := by
  cases merged with
  | merged ascending names each =>
      have known : name ∈ operators.names :=
        (names name).mpr ⟨predicate, asked, has.mem_operatorNames⟩
      obtain ⟨other, found⟩ := NameMap.mem_names_iff.mp known
      have member := NameMap.mem_of_find?_eq_some found
      obtain ⟨before, last, after, rfl, lastHas, -⟩ :=
        (each name other member).exists_split
      obtain rfl : last = predicate :=
        shareNone.eq_of_mem List.mem_append_cons_self asked
          lastHas.mem_operatorNames has.mem_operatorNames
      rw [last.isDetermined name operand other has lastHas]
      exact member

end Predicate

end Permission
