import Permission.Proofs.Conditions.Congruence
import Permission.Proofs.Elementwise

namespace Permission

/-!
# Filters on equal resources

Equal values may be of different kinds, and that is all that a filter can find
between them.  A filter that never asks for the kind of a field makes the same
of resources that answer every read alike.
-/

/--
Induction over predicates: what holds of an embedded filter may rest on all the
predicates in it.
-/
@[elab_as_elim]
theorem Predicate.inductionOn
    {motive : Predicate → Prop}
    (equalTo : ∀ value, motive (.equalTo value))
    (oneOf : ∀ values, motive (.oneOf values))
    (within : ∀ range, motive (.within range))
    (present : ∀ expected, motive (.present expected))
    (ofKind : ∀ kind, motive (.ofKind kind))
    (embedded :
      ∀ filter : Filter, (∀ clause ∈ filter, motive clause.2) →
        motive (.embedded filter))
    (predicate : Predicate) :
    motive predicate := by
  refine @Predicate.rec motive
    (fun filter => ∀ clause ∈ filter, motive clause.2)
    (fun clause => motive clause.2)
    equalTo oneOf within present ofKind embedded ?_ ?_ ?_ predicate
  · exact List.forall_mem_nil _
  · intro first rest ofFirst ofRest
    exact List.forall_mem_cons.mpr ⟨ofFirst, ofRest⟩
  · intro field inner ofInner
    exact ofInner

mutual

/-- No clause asks for the kind of a field, nor does one in an embedded filter. -/
def Filter.asksNoKind : Filter → Bool
  | [] =>
      true
  | (_, predicate) :: rest =>
      predicate.asksNoKind && Filter.asksNoKind rest

/-- The predicate asks for no kind, nor does one in an embedded filter. -/
def Predicate.asksNoKind : Predicate → Bool
  | .ofKind _ =>
      false
  | .embedded filter =>
      Filter.asksNoKind filter
  | _ =>
      true

end

theorem Filter.asksNoKind_iff
    {filter : Filter} :
    filter.asksNoKind = true ↔ ∀ clause ∈ filter, clause.2.asksNoKind = true := by
  induction filter with
  | nil =>
      simp [asksNoKind]
  | cons clause rest inductionHypothesis =>
      obtain ⟨field, predicate⟩ := clause
      rw [asksNoKind, Bool.and_eq_true, inductionHypothesis, List.forall_mem_cons]

/-- A field that is absent twice, or holds equal values. -/
abbrev EqualFields : Option Value → Option Value → Prop :=
  Option.Rel fun left right => (left == right) = true

/-- Reads that are alike show equal fields. -/
theorem Attributes.Alike.equalFields
    {left right : Attributes}
    (alike : left.Alike right)
    (name : String) :
    EqualFields (left name).toOption (right name).toOption := by
  have answers := alike name
  cases leftRead : left name with
  | ok leftValue =>
      cases rightRead : right name with
      | ok rightValue =>
          rw [leftRead, rightRead] at answers
          exact .some answers
      | error error =>
          rw [leftRead, rightRead] at answers
          exact answers.elim
  | error error =>
      cases rightRead : right name with
      | ok rightValue =>
          rw [leftRead, rightRead] at answers
          exact answers.elim
      | error other =>
          exact .none

/-- Clauses that treat equal fields alike make a filter that does. -/
private theorem Filter.evaluate_alike_of_clauses
    {filter : Filter}
    {left right : Attributes}
    (clauses :
      ∀ clause ∈ filter, ∀ leftField rightField,
        EqualFields leftField rightField →
          clause.2.evaluate leftField = clause.2.evaluate rightField)
    (alike : left.Alike right) :
    filter.evaluate left = filter.evaluate right := by
  rw [evaluate_eq_all, evaluate_eq_all, Bool.eq_iff_iff, List.all_eq_true,
    List.all_eq_true]
  refine forall₂_congr fun clause member => ?_
  rw [clauses clause member _ _ (alike.equalFields clause.1)]

/-- A predicate that asks for no kind holds of equal fields alike. -/
theorem Predicate.evaluate_alike
    (predicate : Predicate)
    (noKind : predicate.asksNoKind = true)
    (left right : Option Value)
    (equal : EqualFields left right) :
    predicate.evaluate left = predicate.evaluate right := by
  induction predicate using inductionOn generalizing left right with
  | equalTo expected =>
      cases equal with
      | none =>
          rfl
      | some sameValue =>
          exact BEq.congr_left sameValue
  | oneOf values =>
      cases equal with
      | none =>
          rfl
      | some sameValue =>
          exact Membership.contains_congr sameValue (.set values)
  | within range =>
      cases equal with
      | none =>
          rfl
      | some sameValue =>
          exact range.contains_congr sameValue
  | present expected =>
      cases equal with
      | none =>
          rfl
      | some sameValue =>
          rfl
  | ofKind kind =>
      cases noKind
  | embedded filter inductionHypothesis =>
      cases equal with
      | none =>
          rfl
      | some sameValue =>
          have clausesNoKind := Filter.asksNoKind_iff.mp noKind
          rw [evaluate_embedded_some, evaluate_embedded_some]
          have sameTargets :=
            List.beq_iff_forall₂.mp (Value.targets_beq sameValue)
          refine List.any_eq_of_forall₂ (sameTargets.imp ?_)
          intro target other same
          refine Filter.evaluate_alike_of_clauses ?_ (Value.attributes_alike same)
          intro clause member
          exact inductionHypothesis clause member (clausesNoKind clause member)

/-- A filter that asks for no kind makes the same of reads that are alike. -/
theorem Filter.evaluate_alike
    {filter : Filter}
    {left right : Attributes}
    (noKind : filter.asksNoKind = true)
    (alike : left.Alike right) :
    filter.evaluate left = filter.evaluate right :=
  Filter.evaluate_alike_of_clauses
    (fun clause member =>
      clause.2.evaluate_alike (Filter.asksNoKind_iff.mp noKind clause member))
    alike

/-- Asked for the kind, an integer and the float of its size differ. -/
example :
    Filter.evaluate [("size", .ofKind .integer)]
        (Record.attributes [("size", .integer 1)]) =
      true ∧
    Filter.evaluate [("size", .ofKind .integer)]
        (Record.attributes [("size", .float ⟨0x3FF0000000000000⟩)]) =
      false :=
  ⟨rfl, rfl⟩

end Permission
