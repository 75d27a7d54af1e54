import Permission.Resource
import Permission.Proofs.Value.Form

namespace Permission

/-!
# Reads of equal resources

Equal resources need not answer a read with the same value: one may hold an
integer where the other holds the float of that size.  Their answers are alike:
equal values, or errors of one sort about one attribute.  Whatever treats equal
values alike cannot tell such resources apart.
-/

/-- Errors of the same sort about the same attribute. -/
def AttributeError.Alike : AttributeError → AttributeError → Prop
  | missing left, missing right =>
      left = right
  | notAResource left _, notAResource right _ =>
      left = right
  | unreadable left _, unreadable right _ =>
      left = right
  | _, _ =>
      False

/-- Results that are related, or errors that are alike. -/
def AlikeOutcomes
    {α : Type}
    (related : α → α → Prop) :
    Except AttributeError α → Except AttributeError α → Prop
  | .ok left, .ok right =>
      related left right
  | .error left, .error right =>
      left.Alike right
  | _, _ =>
      False

namespace AlikeOutcomes

variable {α β : Type} {related : α → α → Prop}

/-- What goes on alike from related results is alike. -/
theorem bind
    {relatedNext : β → β → Prop}
    {left right : Except AttributeError α}
    {leftNext rightNext : α → Except AttributeError β}
    (first : AlikeOutcomes related left right)
    (next :
      ∀ leftResult rightResult, related leftResult rightResult →
        AlikeOutcomes relatedNext (leftNext leftResult) (rightNext rightResult)) :
    AlikeOutcomes relatedNext (left >>= leftNext) (right >>= rightNext) := by
  cases left with
  | error leftError =>
      cases right with
      | error rightError =>
          exact first
      | ok rightResult =>
          exact first.elim
  | ok leftResult =>
      cases right with
      | error rightError =>
          exact first.elim
      | ok rightResult =>
          exact next leftResult rightResult first

/-- Of alike outcomes either both are a certain result or none is. -/
theorem eq_ok_iff
    {left right : Except AttributeError α}
    {result : α}
    (alike : AlikeOutcomes Eq left right) :
    left = .ok result ↔ right = .ok result := by
  cases left with
  | error leftError =>
      cases right with
      | error rightError =>
          simp
      | ok rightResult =>
          exact alike.elim
  | ok leftResult =>
      cases right with
      | error rightError =>
          exact alike.elim
      | ok rightResult =>
          have same : leftResult = rightResult := alike
          rw [same]

end AlikeOutcomes

/-- Every read is answered alike. -/
def Attributes.Alike
    (left right : Attributes) :
    Prop :=
  ∀ name,
    AlikeOutcomes (fun leftValue rightValue => (leftValue == rightValue) = true)
      (left name) (right name)

/-- Types of resources whose equality no read can contradict. -/
class LawfulResource (ρ : Type) [Resource ρ] [BEq ρ] : Prop where
  /-- Equal resources answer every read alike. -/
  attributes_alike :
    ∀ {left right : ρ}, (left == right) = true →
      (Resource.attributes left).Alike (Resource.attributes right)

theorem Record.attributes_alike
    {left right : Record}
    (equal : (left == right) = true) :
    (Record.attributes left).Alike (Record.attributes right) := by
  intro name
  induction left generalizing right with
  | nil =>
      cases right with
      | nil =>
          rfl
      | cons entry rest =>
          cases equal
  | cons entry rest inductionHypothesis =>
      cases right with
      | nil =>
          cases equal
      | cons otherEntry otherRest =>
          obtain ⟨leftName, leftValue⟩ := entry
          obtain ⟨rightName, rightValue⟩ := otherEntry
          rw [← Value.equalAttributes_eq_beq] at equal
          simp only [Value.equalAttributes, Bool.and_eq_true, beq_iff_eq] at equal
          obtain ⟨⟨rfl, sameValue⟩, sameRest⟩ := equal
          rw [Value.equalAttributes_eq_beq] at sameRest
          have later := inductionHypothesis sameRest
          unfold Record.attributes at later ⊢
          rw [NameMap.find?_cons, NameMap.find?_cons]
          by_cases found : leftName = name
          · rw [if_pos found, if_pos found]
            exact sameValue
          · rw [if_neg found, if_neg found]
            exact later

theorem Value.attributes_alike
    {left right : Value}
    (equal : (left == right) = true) :
    left.attributes.Alike right.attributes := by
  intro name
  cases left with
  | record leftEntries =>
      cases right with
      | record rightEntries =>
          have sameEntries : (leftEntries == rightEntries) = true := by
            rw [← Value.equalAttributes_eq_beq]
            exact equal
          exact Record.attributes_alike sameEntries name
      | _ =>
          cases equal
  | _ =>
      -- Nothing else has attributes, so both reads ask too much.
      cases right with
      | record rightEntries =>
          cases equal
      | _ =>
          rfl

instance : LawfulResource Record :=
  ⟨Record.attributes_alike⟩

instance : LawfulResource Value :=
  ⟨Value.attributes_alike⟩

end Permission
