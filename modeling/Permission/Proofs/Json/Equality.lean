import Permission.Proofs.Value.Read

namespace Permission

/-!
# Equality of trees

Trees are equal part by part, the members of objects under equal names.  Numbers
are told apart by their kind first: integers are equal if they are one integer,
floats if they are of one size, so that both zeros are equal floats.

Equal trees are read as equal values.  Writable values are therefore equal if
they are written as equal trees.
-/

namespace Json

/-- Equality of scalars: floats by size, others as they are. -/
def Scalar.equals : Scalar → Scalar → Bool
  | float left, float right =>
      left.number.compare? right.number == some .eq
  | left, right =>
      decide (left = right)

theorem Scalar.eq_or_floats_of_equals
    {left right : Scalar}
    (equal : left.equals right = true) :
    left = right ∨
      ∃ number other : Float, left = .float number ∧ right = .float other ∧
        (number.number.compare? other.number == some .eq) = true := by
  unfold equals at equal
  split at equal
  · exact .inr ⟨_, _, rfl, rfl, equal⟩
  · exact .inl (of_decide_eq_true equal)

mutual

def equals : Json → Json → Bool
  | scalar left, scalar right =>
      left.equals right
  | array left, array right =>
      equalItems left right
  | object left, object right =>
      equalMembers left right
  | _, _ =>
      false

def equalItems : List Json → List Json → Bool
  | [], [] =>
      true
  | left :: lefts, right :: rights =>
      equals left right && equalItems lefts rights
  | _, _ =>
      false

def equalMembers : NameMap Json → NameMap Json → Bool
  | [], [] =>
      true
  | (leftName, left) :: lefts, (rightName, right) :: rights =>
      leftName == rightName && equals left right && equalMembers lefts rights
  | _, _ =>
      false

end

instance : BEq Json :=
  ⟨equals⟩

theorem array_beq
    (left right : List Json) :
    (array left == array right) = (left == right) := by
  have byItems : ∀ items others, equalItems items others = (items == others) := by
    intro items
    induction items with
    | nil =>
        intro others
        cases others <;> rfl
    | cons item rest inductionHypothesis =>
        intro others
        cases others with
        | nil =>
            rfl
        | cons other others =>
            rw [equalItems, inductionHypothesis]
            rfl
  exact byItems left right

theorem object_beq
    (left right : NameMap Json) :
    (object left == object right) = (left == right) := by
  have byMembers :
      ∀ members others, equalMembers members others = (members == others) := by
    intro members
    induction members with
    | nil =>
        intro others
        cases others <;> rfl
    | cons member rest inductionHypothesis =>
        intro others
        cases others with
        | nil =>
            rfl
        | cons other others =>
            rw [equalMembers, inductionHypothesis]
            rfl
  exact byMembers left right

/-- Equal objects have equal members under the same names. -/
theorem object_beq_iff
    {left right : NameMap Json} :
    (object left == object right) = true ↔
      List.Forall₂
        (fun member other =>
          member.1 = other.1 ∧ (member.2 == other.2) = true)
        left right := by
  rw [object_beq, List.beq_iff_forall₂]
  simp only [NameMap.entry_beq_iff]

/-- The names of the members of an object. -/
def memberNames? : Json → Option (List String)
  | object members =>
      some (NameMap.names members)
  | _ =>
      none

/-- Equal trees are both objects, with members of the same names, or neither is one. -/
theorem memberNames?_eq_of_beq
    {left right : Json}
    (equal : (left == right) = true) :
    left.memberNames? = right.memberNames? := by
  cases left with
  | scalar leaf =>
      cases right with
      | scalar other =>
          rfl
      | _ =>
          cases equal
  | array items =>
      cases right with
      | array others =>
          rfl
      | _ =>
          cases equal
  | object members =>
      cases right with
      | object others =>
          have pairs := object_beq_iff.mp equal
          exact congrArg some <|
            List.map_eq_of_forall₂ (pairs.imp fun _ _ pair => pair.1)
      | _ =>
          cases equal

/-- Of equal trees both are a string, or neither is. -/
theorem eq_string_iff_of_beq
    {left right : Json}
    {text : String}
    (equal : (left == right) = true) :
    left = .string text ↔ right = .string text := by
  cases left with
  | scalar leaf =>
      cases right with
      | scalar other =>
          rcases Scalar.eq_or_floats_of_equals equal with
            same | ⟨number, otherNumber, rfl, rfl, -⟩
          · rw [same]
          · exact iff_of_false nofun nofun
      | _ =>
          cases equal
  | array items =>
      cases right with
      | array others =>
          exact iff_of_false nofun nofun
      | _ =>
          cases equal
  | object members =>
      cases right with
      | object others =>
          exact iff_of_false nofun nofun
      | _ =>
          cases equal

end Json

namespace Value

/-- What reads back as it was written equals itself. -/
theorem beq_self_of_writable
    {value : Value}
    (writable : value.Writable) :
    (value == value) = true := by
  have survives := (reread_beq_iff_writable value).mpr writable
  rwa [reread_of_writable value writable] at survives

theorem ofScalar_beq_of_equals
    {left right : Json.Scalar}
    (equal : left.equals right = true) :
    (ofScalar left == ofScalar right) = true := by
  rcases Json.Scalar.eq_or_floats_of_equals equal with
    same | ⟨number, other, rfl, rfl, sameSize⟩
  · rw [same]
    exact beq_self_of_writable (writable_ofScalar right)
  · exact sameSize

/-- Equal members are a written identity together. -/
theorem identityOf?_eq_of_beq
    {left right : NameMap Json}
    (equal : (Json.object left == Json.object right) = true) :
    identityOf? left = identityOf? right := by
  have sameShape :
      ∀ text, left = [(identityKey, .string text)] ↔
        right = [(identityKey, .string text)] := by
    intro text
    cases Json.object_beq_iff.mp equal with
    | nil =>
        exact Iff.rfl
    | cons first later =>
        cases later with
        | nil =>
            simp only [List.cons.injEq, Prod.ext_iff, and_true, first.1,
              Json.eq_string_iff_of_beq first.2]
        | cons second others =>
            exact iff_of_false nofun nofun
  apply Option.ext
  intro identity
  simp only [identityOf?_eq_some_iff, sameShape]

/-- Equal trees are read as equal values. -/
theorem ofJson_beq_of_beq
    {left right : Json}
    (equal : (left == right) = true) :
    (ofJson left == ofJson right) = true := by
  induction left using Json.inductionOn generalizing right with
  | scalar leaf =>
      cases right with
      | scalar other =>
          exact ofScalar_beq_of_equals equal
      | _ =>
          cases equal
  | array items inductionHypothesis =>
      cases right with
      | array others =>
          rw [Json.array_beq, List.beq_iff_forall₂] at equal
          have pairs :=
            (List.forall₂_and_left _ _).mpr ⟨inductionHypothesis, equal⟩
          have sameElements :
              (items.map ofJson == others.map ofJson) = true := by
            rw [List.beq_iff_forall₂, List.forall₂_map_left_iff,
              List.forall₂_map_right_iff]
            exact pairs.imp fun _ _ pair => pair.1 pair.2
          rw [ofJson, ofJson, ofItems_eq_map, ofItems_eq_map, beq_def, equals,
            equalElements_eq_beq]
          exact sameElements
      | _ =>
          cases equal
  | object members inductionHypothesis =>
      cases right with
      | object others =>
          have sameIdentity := identityOf?_eq_of_beq equal
          have pairs :=
            (List.forall₂_and_left _ _).mpr
              ⟨inductionHypothesis, Json.object_beq_iff.mp equal⟩
          rw [ofJson, ofJson, sameIdentity]
          cases identityOf? others with
          | some identity =>
              exact beq_self_of_writable (writable_identifier identity)
          | none =>
              rw [beq_def, equals, equalAttributes_eq_beq, ofMembers_eq_map,
                ofMembers_eq_map, List.beq_iff_forall₂,
                List.forall₂_map_left_iff, List.forall₂_map_right_iff]
              refine pairs.imp fun _ _ pair => NameMap.entry_beq_iff.mpr ?_
              exact ⟨pair.2.1, pair.1 pair.2.2⟩
      | _ =>
          cases equal

/-- Writable values that are written as equal trees are equal. -/
theorem beq_of_toJson_beq
    {left right : Value}
    (leftWritable : left.Writable)
    (rightWritable : right.Writable)
    (equal : (left.toJson == right.toJson) = true) :
    (left == right) = true := by
  have reread : (left.reread == right.reread) = true :=
    ofJson_beq_of_beq equal
  rwa [reread_of_writable left leftWritable,
    reread_of_writable right rightWritable] at reread

/-- This holds of values one by one. -/
theorem beq_of_toItems_beq
    {left right : List Value}
    (leftWritable : ∀ value ∈ left, value.Writable)
    (rightWritable : ∀ value ∈ right, value.Writable)
    (equal : (toItems left == toItems right) = true) :
    (left == right) = true := by
  have listed :=
    beq_of_toJson_beq (writable_list_iff.mpr leftWritable)
      (writable_list_iff.mpr rightWritable)
      ((Json.array_beq _ _).trans equal)
  rwa [beq_def, equals, equalElements_eq_beq] at listed

end Value

end Permission
