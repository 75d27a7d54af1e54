import Mathlib.Data.Int.Order.Basic
import Permission.Value
import Permission.Proofs.Binary64.Truncation
import Permission.Proofs.Elementwise

namespace Permission

/-!
# Forms of values

The form of a value is what equality and order look at: of a number only its
size is left, and a value that holds no number where one should be has no form.
Two values are equal if they have the same form, and ordered as their forms are,
so that the cases of integers against floats have to be looked at only once.
-/

namespace Binary64

/-- The size of a number in units, unless the pattern stands for no number. -/
def units?
    (number : Binary64) :
    Option Int :=
  if number.isNaN then none else some number.units

theorem compare?_eq
    (left right : Binary64) :
    left.compare? right = do
      let leftUnits ← left.units?
      let rightUnits ← right.units?
      return compare leftUnits rightUnits := by
  unfold compare? units?
  cases left.isNaN <;> cases right.isNaN <;> rfl

theorem compareInteger?_eq
    (integer : Int64)
    (number : Binary64) :
    number.compareInteger? integer = do
      let units ← number.units?
      return compare (integer.toInt * unitsPerOne) units := by
  unfold units?
  cases isNumber : number.isNaN with
  | false =>
      rw [compareInteger?_of_isNaN_eq_false integer isNumber]
      rfl
  | true =>
      unfold compareInteger?
      rw [isNumber, if_pos rfl]
      rfl

theorem compare?_eq_some_eq_iff
    {left right : Binary64} :
    left.compare? right = some .eq ↔
      ∃ units, left.units? = some units ∧ right.units? = some units := by
  rw [compare?_eq]
  cases left.units? with
  | none =>
      simp
  | some leftUnits =>
      cases right.units? with
      | none =>
          simp
      | some rightUnits =>
          simpa [Int.compare_eq_eq] using eq_comm

theorem compareInteger?_eq_some_eq_iff
    {integer : Int64}
    {number : Binary64} :
    number.compareInteger? integer = some .eq ↔
      number.units? = some (integer.toInt * unitsPerOne) := by
  rw [compareInteger?_eq]
  cases number.units? with
  | none =>
      simp
  | some units =>
      simpa [Int.compare_eq_eq] using eq_comm

end Binary64

/-- What equality and order look at. -/
inductive ValueForm where
  | null
  | boolean (truth : Bool)
  | number (units : Int)
  | string (text : String)
  | identifier (identity : Identifier)
  | list (elements : List ValueForm)
  | record (attributes : List (String × ValueForm))

/-- Orders two forms of one kind which is neither that of lists nor of records. -/
def ValueForm.compare? : ValueForm → ValueForm → Option Ordering
  | number left, number right =>
      some (compare left right)
  | string left, string right =>
      some (compare left right)
  | boolean left, boolean right =>
      some (compare left right)
  | identifier left, identifier right =>
      some (compare left.number.toNat right.number.toNat)
  | _, _ =>
      none

namespace Value

mutual

/-- The form of a value in which every number has a size. -/
def form? : Value → Option ValueForm
  | null =>
      some .null
  | boolean truth =>
      some (.boolean truth)
  | integer number =>
      some (.number (number.toInt * Binary64.unitsPerOne))
  | float number =>
      number.units?.map .number
  | string text =>
      some (.string text)
  | identifier identity =>
      some (.identifier identity)
  | list elements =>
      (elementForms? elements).map .list
  | record attributes =>
      (attributeForms? attributes).map .record

/-- The forms of all elements. -/
def elementForms? : List Value → Option (List ValueForm)
  | [] =>
      some []
  | element :: rest => do
      let first ← form? element
      let others ← elementForms? rest
      return first :: others

/-- The forms of all attributes under their names. -/
def attributeForms? : Record → Option (List (String × ValueForm))
  | [] =>
      some []
  | (name, value) :: rest => do
      let first ← form? value
      let others ← attributeForms? rest
      return (name, first) :: others

end

theorem elementForms?_eq_mapM
    (elements : List Value) :
    elementForms? elements = elements.mapM form? := by
  induction elements with
  | nil =>
      rfl
  | cons element rest inductionHypothesis =>
      rw [List.mapM_cons, ← inductionHypothesis]
      rfl

theorem attributeForms?_eq_mapM
    (attributes : Record) :
    attributeForms? attributes =
      attributes.mapM fun entry => (form? entry.2).map (entry.1, ·) := by
  induction attributes with
  | nil =>
      rfl
  | cons entry rest inductionHypothesis =>
      obtain ⟨name, value⟩ := entry
      rw [List.mapM_cons, ← inductionHypothesis, attributeForms?]
      cases form? value <;> rfl

/--
Induction over values: what holds of a list may rest on all its elements, and
what holds of a record on all its attributes.
-/
@[elab_as_elim]
theorem inductionOn
    {motive : Value → Prop}
    (null : motive .null)
    (boolean : ∀ truth, motive (.boolean truth))
    (integer : ∀ number, motive (.integer number))
    (float : ∀ number, motive (.float number))
    (string : ∀ text, motive (.string text))
    (identifier : ∀ identity, motive (.identifier identity))
    (list :
      ∀ elements : List Value, (∀ element ∈ elements, motive element) →
        motive (.list elements))
    (record :
      ∀ attributes : Record, (∀ entry ∈ attributes, motive entry.2) →
        motive (.record attributes))
    (value : Value) :
    motive value := by
  refine @Value.rec motive
    (fun elements => ∀ element ∈ elements, motive element)
    (fun attributes => ∀ entry ∈ attributes, motive entry.2)
    (fun entry => motive entry.2)
    null boolean integer float string identifier list record
    ?_ ?_ ?_ ?_ ?_ value
  · exact List.forall_mem_nil _
  · intro first rest ofFirst ofRest
    exact List.forall_mem_cons.mpr ⟨ofFirst, ofRest⟩
  · exact List.forall_mem_nil _
  · intro first rest ofFirst ofRest
    exact List.forall_mem_cons.mpr ⟨ofFirst, ofRest⟩
  · intro name value ofValue
    exact ofValue

/-- Sizes are ordered as they are in units. -/
private theorem compare_scaled
    (left right : Int) :
    compare (left * Binary64.unitsPerOne) (right * Binary64.unitsPerOne) =
      compare left right := by
  have positive : (0 : Int) < Binary64.unitsPerOne :=
    Int.natCast_pos.mpr Binary64.unitsPerOne_pos
  have nonzero : (Binary64.unitsPerOne : Int) ≠ 0 :=
    Int.ne_of_gt positive
  simp only [compare, compareOfLessAndEq, Int.mul_lt_mul_right positive,
    Int.mul_eq_mul_right_iff nonzero]

/-- Order looks at forms alone. -/
theorem compare?_eq
    (left right : Value) :
    left.compare? right =
      left.form?.bind fun leftForm =>
        right.form?.bind fun rightForm =>
          leftForm.compare? rightForm := by
  cases left <;> cases right <;>
    simp [compare?, form?, ValueForm.compare?, Binary64.compare?_eq,
      Binary64.compareInteger?_eq, compare_scaled, Option.bind_map,
      Int.compare_swap]

private theorem mapM_cons_eq_some_iff
    {α β : Type}
    {form : α → Option β}
    {item : α}
    {rest : List α}
    {forms : List β} :
    (item :: rest).mapM form = some forms ↔
      ∃ first others, form item = some first ∧ rest.mapM form = some others ∧
        first :: others = forms := by
  simp [List.mapM_cons, Option.bind_eq_some_iff]

/-- Lists of what is equal by its form are equal by their forms. -/
private theorem beq_iff_mapM
    {α β : Type}
    [BEq α]
    {form : α → Option β}
    {left right : List α}
    (byForm :
      ∀ item ∈ left, ∀ other, (item == other) = true ↔
        ∃ shared, form item = some shared ∧ form other = some shared) :
    (left == right) = true ↔
      ∃ forms, left.mapM form = some forms ∧ right.mapM form = some forms := by
  induction left generalizing right with
  | nil =>
      cases right with
      | nil =>
          simp
      | cons other others =>
          refine iff_of_false (by simp) ?_
          rintro ⟨forms, leftForms, rightForms⟩
          obtain ⟨first, later, -, -, rfl⟩ := mapM_cons_eq_some_iff.mp rightForms
          cases leftForms
  | cons item rest inductionHypothesis =>
      cases right with
      | nil =>
          refine iff_of_false (by simp) ?_
          rintro ⟨forms, leftForms, rightForms⟩
          obtain ⟨first, later, -, -, rfl⟩ := mapM_cons_eq_some_iff.mp leftForms
          cases rightForms
      | cons other others =>
          rw [List.cons_beq_cons, Bool.and_eq_true, byForm item (by simp) other,
            inductionHypothesis fun later member =>
              byForm later (List.mem_cons_of_mem item member)]
          constructor
          · rintro ⟨⟨first, itemForm, otherForm⟩, ⟨later, restForms, otherForms⟩⟩
            exact
              ⟨first :: later,
                mapM_cons_eq_some_iff.mpr ⟨first, later, itemForm, restForms, rfl⟩,
                mapM_cons_eq_some_iff.mpr ⟨first, later, otherForm, otherForms, rfl⟩⟩
          · rintro ⟨forms, leftForms, rightForms⟩
            obtain ⟨first, later, itemForm, restForms, rfl⟩ :=
              mapM_cons_eq_some_iff.mp leftForms
            obtain ⟨_, _, otherForm, otherForms, same⟩ :=
              mapM_cons_eq_some_iff.mp rightForms
            obtain ⟨rfl, rfl⟩ := List.cons.inj same.symm
            exact ⟨⟨first, itemForm, otherForm⟩, ⟨later, restForms, otherForms⟩⟩

/-- Entries whose values are equal by their forms are so themselves. -/
private theorem entry_beq_iff_form
    {entry other : String × Value}
    (byForm :
      (entry.2 == other.2) = true ↔
        ∃ form, entry.2.form? = some form ∧ other.2.form? = some form) :
    (entry == other) = true ↔
      ∃ shared, entry.2.form?.map (entry.1, ·) = some shared ∧
        other.2.form?.map (other.1, ·) = some shared := by
  rw [NameMap.entry_beq_iff, byForm]
  constructor
  · rintro ⟨sameName, form, entryForm, otherForm⟩
    exact ⟨(entry.1, form), by simp [entryForm], by simp [sameName, otherForm]⟩
  · rintro ⟨shared, entryShared, otherShared⟩
    obtain ⟨form, entryForm, rfl⟩ := Option.map_eq_some_iff.mp entryShared
    obtain ⟨same, otherForm, shape⟩ := Option.map_eq_some_iff.mp otherShared
    obtain ⟨sameName, rfl⟩ := Prod.mk.inj shape
    exact ⟨sameName.symm, same, entryForm, otherForm⟩

/-- Values are equal if they have one form. -/
theorem beq_iff_form
    {left right : Value} :
    (left == right) = true ↔
      ∃ form, left.form? = some form ∧ right.form? = some form := by
  induction left using inductionOn generalizing right with
  | null =>
      cases right <;> simp [beq_def, equals, form?]
  | boolean truth =>
      cases right with
      | boolean other =>
          simpa [beq_def, equals, form?] using eq_comm
      | _ =>
          simp [beq_def, equals, form?]
  | integer number =>
      cases right with
      | integer other =>
          have nonzero : (Binary64.unitsPerOne : Int) ≠ 0 := by
            have positive := Binary64.unitsPerOne_pos
            omega
          simpa [beq_def, equals, form?, Int.mul_eq_mul_right_iff nonzero,
            Int64.toInt_inj] using eq_comm
      | float other =>
          simp [beq_def, equals, form?, Binary64.compareInteger?_eq_some_eq_iff]
      | _ =>
          simp [beq_def, equals, form?]
  | float number =>
      cases right with
      | integer other =>
          simp [beq_def, equals, form?, Binary64.compareInteger?_eq_some_eq_iff]
      | float other =>
          simp [beq_def, equals, form?, Binary64.compare?_eq_some_eq_iff]
      | _ =>
          simp [beq_def, equals, form?]
  | string text =>
      cases right with
      | string other =>
          simpa [beq_def, equals, form?] using eq_comm
      | _ =>
          simp [beq_def, equals, form?]
  | identifier identity =>
      cases right with
      | identifier other =>
          simpa [beq_def, equals, form?] using eq_comm
      | _ =>
          simp [beq_def, equals, form?]
  | list elements inductionHypothesis =>
      cases right with
      | list others =>
          have byForms : (elements == others) = true ↔ _ :=
            beq_iff_mapM fun element member _ => inductionHypothesis element member
          simp [beq_def, equals, form?, equalElements_eq_beq,
            elementForms?_eq_mapM, byForms]
      | _ =>
          simp [beq_def, equals, form?]
  | record attributes inductionHypothesis =>
      cases right with
      | record others =>
          have byForms :
              (attributes == others) = true ↔ _ :=
            beq_iff_mapM fun entry member other =>
              entry_beq_iff_form (inductionHypothesis entry member)
          simp [beq_def, equals, form?, equalAttributes_eq_beq,
            attributeForms?_eq_mapM, byForms]
      | _ =>
          simp [beq_def, equals, form?]

theorem form?_eq_of_beq
    {left right : Value}
    (equal : (left == right) = true) :
    left.form? = right.form? := by
  obtain ⟨form, leftForm, rightForm⟩ := beq_iff_form.mp equal
  rw [leftForm, rightForm]

instance : PartialEquivBEq Value where
  symm := by
    intro left right equal
    obtain ⟨form, leftForm, rightForm⟩ := beq_iff_form.mp equal
    exact beq_iff_form.mpr ⟨form, rightForm, leftForm⟩
  trans := by
    intro left middle right first second
    obtain ⟨form, leftForm, -⟩ := beq_iff_form.mp first
    have sameForm : left.form? = right.form? :=
      (form?_eq_of_beq first).trans (form?_eq_of_beq second)
    exact beq_iff_form.mpr ⟨form, leftForm, sameForm ▸ leftForm⟩

/-- Equal values stand in the same order to any other one. -/
theorem compare?_congr_left
    {left right : Value}
    (equal : (left == right) = true)
    (other : Value) :
    left.compare? other = right.compare? other := by
  rw [compare?_eq, compare?_eq, form?_eq_of_beq equal]

theorem compare?_congr_right
    {left right : Value}
    (equal : (left == right) = true)
    (other : Value) :
    other.compare? left = other.compare? right := by
  rw [compare?_eq, compare?_eq, form?_eq_of_beq equal]

end Value

end Permission
