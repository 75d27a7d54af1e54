import Permission.Conditions.Document
import Permission.Proofs.Conditions.Equality
import Permission.Proofs.Conditions.Outcome
import Permission.Proofs.Failure
import Permission.Proofs.Value.Written

namespace Permission

/-!
# Conditions that survive being written

Nested conditions that have one attribute with the name of an operator are
written like that operator.  With the values that are written like others, these
are the only losses: conditions read back as equal ones exactly if nothing in
them is of either sort.
-/

/-- Conditions are read from an object member by member, under the same names. -/
theorem Conditions.ofMembers_eq_ok_iff
    {members : NameMap Json}
    {conditions : Conditions} :
    Conditions.ofMembers members = .ok conditions ↔
      List.Forall₂
        (fun member entry =>
          member.1 = entry.1 ∧ Requirement.ofJson member.2 = .ok entry.2)
        members conditions := by
  induction members generalizing conditions with
  | nil =>
      rw [List.forall₂_nil_left_iff]
      simp [Conditions.ofMembers, eq_comm]
  | cons member rest inductionHypothesis =>
      obtain ⟨name, tree⟩ := member
      rw [List.forall₂_cons_left_iff]
      unfold Conditions.ofMembers
      simp only [Except.bind_eq_ok_iff, Except.pure_eq_ok_iff, inductionHypothesis]
      constructor
      · rintro ⟨requirement, first, requirements, later, rfl⟩
        exact ⟨(name, requirement), requirements, ⟨rfl, first⟩, later, rfl⟩
      · rintro ⟨⟨otherName, requirement⟩, requirements, ⟨rfl, first⟩, later, rfl⟩
        exact ⟨requirement, first, requirements, later, rfl⟩

namespace Requirement

/-- The values that a requirement itself compares with. -/
def values : Requirement → List Value
  | equalTo value =>
      [value]
  | memberOf (.set values) =>
      values
  | memberOf (.range range) =>
      [range.lower, range.upper]
  | nested _ =>
      []

/-- The requirements that a requirement holds directly, with their attributes. -/
def inner : Requirement → Conditions
  | nested conditions =>
      conditions
  | _ =>
      []

/-- The parts of a requirement are itself and the parts of those in it. -/
inductive HasPart : Requirement → Requirement → Prop where
  | itself
      (requirement : Requirement) :
      HasPart requirement requirement
  | within
      {whole part : Requirement}
      {entry : String × Requirement}
      (held : entry ∈ whole.inner)
      (rest : HasPart entry.2 part) :
      HasPart whole part

/-- Nested conditions that are written like an operator. -/
inductive IsMiswritten : Requirement → Prop where
  | loneOperator
      (operator : Operator)
      (requirement : Requirement) :
      IsMiswritten (.nested [(operator.name, requirement)])

/-- What is written like an operator names nothing but that operator. -/
theorem IsMiswritten.length_inner
    {requirement : Requirement}
    (miswritten : requirement.IsMiswritten) :
    requirement.inner.length = 1 := by
  cases miswritten with
  | loneOperator operator requirement =>
      rfl

/-- No part is written like another one, nor is a value in any part. -/
def Writable
    (requirement : Requirement) :
    Prop :=
  ∀ part, requirement.HasPart part →
    (∀ value ∈ part.values, value.Writable) ∧ ¬ part.IsMiswritten

/-- What holds of all parts holds of the requirement and of all parts of those in it. -/
theorem forall_hasPart_iff
    {property : Requirement → Prop}
    {requirement : Requirement} :
    (∀ part, requirement.HasPart part → property part) ↔
      property requirement ∧
        ∀ entry ∈ requirement.inner, ∀ part,
          entry.2.HasPart part → property part := by
  constructor
  · intro ofParts
    refine ⟨ofParts requirement (.itself requirement), ?_⟩
    intro entry held part rest
    exact ofParts part (.within held rest)
  · rintro ⟨own, entries⟩ part hasPart
    cases hasPart with
    | itself =>
        exact own
    | within held rest =>
        exact entries _ held part rest

theorem writable_iff
    {requirement : Requirement} :
    requirement.Writable ↔
      (∀ value ∈ requirement.values, value.Writable) ∧
        ¬ requirement.IsMiswritten ∧
        ∀ entry ∈ requirement.inner, entry.2.Writable :=
  forall_hasPart_iff.trans and_assoc

theorem writable_equalTo_iff
    {value : Value} :
    (equalTo value).Writable ↔ value.Writable := by
  rw [writable_iff]
  simp only [values, List.forall_mem_singleton]
  exact and_iff_left ⟨nofun, nofun⟩

theorem writable_set_iff
    {members : List Value} :
    (memberOf (.set members)).Writable ↔ ∀ value ∈ members, value.Writable := by
  rw [writable_iff]
  exact and_iff_left ⟨nofun, nofun⟩

theorem writable_range_iff
    {range : ValueRange} :
    (memberOf (.range range)).Writable ↔
      range.lower.Writable ∧ range.upper.Writable := by
  rw [writable_iff, and_iff_left ⟨nofun, nofun⟩]
  simp [values]

end Requirement

/-- All requirements are writable. -/
def Conditions.Writable
    (conditions : Conditions) :
    Prop :=
  ∀ entry ∈ conditions, entry.2.Writable

theorem Requirement.writable_nested_iff
    {conditions : Conditions} :
    (nested conditions).Writable ↔
      ¬ (nested conditions).IsMiswritten ∧ conditions.Writable := by
  rw [writable_iff]
  exact and_iff_right nofun

/-! ## Written requirements as they are read -/

namespace Operator

theorem ofMembers?_eq_some_iff
    {members : NameMap Json}
    {operator : Operator}
    {operand : Json} :
    ofMembers? members = some (operator, operand) ↔
      members = [(operator.name, operand)] := by
  constructor
  · intro found
    unfold ofMembers? at found
    split at found
    · rename_i name held
      obtain ⟨known, named, shape⟩ := Option.map_eq_some_iff.mp found
      cases shape
      rw [named?_eq_some_iff.mp named]
    · cases found
  · rintro rfl
    have known : named? operator.name = some operator :=
      named?_eq_some_iff.mpr rfl
    simp [ofMembers?, known]

theorem ofMembers?_singleton
    (operator : Operator)
    (operand : Json) :
    ofMembers? [(operator.name, operand)] = some (operator, operand) :=
  ofMembers?_eq_some_iff.mpr rfl

end Operator

namespace Requirement

theorem ofJson_toJson_equalTo
    (value : Value) :
    ofJson (equalTo value).toJson = .ok (equalTo value.reread) := by
  cases value with
  | float number =>
      simp only [toJson, Value.toJson, Value.floatJson, Value.reread]
      split <;> rfl
  | identifier identity =>
      have operator :
          Operator.ofMembers? [(Value.identityKey, .string identity.render)] =
            some (.identity, .string identity.render) :=
        Operator.ofMembers?_eq_some_iff.mpr rfl
      have held :
          Value.identityOf? [(Value.identityKey, .string identity.render)] =
            some identity :=
        Value.identityOf?_eq_some_iff.mpr
          ⟨identity.render, rfl, identity.ofText?_render⟩
      rw [Value.reread_identifier]
      simp only [toJson, Value.toJson, Value.identityJson, ofJson, operator, held]
  | list elements =>
      rfl
  | record attributes =>
      rfl
  | _ =>
      rfl

theorem ofJson_toJson_set
    (members : List Value) :
    ofJson (memberOf (.set members)).toJson =
      .ok (memberOf (.set (members.map Value.reread))) := by
  simp only [toJson, ofJson, Value.ofItems_eq_map, Value.toItems_eq_map,
    List.map_map]
  rfl

theorem ofJson_toJson_range
    (range : ValueRange) :
    ofJson (memberOf (.range range)).toJson =
      .ok (memberOf
        (.range ⟨range.lower.reread, range.upper.reread, range.exclusive⟩)) :=
  rfl

/-- What is written like an operator is read as something that nests nothing. -/
theorem ofJson_toJson_ne_nested
    {requirement : Requirement}
    (miswritten : requirement.IsMiswritten)
    (conditions : Conditions) :
    ofJson requirement.toJson ≠ .ok (nested conditions) := by
  cases miswritten with
  | loneOperator operator inner =>
      have found :
          Operator.ofMembers? [(operator.name, inner.toJson)] =
            some (operator, inner.toJson) :=
        Operator.ofMembers?_eq_some_iff.mpr rfl
      simp only [toJson, Conditions.toMembers, ofJson, found]
      cases operator with
      | identity =>
          dsimp only
          split <;> simp
      | range =>
          dsimp only
          split <;> simp
      | equality =>
          simp

/-- Other nested conditions are read from the members that they are written as. -/
theorem ofJson_toJson_nested
    {conditions : Conditions}
    (wellWritten : ¬ (nested conditions).IsMiswritten) :
    ofJson (nested conditions).toJson =
      (Conditions.ofMembers (Conditions.toMembers conditions)).map nested := by
  have noOperator :
      Operator.ofMembers? (Conditions.toMembers conditions) = none := by
    by_contra found
    obtain ⟨⟨operator, operand⟩, isOperator⟩ := Option.ne_none_iff_exists'.mp found
    have written := Operator.ofMembers?_eq_some_iff.mp isOperator
    rw [Conditions.toMembers_eq_map, List.map_eq_singleton_iff] at written
    obtain ⟨⟨name, requirement⟩, rfl, shape⟩ := written
    obtain ⟨rfl, -⟩ := Prod.mk.inj shape
    exact wellWritten (.loneOperator operator requirement)
  simp only [toJson, ofJson, noOperator]

end Requirement

/-! ## Survival -/

namespace Conditions

/-- Writable requirements make conditions that are read back from their members. -/
private theorem ofMembers_toMembers_of_entries
    {conditions : Conditions}
    (entries :
      ∀ entry ∈ conditions,
        Requirement.ofJson entry.2.toJson = .ok entry.2) :
    Conditions.ofMembers (Conditions.toMembers conditions) = .ok conditions := by
  rw [ofMembers_eq_ok_iff, toMembers_eq_map, List.forall₂_map_left_iff,
    List.forall₂_same]
  exact fun entry member => ⟨rfl, entries entry member⟩

/-- Conditions are read back as equal ones if each of their requirements is. -/
theorem ofMembers_toMembers_beq_iff
    {conditions : Conditions} :
    (∃ read, Conditions.ofMembers (Conditions.toMembers conditions) = .ok read ∧
        (read == conditions) = true) ↔
      ∀ entry ∈ conditions, ∃ read,
        Requirement.ofJson entry.2.toJson = .ok read ∧
          (read == entry.2) = true := by
  simp only [ofMembers_eq_ok_iff, toMembers_eq_map, List.forall₂_map_left_iff]
  rw [List.exists_forall₂_beq_iff]
  refine forall₂_congr fun entry _ => ?_
  constructor
  · rintro ⟨⟨name, requirement⟩, ⟨-, isRead⟩, equal⟩
    exact ⟨requirement, isRead, (NameMap.entry_beq_iff.mp equal).2⟩
  · rintro ⟨requirement, isRead, equal⟩
    exact ⟨(entry.1, requirement), ⟨rfl, isRead⟩,
      NameMap.entry_beq_iff.mpr ⟨rfl, equal⟩⟩

end Conditions

namespace Requirement

/-- A writable requirement reads back as it was. -/
theorem ofJson_toJson_of_writable
    (requirement : Requirement)
    (writable : requirement.Writable) :
    ofJson requirement.toJson = .ok requirement := by
  induction requirement using inductionOn with
  | equalTo value =>
      rw [ofJson_toJson_equalTo,
        value.reread_of_writable (writable_equalTo_iff.mp writable)]
  | memberOf membership =>
      cases membership with
      | set members =>
          have membersWritable := writable_set_iff.mp writable
          have membersReread : members.map Value.reread = members.map id :=
            List.map_congr_left fun value member =>
              value.reread_of_writable (membersWritable value member)
          rw [ofJson_toJson_set, membersReread, List.map_id]
      | range range =>
          obtain ⟨lowerWritable, upperWritable⟩ := writable_range_iff.mp writable
          rw [ofJson_toJson_range, range.lower.reread_of_writable lowerWritable,
            range.upper.reread_of_writable upperWritable]
  | nested conditions inductionHypothesis =>
      obtain ⟨wellWritten, entriesWritable⟩ := writable_nested_iff.mp writable
      rw [ofJson_toJson_nested wellWritten,
        Conditions.ofMembers_toMembers_of_entries fun entry member =>
          inductionHypothesis entry member (entriesWritable entry member)]
      rfl

/-- A requirement reads back as an equal one exactly if it is writable. -/
theorem ofJson_toJson_beq_iff
    (requirement : Requirement) :
    (∃ read, ofJson requirement.toJson = .ok read ∧
        (read == requirement) = true) ↔
      requirement.Writable := by
  induction requirement using inductionOn with
  | equalTo value =>
      rw [writable_equalTo_iff, ← Value.reread_beq_iff_writable,
        ofJson_toJson_equalTo]
      simp
  | memberOf membership =>
      cases membership with
      | set members =>
          rw [writable_set_iff, ofJson_toJson_set]
          simp only [Except.ok.injEq, exists_eq_left', memberOf_beq,
            Membership.set_beq, List.map_beq_self_iff,
            Value.reread_beq_iff_writable]
      | range range =>
          rw [writable_range_iff, ofJson_toJson_range]
          simp only [Except.ok.injEq, exists_eq_left', memberOf_beq,
            Membership.range_beq, ValueRange.beq_iff, and_true,
            Value.reread_beq_iff_writable]
  | nested conditions inductionHypothesis =>
      rw [writable_nested_iff]
      by_cases miswritten : (nested conditions).IsMiswritten
      · refine iff_of_false ?_ fun writable => writable.1 miswritten
        rintro ⟨read, isRead, equal⟩
        cases read with
        | nested others =>
            exact ofJson_toJson_ne_nested miswritten others isRead
        | _ =>
            cases equal
      · rw [ofJson_toJson_nested miswritten, and_iff_right miswritten]
        calc
          _ ↔ ∃ others, Conditions.ofMembers (Conditions.toMembers conditions) =
                  .ok others ∧ (others == conditions) = true := by
            simp only [Except.map_eq_ok_iff]
            constructor
            · rintro ⟨_, ⟨others, membersRead, rfl⟩, equal⟩
              exact ⟨others, membersRead, nested_beq others conditions ▸ equal⟩
            · rintro ⟨others, membersRead, equal⟩
              exact ⟨nested others, ⟨others, membersRead, rfl⟩,
                (nested_beq others conditions).trans equal⟩
          _ ↔ ∀ entry ∈ conditions, ∃ read, ofJson entry.2.toJson = .ok read ∧
                (read == entry.2) = true :=
            Conditions.ofMembers_toMembers_beq_iff
          _ ↔ conditions.Writable :=
            forall₂_congr inductionHypothesis

end Requirement

/-- Writable conditions read back as they were. -/
theorem Conditions.ofJson_toJson_of_writable
    (conditions : Conditions)
    (writable : conditions.Writable) :
    Conditions.ofJson conditions.toJson = .ok conditions :=
  Conditions.ofMembers_toMembers_of_entries fun entry member =>
    entry.2.ofJson_toJson_of_writable (writable entry member)

/--
Conditions are read back as equal ones exactly if they are writable: if no value
in them holds a float that is not finite or a record that looks like a written
identity, and no nested conditions in them have one attribute with the name of
an operator.
-/
theorem Conditions.ofJson_toJson_beq_iff_writable
    (conditions : Conditions) :
    (∃ read, Conditions.ofJson conditions.toJson = .ok read ∧
        (read == conditions) = true) ↔
      conditions.Writable :=
  Conditions.ofMembers_toMembers_beq_iff.trans <|
    forall₂_congr fun entry _ => entry.2.ofJson_toJson_beq_iff

/-- Conditions on an attribute called `$eq` turn into a comparison. -/
example :
    Conditions.ofJson
        (Conditions.toJson
          [("owner", .nested [("$eq", .equalTo (.boolean true))])]) =
      .ok [("owner", .equalTo (.boolean true))] :=
  rfl

end Permission
