import Permission.Value.Document
import Permission.Proofs.Value.Form

namespace Permission

/-!
# Values that survive being written

Two sorts of values are written like others: a float that is not finite like
null, and a record whose only attribute looks like a written identity like that
identity.  A value reads back as an equal one if none of its parts is of these
sorts, and only then.  What reads back as an equal value reads back as it was,
in the same representation throughout.
-/

theorem Binary64.isNaN_eq_false_of_isFinite
    {number : Binary64}
    (finite : number.isFinite = true) :
    number.isNaN = false := by
  have bounded : number.magnitude < infinityMagnitude :=
    of_decide_eq_true finite
  exact decide_eq_false (Nat.lt_asymm bounded)

namespace Value

/-- The values that a value holds directly. -/
def contents : Value → List Value
  | list elements =>
      elements
  | record attributes =>
      attributes.map Prod.snd
  | _ =>
      []

/-- The parts of a value are the value itself and the parts of what it holds. -/
inductive HasPart : Value → Value → Prop where
  | itself
      (value : Value) :
      HasPart value value
  | within
      {whole inner part : Value}
      (held : inner ∈ whole.contents)
      (rest : HasPart inner part) :
      HasPart whole part

/-- Values that are written like other ones. -/
inductive IsMiswritten : Value → Prop where
  /-- What is not finite is written as null. -/
  | float
      {number : Binary64}
      (notFinite : number.isFinite = false) :
      IsMiswritten (.float number)
  /-- What looks like a written identity is taken for one. -/
  | record
      {text : String}
      {identity : Identifier}
      (read : Identifier.ofText? text = some identity) :
      IsMiswritten (.record [(identityKey, .string text)])

/-- No part of the value is written like another value. -/
def Writable
    (value : Value) :
    Prop :=
  ∀ part, value.HasPart part → ¬ part.IsMiswritten

/-- What holds of all parts holds of the value and of all parts of what it holds. -/
theorem forall_hasPart_iff
    {property : Value → Prop}
    {value : Value} :
    (∀ part, value.HasPart part → property part) ↔
      property value ∧
        ∀ inner ∈ value.contents, ∀ part,
          inner.HasPart part → property part := by
  constructor
  · intro ofParts
    refine ⟨ofParts value (.itself value), ?_⟩
    intro inner held part rest
    exact ofParts part (.within held rest)
  · rintro ⟨own, contents⟩ part hasPart
    cases hasPart with
    | itself =>
        exact own
    | within held rest =>
        exact contents _ held part rest

theorem writable_iff
    {value : Value} :
    value.Writable ↔
      ¬ value.IsMiswritten ∧ ∀ inner ∈ value.contents, inner.Writable :=
  forall_hasPart_iff

/-- What is neither a float nor holds values is written well. -/
theorem writable_of_kind
    {value : Value}
    (notFloat : value.kind ≠ .float)
    (notList : value.kind ≠ .list)
    (notRecord : value.kind ≠ .record) :
    value.Writable := by
  rw [writable_iff]
  cases value with
  | float number =>
      exact absurd rfl notFloat
  | list elements =>
      exact absurd rfl notList
  | record attributes =>
      exact absurd rfl notRecord
  | _ =>
      exact ⟨nofun, nofun⟩

theorem writable_identifier
    (identity : Identifier) :
    (identifier identity).Writable :=
  writable_of_kind nofun nofun nofun

theorem isMiswritten_float_iff
    {number : Binary64} :
    (float number).IsMiswritten ↔ number.isFinite = false := by
  constructor
  · rintro ⟨notFinite⟩
    exact notFinite
  · exact .float

theorem writable_float_iff
    {number : Binary64} :
    (float number).Writable ↔ number.isFinite = true := by
  rw [writable_iff, isMiswritten_float_iff, Bool.not_eq_false]
  exact and_iff_left nofun

theorem isMiswritten_record_iff
    {attributes : Record} :
    (record attributes).IsMiswritten ↔
      ∃ text identity, attributes = [(identityKey, .string text)] ∧
        Identifier.ofText? text = some identity := by
  constructor
  · intro miswritten
    cases miswritten with
    | record read =>
        exact ⟨_, _, rfl, read⟩
  · rintro ⟨text, identity, rfl, read⟩
    exact .record read

theorem writable_list_iff
    {elements : List Value} :
    (list elements).Writable ↔ ∀ element ∈ elements, element.Writable := by
  rw [writable_iff]
  refine and_iff_right ?_
  nofun

theorem writable_record_iff
    {attributes : Record} :
    (record attributes).Writable ↔
      ¬ (record attributes).IsMiswritten ∧
        ∀ entry ∈ attributes, entry.2.Writable := by
  rw [writable_iff]
  refine and_congr_right fun _ => ?_
  simp only [contents, List.forall_mem_map]

/-! ## Written values as they are read -/

/-- What is read where a value was written. -/
def reread
    (value : Value) :
    Value :=
  ofJson value.toJson

theorem identityOf?_eq_some_iff
    {members : NameMap Json}
    {identity : Identifier} :
    identityOf? members = some identity ↔
      ∃ text, members = [(identityKey, .string text)] ∧
        Identifier.ofText? text = some identity := by
  constructor
  · intro read
    unfold identityOf? at read
    split at read
    · split at read
      · rename_i text named
        exact ⟨text, by rw [named], read⟩
      · cases read
    · cases read
  · rintro ⟨text, rfl, read⟩
    simpa [identityOf?] using read

/-- A written identity is read as one. -/
theorem ofJson_object_of_some
    {members : NameMap Json}
    {identity : Identifier}
    (taken : identityOf? members = some identity) :
    ofJson (.object members) = identifier identity := by
  rw [ofJson, taken]

/-- Any other object is read as a record. -/
theorem ofJson_object_of_none
    {members : NameMap Json}
    (noIdentity : identityOf? members = none) :
    ofJson (.object members) = record (ofMembers members) := by
  rw [ofJson, noIdentity]

theorem floatJson_of_isFinite
    {number : Binary64}
    (finite : number.isFinite = true) :
    floatJson number = .scalar (.float ⟨number, finite⟩) := by
  simp [floatJson, Json.Float.ofBinary64?, finite]

theorem floatJson_of_not_isFinite
    {number : Binary64}
    (notFinite : number.isFinite = false) :
    floatJson number = .null := by
  simp [floatJson, Json.Float.ofBinary64?, notFinite]

/-- Only a string is written as one. -/
theorem toJson_eq_string_iff
    {value : Value}
    {text : String} :
    value.toJson = .string text ↔ value = .string text := by
  cases value with
  | float number =>
      unfold toJson floatJson
      split <;> simp
  | _ =>
      simp [toJson, identityJson]

/-- A record is taken for an identity if it looks like a written one. -/
theorem identityOf?_toMembers_eq_some_iff
    {attributes : Record}
    {identity : Identifier} :
    identityOf? (toMembers attributes) = some identity ↔
      ∃ text, attributes = [(identityKey, .string text)] ∧
        Identifier.ofText? text = some identity := by
  rw [identityOf?_eq_some_iff]
  refine exists_congr fun text => and_congr_left fun _ => ?_
  rw [toMembers_eq_map]
  constructor
  · intro shape
    obtain ⟨⟨name, value⟩, rfl, written⟩ := List.map_eq_singleton_iff.mp shape
    obtain ⟨rfl, isString⟩ := Prod.mk.inj written
    have sameValue : value = .string text :=
      toJson_eq_string_iff.mp isString
    rw [sameValue]
  · rintro rfl
    rfl

theorem reread_integer
    (number : Int64) :
    reread (integer number) = integer number := by
  have signed : number.toInt < 0x8000000000000000 :=
    number.toInt_lt
  calc
    reread (integer number) =
        if number.toInt < 0x8000000000000000 then
          integer (Int64.ofInt number.toInt)
        else
          float (Binary64.ofNatNearest number.toInt.toNat) :=
      rfl
    _ = integer number := by
      rw [if_pos signed, Int64.ofInt_toInt]

theorem reread_float_of_isFinite
    {number : Binary64}
    (finite : number.isFinite = true) :
    reread (float number) = float number :=
  congrArg ofJson (floatJson_of_isFinite finite)

theorem reread_float_of_not_isFinite
    {number : Binary64}
    (notFinite : number.isFinite = false) :
    reread (float number) = null :=
  congrArg ofJson (floatJson_of_not_isFinite notFinite)

theorem reread_identifier
    (identity : Identifier) :
    reread (identifier identity) = identifier identity :=
  ofJson_object_of_some <|
    identityOf?_eq_some_iff.mpr ⟨_, rfl, identity.ofText?_render⟩

theorem reread_list
    (elements : List Value) :
    reread (list elements) = list (elements.map reread) := by
  change list (ofItems (toItems elements)) = _
  rw [ofItems_eq_map, toItems_eq_map, List.map_map]
  rfl

theorem reread_record_of_isMiswritten
    {attributes : Record}
    (miswritten : (record attributes).IsMiswritten) :
    ∃ identity, reread (record attributes) = identifier identity := by
  obtain ⟨text, identity, shape, read⟩ := isMiswritten_record_iff.mp miswritten
  have taken : identityOf? (toMembers attributes) = some identity :=
    identityOf?_toMembers_eq_some_iff.mpr ⟨text, shape, read⟩
  exact ⟨identity, ofJson_object_of_some taken⟩

theorem reread_record_of_not_isMiswritten
    {attributes : Record}
    (wellWritten : ¬ (record attributes).IsMiswritten) :
    reread (record attributes) =
      record (attributes.map fun entry => (entry.1, reread entry.2)) := by
  have noIdentity : identityOf? (toMembers attributes) = none := by
    refine Option.eq_none_iff_forall_ne_some.mpr fun identity taken => ?_
    obtain ⟨text, shape, read⟩ := identityOf?_toMembers_eq_some_iff.mp taken
    exact wellWritten (isMiswritten_record_iff.mpr ⟨text, identity, shape, read⟩)
  calc
    reread (record attributes) = record (ofMembers (toMembers attributes)) :=
      ofJson_object_of_none noIdentity
    _ = record (attributes.map fun entry => (entry.1, reread entry.2)) := by
      rw [ofMembers_eq_map, toMembers_eq_map, List.map_map]
      rfl

/-! ## Survival -/

/-- A writable value reads back as it was. -/
theorem reread_of_writable
    (value : Value)
    (writable : value.Writable) :
    value.reread = value := by
  induction value using inductionOn with
  | null =>
      rfl
  | boolean truth =>
      rfl
  | integer number =>
      exact reread_integer number
  | float number =>
      exact reread_float_of_isFinite (writable_float_iff.mp writable)
  | string text =>
      rfl
  | identifier identity =>
      exact reread_identifier identity
  | list elements inductionHypothesis =>
      have elementsWritable := writable_list_iff.mp writable
      have elementsReread : elements.map reread = elements.map id :=
        List.map_congr_left fun element member =>
          inductionHypothesis element member (elementsWritable element member)
      rw [reread_list, elementsReread, List.map_id]
  | record attributes inductionHypothesis =>
      obtain ⟨wellWritten, entriesWritable⟩ := writable_record_iff.mp writable
      have entriesReread :
          attributes.map (fun entry => (entry.1, reread entry.2)) =
            attributes.map id :=
        List.map_congr_left fun entry member =>
          congrArg (Prod.mk entry.1) <|
            inductionHypothesis entry member (entriesWritable entry member)
      rw [reread_record_of_not_isMiswritten wellWritten, entriesReread,
        List.map_id]

/-- A float equals itself if it is a number. -/
theorem float_beq_self
    {number : Binary64}
    (isNumber : number.isNaN = false) :
    (float number == float number) = true := by
  rw [beq_iff_form]
  simp [form?, Binary64.units?, isNumber]

/-- A value reads back as an equal one exactly if it is writable. -/
theorem reread_beq_iff_writable
    (value : Value) :
    (value.reread == value) = true ↔ value.Writable := by
  induction value using inductionOn with
  | null =>
      exact iff_of_true rfl (writable_of_kind nofun nofun nofun)
  | boolean truth =>
      refine iff_of_true ?_ (writable_of_kind nofun nofun nofun)
      exact beq_self_eq_true truth
  | integer number =>
      rw [reread_integer]
      refine iff_of_true ?_ (writable_of_kind nofun nofun nofun)
      exact beq_self_eq_true number
  | float number =>
      rw [writable_float_iff]
      cases finite : number.isFinite with
      | false =>
          rw [reread_float_of_not_isFinite finite]
          exact iff_of_false nofun nofun
      | true =>
          have isNumber := Binary64.isNaN_eq_false_of_isFinite finite
          rw [reread_float_of_isFinite finite]
          exact iff_of_true (float_beq_self isNumber) rfl
  | string text =>
      refine iff_of_true ?_ (writable_of_kind nofun nofun nofun)
      exact beq_self_eq_true text
  | identifier identity =>
      rw [reread_identifier]
      exact iff_of_true (beq_self_eq_true identity) (writable_identifier identity)
  | list elements inductionHypothesis =>
      rw [reread_list, writable_list_iff, beq_def, equals, equalElements_eq_beq,
        List.map_beq_self_iff]
      exact forall₂_congr inductionHypothesis
  | record attributes inductionHypothesis =>
      rw [writable_record_iff]
      by_cases miswritten : (record attributes).IsMiswritten
      · obtain ⟨identity, taken⟩ := reread_record_of_isMiswritten miswritten
        rw [taken]
        exact iff_of_false Bool.false_ne_true fun writable => writable.1 miswritten
      · rw [reread_record_of_not_isMiswritten miswritten, and_iff_right miswritten,
          beq_def, equals, equalAttributes_eq_beq, List.map_beq_self_iff]
        refine forall₂_congr fun entry member => ?_
        rw [NameMap.entry_beq_iff, and_iff_right rfl]
        exact inductionHypothesis entry member

/-- A value that is written like another one is read as one of another kind. -/
theorem kind_reread_eq_iff
    {value : Value} :
    value.reread.kind = value.kind ↔ ¬ value.IsMiswritten := by
  cases value with
  | float number =>
      rw [isMiswritten_float_iff]
      cases finite : number.isFinite with
      | false =>
          rw [reread_float_of_not_isFinite finite]
          exact iff_of_false nofun (not_not_intro rfl)
      | true =>
          rw [reread_float_of_isFinite finite]
          exact iff_of_true rfl nofun
  | record attributes =>
      by_cases miswritten : (record attributes).IsMiswritten
      · obtain ⟨identity, taken⟩ := reread_record_of_isMiswritten miswritten
        rw [taken]
        exact iff_of_false nofun (not_not_intro miswritten)
      · rw [reread_record_of_not_isMiswritten miswritten]
        exact iff_of_true rfl miswritten
  | integer number =>
      rw [reread_integer]
      exact iff_of_true rfl nofun
  | identifier identity =>
      rw [reread_identifier]
      exact iff_of_true rfl nofun
  | list elements =>
      rw [reread_list]
      exact iff_of_true rfl nofun
  | _ =>
      exact iff_of_true rfl nofun

/-- Writable values that are written as one tree are one value. -/
theorem eq_of_toJson_eq
    {left right : Value}
    (leftWritable : left.Writable)
    (rightWritable : right.Writable)
    (same : left.toJson = right.toJson) :
    left = right := by
  calc
    left = left.reread := (reread_of_writable left leftWritable).symm
    _ = right.reread := congrArg ofJson same
    _ = right := reread_of_writable right rightWritable

/--
A value survives being written exactly if it is writable: if no part of it, at
any depth, is a float that is not finite or a record that looks like a written
identity.  What survives is read back as it was, in the same representation, and
no other value that survives is written like it, so that no identity is taken
for the string of its text.  Whether or not the whole survives, each value keeps
its kind unless it is itself of the two sorts that are written like others.
-/
theorem survives_iff_writable
    (value : Value) :
    ((ofJson value.toJson == value) = true ↔ value.Writable) ∧
    ((ofJson value.toJson == value) = true →
      ofJson value.toJson = value ∧
      ∀ other : Value, (ofJson other.toJson == other) = true →
        other.toJson = value.toJson → other = value) ∧
    ((ofJson value.toJson).kind = value.kind ↔ ¬ value.IsMiswritten) := by
  refine ⟨reread_beq_iff_writable value, ?_, kind_reread_eq_iff⟩
  intro survives
  have writable : value.Writable :=
    (reread_beq_iff_writable value).mp survives
  refine ⟨reread_of_writable value writable, ?_⟩
  intro other otherSurvives same
  have otherWritable : other.Writable :=
    (reread_beq_iff_writable other).mp otherSurvives
  exact eq_of_toJson_eq otherWritable writable same

/-- An entry that refers to another one, with its amount as a whole float. -/
def ledgerEntry
    (reference : Value) :
    Value :=
  list
    [record
      [("amount", float ⟨0x4014000000000000⟩),
        ("lines", list [integer 5, null]),
        ("reference", reference)]]

/-- The text of the first identity. -/
def firstIdentityText : String :=
  "00000000000000000000000001"

theorem survives_iff_writable_ledger :
    ofJson (ledgerEntry (identifier ⟨1⟩)).toJson =
      ledgerEntry (identifier ⟨1⟩) ∧
    (ledgerEntry (string firstIdentityText)).toJson ≠
      (ledgerEntry (identifier ⟨1⟩)).toJson ∧
    (ofJson
        (ledgerEntry (record [("$id", string firstIdentityText)])).toJson ==
      ledgerEntry (record [("$id", string firstIdentityText)])) = false := by
  obtain ⟨-, ofSurvivor, -⟩ :=
    survives_iff_writable (ledgerEntry (identifier ⟨1⟩))
  obtain ⟨unchanged, unique⟩ := ofSurvivor (by decide +kernel)
  refine ⟨unchanged, ?_, ?_⟩
  · intro same
    have taken :=
      unique (ledgerEntry (string firstIdentityText)) (by decide +kernel) same
    simp [ledgerEntry] at taken
  · obtain ⟨survives, -, -⟩ :=
      survives_iff_writable
        (ledgerEntry (record [("$id", string firstIdentityText)]))
    rw [← Bool.not_eq_true, survives]
    intro writable
    have isPart :
        (ledgerEntry (record [("$id", string firstIdentityText)])).HasPart
          (record [("$id", string firstIdentityText)]) :=
      .within List.mem_cons_self
        (.within
          (List.mem_cons_of_mem _ (List.mem_cons_of_mem _ List.mem_cons_self))
          (.itself _))
    have read : Identifier.ofText? firstIdentityText = some ⟨1⟩ := by
      decide +kernel
    exact writable _ isPart (.record read)

end Value

end Permission
