import Permission.Proofs.Elementwise
import Permission.Proofs.Json.Tree

namespace Permission.Json

/-!
# What readings give

Whichever way a structure is written down, as an object with its fields in any
order or as an array of them, it is put together from its fields alone.  So what
each field keeps of a draft holds of every structure that is read.
-/

theorem liftFault_eq_ok_iff
    {ε α : Type}
    {result : Except Fault α}
    {value : α} :
    (liftFault result : Except (ReadError ε) α) = .ok value ↔
      result = .ok value :=
  Except.mapError_eq_ok_iff

theorem entering_eq_ok_iff
    {ε α : Type}
    {depth : Nat}
    {inside : Nat → Except (ReadError ε) α}
    {value : α} :
    entering depth inside = .ok value ↔
      ∃ remaining, depth = remaining + 1 ∧ inside remaining = .ok value := by
  cases depth with
  | zero =>
      refine iff_of_false nofun ?_
      rintro ⟨remaining, isSuccessor, -⟩
      cases isSuccessor
  | succ remaining =>
      simp [entering]

namespace Reading

variable {ε α σ : Type} {depth : Nat} {outline : Outline}

theorem mismatch_ne_ok
    (expected : String)
    (outline : Outline)
    (value : α) :
    (mismatch expected outline : Except (ReadError ε) α) ≠ .ok value := by
  unfold mismatch
  split
  · split <;> nofun
  all_goals nofun

/-- A free-form part is read as what its tree means. -/
theorem free_eq_ok_iff
    {meaning : Json → Except ε α}
    {value : α} :
    free meaning depth outline = .ok value ↔
      ∃ read, outline.tree depth = .ok read ∧ meaning read = .ok value := by
  unfold free
  simp only [Except.bind_eq_ok_iff, liftFault_eq_ok_iff,
    Except.mapError_eq_ok_iff]

theorem items_eq_mapM
    (item : Reading ε α)
    (depth : Nat)
    (outlines : List Outline) :
    items item depth outlines = outlines.mapM (item depth) := by
  induction outlines with
  | nil =>
      rfl
  | cons outline rest inductionHypothesis =>
      rw [List.mapM_cons, items, inductionHypothesis]

/-- Each value of a sequence that is read is read from an item of an array. -/
theorem exists_item_of_sequence
    {item : Reading ε α}
    {values : List α}
    (read : sequence item depth outline = .ok values) :
    ∀ value ∈ values, ∃ inside single, item inside single = .ok value := by
  cases outline with
  | array outlines ending =>
      obtain ⟨inside, -, insideRead⟩ := entering_eq_ok_iff.mp read
      obtain ⟨found, itemsRead, rest⟩ := Except.bind_eq_ok_iff.mp insideRead
      obtain ⟨-, -, shape⟩ := Except.bind_eq_ok_iff.mp rest
      rw [Except.pure_eq_ok_iff] at shape
      rw [items_eq_mapM, List.mapM_eq_ok_iff_forall₂, shape] at itemsRead
      intro value held
      obtain ⟨single, -, itemRead⟩ := itemsRead.exists_mem_left held
      exact ⟨inside, single, itemRead⟩
  | _ =>
      unfold sequence at read
      exact absurd read (mismatch_ne_ok _ _ _)

/-- Reading the field keeps a property of drafts. -/
def Field.Keeps
    (good : σ → Prop)
    (field : Field ε σ) :
    Prop :=
  ∀ depth outline draft extended,
    good draft → field.read depth outline draft = .ok extended → good extended

namespace Layout

variable
  {layout : Layout ε σ α}
  {good : σ → Prop}
  {draft extended : σ}

theorem good_of_readMembers
    {members : List (Outline × Outline)}
    (keeps : ∀ field ∈ layout.fields, field.Keeps good)
    (isGood : good draft)
    (read : layout.readMembers depth members draft = .ok extended) :
    good extended := by
  induction members generalizing draft with
  | nil =>
      cases read
      exact isGood
  | cons member rest inductionHypothesis =>
      obtain ⟨key, value⟩ := member
      rw [readMembers] at read
      obtain ⟨name, -, others⟩ := Except.bind_eq_ok_iff.mp read
      split at others
      · rename_i field found
        split at others
        · cases others
        · obtain ⟨next, fieldRead, later⟩ := Except.bind_eq_ok_iff.mp others
          have known : field ∈ layout.fields :=
            List.mem_of_find?_eq_some found
          apply inductionHypothesis
          · exact keeps field known depth value draft next isGood fieldRead
          · exact later
      · obtain ⟨-, -, later⟩ := Except.bind_eq_ok_iff.mp others
        exact inductionHypothesis isGood later

theorem good_of_readItems
    {fields : List (Field ε σ)}
    {items leftOver : List Outline}
    (keeps : ∀ field ∈ fields, field.Keeps good)
    (isGood : good draft)
    (read : readItems depth fields items draft = .ok (extended, leftOver)) :
    good extended := by
  induction fields generalizing items draft with
  | nil =>
      cases read
      exact isGood
  | cons field fields inductionHypothesis =>
      cases items with
      | nil =>
          cases read
          exact isGood
      | cons item items =>
          obtain ⟨first, later⟩ := List.forall_mem_cons.mp keeps
          rw [readItems] at read
          obtain ⟨next, fieldRead, others⟩ := Except.bind_eq_ok_iff.mp read
          exact inductionHypothesis later
            (first depth item draft next isGood fieldRead) others

/-- A member that goes by the name of a field is read as that field. -/
theorem readMembers_of_field
    {name : String}
    {value : Outline}
    {rest : List (Outline × Outline)}
    {field : Field ε σ}
    {outcome : Except (ReadError ε) σ}
    (found :
      (layout.fields.find? fun field => field.name == name) = some field)
    (fresh : field.isRead draft = false)
    (fieldRead : field.read depth value draft = outcome) :
    layout.readMembers depth ((keyOutline name, value) :: rest) draft =
      outcome >>= layout.readMembers depth rest := by
  have named :
      (liftFault (keyOutline name).name : Except (ReadError ε) String) =
        .ok name :=
    rfl
  rw [readMembers, named, ← fieldRead]
  simp only [bind, Except.bind, found, fresh]
  rfl

/-- A structure that is read comes from a draft with all that its fields keep. -/
theorem exists_draft_of_reading
    {value : α}
    (keeps : ∀ field ∈ layout.fields, field.Keeps good)
    (isGood : good layout.blank)
    (read : layout.reading depth outline = .ok value) :
    ∃ draft, good draft ∧ layout.finish draft = .ok value := by
  cases outline with
  | object members ending =>
      obtain ⟨inside, -, insideRead⟩ := entering_eq_ok_iff.mp read
      obtain ⟨draft, membersRead, rest⟩ := Except.bind_eq_ok_iff.mp insideRead
      obtain ⟨-, -, finished⟩ := Except.bind_eq_ok_iff.mp rest
      exact ⟨draft, good_of_readMembers keeps isGood membersRead,
        Except.mapError_eq_ok_iff.mp finished⟩
  | array items ending =>
      obtain ⟨inside, -, insideRead⟩ := entering_eq_ok_iff.mp read
      obtain ⟨⟨draft, leftOver⟩, itemsRead, rest⟩ :=
        Except.bind_eq_ok_iff.mp insideRead
      dsimp only at rest
      split at rest
      · obtain ⟨-, -, finished⟩ := Except.bind_eq_ok_iff.mp rest
        exact ⟨draft, good_of_readItems keeps isGood itemsRead,
          Except.mapError_eq_ok_iff.mp finished⟩
      · cases rest
  | _ =>
      unfold reading at read
      exact absurd read (mismatch_ne_ok _ _ _)

end Layout

end Reading

end Permission.Json
