import Mathlib.Data.List.Nodup
import Permission.Proofs.Store.Selection

namespace Permission

/-!
# Ways to a stored record

A stored record is found by the identity assigned to it, by a filter, or by
asking whether it is there.  As long as no identity is assigned twice, the three
agree: what was stored under an identity is found there whatever comes later, a
filter for the identity selects it alone unless another record has brought that
identity along, and a record is there under a filter if the filter selects an
equal one.  A record that does not equal itself is selected but is never there.
-/

/-- Only an identity equals an identity. -/
theorem Value.beq_identifier_iff
    {value : Value}
    {identity : Identifier} :
    (value == identifier identity) = true ↔ value = identifier identity := by
  cases value <;> simp [beq_def, equals]

/-! ## Filters for an identity -/

/-- The filter for what shows an identity as its own. -/
def Filter.byIdentity
    (identity : Identifier) :
    Filter :=
  [(identityField, .equalTo (.identifier identity))]

theorem Filter.accepts_byIdentity_iff
    {identity : Identifier}
    {record : Record} :
    (byIdentity identity).accepts record = true ↔
      record.find? identityField = some (.identifier identity) := by
  change
    evaluate [(identityField, .equalTo (.identifier identity))]
        (Record.attributes record) =
      true ↔ _
  rw [evaluate_cons, evaluate_nil, Bool.and_true, Record.toOption_attributes]
  cases record.find? identityField with
  | none =>
      simp
  | some value =>
      rw [Predicate.evaluate_equalTo_some, Value.beq_identifier_iff,
        Option.some_inj]

/-- What is shown as the identity of a record is its own or the assigned one. -/
theorem Record.find?_identified
    (record : Record)
    (assigned : Identifier) :
    (record.identified assigned).find? identityField =
      some ((record.find? identityField).getD (.identifier assigned)) := by
  unfold identified
  cases own : record.find? identityField with
  | none =>
      exact NameMap.find?_insert_self _ _ _
  | some value =>
      exact own

namespace Collection

section Lookup

variable
  {ρ : Type}
  {collection : Collection ρ}
  {identity : Identifier}
  {record : ρ}

/-! ## Records by their identities -/

theorem get?_eq_none_iff :
    collection.get? identity = none ↔ identity ∉ collection.identities := by
  unfold get? identities
  rw [Option.map_eq_none_iff, List.find?_eq_none, List.mem_map]
  constructor
  · rintro noEntry ⟨entry, member, same⟩
    exact noEntry entry member (beq_iff_eq.mpr same)
  · intro notAssigned entry member same
    exact notAssigned ⟨entry, member, beq_iff_eq.mp same⟩

/-- An addition leaves in place what was found before. -/
theorem get?_add
    (found : collection.get? identity = some record)
    (addition : Addition ρ) :
    (collection.add addition).get? identity = some record := by
  obtain ⟨entry, isFirst, isRecord⟩ := Option.map_eq_some_iff.mp found
  unfold get?
  rw [entries_add, List.find?_append, isFirst]
  exact congrArg some isRecord

/-- So do all additions that follow. -/
theorem get?_addAll
    (found : collection.get? identity = some record)
    (later : List (Addition ρ)) :
    (collection.addAll later).get? identity = some record := by
  induction later generalizing collection with
  | nil =>
      exact found
  | cons addition rest inductionHypothesis =>
      exact inductionHypothesis (get?_add found addition)

/-- A test that an entry passes, and none of another identity, keeps it alone. -/
theorem filter_entries_eq_singleton
    {entry : Identifier × ρ}
    {test : Identifier × ρ → Bool}
    (distinct : collection.identities.Nodup)
    (member : entry ∈ collection.entries)
    (passes : test entry = true)
    (others :
      ∀ other ∈ collection.entries, other.1 ≠ entry.1 → ¬ test other = true) :
    collection.entries.filter test = [entry] := by
  obtain ⟨before, after, shape⟩ := List.append_of_mem member
  -- Moved to the front, the entry is told apart from all others at once.
  have apart : ∀ other ∈ before ++ after, other.1 ≠ entry.1 := by
    unfold identities at distinct
    rw [shape, List.map_append, List.map_cons, List.nodup_middle,
      ← List.map_append] at distinct
    intro other elsewhere same
    exact (List.nodup_cons.mp distinct).1
      (same ▸ List.mem_map_of_mem elsewhere)
  rw [List.filter_eq_cons_iff]
  refine ⟨before, after, shape, ?_, passes, ?_⟩
  · intro other earlier
    apply others other
    · exact shape ▸ List.mem_append_left _ earlier
    · exact apart other (List.mem_append_left _ earlier)
  · rw [List.filter_eq_nil_iff]
    intro other later
    apply others other
    · exact shape ▸ List.mem_append_right _ (List.mem_cons_of_mem _ later)
    · exact apart other (List.mem_append_right _ later)

/-- Under distinct identities each record is found. -/
theorem get?_of_mem
    (distinct : collection.identities.Nodup)
    (member : (identity, record) ∈ collection.entries) :
    collection.get? identity = some record := by
  have kept :
      collection.entries.filter (fun entry => entry.1 == identity) =
        [(identity, record)] := by
    refine filter_entries_eq_singleton distinct member ?_ ?_
    · exact beq_self_eq_true identity
    · intro other _ different same
      exact different (beq_iff_eq.mp same)
  -- What is found is the first entry that the same test would keep.
  unfold get?
  rw [← List.head?_filter, kept]
  rfl

/-! ## Records that are there under a filter -/

/-- A record is there under a filter if the filter selects an equal one. -/
theorem includes_iff_select
    [Resource ρ]
    [BEq ρ]
    {filter : Filter} :
    collection.includes filter record = true ↔
      ∃ selected ∈ collection.select filter, (selected == record) = true := by
  rw [includes_eq_true_iff]
  constructor
  · rintro ⟨entry, member, equal, passed⟩
    exact ⟨entry.2, mem_select_iff.mpr ⟨entry, member, passed, rfl⟩, equal⟩
  · rintro ⟨selected, isSelected, equal⟩
    obtain ⟨entry, member, passed, rfl⟩ := mem_select_iff.mp isSelected
    exact ⟨entry, member, equal, passed⟩

end Lookup

/-! ## Records selected by their identities -/

section Selection

variable
  {collection : Collection Record}
  {identity : Identifier}
  {record : Record}

/-- No stored record has brought the identity along as its own. -/
def Unclaimed
    (collection : Collection Record)
    (identity : Identifier) :
    Prop :=
  ∀ entry ∈ collection.entries,
    (entry.2.find? identityField).any (· == .identifier identity) = false

instance
    (collection : Collection Record)
    (identity : Identifier) :
    Decidable (collection.Unclaimed identity) :=
  inferInstanceAs (Decidable (∀ entry ∈ collection.entries, _ = false))

/-- Where an identity is unclaimed, it is shown by what it is assigned to alone. -/
theorem accepts_byIdentity_identified_iff
    {entry : Identifier × Record}
    (unclaimed : collection.Unclaimed identity)
    (member : entry ∈ collection.entries) :
    (Filter.byIdentity identity).accepts (entry.2.identified entry.1) = true ↔
      entry.2.find? identityField = none ∧ entry.1 = identity := by
  rw [Filter.accepts_byIdentity_iff, Record.find?_identified, Option.some_inj]
  cases own : entry.2.find? identityField with
  | none =>
      simp
  | some value =>
      refine iff_of_false (fun same => ?_) (by simp)
      have claimed : (value == .identifier identity) = true :=
        Value.beq_identifier_iff.mpr same
      have notClaimed := unclaimed entry member
      rw [own, Option.any_some, claimed] at notClaimed
      cases notClaimed

/-- The filter for an unclaimed identity selects one record. -/
theorem select_byIdentity
    (distinct : collection.identities.Nodup)
    (member : (identity, record) ∈ collection.entries)
    (unnamed : record.find? identityField = none)
    (unclaimed : collection.Unclaimed identity) :
    collection.select (.byIdentity identity) = [record] := by
  have kept :
      (collection.entries.filter fun entry =>
        (Filter.byIdentity identity).accepts
          (Record.identified entry.2 entry.1)) =
        [(identity, record)] := by
    refine filter_entries_eq_singleton distinct member ?_ ?_
    · exact
        (accepts_byIdentity_identified_iff unclaimed member).mpr ⟨unnamed, rfl⟩
    · intro other stored different accepted
      exact different
        ((accepts_byIdentity_identified_iff unclaimed stored).mp accepted).2
  rw [select_eq_filter]
  simp only [Resource.attributes, ← Record.attributes_identified]
  exact congrArg (List.map Prod.snd) kept

end Selection

/--
Whatever was added to a collection, as long as its identities are distinct: each
record is found under its identity, whatever is added later, and nothing under
any other identity; a record without an identity of its own is the only one
selected by the assigned identity, unless that is claimed by some record; and a
record is there under a filter exactly if the filter selects an equal one.
-/
theorem access_paths_agree
    {collection : Collection Record}
    (kind : String)
    (capabilities : Capabilities)
    (history : List (Addition Record))
    (reached : ofHistory kind capabilities history = collection)
    (distinct : collection.identities.Nodup) :
    (∀ (position : Nat) identity record,
      (history.flatMap Addition.entries)[position]? = some (identity, record) →
        (∀ later, (collection.addAll later).get? identity = some record) ∧
        (record.find? identityField = none → collection.Unclaimed identity →
          collection.select (.byIdentity identity) = [record])) ∧
    (∀ identity, identity ∉ collection.identities →
      collection.get? identity = none) ∧
    ∀ filter record,
      collection.includes filter record = true ↔
        ∃ selected ∈ collection.select filter, (selected == record) = true := by
  have entriesOfHistory : collection.entries = history.flatMap Addition.entries :=
    reached ▸ entries_ofHistory kind capabilities history
  refine ⟨?_, ?_, ?_⟩
  · intro position identity record placed
    have member : (identity, record) ∈ collection.entries :=
      entriesOfHistory ▸ List.mem_of_getElem? placed
    refine ⟨?_, ?_⟩
    · intro later
      exact get?_addAll (get?_of_mem distinct member) later
    · intro unnamed unclaimed
      exact select_byIdentity distinct member unnamed unclaimed
  · intro identity notAssigned
    exact get?_eq_none_iff.mpr notAssigned
  · intro filter record
    exact includes_iff_select

/-- What a reader has thought of an article. -/
def rating
    (stars : Value) :
    Record :=
  [("stars", stars)]

/--
Two ratings that are the same, a record that has brought an identity along, and
a rating that does not equal itself.
-/
def ratingHistory : List (Addition Record) :=
  [.one ⟨1⟩ (rating (.integer 5)),
    .several
      [(⟨2⟩, rating (.integer 5)),
        (⟨3⟩, [("_id", .identifier ⟨9⟩)]),
        (⟨4⟩, rating (.float ⟨0x7FF8000000000000⟩))]]

def ratings : Collection Record :=
  ofHistory "Rating" .full ratingHistory

theorem access_paths_agree_ratings :
    (ratings.addAll [.one ⟨2⟩ []]).get? ⟨2⟩ = some (rating (.integer 5)) ∧
    ratings.select (.byIdentity ⟨2⟩) = [rating (.integer 5)] ∧
    ratings.get? ⟨9⟩ = none ∧
    ratings.includes [] (rating (.float ⟨0x4014000000000000⟩)) = true ∧
    ratings.includes [] (rating (.float ⟨0x7FF8000000000000⟩)) = false := by
  obtain ⟨ofPosition, ofOthers, ofFilter⟩ :=
    access_paths_agree "Rating" .full ratingHistory (rfl : _ = ratings)
      (by decide)
  obtain ⟨stays, alone⟩ := ofPosition 1 ⟨2⟩ (rating (.integer 5)) rfl
  refine ⟨stays _, alone rfl (by decide), ofOthers ⟨9⟩ (by decide), ?_, ?_⟩
  · rw [ofFilter]
    exact ⟨rating (.integer 5), List.mem_cons_self, by decide +kernel⟩
  · rw [← Bool.not_eq_true, ofFilter]
    have unequal :
        ∀ selected ∈ ratings.select [],
          (selected == rating (.float ⟨0x7FF8000000000000⟩)) = false := by
      decide +kernel
    rintro ⟨selected, isSelected, equal⟩
    rw [unequal selected isSelected] at equal
    cases equal

end Collection

end Permission
