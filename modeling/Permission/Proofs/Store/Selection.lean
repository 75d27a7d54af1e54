import Mathlib.Logic.Function.Basic
import Permission.Proofs.Store.View

namespace Permission

/-!
# What filters see of a collection

A collection is filled by additions, of one record or of several at once, and
holds all that were ever added in that order.  Selecting is then evaluation of
the filter on each record as it is, but with the assigned identity set if there
is none.  That happens at the top only: whatever is embedded in a record is seen
without any identity but its own, and so is a record that fails to say whether
it has one.
-/

namespace Collection

variable {ρ : Type}

/-! ## Histories of a collection -/

/-- What is put into a collection at once. -/
inductive Addition (ρ : Type) where
  /-- One record, under the identity assigned to it. -/
  | one (identity : Identifier) (record : ρ)
  /-- Several records in order, each under its identity. -/
  | several (entries : List (Identifier × ρ))

def Addition.entries : Addition ρ → List (Identifier × ρ)
  | one identity record =>
      [(identity, record)]
  | several entries =>
      entries

def add
    (collection : Collection ρ)
    (addition : Addition ρ) :
    Collection ρ :=
  match addition with
  | .one identity record =>
      collection.insert identity record
  | .several entries =>
      collection.insertAll entries

/-- Makes additions one after another. -/
def addAll
    (collection : Collection ρ)
    (history : List (Addition ρ)) :
    Collection ρ :=
  history.foldl add collection

/-- A collection that starts out empty after the additions of a history. -/
def ofHistory
    (kind : String)
    (capabilities : Capabilities)
    (history : List (Addition ρ)) :
    Collection ρ :=
  ((empty kind).withCapabilities capabilities).addAll history

theorem entries_add
    (collection : Collection ρ)
    (addition : Addition ρ) :
    (collection.add addition).entries =
      collection.entries ++ addition.entries := by
  cases addition with
  | one identity record =>
      rfl
  | several entries =>
      exact collection.entries_insertAll entries

/-- A collection holds what was in it and what was added, in that order. -/
theorem entries_addAll
    (collection : Collection ρ)
    (history : List (Addition ρ)) :
    (collection.addAll history).entries =
      collection.entries ++ history.flatMap Addition.entries := by
  induction history generalizing collection with
  | nil =>
      exact (List.append_nil _).symm
  | cons addition later inductionHypothesis =>
      calc
        (collection.addAll (addition :: later)).entries
        _ = (collection.add addition).entries ++
              later.flatMap Addition.entries :=
            inductionHypothesis (collection.add addition)
        _ = collection.entries ++
              (addition :: later).flatMap Addition.entries := by
            rw [entries_add, List.append_assoc, List.flatMap_cons]

theorem entries_ofHistory
    (kind : String)
    (capabilities : Capabilities)
    (history : List (Addition ρ)) :
    (ofHistory kind capabilities history).entries =
      history.flatMap Addition.entries :=
  entries_addAll _ history

end Collection

/-! ## Identities set where there are none -/

/-- A record with its identity set, unless it has one. -/
def Record.identified
    (record : Record)
    (identity : Identifier) :
    Record :=
  match record.find? identityField with
  | some _ =>
      record
  | none =>
      record.insert identityField (.identifier identity)

namespace Attributes

variable
  {attributes : Attributes}
  {identity : Identifier}

/-- Attributes that show an identity, unless there is some or its read fails. -/
def identified
    (attributes : Attributes)
    (identity : Identifier) :
    Attributes :=
  match attributes identityField with
  | .error (.missing _) =>
      Function.update attributes identityField (.ok (.identifier identity))
  | _ =>
      attributes

theorem identified_of_missing
    {name : String}
    (missing : attributes identityField = .error (.missing name)) :
    attributes.identified identity =
      Function.update attributes identityField (.ok (.identifier identity)) := by
  rw [identified, missing]

theorem identified_of_not_missing
    (notMissing : ∀ name, attributes identityField ≠ .error (.missing name)) :
    attributes.identified identity = attributes := by
  unfold identified
  split
  · rename_i name missing
    exact absurd missing (notMissing name)
  · rfl

theorem identified_of_ne
    {name : String}
    (different : name ≠ identityField) :
    attributes.identified identity name = attributes name := by
  by_cases missing : ∃ missingName,
      attributes identityField = .error (.missing missingName)
  · obtain ⟨missingName, missing⟩ := missing
    rw [identified_of_missing missing, Function.update_of_ne different]
  · rw [identified_of_not_missing (not_exists.mp missing)]

theorem withIdentity_of_ne
    {name : String}
    (different : name ≠ identityField) :
    attributes.withIdentity identity name = attributes name := by
  unfold withIdentity
  split
  · rename_i missingName missing
    rw [if_neg different, missing]
  · rfl

/-- What is shown of a stored record are its attributes with the identity set. -/
theorem withIdentity_eq_identified
    (attributes : Attributes)
    (identity : Identifier) :
    attributes.withIdentity identity = attributes.identified identity := by
  funext name
  by_cases isIdentity : name = identityField
  · subst isIdentity
    unfold withIdentity
    split
    · rename_i missingName missing
      rw [if_pos rfl, identified_of_missing missing, Function.update_self]
    · rename_i notMissing
      rw [identified_of_not_missing notMissing]
  · rw [withIdentity_of_ne isIdentity, identified_of_ne isIdentity]

/-- The identity takes the place of nothing that can be read. -/
theorem identified_of_read
    {name : String}
    {value : Value}
    (read : attributes name = .ok value) :
    attributes.identified identity name = .ok value := by
  rw [← withIdentity_eq_identified]
  exact withIdentity_of_read read

end Attributes

theorem Record.attributes_identified
    (record : Record)
    (identity : Identifier) :
    Record.attributes (record.identified identity) =
      (Record.attributes record).identified identity := by
  unfold Record.identified
  split
  · rename_i value found
    refine (Attributes.identified_of_not_missing ?_).symm
    intro name missing
    rw [attributes, found] at missing
    cases missing
  · rename_i notFound
    have missing :
        Record.attributes record identityField =
          .error (.missing identityField) := by
      rw [attributes, notFound]
    rw [Attributes.identified_of_missing missing]
    funext name
    by_cases isIdentity : name = identityField
    · subst isIdentity
      rw [attributes, NameMap.find?_insert_self, Function.update_self]
    · rw [attributes, NameMap.find?_insert_of_ne (Ne.symm isIdentity),
        Function.update_of_ne isIdentity]
      rfl

namespace Collection

section Selection

variable {ρ : Type} [Resource ρ]

theorem select_eq_filter
    (collection : Collection ρ)
    (filter : Filter) :
    collection.select filter =
      (collection.entries.filter fun entry =>
        filter.evaluate
          ((Resource.attributes entry.2).identified entry.1)).map Prod.snd := by
  simp only [select, view, Attributes.withIdentity_eq_identified]

/-- What is embedded in a record is seen as it is. -/
theorem evaluate_embedded_identified
    {attributes : Attributes}
    {identity : Identifier}
    {field : String}
    {value : Value}
    (read : attributes field = .ok value)
    (inner : Filter) :
    Filter.evaluate [(field, .embedded inner)] (attributes.identified identity) =
      value.targets.any fun target => inner.accepts target := by
  rw [Filter.evaluate_cons, Filter.evaluate_nil, Bool.and_true,
    Attributes.identified_of_read read]
  exact Predicate.evaluate_embedded_some inner value

/-- Whoever fails to say whether it has an identity is seen to have none. -/
theorem mem_select_of_failed_identity
    {collection : Collection ρ}
    {entry : Identifier × ρ}
    {error : AttributeError}
    (member : entry ∈ collection.entries)
    (failed : Resource.attributes entry.2 identityField = .error error)
    (notMissing : ∀ name, error ≠ .missing name) :
    (Resource.attributes entry.2).identified entry.1 =
        Resource.attributes entry.2 ∧
      entry.2 ∈ collection.select [(identityField, .present false)] := by
  have unchanged :
      (Resource.attributes entry.2).identified entry.1 =
        Resource.attributes entry.2 := by
    refine Attributes.identified_of_not_missing fun name missing => ?_
    rw [failed] at missing
    exact notMissing name (Except.error.inj missing)
  refine ⟨unchanged, ?_⟩
  rw [select_eq_filter]
  refine List.mem_map.mpr ⟨entry, List.mem_filter.mpr ⟨member, ?_⟩, rfl⟩
  rw [unchanged, Filter.evaluate_cons, failed]
  rfl

end Selection

/--
A collection selects the records, as they were added, that the filter accepts
with their assigned identities set where they have none.  Resources of other
kinds are selected by the same rule.  Whatever is embedded in them is seen as it
is, and a resource that fails to say whether it has an identity stays without.
-/
theorem select_of_history
    (ρ : Type)
    [Resource ρ]
    (kind : String)
    (capabilities : Capabilities) :
    (∀ (history : List (Addition Record)) (filter : Filter),
      (ofHistory kind capabilities history).select filter =
        ((history.flatMap Addition.entries).filter fun entry =>
          filter.accepts (Record.identified entry.2 entry.1)).map Prod.snd) ∧
      ∀ history : List (Addition ρ),
        (∀ filter : Filter,
          (ofHistory kind capabilities history).select filter =
            ((history.flatMap Addition.entries).filter fun entry =>
              filter.evaluate
                ((Resource.attributes entry.2).identified entry.1)).map
              Prod.snd) ∧
        ∀ entry ∈ history.flatMap Addition.entries,
          (∀ field value (inner : Filter),
            Resource.attributes entry.2 field = .ok value →
              Filter.evaluate [(field, .embedded inner)]
                  ((Resource.attributes entry.2).identified entry.1) =
                value.targets.any fun target => inner.accepts target) ∧
          ∀ error, Resource.attributes entry.2 identityField = .error error →
            (∀ name, error ≠ .missing name) →
              (Resource.attributes entry.2).identified entry.1 =
                  Resource.attributes entry.2 ∧
                entry.2 ∈
                  (ofHistory kind capabilities history).select
                    [(identityField, .present false)] := by
  refine ⟨?_, ?_⟩
  · intro history filter
    rw [select_eq_filter, entries_ofHistory]
    simp only [Filter.accepts, Resource.attributes, Record.attributes_identified]
  · intro history
    refine ⟨?_, ?_⟩
    · intro filter
      rw [select_eq_filter, entries_ofHistory]
    · intro entry member
      refine ⟨?_, ?_⟩
      · intro field value inner read
        exact evaluate_embedded_identified read inner
      · intro error failed notMissing
        rw [← entries_ofHistory kind capabilities history] at member
        exact mem_select_of_failed_identity member failed notMissing

/-- A draft by an author who is embedded in it. -/
def authoredDraft : Record :=
  [("author", .record [("name", .string "Ada")])]

/-- Two drafts without identities of their own, and one that has brought its own. -/
def draftHistory : List (Addition Record) :=
  [.one ⟨1⟩ [("title", .string "Plan")],
    .several [(⟨2⟩, [("_id", .identifier ⟨9⟩)]), (⟨3⟩, authoredDraft)]]

/-- A resource that cannot be read at all. -/
def sealedResource : Attributes :=
  fun name => .error (.unreadable name "sealed")

theorem select_of_history_drafts :
    (ofHistory "draft" .full draftHistory).select
        [(identityField, .oneOf [.identifier ⟨1⟩, .identifier ⟨2⟩])] =
      [[("title", .string "Plan")]] ∧
    Filter.evaluate [("author", .embedded [(identityField, .present false)])]
        (Attributes.identified (Record.attributes authoredDraft) ⟨3⟩) =
      true ∧
    sealedResource ∈
      (ofHistory "draft" .full [.one ⟨4⟩ sealedResource]).select
        [(identityField, .present false)] := by
  obtain ⟨selects, records⟩ := select_of_history Record "draft" .full
  obtain ⟨-, sealed⟩ := select_of_history Attributes "draft" .full
  have authored :
      ((⟨3⟩, authoredDraft) : Identifier × Record) ∈
        draftHistory.flatMap Addition.entries :=
    List.mem_cons_of_mem _ (List.mem_cons_of_mem _ List.mem_cons_self)
  have seen :=
    ((records draftHistory).2 _ authored).1 "author" _
      [(identityField, .present false)] rfl
  have unnamed :=
    ((sealed [.one ⟨4⟩ sealedResource]).2 _ List.mem_cons_self).2
      (.unreadable identityField "sealed") rfl nofun
  refine ⟨?_, seen, unnamed.2⟩
  rw [selects]
  rfl

end Collection

end Permission
