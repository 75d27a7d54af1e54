import Permission.Store

namespace Permission

/-!
# Collections in memory

A collection keeps records in the order in which they came, each with the
identity that was assigned to it, and executes filters by going through them.
Filters see the attributes of a record as they are, except that a record which
has no identity field of its own shows the assigned identity there.  A field of
that name which fails in another way stays as it is.
-/

/-- Stored records of type `ρ` with their assigned identities. -/
structure Collection (ρ : Type) where
  kind : String
  capabilities : Capabilities
  entries : List (Identifier × ρ)

/-- What a filter sees of a record with an assigned identity. -/
def Attributes.withIdentity
    (attributes : Attributes)
    (identity : Identifier) :
    Attributes :=
  fun name =>
    match attributes name with
    | .error (.missing missingName) =>
        if name = identityField then
          .ok (.identifier identity)
        else
          .error (.missing missingName)
    | other =>
        other

namespace Collection

variable {ρ : Type}

/-- A collection without records, which can execute every predicate. -/
def empty
    (kind : String) :
    Collection ρ :=
  ⟨kind, .full, []⟩

def withCapabilities
    (collection : Collection ρ)
    (capabilities : Capabilities) :
    Collection ρ :=
  { collection with capabilities := capabilities }

/-- Stores a record, under the identity assigned to it, behind all others. -/
def insert
    (collection : Collection ρ)
    (identity : Identifier)
    (record : ρ) :
    Collection ρ :=
  { collection with entries := collection.entries ++ [(identity, record)] }

/-- Stores several records in order, each under its identity. -/
def insertAll
    (collection : Collection ρ)
    (additions : List (Identifier × ρ)) :
    Collection ρ :=
  additions.foldl (fun known entry => known.insert entry.1 entry.2) collection

def get?
    (collection : Collection ρ)
    (identity : Identifier) :
    Option ρ :=
  (collection.entries.find? fun entry => entry.1 == identity).map Prod.snd

def records
    (collection : Collection ρ) :
    List ρ :=
  collection.entries.map Prod.snd

/-- The identities in the order in which they were assigned. -/
def identities
    (collection : Collection ρ) :
    List Identifier :=
  collection.entries.map Prod.fst

def size
    (collection : Collection ρ) :
    Nat :=
  collection.entries.length

/-- What a filter sees of a stored record. -/
def view
    [Resource ρ]
    (entry : Identifier × ρ) :
    Attributes :=
  (Resource.attributes entry.2).withIdentity entry.1

/-- The records that pass a filter, in the order in which they were stored. -/
def select
    [Resource ρ]
    (collection : Collection ρ)
    (filter : Filter) :
    List ρ :=
  (collection.entries.filter fun entry => filter.evaluate (view entry)).map
    Prod.snd

/-- Some stored record equals the given one and passes the filter. -/
def includes
    [Resource ρ]
    [BEq ρ]
    (collection : Collection ρ)
    (filter : Filter)
    (record : ρ) :
    Bool :=
  collection.entries.any fun entry =>
    entry.2 == record && filter.evaluate (view entry)

/-- The collection as a store, which never fails. -/
def toStore
    [Resource ρ]
    [BEq ρ]
    (collection : Collection ρ) :
    Store ρ where
  kind := collection.kind
  capabilities := collection.capabilities
  select := fun filter => .ok (collection.select filter)
  includes := fun filter record => .ok (collection.includes filter record)

@[simp] theorem capabilities_toStore
    [Resource ρ]
    [BEq ρ]
    (collection : Collection ρ) :
    collection.toStore.capabilities = collection.capabilities :=
  rfl

@[simp] theorem records_insert
    (collection : Collection ρ)
    (identity : Identifier)
    (record : ρ) :
    (collection.insert identity record).records =
      collection.records ++ [record] := by
  simp [records, insert]

@[simp] theorem entries_insertAll
    (collection : Collection ρ)
    (additions : List (Identifier × ρ)) :
    (collection.insertAll additions).entries =
      collection.entries ++ additions := by
  induction additions generalizing collection with
  | nil =>
      simp [insertAll]
  | cons entry rest inductionHypothesis =>
      have step := inductionHypothesis (collection.insert entry.1 entry.2)
      simpa [insertAll, insert] using step

section Scan

variable
  [Resource ρ]
  {collection : Collection ρ}
  {filter : Filter}
  {record : ρ}

theorem mem_select_iff :
    record ∈ collection.select filter ↔
      ∃ entry ∈ collection.entries,
        filter.evaluate (view entry) = true ∧ entry.2 = record := by
  simp [select]

theorem includes_eq_true_iff
    [BEq ρ] :
    collection.includes filter record = true ↔
      ∃ entry ∈ collection.entries,
        (entry.2 == record) = true ∧ filter.evaluate (view entry) = true := by
  simp [includes]

end Scan

end Collection

end Permission
