namespace Permission

/-!
# Maps from names

A map from names is a list of entries, read from its first entry on and written
in ascending order of the names.  Insertion keeps that order and lookup is
determined by insertion alone: neither law needs the list to be ordered, so an
ordered map is an ordinary list with `Ordered` stated beside it.
-/

/--
Entries in ascending order of their names.  Inductive types that hold such a
map spell the list out, since a recursive occurrence has to be visible.
-/
abbrev NameMap (α : Type) :=
  List (String × α)

namespace NameMap

variable {α : Type}

def find?
    (name : String) :
    NameMap α → Option α
  | [] =>
      none
  | (other, value) :: rest =>
      if other = name then some value else find? name rest

/-- Puts a value under a name, in place of the one that was there. -/
def insert
    (name : String)
    (value : α) :
    NameMap α → NameMap α
  | [] =>
      [(name, value)]
  | (other, old) :: rest =>
      if name < other then
        (name, value) :: (other, old) :: rest
      else if name = other then
        (name, value) :: rest
      else
        (other, old) :: insert name value rest

/-- Puts all entries of a second map into a first one. -/
def insertAll
    (entries additions : NameMap α) :
    NameMap α :=
  additions.foldl (fun known entry => insert entry.1 entry.2 known) entries

def names
    (entries : NameMap α) :
    List String :=
  entries.map Prod.fst

/-- The names stand in ascending order, so none stands twice. -/
def Ordered
    (entries : NameMap α) :
    Prop :=
  entries.names.Pairwise (· < ·)

@[simp] theorem find?_nil
    (name : String) :
    find? name ([] : NameMap α) = none :=
  rfl

theorem find?_cons
    (name other : String)
    (value : α)
    (rest : NameMap α) :
    find? name ((other, value) :: rest) =
      if other = name then some value else find? name rest :=
  rfl

@[simp] theorem names_nil :
    names ([] : NameMap α) = [] :=
  rfl

@[simp] theorem names_cons
    (entry : String × α)
    (rest : NameMap α) :
    names (entry :: rest) = entry.1 :: names rest :=
  rfl

@[simp] theorem find?_insert_self
    (name : String)
    (value : α)
    (entries : NameMap α) :
    find? name (insert name value entries) = some value := by
  induction entries with
  | nil =>
      simp [insert, find?]
  | cons entry rest inductionHypothesis =>
      obtain ⟨other, old⟩ := entry
      unfold insert
      split
      · simp [find?]
      · split
        · simp [find?]
        · rename_i different
          simp [find?, Ne.symm different, inductionHypothesis]

theorem find?_insert_of_ne
    {name query : String}
    (different : name ≠ query)
    (value : α)
    (entries : NameMap α) :
    find? query (insert name value entries) =
      find? query entries := by
  induction entries with
  | nil =>
      simp [insert, find?, different]
  | cons entry rest inductionHypothesis =>
      obtain ⟨other, old⟩ := entry
      unfold insert
      split
      · simp [find?, different]
      · split
        · rename_i same
          subst same
          simp [find?, different]
        · simp [find?, inductionHypothesis]

/-- A name is present exactly when its entry is found. -/
theorem mem_names_iff
    {name : String}
    {entries : NameMap α} :
    name ∈ entries.names ↔ ∃ value, find? name entries = some value := by
  induction entries with
  | nil =>
      simp
  | cons entry rest inductionHypothesis =>
      obtain ⟨other, old⟩ := entry
      by_cases same : other = name
      · simp [find?, same]
      · simp [find?, same, Ne.symm same, inductionHypothesis]

theorem mem_names_insert
    {name query : String}
    {value : α}
    {entries : NameMap α} :
    query ∈ (insert name value entries).names ↔
      query = name ∨ query ∈ entries.names := by
  induction entries with
  | nil =>
      simp [insert]
  | cons entry rest inductionHypothesis =>
      obtain ⟨other, old⟩ := entry
      unfold insert
      split
      · simp
      · split
        · rename_i same
          subst same
          simp
        · simp only [names_cons, List.mem_cons, inductionHypothesis]
          grind

/-- Insertion keeps the names in ascending order. -/
theorem ordered_insert
    (name : String)
    (value : α)
    {entries : NameMap α}
    (ordered : entries.Ordered) :
    (insert name value entries).Ordered := by
  induction entries with
  | nil =>
      simp [insert, Ordered]
  | cons entry rest inductionHypothesis =>
      obtain ⟨other, old⟩ := entry
      obtain ⟨below, restOrdered⟩ := List.pairwise_cons.1 ordered
      unfold insert
      split
      · rename_i before
        refine List.pairwise_cons.2 ⟨?_, ordered⟩
        intro query member
        rcases List.mem_cons.1 member with same | later
        · exact same ▸ before
        · exact String.lt_trans before (below query later)
      · split
        · rename_i same
          subst same
          exact List.pairwise_cons.2 ⟨below, restOrdered⟩
        · rename_i notBefore different
          refine List.pairwise_cons.2 ⟨?_, inductionHypothesis restOrdered⟩
          intro query member
          rcases mem_names_insert.1 member with same | later
          · subst same
            have notLess : ¬ query < other := notBefore
            exact Std.lt_of_le_of_ne (Std.not_lt.1 notLess) (Ne.symm different)
          · exact below query later

end NameMap

end Permission
