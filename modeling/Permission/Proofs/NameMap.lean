import Permission.NameMap

namespace Permission.NameMap

/-!
# Maps filled in order

A map into which names are put in ascending order grows at its end, one entry
after another, so what is read or written in that order stays as it stands.
-/

variable
  {α : Type}
  {entries : NameMap α}
  {name : String}

/-- A name above all others goes to the end. -/
theorem insert_eq_append
    (value : α)
    (above : ∀ other ∈ entries.names, other < name) :
    entries.insert name value = entries ++ [(name, value)] := by
  induction entries with
  | nil =>
      rfl
  | cons entry rest inductionHypothesis =>
      obtain ⟨other, old⟩ := entry
      obtain ⟨first, later⟩ := List.forall_mem_cons.mp above
      have notBefore : ¬ name < other :=
        String.lt_asymm first
      have different : name ≠ other :=
        fun same => String.lt_irrefl other (same ▸ first)
      unfold insert
      rw [if_neg notBefore, if_neg different, inductionHypothesis later]
      rfl

/-- Nor is there anything under such a name. -/
theorem find?_eq_none_of_above
    (above : ∀ other ∈ entries.names, other < name) :
    entries.find? name = none := by
  refine Option.eq_none_iff_forall_ne_some.mpr fun value found => ?_
  have member : name ∈ entries.names :=
    mem_names_iff.mpr ⟨value, found⟩
  exact String.lt_irrefl name (above name member)

/-- Insertion brings in the new entry and no other one. -/
theorem mem_of_mem_insert
    {value : α}
    {entry : String × α}
    (member : entry ∈ entries.insert name value) :
    entry = (name, value) ∨ entry ∈ entries := by
  induction entries with
  | nil =>
      exact .inl (List.mem_singleton.mp member)
  | cons first rest inductionHypothesis =>
      obtain ⟨other, old⟩ := first
      unfold insert at member
      by_cases before : name < other
      · rw [if_pos before] at member
        exact List.mem_cons.mp member
      · rw [if_neg before] at member
        by_cases same : name = other
        · rw [if_pos same] at member
          rcases List.mem_cons.mp member with isNew | later
          · exact .inl isNew
          · exact .inr (List.mem_cons_of_mem _ later)
        · rw [if_neg same] at member
          rcases List.mem_cons.mp member with isFirst | later
          · exact .inr (isFirst ▸ List.mem_cons_self)
          · rcases inductionHypothesis later with isNew | earlier
            · exact .inl isNew
            · exact .inr (List.mem_cons_of_mem _ earlier)

/-- What is found under a name is one of the entries. -/
theorem mem_of_find?_eq_some
    {value : α}
    (found : entries.find? name = some value) :
    (name, value) ∈ entries := by
  induction entries with
  | nil =>
      cases found
  | cons entry rest inductionHypothesis =>
      obtain ⟨other, old⟩ := entry
      rw [find?_cons] at found
      by_cases same : other = name
      · rw [if_pos same] at found
        cases found
        exact same ▸ List.mem_cons_self
      · rw [if_neg same] at found
        exact List.mem_cons_of_mem _ (inductionHypothesis found)

theorem names_append
    (entries additions : NameMap α) :
    names (entries ++ additions) = entries.names ++ additions.names :=
  List.map_append

/-- The last name of an ordered map is above the ones before it. -/
theorem Ordered.above
    {value : α}
    {rest : NameMap α}
    (ordered : Ordered (entries ++ (name, value) :: rest)) :
    ∀ other ∈ entries.names, other < name := by
  intro other member
  unfold Ordered at ordered
  rw [names_append, List.pairwise_append] at ordered
  exact ordered.2.2 other member name List.mem_cons_self

theorem ordered_singleton
    (entry : String × α) :
    Ordered [entry] :=
  List.pairwise_singleton _ _

/-- Each entry of an ordered map is found under its name. -/
theorem Ordered.find?_of_mem
    {value : α}
    (ordered : entries.Ordered)
    (member : (name, value) ∈ entries) :
    entries.find? name = some value := by
  induction entries with
  | nil =>
      cases member
  | cons entry rest inductionHypothesis =>
      obtain ⟨other, old⟩ := entry
      obtain ⟨below, restOrdered⟩ := List.pairwise_cons.mp ordered
      rw [find?_cons]
      rcases List.mem_cons.mp member with isFirst | inRest
      · cases isFirst
        exact if_pos rfl
      · have before : other < name :=
          below name (List.mem_map_of_mem inRest)
        have different : other ≠ name :=
          fun same => String.lt_irrefl name (same ▸ before)
        rw [if_neg different, inductionHypothesis restOrdered inRest]

theorem Ordered.mem_iff
    {value : α}
    (ordered : entries.Ordered) :
    (name, value) ∈ entries ↔ entries.find? name = some value :=
  ⟨ordered.find?_of_mem, mem_of_find?_eq_some⟩

theorem find?_eq_none_iff :
    entries.find? name = none ↔ name ∉ entries.names := by
  rw [mem_names_iff, Option.eq_none_iff_forall_ne_some, not_exists]

/-- Ordered maps with the same entries are the same. -/
theorem Ordered.eq_of_mem_iff
    {others : NameMap α}
    (ordered : entries.Ordered)
    (othersOrdered : others.Ordered)
    (same : ∀ entry, entry ∈ entries ↔ entry ∈ others) :
    entries = others := by
  have nodup {map : NameMap α} (mapOrdered : map.Ordered) : map.Nodup := by
    refine (List.pairwise_map.mp mapOrdered).imp ?_
    rintro entry _ before rfl
    exact String.lt_irrefl entry.1 before
  have permuted : entries.Perm others :=
    (List.perm_ext_iff_of_nodup (nodup ordered) (nodup othersOrdered)).mpr same
  refine permuted.eq_of_pairwise ?_ (List.pairwise_map.mp ordered)
    (List.pairwise_map.mp othersOrdered)
  intro entry other _ _ before after
  exact absurd after (String.lt_asymm before)

/-- Ordered maps are the same if they agree under each of their names. -/
theorem Ordered.eq_of_agreement
    {others : NameMap α}
    (ordered : entries.Ordered)
    (othersOrdered : others.Ordered)
    (sameNames : ∀ name, name ∈ entries.names ↔ name ∈ others.names)
    (agreement :
      ∀ name value other, (name, value) ∈ entries → (name, other) ∈ others →
        value = other) :
    entries = others := by
  refine ordered.eq_of_mem_iff othersOrdered ?_
  rintro ⟨name, value⟩
  constructor
  · intro member
    obtain ⟨other, found⟩ := mem_names_iff.mp
      ((sameNames name).mp (List.mem_map_of_mem member))
    have otherMember := mem_of_find?_eq_some found
    rw [agreement name value other member otherMember]
    exact otherMember
  · intro otherMember
    obtain ⟨other, found⟩ := mem_names_iff.mp
      ((sameNames name).mpr (List.mem_map_of_mem otherMember))
    have member := mem_of_find?_eq_some found
    rw [← agreement name other value member otherMember]
    exact member

/-! ## Maps put into others -/

section InsertAll

variable {additions : NameMap α}

theorem insertAll_cons
    (entry : String × α)
    (entries additions : NameMap α) :
    entries.insertAll (entry :: additions) =
      (entries.insert entry.1 entry.2).insertAll additions :=
  rfl

theorem ordered_insertAll
    (ordered : entries.Ordered)
    (additions : NameMap α) :
    (entries.insertAll additions).Ordered := by
  induction additions generalizing entries with
  | nil =>
      exact ordered
  | cons entry rest inductionHypothesis =>
      exact inductionHypothesis (ordered_insert entry.1 entry.2 ordered)

theorem mem_names_insertAll :
    name ∈ (entries.insertAll additions).names ↔
      name ∈ additions.names ∨ name ∈ entries.names := by
  induction additions generalizing entries with
  | nil =>
      exact (or_iff_right List.not_mem_nil).symm
  | cons entry rest inductionHypothesis =>
      rw [insertAll_cons, inductionHypothesis, mem_names_insert, names_cons,
        List.mem_cons, or_assoc, or_left_comm]

/-- An ordered map that is put into another one takes precedence. -/
theorem find?_insertAll
    (ordered : additions.Ordered) :
    (entries.insertAll additions).find? name =
      (additions.find? name).or (entries.find? name) := by
  induction additions generalizing entries with
  | nil =>
      rfl
  | cons entry rest inductionHypothesis =>
      obtain ⟨other, value⟩ := entry
      obtain ⟨below, restOrdered⟩ := List.pairwise_cons.mp ordered
      rw [insertAll_cons, inductionHypothesis restOrdered, find?_cons]
      by_cases same : other = name
      · subst same
        have notLater : find? other rest = none :=
          find?_eq_none_iff.mpr fun later =>
            String.lt_irrefl other (below other later)
        rw [notLater, find?_insert_self, if_pos rfl]
        rfl
      · rw [find?_insert_of_ne same, if_neg same]

end InsertAll

/-- A map is ordered if another one with its names is. -/
theorem ordered_map_iff
    {β : Type}
    {change : String × α → β} :
    Ordered (entries.map fun entry => (entry.1, change entry)) ↔
      entries.Ordered := by
  unfold Ordered names
  rw [List.map_map]
  rfl

end Permission.NameMap
