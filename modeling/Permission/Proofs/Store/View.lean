import Permission.Query
import Permission.Store.Collection
import Permission.Proofs.Conditions.Agreement

namespace Permission

/-!
# Stored records in the eyes of a filter

A filter sees the assigned identity of a record only where the record itself has
nothing to show.  All that a check could read it sees unchanged, so the answer
of a check in memory is also the answer of the filter to the stored record.
-/

/-- An assigned identity takes the place of no attribute that can be read. -/
theorem Attributes.withIdentity_of_read
    {attributes : Attributes}
    {identity : Identifier}
    {name : String}
    {value : Value}
    (read : attributes name = .ok value) :
    attributes.withIdentity identity name = .ok value := by
  unfold withIdentity
  rw [read]

/-- A check that has an answer keeps it where more can be read. -/
theorem Conditions.check_of_reads
    {conditions : Conditions}
    {attributes others : Attributes}
    {met : Bool}
    (reads : ∀ name value, attributes name = .ok value → others name = .ok value)
    (checked : conditions.check attributes = .ok met) :
    conditions.check others = .ok met := by
  rw [check_eq_allM] at checked ⊢
  refine List.allM_eq_ok_of_agrees ?_ checked
  intro entry member entryMet entryChecked
  obtain ⟨value, read, valueChecked⟩ := checkEntry_eq_ok_iff.mp entryChecked
  exact checkEntry_eq_ok_iff.mpr ⟨value, reads entry.1 value read, valueChecked⟩

namespace Query

variable {ρ : Type} [Resource ρ] {query : Query}

/-- A check that has an answer keeps it where more can be read. -/
theorem check_of_reads
    {attributes others : Attributes}
    {permitted : Bool}
    (reads : ∀ name value, attributes name = .ok value → others name = .ok value)
    (checked : query.check attributes = .ok permitted) :
    query.check others = .ok permitted := by
  unfold check at checked ⊢
  cases conditions : query.conditions with
  | none =>
      rw [conditions] at checked
      exact checked
  | some requirements =>
      rw [conditions] at checked
      exact Conditions.check_of_reads reads checked

/-- A query that a check answers is answered alike by what it compiles to. -/
theorem evaluate_of_check
    {capabilities : Capabilities}
    {compiled : Compiled}
    {attributes : Attributes}
    {permitted : Bool}
    (compiles : query.compile capabilities = .ok compiled)
    (checked : query.check attributes = .ok permitted) :
    compiled.evaluate attributes = permitted := by
  unfold compile at compiles
  unfold check at checked
  cases conditions : query.conditions with
  | none =>
      rw [conditions] at compiles checked
      cases compiles
      exact Except.ok.inj checked
  | some requirements =>
      rw [conditions] at compiles checked
      rw [evaluate_of_compile_eq_ok compiles]
      exact Conditions.evaluate_toFilter_of_check checked

/-- A record that a check answers for is treated alike when it is stored. -/
theorem evaluate_view_of_permitsResource
    {capabilities : Capabilities}
    {compiled : Compiled}
    {entry : Identifier × ρ}
    {permitted : Bool}
    (compiles : query.compile capabilities = .ok compiled)
    (checked : query.permitsResource entry.2 = .ok permitted) :
    compiled.evaluate (Collection.view entry) = permitted := by
  have seen : query.check (Collection.view entry) = .ok permitted :=
    query.check_of_reads (fun _ _ => Attributes.withIdentity_of_read) checked
  exact evaluate_of_check compiles seen

end Query

end Permission
