import Mathlib.Logic.Basic

/-!
# Steps that may fail

A computation of two steps has a result if the first one has and the second one
goes on to it, and fails where the first step that fails does.  These equivalences
take such a computation apart, wherever one is written with `do`, without looking
at how failure is passed on.
-/

namespace Except

variable {α β ε : Type}

theorem bind_eq_ok_iff
    {first : Except ε α}
    {next : α → Except ε β}
    {result : β} :
    first >>= next = .ok result ↔
      ∃ intermediate, first = .ok intermediate ∧ next intermediate = .ok result := by
  cases first <;> simp [bind, Except.bind]

/-- A computation of two steps fails if either step does. -/
theorem bind_eq_error_iff
    {first : Except ε α}
    {next : α → Except ε β}
    {error : ε} :
    first >>= next = .error error ↔
      first = .error error ∨
        ∃ intermediate, first = .ok intermediate ∧
          next intermediate = .error error := by
  cases first <;> simp [bind, Except.bind]

theorem map_eq_ok_iff
    {first : Except ε α}
    {change : α → β}
    {result : β} :
    first.map change = .ok result ↔
      ∃ intermediate, first = .ok intermediate ∧ change intermediate = result := by
  cases first <;> simp [Except.map]

theorem mapError_eq_ok_iff
    {ε' : Type}
    {first : Except ε α}
    {change : ε → ε'}
    {result : α} :
    first.mapError change = .ok result ↔ first = .ok result := by
  cases first with
  | error error =>
      exact iff_of_false nofun nofun
  | ok value =>
      constructor
      all_goals
        intro same
        cases same
        rfl

theorem map_eq_error_iff
    {first : Except ε α}
    {change : α → β}
    {error : ε} :
    first.map change = .error error ↔ first = .error error := by
  cases first <;> simp [Except.map]

theorem mapError_eq_error_iff
    {ε' : Type}
    {first : Except ε α}
    {change : ε → ε'}
    {error : ε'} :
    first.mapError change = .error error ↔
      ∃ cause, first = .error cause ∧ error = change cause := by
  cases first with
  | error cause =>
      constructor
      · intro failed
        cases failed
        exact ⟨cause, rfl, rfl⟩
      · rintro ⟨other, isCause, rfl⟩
        cases isCause
        rfl
  | ok value =>
      exact iff_of_false nofun nofun

theorem pure_eq_ok_iff
    {value result : α} :
    (pure value : Except ε α) = .ok result ↔ value = result := by
  simp [pure, Except.pure]

/-- The computation has a result, which says whether a statement is true. -/
def Decides
    (outcome : Except ε Bool)
    (statement : Prop) :
    Prop :=
  ∃ answer, outcome = .ok answer ∧ (answer = true ↔ statement)

theorem Decides.not
    {outcome : Except ε Bool}
    {statement : Prop}
    (decided : outcome.Decides statement) :
    (Bool.not <$> outcome).Decides (¬ statement) := by
  obtain ⟨answer, rfl, meaning⟩ := decided
  refine ⟨!answer, rfl, ?_⟩
  rw [Bool.not_eq_true', ← Bool.not_eq_true, meaning]

/-- Statements that are true together are decided by the same result. -/
theorem Decides.eq_of_iff
    {first second : Except ε Bool}
    {statement other : Prop}
    (decidesFirst : first.Decides statement)
    (decidesSecond : second.Decides other)
    (together : statement ↔ other) :
    first = second := by
  obtain ⟨answer, rfl, meaning⟩ := decidesFirst
  obtain ⟨otherAnswer, rfl, otherMeaning⟩ := decidesSecond
  have sameAnswer : answer = otherAnswer :=
    Bool.eq_iff_iff.mpr (meaning.trans (together.trans otherMeaning.symm))
  rw [sameAnswer]

end Except
