import Permission.Filter.Document

namespace Permission

/-!
# What conditions compile to

A rule that grants without conditions selects every record and the absence of a
rule selects none; anything between is a filter.  All three are lowered to a
filter.  Selecting nothing is two clauses on the identity of a record that
contradict each other, since an empty filter would select everything.
-/

/-- The field that holds the identity of a stored record. -/
def identityField : String :=
  "_id"

/-- What conditions compile to. -/
inductive Compiled where
  | everything
  | nothing
  /-- The records that pass a filter. -/
  | native (filter : Filter)

namespace Compiled

def equals : Compiled → Compiled → Bool
  | everything, everything =>
      true
  | nothing, nothing =>
      true
  | native left, native right =>
      left == right
  | _, _ =>
      false

instance : BEq Compiled :=
  ⟨equals⟩

/-- The filter that a store executes. -/
def lower : Compiled → Filter
  | everything =>
      []
  | nothing =>
      [(identityField, .present false), (identityField, .ofKind .identifier)]
  | native filter =>
      filter

/-- The reads of a record are selected. -/
def evaluate
    (compiled : Compiled)
    (attributes : Attributes) :
    Bool :=
  match compiled with
  | everything =>
      true
  | nothing =>
      false
  | native filter =>
      filter.evaluate attributes

/-- A resource is selected. -/
def selects
    {ρ : Type}
    [Resource ρ]
    (compiled : Compiled)
    (resource : ρ) :
    Bool :=
  compiled.evaluate (Resource.attributes resource)

def render : Compiled → String
  | everything =>
      "MatchAll"
  | nothing =>
      "MatchNone"
  | native filter =>
      filter.render

/-- Lowering does not change which records are selected. -/
@[simp] theorem evaluate_lower
    (compiled : Compiled)
    (attributes : Attributes) :
    compiled.lower.evaluate attributes = compiled.evaluate attributes := by
  cases compiled with
  | everything =>
      rfl
  | native filter =>
      rfl
  | nothing =>
      cases read : attributes identityField <;>
        simp [lower, evaluate, read, Except.toOption]

end Compiled

end Permission
