import Permission.Value
import Permission.Text.Quoted

namespace Permission

/-!
# Resources and reads of their attributes

A resource is what it answers when its attributes are read by name: a value or
the reason why there is none.  Records answer from their entries, and of the
other values none has attributes at all.
-/

/-- Why an attribute could not be read. -/
inductive AttributeError where
  | missing (name : String)
  /-- An attribute was asked of a value that has none. -/
  | notAResource (name : String) (found : ValueKind)
  /-- The resource itself failed to produce the attribute. -/
  | unreadable (name : String) (reason : String)
  deriving DecidableEq, Repr

namespace AttributeError

def attributeName : AttributeError → String
  | missing name =>
      name
  | notAResource name _ =>
      name
  | unreadable name _ =>
      name

def message : AttributeError → String
  | missing name =>
      s!"Resource has no attribute {Text.quote name}"
  | notAResource name found =>
      s!"Cannot read attribute {Text.quote name} from a value of type {found.name}"
  | unreadable name reason =>
      s!"Attribute {Text.quote name} could not be read: {reason}"

end AttributeError

/-- What a resource answers to the read of each attribute. -/
abbrev Attributes :=
  String → Except AttributeError Value

/-- Types whose members can be checked against conditions. -/
class Resource (ρ : Type) where
  /-- The reads that a resource answers. -/
  attributes : ρ → Attributes

instance : Resource Attributes :=
  ⟨id⟩

/-- A record answers with its entries. -/
def Record.attributes
    (record : Record) :
    Attributes :=
  fun name =>
    match record.find? name with
    | some value =>
        .ok value
    | none =>
        .error (.missing name)

theorem Record.toOption_attributes
    (record : Record)
    (name : String) :
    (Record.attributes record name).toOption = record.find? name := by
  unfold attributes
  cases record.find? name <;> rfl

/-- Only records have attributes. -/
def Value.attributes
    (value : Value) :
    Attributes :=
  match value with
  | .record entries =>
      Record.attributes entries
  | other =>
      fun name => .error (.notAResource name other.kind)

instance : Resource Record :=
  ⟨Record.attributes⟩

instance : Resource Value :=
  ⟨Value.attributes⟩

end Permission
