import Permission.Json.Outline
import Permission.Json.Shape

namespace Permission.Json

/-!
# Reading typed values from outlines

A reading walks an outline in the order of the text and stops at the first
thing that is wrong, whether the text is not JSON there or has the wrong shape.
Free-form parts are read whole as trees, unknown parts are only skipped, and the
fields of a structure are read as they are met.

Arrays and objects nest at most `nestingLimit` deep where they are read; skipping
has no such limit.
-/

/-- Why a typed value cannot be read; `ε` holds the causes of one domain. -/
inductive ReadError (ε : Type) where
  /-- The text cannot be read any further. -/
  | fault (fault : Fault)
  /-- What stands in the text has the wrong shape. -/
  | shape (error : ShapeError)
  /-- What stands in the text has no meaning in its domain. -/
  | meaning (error : ε)
  deriving DecidableEq

/-- A way to read a value, given how many containers may still be entered. -/
abbrev Reading (ε α : Type) :=
  Nat → Outline → Except (ReadError ε) α

/-- How deep arrays and objects may nest. -/
def nestingLimit : Nat :=
  127

/-- Reading goes on behind a container that has its end. -/
def closing
    (ending : Option Fault) :
    Except Fault Unit :=
  match ending with
  | some fault =>
      .error fault
  | none =>
      .ok ()

/-- Takes a fault of the text into the errors of a reading. -/
def liftFault
    {ε α : Type}
    (result : Except Fault α) :
    Except (ReadError ε) α :=
  result.mapError .fault

/-- Enters a container, if one more may be entered. -/
def entering
    {ε α : Type}
    (depth : Nat)
    (inside : Nat → Except (ReadError ε) α) :
    Except (ReadError ε) α :=
  match depth with
  | 0 =>
      .error (.fault .malformed)
  | remaining + 1 =>
      inside remaining

namespace Outline

/-- The name that a key is; only strings are keys. -/
def name : Outline → Except Fault String
  | .leaf single =>
      if single.quoted then
        match single.value with
        | .ok (.string text) =>
            .ok text
        | .ok _ =>
            .error .malformed
        | .error fault =>
            .error fault
      else
        .error .malformed
  | .nothing fault =>
      .error fault
  | _ =>
      .error .malformed

/-! ## Free-form and unknown parts -/

mutual

def tree
    (depth : Nat) :
    Outline → Except Fault Json
  | .leaf single =>
      single.value.map .scalar
  | .array items ending =>
      match depth with
      | 0 =>
          .error .malformed
      | remaining + 1 => do
          let read ← treeItems remaining items
          closing ending
          return .array read
  | .object members ending =>
      match depth with
      | 0 =>
          .error .malformed
      | remaining + 1 => do
          let read ← treeMembers remaining members []
          closing ending
          return .object read
  | .nothing fault =>
      .error fault

/-- Reads the items of an array as trees. -/
def treeItems
    (depth : Nat) :
    List Outline → Except Fault (List Json)
  | [] =>
      .ok []
  | item :: rest => do
      let first ← tree depth item
      let later ← treeItems depth rest
      return first :: later

/-- Reads the members of an object as trees; of equal names the last one counts. -/
def treeMembers
    (depth : Nat) :
    List (Outline × Outline) → NameMap Json → Except Fault (NameMap Json)
  | [], known =>
      .ok known
  | (key, value) :: rest, known => do
      let name ← key.name
      let read ← tree depth value
      treeMembers depth rest (known.insert name read)

end

mutual

/-- Skips a value, whatever it is. -/
def skip : Outline → Except Fault Unit
  | .leaf single =>
      closing single.obstacle
  | .array items ending => do
      skipItems items
      closing ending
  | .object members ending => do
      skipMembers members
      closing ending
  | .nothing fault =>
      .error fault

def skipItems : List Outline → Except Fault Unit
  | [] =>
      .ok ()
  | item :: rest => do
      skip item
      skipItems rest

def skipMembers : List (Outline × Outline) → Except Fault Unit
  | [] =>
      .ok ()
  | (key, value) :: rest => do
      skipKey key
      skip value
      skipMembers rest

/-- Skips a key; only strings are keys. -/
def skipKey : Outline → Except Fault Unit
  | .leaf single =>
      if single.quoted then closing single.obstacle else .error .malformed
  | .nothing fault =>
      .error fault
  | _ =>
      .error .malformed

end

end Outline

namespace Reading

variable {ε α σ : Type}

/-- Something else stands where a type is expected. -/
def mismatch
    (expected : String)
    (outline : Outline) :
    Except (ReadError ε) α :=
  match outline with
  | .leaf single =>
      match single.value with
      | .ok found =>
          .error (.shape (.wrongType (.scalar found) expected))
      | .error fault =>
          .error (.fault fault)
  | .array _ _ =>
      .error (.shape (.wrongType .sequence expected))
  | .object _ _ =>
      .error (.shape (.wrongType .map expected))
  | .nothing fault =>
      .error (.fault fault)

/-- Reads a whole tree and then what it means. -/
def free
    (meaning : Json → Except ε α) :
    Reading ε α :=
  fun depth outline => do
    let read ← liftFault (outline.tree depth)
    (meaning read).mapError .meaning

def boolean : Reading ε Bool :=
  fun _ outline =>
    match outline with
    | .leaf ⟨_, .ok (.boolean truth), _⟩ =>
        .ok truth
    | other =>
        mismatch "a boolean" other

/-- Reads a string, for a place that is described as expecting something. -/
def text
    (expected : String) :
    Reading ε String :=
  fun _ outline =>
    match outline with
    | .leaf ⟨_, .ok (.string text), _⟩ =>
        .ok text
    | other =>
        mismatch expected other

def unit : Reading ε Unit :=
  fun _ outline =>
    match outline with
    | .leaf ⟨_, .ok .null, _⟩ =>
        .ok ()
    | other =>
        mismatch "unit" other

/-- Reads the items of an array one after another. -/
def items
    (item : Reading ε α)
    (depth : Nat) :
    List Outline → Except (ReadError ε) (List α)
  | [] =>
      .ok []
  | first :: rest => do
      let read ← item depth first
      let later ← items item depth rest
      return read :: later

/-- Reads an array of values of one type. -/
def sequence
    (item : Reading ε α) :
    Reading ε (List α) :=
  fun depth outline =>
    match outline with
    | .array outlines ending =>
        entering depth fun inside => do
          let read ← items item inside outlines
          liftFault (closing ending)
          return read
    | other =>
        mismatch "a sequence" other

/-- Reads an object of values of one type; of equal names the last one counts. -/
def entries
    (value : Reading ε α)
    (depth : Nat) :
    List (Outline × Outline) → NameMap α → Except (ReadError ε) (NameMap α)
  | [], known =>
      .ok known
  | (key, outline) :: rest, known => do
      let name ← liftFault key.name
      let read ← value depth outline
      entries value depth rest (known.insert name read)

/-- Reads a map from names to values of one type. -/
def nameMap
    (value : Reading ε α) :
    Reading ε (NameMap α) :=
  fun depth outline =>
    match outline with
    | .object members ending =>
        entering depth fun inside => do
          let read ← entries value inside members []
          liftFault (closing ending)
          return read
    | other =>
        mismatch "a map" other

/-! ## Variants -/

/-- The variant with a name. -/
def variantNamed
    (variants : NameMap α)
    (name : String) :
    Except (ReadError ε) α :=
  match variants.find? name with
  | some variant =>
      .ok variant
  | none =>
      .error (.shape (.unknownVariant name variants.names))

def variantName
    (variants : NameMap α) :
    Reading ε α :=
  fun depth outline => do
    let name ← text "variant identifier" depth outline
    variantNamed variants name

/--
Reads a variant that carries nothing: its name, or an object whose one member
has that name and is null.
-/
def variant
    (variants : NameMap α) :
    Reading ε α :=
  fun depth outline =>
    match outline with
    | .leaf single =>
        if single.quoted then
          variantName variants depth outline
        else
          .error (.fault .malformed)
    | .array _ _ =>
        .error (.fault .malformed)
    | .object members ending =>
        entering depth fun inside =>
          match members with
          | [] => do
              liftFault (closing ending)
              .error (.fault .malformed)
          | (key, value) :: rest => do
              let read ← variantName variants inside key
              unit inside value
              if rest.isEmpty then
                liftFault (closing ending)
                return read
              else
                .error (.fault .malformed)
    | .nothing fault =>
        .error (.fault fault)

/-! ## Structures -/

/-- A field of a structure, kept in a draft of it. -/
structure Field (ε σ : Type) where
  name : String
  /-- The draft holds the field already. -/
  isRead : σ → Bool
  /-- Reads the field into the draft. -/
  read : Nat → Outline → σ → Except (ReadError ε) σ

/-- How a structure is made up of fields. -/
structure Layout (ε σ α : Type) where
  /-- The name of the structure in messages. -/
  name : String
  /-- The fields in the order in which they are declared. -/
  fields : List (Field ε σ)
  /-- The draft that holds no field. -/
  blank : σ
  /-- The structure of a draft, or the first field that it lacks. -/
  finish : σ → Except String α

namespace Layout

/-- Reads the members of an object into a draft as they are met. -/
def readMembers
    (layout : Layout ε σ α)
    (depth : Nat) :
    List (Outline × Outline) → σ → Except (ReadError ε) σ
  | [], draft =>
      .ok draft
  | (key, value) :: rest, draft => do
      let name ← liftFault key.name
      match layout.fields.find? fun field => field.name == name with
      | some field =>
          if field.isRead draft then
            .error (.shape (.duplicateField name))
          else
            let extended ← field.read depth value draft
            readMembers layout depth rest extended
      | none =>
          liftFault value.skip
          readMembers layout depth rest draft

/--
Reads the items of an array into a draft, the first into the first field and so
on.  What is left over are the items that no field takes.
-/
def readItems
    (depth : Nat) :
    List (Field ε σ) → List Outline → σ → Except (ReadError ε) (σ × List Outline)
  | field :: fields, item :: items, draft => do
      let extended ← field.read depth item draft
      readItems depth fields items extended
  | _, items, draft =>
      .ok (draft, items)

/-- How a message describes the structure. -/
def describe
    (layout : Layout ε σ α) :
    String :=
  "struct " ++ layout.name

/-- How a message describes the array that a structure may be written as. -/
def describeItems
    (layout : Layout ε σ α) :
    String :=
  layout.describe ++ " with " ++ toString layout.fields.length ++ " elements"

/-- The place of a field among the declared ones. -/
def position
    (layout : Layout ε σ α)
    (name : String) :
    Nat :=
  layout.fields.findIdx fun field => field.name == name

/-- Reads a structure: an object of its fields, or an array of them in order. -/
def reading
    (layout : Layout ε σ α) :
    Reading ε α :=
  fun depth outline =>
    match outline with
    | .object members ending =>
        entering depth fun inside => do
          let draft ← layout.readMembers inside members layout.blank
          liftFault (closing ending)
          (layout.finish draft).mapError fun name =>
            .shape (.missingField name)
    | .array items ending =>
        entering depth fun inside => do
          let (draft, leftOver) ← readItems inside layout.fields items layout.blank
          if leftOver.isEmpty then
            liftFault (closing ending)
            (layout.finish draft).mapError fun name =>
              .shape (.wrongLength (layout.position name) layout.describeItems)
          else
            .error (.fault .malformed)
    | other =>
        mismatch layout.describe other

end Layout

/-- Reads a whole text, behind which nothing may stand. -/
def run
    (reading : Reading ε α)
    (text : String)
    (layer : TextLayer := .compact) :
    Except (ReadError ε) α := do
  let document := layer.read text
  let read ← reading nestingLimit document.root
  liftFault (closing document.trailing)
  return read

end Reading

/-- Reads a text as a tree. -/
def parse
    (text : String) :
    Except Fault Json := do
  let document := Document.ofText text
  let read ← document.root.tree nestingLimit
  closing document.trailing
  return read

end Permission.Json
