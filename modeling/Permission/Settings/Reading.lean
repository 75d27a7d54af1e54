import Permission.Settings
import Permission.Json.Reading

namespace Permission

/-!
# Reading settings and their parts from text

Fields may come in any order, and unknown ones are ignored.  A rule permits
unless it says otherwise and has no conditions unless it names some; settings
have the standard precedence and no rules unless they say so, but have to say
how they are enforced.
-/

open Json (Reading)

/-- A reading of text in which conditions may occur. -/
abbrev DomainReading (α : Type) :=
  Reading ConditionError α

/-- What went wrong while settings or a part of them were read. -/
abbrev DomainError :=
  Json.ReadError ConditionError

/-- The text of an error of shape or meaning; a fault of the text has none. -/
def DomainError.message? : DomainError → Option String
  | .fault _ =>
      none
  | .shape error =>
      some error.message
  | .meaning error =>
      some error.message

def Value.reading : DomainReading Value :=
  .free fun tree => .ok (Value.ofJson tree)

def Record.reading : DomainReading Record :=
  .nameMap Value.reading

def Requirement.reading : DomainReading Requirement :=
  .free Requirement.ofJson

def Conditions.reading : DomainReading Conditions :=
  .free Conditions.ofJson

def ValueKind.reading : DomainReading ValueKind :=
  .variant (ValueKind.all.map fun kind => (kind.name, kind))

def Precedence.reading : DomainReading Precedence :=
  .variant (Precedence.all.map fun precedence => (precedence.name, precedence))

def Action.reading : DomainReading Action :=
  fun depth outline => (Reading.text "a string" depth outline).map Action.mk

def Subject.reading : DomainReading Subject :=
  fun depth outline => (Reading.text "a string" depth outline).map Subject.mk

/-- A field that a draft keeps once it has been read. -/
def draftField
    {σ α : Type}
    (name : String)
    (get : σ → Option α)
    (set : σ → α → σ)
    (reading : DomainReading α) :
    Reading.Field ConditionError σ where
  name := name
  isRead := fun draft => (get draft).isSome
  read := fun depth outline draft => do
    let value ← reading depth outline
    return set draft value

/-- A field of a draft that has to be there. -/
def required
    {α : Type}
    (name : String)
    (field : Option α) :
    Except String α :=
  match field with
  | some value =>
      .ok value
  | none =>
      .error name

/-! ## Ranges -/

namespace ValueRange

structure Draft where
  lower : Option Value
  upper : Option Value
  exclusive : Option Bool

def layout : Reading.Layout ConditionError Draft ValueRange where
  name := typeName
  fields :=
    [draftField "start" Draft.lower
        (fun draft value => { draft with lower := some value }) Value.reading,
      draftField "end" Draft.upper
        (fun draft value => { draft with upper := some value }) Value.reading,
      draftField "exclusive" Draft.exclusive
        (fun draft truth => { draft with exclusive := some truth })
        Reading.boolean]
  blank := ⟨none, none, none⟩
  finish := fun draft => do
    let lower ← required "start" draft.lower
    let upper ← required "end" draft.upper
    return ⟨lower, upper, draft.exclusive.getD false⟩

/-- Reads a range that stands by itself. -/
def reading : DomainReading ValueRange :=
  layout.reading

end ValueRange

/-! ## Capabilities -/

namespace Capabilities

structure Draft where
  ranges : Option Bool
  embedded : Option Bool

def layout : Reading.Layout ConditionError Draft Capabilities where
  name := "Capabilities"
  fields :=
    [draftField "ranges" Draft.ranges
        (fun draft truth => { draft with ranges := some truth })
        Reading.boolean,
      draftField "embedded" Draft.embedded
        (fun draft truth => { draft with embedded := some truth })
        Reading.boolean]
  blank := ⟨none, none⟩
  finish := fun draft =>
    .ok
      ⟨draft.ranges.getD full.ranges, draft.embedded.getD full.embedded⟩

/-- Reads capabilities; what is not said can be executed. -/
def reading : DomainReading Capabilities :=
  layout.reading

end Capabilities

/-! ## Rules -/

namespace Rule

structure Draft where
  action : Option Action
  subject : Option Subject
  conditions : Option Conditions
  grants : Option Bool

def layout : Reading.Layout ConditionError Draft Rule where
  name := "Rule"
  fields :=
    [draftField "action" Draft.action
        (fun draft action => { draft with action := some action })
        Action.reading,
      draftField "subject" Draft.subject
        (fun draft subject => { draft with subject := some subject })
        Subject.reading,
      draftField "conditions" Draft.conditions
        (fun draft conditions => { draft with conditions := some conditions })
        Conditions.reading,
      draftField "grants" Draft.grants
        (fun draft truth => { draft with grants := some truth })
        Reading.boolean]
  blank := ⟨none, none, none, none⟩
  finish := fun draft => do
    let action ← required "action" draft.action
    let subject ← required "subject" draft.subject
    return ⟨action, subject, draft.conditions.getD [], draft.grants.getD true⟩

def reading : DomainReading Rule :=
  layout.reading

end Rule

/-! ## Enforcement -/

namespace Enforcement

/-- The member that names the mode. -/
def modeField : String :=
  "mode"

/-- The member that allows for a fallback. -/
def fallbackField : String :=
  "fallback"

def modes : NameMap Mode :=
  [(Mode.inMemory.name, .inMemory), (Mode.pushdown.name, .pushdown)]

/--
Reads the members of an object: the mode as soon as it is met, all others as
trees in their order.
-/
def readMembers
    (depth : Nat) :
    List (Json.Outline × Json.Outline) → Option Mode → NameMap Json →
      Except DomainError (Option Mode × NameMap Json)
  | [], mode, options =>
      .ok (mode, options.reverse)
  | (key, value) :: rest, mode, options => do
      let name ← Json.liftFault key.name
      if name = modeField then
        if mode.isSome then
          .error (.shape (.duplicateField modeField))
        else
          let read ← Reading.variantName modes depth value
          readMembers depth rest (some read) options
      else
        let tree ← Json.liftFault (value.tree depth)
        readMembers depth rest mode ((name, tree) :: options)

/-- Reads the fallback option from a tree. -/
def fallbackOf : Json → Except DomainError Bool
  | .scalar (.boolean truth) =>
      .ok truth
  | other =>
      .error (.shape (.wrongType other.found "a boolean"))

/-- The fallback option among the members of an object, which may hold it once. -/
def fallbackAmong : NameMap Json → Option Bool → Except DomainError Bool
  | [], fallback =>
      .ok (fallback.getD false)
  | (name, tree) :: rest, fallback => do
      if name = fallbackField then
        if fallback.isSome then
          .error (.shape (.duplicateField fallbackField))
        else
          let truth ← fallbackOf tree
          fallbackAmong rest (some truth)
      else
        fallbackAmong rest fallback

/-- The enforcement with a mode and the other members of its object. -/
def ofOptions
    (mode : Mode)
    (options : NameMap Json) :
    Except DomainError Enforcement :=
  match mode with
  | .inMemory =>
      .ok .inMemory
  | .pushdown =>
      (fallbackAmong options none).map .pushdown

/-- How a message describes the items that a mode takes. -/
def itemsDescription
    (count : Nat) :
    String :=
  toString count ++ (if count = 1 then " element" else " elements") ++
    " in sequence"

/-- The enforcement with a mode and the items that follow it. -/
def ofItems
    (mode : Mode)
    (items : List Json) :
    Except DomainError Enforcement :=
  match mode, items with
  | .inMemory, [] =>
      .ok .inMemory
  | .inMemory, items =>
      .error (.shape (.wrongLength items.length (itemsDescription 0)))
  | .pushdown, [] =>
      .ok (.pushdown false)
  | .pushdown, tree :: rest => do
      let fallback ← fallbackOf tree
      if rest.isEmpty then
        return .pushdown fallback
      else
        .error
          (.shape (.wrongLength (rest.length + 1) (itemsDescription 1)))

/-- Reads how settings are enforced: an object with a mode, or an array of both. -/
def reading : DomainReading Enforcement :=
  fun depth outline =>
    match outline with
    | .object members ending =>
        Json.entering depth fun inside => do
          let (mode, options) ← readMembers inside members none []
          Json.liftFault (Json.closing ending)
          match mode with
          | none =>
              .error (.shape (.missingField modeField))
          | some mode =>
              ofOptions mode options
    | .array items ending =>
        Json.entering depth fun inside => do
          match items with
          | [] =>
              Json.liftFault (Json.closing ending)
              .error (.shape (.missingField modeField))
          | first :: rest =>
              let mode ← Reading.variantName modes inside first
              let trees ← Json.liftFault (Json.Outline.treeItems inside rest)
              Json.liftFault (Json.closing ending)
              ofItems mode trees
    | other =>
        Reading.mismatch "internally tagged enum Evaluation" other

end Enforcement

/-! ## Settings -/

namespace Settings

/-- The fields of settings that have been read. -/
structure Draft where
  precedence : Option Precedence
  enforcement : Option Enforcement
  rules : Option (List Rule)

def layout : Reading.Layout ConditionError Draft Settings where
  name := "PolicySettings"
  fields :=
    [draftField "precedence" Draft.precedence
        (fun draft precedence => { draft with precedence := some precedence })
        Precedence.reading,
      draftField "evaluation" Draft.enforcement
        (fun draft enforcement =>
          { draft with enforcement := some enforcement })
        Enforcement.reading,
      draftField "rules" Draft.rules
        (fun draft rules => { draft with rules := some rules })
        (Reading.sequence Rule.reading)]
  blank := ⟨none, none, none⟩
  finish := fun draft => do
    let enforcement ← required "evaluation" draft.enforcement
    return ⟨draft.precedence.getD .standard, enforcement, draft.rules.getD []⟩

def reading : DomainReading Settings :=
  layout.reading

/-- The settings that a text describes. -/
def ofText
    (text : String)
    (layer : Json.TextLayer := .compact) :
    Except DomainError Settings :=
  reading.run text layer

/-- The text that settings are saved as. -/
def toText
    (settings : Settings)
    (layer : Json.TextLayer := .compact) :
    String :=
  layer.write settings.toJson

/-- The text of an error about settings, if it is one of shape or meaning. -/
def errorMessage?
    (error : DomainError) :
    Option String :=
  error.message?.map fun message => "Invalid policy settings: " ++ message

end Settings

/-- The policy that a text of settings describes. -/
def Policy.ofText
    (text : String)
    (layer : Json.TextLayer := .compact) :
    Except DomainError Policy :=
  (Settings.ofText text layer).map Settings.toPolicy

end Permission
