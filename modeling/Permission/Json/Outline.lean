import Permission.Json.Token

namespace Permission.Json

/-!
# Outlines of JSON text

Text is read from left to right, and whichever fault comes first is the one
reported.  Its outline keeps what stands in front of the first fault that nobody
gets past, with that fault in its place.  Every reading is then a walk over the
outline in the order of the text, which meets faults in the order of the text.

The tokens are arranged by a machine that holds the containers still open; it
takes one token at a time and never looks back.
-/

/-- What a text holds, up to its first fault. -/
inductive Outline where
  | leaf (leaf : Leaf)
  /-- An array, with the fault that stands in place of its end. -/
  | array (items : List Outline) (ending : Option Fault)
  /-- An object, with the fault that stands in place of its end. -/
  | object (members : List (Outline × Outline)) (ending : Option Fault)
  /-- Nothing where something has to stand. -/
  | nothing (fault : Fault)

/-- A whole text: its outline, and whether something stands behind it. -/
structure Document where
  root : Outline
  trailing : Option Fault

/-- A container that is still open; what it holds so far is reversed. -/
inductive Frame where
  | array (items : List Outline)
  | object (members : List (Outline × Outline))
  /-- An object inside the member with a key. -/
  | member (members : List (Outline × Outline)) (key : Outline)

namespace Frame

/-- Ends a container at a fault, with what stands at the fault. -/
def breakAt
    (fault : Fault)
    (inner : Outline) :
    Frame → Outline
  | array items =>
      .array (items.reverse ++ [inner]) (some fault)
  | object members =>
      .object (members.reverse ++ [(inner, .nothing fault)]) (some fault)
  | member members key =>
      .object (members.reverse ++ [(key, inner)]) (some fault)

/-- Ends a container at a fault between two of its parts. -/
def breakBetween
    (fault : Fault) :
    Frame → Outline
  | array items =>
      .array items.reverse (some fault)
  | object members =>
      .object members.reverse (some fault)
  | member members key =>
      .object (members.reverse ++ [(key, .nothing fault)]) (some fault)

end Frame

/-- Ends all open containers at a fault, with what stands at the fault. -/
def breakOff
    (fault : Fault)
    (inner : Outline)
    (frames : List Frame) :
    Document :=
  ⟨frames.foldl (fun outline frame => frame.breakAt fault outline) inner, none⟩

/-- Ends all open containers at a fault between two parts of the innermost one. -/
def breakOffBetween
    (fault : Fault) :
    List Frame → Document
  | [] =>
      ⟨.nothing fault, none⟩
  | frame :: outer =>
      breakOff fault (frame.breakBetween fault) outer

/-- What may come next inside the innermost open container. -/
inductive Expected where
  | value
  | firstItem
  | afterItem
  | firstKey
  | nextKey
  | colon (key : Outline)
  | afterMember

/-- The state after a value: its container goes on, or it was the whole. -/
def afterValue
    (outline : Outline) :
    List Frame → Option (Expected × List Frame)
  | [] =>
      none
  | .array items :: outer =>
      some (.afterItem, .array (outline :: items) :: outer)
  | .object members :: outer =>
      some (.afterMember, .object ((outline, .nothing .malformed) :: members) :: outer)
  | .member members key :: outer =>
      some (.afterMember, .object ((key, outline) :: members) :: outer)

/-- What one token leads to. -/
inductive Step where
  /-- More tokens belong to the text. -/
  | next (expected : Expected) (frames : List Frame)
  /-- The whole value has been read. -/
  | complete (root : Outline)
  /-- Reading stops at a fault. -/
  | stop (document : Document)

/-- A value has been read. -/
def Step.ofValue
    (outline : Outline)
    (frames : List Frame) :
    Step :=
  match afterValue outline frames with
  | some (expected, stillOpen) =>
      .next expected stillOpen
  | none =>
      .complete outline

/-- Reading stops where a value or a key has to stand. -/
def Step.stopAt
    (inner : Outline)
    (frames : List Frame) :
    Step :=
  .stop (breakOff .malformed inner frames)

/-- What a token leads to where a value has to stand. -/
def stepValue
    (frames : List Frame) :
    Token → Step
  | .leaf leaf =>
      .ofValue (.leaf leaf) frames
  | .openArray =>
      .next .firstItem (.array [] :: frames)
  | .openObject =>
      .next .firstKey (.object [] :: frames)
  | _ =>
      .stopAt (.nothing .malformed) frames

/-- What a token leads to where a key has to stand; only strings are keys. -/
def stepKey
    (frames : List Frame) :
    Token → Step
  | .leaf leaf =>
      if leaf.quoted then
        .next (.colon (.leaf leaf)) frames
      else
        .stopAt (.nothing .malformed) frames
  | _ =>
      .stopAt (.nothing .malformed) frames

def step
    (expected : Expected)
    (frames : List Frame)
    (token : Token) :
    Step :=
  match expected, frames, token with
  | .firstItem, .array items :: outer, .closeArray =>
      .ofValue (.array items.reverse none) outer
  | .afterItem, .array items :: outer, .closeArray =>
      .ofValue (.array items.reverse none) outer
  | .firstKey, .object members :: outer, .closeObject =>
      .ofValue (.object members.reverse none) outer
  | .afterMember, .object members :: outer, .closeObject =>
      .ofValue (.object members.reverse none) outer
  | .afterItem, frames, .comma =>
      .next .value frames
  | .afterMember, frames, .comma =>
      .next .nextKey frames
  | .colon key, .object members :: outer, .colon =>
      .next .value (.member members key :: outer)
  | .value, frames, token =>
      stepValue frames token
  | .firstItem, frames, token =>
      stepValue frames token
  | .firstKey, frames, token =>
      stepKey frames token
  | .nextKey, frames, token =>
      stepKey frames token
  | .colon key, frames, _ =>
      .stopAt key frames
  | _, frames, _ =>
      .stop (breakOffBetween .malformed frames)

/-- Where the text ends before the value does. -/
def endOfText
    (frames : List Frame) :
    Expected → Document
  | .value | .nextKey =>
      breakOff .incomplete (.nothing .incomplete) frames
  | .colon key =>
      breakOff .incomplete key frames
  | _ =>
      breakOffBetween .incomplete frames

/-- Arranges tokens from a state of the machine. -/
def arrange
    (expected : Expected)
    (frames : List Frame) :
    List Token → Document
  | [] =>
      endOfText frames expected
  | token :: rest =>
      match step expected frames token with
      | .next expected stillOpen =>
          arrange expected stillOpen rest
      | .complete root =>
          ⟨root, if rest.isEmpty then none else some .malformed⟩
      | .stop document =>
          document

def Document.ofText
    (text : String) :
    Document :=
  arrange .value [] (tokens text.toList)

/-! ## Layers of text -/

/-- A way to write trees as text and to tell what a text holds. -/
structure TextLayer where
  write : Json → String
  read : String → Document

/-- Trees are written as compact text. -/
def TextLayer.compact : TextLayer where
  write := render
  read := Document.ofText

end Permission.Json
