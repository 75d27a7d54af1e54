import Permission.NameMap
import Permission.Decimal.Layout

namespace Permission

/-!
# JSON trees and their text

A tree has the three shapes of JSON: scalars, arrays and objects.  An integer
is kept as one when it fits sixty-four bits, with a sign or without; every other
number is a finite float.  Members of an object are in the order in which they
are written, which for objects that were read is ascending order of their names.

The text of a tree is compact.
-/

namespace Json

/-- An integer that fits sixty-four bits, with a sign or without. -/
structure Integer where
  value : Int
  atLeast : -0x8000000000000000 ≤ value
  below : value < 0x10000000000000000
  deriving DecidableEq

/-- A binary64 number that stands for a real one. -/
structure Float where
  number : Binary64
  finite : number.isFinite = true
  deriving DecidableEq

/-- The integer with a value, if it fits. -/
def Integer.ofInt?
    (value : Int) :
    Option Integer :=
  if range : -0x8000000000000000 ≤ value ∧ value < 0x10000000000000000 then
    some ⟨value, range.1, range.2⟩
  else
    none

/-- A signed integer of sixty-four bits. -/
def Integer.ofInt64
    (number : Int64) :
    Integer where
  value :=
    number.toInt
  atLeast :=
    number.le_toInt
  below := by
    have := number.toInt_lt
    omega

/-- The float with a bit pattern, if that stands for a real number. -/
def Float.ofBinary64?
    (number : Binary64) :
    Option Float :=
  if finite : number.isFinite = true then
    some ⟨number, finite⟩
  else
    none

/-- A tree without parts. -/
inductive Scalar where
  | null
  | boolean (truth : Bool)
  | integer (number : Integer)
  | float (number : Float)
  | string (text : String)
  deriving DecidableEq

end Json

/-- A JSON tree. -/
inductive Json where
  | scalar (scalar : Json.Scalar)
  | array (items : List Json)
  | object (members : List (String × Json))

namespace Json

abbrev null : Json :=
  scalar .null

abbrev boolean
    (truth : Bool) :
    Json :=
  scalar (.boolean truth)

abbrev string
    (text : String) :
    Json :=
  scalar (.string text)

def hexadecimalDigit
    (digit : Nat) :
    Char :=
  Nat.digitChar digit

/-- One character as it stands in a string. -/
def escapeCharacter
    (character : Char) :
    List Char :=
  match character with
  | '"' =>
      ['\\', '"']
  | '\\' =>
      ['\\', '\\']
  | '\x08' =>
      ['\\', 'b']
  | '\x0c' =>
      ['\\', 'f']
  | '\n' =>
      ['\\', 'n']
  | '\r' =>
      ['\\', 'r']
  | '\t' =>
      ['\\', 't']
  | other =>
      let code := other.toNat
      if code < 0x20 then
        ['\\', 'u', '0', '0', hexadecimalDigit (code / 16),
          hexadecimalDigit (code % 16)]
      else
        [other]

def renderString
    (text : String) :
    String :=
  String.ofList ('"' :: (text.toList.flatMap escapeCharacter ++ ['"']))

def Scalar.render : Scalar → String
  | null =>
      "null"
  | boolean truth =>
      if truth then "true" else "false"
  | integer number =>
      toString number.value
  | float number =>
      number.number.render
  | string text =>
      renderString text

mutual

def render : Json → String
  | .scalar leaf =>
      leaf.render
  | .array items =>
      "[" ++ ",".intercalate (renderItems items) ++ "]"
  | .object members =>
      "\x7b" ++ ",".intercalate (renderMembers members) ++ "\x7d"

def renderItems : List Json → List String
  | [] =>
      []
  | item :: rest =>
      render item :: renderItems rest

def renderMembers : List (String × Json) → List String
  | [] =>
      []
  | (name, value) :: rest =>
      (renderString name ++ ":" ++ render value) :: renderMembers rest

end

end Json

end Permission
