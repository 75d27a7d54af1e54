import Permission.Text.Hidden

namespace Permission.Text

/-!
# Quoted names in messages

A message shows a name between double quotes and on one line: the quote, the
backslash and the usual control characters are escaped by a letter, any other
hidden character by its code point, and everything else stands for itself.
-/

/-- The hexadecimal digits of a code point, without leading zeros. -/
def hexadecimal
    (code : Nat) :
    List Char :=
  Nat.toDigits 16 code

/-- One character as it stands inside quotes. -/
def quoteCharacter
    (character : Char) :
    List Char :=
  match character with
  | '"' =>
      ['\\', '"']
  | '\\' =>
      ['\\', '\\']
  | '\n' =>
      ['\\', 'n']
  | '\r' =>
      ['\\', 'r']
  | '\t' =>
      ['\\', 't']
  | '\x00' =>
      ['\\', '0']
  | other =>
      if isHidden other then
        '\\' :: 'u' :: '\x7b' :: (hexadecimal other.toNat ++ ['\x7d'])
      else
        [other]

/-- A name between quotes. -/
def quote
    (name : String) :
    String :=
  String.ofList ('"' :: (name.toList.flatMap quoteCharacter ++ ['"']))

end Permission.Text
