import Permission.Binary64

namespace Permission

/-!
# Decimal numerals

A numeral `coefficient * 10 ^ exponent` and the binary64 number that it is read as.
Reading rounds more than once: the digits are cut to what sixty-four bits hold, the
coefficient becomes a number, and that is multiplied or divided by a power of ten
that is a rounded number itself.  What is read is near the numeral, but it need not
be the number nearest to it.
-/

/-- The decimal number `coefficient * 10 ^ exponent`. -/
structure Decimal where
  coefficient : Nat
  exponent : Int
  deriving DecidableEq, Repr

namespace Decimal

/-- The decimal digits of a natural number, the most significant first. -/
def digitsOf
    (natural : Nat) :
    List Char :=
  Nat.toDigits 10 natural

/-- How many decimal digits a natural number has; zero has one. -/
def digitCount
    (natural : Nat) :
    Nat :=
  (digitsOf natural).length

/-- What a digit adds to the number that the digits in front of it denote. -/
def appendDigit
    (number : Nat)
    (digit : Char) :
    Nat :=
  10 * number + (digit.toNat - '0'.toNat)

/-- The natural number that a run of digits denotes. -/
def ofDigits
    (digits : List Char) :
    Nat :=
  digits.foldl appendDigit 0

def powerOfTen
    (exponent : Nat) :
    Nat :=
  Nat.pow 10 exponent

/-- The power of ten of the leading digit. -/
def leadingExponent
    (decimal : Decimal) :
    Int :=
  decimal.exponent + digitCount decimal.coefficient - 1

/-! ## Digits that are kept -/

/-- The greatest coefficient that is kept. -/
def coefficientLimit : Nat :=
  0xFFFFFFFFFFFFFFFF

/--
Appends digits to a coefficient up to the first one that would take it beyond its
limit, and counts the digits that are left over.
-/
def appendDigits
    (coefficient : Nat) :
    List Char → Nat × Nat
  | [] =>
      (coefficient, 0)
  | digit :: rest =>
      let extended := appendDigit coefficient digit
      if extended ≤ coefficientLimit then
        appendDigits extended rest
      else
        (coefficient, rest.length + 1)

/--
The numeral with digits in front of a point and behind it, and a written exponent.
A digit in front of the point that is left over still counts as a place.
-/
def ofParts
    (whole places : List Char)
    (exponent : Int) :
    Decimal :=
  let (front, frontLeftOver) := appendDigits 0 whole
  let (coefficient, leftOver) := appendDigits front places
  ⟨coefficient, exponent + frontLeftOver - (places.length - leftOver : Nat)⟩

/-! ## The number that is read -/

/-- The greatest exponent of a power of ten that is a finite number. -/
def powerLimit : Nat :=
  308

/-- The magnitude pattern nearest to a power of ten. -/
def powerMagnitude
    (exponent : Nat) :
    Nat :=
  Binary64.nearestMagnitude (powerOfTen exponent) 1

/-- Divides by the greatest power of ten for a number of times, or down to zero. -/
def shrink
    (magnitude : Nat) :
    Nat → Nat
  | 0 =>
      magnitude
  | times + 1 =>
      if magnitude = 0 then
        0
      else
        shrink (Binary64.quotientOf magnitude (powerMagnitude powerLimit)) times

/-- A magnitude multiplied by a power of ten, unless that leads beyond the finite ones. -/
def enlarge?
    (magnitude exponent : Nat) :
    Option Nat :=
  if magnitude = 0 then
    some 0
  else if exponent ≤ powerLimit then
    let product := Binary64.productOf magnitude (powerMagnitude exponent)
    if product < Binary64.infinityMagnitude then some product else none
  else
    none

/--
The magnitude pattern that a numeral is read as, or `none` if that leads beyond the
finite ones.  Exponents that no power of ten has are brought up to one that has.
-/
def magnitude?
    (decimal : Decimal) :
    Option Nat :=
  let size := Binary64.nearestMagnitude decimal.coefficient 1
  match decimal.exponent with
  | .ofNat exponent =>
      enlarge? size exponent
  | .negSucc fewer =>
      some
        (Binary64.quotientOf (shrink size (fewer / powerLimit))
          (powerMagnitude (fewer % powerLimit + 1)))

end Decimal

end Permission
