namespace Permission

/-!
# Binary64 numbers

A binary64 number is its 64-bit pattern: a sign, eleven exponent bits and
fifty-two fraction bits.  Every finite number is a whole multiple of the
smallest positive one, `2 ^ -1074`, so comparing two numbers is comparing the
integers that count these units.  The infinities count as `2 ^ 1024` and its
negation, beyond all other numbers.  An integer is compared with the whole part
of a number, which is an integer too, and then with what stands behind the point.
-/

/-- A binary64 number by its bit pattern. -/
structure Binary64 where
  bits : UInt64
  deriving DecidableEq, Repr

namespace Binary64

/-- The number of fraction patterns of one exponent. -/
def fractionCount : Nat :=
  0x10000000000000

/-- The number of patterns of one sign. -/
def signCount : Nat :=
  0x8000000000000000

/-- The magnitude pattern of infinity; all greater ones are not numbers. -/
def infinityMagnitude : Nat :=
  2047 * fractionCount

/-- How many units of the smallest positive number make one. -/
def unitsPerOne : Nat :=
  1 <<< 1074

def isNegative
    (number : Binary64) :
    Bool :=
  signCount ≤ number.bits.toNat

/-- Exponent and fraction without the sign, in ascending order of size. -/
def magnitude
    (number : Binary64) :
    Nat :=
  number.bits.toNat % signCount

/-- The pattern stands for no number. -/
def isNaN
    (number : Binary64) :
    Bool :=
  infinityMagnitude < number.magnitude

def isFinite
    (number : Binary64) :
    Bool :=
  number.magnitude < infinityMagnitude

/-- The fifty-two or fifty-three significant bits of a magnitude. -/
def significandOf
    (magnitude : Nat) :
    Nat :=
  if magnitude < fractionCount then
    magnitude
  else
    fractionCount + magnitude % fractionCount

/-- How often the unit is doubled to give the last significant bit. -/
def scaleOf
    (magnitude : Nat) :
    Nat :=
  magnitude / fractionCount - 1

/-- The size of a magnitude, counted in units. -/
def unitsOf
    (magnitude : Nat) :
    Nat :=
  significandOf magnitude <<< scaleOf magnitude

/-- The number with its sign, counted in units. -/
def units
    (number : Binary64) :
    Int :=
  if number.isNegative then
    -(unitsOf number.magnitude : Int)
  else
    (unitsOf number.magnitude : Int)

/-- The number with a given sign and magnitude pattern. -/
def ofMagnitude
    (negative : Bool)
    (magnitude : Nat) :
    Binary64 :=
  ⟨UInt64.ofNat ((if negative then signCount else 0) + magnitude)⟩

/-- Orders two numbers by size; a pattern that is no number has no place. -/
def compare?
    (left right : Binary64) :
    Option Ordering :=
  if left.isNaN || right.isNaN then
    none
  else
    some (compare left.units right.units)

/-- The first number stands below the second one. -/
def isBelow
    (left right : Binary64) :
    Bool :=
  (left.compare? right).any Ordering.isLT

/-- The first number equals the second one or stands above it. -/
def isAtLeast
    (left right : Binary64) :
    Bool :=
  (left.compare? right).any Ordering.isGE

/-- The number with the same size and the other sign. -/
def negate
    (number : Binary64) :
    Binary64 :=
  ofMagnitude (!number.isNegative) number.magnitude

/-- The magnitude pattern of one; all smaller ones have no whole part. -/
def oneMagnitude : Nat :=
  1023 * fractionCount

/-- How many bits of a magnitude of one or above stand behind the point. -/
def placesOf
    (magnitude : Nat) :
    Nat :=
  1075 - magnitude / fractionCount

/-- The whole part of a magnitude, with all bits behind the point cleared. -/
def wholeMagnitude
    (magnitude : Nat) :
    Nat :=
  if magnitude < oneMagnitude then
    0
  else
    magnitude >>> placesOf magnitude <<< placesOf magnitude

/-- The whole part of a number, as a number. -/
def truncate
    (number : Binary64) :
    Binary64 :=
  ofMagnitude number.isNegative (wholeMagnitude number.magnitude)

/--
The whole part of a number as an integer of sixty-four bits, or the outermost of
these on its side of zero if it lies beyond them.  What is no number counts as
zero.
-/
def toInt64
    (number : Binary64) :
    Int64 :=
  if number.isNaN then
    0
  else
    Int64.ofInt
      (max (-0x8000000000000000)
        (min 0x7FFFFFFFFFFFFFFF (number.units.tdiv unitsPerOne)))

/-- `2 ^ 63`, the first number above every signed integer of sixty-four bits. -/
def integerLimit : Binary64 :=
  ⟨0x43E0000000000000⟩

/--
Orders an integer against a number, rounding neither.  Numbers beyond all
integers are told apart first; of the others the whole part is an integer, and
what stands behind the point matters only if that is the same.
-/
def compareInteger?
    (integer : Int64)
    (number : Binary64) :
    Option Ordering :=
  if number.isNaN then
    none
  else if number.isAtLeast integerLimit then
    some .lt
  else if number.isBelow integerLimit.negate then
    some .gt
  else
    let whole := number.truncate
    let behindPoint :=
      if whole.isBelow number then
        .lt
      else if number.isBelow whole then
        .gt
      else
        .eq
    some ((compare integer.toInt whole.toInt64.toInt).then behindPoint)

/-- The quotient rounded to the nearest integer, a half to the even one. -/
def roundHalfEven
    (numerator denominator : Nat) :
    Nat :=
  let quotient := numerator / denominator
  let rest := numerator % denominator
  match compare (2 * rest) denominator with
  | .lt =>
      quotient
  | .gt =>
      quotient + 1
  | .eq =>
      quotient + quotient % 2

/--
The magnitude pattern nearest to a quotient, a half going to the even pattern.
What lies half a last place or more above the greatest finite number rounds to
`infinityMagnitude` or above.

In units the quotient is cut to at most fifty-three bits.  With `scale`
doublings per last place, the rounded significand is added to `scale` whole
binades, and a carry out of it steps into the next binade by itself.
-/
def nearestMagnitude
    (numerator denominator : Nat) :
    Nat :=
  let scaled := numerator * unitsPerOne
  let scale := Nat.log2 (scaled / denominator) - 52
  scale * fractionCount + roundHalfEven scaled (denominator <<< scale)

/-- The magnitude pattern nearest to the product of two finite ones. -/
def productOf
    (left right : Nat) :
    Nat :=
  nearestMagnitude (unitsOf left * unitsOf right) (unitsPerOne * unitsPerOne)

/-- The magnitude pattern nearest to the quotient of two finite ones. -/
def quotientOf
    (left right : Nat) :
    Nat :=
  nearestMagnitude (unitsOf left) (unitsOf right)

/-- The number nearest to a natural number. -/
def ofNatNearest
    (natural : Nat) :
    Binary64 :=
  ofMagnitude false (min (nearestMagnitude natural 1) infinityMagnitude)

end Binary64

end Permission
