import Permission.Decimal

namespace Permission.Decimal

/-!
# Shortest decimal numerals of binary64 numbers

The reals that round to a number form an interval around it, whose ends belong
to it exactly when the significand is even.  The shortest numeral is looked for
on ever finer decimal grids: on each one only the two neighbours of the number
can lie in the interval, the first grid with a hit wins, and of two hits the
nearer one, an exact tie going to the even coefficient.

Everything is counted in quarters of a unit, in which the number and both ends
of its interval are integers.
-/

/-- The reals that round to one number, counted in quarters of a unit. -/
structure RoundingInterval where
  lower : Nat
  number : Nat
  upper : Nat
  closed : Bool

namespace RoundingInterval

/-- How many quarters of a unit make one. -/
def quartersPerOne : Nat :=
  4 * Binary64.unitsPerOne

/--
The interval of a positive magnitude.  Below a power of two the next number is
only half as far away as above it.
-/
def ofMagnitude
    (magnitude : Nat) :
    RoundingInterval :=
  let significand := Binary64.significandOf magnitude
  let lastPlace := 1 <<< Binary64.scaleOf magnitude
  let number := 4 * (significand * lastPlace)
  let narrow :=
    significand == Binary64.fractionCount && 0 < Binary64.scaleOf magnitude
  {
    lower := number - (if narrow then lastPlace else 2 * lastPlace)
    number := number
    upper := number + 2 * lastPlace
    closed := significand % 2 == 0
  }

/-- A quotient of quarters lies in the interval. -/
def holds
    (interval : RoundingInterval)
    (numerator denominator : Nat) :
    Bool :=
  if interval.closed then
    interval.lower * denominator ≤ numerator &&
      numerator ≤ interval.upper * denominator
  else
    interval.lower * denominator < numerator &&
      numerator < interval.upper * denominator

end RoundingInterval

/-- The coefficient on a grid that is to stand for the number, if one may. -/
def onGrid?
    (interval : RoundingInterval)
    (exponent : Int) :
    Option Nat :=
  let step := RoundingInterval.quartersPerOne * powerOfTen exponent.toNat
  let denominator := powerOfTen (-exponent).toNat
  let scaled := interval.number * denominator
  let below := scaled / step
  let above := below + 1
  let nearestFirst :=
    match compare (2 * (scaled % step)) step with
    | .lt =>
        [below, above]
    | .gt =>
        [above, below]
    | .eq =>
        if below % 2 = 0 then [below, above] else [above, below]
  nearestFirst.find? fun coefficient =>
    0 < coefficient && interval.holds (coefficient * step) denominator

/-- The first hit on grids that get finer, at most `grids` of them. -/
def onGrids?
    (interval : RoundingInterval) :
    Nat → Int → Option Decimal
  | 0, _ =>
      none
  | grids + 1, exponent =>
      match onGrid? interval exponent with
      | some coefficient =>
          some ⟨coefficient, exponent⟩
      | none =>
          onGrids? interval grids (exponent - 1)

/-- Powers of ten that every finite positive binary64 number stays well within. -/
def exponentLimit : Nat :=
  400

/-- The power of ten of the leading digit of a positive magnitude. -/
def leadingExponentOf
    (magnitude : Nat) :
    Int :=
  let scaled :=
    Binary64.unitsOf magnitude * powerOfTen exponentLimit / Binary64.unitsPerOne
  digitCount scaled - 1 - exponentLimit

/-- Drops the zeros at the end of a coefficient, at most `places` of them. -/
def dropZeros :
    Nat → Decimal → Decimal
  | 0, decimal =>
      decimal
  | places + 1, decimal =>
      if decimal.coefficient % 10 = 0 then
        dropZeros places ⟨decimal.coefficient / 10, decimal.exponent + 1⟩
      else
        decimal

/-- No binary64 number needs more than seventeen significant digits. -/
def gridLimit : Nat :=
  18

/--
The shortest decimal number that rounds to a positive finite magnitude, and the
nearest of these.
-/
def shortest
    (magnitude : Nat) :
    Decimal :=
  let found? :=
    onGrids? (RoundingInterval.ofMagnitude magnitude) gridLimit
      (leadingExponentOf magnitude)
  (found?.map (dropZeros gridLimit)).getD ⟨0, 0⟩

end Permission.Decimal
