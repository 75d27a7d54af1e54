import Permission.Decimal.Shortest

namespace Permission.Decimal

/-!
# Written floats

A float is written in the fewest digits that read back.  Powers of ten from
`1e-5` up to `1e15` are written out with a point; all others have an exponent,
whose sign is always there.  A float never looks like an integer.
-/

/-- The choices of a written form of floats. -/
structure Layout where
  /-- The least power of ten of a leading digit that is written out. -/
  leastPositional : Int
  /-- The least power of ten of a leading digit that is too large for that. -/
  leastExponential : Int
  /-- The mark in front of an exponent. -/
  exponentMark : Char
  /-- The sign of an exponent that is not negative. -/
  exponentPlus : String

/-- Floats are written out from `1e-5` to `1e15`, and as in `1.5e+16` beyond. -/
def Layout.plain : Layout where
  leastPositional := -5
  leastExponential := 16
  exponentMark := 'e'
  exponentPlus := "+"

namespace Layout

def zeros
    (count : Nat) :
    List Char :=
  List.replicate count '0'

/-- The digits with a point after the first `whole` of them. -/
def positional
    (digits : List Char)
    (leading : Int) :
    List Char :=
  if leading < 0 then
    '0' :: '.' :: (zeros (-leading - 1).toNat ++ digits)
  else
    let whole := (leading + 1).toNat
    if digits.length ≤ whole then
      digits ++ zeros (whole - digits.length) ++ ['.', '0']
    else
      digits.take whole ++ '.' :: digits.drop whole

/-- The digits with a point after the first and an exponent. -/
def exponential
    (layout : Layout)
    (digits : List Char)
    (leading : Int) :
    List Char :=
  let significand :=
    match digits with
    | first :: second :: rest =>
        first :: '.' :: second :: rest
    | short =>
        short
  let sign := if leading < 0 then "-" else layout.exponentPlus
  significand ++ layout.exponentMark :: (sign.toList ++ digitsOf leading.natAbs)

def render
    (layout : Layout)
    (decimal : Decimal) :
    List Char :=
  let digits := digitsOf decimal.coefficient
  let leading := decimal.leadingExponent
  if layout.leastPositional ≤ leading ∧ leading < layout.leastExponential then
    positional digits leading
  else
    layout.exponential digits leading

end Layout

end Decimal

namespace Binary64

/-- The text of a finite number; zero keeps its sign. -/
def render
    (number : Binary64) :
    String :=
  let size :=
    if number.magnitude = 0 then
      ['0', '.', '0']
    else
      Decimal.Layout.plain.render (Decimal.shortest number.magnitude)
  String.ofList (if number.isNegative then '-' :: size else size)

end Binary64

end Permission
