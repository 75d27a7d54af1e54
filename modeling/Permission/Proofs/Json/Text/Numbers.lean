import Mathlib.Control.Monad.Basic
import Permission.Proofs.Decimal.Digits
import Permission.Proofs.Json.Tree

namespace Permission.Json

/-!
# Written numbers are read back

An integer is written as the digits of its size, behind a minus sign if it is
negative.  The digits have no zero in front that a reader would refuse, and they
denote the size that they were made from.  A float is read back if its text by
itself is: a number reads the same whatever comes behind it, unless that could
belong to it.
-/

/-- The text does not go on with what could belong to a number in front of it. -/
def NumberEnds
    (text : List Char) :
    Prop :=
  ∀ character ∈ text.head?,
    character.isDigit = false ∧ character ≠ '.' ∧
      isExponentMark character = false

/-! ## What stands behind a number -/

section NoDigit

variable {character : Char} (notDigit : character.isDigit = false)

include notDigit

theorem leadingDigits_of_not_isDigit
    (text : List Char) :
    leadingDigits (character :: text) = [] := by
  simp [leadingDigits, notDigit]

theorem afterDigits_of_not_isDigit
    (text : List Char) :
    afterDigits (character :: text) = character :: text := by
  simp [afterDigits, notDigit]

theorem scanWhole_ne_ok_of_not_isDigit
    (text : List Char)
    (scanned : List Char × List Char) :
    scanWhole (character :: text) ≠ .ok scanned := by
  have noDigits := leadingDigits_of_not_isDigit notDigit text
  simp [scanWhole, noDigits]

end NoDigit

/-- A number has its parts one behind the other. -/
theorem scanNumber_eq_ok_iff
    {text after : List Char}
    {leaf : Leaf} :
    scanNumber text = .ok (leaf, after) ↔
      ∃ whole afterWhole places afterPlaces exponent,
        scanWhole (scanSign text).2 = .ok (whole, afterWhole) ∧
        scanFraction afterWhole = .ok (places, afterPlaces) ∧
        scanExponent afterPlaces = .ok (exponent, after) ∧
        ⟨false, numberValue (scanSign text).1 whole places exponent, none⟩ =
          leaf := by
  unfold scanNumber
  simp only [Except.bind_eq_ok_iff, Except.pure_eq_ok_iff, Prod.exists,
    Prod.mk.injEq]
  constructor
  · rintro ⟨whole, afterWhole, wholeScanned, places, afterPlaces, placesScanned,
      exponent, rest, exponentScanned, isLeaf, rfl⟩
    exact ⟨whole, afterWhole, places, afterPlaces, exponent, wholeScanned,
      placesScanned, exponentScanned, isLeaf⟩
  · rintro ⟨whole, afterWhole, places, afterPlaces, exponent, wholeScanned,
      placesScanned, exponentScanned, isLeaf⟩
    exact ⟨whole, afterWhole, wholeScanned, places, afterPlaces, placesScanned,
      exponent, after, exponentScanned, isLeaf, rfl⟩

/-- A sign is seen whatever comes behind the text. -/
theorem scanSign_append
    {text : List Char}
    (nonempty : text ≠ [])
    (rest : List Char) :
    scanSign (text ++ rest) = ((scanSign text).1, (scanSign text).2 ++ rest) := by
  obtain ⟨first, others, rfl⟩ := List.exists_cons_of_ne_nil nonempty
  by_cases minus : first = '-'
  · rw [minus]
    rfl
  · simp [scanSign, minus]

theorem scanExponentSign_append
    {text : List Char}
    (nonempty : text ≠ [])
    (rest : List Char) :
    scanExponentSign (text ++ rest) =
      ((scanExponentSign text).1, (scanExponentSign text).2 ++ rest) := by
  obtain ⟨first, others, rfl⟩ := List.exists_cons_of_ne_nil nonempty
  by_cases minus : first = '-'
  · rw [minus]
    rfl
  · by_cases plus : first = '+'
    · rw [plus]
      rfl
    · simp [scanExponentSign, minus, plus]

section Behind

variable {rest : List Char} (ends : NumberEnds rest)

include ends

theorem leadingDigits_append
    (text : List Char) :
    leadingDigits (text ++ rest) = leadingDigits text := by
  induction text with
  | nil =>
      cases rest with
      | nil =>
          rfl
      | cons character others =>
          exact leadingDigits_of_not_isDigit (ends character rfl).1 others
  | cons character text inductionHypothesis =>
      cases digit : character.isDigit with
      | false =>
          exact (leadingDigits_of_not_isDigit digit (text ++ rest)).trans
            (leadingDigits_of_not_isDigit digit text).symm
      | true =>
          simpa [leadingDigits, digit] using inductionHypothesis

theorem afterDigits_append
    (text : List Char) :
    afterDigits (text ++ rest) = afterDigits text ++ rest := by
  induction text with
  | nil =>
      cases rest with
      | nil =>
          rfl
      | cons character others =>
          exact afterDigits_of_not_isDigit (ends character rfl).1 others
  | cons character text inductionHypothesis =>
      cases digit : character.isDigit with
      | false =>
          rw [afterDigits_of_not_isDigit digit]
          exact afterDigits_of_not_isDigit digit (text ++ rest)
      | true =>
          simpa [afterDigits, digit] using inductionHypothesis

theorem scanWhole_append
    {text digits after : List Char}
    (scanned : scanWhole text = .ok (digits, after)) :
    scanWhole (text ++ rest) = .ok (digits, after ++ rest) := by
  unfold scanWhole at scanned ⊢
  rw [leadingDigits_append ends, afterDigits_append ends]
  split at scanned
  · cases scanned
  · cases scanned
  · cases scanned
    rfl

theorem scanFraction_append
    {text after : List Char}
    {places : Option (List Char)}
    (scanned : scanFraction text = .ok (places, after)) :
    scanFraction (text ++ rest) = .ok (places, after ++ rest) := by
  unfold scanFraction at scanned
  split at scanned
  · rename_i behindPoint
    rw [List.cons_append, scanFraction, leadingDigits_append ends,
      afterDigits_append ends]
    split at scanned
    · cases scanned
    · cases scanned
      rfl
  · rename_i noPoint
    cases scanned
    unfold scanFraction
    split
    · rename_i others shape
      cases text with
      | nil =>
          rw [List.nil_append] at shape
          subst shape
          exact absurd rfl (ends '.' rfl).2.1
      | cons first behind =>
          rw [List.cons_append] at shape
          cases shape
          exact absurd rfl (noPoint behind)
    · rfl

theorem scanExponent_append
    {text after : List Char}
    {exponent : Option Int}
    (scanned : scanExponent text = .ok (exponent, after)) :
    scanExponent (text ++ rest) = .ok (exponent, after ++ rest) := by
  cases text with
  | nil =>
      cases scanned
      cases rest with
      | nil =>
          rfl
      | cons mark others =>
          have noMark := (ends mark rfl).2.2
          simp [scanExponent, noMark]
  | cons mark behind =>
      rw [scanExponent] at scanned
      rw [List.cons_append, scanExponent]
      by_cases isMark : isExponentMark mark = true
      · rw [if_pos isMark] at scanned ⊢
        have nonempty : behind ≠ [] := by
          rintro rfl
          cases scanned
        rw [scanExponentSign_append nonempty]
        dsimp only at scanned ⊢
        rw [leadingDigits_append ends, afterDigits_append ends]
        split at scanned
        · cases scanned
        · cases scanned
          rfl
      · rw [if_neg isMark] at scanned ⊢
        cases scanned
        rfl

/-- A number reads the same whatever comes behind it. -/
theorem scanNumber_append
    {text after : List Char}
    {leaf : Leaf}
    (scanned : scanNumber text = .ok (leaf, after)) :
    scanNumber (text ++ rest) = .ok (leaf, after ++ rest) := by
  have nonempty : text ≠ [] := by
    rintro rfl
    cases scanned
  obtain ⟨whole, afterWhole, places, afterPlaces, exponent, wholeScanned,
    placesScanned, exponentScanned, rfl⟩ := scanNumber_eq_ok_iff.mp scanned
  rw [scanNumber_eq_ok_iff, scanSign_append nonempty]
  exact
    ⟨whole, afterWhole ++ rest, places, afterPlaces ++ rest, exponent,
      scanWhole_append ends wholeScanned, scanFraction_append ends placesScanned,
      scanExponent_append ends exponentScanned, rfl⟩

end Behind

/-! ## Runs of digits -/

section Runs

variable
  {digits rest : List Char}
  (allDigits : ∀ digit ∈ digits, digit.isDigit = true)
  (stops : ∀ character ∈ rest.head?, character.isDigit = false)

include allDigits stops

theorem leadingDigits_run :
    leadingDigits (digits ++ rest) = digits := by
  have noMore : leadingDigits rest = [] := by
    cases rest with
    | nil =>
        rfl
    | cons character others =>
        exact leadingDigits_of_not_isDigit (stops character rfl) others
  unfold leadingDigits at noMore ⊢
  rw [List.takeWhile_append_of_pos allDigits, noMore, List.append_nil]

theorem afterDigits_run :
    afterDigits (digits ++ rest) = rest := by
  have noMore : afterDigits rest = rest := by
    cases rest with
    | nil =>
        rfl
    | cons character others =>
        exact afterDigits_of_not_isDigit (stops character rfl) others
  unfold afterDigits at noMore ⊢
  rw [List.dropWhile_append_of_pos allDigits, noMore]

/-- Digits in front of a point are read up to what is none. -/
theorem scanWhole_run
    (nonempty : digits ≠ [])
    (noZeroInFront : digits.head? = some '0' → digits = ['0']) :
    scanWhole (digits ++ rest) = .ok (digits, rest) := by
  unfold scanWhole
  rw [leadingDigits_run allDigits stops, afterDigits_run allDigits stops]
  split
  · exact absurd rfl nonempty
  · exact absurd (noZeroInFront rfl) (by simp)
  · rfl

/-- Digits behind a point are read up to what is none. -/
theorem scanFraction_run
    (nonempty : digits ≠ []) :
    scanFraction ('.' :: (digits ++ rest)) = .ok (some digits, rest) := by
  rw [scanFraction, leadingDigits_run allDigits stops, afterDigits_run allDigits stops]
  split
  · exact absurd rfl nonempty
  · rfl

end Runs

/-! ## Integers -/

/-- Only zero has digits that begin with a zero. -/
theorem eq_zero_of_head?_digitsOf
    {natural : Nat}
    (isZero : (Decimal.digitsOf natural).head? = some '0') :
    natural = 0 := by
  by_contra nonzero
  exact Decimal.head?_digitsOf_ne_zero (Nat.pos_of_ne_zero nonzero) isZero

theorem scanWhole_digitsOf
    (natural : Nat) :
    scanWhole (Decimal.digitsOf natural) = .ok (Decimal.digitsOf natural, []) := by
  have nothingBehind :
      ∀ character ∈ ([] : List Char).head?, character.isDigit = false :=
    nofun
  have noZeroInFront :
      (Decimal.digitsOf natural).head? = some '0' →
        Decimal.digitsOf natural = ['0'] := by
    intro isZero
    rw [eq_zero_of_head?_digitsOf isZero]
    rfl
  have scanned :=
    scanWhole_run (fun _ => Decimal.isDigit_of_mem_digitsOf) nothingBehind
      (Decimal.digitsOf_ne_nil natural) noZeroInFront
  rwa [List.append_nil] at scanned

theorem scanSign_digitsOf
    (natural : Nat) :
    scanSign (Decimal.digitsOf natural) = (false, Decimal.digitsOf natural) := by
  unfold scanSign
  split
  · rename_i others shape
    have isDigit : '-'.isDigit = true :=
      Decimal.isDigit_of_mem_digitsOf (shape ▸ List.mem_cons_self)
    cases isDigit
  · rfl

theorem Integer.ofInt?_value
    (number : Integer) :
    ofInt? number.value = some number :=
  dif_pos ⟨number.atLeast, number.below⟩

/-- An integer is its size with the sign that it has. -/
theorem signed_natAbs
    (value : Int) :
    (if decide (value < 0) = true then -(value.natAbs : Int) else value.natAbs) =
      value := by
  by_cases negative : value < 0
  · rw [if_pos (decide_eq_true negative)]
    omega
  · rw [if_neg (by simp [negative])]
    omega

/-- The digits of an integer stand for it, with the sign that it has. -/
theorem numberValue_digitsOf_natAbs
    (number : Integer) :
    numberValue (decide (number.value < 0))
        (Decimal.digitsOf number.value.natAbs) none none =
      .ok (.integer number) := by
  have noMinusZero :
      (decide (number.value < 0) && number.value.natAbs == 0) = false := by
    by_cases negative : number.value < 0
    · have nonzero : number.value.natAbs ≠ 0 := by
        omega
      simp [nonzero]
    · simp [negative]
  unfold numberValue
  simp only [Decimal.ofDigits_digitsOf, noMinusZero, signed_natAbs,
    Integer.ofInt?_value]
  rfl

theorem toList_toString
    (value : Int) :
    (toString value).toList =
      if value < 0 then
        '-' :: Decimal.digitsOf value.natAbs
      else
        Decimal.digitsOf value.natAbs := by
  cases value with
  | ofNat size =>
      have notNegative : ¬ Int.ofNat size < 0 :=
        Int.not_lt.mpr (Int.natCast_nonneg size)
      rw [if_neg notNegative]
      exact Nat.toList_repr
  | negSucc size =>
      have shape : (toString (Int.negSucc size)) = "-" ++ (size + 1).repr :=
        rfl
      rw [shape, String.toList_append, Nat.toList_repr,
        if_pos (Int.negSucc_lt_zero size)]
      rfl

/-- What an integer is written as is scanned as that integer. -/
theorem scanNumber_toString
    (number : Integer) :
    scanNumber (toString number.value).toList =
      .ok (.ofScalar (.integer number), []) := by
  have signed :
      scanSign (toString number.value).toList =
        (decide (number.value < 0), Decimal.digitsOf number.value.natAbs) := by
    rw [toList_toString]
    by_cases negative : number.value < 0
    · rw [if_pos negative, decide_eq_true negative]
      rfl
    · rw [if_neg negative, decide_eq_false negative]
      exact scanSign_digitsOf number.value.natAbs
  rw [scanNumber_eq_ok_iff, signed]
  refine
    ⟨Decimal.digitsOf number.value.natAbs, [], none, [], none,
      scanWhole_digitsOf _, rfl, rfl, ?_⟩
  rw [numberValue_digitsOf_natAbs]
  rfl

/-! ## Floats -/

deriving instance DecidableEq for Leaf

/--
What a float is written as is scanned as that float.  This rests on the digits
that are chosen for a float and on the way in which digits are rounded, and some
floats with many digits come out as a neighbour.
-/
def Float.ReadsBack
    (number : Float) :
    Prop :=
  scanNumber number.number.render.toList = .ok (.ofScalar (.float number), [])

instance (number : Float) : Decidable number.ReadsBack :=
  inferInstanceAs (Decidable (_ = _))

/-! ## Tokens -/

/-- A number begins with a digit or a minus sign. -/
theorem exists_cons_of_scanNumber
    {text rest : List Char}
    {leaf : Leaf}
    (scanned : scanNumber text = .ok (leaf, rest)) :
    ∃ first others, text = first :: others ∧
      (first = '-' ∨ first.isDigit = true) := by
  cases text with
  | nil =>
      cases scanned
  | cons first others =>
      refine ⟨first, others, rfl, ?_⟩
      by_cases minus : first = '-'
      · exact .inl minus
      · by_cases digit : first.isDigit = true
        · exact .inr digit
        · have unsigned : scanSign (first :: others) = (false, first :: others) := by
            unfold scanSign
            split
            · rename_i shape
              exact absurd (List.cons.inj shape).1 minus
            · rfl
          obtain ⟨whole, afterWhole, -, -, -, wholeScanned, -⟩ :=
            scanNumber_eq_ok_iff.mp scanned
          rw [unsigned] at wholeScanned
          exact absurd wholeScanned
            (scanWhole_ne_ok_of_not_isDigit (Bool.eq_false_iff.mpr digit) _ _)

/-- What opens a number is neither punctuation nor a quote nor a blank. -/
theorem opens_number
    {character : Char}
    (opens : character = '-' ∨ character.isDigit = true) :
    punctuation? character = none ∧ character ≠ '"' ∧
      isBlank character = false := by
  rcases opens with rfl | digit
  · decide
  · have different : ∀ other : Char, other.isDigit = false → character ≠ other := by
      rintro other notDigit rfl
      rw [digit] at notDigit
      cases notDigit
    refine ⟨?_, different '"' rfl, ?_⟩
    · unfold punctuation?
      split <;> first | rfl | cases digit
    · simp [isBlank, different ' ' rfl, different '\t' rfl, different '\n' rfl,
        different '\r' rfl]

/-- Where a number stands, it is the next token. -/
theorem scanToken_of_scanNumber
    {first : Char}
    {text rest : List Char}
    {leaf : Leaf}
    (opens : first = '-' ∨ first.isDigit = true)
    (scanned : scanNumber (first :: text) = .ok (leaf, rest)) :
    scanToken first text = (.leaf leaf, rest) := by
  obtain ⟨noPunctuation, noQuote, -⟩ := opens_number opens
  have opensNumber : (first = '-' || first.isDigit) = true := by
    simpa using opens
  unfold scanToken
  rw [noPunctuation]
  dsimp only
  rw [if_neg noQuote, if_pos opensNumber, scanned]

end Permission.Json
