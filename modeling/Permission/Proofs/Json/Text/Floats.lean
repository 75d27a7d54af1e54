import Permission.Proofs.Decimal.Reading
import Permission.Proofs.Decimal.Shortest
import Permission.Proofs.Json.Text.Written

namespace Permission.Json

/-!
# Floats whose text is read exactly

The text of a float is cut into the parts of the numeral that was chosen for it.  If
that numeral, as it is written, is read exactly, it is read as the number nearest to
it, which is the float that it was chosen for.  A tree in which all floats are like
that is read back from its compact text.
-/

open Decimal (Layout coefficientLimit digitsOf ofDigits powerOfTen)

/-! ## Parts of a numeral -/

/-- A text is cut into the parts of a numeral and does not look like an integer. -/
def ScansAs
    (text : List Char)
    (decimal : Decimal) :
    Prop :=
  ∃ whole afterWhole places afterPlaces exponent,
    scanWhole text = .ok (whole, afterWhole) ∧
    scanFraction afterWhole = .ok (places, afterPlaces) ∧
    scanExponent afterPlaces = .ok (exponent, []) ∧
    (places.isNone && exponent.isNone) = false ∧
    Decimal.ofParts whole (places.getD []) (exponent.getD 0) = decimal

/-- An exponent is read with its sign. -/
theorem scanExponent_exponential
    (leading : Int) :
    scanExponent
        ('e' :: ((if leading < 0 then "-" else "+").toList ++
          digitsOf leading.natAbs)) =
      .ok (some leading, []) := by
  have digitsScanned :
      leadingDigits (digitsOf leading.natAbs) = digitsOf leading.natAbs ∧
        afterDigits (digitsOf leading.natAbs) = [] := by
    have nothingBehind :
        ∀ character ∈ ([] : List Char).head?, character.isDigit = false :=
      nofun
    have allDigits : ∀ digit ∈ digitsOf leading.natAbs, digit.isDigit = true :=
      fun _ => Decimal.isDigit_of_mem_digitsOf
    have taken := leadingDigits_run allDigits nothingBehind
    have left := afterDigits_run allDigits nothingBehind
    rw [List.append_nil] at taken left
    exact ⟨taken, left⟩
  have signed :
      scanExponentSign
          ((if leading < 0 then "-" else "+").toList ++ digitsOf leading.natAbs) =
        (decide (leading < 0), digitsOf leading.natAbs) := by
    by_cases negative : leading < 0
    · rw [if_pos negative, decide_eq_true negative]
      rfl
    · rw [if_neg negative, decide_eq_false negative]
      rfl
  rw [scanExponent, if_pos (by rfl), signed]
  dsimp only
  rw [digitsScanned.1, digitsScanned.2]
  split
  · rename_i noDigits
    exact absurd noDigits (Decimal.digitsOf_ne_nil _)
  · rw [Decimal.ofDigits_digitsOf, signed_natAbs]

section Parts

variable
  {whole places behind : List Char}
  {exponent : Option Int}
  (wholeDigits : ∀ digit ∈ whole, digit.isDigit = true)
  (wholeNonempty : whole ≠ [])
  (noZeroInFront : whole.head? = some '0' → whole = ['0'])

include wholeDigits wholeNonempty noZeroInFront

/-- Digits around a point, and perhaps an exponent, make a numeral. -/
theorem scansAs_point
    (placesDigits : ∀ digit ∈ places, digit.isDigit = true)
    (placesNonempty : places ≠ [])
    (stops : ∀ character ∈ behind.head?, character.isDigit = false)
    (exponentScanned : scanExponent behind = .ok (exponent, []))
    (fits : ofDigits (whole ++ places) ≤ coefficientLimit) :
    ScansAs (whole ++ '.' :: (places ++ behind))
      ⟨ofDigits (whole ++ places), exponent.getD 0 - places.length⟩ := by
  have pointStops :
      ∀ character ∈ ('.' :: (places ++ behind)).head?, character.isDigit = false := by
    rintro character ⟨⟩
    rfl
  exact
    ⟨whole, _, some places, behind, exponent,
      scanWhole_run wholeDigits pointStops wholeNonempty noZeroInFront,
      scanFraction_run placesDigits stops placesNonempty, exponentScanned, rfl,
      Decimal.ofParts_eq fits _⟩

/-- Digits around a point make a numeral with as many places. -/
theorem scansAs_places
    (placesDigits : ∀ digit ∈ places, digit.isDigit = true)
    (placesNonempty : places ≠ [])
    (fits : ofDigits (whole ++ places) ≤ coefficientLimit) :
    ScansAs (whole ++ '.' :: places)
      ⟨ofDigits (whole ++ places), -places.length⟩ := by
  have nothingBehind :
      ∀ character ∈ ([] : List Char).head?, character.isDigit = false :=
    nofun
  have scanned :=
    scansAs_point wholeDigits wholeNonempty noZeroInFront placesDigits
      placesNonempty nothingBehind rfl fits
  rwa [List.append_nil, Option.getD_none, Int.zero_sub] at scanned

/-- Digits with an exponent and no point make a numeral. -/
theorem scansAs_exponent
    {leading : Int}
    (exponentScanned : scanExponent ('e' :: behind) = .ok (some leading, []))
    (fits : ofDigits whole ≤ coefficientLimit) :
    ScansAs (whole ++ 'e' :: behind) ⟨ofDigits whole, leading⟩ := by
  have markStops :
      ∀ character ∈ ('e' :: behind).head?, character.isDigit = false := by
    rintro character ⟨⟩
    rfl
  have parts :
      Decimal.ofParts whole [] leading = ⟨ofDigits whole, leading⟩ := by
    rw [Decimal.ofParts_eq (by rwa [List.append_nil]), List.append_nil]
    exact congrArg (Decimal.mk _) (Int.sub_zero leading)
  exact
    ⟨whole, _, none, 'e' :: behind, some leading,
      scanWhole_run wholeDigits markStops wholeNonempty noZeroInFront, rfl,
      exponentScanned, rfl, parts⟩

end Parts

/-! ## Numerals that are written -/

section Written

variable {decimal : Decimal}

theorem isDigit_of_mem_zeros
    (count : Nat) :
    ∀ digit ∈ Layout.zeros count, digit.isDigit = true := by
  intro digit member
  rw [List.eq_of_mem_replicate member]
  rfl

theorem leadingExponent_eq
    (decimal : Decimal) :
    decimal.leadingExponent =
      decimal.exponent + (digitsOf decimal.coefficient).length - 1 :=
  rfl

/-- A numeral below one is written with zeros behind the point. -/
theorem scansAs_positional_of_neg
    (small : decimal.leadingExponent < 0)
    (fits : decimal.coefficient ≤ coefficientLimit) :
    ScansAs
      (Layout.positional (digitsOf decimal.coefficient) decimal.leadingExponent)
      decimal := by
  let zeros := Layout.zeros (-decimal.leadingExponent - 1).toNat
  let places := zeros ++ digitsOf decimal.coefficient
  have wholeDigits : ∀ digit ∈ ['0'], digit.isDigit = true :=
    isDigit_of_mem_zeros 1
  have placesDigits : ∀ digit ∈ places, digit.isDigit = true :=
    List.forall_mem_append.mpr
      ⟨isDigit_of_mem_zeros _, fun _ => Decimal.isDigit_of_mem_digitsOf⟩
  have placesNonempty : places ≠ [] :=
    List.append_ne_nil_of_right_ne_nil _ (Decimal.digitsOf_ne_nil _)
  have coefficient : ofDigits (['0'] ++ places) = decimal.coefficient :=
    (Decimal.ofDigits_zeros_append _ _).trans (Decimal.ofDigits_digitsOf _)
  have exponent : -(places.length : Int) = decimal.exponent := by
    have count : zeros.length = (-decimal.leadingExponent - 1).toNat :=
      List.length_replicate
    have shape := leadingExponent_eq decimal
    rw [List.length_append, count]
    omega
  have scanned :=
    scansAs_places wholeDigits (List.cons_ne_nil _ _) (fun _ => rfl) placesDigits
      placesNonempty (coefficient ▸ fits)
  rw [coefficient, exponent] at scanned
  unfold Layout.positional
  rwa [if_pos small]

variable (positive : 0 < decimal.coefficient)

include positive

/-- A numeral without places is written with a zero behind the point. -/
theorem scansAs_positional_of_whole
    (whole : 0 ≤ decimal.exponent)
    (fits :
      decimal.coefficient * powerOfTen (decimal.exponent.toNat + 1) ≤
        coefficientLimit) :
    ScansAs
      (Layout.positional (digitsOf decimal.coefficient) decimal.leadingExponent)
      ⟨decimal.coefficient * powerOfTen (decimal.exponent.toNat + 1), -1⟩ := by
  let front :=
    digitsOf decimal.coefficient ++ Layout.zeros decimal.exponent.toNat
  have frontDigits : ∀ digit ∈ front, digit.isDigit = true :=
    List.forall_mem_append.mpr
      ⟨fun _ => Decimal.isDigit_of_mem_digitsOf, isDigit_of_mem_zeros _⟩
  have frontNonempty : front ≠ [] :=
    List.append_ne_nil_of_left_ne_nil (Decimal.digitsOf_ne_nil _) _
  have noZeroInFront : front.head? = some '0' → front = ['0'] := by
    intro isZero
    rw [List.head?_append_of_ne_nil _ (Decimal.digitsOf_ne_nil _)] at isZero
    exact absurd isZero (Decimal.head?_digitsOf_ne_zero positive)
  have zeroDigit : ∀ digit ∈ ['0'], digit.isDigit = true :=
    isDigit_of_mem_zeros 1
  have coefficient :
      ofDigits (front ++ ['0']) =
        decimal.coefficient * powerOfTen (decimal.exponent.toNat + 1) := by
    have oneMore :
        front ++ ['0'] =
          digitsOf decimal.coefficient ++
            Layout.zeros (decimal.exponent.toNat + 1) := by
      rw [List.append_assoc]
      exact congrArg (digitsOf decimal.coefficient ++ ·) List.replicate_succ'.symm
    rw [oneMore, Decimal.ofDigits_append_zeros, Decimal.ofDigits_digitsOf]
  have scanned :=
    scansAs_places frontDigits frontNonempty noZeroInFront zeroDigit
      (List.cons_ne_nil _ _) (coefficient ▸ fits)
  rw [coefficient] at scanned
  have shape := leadingExponent_eq decimal
  have someDigits : 0 < (digitsOf decimal.coefficient).length :=
    Decimal.digitCount_pos _
  have notSmall : ¬ decimal.leadingExponent < 0 := by
    omega
  have enough :
      (digitsOf decimal.coefficient).length ≤
        (decimal.leadingExponent + 1).toNat := by
    omega
  have missing :
      (decimal.leadingExponent + 1).toNat -
          (digitsOf decimal.coefficient).length =
        decimal.exponent.toNat := by
    omega
  unfold Layout.positional
  rw [if_neg notSmall]
  dsimp only
  rw [if_pos enough, missing]
  exact scanned

/-- A numeral with places is written with the point among its digits. -/
theorem scansAs_positional_of_places
    (large : 0 ≤ decimal.leadingExponent)
    (places : decimal.exponent < 0)
    (fits : decimal.coefficient ≤ coefficientLimit) :
    ScansAs
      (Layout.positional (digitsOf decimal.coefficient) decimal.leadingExponent)
      decimal := by
  have shape := leadingExponent_eq decimal
  have allDigits :
      ∀ digit ∈ digitsOf decimal.coefficient, digit.isDigit = true :=
    fun _ => Decimal.isDigit_of_mem_digitsOf
  have notZero := Decimal.head?_digitsOf_ne_zero positive
  have value := Decimal.ofDigits_digitsOf decimal.coefficient
  unfold Layout.positional
  rw [if_neg (Int.not_lt.mpr large)]
  generalize digitsOf decimal.coefficient = digits at shape allDigits notZero value ⊢
  generalize isCount : (decimal.leadingExponent + 1).toNat = count
  have within : 0 < count ∧ count < digits.length := by
    omega
  have frontDigits : ∀ digit ∈ digits.take count, digit.isDigit = true :=
    fun digit member => allDigits digit (List.mem_of_mem_take member)
  have placesDigits : ∀ digit ∈ digits.drop count, digit.isDigit = true :=
    fun digit member => allDigits digit (List.mem_of_mem_drop member)
  have frontNonempty : digits.take count ≠ [] := by
    rw [Ne, ← List.length_eq_zero_iff, List.length_take]
    omega
  have placesNonempty : digits.drop count ≠ [] := by
    rw [Ne, ← List.length_eq_zero_iff, List.length_drop]
    omega
  have noZeroInFront :
      (digits.take count).head? = some '0' → digits.take count = ['0'] := by
    intro isZero
    rw [List.head?_take, if_neg (Nat.ne_of_gt within.1)] at isZero
    exact absurd isZero notZero
  have coefficient :
      ofDigits (digits.take count ++ digits.drop count) = decimal.coefficient := by
    rwa [List.take_append_drop]
  have exponent : -((digits.drop count).length : Int) = decimal.exponent := by
    rw [List.length_drop]
    omega
  have scanned :=
    scansAs_places frontDigits frontNonempty noZeroInFront placesDigits
      placesNonempty (coefficient ▸ fits)
  rw [coefficient, exponent] at scanned
  dsimp only
  rw [if_neg (Nat.not_le.mpr within.2)]
  exact scanned

/-- A numeral that is not written out has a point behind the first digit, if at all. -/
theorem scansAs_exponential
    (fits : decimal.coefficient ≤ coefficientLimit) :
    ScansAs
      (Layout.plain.exponential (digitsOf decimal.coefficient)
        decimal.leadingExponent)
      decimal := by
  have exponentScanned := scanExponent_exponential decimal.leadingExponent
  have shape := leadingExponent_eq decimal
  have allDigits :
      ∀ digit ∈ digitsOf decimal.coefficient, digit.isDigit = true :=
    fun _ => Decimal.isDigit_of_mem_digitsOf
  have notZero := Decimal.head?_digitsOf_ne_zero positive
  have coefficient := Decimal.ofDigits_digitsOf decimal.coefficient
  cases isDigits : digitsOf decimal.coefficient with
  | nil =>
      exact absurd isDigits (Decimal.digitsOf_ne_nil _)
  | cons first others =>
      rw [isDigits] at shape allDigits notZero coefficient
      obtain ⟨firstDigit, otherDigits⟩ := List.forall_mem_cons.mp allDigits
      have frontDigits : ∀ digit ∈ [first], digit.isDigit = true :=
        List.forall_mem_singleton.mpr firstDigit
      have noZeroInFront : [first].head? = some '0' → [first] = ['0'] :=
        fun isZero => absurd isZero notZero
      cases others with
      | nil =>
          have scanned :=
            scansAs_exponent frontDigits (List.cons_ne_nil _ _) noZeroInFront
              exponentScanned (coefficient ▸ fits)
          have exponent : decimal.leadingExponent = decimal.exponent := by
            rw [List.length_singleton] at shape
            omega
          have numeral :
              Decimal.mk (ofDigits [first]) decimal.leadingExponent = decimal := by
            rw [coefficient, exponent]
          rw [numeral] at scanned
          exact scanned
      | cons second rest =>
          have markStops :
              ∀ character ∈
                  ('e' ::
                    ((if decimal.leadingExponent < 0 then "-" else "+").toList ++
                      digitsOf decimal.leadingExponent.natAbs)).head?,
                character.isDigit = false := by
            rintro character ⟨⟩
            rfl
          have scanned :=
            scansAs_point frontDigits (List.cons_ne_nil _ _) noZeroInFront otherDigits
              (List.cons_ne_nil _ _) markStops exponentScanned (coefficient ▸ fits)
          have exponent :
              decimal.leadingExponent - (second :: rest).length =
                decimal.exponent := by
            rw [List.length_cons] at shape
            omega
          have numeral :
              Decimal.mk (ofDigits ([first] ++ second :: rest))
                  (decimal.leadingExponent - (second :: rest).length) =
                decimal := by
            rw [exponent]
            exact congrArg (Decimal.mk · decimal.exponent) coefficient
          rw [Option.getD_some, numeral] at scanned
          exact scanned

/-- What a numeral is written as is cut into the parts of what is written. -/
theorem scansAs_render
    (fits : (Layout.plain.written decimal).coefficient ≤ coefficientLimit) :
    ScansAs (Layout.plain.render decimal) (Layout.plain.written decimal) := by
  unfold Layout.written at fits ⊢
  unfold Layout.render
  dsimp only at fits ⊢
  by_cases writtenOut :
      Layout.plain.leastPositional ≤ decimal.leadingExponent ∧
        decimal.leadingExponent < Layout.plain.leastExponential
  · rw [if_pos writtenOut]
    by_cases whole : 0 ≤ decimal.exponent
    · rw [if_pos ⟨whole, writtenOut⟩] at fits ⊢
      exact scansAs_positional_of_whole positive whole fits
    · rw [if_neg fun both => whole both.1] at fits ⊢
      by_cases large : 0 ≤ decimal.leadingExponent
      · exact scansAs_positional_of_places positive large (Int.not_le.mp whole) fits
      · exact scansAs_positional_of_neg (Int.not_le.mp large) fits
  · rw [if_neg writtenOut]
    rw [if_neg fun both => writtenOut both.2] at fits ⊢
    exact scansAs_exponential positive fits

end Written

/-! ## Floats -/

/-- Behind a minus sign or without one, a numeral is seen as it is. -/
theorem scanSign_of_scanWhole
    {size : List Char}
    {scanned : List Char × List Char}
    (wholeScanned : scanWhole size = .ok scanned)
    (negative : Bool) :
    scanSign (if negative then '-' :: size else size) = (negative, size) := by
  cases negative with
  | true =>
      rfl
  | false =>
      cases size with
      | nil =>
          rfl
      | cons first rest =>
          by_cases minus : first = '-'
          · rw [minus] at wholeScanned
            exact absurd wholeScanned (scanWhole_ne_ok_of_not_isDigit rfl rest _)
          · simp [scanSign, minus]

/-- A numeral that is no integer has the float that it is read as for its value. -/
theorem numberValue_of_magnitude?
    {negative : Bool}
    {whole : List Char}
    {places : Option (List Char)}
    {exponent : Option Int}
    {number : Float}
    (noInteger : (places.isNone && exponent.isNone) = false)
    (isNegative : number.number.isNegative = negative)
    (read :
      (Decimal.ofParts whole (places.getD []) (exponent.getD 0)).magnitude? =
        some number.number.magnitude) :
    numberValue negative whole places exponent = .ok (.float number) := by
  have isNumber :
      Float.ofBinary64?
          (Binary64.ofMagnitude negative number.number.magnitude) =
        some number := by
    rw [← isNegative, Binary64.ofMagnitude_magnitude]
    exact dif_pos number.finite
  unfold numberValue
  simp only [noInteger, Bool.false_and, Bool.false_eq_true, reduceIte, read, isNumber]

/-- A float is read back if the numeral in its text is read as its magnitude. -/
theorem Float.readsBack_of_scansAs
    {number : Float}
    {size : List Char}
    {decimal : Decimal}
    (text :
      number.number.render.toList =
        if number.number.isNegative then '-' :: size else size)
    (scans : ScansAs size decimal)
    (read : decimal.magnitude? = some number.number.magnitude) :
    number.ReadsBack := by
  obtain ⟨whole, afterWhole, places, afterPlaces, exponent, wholeScanned,
    placesScanned, exponentScanned, noInteger, isNumeral⟩ := scans
  have signed := scanSign_of_scanWhole wholeScanned number.number.isNegative
  have value :=
    numberValue_of_magnitude? noInteger rfl (isNumeral ▸ read)
  unfold ReadsBack
  rw [text, scanNumber_eq_ok_iff, signed]
  refine
    ⟨whole, afterWhole, places, afterPlaces, exponent, wholeScanned, placesScanned,
      exponentScanned, ?_⟩
  rw [value]
  rfl

/-- Both zeros are read back. -/
theorem Float.readsBack_of_magnitude_eq_zero
    {number : Float}
    (isZero : number.number.magnitude = 0) :
    number.ReadsBack := by
  have zeroDigit : ∀ digit ∈ ['0'], digit.isDigit = true :=
    isDigit_of_mem_zeros 1
  have scans :=
    scansAs_places zeroDigit (List.cons_ne_nil _ _) (fun _ => rfl) zeroDigit
      (List.cons_ne_nil _ _) (by decide)
  have read :
      Decimal.magnitude? ⟨ofDigits (['0'] ++ ['0']), -(['0'].length : Int)⟩ =
        some number.number.magnitude := by
    rw [isZero]
    decide +kernel
  apply readsBack_of_scansAs _ scans read
  unfold Binary64.render
  rw [String.toList_ofList, if_pos isZero]
  rfl

/-- The numeral that stands in the text of a float. -/
def Float.numeral
    (number : Float) :
    Decimal :=
  Layout.plain.written (Decimal.shortest number.number.magnitude)

/-- The coefficient and the power of ten in the text of a float are numbers themselves. -/
def Float.IsExact
    (number : Float) :
    Prop :=
  number.numeral.IsExact

/-- A float is nearest to the numeral that stands in its text. -/
theorem Float.nearest_numeral
    {number : Float}
    (positive : 0 < number.number.magnitude) :
    number.numeral.nearest = number.number.magnitude := by
  unfold numeral
  rw [Decimal.nearest_written, Decimal.nearest_shortest positive]

/-- A float is read back if the numeral in its text is read exactly. -/
theorem Float.readsBack_of_isExact
    {number : Float}
    (isExact : number.IsExact) :
    number.ReadsBack := by
  by_cases isZero : number.number.magnitude = 0
  · exact readsBack_of_magnitude_eq_zero isZero
  · have positive : 0 < number.number.magnitude :=
      Nat.pos_of_ne_zero isZero
    have someDigits := Decimal.coefficient_shortest_pos positive
    have fits : number.numeral.coefficient ≤ coefficientLimit :=
      Nat.le_trans (Nat.le_of_lt isExact.coefficient) (by decide)
    have isNearest := nearest_numeral positive
    have finite : number.number.magnitude < Binary64.infinityMagnitude :=
      of_decide_eq_true number.finite
    have read :=
      Decimal.IsExact.magnitude?_eq isExact
        (Decimal.coefficient_written_pos _ someDigits) (isNearest.symm ▸ finite)
    rw [isNearest] at read
    apply readsBack_of_scansAs _ (scansAs_render someDigits fits) read
    unfold Binary64.render
    rw [String.toList_ofList, if_neg isZero]

/-- One half is a fraction of a few digits. -/
example : Float.ReadsBack ⟨⟨0x3fe0000000000000⟩, by decide⟩ := by
  decide +kernel

/-- Seventeen digits do not fit a number, and are rounded before they are divided. -/
example : ¬ Float.ReadsBack ⟨⟨0x40499fc44f1b2f60⟩, by decide⟩ := by
  decide +kernel

/-- Compact text of a tree is read back if each float in it is written exactly. -/
theorem TextLayer.compact_readsBack_of_isExact
    {tree : Json}
    (exactFloats :
      ∀ number, Scalar.float number ∈ tree.scalars → number.IsExact) :
    TextLayer.compact.ReadsBack tree := by
  apply compact_readsBack
  intro leaf member
  cases leaf with
  | float number =>
      exact Float.readsBack_of_isExact (exactFloats number member)
  | null | boolean _ | integer _ | string _ =>
      trivial

end Permission.Json
