import Mathlib.Data.List.Basic
import Permission.Decimal.Layout

namespace Permission.Decimal

/-!
# Digits

The digits of a number have no zero in front, and they denote the number that they
were made from.  Zeros in front of a run of digits count for nothing, and each one
behind it for a power of ten.  As long as a run denotes what fits sixty-four bits, no
digit of it is left over.
-/

/-! ## Digits of a number -/

variable {natural : Nat}

theorem isDigit_of_mem_digitsOf
    {character : Char}
    (member : character ∈ digitsOf natural) :
    character.isDigit = true :=
  Nat.isDigit_of_mem_toDigits (by decide) (by decide) member

theorem ofDigits_digitsOf
    (natural : Nat) :
    ofDigits (digitsOf natural) = natural :=
  Nat.ofDigitChars_toDigits (by decide) (by decide)

theorem digitsOf_ne_nil
    (natural : Nat) :
    digitsOf natural ≠ [] := by
  unfold digitsOf
  rw [Nat.toDigits_eq_if (by decide)]
  split <;> simp

theorem digitCount_pos
    (natural : Nat) :
    0 < digitCount natural :=
  List.length_pos_of_ne_nil (digitsOf_ne_nil natural)

theorem digitChar_ne_zero :
    ∀ digit < 10, 0 < digit → Nat.digitChar digit ≠ '0' := by
  decide

/-- No digits of a positive number begin with a zero. -/
theorem head?_digitsOf_ne_zero
    (positive : 0 < natural) :
    (digitsOf natural).head? ≠ some '0' := by
  induction natural using Nat.strongRecOn with
  | ind natural inductionHypothesis =>
      unfold digitsOf at inductionHypothesis ⊢
      rw [Nat.toDigits_eq_if (by decide)]
      by_cases small : natural < 10
      · rw [if_pos small]
        have nonzero := digitChar_ne_zero natural small positive
        exact fun isZero => nonzero (Option.some.inj isZero)
      · rw [if_neg small]
        have fewer : natural / 10 < natural := by
          omega
        have rest := inductionHypothesis (natural / 10) fewer (by omega)
        have nonempty : Nat.toDigits 10 (natural / 10) ≠ [] :=
          digitsOf_ne_nil (natural / 10)
        rwa [List.head?_append_of_ne_nil _ nonempty]

/-- The leading digit of a positive number counts for a power of ten within it. -/
theorem powerOfTen_digitCount_le
    (positive : 0 < natural) :
    powerOfTen (digitCount natural - 1) ≤ natural := by
  by_contra more
  rw [Nat.not_le] at more
  have severalDigits : 0 < digitCount natural - 1 := by
    by_contra single
    rw [Nat.eq_zero_of_not_pos single] at more
    exact absurd more (Nat.not_lt.mpr positive)
  have fewer : digitCount natural ≤ digitCount natural - 1 :=
    (Nat.length_toDigits_le_iff (by decide) severalDigits).mpr more
  omega

/-! ## Runs of digits -/

theorem powerOfTen_pos
    (exponent : Nat) :
    0 < powerOfTen exponent :=
  Nat.pow_pos (by decide)

theorem powerOfTen_succ
    (exponent : Nat) :
    powerOfTen (exponent + 1) = powerOfTen exponent * 10 :=
  Nat.pow_succ 10 exponent

theorem powerOfTen_add
    (left right : Nat) :
    powerOfTen (left + right) = powerOfTen left * powerOfTen right :=
  Nat.pow_add 10 left right

theorem ofDigits_append
    (front behind : List Char) :
    ofDigits (front ++ behind) = behind.foldl appendDigit (ofDigits front) :=
  List.foldl_append

theorem ofDigits_zeros_append
    (count : Nat)
    (digits : List Char) :
    ofDigits (Layout.zeros count ++ digits) = ofDigits digits := by
  induction count with
  | zero =>
      rfl
  | succ count inductionHypothesis =>
      exact inductionHypothesis

theorem ofDigits_append_zeros
    (digits : List Char)
    (count : Nat) :
    ofDigits (digits ++ Layout.zeros count) = ofDigits digits * powerOfTen count := by
  rw [ofDigits_append]
  generalize ofDigits digits = front
  induction count generalizing front with
  | zero =>
      exact (Nat.mul_one front).symm
  | succ count inductionHypothesis =>
      have shifted : appendDigit front '0' = front * 10 :=
        Nat.mul_comm 10 front
      calc
        (Layout.zeros (count + 1)).foldl appendDigit front =
            (Layout.zeros count).foldl appendDigit (appendDigit front '0') :=
          rfl
        _ = front * 10 * powerOfTen count := by
          rw [inductionHypothesis, shifted]
        _ = front * powerOfTen (count + 1) := by
          rw [powerOfTen_succ, Nat.mul_assoc, Nat.mul_comm 10]

/-! ## Digits that are kept -/

/-- Digits make a number no smaller. -/
theorem le_foldl_appendDigit
    (digits : List Char)
    (coefficient : Nat) :
    coefficient ≤ digits.foldl appendDigit coefficient := by
  induction digits generalizing coefficient with
  | nil =>
      exact Nat.le_refl coefficient
  | cons digit rest inductionHypothesis =>
      have extended : coefficient ≤ appendDigit coefficient digit := by
        unfold appendDigit
        omega
      exact Nat.le_trans extended (inductionHypothesis _)

/-- What fits the limit is kept whole. -/
theorem appendDigits_eq
    {coefficient : Nat}
    {digits : List Char}
    (fits : digits.foldl appendDigit coefficient ≤ coefficientLimit) :
    appendDigits coefficient digits = (digits.foldl appendDigit coefficient, 0) := by
  induction digits generalizing coefficient with
  | nil =>
      rfl
  | cons digit rest inductionHypothesis =>
      have extendedFits : appendDigit coefficient digit ≤ coefficientLimit :=
        Nat.le_trans (le_foldl_appendDigit rest _) fits
      unfold appendDigits
      dsimp only
      rw [if_pos extendedFits, inductionHypothesis fits]
      rfl

/-- A numeral whose digits fit the limit has all of them in its coefficient. -/
theorem ofParts_eq
    {whole places : List Char}
    (fits : ofDigits (whole ++ places) ≤ coefficientLimit)
    (exponent : Int) :
    ofParts whole places exponent =
      ⟨ofDigits (whole ++ places), exponent - places.length⟩ := by
  rw [ofDigits_append] at fits ⊢
  have wholeFits : whole.foldl appendDigit 0 ≤ coefficientLimit :=
    Nat.le_trans (le_foldl_appendDigit places _) fits
  have front : appendDigits 0 whole = (ofDigits whole, 0) :=
    appendDigits_eq wholeFits
  have behind := appendDigits_eq fits
  unfold ofParts
  simp [front, behind]

end Permission.Decimal
