namespace Permission

/-!
# Identities of records

An identity is a 128-bit number.  Its text is the twenty-six digits of the
number in base thirty-two, over an alphabet that leaves out the letters I, L, O
and U.  Reading takes either case, and since twenty-six digits hold 130 bits,
it drops the two highest ones.  Writing and reading back gives the same
identity.
-/

/-- The identity of a stored record. -/
structure Identifier where
  number : BitVec 128
  deriving DecidableEq

namespace Identifier

/-- The digits of base thirty-two, in ascending order. -/
def alphabet : List Char :=
  "0123456789ABCDEFGHJKMNPQRSTVWXYZ".toList

def textLength : Nat :=
  26

/-- The character of a digit. -/
def digitChar
    (digit : Nat) :
    Char :=
  alphabet.getD digit '0'

/-- The digit of a character of either case. -/
def digitOf?
    (character : Char) :
    Option Nat :=
  alphabet.idxOf? character.toUpper

/-- The lowest `count` digits of a number, the highest of them first. -/
def lowDigits :
    Nat → Nat → List Nat
  | 0, _ =>
      []
  | count + 1, number =>
      lowDigits count (number / 32) ++ [number % 32]

/-- The number that digits denote, the highest first. -/
def ofDigits
    (digits : List Nat) :
    Nat :=
  digits.foldl (fun total digit => 32 * total + digit) 0

/-- The identity with a number, taken modulo `2 ^ 128`. -/
def ofNat
    (number : Nat) :
    Identifier :=
  ⟨BitVec.ofNat 128 number⟩

def render
    (identifier : Identifier) :
    String :=
  String.ofList ((lowDigits textLength identifier.number.toNat).map digitChar)

def ofText?
    (text : String) :
    Option Identifier :=
  if text.length = textLength then
    (text.toList.mapM digitOf?).map fun digits => ofNat (ofDigits digits)
  else
    none

theorem digitOf?_digitChar :
    ∀ digit < 32, digitOf? (digitChar digit) = some digit := by
  decide +kernel

theorem length_lowDigits
    (count number : Nat) :
    (lowDigits count number).length = count := by
  induction count generalizing number with
  | zero =>
      rfl
  | succ count inductionHypothesis =>
      simp [lowDigits, inductionHypothesis]

theorem mem_lowDigits_lt
    {count number digit : Nat}
    (member : digit ∈ lowDigits count number) :
    digit < 32 := by
  induction count generalizing number with
  | zero =>
      simp [lowDigits] at member
  | succ count inductionHypothesis =>
      rcases List.mem_append.1 member with earlier | last
      · exact inductionHypothesis earlier
      · have same : digit = number % 32 := by simpa using last
        omega

/-- Digits denote the number they were taken from, up to what they cannot hold. -/
theorem ofDigits_lowDigits
    (count number : Nat) :
    ofDigits (lowDigits count number) = number % Nat.pow 32 count := by
  induction count generalizing number with
  | zero =>
      simp [lowDigits, ofDigits, Nat.mod_one]
  | succ count inductionHypothesis =>
      have step :
          ofDigits (lowDigits (count + 1) number) =
            32 * ofDigits (lowDigits count (number / 32)) + number % 32 := by
        simp [lowDigits, ofDigits, List.foldl_append]
      have power : Nat.pow 32 (count + 1) = 32 * Nat.pow 32 count :=
        Nat.mul_comm (Nat.pow 32 count) 32
      rw [step, inductionHypothesis, power, Nat.mod_mul]
      omega

theorem mapM_digitOf?_map_digitChar
    (digits : List Nat)
    (small : ∀ digit ∈ digits, digit < 32) :
    (digits.map digitChar).mapM digitOf? = some digits := by
  induction digits with
  | nil =>
      rfl
  | cons digit rest inductionHypothesis =>
      have first := digitOf?_digitChar digit (small digit (by simp))
      have later :=
        inductionHypothesis fun other member =>
          small other (List.mem_cons_of_mem digit member)
      simp [List.mapM_cons, first, later]

/-- A written identity reads back as itself. -/
@[simp] theorem ofText?_render
    (identifier : Identifier) :
    ofText? identifier.render = some identifier := by
  have lengthEq : identifier.render.length = textLength := by
    simp [render, length_lowDigits]
  have digitsRead :=
    mapM_digitOf?_map_digitChar (lowDigits textLength identifier.number.toNat)
      fun _ member => mem_lowDigits_lt member
  have below : identifier.number.toNat < Nat.pow 32 textLength :=
    Nat.lt_trans identifier.number.isLt (by decide)
  have numberRead :
      ofNat (ofDigits (lowDigits textLength identifier.number.toNat)) =
        identifier := by
    rw [ofDigits_lowDigits, Nat.mod_eq_of_lt below, ofNat]
    cases identifier
    simp
  unfold ofText?
  rw [if_pos lengthEq]
  simp [render, digitsRead, numberRead]

end Identifier

end Permission
