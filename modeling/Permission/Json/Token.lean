import Permission.Json
import Permission.Decimal

namespace Permission.Json

/-!
# Tokens of JSON text

Text is cut into tokens from left to right.  What a reader may refuse depends on
how it looks at a token: a number out of the range of floats, or a surrogate
that stands alone, is a fault only to a reader that wants the value and not to
one that skips it.  A token therefore says both what it yields and what skipping
it yields.  A token that nobody can get past is the last one.
-/

/-- Why text cannot be read at some place. -/
inductive Fault where
  /-- The text goes on in a way that JSON does not. -/
  | malformed
  /-- The text ends too early. -/
  | incomplete
  deriving DecidableEq, Repr

/-- A scalar as it stands in the text. -/
structure Leaf where
  /-- It stands between quotes. -/
  quoted : Bool
  /-- What a reader of the value gets. -/
  value : Except Fault Scalar
  /-- What stops a reader that skips the value. -/
  obstacle : Option Fault

/-- A scalar without quotes that nobody can get past. -/
def Leaf.ofFault
    (fault : Fault) :
    Leaf :=
  ⟨false, .error fault, some fault⟩

/-- A token of JSON text. -/
inductive Token where
  | openArray
  | closeArray
  | openObject
  | closeObject
  | comma
  | colon
  | leaf (leaf : Leaf)
  | stray

/-- The text between two tokens. -/
def isBlank
    (character : Char) :
    Bool :=
  character = ' ' || character = '\t' || character = '\n' || character = '\r'

/-! ## Strings -/

/-- A part of a string: a character, or a code unit given by its digits. -/
inductive StringPart where
  | character (character : Char)
  | unit (code : Nat)

/-- A string cut into parts as far as it goes, and the text behind it. -/
structure StringScan where
  parts : List StringPart
  ending : Option Fault
  rest : List Char

namespace StringScan

def push
    (part : StringPart)
    (scan : StringScan) :
    StringScan :=
  { scan with parts := part :: scan.parts }

/-- A string that stops at a fault. -/
def broken
    (fault : Fault) :
    StringScan :=
  ⟨[], some fault, []⟩

end StringScan

/-- The character behind a backslash, other than a code unit. -/
def escaped?
    (character : Char) :
    Option Char :=
  match character with
  | '"' =>
      some '"'
  | '\\' =>
      some '\\'
  | '/' =>
      some '/'
  | 'b' =>
      some '\x08'
  | 'f' =>
      some '\x0c'
  | 'n' =>
      some '\n'
  | 'r' =>
      some '\r'
  | 't' =>
      some '\t'
  | _ =>
      none

def hexadecimalValue?
    (character : Char) :
    Option Nat :=
  "0123456789abcdef".toList.idxOf? character.toLower

/-- The code unit that four hexadecimal digits denote. -/
def codeUnit?
    (digits : List Char) :
    Option Nat :=
  (digits.mapM hexadecimalValue?).map fun values =>
    values.foldl (fun total value => 16 * total + value) 0

/-- How many bytes a text takes. -/
def byteCount
    (text : List Char) :
    Nat :=
  text.foldl (fun total character => total + character.utf8Size) 0

/-- Cuts the text behind an opening quote. -/
def scanString : List Char → StringScan
  | [] =>
      .broken .incomplete
  | '"' :: rest =>
      ⟨[], none, rest⟩
  | '\\' :: [] =>
      .broken .incomplete
  | '\\' :: 'u' :: first :: second :: third :: fourth :: rest =>
      match codeUnit? [first, second, third, fourth] with
      | some code =>
          (scanString rest).push (.unit code)
      | none =>
          .broken .malformed
  | '\\' :: 'u' :: rest =>
      .broken (if 4 ≤ byteCount rest then .malformed else .incomplete)
  | '\\' :: mark :: rest =>
      match escaped? mark with
      | some character =>
          (scanString rest).push (.character character)
      | none =>
          .broken .malformed
  | character :: rest =>
      if character.toNat < 0x20 then
        .broken .malformed
      else
        (scanString rest).push (.character character)

def isHighSurrogate
    (code : Nat) :
    Bool :=
  0xd800 ≤ code && code ≤ 0xdbff

def isLowSurrogate
    (code : Nat) :
    Bool :=
  0xdc00 ≤ code && code ≤ 0xdfff

def surrogatePair
    (high low : Nat) :
    Char :=
  Char.ofNat (0x10000 + 0x400 * (high - 0xd800) + (low - 0xdc00))

/--
The characters of a string.  A first half of a pair has to be followed by a
second one, and a second one by itself is a fault.
-/
def decodeParts
    (ending : Option Fault) :
    List StringPart → Except Fault (List Char)
  | [] =>
      match ending with
      | some fault =>
          .error fault
      | none =>
          .ok []
  | .character character :: rest =>
      (decodeParts ending rest).map (character :: ·)
  | [.unit code] =>
      if isHighSurrogate code then
        .error (ending.getD .malformed)
      else if isLowSurrogate code then
        .error .malformed
      else
        (decodeParts ending []).map (Char.ofNat code :: ·)
  | .unit code :: .unit next :: rest =>
      if isHighSurrogate code then
        if isLowSurrogate next then
          (decodeParts ending rest).map (surrogatePair code next :: ·)
        else
          .error .malformed
      else if isLowSurrogate code then
        .error .malformed
      else
        (decodeParts ending (.unit next :: rest)).map (Char.ofNat code :: ·)
  | .unit code :: .character next :: rest =>
      if isHighSurrogate code || isLowSurrogate code then
        .error .malformed
      else
        (decodeParts ending (.character next :: rest)).map
          (Char.ofNat code :: ·)

def StringScan.leaf
    (scan : StringScan) :
    Leaf where
  quoted :=
    true
  value :=
    (decodeParts scan.ending scan.parts).map fun characters =>
      .string (String.ofList characters)
  obstacle :=
    scan.ending

theorem length_rest_scanString_le
    (text : List Char) :
    (scanString text).rest.length ≤ text.length := by
  fun_induction scanString text <;>
    simp_all [StringScan.push, StringScan.broken] <;> omega

/-! ## Numbers -/

def leadingDigits
    (text : List Char) :
    List Char :=
  text.takeWhile Char.isDigit

def afterDigits
    (text : List Char) :
    List Char :=
  text.dropWhile Char.isDigit

/--
What there is in place of a digit that has to come.  At the end of the text a
reader of the number finds it cut short, while one that skips it finds no digit.
-/
def missingDigit
    (rest : List Char) :
    Leaf :=
  if rest.isEmpty then
    ⟨false, .error .incomplete, some .malformed⟩
  else
    .ofFault .malformed

def scanSign : List Char → Bool × List Char
  | '-' :: rest =>
      (true, rest)
  | text =>
      (false, text)

/-- Reads the digits in front of a point; a zero is not followed by another digit. -/
def scanWhole
    (text : List Char) :
    Except Leaf (List Char × List Char) :=
  match leadingDigits text with
  | [] =>
      .error (missingDigit text)
  | '0' :: _ :: _ =>
      .error (.ofFault .malformed)
  | digits =>
      .ok (digits, afterDigits text)

/-- Reads a point and the digits behind it, if there is one. -/
def scanFraction : List Char → Except Leaf (Option (List Char) × List Char)
  | '.' :: text =>
      match leadingDigits text with
      | [] =>
          .error (missingDigit text)
      | digits =>
          .ok (some digits, afterDigits text)
  | text =>
      .ok (none, text)

/-- Reads the sign of an exponent, if it has one. -/
def scanExponentSign : List Char → Bool × List Char
  | '-' :: rest =>
      (true, rest)
  | '+' :: rest =>
      (false, rest)
  | text =>
      (false, text)

def isExponentMark
    (character : Char) :
    Bool :=
  character = 'e' || character = 'E'

def scanExponent
    (text : List Char) :
    Except Leaf (Option Int × List Char) :=
  match text with
  | [] =>
      .ok (none, text)
  | mark :: rest =>
      if isExponentMark mark then
        let (negative, unsigned) := scanExponentSign rest
        match leadingDigits unsigned with
        | [] =>
            .error (missingDigit unsigned)
        | digits =>
            let size : Int := Decimal.ofDigits digits
            .ok (some (if negative then -size else size), afterDigits unsigned)
      else
        .ok (none, text)

/--
The scalar of a number.  Without point and exponent it is an integer if it fits,
except that a negative zero is a float; any other number is the float that its
numeral is read as, or a fault if that leads beyond the floats.
-/
def numberValue
    (negative : Bool)
    (whole : List Char)
    (fraction : Option (List Char))
    (exponent : Option Int) :
    Except Fault Scalar :=
  let size := Decimal.ofDigits whole
  let integer? :=
    if fraction.isNone && exponent.isNone && !(negative && size == 0) then
      Integer.ofInt? (if negative then -(size : Int) else size)
    else
      none
  match integer? with
  | some integer =>
      .ok (.integer integer)
  | none =>
      let decimal := Decimal.ofParts whole (fraction.getD []) (exponent.getD 0)
      match decimal.magnitude? with
      | some magnitude =>
          match Float.ofBinary64? (Binary64.ofMagnitude negative magnitude) with
          | some float =>
              .ok (.float float)
          | none =>
              .error .malformed
      | none =>
          .error .malformed

def scanNumber
    (text : List Char) :
    Except Leaf (Leaf × List Char) := do
  let (negative, unsigned) := scanSign text
  let (whole, afterWhole) ← scanWhole unsigned
  let (fraction, afterFraction) ← scanFraction afterWhole
  let (exponent, rest) ← scanExponent afterFraction
  return (⟨false, numberValue negative whole fraction exponent, none⟩, rest)

/-! ## Words and punctuation -/

/-- Reads the rest of a word. -/
def scanWord : List Char → List Char → Except Fault (List Char)
  | [], text =>
      .ok text
  | _ :: _, [] =>
      .error .incomplete
  | expected :: word, character :: text =>
      if character = expected then scanWord word text else .error .malformed

/-- The token that a character is by itself. -/
def punctuation?
    (character : Char) :
    Option Token :=
  match character with
  | '[' =>
      some .openArray
  | ']' =>
      some .closeArray
  | '\x7b' =>
      some .openObject
  | '\x7d' =>
      some .closeObject
  | ',' =>
      some .comma
  | ':' =>
      some .colon
  | _ =>
      none

/-- The rest of the word that a letter opens, and what the word stands for. -/
def word?
    (character : Char) :
    Option (List Char × Scalar) :=
  match character with
  | 'n' =>
      some ("ull".toList, .null)
  | 't' =>
      some ("rue".toList, .boolean true)
  | 'f' =>
      some ("alse".toList, .boolean false)
  | _ =>
      none

/--
Reads the token that a character opens, and the text behind it.  Nothing stands
behind a token that nobody can get past.
-/
def scanToken
    (character : Char)
    (rest : List Char) :
    Token × List Char :=
  match punctuation? character with
  | some token =>
      (token, rest)
  | none =>
      if character = '"' then
        let scan := scanString rest
        (.leaf scan.leaf, scan.rest)
      else if character = '-' || character.isDigit then
        match scanNumber (character :: rest) with
        | .ok (leaf, after) =>
            (.leaf leaf, after)
        | .error leaf =>
            (.leaf leaf, [])
      else
        match word? character with
        | some (word, meaning) =>
            match scanWord word rest with
            | .ok after =>
                (.leaf ⟨false, .ok meaning, none⟩, after)
            | .error fault =>
                (.leaf (.ofFault fault), [])
        | none =>
            (.stray, [])

/-! ## Every token takes a character -/

theorem length_afterDigits_le
    (text : List Char) :
    (afterDigits text).length ≤ text.length :=
  (List.dropWhile_sublist _).length_le

theorem length_afterDigits_lt
    {text : List Char}
    (some : leadingDigits text ≠ []) :
    (afterDigits text).length < text.length := by
  cases text with
  | nil =>
      simp [leadingDigits] at some
  | cons character rest =>
      by_cases digit : character.isDigit
      · simpa [afterDigits, digit] using
          Nat.lt_succ_of_le (length_afterDigits_le rest)
      · simp [leadingDigits, digit] at some

theorem length_scanSign_le
    (text : List Char) :
    (scanSign text).2.length ≤ text.length := by
  unfold scanSign
  split <;> simp

theorem length_scanWhole_lt
    {text digits rest : List Char}
    (scanned : scanWhole text = .ok (digits, rest)) :
    rest.length < text.length := by
  unfold scanWhole at scanned
  split at scanned
  · simp at scanned
  · simp at scanned
  · rename_i nonempty _
    simp only [Except.ok.injEq, Prod.mk.injEq] at scanned
    exact scanned.2 ▸ length_afterDigits_lt nonempty

theorem length_scanFraction_le
    {text rest : List Char}
    {digits : Option (List Char)}
    (scanned : scanFraction text = .ok (digits, rest)) :
    rest.length ≤ text.length := by
  unfold scanFraction at scanned
  split at scanned
  · rename_i fraction
    split at scanned
    · simp at scanned
    · simp only [Except.ok.injEq, Prod.mk.injEq] at scanned
      have bound := length_afterDigits_le fraction
      rw [scanned.2] at bound
      simp only [List.length_cons]
      omega
  · simp only [Except.ok.injEq, Prod.mk.injEq] at scanned
    simp [scanned.2]

theorem length_scanExponentSign_le
    (text : List Char) :
    (scanExponentSign text).2.length ≤ text.length := by
  unfold scanExponentSign
  split <;> simp

theorem length_scanExponent_le
    {text rest : List Char}
    {exponent : Option Int}
    (scanned : scanExponent text = .ok (exponent, rest)) :
    rest.length ≤ text.length := by
  unfold scanExponent at scanned
  split at scanned
  · simp only [Except.ok.injEq, Prod.mk.injEq] at scanned
    simp [scanned.2]
  · rename_i mark behind
    split at scanned
    · have signBound := length_scanExponentSign_le behind
      simp only at scanned
      split at scanned
      · simp at scanned
      · simp only [Except.ok.injEq, Prod.mk.injEq] at scanned
        have bound := length_afterDigits_le (scanExponentSign behind).2
        rw [scanned.2] at bound
        simp only [List.length_cons]
        omega
    · simp only [Except.ok.injEq, Prod.mk.injEq] at scanned
      simp [scanned.2]

theorem length_scanNumber_lt
    {text rest : List Char}
    {leaf : Leaf}
    (scanned : scanNumber text = .ok (leaf, rest)) :
    rest.length < text.length := by
  have signBound := length_scanSign_le text
  simp only [scanNumber, bind, Except.bind, pure, Except.pure] at scanned
  split at scanned
  · simp at scanned
  · rename_i whole wholeScanned
    have wholeBound := length_scanWhole_lt wholeScanned
    split at scanned
    · simp at scanned
    · rename_i fraction fractionScanned
      have fractionBound := length_scanFraction_le fractionScanned
      split at scanned
      · simp at scanned
      · rename_i exponent exponentScanned
        have exponentBound := length_scanExponent_le exponentScanned
        simp only [Except.ok.injEq, Prod.mk.injEq] at scanned
        rw [← scanned.2]
        omega

theorem length_scanWord_le
    {word text rest : List Char}
    (scanned : scanWord word text = .ok rest) :
    rest.length ≤ text.length := by
  induction word generalizing text with
  | nil =>
      simp [scanWord] at scanned
      simp [scanned]
  | cons expected word inductionHypothesis =>
      cases text with
      | nil =>
          simp [scanWord] at scanned
      | cons character text =>
          unfold scanWord at scanned
          split at scanned
          · have := inductionHypothesis scanned
            simp only [List.length_cons]
            omega
          · simp at scanned

theorem length_scanToken_le
    (character : Char)
    (rest : List Char) :
    (scanToken character rest).2.length ≤ rest.length := by
  unfold scanToken
  split
  · simp
  · split
    · exact length_rest_scanString_le rest
    · split
      · split
        · rename_i scanned
          have := length_scanNumber_lt scanned
          simp only [List.length_cons] at this
          simp only
          omega
        · simp
      · split
        · split
          · rename_i scanned
            exact length_scanWord_le scanned
          · simp
        · simp

/-- The tokens of a text, up to the first that nobody can get past. -/
def tokens : List Char → List Token
  | [] =>
      []
  | character :: rest =>
      if isBlank character then
        tokens rest
      else
        (scanToken character rest).1 :: tokens (scanToken character rest).2
termination_by text => text.length
decreasing_by
  · simp
  · have := length_scanToken_le character rest
    simp only [List.length_cons]
    omega

end Permission.Json
