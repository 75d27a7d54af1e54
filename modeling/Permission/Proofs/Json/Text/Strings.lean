import Permission.Proofs.Json.Tree

namespace Permission.Json

/-!
# Written strings are read back

Between its quotes a string is written character by character: most characters
stand for themselves, quotes and backslashes stand behind a backslash, and
control characters have a letter or are given as a code unit.  Each of these is
cut as one part, which is decoded as the character.
-/

/-- A part of a string that is decoded as a character. -/
inductive StringPart.Spells (character : Char) : StringPart → Prop where
  | itself :
      Spells character (.character character)
  | unit
      (control : character.toNat < 0x20) :
      Spells character (.unit character.toNat)

theorem codeUnit?_of_control :
    ∀ code < 0x20,
      codeUnit?
          ['0', '0', hexadecimalDigit (code / 16),
            hexadecimalDigit (code % 16)] =
        some code := by
  decide

theorem scanString_of_plain
    {character : Char}
    (notQuote : character ≠ '"')
    (notBackslash : character ≠ '\\')
    (printable : ¬ character.toNat < 0x20)
    (rest : List Char) :
    scanString (character :: rest) =
      (scanString rest).push (.character character) := by
  rw [scanString.eq_def]
  split
  case h_7 =>
    rename_i same
    obtain ⟨rfl, rfl⟩ := List.cons.inj same
    rw [if_neg printable]
  all_goals simp_all

/-- What a character is written as is cut as one part, which spells it. -/
theorem scanString_escapeCharacter
    (character : Char)
    (rest : List Char) :
    ∃ part, part.Spells character ∧
      scanString (escapeCharacter character ++ rest) =
        (scanString rest).push part := by
  unfold escapeCharacter
  split
  case h_8 notQuote notBackslash _ _ _ _ _ =>
    dsimp only
    by_cases control : character.toNat < 0x20
    · rw [if_pos control]
      refine ⟨.unit character.toNat, .unit control, ?_⟩
      simp only [List.cons_append, List.nil_append]
      rw [scanString, codeUnit?_of_control _ control]
    · rw [if_neg control]
      exact ⟨.character character, .itself,
        scanString_of_plain notQuote notBackslash control rest⟩
  all_goals exact ⟨.character _, .itself, rfl⟩

/-- A string is cut into parts that spell it, up to its closing quote. -/
theorem scanString_flatMap_escapeCharacter
    (text rest : List Char) :
    ∃ parts, List.Forall₂ (fun character part => part.Spells character)
        text parts ∧
      scanString (text.flatMap escapeCharacter ++ '"' :: rest) =
        ⟨parts, none, rest⟩ := by
  induction text with
  | nil =>
      exact ⟨[], .nil, rfl⟩
  | cons character text inductionHypothesis =>
      obtain ⟨parts, spelt, scanned⟩ := inductionHypothesis
      obtain ⟨part, spells, first⟩ :=
        scanString_escapeCharacter character
          (text.flatMap escapeCharacter ++ '"' :: rest)
      refine ⟨part :: parts, .cons spells spelt, ?_⟩
      rw [List.flatMap_cons, List.append_assoc, first, scanned]
      rfl

theorem decodeParts_cons_of_spells
    {ending : Option Fault}
    {character : Char}
    {part : StringPart}
    {rest : List StringPart}
    (spells : part.Spells character) :
    decodeParts ending (part :: rest) =
      (decodeParts ending rest).map (character :: ·) := by
  cases spells with
  | itself =>
      rw [decodeParts]
  | unit control =>
      have notHigh : isHighSurrogate character.toNat = false := by
        simp only [isHighSurrogate, Bool.and_eq_false_iff,
          decide_eq_false_iff_not]
        omega
      have notLow : isLowSurrogate character.toNat = false := by
        simp only [isLowSurrogate, Bool.and_eq_false_iff,
          decide_eq_false_iff_not]
        omega
      cases rest with
      | nil =>
          simp [decodeParts, notHigh, notLow]
      | cons next others =>
          cases next <;> simp [decodeParts, notHigh, notLow]

/-- Parts that spell a text are decoded as that text. -/
theorem decodeParts_of_spells
    {text : List Char}
    {parts : List StringPart}
    (spelt :
      List.Forall₂ (fun character part => part.Spells character) text parts) :
    decodeParts none parts = .ok text := by
  induction spelt with
  | nil =>
      rfl
  | cons spells spelt inductionHypothesis =>
      rw [decodeParts_cons_of_spells spells, inductionHypothesis]
      rfl

/-- Behind its opening quote a written string is read as the string. -/
theorem scanToken_renderString
    (text : String)
    (rest : List Char) :
    scanToken '"' (text.toList.flatMap escapeCharacter ++ '"' :: rest) =
      (.leaf (.ofScalar (.string text)), rest) := by
  obtain ⟨parts, spelt, scanned⟩ :=
    scanString_flatMap_escapeCharacter text.toList rest
  have read :
      StringScan.leaf ⟨parts, none, rest⟩ = .ofScalar (.string text) := by
    unfold StringScan.leaf
    rw [decodeParts_of_spells spelt, Except.map, String.ofList_toList]
    rfl
  change (Token.leaf (scanString _).leaf, (scanString _).rest) = _
  rw [scanned, read]

end Permission.Json
