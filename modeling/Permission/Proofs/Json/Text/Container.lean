import Permission.Proofs.Json.Text.Numbers

namespace Permission.Json

/-!
# Containers in a text

The machine that arranges tokens goes through arrays and objects in the same
way: behind an opening mark it takes parts, between which commas stand, up to a
closing mark.  Where each part is read as what is kept of it, the container is
read as a single value.
-/

/-! ## Steps of the machine -/

theorem tokens_cons
    {character : Char}
    {text rest : List Char}
    {token : Token}
    (notBlank : isBlank character = false)
    (scanned : scanToken character text = (token, rest)) :
    tokens (character :: text) = token :: tokens rest := by
  rw [tokens, notBlank, scanned]
  rfl

/-- Goes on with more tokens where a step has led to. -/
def Step.resume
    (step : Step)
    (rest : List Token) :
    Document :=
  match step with
  | .next expected frames =>
      arrange expected frames rest
  | .complete root =>
      ⟨root, if rest.isEmpty then none else some .malformed⟩
  | .stop document =>
      document

theorem arrange_cons
    (expected : Expected)
    (frames : List Frame)
    (token : Token)
    (rest : List Token) :
    arrange expected frames (token :: rest) =
      (step expected frames token).resume rest := by
  rw [arrange]
  cases step expected frames token <;> rfl

/-- Punctuation is one token, which leads to the next step. -/
theorem arrange_punctuation
    (character : Char)
    (token : Token)
    (isToken : punctuation? character = some token)
    (notBlank : isBlank character = false)
    (expected : Expected)
    (frames : List Frame)
    (text : List Char) :
    arrange expected frames (tokens (character :: text)) =
      (step expected frames token).resume (tokens text) := by
  have scanned : scanToken character text = (token, text) := by
    unfold scanToken
    rw [isToken]
  rw [tokens_cons notBlank scanned, arrange_cons]

/-- A value may come next. -/
def Expected.TakesValue
    (expected : Expected) :
    Prop :=
  expected = .value ∨ expected = .firstItem

theorem step_of_takesValue
    {expected : Expected}
    {token : Token}
    (takes : expected.TakesValue)
    (frames : List Frame)
    (goesOn : token ≠ .closeArray) :
    step expected frames token = stepValue frames token := by
  rcases takes with rfl | rfl
  · rfl
  · unfold step
    split <;> simp_all

/-! ## Parts behind commas -/

/-- The text of parts, each behind a comma. -/
def commaText
    (parts : List (List Char)) :
    List Char :=
  parts.flatMap (',' :: ·)

theorem intercalate_comma_cons
    (first : List Char)
    (others : List (List Char)) :
    [','].intercalate (first :: others) = first ++ commaText others := by
  induction others generalizing first with
  | nil =>
      simp [commaText]
  | cons second rest inductionHypothesis =>
      rw [List.intercalate_cons_cons, inductionHypothesis, List.append_assoc]
      rfl

/-- Behind a part stands a comma or the end of the container. -/
theorem numberEnds_commaText_append
    {closing : Char}
    (isClosing : closing = ']' ∨ closing = '\x7d')
    (parts : List (List Char))
    (rest : List Char) :
    NumberEnds (commaText parts ++ closing :: rest) := by
  intro character isFirst
  cases parts with
  | nil =>
      cases isFirst
      rcases isClosing with rfl | rfl <;> decide
  | cons part others =>
      cases isFirst
      decide

/-! ## Arrays and objects alike -/

/--
One kind of container: the marks around its parts, the states of the machine
between them, and what it keeps of each part.
-/
structure Container (α β : Type) where
  opening : Char
  closing : Char
  openToken : Token
  closeToken : Token
  /-- Where the first part or the end may come next. -/
  first : Expected
  /-- Where another part has to come next. -/
  again : Expected
  /-- Behind a part. -/
  after : Expected
  text : α → List Char
  summary : α → β
  frame : List β → Frame
  whole : List β → Outline
  isOpening : punctuation? opening = some openToken ∧ isBlank opening = false
  isClosing : punctuation? closing = some closeToken ∧ isBlank closing = false
  closes : closing = ']' ∨ closing = '\x7d'
  opens :
    ∀ frames, stepValue frames openToken = .next first (frame [] :: frames)
  notClosing : openToken ≠ .closeArray
  goesOn :
    ∀ done frames,
      step after (frame done :: frames) .comma =
        .next again (frame done :: frames)
  endsEmpty :
    ∀ frames,
      step first (frame [] :: frames) closeToken = .ofValue (whole []) frames
  ends :
    ∀ done frames,
      step after (frame done :: frames) closeToken =
        .ofValue (whole done.reverse) frames

namespace Container

variable {α β : Type} (container : Container α β)

/-- Wherever a part may come next, its text is read as what is kept of it. -/
def Reads
    (part : α) :
    Prop :=
  ∀ expected done frames rest,
    expected = container.first ∨ expected = container.again →
      NumberEnds rest →
        arrange expected (container.frame done :: frames)
            (tokens (container.text part ++ rest)) =
          arrange container.after
            (container.frame (container.summary part :: done) :: frames)
            (tokens rest)

/-- Behind a part of a container the others are read one after another. -/
theorem arrange_commaText
    {parts : List α}
    (partsRead : ∀ part ∈ parts, container.Reads part)
    (done : List β)
    (frames : List Frame)
    (rest : List Char) :
    arrange container.after (container.frame done :: frames)
        (tokens
          (commaText (parts.map container.text) ++ container.closing :: rest)) =
      (Step.ofValue
        (container.whole (done.reverse ++ parts.map container.summary))
        frames).resume (tokens rest) := by
  induction parts generalizing done with
  | nil =>
      obtain ⟨isToken, notBlank⟩ := container.isClosing
      have closed :=
        arrange_punctuation _ _ isToken notBlank container.after
          (container.frame done :: frames) rest
      rw [container.ends] at closed
      rw [List.map_nil, List.map_nil, List.append_nil]
      exact closed
  | cons part others inductionHypothesis =>
      obtain ⟨partRead, othersRead⟩ := List.forall_mem_cons.mp partsRead
      let remaining :=
        commaText (others.map container.text) ++ container.closing :: rest
      have endsPart : NumberEnds remaining :=
        numberEnds_commaText_append container.closes _ rest
      have behindComma :=
        arrange_punctuation ',' .comma rfl rfl container.after
          (container.frame done :: frames) (container.text part ++ remaining)
      rw [container.goesOn] at behindComma
      calc
        _ = arrange container.after (container.frame done :: frames)
              (tokens (',' :: (container.text part ++ remaining))) := by
          simp [remaining, commaText]
        _ = arrange container.again (container.frame done :: frames)
              (tokens (container.text part ++ remaining)) :=
          behindComma
        _ = arrange container.after
              (container.frame (container.summary part :: done) :: frames)
              (tokens remaining) :=
          partRead container.again done frames remaining (.inr rfl) endsPart
        _ = _ :=
          inductionHypothesis othersRead (container.summary part :: done)
        _ = _ := by
          rw [List.reverse_cons, List.append_assoc]
          rfl

/-- Between its marks a container is read as a single value. -/
theorem arrange_whole
    {parts : List α}
    {expected : Expected}
    (partsRead : ∀ part ∈ parts, container.Reads part)
    (takes : expected.TakesValue)
    (frames : List Frame)
    (rest : List Char) :
    arrange expected frames
        (tokens
          (container.opening ::
            ([','].intercalate (parts.map container.text) ++
              container.closing :: rest))) =
      (Step.ofValue (container.whole (parts.map container.summary))
        frames).resume (tokens rest) := by
  have opened (text : List Char) :
      arrange expected frames (tokens (container.opening :: text)) =
        arrange container.first (container.frame [] :: frames) (tokens text) := by
    obtain ⟨isToken, notBlank⟩ := container.isOpening
    rw [arrange_punctuation _ _ isToken notBlank,
      step_of_takesValue takes frames container.notClosing, container.opens]
    rfl
  cases parts with
  | nil =>
      obtain ⟨isToken, notBlank⟩ := container.isClosing
      have closed :=
        arrange_punctuation _ _ isToken notBlank container.first
          (container.frame [] :: frames) rest
      rw [container.endsEmpty] at closed
      exact (opened _).trans closed
  | cons part others =>
      obtain ⟨partRead, othersRead⟩ := List.forall_mem_cons.mp partsRead
      let remaining :=
        commaText (others.map container.text) ++ container.closing :: rest
      have endsPart : NumberEnds remaining :=
        numberEnds_commaText_append container.closes _ rest
      calc
        _ = arrange expected frames
              (tokens
                (container.opening :: (container.text part ++ remaining))) := by
          rw [List.map_cons, intercalate_comma_cons, List.append_assoc]
        _ = arrange container.first (container.frame [] :: frames)
              (tokens (container.text part ++ remaining)) :=
          opened _
        _ = arrange container.after
              (container.frame [container.summary part] :: frames)
              (tokens remaining) :=
          partRead container.first [] frames remaining (.inl rfl) endsPart
        _ = _ :=
          container.arrange_commaText othersRead [container.summary part] frames
            rest

end Container

end Permission.Json
