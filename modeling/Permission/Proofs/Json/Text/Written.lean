import Permission.Proofs.Json.Text.Container
import Permission.Proofs.Json.Text.Strings

namespace Permission.Json

/-!
# Written trees are read back

The text of a tree is cut into the tokens that it was put together from, and the
machine that arranges tokens goes through the text of a tree as through a single
value: wherever a value may stand, it comes out with the outline of the tree in
its hand, at whatever stands behind.  The text of a tree therefore has the
outline of that tree.

Floats are taken on trust here, each by the text that it has: which of them are read
back is a question of rounding.
-/

/-! ## The scalars of a tree -/

mutual

/-- The trees without parts that a tree is made of, from left to right. -/
def scalars : Json → List Scalar
  | .scalar leaf =>
      [leaf]
  | .array items =>
      scalarsOfItems items
  | .object members =>
      scalarsOfMembers members

def scalarsOfItems : List Json → List Scalar
  | [] =>
      []
  | item :: rest =>
      scalars item ++ scalarsOfItems rest

def scalarsOfMembers : NameMap Json → List Scalar
  | [] =>
      []
  | (_, value) :: rest =>
      scalars value ++ scalarsOfMembers rest

end

theorem scalars_array
    (items : List Json) :
    scalars (.array items) = items.flatMap scalars := by
  rw [scalars]
  induction items with
  | nil =>
      rfl
  | cons item rest inductionHypothesis =>
      rw [scalarsOfItems, inductionHypothesis, List.flatMap_cons]

theorem scalars_object
    (members : NameMap Json) :
    scalars (.object members) = members.flatMap fun member => member.2.scalars := by
  rw [scalars]
  induction members with
  | nil =>
      rfl
  | cons member rest inductionHypothesis =>
      rw [scalarsOfMembers, inductionHypothesis, List.flatMap_cons]

/-- The text of a scalar is read back, which is only in doubt for floats. -/
def Scalar.ReadsBack : Scalar → Prop
  | .float number =>
      number.ReadsBack
  | _ =>
      True

instance (leaf : Scalar) : Decidable leaf.ReadsBack :=
  match leaf with
  | .float number =>
      inferInstanceAs (Decidable number.ReadsBack)
  | .null | .boolean _ | .integer _ | .string _ =>
      isTrue trivial

/-- Each float in a tree is read back from its text. -/
def FloatsReadBack
    (tree : Json) :
    Prop :=
  ∀ leaf ∈ tree.scalars, leaf.ReadsBack

instance (tree : Json) : Decidable tree.FloatsReadBack :=
  inferInstanceAs (Decidable (∀ leaf ∈ tree.scalars, leaf.ReadsBack))

theorem FloatsReadBack.item
    {items : List Json}
    (floats : FloatsReadBack (.array items))
    {item : Json}
    (member : item ∈ items) :
    item.FloatsReadBack := by
  intro leaf held
  apply floats
  rw [scalars_array]
  exact List.mem_flatMap_of_mem member held

theorem FloatsReadBack.member
    {members : NameMap Json}
    (floats : FloatsReadBack (.object members))
    {member : String × Json}
    (held : member ∈ members) :
    member.2.FloatsReadBack := by
  intro leaf inside
  apply floats
  rw [scalars_object]
  exact List.mem_flatMap_of_mem held inside

/-! ## Tokens of scalars -/

/-- A number is one token. -/
theorem tokens_of_scanNumber
    {text rest : List Char}
    {leaf : Leaf}
    (scanned : scanNumber text = .ok (leaf, rest)) :
    tokens text = .leaf leaf :: tokens rest := by
  obtain ⟨first, others, rfl, opens⟩ := exists_cons_of_scanNumber scanned
  exact tokens_cons (opens_number opens).2.2 (scanToken_of_scanNumber opens scanned)

/-- A string is one token. -/
theorem tokens_renderString
    (text : String)
    (rest : List Char) :
    tokens ((renderString text).toList ++ rest) =
      .leaf (.ofScalar (.string text)) :: tokens rest := by
  have shape :
      (renderString text).toList ++ rest =
        '"' :: (text.toList.flatMap escapeCharacter ++ '"' :: rest) := by
    unfold renderString
    rw [String.toList_ofList]
    simp
  rw [shape]
  exact tokens_cons rfl (scanToken_renderString text rest)

/-- A scalar is one token, if no part of a number stands behind it. -/
theorem tokens_scalar
    {leaf : Scalar}
    {rest : List Char}
    (readsBack : leaf.ReadsBack)
    (ends : NumberEnds rest) :
    tokens (leaf.render.toList ++ rest) =
      .leaf (.ofScalar leaf) :: tokens rest := by
  cases leaf with
  | null =>
      exact tokens_cons rfl rfl
  | boolean truth =>
      cases truth with
      | false =>
          exact tokens_cons rfl rfl
      | true =>
          exact tokens_cons rfl rfl
  | integer number =>
      exact tokens_of_scanNumber
        (scanNumber_append ends (scanNumber_toString number))
  | float number =>
      exact tokens_of_scanNumber (scanNumber_append ends readsBack)
  | string text =>
      exact tokens_renderString text rest

/-! ## Trees as values -/

/-- A key may come next. -/
def Expected.TakesKey
    (expected : Expected) :
    Prop :=
  expected = .firstKey ∨ expected = .nextKey

theorem step_key
    {expected : Expected}
    (takes : expected.TakesKey)
    (members : List (Outline × Outline))
    (frames : List Frame)
    (name : String) :
    step expected (.object members :: frames)
        (.leaf (.ofScalar (.string name))) =
      .next (.colon (keyOutline name)) (.object members :: frames) := by
  rcases takes with rfl | rfl <;> rfl

/--
Wherever a value may come next, the text of the tree is read as its outline, and
reading goes on behind it.
-/
def ReadsAsValue
    (tree : Json) :
    Prop :=
  ∀ expected frames rest, expected.TakesValue → NumberEnds rest →
    arrange expected frames (tokens (tree.render.toList ++ rest)) =
      (Step.ofValue tree.outline frames).resume (tokens rest)

theorem readsAsValue_scalar
    {leaf : Scalar}
    (readsBack : leaf.ReadsBack) :
    ReadsAsValue (.scalar leaf) := by
  intro expected frames rest takes ends
  have onlyToken := tokens_scalar readsBack ends
  have stepped :
      step expected frames (.leaf (.ofScalar leaf)) =
        .ofValue (.leaf (.ofScalar leaf)) frames :=
    step_of_takesValue takes frames nofun
  rw [render, onlyToken, arrange_cons, stepped]
  rfl

/-! ## Arrays -/

/-- Arrays keep the outlines of their items. -/
def arrayContainer : Container Json Outline where
  opening := '['
  closing := ']'
  openToken := .openArray
  closeToken := .closeArray
  first := .firstItem
  again := .value
  after := .afterItem
  text := fun item => item.render.toList
  summary := outline
  frame := .array
  whole := fun items => .array items none
  isOpening := ⟨rfl, rfl⟩
  isClosing := ⟨rfl, rfl⟩
  closes := .inl rfl
  opens := fun _ => rfl
  notClosing := nofun
  goesOn := fun _ _ => rfl
  endsEmpty := fun _ => rfl
  ends := fun _ _ => rfl

theorem toList_render_array
    (items : List Json) :
    (render (.array items)).toList =
      '[' :: ([','].intercalate (items.map fun item => item.render.toList) ++
        [']']) := by
  have ofItems : renderItems items = items.map render := by
    induction items with
    | nil =>
        rfl
    | cons item rest inductionHypothesis =>
        rw [renderItems, inductionHypothesis, List.map_cons]
  rw [render, ofItems]
  simp [String.toList_append, String.toList_intercalate, Function.comp_def]

theorem readsAsValue_array
    {items : List Json}
    (readAsValues : ∀ item ∈ items, item.ReadsAsValue) :
    ReadsAsValue (.array items) := by
  have itemsRead : ∀ item ∈ items, arrayContainer.Reads item := by
    intro item member expected done frames rest takes ends
    exact readAsValues item member expected (.array done :: frames) rest
      takes.symm ends
  intro expected frames rest takes _
  have read := arrayContainer.arrange_whole itemsRead takes frames rest
  rw [toList_render_array, outline, outlineItems_eq_map, List.cons_append,
    List.append_assoc]
  exact read

/-! ## Objects -/

/-- The text of a member. -/
def memberText
    (member : String × Json) :
    List Char :=
  (renderString member.1).toList ++ ':' :: member.2.render.toList

/-- Objects keep the outlines of their members. -/
def objectContainer : Container (String × Json) (Outline × Outline) where
  opening := '\x7b'
  closing := '\x7d'
  openToken := .openObject
  closeToken := .closeObject
  first := .firstKey
  again := .nextKey
  after := .afterMember
  text := memberText
  summary := memberOutline
  frame := .object
  whole := fun members => .object members none
  isOpening := ⟨rfl, rfl⟩
  isClosing := ⟨rfl, rfl⟩
  closes := .inr rfl
  opens := fun _ => rfl
  notClosing := nofun
  goesOn := fun _ _ => rfl
  endsEmpty := fun _ => rfl
  ends := fun _ _ => rfl

theorem toList_render_object
    (members : NameMap Json) :
    (render (.object members)).toList =
      '\x7b' :: ([','].intercalate (members.map memberText) ++ ['\x7d']) := by
  have ofMembers :
      (renderMembers members).map String.toList = members.map memberText := by
    induction members with
    | nil =>
        rfl
    | cons member rest inductionHypothesis =>
        rw [renderMembers, List.map_cons, inductionHypothesis, List.map_cons]
        simp [memberText]
  rw [render, ← ofMembers]
  simp [String.toList_append, String.toList_intercalate]

/-- A member is read where a key may come next. -/
theorem arrange_member
    {expected : Expected}
    {member : String × Json}
    {rest : List Char}
    (takes : expected.TakesKey)
    (readsAsValue : member.2.ReadsAsValue)
    (ends : NumberEnds rest)
    (done : List (Outline × Outline))
    (frames : List Frame) :
    arrange expected (.object done :: frames)
        (tokens (memberText member ++ rest)) =
      arrange .afterMember (.object (memberOutline member :: done) :: frames)
        (tokens rest) := by
  let behindColon := member.2.render.toList ++ rest
  calc
    _ = arrange expected (.object done :: frames)
          (tokens
            ((renderString member.1).toList ++ ':' :: behindColon)) := by
      simp [memberText, behindColon]
    _ = arrange (.colon (keyOutline member.1)) (.object done :: frames)
          (tokens (':' :: behindColon)) := by
      rw [tokens_renderString, arrange_cons, step_key takes]
      rfl
    _ = arrange .value (.member done (keyOutline member.1) :: frames)
          (tokens behindColon) :=
      arrange_punctuation ':' .colon rfl rfl _ _ _
    _ = _ :=
      readsAsValue .value _ rest (.inl rfl) ends

theorem readsAsValue_object
    {members : NameMap Json}
    (readAsValues : ∀ member ∈ members, member.2.ReadsAsValue) :
    ReadsAsValue (.object members) := by
  have membersRead : ∀ member ∈ members, objectContainer.Reads member := by
    intro member held expected done frames rest takes ends
    exact arrange_member takes (readAsValues member held) ends done frames
  intro expected frames rest takes _
  have read := objectContainer.arrange_whole membersRead takes frames rest
  rw [toList_render_object, outline, outlineMembers_eq_map, List.cons_append,
    List.append_assoc]
  exact read

/-! ## Trees -/

/-- Any tree is read from its text wherever a value may come next. -/
theorem readsAsValue
    (tree : Json)
    (floats : tree.FloatsReadBack) :
    tree.ReadsAsValue := by
  induction tree using Json.inductionOn with
  | scalar leaf =>
      exact readsAsValue_scalar (floats leaf (List.mem_singleton_self leaf))
  | array items inductionHypothesis =>
      exact readsAsValue_array fun item member =>
        inductionHypothesis item member (floats.item member)
  | object members inductionHypothesis =>
      exact readsAsValue_object fun member held =>
        inductionHypothesis member held (floats.member held)

/-- Compact text of a tree is read back, if that of each float in it is. -/
theorem TextLayer.compact_readsBack
    {tree : Json}
    (floats : tree.FloatsReadBack) :
    TextLayer.compact.ReadsBack tree := by
  have nothingBehind : NumberEnds [] := nofun
  have read :=
    readsAsValue tree floats .value [] [] (.inl rfl) nothingBehind
  rw [List.append_nil] at read
  exact read.trans (by simp [tokens, Step.ofValue, afterValue, Step.resume])

end Permission.Json
