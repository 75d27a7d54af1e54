import Permission.Proofs.Settings.Loaded

namespace Permission

/-!
# Saved settings

Settings are written with all of their fields, and each one is read back as it
was, except that the conditions of rules are read back as the tree says that
they are written as.
-/

open Json (Reading)

/-- What a rule is read as where it was written. -/
def Rule.reread
    (rule : Rule) :
    Except DomainError Rule :=
  ((Conditions.ofJson rule.conditions.toJson).mapError .meaning).map
    fun conditions => { rule with conditions := conditions }

/-! ## Reading what was written -/

section Outlines

variable {depth : Nat}

theorem Conditions.reading_outline
    {conditions : Conditions}
    (inOrder : conditions.InOrder)
    (shallow : conditions.toJson.depth ≤ depth) :
    Conditions.reading depth conditions.toJson.outline =
      (Conditions.ofJson conditions.toJson).mapError .meaning := by
  have treeRead := Json.Outline.tree_outline inOrder.toJson shallow
  unfold reading Reading.free
  rw [treeRead]
  rfl

namespace Rule

/-- All fields of a rule but its conditions are read as they are. -/
private theorem reading_outline_of_conditions
    {rule : Rule}
    {outcome : Except DomainError Conditions}
    (conditionsRead :
      Conditions.reading depth rule.conditions.toJson.outline = outcome) :
    Rule.reading (depth + 1) rule.toJson.outline =
      outcome.map fun conditions => { rule with conditions := conditions } := by
  have fieldRead :
      (draftField "conditions" Draft.conditions
          (fun draft conditions => { draft with conditions := some conditions })
          Conditions.reading).read depth rule.conditions.toJson.outline
          ⟨some rule.action, some rule.subject, none, none⟩ =
        outcome.map fun conditions =>
          ⟨some rule.action, some rule.subject, some conditions, none⟩ := by
    rw [← conditionsRead]
    rfl
  have membersRead :
      layout.readMembers depth
          (Json.outlineMembers
            [("action", .string rule.action.name),
              ("subject", .string rule.subject.name),
              ("conditions", rule.conditions.toJson),
              ("grants", .boolean rule.grants)])
          layout.blank =
        outcome.map fun conditions =>
          ⟨some rule.action, some rule.subject, some conditions,
            some rule.grants⟩ :=
    calc
      _ = layout.readMembers depth
            (Json.outlineMembers
              [("conditions", rule.conditions.toJson),
                ("grants", .boolean rule.grants)])
            ⟨some rule.action, some rule.subject, none, none⟩ :=
        rfl
      _ = outcome.map (fun conditions =>
              ⟨some rule.action, some rule.subject, some conditions, none⟩) >>=
            layout.readMembers depth
              (Json.outlineMembers [("grants", .boolean rule.grants)]) :=
        Reading.Layout.readMembers_of_field rfl rfl fieldRead
      _ = _ := by
        cases outcome <;> rfl
  unfold reading Reading.Layout.reading
  rw [toJson, Json.outline]
  dsimp only [Json.entering]
  rw [membersRead]
  cases outcome <;> rfl

theorem reading_outline
    {rule : Rule}
    (inOrder : rule.conditions.InOrder)
    (shallow : rule.toJson.depth ≤ depth) :
    Rule.reading depth rule.toJson.outline = rule.reread := by
  cases depth with
  | zero =>
      cases shallow
  | succ depth =>
      have shallowMembers := Json.depth_object_le_iff.mp shallow
      have shallowConditions : rule.conditions.toJson.depth ≤ depth :=
        shallowMembers ("conditions", rule.conditions.toJson) (by simp)
      exact reading_outline_of_conditions
        (Conditions.reading_outline inOrder shallowConditions)

/-- Rules are read back one by one. -/
theorem sequence_outline
    {rules : List Rule}
    (inOrder : ∀ rule ∈ rules, rule.conditions.InOrder)
    (shallow : (Json.array (rules.map toJson)).depth ≤ depth) :
    Reading.sequence Rule.reading depth (Json.array (rules.map toJson)).outline =
      rules.mapM reread := by
  cases depth with
  | zero =>
      cases shallow
  | succ depth =>
      have shallowRules := Json.depth_array_le_iff.mp shallow
      rw [List.forall_mem_map] at shallowRules
      have itemsRead :
          Reading.items Rule.reading depth
              (Json.outlineItems (rules.map toJson)) =
            rules.mapM reread := by
        rw [Reading.items_eq_mapM, Json.outlineItems_eq_map]
        apply List.mapM_eq_of_forall₂
        rw [List.map_map, List.forall₂_map_left_iff, List.forall₂_same]
        exact fun rule member =>
          reading_outline (inOrder rule member) (shallowRules rule member)
      unfold Reading.sequence
      rw [Json.outline]
      dsimp only [Json.entering]
      rw [itemsRead]
      cases rules.mapM reread <;> rfl

end Rule

namespace Settings

/-- All that settings say but their rules is read as it is. -/
private theorem reading_outline_of_rules
    {settings : Settings}
    {outcome : Except DomainError (List Rule)}
    (rulesRead :
      Reading.sequence Rule.reading (depth + 1)
          (Json.array (settings.rules.map Rule.toJson)).outline =
        outcome) :
    Settings.reading (depth + 2) settings.toJson.outline =
      outcome.map fun rules => { settings with rules := rules } := by
  have fieldRead :
      (draftField "rules" Draft.rules
          (fun draft rules => { draft with rules := some rules })
          (Reading.sequence Rule.reading)).read (depth + 1)
          (Json.array (settings.rules.map Rule.toJson)).outline
          ⟨some settings.precedence, some settings.enforcement, none⟩ =
        outcome.map fun rules =>
          ⟨some settings.precedence, some settings.enforcement, some rules⟩ := by
    rw [← rulesRead]
    rfl
  have membersRead :
      layout.readMembers (depth + 1)
          (Json.outlineMembers
            [("precedence", settings.precedence.toJson),
              ("evaluation", settings.enforcement.toJson),
              ("rules", .array (settings.rules.map Rule.toJson))])
          layout.blank =
        outcome.map fun rules =>
          ⟨some settings.precedence, some settings.enforcement, some rules⟩ :=
    calc
      _ = layout.readMembers (depth + 1)
            (Json.outlineMembers
              [("rules", .array (settings.rules.map Rule.toJson))])
            ⟨some settings.precedence, some settings.enforcement, none⟩ := by
        cases settings.precedence <;> cases settings.enforcement <;> rfl
      _ = outcome.map (fun rules =>
              ⟨some settings.precedence, some settings.enforcement,
                some rules⟩) >>=
            layout.readMembers (depth + 1) [] :=
        Reading.Layout.readMembers_of_field rfl rfl fieldRead
      _ = _ := by
        cases outcome <;> rfl
  unfold reading Reading.Layout.reading
  rw [toJson, Json.outline]
  dsimp only [Json.entering]
  rw [membersRead]
  cases outcome <;> rfl

/-- Settings are read back with the rules that their own are read back as. -/
theorem reading_outline
    {settings : Settings}
    (inOrder : settings.InOrder)
    (shallow : settings.toJson.depth ≤ depth) :
    Settings.reading depth settings.toJson.outline =
      (settings.rules.mapM Rule.reread).map
        fun rules => { settings with rules := rules } := by
  cases depth with
  | zero =>
      cases shallow
  | succ depth =>
      have shallowMembers := Json.depth_object_le_iff.mp shallow
      have shallowRules :
          (Json.array (settings.rules.map Rule.toJson)).depth ≤ depth :=
        shallowMembers ("rules", _) (by simp)
      cases depth with
      | zero =>
          cases shallowRules
      | succ depth =>
          exact reading_outline_of_rules
            (Rule.sequence_outline inOrder shallowRules)

end Settings

end Outlines

/-- Saved settings are loaded as the tree that they are written as says. -/
theorem Settings.ofText_toText
    {settings : Settings}
    {layer : Json.TextLayer}
    (inOrder : settings.InOrder)
    (shallow : settings.toJson.depth ≤ Json.nestingLimit)
    (readsBack : layer.ReadsBack settings.toJson) :
    ofText (settings.toText layer) layer =
      (settings.rules.mapM Rule.reread).map
        fun rules => { settings with rules := rules } := by
  unfold ofText toText Reading.run
  rw [readsBack]
  dsimp only
  rw [reading_outline inOrder shallow]
  cases settings.rules.mapM Rule.reread <;> rfl

/-! ## What survives -/

namespace Rule

theorem beq_iff
    {left right : Rule} :
    (left == right) = true ↔
      left.action = right.action ∧ left.subject = right.subject ∧
        (left.conditions == right.conditions) = true ∧
        left.grants = right.grants := by
  have parts :
      (left == right) =
        (left.action == right.action && left.subject == right.subject &&
          left.conditions == right.conditions && left.grants == right.grants) :=
    rfl
  rw [parts]
  simp only [Bool.and_eq_true, beq_iff_eq, and_assoc]

theorem reread_eq_ok_iff
    {rule read : Rule} :
    rule.reread = .ok read ↔
      ∃ conditions, Conditions.ofJson rule.conditions.toJson = .ok conditions ∧
        { rule with conditions := conditions } = read := by
  unfold reread
  simp only [Except.map_eq_ok_iff, Except.mapError_eq_ok_iff]

/-- A rule is read back as an equal one exactly if its conditions are writable. -/
theorem reread_beq_iff_writable
    (rule : Rule) :
    (∃ read, rule.reread = .ok read ∧ (read == rule) = true) ↔
      rule.conditions.Writable := by
  calc
    _ ↔ ∃ conditions,
          Conditions.ofJson rule.conditions.toJson = .ok conditions ∧
            (conditions == rule.conditions) = true := by
      constructor
      · rintro ⟨read, isRead, equal⟩
        obtain ⟨conditions, conditionsRead, rfl⟩ := reread_eq_ok_iff.mp isRead
        obtain ⟨-, -, conditionsEqual, -⟩ := beq_iff.mp equal
        exact ⟨conditions, conditionsRead, conditionsEqual⟩
      · rintro ⟨conditions, conditionsRead, conditionsEqual⟩
        exact ⟨_, reread_eq_ok_iff.mpr ⟨conditions, conditionsRead, rfl⟩,
          beq_iff.mpr ⟨rfl, rfl, conditionsEqual, rfl⟩⟩
    _ ↔ ∀ entry ∈ rule.conditions, ∃ read,
          Requirement.ofJson entry.2.toJson = .ok read ∧
            (read == entry.2) = true :=
      Conditions.ofMembers_toMembers_beq_iff
    _ ↔ rule.conditions.Writable :=
      forall₂_congr fun entry _ => entry.2.ofJson_toJson_beq_iff

theorem reread_of_writable
    {rule : Rule}
    (writable : rule.conditions.Writable) :
    rule.reread = .ok rule :=
  reread_eq_ok_iff.mpr
    ⟨_, rule.conditions.ofJson_toJson_of_writable writable, rfl⟩

end Rule

namespace Settings

variable {settings : Settings} {layer : Json.TextLayer}

theorem beq_iff
    {left right : Settings} :
    (left == right) = true ↔
      left.precedence = right.precedence ∧
        left.enforcement = right.enforcement ∧
        (left.rules == right.rules) = true := by
  have parts :
      (left == right) =
        (left.precedence == right.precedence &&
          left.enforcement == right.enforcement && left.rules == right.rules) :=
    rfl
  rw [parts]
  simp only [Bool.and_eq_true, beq_iff_eq, and_assoc]

section Text

variable
  (inOrder : settings.InOrder)
  (shallow : settings.toJson.depth ≤ Json.nestingLimit)
  (readsBack : layer.ReadsBack settings.toJson)

include inOrder shallow readsBack

/-- Saved settings are loaded as equal ones exactly if they are writable. -/
theorem ofText_toText_beq_iff_writable :
    (∃ read, ofText (settings.toText layer) layer = .ok read ∧
        (read == settings) = true) ↔
      settings.Writable := by
  rw [ofText_toText inOrder shallow readsBack]
  calc
    _ ↔ ∃ rules,
          List.Forall₂ (fun rule read => rule.reread = .ok read)
            settings.rules rules ∧ (rules == settings.rules) = true := by
      simp only [Except.map_eq_ok_iff, List.mapM_eq_ok_iff_forall₂]
      constructor
      · rintro ⟨_, ⟨rules, rulesRead, rfl⟩, equal⟩
        exact ⟨rules, rulesRead, (beq_iff.mp equal).2.2⟩
      · rintro ⟨rules, rulesRead, equal⟩
        exact ⟨_, ⟨rules, rulesRead, rfl⟩, beq_iff.mpr ⟨rfl, rfl, equal⟩⟩
    _ ↔ settings.Writable :=
      List.exists_forall₂_beq_iff.trans <|
        forall₂_congr fun rule _ => rule.reread_beq_iff_writable

/-- Writable settings are loaded as they were saved. -/
theorem ofText_toText_of_writable
    (writable : settings.Writable) :
    ofText (settings.toText layer) layer = .ok settings := by
  have rulesReread : settings.rules.mapM Rule.reread = .ok settings.rules := by
    rw [List.mapM_eq_ok_iff_forall₂, List.forall₂_same]
    exact fun rule member => Rule.reread_of_writable (writable rule member)
  rw [ofText_toText inOrder shallow readsBack, rulesReread]
  rfl

end Text

end Settings

end Permission
