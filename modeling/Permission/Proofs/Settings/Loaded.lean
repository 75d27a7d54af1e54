import Permission.Proofs.Conditions.Order
import Permission.Proofs.Json.Reading
import Permission.Settings.Reading

namespace Permission

/-!
# Loaded settings

Whatever text settings are loaded from, the conditions of their rules come from
trees.  They are therefore in order, and nothing in them is written like
something else.
-/

open Json (Reading)

namespace Settings

/-- The conditions of all rules are in the order of their names, at every depth. -/
def InOrder
    (settings : Settings) :
    Prop :=
  ∀ rule ∈ settings.rules, rule.conditions.InOrder

/-- Nothing in the conditions of any rule is written like something else. -/
def Writable
    (settings : Settings) :
    Prop :=
  ∀ rule ∈ settings.rules, rule.conditions.Writable

end Settings

/-- A field keeps what holds of a draft that has been given what the field reads. -/
theorem keeps_draftField
    {σ α : Type}
    {name : String}
    {get : σ → Option α}
    {set : σ → α → σ}
    {reading : DomainReading α}
    {good : σ → Prop}
    (keeps :
      ∀ depth outline draft value,
        good draft → reading depth outline = .ok value → good (set draft value)) :
    (draftField name get set reading).Keeps good := by
  intro depth outline draft extended isGood fieldRead
  obtain ⟨value, valueRead, shape⟩ := Except.bind_eq_ok_iff.mp fieldRead
  rw [← Except.pure_eq_ok_iff.mp shape]
  exact keeps depth outline draft value isGood valueRead

/-- Conditions that are read, wherever they stand, are writable and in order. -/
theorem Conditions.sound_of_reading
    {depth : Nat}
    {outline : Json.Outline}
    {conditions : Conditions}
    (read : Conditions.reading depth outline = .ok conditions) :
    conditions.Writable ∧ conditions.InOrder := by
  obtain ⟨tree, treeRead, conditionsRead⟩ := Reading.free_eq_ok_iff.mp read
  have treeInOrder := Json.Outline.inOrder_of_tree outline depth tree treeRead
  exact ⟨conditions.writable_of_ofJson tree conditionsRead,
    Conditions.inOrder_of_ofJson treeInOrder conditionsRead⟩

namespace Rule

/-- The conditions that a draft holds, if any, are writable and in order. -/
def Draft.Sound
    (draft : Draft) :
    Prop :=
  ∀ conditions ∈ draft.conditions, conditions.Writable ∧ conditions.InOrder

/-- A rule that is read has conditions that are writable and in order. -/
theorem sound_of_reading
    {depth : Nat}
    {outline : Json.Outline}
    {rule : Rule}
    (read : Rule.reading depth outline = .ok rule) :
    rule.conditions.Writable ∧ rule.conditions.InOrder := by
  have keeps : ∀ field ∈ layout.fields, field.Keeps Draft.Sound := by
    simp only [layout, List.forall_mem_cons]
    refine ⟨?_, ?_, ?_, ?_, nofun⟩
    · exact keeps_draftField fun _ _ _ _ isSound _ => isSound
    · exact keeps_draftField fun _ _ _ _ isSound _ => isSound
    · apply keeps_draftField
      rintro depth outline draft conditions - conditionsRead _ ⟨⟩
      exact Conditions.sound_of_reading conditionsRead
    · exact keeps_draftField fun _ _ _ _ isSound _ => isSound
  obtain ⟨draft, isSound, finished⟩ :=
    Reading.Layout.exists_draft_of_reading keeps nofun read
  obtain ⟨action, -, others⟩ := Except.bind_eq_ok_iff.mp finished
  obtain ⟨subject, -, shape⟩ := Except.bind_eq_ok_iff.mp others
  rw [← Except.pure_eq_ok_iff.mp shape]
  cases held : draft.conditions with
  | none =>
      exact ⟨nofun, .nil, nofun⟩
  | some conditions =>
      exact isSound conditions held

end Rule

namespace Settings

/-- The rules that a draft holds have conditions that are writable and in order. -/
def Draft.Sound
    (draft : Draft) :
    Prop :=
  ∀ rules ∈ draft.rules, ∀ rule ∈ rules,
    rule.conditions.Writable ∧ rule.conditions.InOrder

theorem sound_of_reading
    {depth : Nat}
    {outline : Json.Outline}
    {settings : Settings}
    (read : Settings.reading depth outline = .ok settings) :
    settings.Writable ∧ settings.InOrder := by
  have keeps : ∀ field ∈ layout.fields, field.Keeps Draft.Sound := by
    simp only [layout, List.forall_mem_cons]
    refine ⟨?_, ?_, ?_, nofun⟩
    · exact keeps_draftField fun _ _ _ _ isSound _ => isSound
    · exact keeps_draftField fun _ _ _ _ isSound _ => isSound
    · apply keeps_draftField
      rintro depth outline draft rules - rulesRead _ ⟨⟩ rule held
      obtain ⟨inside, single, ruleRead⟩ :=
        Reading.exists_item_of_sequence rulesRead rule held
      exact Rule.sound_of_reading ruleRead
  obtain ⟨draft, isSound, finished⟩ :=
    Reading.Layout.exists_draft_of_reading keeps nofun read
  obtain ⟨enforcement, -, shape⟩ := Except.bind_eq_ok_iff.mp finished
  rw [← Except.pure_eq_ok_iff.mp shape]
  cases held : draft.rules with
  | none =>
      exact ⟨nofun, nofun⟩
  | some rules =>
      have rulesSound := isSound rules held
      exact ⟨fun rule member => (rulesSound rule member).1,
        fun rule member => (rulesSound rule member).2⟩

/-- Settings that are loaded from any text are writable and in order. -/
theorem sound_of_ofText
    {layer : Json.TextLayer}
    {text : String}
    {settings : Settings}
    (loaded : ofText text layer = .ok settings) :
    settings.Writable ∧ settings.InOrder := by
  obtain ⟨read, isRead, rest⟩ := Except.bind_eq_ok_iff.mp loaded
  obtain ⟨-, -, shape⟩ := Except.bind_eq_ok_iff.mp rest
  rw [← Except.pure_eq_ok_iff.mp shape]
  exact sound_of_reading isRead

end Settings

end Permission
