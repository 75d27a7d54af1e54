import Permission.Proofs.Json.Text.Written
import Permission.Proofs.Settings.Saved

namespace Permission

/-!
# Settings that are saved and loaded again

Whatever layer of text settings go through, loading what was saved yields what
reading their tree does, if the layer reads back that tree.  Writable settings come
back as they were, and the policy that is loaded answers by the rules that they
list; all others are lost or come back different.  What has been loaded once is
writable.
-/

/-- Two policies give the same answers, about resources and about stores. -/
structure Policy.AnswersLike
    (left right : Policy) :
    Prop where
  query :
    ∀ action subject, left.query action subject = right.query action subject
  can :
    ∀ {ρ : Type} [Resource ρ] action subject (resource : ρ),
      left.can action subject resource = right.can action subject resource
  permits :
    ∀ {ρ : Type} [Resource ρ] action (store : Store ρ) record,
      left.permits action store record = right.permits action store record
  accessible :
    ∀ {ρ : Type} [Resource ρ] action (store : Store ρ),
      left.accessible action store = right.accessible action store

namespace Settings

/-- The query that the rules of settings answer, by the precedence beside them. -/
def query
    (settings : Settings)
    (action : Action)
    (subject : Subject) :
    Query :=
  RuleSet.query ⟨settings.rules, settings.precedence⟩ action subject

/-- A policy answers by the rules of settings, enforced as the settings say. -/
structure AnsweredBy
    (settings : Settings)
    (policy : Policy) :
    Prop where
  query :
    ∀ action subject, policy.query action subject = settings.query action subject
  can :
    ∀ {ρ : Type} [Resource ρ] action subject (resource : ρ),
      policy.can action subject resource =
        (settings.query action subject).permitsResource resource
  permits :
    ∀ {ρ : Type} [Resource ρ] action (store : Store ρ) record,
      policy.permits action store record =
        settings.enforcement.permits (settings.query action ⟨store.kind⟩) store
          record
  accessible :
    ∀ {ρ : Type} [Resource ρ] action (store : Store ρ),
      policy.accessible action store =
        settings.enforcement.accessible (settings.query action ⟨store.kind⟩) store

/-- The policy that settings describe answers by their rules. -/
theorem answeredBy_toPolicy
    (settings : Settings) :
    settings.AnsweredBy settings.toPolicy where
  query _ _ :=
    rfl
  can _ _ _ :=
    rfl
  permits _ _ _ :=
    rfl
  accessible _ _ :=
    rfl

/-- Policies that answer by the rules of one and the same settings answer alike. -/
theorem AnsweredBy.answersLike
    {settings : Settings}
    {left right : Policy}
    (ofLeft : settings.AnsweredBy left)
    (ofRight : settings.AnsweredBy right) :
    left.AnswersLike right where
  query action subject :=
    (ofLeft.query action subject).trans (ofRight.query action subject).symm
  can action subject resource :=
    (ofLeft.can action subject resource).trans
      (ofRight.can action subject resource).symm
  permits action store record :=
    (ofLeft.permits action store record).trans
      (ofRight.permits action store record).symm
  accessible action store :=
    (ofLeft.accessible action store).trans (ofRight.accessible action store).symm

/--
Where the layer of text reads back the tree that it wrote, saved settings are
loaded as equal ones exactly if they are writable, and the policy that is then
loaded answers by their rules, like the policy that they describe.  Whatever is
loaded from a text is writable itself.
-/
theorem reloaded_iff_writable
    {layer : Json.TextLayer}
    {settings : Settings}
    (inOrder : settings.InOrder)
    (shallow : settings.toJson.depth ≤ Json.nestingLimit)
    (readsBack : layer.ReadsBack settings.toJson) :
    ((∃ read, ofText (settings.toText layer) layer = .ok read ∧
        (read == settings) = true) ↔
      settings.Writable) ∧
    (settings.Writable →
      ∃ policy, Policy.ofText (settings.toText layer) layer = .ok policy ∧
        settings.AnsweredBy policy ∧
        policy.AnswersLike settings.toPolicy) ∧
    ∀ text loaded, ofText text layer = .ok loaded →
      loaded.Writable ∧ loaded.InOrder := by
  refine ⟨ofText_toText_beq_iff_writable inOrder shallow readsBack, ?_, ?_⟩
  · intro writable
    have loaded := ofText_toText_of_writable inOrder shallow readsBack writable
    have policyLoaded :
        Policy.ofText (settings.toText layer) layer = .ok settings.toPolicy := by
      unfold Policy.ofText
      rw [loaded]
      rfl
    have answered := settings.answeredBy_toPolicy
    exact ⟨settings.toPolicy, policyLoaded, answered, answered.answersLike answered⟩
  · intro text loaded isLoaded
    exact sound_of_ofText isLoaded

end Settings

/--
Articles are edited by their author and read where they score half a point or
more; nothing that belongs to a closed team is touched.
-/
def articleSettings : Settings where
  precedence :=
    .mostSpecific
  enforcement :=
    .pushdown true
  rules :=
    [.can ⟨"edit"⟩ ⟨"article"⟩ [("author", .equalTo (.identifier ⟨7⟩))],
      .can .read ⟨"article"⟩
        [("score",
          .memberOf (.range ⟨.float ⟨0x3fe0000000000000⟩, .integer 5, false⟩))],
      .cannot .manage .all
        [("team",
          .nested
            [("size", .equalTo (.integer 0)),
              ("state", .memberOf (.set [.null, .string "closed"]))])]]

theorem articleSettings_writable :
    articleSettings.Writable := by
  unfold Settings.Writable Conditions.Writable
  simp only [articleSettings, Rule.can, Rule.cannot, List.forall_mem_cons]
  refine ⟨⟨?_, nofun⟩, ⟨?_, nofun⟩, ⟨?_, nofun⟩, nofun⟩
  · exact Requirement.writable_equalTo_iff.mpr (Value.writable_identifier _)
  · exact Requirement.writable_range_iff.mpr
      ⟨Value.writable_float_iff.mpr (by decide),
        Value.writable_of_kind nofun nofun nofun⟩
  · refine Requirement.writable_nested_iff.mpr
      ⟨fun miswritten => absurd miswritten.length_inner (by decide), ?_⟩
    unfold Conditions.Writable
    simp only [List.forall_mem_cons, Requirement.writable_equalTo_iff,
      Requirement.writable_set_iff]
    exact ⟨Value.writable_of_kind nofun nofun nofun,
      ⟨Value.writable_of_kind nofun nofun nofun,
        Value.writable_of_kind nofun nofun nofun, nofun⟩, nofun⟩

theorem articleSettings_inOrder :
    articleSettings.InOrder := by
  have ascending : List.Pairwise (· < ·) ["size", "state"] := by
    decide
  unfold Settings.InOrder Conditions.InOrder
  simp only [articleSettings, Rule.can, Rule.cannot, List.forall_mem_cons]
  refine
    ⟨⟨List.pairwise_singleton _ _, ?_, nofun⟩,
      ⟨List.pairwise_singleton _ _, ?_, nofun⟩,
      ⟨List.pairwise_singleton _ _, ?_, nofun⟩, nofun⟩
  · exact Requirement.inOrder_equalTo_iff.mpr (Value.inOrder_of_kind nofun nofun)
  · exact Requirement.inOrder_range_iff.mpr
      ⟨Value.inOrder_of_kind nofun nofun, Value.inOrder_of_kind nofun nofun⟩
  · refine Requirement.inOrder_nested_iff.mpr ⟨ascending, ?_⟩
    simp only [List.forall_mem_cons, Requirement.inOrder_equalTo_iff,
      Requirement.inOrder_set_iff]
    exact ⟨Value.inOrder_of_kind nofun nofun,
      ⟨Value.inOrder_of_kind nofun nofun, Value.inOrder_of_kind nofun nofun,
        nofun⟩, nofun⟩

theorem Settings.reloaded_iff_writable_articles :
    articleSettings.toJson.depth ≤ Json.nestingLimit ∧
    Json.TextLayer.compact.ReadsBack articleSettings.toJson ∧
    (∃ read, ofText articleSettings.toText = .ok read ∧
      (read == articleSettings) = true) ∧
    ∃ policy, Policy.ofText articleSettings.toText = .ok policy ∧
      articleSettings.AnsweredBy policy ∧
      policy.AnswersLike articleSettings.toPolicy := by
  have shallow : articleSettings.toJson.depth ≤ Json.nestingLimit := by
    decide
  have floats : articleSettings.toJson.FloatsReadBack := by
    decide +kernel
  have readsBack := Json.TextLayer.compact_readsBack floats
  obtain ⟨reloaded, answers, -⟩ :=
    reloaded_iff_writable articleSettings_inOrder shallow readsBack
  exact
    ⟨shallow, readsBack, reloaded.mpr articleSettings_writable,
      answers articleSettings_writable⟩

end Permission
