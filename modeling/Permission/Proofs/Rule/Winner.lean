import Mathlib.Data.List.Induction
import Mathlib.Data.List.Nodup
import Permission.Proofs.Rule.Resolution

namespace Permission

/-!
# The rule that no other one beats

Each provided precedence is an order: of two rules at different places one beats
the other.  The rule in effect is the one among those that apply which no other
one beats, so what does not apply is without influence, wherever it stands.
-/

namespace Rule

/-- The rule is about an action on a subject type, by name or by wildcard. -/
def Applies
    (rule : Rule)
    (action : Action)
    (subject : Subject) :
    Prop :=
  (rule.action = .manage ∨ rule.action = action) ∧
    (rule.subject = .all ∨ rule.subject = subject)

theorem isRelevant_eq_true_iff
    {rule : Rule}
    {action : Action}
    {subject : Subject} :
    rule.isRelevant action subject = true ↔ rule.Applies action subject := by
  simp [isRelevant, Applies, Action.covers, Action.isWildcard, Subject.covers,
    Subject.isWildcard]

/-- How many of action and subject type are no wildcards. -/
def exactNames
    (rule : Rule) :
    Nat :=
  (if rule.action = .manage then 0 else 1) +
    (if rule.subject = .all then 0 else 1)

theorem specificity_eq_exactNames
    (rule : Rule) :
    rule.specificity = rule.exactNames := by
  have ofAction :
      (!rule.action.isWildcard).toNat = if rule.action = .manage then 0 else 1 := by
    by_cases wildcard : rule.action = .manage <;>
      simp [Action.isWildcard, wildcard]
  have ofSubject :
      (!rule.subject.isWildcard).toNat = if rule.subject = .all then 0 else 1 := by
    by_cases wildcard : rule.subject = .all <;>
      simp [Subject.isWildcard, wildcard]
  exact congrArg₂ (· + ·) ofAction ofSubject

end Rule

namespace Precedence

/-! ## The last of the greatest -/

section LastMaximal

variable {α β : Type} {rank : α → Nat}

/-- One more candidate wins unless it ranks below the leader. -/
theorem lastMaximal?_concat
    (rank : α → Nat)
    (candidates : List α)
    (candidate : α) :
    lastMaximal? rank (candidates ++ [candidate]) =
      match lastMaximal? rank candidates with
      | none =>
          some candidate
      | some leader =>
          if rank leader ≤ rank candidate then some candidate else some leader := by
  unfold lastMaximal?
  rw [List.foldl_append]
  cases List.foldl _ none candidates <;> rfl

theorem lastMaximal?_eq_none_iff
    {candidates : List α} :
    lastMaximal? rank candidates = none ↔ candidates = [] := by
  induction candidates using List.reverseRecOn with
  | nil =>
      simp [lastMaximal?]
  | append_singleton earlier candidate inductionHypothesis =>
      rw [lastMaximal?_concat]
      refine iff_of_false ?_ (by simp)
      cases lastMaximal? rank earlier with
      | none =>
          simp
      | some leader =>
          by_cases overtaken : rank leader ≤ rank candidate <;> simp [overtaken]

/-- The winner ranks as high as all before it and higher than all behind it. -/
theorem exists_append_of_lastMaximal?
    {candidates : List α}
    {winner : α}
    (won : lastMaximal? rank candidates = some winner) :
    ∃ before after, candidates = before ++ winner :: after ∧
      (∀ earlier ∈ before, rank earlier ≤ rank winner) ∧
      ∀ later ∈ after, rank later < rank winner := by
  induction candidates using List.reverseRecOn generalizing winner with
  | nil =>
      cases won
  | append_singleton earlier candidate inductionHypothesis =>
      rw [lastMaximal?_concat] at won
      cases leading : lastMaximal? rank earlier with
      | none =>
          rw [leading] at won
          obtain rfl : candidate = winner := Option.some.inj won
          obtain rfl : earlier = [] := lastMaximal?_eq_none_iff.mp leading
          exact ⟨[], [], rfl, nofun, nofun⟩
      | some leader =>
          rw [leading] at won
          obtain ⟨before, after, rfl, notAbove, below⟩ :=
            inductionHypothesis leading
          by_cases overtaken : rank leader ≤ rank candidate
          · obtain rfl : candidate = winner := by
              simpa [overtaken] using won
            refine ⟨before ++ leader :: after, [], rfl, ?_, nofun⟩
            intro other member
            have notAboveLeader : rank other ≤ rank leader := by
              rcases List.mem_append.mp member with inBefore | fromLeader
              · exact notAbove other inBefore
              · rcases List.mem_cons.mp fromLeader with rfl | inAfter
                · exact Nat.le_refl _
                · exact Nat.le_of_lt (below other inAfter)
            exact Nat.le_trans notAboveLeader overtaken
          · obtain rfl : leader = winner := by
              simpa [overtaken] using won
            refine ⟨before, after ++ [candidate], by simp, notAbove, ?_⟩
            intro other member
            rcases List.mem_append.mp member with inAfter | isCandidate
            · exact below other inAfter
            · rw [List.mem_singleton.mp isCandidate]
              exact Nat.lt_of_not_le overtaken

/-- Candidates that are looked at through a function win alike. -/
theorem lastMaximal?_map
    (rank : β → Nat)
    (view : α → β)
    (candidates : List α) :
    lastMaximal? rank (candidates.map view) =
      (lastMaximal? (fun candidate => rank (view candidate)) candidates).map
        view := by
  induction candidates using List.reverseRecOn with
  | nil =>
      rfl
  | append_singleton earlier candidate inductionHypothesis =>
      rw [List.map_append, List.map_singleton, lastMaximal?_concat,
        lastMaximal?_concat, inductionHypothesis]
      cases lastMaximal? (fun candidate => rank (view candidate)) earlier with
      | none =>
          rfl
      | some leader =>
          by_cases overtaken : rank (view leader) ≤ rank (view candidate) <;>
            simp [overtaken]

end LastMaximal

/-- Which rules win does not depend on what is kept beside them. -/
theorem winner?_map
    {α β : Type}
    (precedence : Precedence)
    (specificity : β → Nat)
    (view : α → β)
    (candidates : List α) :
    precedence.winner? specificity (candidates.map view) =
      (precedence.winner? (fun candidate => specificity (view candidate))
        candidates).map view := by
  cases precedence with
  | firstDefined =>
      exact List.head?_map
  | lastDefined =>
      exact List.getLast?_map
  | mostSpecific =>
      exact lastMaximal?_map specificity view candidates

/-! ## Winners are unbeaten -/

/-- Of two rules, each with its place, the first one takes effect over the second. -/
def Beats
    (precedence : Precedence)
    (challenger incumbent : Rule × Nat) :
    Prop :=
  match precedence with
  | firstDefined =>
      challenger.2 < incumbent.2
  | lastDefined =>
      incumbent.2 < challenger.2
  | mostSpecific =>
      incumbent.1.exactNames < challenger.1.exactNames ∨
        (challenger.1.exactNames = incumbent.1.exactNames ∧
          incumbent.2 < challenger.2)

theorem not_beats_self
    (precedence : Precedence)
    (placed : Rule × Nat) :
    ¬ precedence.Beats placed placed := by
  cases precedence <;> simp [Beats]

/-- Of two rules at different places one beats the other. -/
theorem beats_or_beats
    (precedence : Precedence)
    {left right : Rule × Nat}
    (apart : left.2 ≠ right.2) :
    precedence.Beats left right ∨ precedence.Beats right left := by
  cases precedence with
  | firstDefined =>
      exact Nat.lt_or_gt_of_ne apart
  | lastDefined =>
      exact Nat.lt_or_gt_of_ne (Ne.symm apart)
  | mostSpecific =>
      unfold Beats
      omega

variable
  {precedence : Precedence}
  {candidates : List (Rule × Nat)}
  {winner : Rule × Nat}

theorem winner?_eq_none_iff
    {specificity : Rule × Nat → Nat} :
    precedence.winner? specificity candidates = none ↔ candidates = [] := by
  cases precedence with
  | firstDefined =>
      exact List.head?_eq_none_iff
  | lastDefined =>
      exact List.getLast?_eq_none_iff
  | mostSpecific =>
      exact lastMaximal?_eq_none_iff

/-- A winner stands before or behind each of its rivals and is beaten by none. -/
theorem unbeaten_of_winner?
    (inOrder : candidates.Pairwise fun earlier later => earlier.2 < later.2)
    (won :
      precedence.winner? (fun placed => placed.1.specificity) candidates =
        some winner) :
    winner ∈ candidates ∧
      ∀ other ∈ candidates, ¬ precedence.Beats other winner := by
  have decided :
      ∃ before after, candidates = before ++ winner :: after ∧
        (∀ earlier ∈ before, earlier.2 < winner.2 →
          ¬ precedence.Beats earlier winner) ∧
        ∀ later ∈ after, winner.2 < later.2 →
          ¬ precedence.Beats later winner := by
    cases precedence with
    | firstDefined =>
        obtain ⟨after, shape⟩ := List.head?_eq_some_iff.mp won
        refine ⟨[], after, shape, nofun, ?_⟩
        intro later _ behind
        exact Nat.lt_asymm behind
    | lastDefined =>
        obtain ⟨before, shape⟩ := List.getLast?_eq_some_iff.mp won
        refine ⟨before, [], shape, ?_, nofun⟩
        intro earlier _ ahead
        exact Nat.lt_asymm ahead
    | mostSpecific =>
        obtain ⟨before, after, shape, notAbove, below⟩ :=
          exists_append_of_lastMaximal? won
        simp only [Rule.specificity_eq_exactNames] at notAbove below
        refine ⟨before, after, shape, ?_, ?_⟩
        · intro earlier member ahead beats
          have bounded := notAbove earlier member
          unfold Beats at beats
          omega
        · intro later member _ beats
          have bounded := below later member
          unfold Beats at beats
          omega
  obtain ⟨before, after, rfl, ofEarlier, ofLater⟩ := decided
  obtain ⟨-, fromWinner, ahead⟩ := List.pairwise_append.mp inOrder
  obtain ⟨behind, -⟩ := List.pairwise_cons.mp fromWinner
  refine ⟨by simp, ?_⟩
  intro other member
  rcases List.mem_append.mp member with inBefore | rest
  · have isAhead : other.2 < winner.2 :=
      ahead other inBefore winner (by simp)
    exact ofEarlier other inBefore isAhead
  · rcases List.mem_cons.mp rest with rfl | inAfter
    · exact precedence.not_beats_self other
    · exact ofLater other inAfter (behind other inAfter)

/-- The winner is the one candidate that no other one beats. -/
theorem winner?_eq_some_iff
    (inOrder : candidates.Pairwise fun earlier later => earlier.2 < later.2) :
    precedence.winner? (fun placed => placed.1.specificity) candidates =
        some winner ↔
      winner ∈ candidates ∧
        ∀ other ∈ candidates, ¬ precedence.Beats other winner := by
  refine ⟨unbeaten_of_winner? inOrder, ?_⟩
  rintro ⟨member, unbeaten⟩
  cases won :
      precedence.winner? (fun placed => placed.1.specificity) candidates with
  | none =>
      rw [winner?_eq_none_iff.mp won] at member
      cases member
  | some leader =>
      obtain ⟨isCandidate, leaderUnbeaten⟩ := unbeaten_of_winner? inOrder won
      have samePlace : leader.2 = winner.2 := by
        by_contra apart
        rcases precedence.beats_or_beats apart with beats | beaten
        · exact unbeaten leader isCandidate beats
        · exact leaderUnbeaten winner member beaten
      have placesDiffer : (candidates.map Prod.snd).Nodup :=
        (List.pairwise_map.mpr inOrder).imp Nat.ne_of_lt
      have same : leader = winner :=
        List.inj_on_of_nodup_map placesDiffer isCandidate member samePlace
      rw [same]

end Precedence

namespace RuleSet

variable {action : Action} {subject : Subject}

/-! ## The rule in effect -/

/-- The rules that apply keep the order of their definition. -/
theorem relevant_inOrder
    {π : Type}
    (ruleSet : RuleSet π)
    (action : Action)
    (subject : Subject) :
    (ruleSet.relevant action subject).Pairwise
      fun earlier later => earlier.2 < later.2 := by
  have places : ruleSet.rules.zipIdx.Pairwise
      fun earlier later => earlier.2 < later.2 := by
    rw [← List.pairwise_map (f := Prod.snd), List.zipIdx_map_snd]
    exact List.pairwise_lt_range'
  exact places.filter _

/-- The rule in effect depends on the rules that apply and on their order alone. -/
theorem resolve?_map_fst
    (ruleSet : RuleSet)
    (action : Action)
    (subject : Subject) :
    (ruleSet.resolve? action subject).map Prod.fst =
      ruleSet.precedence.winner? Rule.specificity
        (ruleSet.rules.filter fun rule => rule.isRelevant action subject) := by
  have withoutPlaces :
      (ruleSet.relevant action subject).map Prod.fst =
        ruleSet.rules.filter fun rule => rule.isRelevant action subject := by
    calc
      (ruleSet.relevant action subject).map Prod.fst =
          (ruleSet.rules.zipIdx.map Prod.fst).filter
            fun rule => rule.isRelevant action subject := by
        rw [List.filter_map]
        rfl
      _ = ruleSet.rules.filter fun rule => rule.isRelevant action subject := by
        rw [List.zipIdx_map_fst]
  rw [← withoutPlaces, Precedence.winner?_map]
  rfl

theorem conditions?_eq_map
    {π : Type}
    [Arbiter π]
    (ruleSet : RuleSet π) :
    ruleSet.conditions? action subject =
      (((ruleSet.resolve? action subject).map Prod.fst).filter Rule.grants).map
        Rule.conditions := by
  unfold conditions?
  cases ruleSet.resolve? action subject with
  | none =>
      rfl
  | some placed =>
      cases grants : placed.1.grants <;> simp [Option.filter, grants]

/-- Conditions are those of a rule that applies, grants, and is not beaten. -/
theorem conditions?_eq_some_iff
    {rules : List Rule}
    {precedence : Precedence}
    {conditions : Conditions} :
    RuleSet.conditions? ⟨rules, precedence⟩ action subject = some conditions ↔
      ∃ place rule, rules[place]? = some rule ∧
        rule.Applies action subject ∧
        rule.grants = true ∧
        rule.conditions = conditions ∧
        ∀ otherPlace other, rules[otherPlace]? = some other →
          other.Applies action subject →
          otherPlace ≠ place →
            ¬ precedence.Beats (other, otherPlace) (rule, place) := by
  have inOrder := RuleSet.relevant_inOrder ⟨rules, precedence⟩ action subject
  have resolved :
      ∀ placed,
        RuleSet.resolve? ⟨rules, precedence⟩ action subject = some placed ↔
          placed ∈ RuleSet.relevant ⟨rules, precedence⟩ action subject ∧
            ∀ other ∈ RuleSet.relevant ⟨rules, precedence⟩ action subject,
              ¬ precedence.Beats other placed :=
    fun placed => Precedence.winner?_eq_some_iff inOrder
  simp only [conditions?, Option.map_eq_some_iff, Option.filter_eq_some_iff,
    resolved, Prod.exists, Prod.forall, mem_relevant_iff,
    Rule.isRelevant_eq_true_iff]
  constructor
  · rintro ⟨rule, place, ⟨⟨⟨found, applies⟩, unbeaten⟩, grants⟩, shape⟩
    refine ⟨place, rule, found, applies, grants, shape, ?_⟩
    intro otherPlace other otherFound otherApplies _
    exact unbeaten other otherPlace ⟨otherFound, otherApplies⟩
  · rintro ⟨place, rule, found, applies, grants, shape, unbeaten⟩
    refine ⟨rule, place, ⟨⟨⟨found, applies⟩, ?_⟩, grants⟩, shape⟩
    rintro other otherPlace ⟨otherFound, otherApplies⟩
    by_cases samePlace : otherPlace = place
    · subst samePlace
      obtain rfl : rule = other := Option.some.inj (found.symm.trans otherFound)
      exact precedence.not_beats_self (rule, otherPlace)
    · exact unbeaten otherPlace other otherFound otherApplies samePlace

/--
Conditions come from the rule that applies, grants, and is beaten by no other rule
that applies.  A precedence picks the same rule as an arbiter of its own and as
one of several.  Rules that do not apply can be added, removed and moved at will:
lists that hold the same applying rules in the same order have one rule in effect
and one answer.
-/
theorem granted_iff_unbeaten
    (rules : List Rule)
    (precedence : Precedence)
    (action : Action)
    (subject : Subject) :
    (∀ conditions,
      RuleSet.conditions? ⟨rules, precedence⟩ action subject = some conditions ↔
        ∃ place rule, rules[place]? = some rule ∧
          rule.Applies action subject ∧
          rule.grants = true ∧
          rule.conditions = conditions ∧
          ∀ otherPlace other, rules[otherPlace]? = some other →
            other.Applies action subject →
            otherPlace ≠ place →
              ¬ precedence.Beats (other, otherPlace) (rule, place)) ∧
    (RuleSet.resolve? ⟨rules, Precedence.firstDefined⟩ action subject =
        RuleSet.resolve? ⟨rules, FirstDefined.mk⟩ action subject ∧
      RuleSet.resolve? ⟨rules, Precedence.lastDefined⟩ action subject =
        RuleSet.resolve? ⟨rules, LastDefined.mk⟩ action subject ∧
      RuleSet.resolve? ⟨rules, Precedence.mostSpecific⟩ action subject =
        RuleSet.resolve? ⟨rules, MostSpecific.mk⟩ action subject) ∧
    (∀ others : List Rule,
      others.filter (fun rule => rule.isRelevant action subject) =
          rules.filter (fun rule => rule.isRelevant action subject) →
        (RuleSet.resolve? ⟨others, precedence⟩ action subject).map Prod.fst =
            (RuleSet.resolve? ⟨rules, precedence⟩ action subject).map Prod.fst ∧
          RuleSet.conditions? ⟨others, precedence⟩ action subject =
            RuleSet.conditions? ⟨rules, precedence⟩ action subject) := by
  refine ⟨fun _ => conditions?_eq_some_iff, ⟨rfl, rfl, rfl⟩, ?_⟩
  intro others sameApplying
  have sameRule :
      (RuleSet.resolve? ⟨others, precedence⟩ action subject).map Prod.fst =
        (RuleSet.resolve? ⟨rules, precedence⟩ action subject).map Prod.fst := by
    rw [resolve?_map_fst, resolve?_map_fst, sameApplying]
  refine ⟨sameRule, ?_⟩
  rw [conditions?_eq_map, conditions?_eq_map, sameRule]

/-- Articles are for reading under a review, whatever a later wildcard permits. -/
def reviewRules : List Rule :=
  [.can .read ⟨"Article"⟩ [("state", .equalTo (.string "reviewed"))],
    .can .manage .all [],
    .cannot .manage ⟨"Article"⟩ []]

/-- The same rules among others on comments and on the deletion of articles. -/
def surroundedReviewRules : List Rule :=
  [.can .manage ⟨"Comment"⟩ [],
    .can .read ⟨"Article"⟩ [("state", .equalTo (.string "reviewed"))],
    .cannot ⟨"delete"⟩ ⟨"Article"⟩ [],
    .can .manage .all [],
    .cannot .manage ⟨"Article"⟩ [],
    .can .read ⟨"all articles"⟩ []]

theorem granted_iff_unbeaten_review :
    RuleSet.conditions? ⟨surroundedReviewRules, Precedence.mostSpecific⟩ .read
        ⟨"Article"⟩ =
      some [("state", .equalTo (.string "reviewed"))] ∧
    RuleSet.conditions? ⟨surroundedReviewRules, Precedence.lastDefined⟩ .read
        ⟨"Article"⟩ =
      none ∧
    ∃ (place : Nat) (rule : Rule), reviewRules[place]? = some rule ∧
      rule.grants = true ∧
      rule.conditions = [("state", .equalTo (.string "reviewed"))] := by
  obtain ⟨answers, -, surrounded⟩ :=
    granted_iff_unbeaten reviewRules .mostSpecific .read ⟨"Article"⟩
  obtain ⟨-, -, surroundedLast⟩ :=
    granted_iff_unbeaten reviewRules .lastDefined .read ⟨"Article"⟩
  obtain ⟨place, rule, found, -, grants, shape, -⟩ :=
    (answers [("state", .equalTo (.string "reviewed"))]).mp rfl
  exact
    ⟨(surrounded surroundedReviewRules rfl).2.trans rfl,
      (surroundedLast surroundedReviewRules rfl).2.trans rfl,
      place, rule, found, grants, shape⟩

end RuleSet

end Permission
