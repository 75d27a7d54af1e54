import Mathlib.Data.List.Basic
import Permission.Proofs.Failure

/-!
# Searches that stop early

`anyM` stops at the first element that passes or fails with an error, and `allM`
at the first one that does not pass.  Either way one element decides, and all
elements before it have let the search go on.
-/

namespace List

variable {α ε : Type} {test : α → Except ε Bool}

/-- A search for a passing element finds none if every one is turned down. -/
theorem anyM_eq_ok_false_iff
    {items : List α} :
    items.anyM test = .ok false ↔ ∀ item ∈ items, test item = .ok false := by
  induction items with
  | nil =>
      simp [pure, Except.pure]
  | cons item rest inductionHypothesis =>
      cases tested : test item with
      | error error =>
          simp [tested, bind, Except.bind]
      | ok passed =>
          cases passed
          · simpa [tested, bind, Except.bind] using inductionHypothesis
          · simp [tested, bind, Except.bind, pure, Except.pure]

/-- Any other outcome of the search is that of the first element not turned down. -/
theorem anyM_eq_iff_of_ne
    {items : List α}
    {outcome : Except ε Bool}
    (decisive : outcome ≠ .ok false) :
    items.anyM test = outcome ↔
      ∃ before item after, items = before ++ item :: after ∧
        (∀ earlier ∈ before, test earlier = .ok false) ∧
        test item = outcome := by
  induction items with
  | nil =>
      simpa [pure, Except.pure] using Ne.symm decisive
  | cons first rest inductionHypothesis =>
      constructor
      · intro searched
        cases tested : test first with
        | error error =>
            have same : .error error = outcome := by
              simpa [tested, bind, Except.bind] using searched
            exact ⟨[], first, rest, rfl, by simp, tested.trans same⟩
        | ok passed =>
            cases passed with
            | true =>
                have same : .ok true = outcome := by
                  simpa [tested, bind, Except.bind, pure, Except.pure]
                    using searched
                exact ⟨[], first, rest, rfl, by simp, tested.trans same⟩
            | false =>
                have later : rest.anyM test = outcome := by
                  simpa [tested, bind, Except.bind] using searched
                obtain ⟨before, item, after, shape, turnedDown, decided⟩ :=
                  inductionHypothesis.mp later
                refine ⟨first :: before, item, after, by simp [shape], ?_, decided⟩
                intro earlier member
                rcases List.mem_cons.mp member with same | inBefore
                · exact same ▸ tested
                · exact turnedDown earlier inBefore
      · rintro ⟨before, item, after, shape, turnedDown, decided⟩
        cases before with
        | nil =>
            obtain ⟨rfl, rfl⟩ := List.cons.inj shape
            cases outcome with
            | error error =>
                simp [decided, bind, Except.bind]
            | ok passed =>
                cases passed
                · exact absurd rfl decisive
                · simp [decided, bind, Except.bind, pure, Except.pure]
        | cons earlier before =>
            obtain ⟨rfl, rfl⟩ := List.cons.inj shape
            have skipped : test first = .ok false := turnedDown first (by simp)
            have later :
                (before ++ item :: after).anyM test = outcome :=
              inductionHypothesis.mpr
                ⟨before, item, after, rfl,
                  fun other member =>
                    turnedDown other (List.mem_cons_of_mem first member),
                  decided⟩
            simpa [skipped, bind, Except.bind] using later

/-- A search in one element is its test. -/
theorem anyM_singleton
    (item : α) :
    [item].anyM test = test item := by
  cases tested : test item with
  | error error =>
      simp [tested, bind, Except.bind]
  | ok passed =>
      cases passed <;> simp [tested, bind, Except.bind, pure, Except.pure]

/-- An answer and its negation determine each other; an error stays as it is. -/
private theorem map_not_eq_iff
    {left right : Except ε Bool} :
    not <$> left = right ↔ left = not <$> right := by
  cases left with
  | error error =>
      cases right <;> simp [Functor.map, Except.map]
  | ok passed =>
      cases right with
      | error error =>
          simp [Functor.map, Except.map]
      | ok expected =>
          cases passed <;> cases expected <;>
            simp [Functor.map, Except.map]

/-- All elements pass if no element fails to. -/
private theorem allM_eq_iff_anyM_eq
    {items : List α}
    {outcome : Except ε Bool} :
    items.allM test = outcome ↔
      items.anyM (fun item => not <$> test item) = not <$> outcome := by
  rw [allM_eq_not_anyM_not]
  exact map_not_eq_iff

/-- A search for an element that does not pass finds none if all pass. -/
theorem allM_eq_ok_true_iff
    {items : List α} :
    items.allM test = .ok true ↔ ∀ item ∈ items, test item = .ok true :=
  calc
    items.allM test = .ok true ↔
        items.anyM (fun item => not <$> test item) = .ok false :=
      allM_eq_iff_anyM_eq
    _ ↔ ∀ item ∈ items, not <$> test item = .ok false :=
      anyM_eq_ok_false_iff
    _ ↔ ∀ item ∈ items, test item = .ok true :=
      forall₂_congr fun _ _ => map_not_eq_iff

/-- Any other outcome of the search is that of the first element not to pass. -/
theorem allM_eq_iff_of_ne
    {items : List α}
    {outcome : Except ε Bool}
    (decisive : outcome ≠ .ok true) :
    items.allM test = outcome ↔
      ∃ before item after, items = before ++ item :: after ∧
        (∀ earlier ∈ before, test earlier = .ok true) ∧
        test item = outcome := by
  have negatedDecisive : not <$> outcome ≠ .ok false :=
    fun same => decisive (map_not_eq_iff.mp same)
  have twice : not <$> not <$> outcome = outcome :=
    (map_not_eq_iff.mp rfl).symm
  have turned : not <$> (.ok false : Except ε Bool) = .ok true :=
    rfl
  rw [allM_eq_iff_anyM_eq, anyM_eq_iff_of_ne negatedDecisive]
  simp only [map_not_eq_iff, twice, turned]

/-- A test that answers wherever another one does takes over its answer. -/
theorem allM_eq_ok_of_agrees
    {items : List α}
    {other : α → Except ε Bool}
    {accepted : Bool}
    (agrees :
      ∀ item ∈ items, ∀ passed, test item = .ok passed → other item = .ok passed)
    (searched : items.allM test = .ok accepted) :
    items.allM other = .ok accepted := by
  cases accepted with
  | true =>
      have passed := allM_eq_ok_true_iff.mp searched
      exact allM_eq_ok_true_iff.mpr fun item member =>
        agrees item member true (passed item member)
  | false =>
      obtain ⟨before, item, after, rfl, passed, decided⟩ :=
        (allM_eq_iff_of_ne (by simp)).mp searched
      refine
        (allM_eq_iff_of_ne (by simp)).mpr ⟨before, item, after, rfl, ?_, ?_⟩
      · intro earlier member
        have isItem : earlier ∈ before ++ item :: after :=
          List.mem_append_left _ member
        exact agrees earlier isItem true (passed earlier member)
      · exact agrees item (by simp) false decided

/-- A test that never fails finds what a search that stops early finds. -/
theorem any_eq_of_anyM_eq_ok
    {items : List α}
    {plain : α → Bool}
    {found : Bool}
    (agrees :
      ∀ item ∈ items, ∀ passed, test item = .ok passed → plain item = passed)
    (searched : items.anyM test = .ok found) :
    items.any plain = found := by
  cases found with
  | false =>
      have turnedDown := anyM_eq_ok_false_iff.mp searched
      rw [List.any_eq_false]
      intro item member
      rw [agrees item member false (turnedDown item member)]
      exact Bool.false_ne_true
  | true =>
      obtain ⟨before, item, after, shape, -, decided⟩ :=
        (anyM_eq_iff_of_ne (by simp)).mp searched
      have member : item ∈ items := by
        simp [shape]
      exact List.any_eq_true.mpr ⟨item, member, agrees item member true decided⟩

/-- A test that never fails accepts what a search that stops early accepts. -/
theorem all_eq_of_allM_eq_ok
    {items : List α}
    {plain : α → Bool}
    {accepted : Bool}
    (agrees :
      ∀ item ∈ items, ∀ passed, test item = .ok passed → plain item = passed)
    (searched : items.allM test = .ok accepted) :
    items.all plain = accepted := by
  have plainly :
      items.allM (fun item => (pure (plain item) : Except ε Bool)) =
        .ok accepted := by
    refine allM_eq_ok_of_agrees ?_ searched
    intro item member passed tested
    exact congrArg Except.ok (agrees item member passed tested)
  rw [allM_pure] at plainly
  exact Except.ok.inj plainly

/-! ## Tests that all have an answer -/

/-- A search decides whether some element is as the tests decide of each one. -/
theorem anyM_decides
    {items : List α}
    {statement : α → Prop}
    (decided : ∀ item ∈ items, (test item).Decides (statement item)) :
    (items.anyM test).Decides (∃ item ∈ items, statement item) := by
  induction items with
  | nil =>
      exact ⟨false, rfl, by simp⟩
  | cons item rest inductionHypothesis =>
      obtain ⟨passed, tested, meaning⟩ := decided item (by simp)
      obtain ⟨found, searched, later⟩ :=
        inductionHypothesis fun other member =>
          decided other (List.mem_cons_of_mem item member)
      simp only [exists_mem_cons_iff, ← meaning, ← later]
      rw [anyM_cons, tested]
      cases passed with
      | true =>
          exact ⟨true, rfl, by simp⟩
      | false =>
          exact ⟨found, searched, by simp⟩

/-- A search for one that is not decides whether every element is. -/
theorem allM_decides
    {items : List α}
    {statement : α → Prop}
    (decided : ∀ item ∈ items, (test item).Decides (statement item)) :
    (items.allM test).Decides (∀ item ∈ items, statement item) := by
  have searched :
      (items.anyM fun item => not <$> test item).Decides
        (∃ item ∈ items, ¬ statement item) :=
    anyM_decides fun item member => (decided item member).not
  rw [allM_eq_not_anyM_not]
  simpa only [not_exists, not_and, not_not] using searched.not

end List
