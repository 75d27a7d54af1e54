import Mathlib.Data.List.Forall2
import Permission.NameMap
import Permission.Proofs.Failure

/-!
# Equality of lists and maps, element by element

Lists are equal under some Boolean equality if they are of one length and hold
equal elements at each place.  As a relation between lists this is `Forall₂`,
which brings the laws that a proof about equal lists needs.
-/

namespace List

variable {α : Type} [BEq α]

/-- Equal lists have equal elements at each place. -/
theorem beq_iff_forall₂
    {left right : List α} :
    (left == right) = true ↔
      Forall₂ (fun item other => (item == other) = true) left right := by
  induction left generalizing right with
  | nil =>
      cases right with
      | nil =>
          simp
      | cons other others =>
          refine iff_of_false (by simp) ?_
          intro related
          cases related
  | cons item rest inductionHypothesis =>
      cases right with
      | nil =>
          refine iff_of_false (by simp) ?_
          intro related
          cases related
      | cons other others =>
          rw [cons_beq_cons, Bool.and_eq_true, forall₂_cons,
            inductionHypothesis]

/-- A function leaves a list as it is if it does so with each element. -/
theorem map_beq_self_iff
    {items : List α}
    {change : α → α} :
    (items.map change == items) = true ↔
      ∀ item ∈ items, (change item == item) = true := by
  rw [beq_iff_forall₂, forall₂_map_left_iff, forall₂_same]

/--
A list leads to an equal one, element by element, if each element leads to an
equal one.
-/
theorem exists_forall₂_beq_iff
    {leadsTo : α → α → Prop}
    {items : List α} :
    (∃ results, Forall₂ leadsTo items results ∧ (results == items) = true) ↔
      ∀ item ∈ items, ∃ result, leadsTo item result ∧
        (result == item) = true := by
  induction items with
  | nil =>
      refine iff_of_true ⟨[], .nil, ?_⟩ nofun
      exact beq_iff_forall₂.mpr .nil
  | cons item rest inductionHypothesis =>
      rw [forall_mem_cons, ← inductionHypothesis]
      simp only [beq_iff_forall₂]
      constructor
      · rintro ⟨results, pairs, equal⟩
        cases pairs with
        | cons first later =>
            cases equal with
            | cons firstEqual laterEqual =>
                exact ⟨⟨_, first, firstEqual⟩, _, later, laterEqual⟩
      · rintro ⟨⟨result, first, firstEqual⟩, others, later, laterEqual⟩
        exact ⟨result :: others, .cons first later, .cons firstEqual laterEqual⟩

/-- Each element of the second of two related lists is related to one of the first. -/
theorem Forall₂.exists_mem_left
    {α β : Type}
    {related : α → β → Prop}
    {left : List α}
    {right : List β}
    (pairs : Forall₂ related left right)
    {other : β}
    (member : other ∈ right) :
    ∃ item ∈ left, related item other := by
  induction pairs with
  | nil =>
      cases member
  | cons first rest inductionHypothesis =>
      rcases List.mem_cons.mp member with same | inRest
      · exact ⟨_, List.mem_cons_self, same ▸ first⟩
      · obtain ⟨item, inLeft, pair⟩ := inductionHypothesis inRest
        exact ⟨item, List.mem_cons_of_mem _ inLeft, pair⟩

/-- What holds of the second list by itself may be told of each pair. -/
theorem forall₂_and_right
    {α β : Type}
    {property : β → Prop}
    {related : α → β → Prop}
    {left : List α}
    {right : List β}
    (ofRight : ∀ other ∈ right, property other)
    (pairs : Forall₂ related left right) :
    Forall₂ (fun item other => property other ∧ related item other)
      left right := by
  have flipped : Forall₂ (flip related) right left :=
    pairs.flip
  exact ((forall₂_and_left right left).mpr ⟨ofRight, flipped⟩).flip

section Results

variable
  {α β γ : Type}
  {left : List α}
  {right : List β}

/-- Lists whose elements give the same results in pairs are mapped to the same. -/
theorem map_eq_of_forall₂
    {ofLeft : α → γ}
    {ofRight : β → γ}
    (pairs : Forall₂ (fun item other => ofLeft item = ofRight other) left right) :
    left.map ofLeft = right.map ofRight := by
  rwa [← forall₂_eq_eq_eq, forall₂_map_left_iff, forall₂_map_right_iff]

/-- This holds of computations that may fail, too. -/
theorem mapM_eq_of_forall₂
    {ε : Type}
    {ofLeft : α → Except ε γ}
    {ofRight : β → Except ε γ}
    (pairs : Forall₂ (fun item other => ofLeft item = ofRight other) left right) :
    left.mapM ofLeft = right.mapM ofRight := by
  induction pairs with
  | nil =>
      rfl
  | cons first rest inductionHypothesis =>
      rw [List.mapM_cons, List.mapM_cons, first, inductionHypothesis]

/-- A list is mapped by a computation that succeeds on each element. -/
theorem mapM_eq_ok_iff_forall₂
    {ε : Type}
    {compute : α → Except ε γ}
    {results : List γ} :
    left.mapM compute = .ok results ↔
      Forall₂ (fun item result => compute item = .ok result) left results := by
  induction left generalizing results with
  | nil =>
      rw [forall₂_nil_left_iff, mapM_nil, Except.pure_eq_ok_iff, eq_comm]
  | cons item rest inductionHypothesis =>
      rw [forall₂_cons_left_iff, mapM_cons]
      simp only [Except.bind_eq_ok_iff, Except.pure_eq_ok_iff,
        inductionHypothesis]
      constructor
      · rintro ⟨first, computed, others, later, rfl⟩
        exact ⟨first, others, computed, later, rfl⟩
      · rintro ⟨first, others, computed, later, rfl⟩
        exact ⟨first, computed, others, later, rfl⟩

/-- It fails on a list as it does on the first element on which it fails. -/
theorem mapM_eq_error_iff
    {ε : Type}
    {compute : α → Except ε γ}
    {error : ε} :
    left.mapM compute = .error error ↔
      ∃ before failing after, left = before ++ failing :: after ∧
        (∀ earlier ∈ before, ∃ result, compute earlier = .ok result) ∧
        compute failing = .error error := by
  induction left with
  | nil =>
      simp [pure, Except.pure]
  | cons item rest inductionHypothesis =>
      have step :
          (item :: rest).mapM compute = .error error ↔
            compute item = .error error ∨
              (∃ result, compute item = .ok result) ∧
                rest.mapM compute = .error error := by
        rw [mapM_cons]
        simp [Except.bind_eq_error_iff, pure, Except.pure]
      rw [step, inductionHypothesis]
      constructor
      · rintro (failed | ⟨succeeded, before, failing, after, rfl, earlier, failed⟩)
        · exact ⟨[], item, rest, rfl, nofun, failed⟩
        · exact
            ⟨item :: before, failing, after, rfl,
              forall_mem_cons.mpr ⟨succeeded, earlier⟩, failed⟩
      · rintro ⟨before, failing, after, shape, earlier, failed⟩
        cases before with
        | nil =>
            obtain ⟨rfl, -⟩ := cons.inj shape
            exact .inl failed
        | cons other others =>
            obtain ⟨rfl, rfl⟩ := cons.inj shape
            obtain ⟨succeeded, later⟩ := forall_mem_cons.mp earlier
            exact .inr ⟨succeeded, others, failing, after, rfl, later, failed⟩

/-- A partial computation is defined on a list if it is on each element. -/
theorem exists_mapM_eq_some_iff
    {compute? : α → Option γ} :
    (∃ results, left.mapM compute? = some results) ↔
      ∀ item ∈ left, ∃ result, compute? item = some result := by
  induction left with
  | nil =>
      exact iff_of_true ⟨[], rfl⟩ nofun
  | cons item rest inductionHypothesis =>
      rw [forall_mem_cons, ← inductionHypothesis, mapM_cons]
      simp only [Option.bind_eq_bind, Option.bind_eq_some_iff, Option.pure_def,
        Option.some.injEq]
      constructor
      · rintro ⟨_, result, computed, results, later, rfl⟩
        exact ⟨⟨result, computed⟩, results, later⟩
      · rintro ⟨⟨result, computed⟩, results, later⟩
        exact ⟨_, result, computed, results, later, rfl⟩

/-- Related lists are searched alike by tests that are alike on related elements. -/
theorem any_eq_of_forall₂
    {leftTest : α → Bool}
    {rightTest : β → Bool}
    (pairs :
      Forall₂ (fun item other => leftTest item = rightTest other) left right) :
    left.any leftTest = right.any rightTest := by
  have sameResults : left.map leftTest = right.map rightTest :=
    map_eq_of_forall₂ pairs
  have sameAny : (left.map leftTest).any id = (right.map rightTest).any id :=
    congrArg (fun results => results.any id) sameResults
  rwa [List.any_map, List.any_map] at sameAny

/-- If paired elements are alike in what is said of them, so are the lists that hold them. -/
theorem exists_mem_iff_of_forall₂
    {ofLeft : α → Prop}
    {ofRight : β → Prop}
    (pairs : Forall₂ (fun item other => ofLeft item ↔ ofRight other) left right) :
    (∃ item ∈ left, ofLeft item) ↔ ∃ other ∈ right, ofRight other := by
  induction pairs with
  | nil =>
      simp
  | cons first rest inductionHypothesis =>
      simp only [exists_mem_cons_iff, first, inductionHypothesis]

end Results

end List

/-- Entries of maps are equal if they have one name and equal values. -/
theorem Permission.NameMap.entry_beq_iff
    {α : Type}
    [BEq α]
    {left right : String × α} :
    (left == right) = true ↔ left.1 = right.1 ∧ (left.2 == right.2) = true := by
  have parts :
      (left == right) = (left.1 == right.1 && left.2 == right.2) :=
    rfl
  rw [parts, Bool.and_eq_true, beq_iff_eq]
