import Permission.NameMap

namespace Permission.NameMap

/-!
# Places in nested maps

A node under a name may itself hold nodes under further names.  The place of a
node is the path of the names that lead to it.  A walk that looks at each node
before what is inside it, and at the names in ascending order, meets the places
in the dictionary order of their paths, so the failure that it stops at is the
one at the least place of all.
-/

/--
A walk meets the first place no later than the second one: the second place is
the same or lies inside the first, or the first has the smaller name where they
part.
-/
inductive NoLater : List String → List String → Prop where
  | inside
      (path : List String) :
      NoLater [] path
  | smaller
      {name other : String}
      (less : name < other)
      (path rest : List String) :
      NoLater (name :: path) (other :: rest)
  | further
      {path rest : List String}
      (name : String)
      (noLater : NoLater path rest) :
      NoLater (name :: path) (name :: rest)

section Nested

variable
  {α β ε : Type}
  (inside : α → NameMap α)
  (fails : α → ε → Prop)

/-- A node stands at a place: under a name in the map or further inside a node there. -/
inductive HasNode : NameMap α → List String → α → Prop where
  | here
      {entries : NameMap α}
      {name : String}
      {node : α}
      (entry : (name, node) ∈ entries) :
      HasNode entries [name] node
  | within
      {entries : NameMap α}
      {name : String}
      {holder node : α}
      {path : List String}
      (entry : (name, holder) ∈ entries)
      (rest : HasNode (inside holder) path node) :
      HasNode entries (name :: path) node

/-- The node at a place fails. -/
def HasFailure
    (entries : NameMap α)
    (path : List String)
    (failure : ε) :
    Prop :=
  ∃ node, HasNode inside entries path node ∧ fails node failure

/-- Nowhere does a node fail. -/
def Clear
    (entries : NameMap α) :
    Prop :=
  ∀ path failure, ¬ HasFailure inside fails entries path failure

/-- The node at a place fails, and none fails at a place that is met before. -/
structure FirstFailure
    (entries : NameMap α)
    (path : List String)
    (failure : ε) :
    Prop where
  hasFailure : HasFailure inside fails entries path failure
  least :
    ∀ other found, HasFailure inside fails entries other found →
      NoLater path other

/-- A walk stops at the failure of a node, and there was none on the way to it. -/
inductive StopsAt : NameMap α → List String → ε → Prop where
  | here
      {name : String}
      {node : α}
      {rest : NameMap α}
      {failure : ε}
      (failed : fails node failure) :
      StopsAt ((name, node) :: rest) [name] failure
  | within
      {name : String}
      {node : α}
      {rest : NameMap α}
      {path : List String}
      {failure : ε}
      (sound : ∀ other, ¬ fails node other)
      (inner : StopsAt (inside node) path failure) :
      StopsAt ((name, node) :: rest) (name :: path) failure
  | behind
      {name : String}
      {node : α}
      {rest : NameMap α}
      {path : List String}
      {failure : ε}
      (sound : ∀ other, ¬ fails node other)
      (clear : Clear inside fails (inside node))
      (later : StopsAt rest path failure) :
      StopsAt ((name, node) :: rest) path failure

/--
What a walk over entries below a path comes to: a result if nothing fails, and
otherwise a report of where it stopped and why.
-/
inductive Outcome
    {γ : Type}
    (report : List String → ε → β)
    (path : List String)
    (entries : NameMap α) :
    Except β γ → Prop where
  | passes
      (clear : Clear inside fails entries)
      (result : γ) :
      Outcome report path entries (.ok result)
  | stops
      {below : List String}
      {failure : ε}
      (stopsAt : StopsAt inside fails entries below failure) :
      Outcome report path entries (.error (report (path ++ below) failure))

variable
  {inside : α → NameMap α}
  {fails : α → ε → Prop}
  {name : String}
  {node : α}
  {rest entries : NameMap α}
  {path : List String}
  {failure : ε}

/-! ## Nodes -/

theorem not_hasNode_nil :
    ¬ HasNode inside [] path node := by
  intro place
  cases place with
  | here entry =>
      cases entry
  | within entry inner =>
      cases entry

/-- A place is that of the first node, inside it, or behind it. -/
theorem hasNode_cons_iff
    {found : α} :
    HasNode inside ((name, node) :: rest) path found ↔
      (path = [name] ∧ found = node) ∨
        (∃ below, path = name :: below ∧
          HasNode inside (inside node) below found) ∨
        HasNode inside rest path found := by
  constructor
  · intro place
    cases place with
    | here entry =>
        rcases List.mem_cons.mp entry with same | behind
        · obtain ⟨rfl, rfl⟩ := Prod.mk.inj same
          exact .inl ⟨rfl, rfl⟩
        · exact .inr (.inr (.here behind))
    | within entry inner =>
        rcases List.mem_cons.mp entry with same | behind
        · obtain ⟨rfl, rfl⟩ := Prod.mk.inj same
          exact .inr (.inl ⟨_, rfl, inner⟩)
        · exact .inr (.inr (.within behind inner))
  · rintro (⟨rfl, rfl⟩ | ⟨below, rfl, inner⟩ | behind)
    · exact .here List.mem_cons_self
    · exact .within List.mem_cons_self inner
    · cases behind with
      | here entry =>
          exact .here (List.mem_cons_of_mem _ entry)
      | within entry inner =>
          exact .within (List.mem_cons_of_mem _ entry) inner

/-- A place starts with a name of the map. -/
theorem HasNode.exists_mem_names
    (place : HasNode inside entries path node) :
    ∃ name below, path = name :: below ∧ name ∈ entries.names := by
  cases place with
  | here entry =>
      exact ⟨_, [], rfl, List.mem_map_of_mem entry⟩
  | within entry inner =>
      exact ⟨_, _, rfl, List.mem_map_of_mem entry⟩

/-- What nodes hand on to those inside them reaches every place. -/
theorem HasNode.inherits
    {property : α → Prop}
    (place : HasNode inside entries path node)
    (outermost : ∀ entry ∈ entries, property entry.2)
    (handsOn :
      ∀ holder, property holder → ∀ entry ∈ inside holder, property entry.2) :
    property node := by
  induction place with
  | here entry =>
      exact outermost _ entry
  | within entry inner inductionHypothesis =>
      exact inductionHypothesis (handsOn _ (outermost _ entry))

/-- Where nodes are changed one by one, those inside them too, places stay as they are. -/
theorem HasNode.exists_of_map
    {changedInside : β → NameMap β}
    {change : α → β}
    (commutes :
      ∀ node, changedInside (change node) =
        (inside node).map fun entry => (entry.1, change entry.2))
    {found : β}
    (place :
      HasNode changedInside
        (entries.map fun entry => (entry.1, change entry.2)) path found) :
    ∃ node, HasNode inside entries path node ∧ found = change node := by
  generalize same :
    (entries.map fun entry => (entry.1, change entry.2)) = changed at place
  induction place generalizing entries with
  | here entry =>
      obtain ⟨⟨name, node⟩, member, pair⟩ := List.mem_map.mp (same ▸ entry)
      cases pair
      exact ⟨node, .here member, rfl⟩
  | within entry _ inductionHypothesis =>
      obtain ⟨⟨name, holder⟩, member, pair⟩ := List.mem_map.mp (same ▸ entry)
      cases pair
      obtain ⟨node, inner, rfl⟩ := inductionHypothesis (commutes holder).symm
      exact ⟨node, .within member inner, rfl⟩

/-- A place under the first name is met before the places behind it. -/
theorem noLater_of_behind
    {below other : List String}
    {found : α}
    (ordered : Ordered ((name, node) :: rest))
    (behind : HasNode inside rest other found) :
    NoLater (name :: below) other := by
  obtain ⟨later, deeper, rfl, member⟩ := behind.exists_mem_names
  have less : name < later :=
    (List.pairwise_cons.mp ordered).1 later member
  exact .smaller less below deeper

/-! ## Failures -/

theorem clear_nil :
    Clear inside fails [] :=
  fun _ _ ⟨_, place, _⟩ => not_hasNode_nil place

theorem clear_cons_iff :
    Clear inside fails ((name, node) :: rest) ↔
      (∀ failure, ¬ fails node failure) ∧ Clear inside fails (inside node) ∧
        Clear inside fails rest := by
  constructor
  · intro clear
    refine ⟨?_, ?_, ?_⟩
    · intro failure failed
      exact clear [name] failure ⟨node, .here List.mem_cons_self, failed⟩
    · rintro path failure ⟨found, inner, failed⟩
      exact clear (name :: path) failure
        ⟨found, .within List.mem_cons_self inner, failed⟩
    · rintro path failure ⟨found, behind, failed⟩
      exact clear path failure
        ⟨found, hasNode_cons_iff.mpr (.inr (.inr behind)), failed⟩
  · rintro ⟨sound, clearInside, clearBehind⟩ path failure ⟨found, place, failed⟩
    rcases hasNode_cons_iff.mp place with ⟨-, rfl⟩ | ⟨below, -, inner⟩ | behind
    · exact sound failure failed
    · exact clearInside below failure ⟨found, inner, failed⟩
    · exact clearBehind path failure ⟨found, behind, failed⟩

/-- Whether anything fails does not depend on the order of the entries. -/
theorem clear_iff_forall_mem :
    Clear inside fails entries ↔ ∀ entry ∈ entries, Clear inside fails [entry] := by
  induction entries with
  | nil =>
      exact iff_of_true clear_nil nofun
  | cons entry rest inductionHypothesis =>
      have ofEntry :
          Clear inside fails [entry] ↔
            (∀ failure, ¬ fails entry.2 failure) ∧
              Clear inside fails (inside entry.2) := by
        rw [clear_cons_iff, and_iff_left clear_nil]
      rw [clear_cons_iff, List.forall_mem_cons, ofEntry, inductionHypothesis,
        and_assoc]

namespace StopsAt

/-- A walk stops at a node that fails. -/
theorem hasFailure
    (stopsAt : StopsAt inside fails entries path failure) :
    HasFailure inside fails entries path failure := by
  induction stopsAt with
  | here failed =>
      exact ⟨_, .here List.mem_cons_self, failed⟩
  | within sound inner inductionHypothesis =>
      obtain ⟨node, place, failed⟩ := inductionHypothesis
      exact ⟨node, .within List.mem_cons_self place, failed⟩
  | behind sound clear later inductionHypothesis =>
      obtain ⟨node, place, failed⟩ := inductionHypothesis
      exact ⟨node, hasNode_cons_iff.mpr (.inr (.inr place)), failed⟩

/-- With all names in order a walk stops at the first failure. -/
theorem firstFailure
    (stopsAt : StopsAt inside fails entries path failure)
    (ordered : entries.Ordered)
    (insideOrdered :
      ∀ place node, HasNode inside entries place node → (inside node).Ordered) :
    FirstFailure inside fails entries path failure := by
  refine ⟨stopsAt.hasFailure, ?_⟩
  -- Any other failure stands at the place, inside it or behind it, never before.
  rintro other reason ⟨found, place, failed⟩
  induction stopsAt generalizing other found with
  | here _ =>
      rcases hasNode_cons_iff.mp place with ⟨rfl, -⟩ | ⟨below, rfl, -⟩ | behind
      · exact .further _ (.inside [])
      · exact .further _ (.inside below)
      · exact noLater_of_behind ordered behind
  | within sound inner inductionHypothesis =>
      rcases hasNode_cons_iff.mp place with
        ⟨-, rfl⟩ | ⟨below, rfl, innerPlace⟩ | behind
      · exact absurd failed (sound reason)
      · refine .further _ (inductionHypothesis ?_ ?_ below found innerPlace failed)
        · exact insideOrdered _ _ (.here List.mem_cons_self)
        · intro deeper holder deeperPlace
          exact insideOrdered _ holder (.within List.mem_cons_self deeperPlace)
      · exact noLater_of_behind ordered behind
  | behind sound clear _ inductionHypothesis =>
      rcases hasNode_cons_iff.mp place with
        ⟨-, rfl⟩ | ⟨below, -, innerPlace⟩ | behind
      · exact absurd failed (sound reason)
      · exact absurd ⟨found, innerPlace, failed⟩ (clear below reason)
      · refine inductionHypothesis (List.pairwise_cons.mp ordered).2 ?_
          other found behind failed
        intro later holder laterPlace
        exact insideOrdered later holder
          (hasNode_cons_iff.mpr (.inr (.inr laterPlace)))

end StopsAt

/-! ## Walks -/

namespace Outcome

variable
  {γ δ : Type}
  {report : List String → ε → β}

/-- A walk gets past a node that does not fail and holds no others. -/
theorem leaf
    (sound : ∀ failure, ¬ fails node failure)
    (empty : inside node = [])
    (result : γ) :
    Outcome inside fails report path [(name, node)] (.ok result) := by
  refine .passes (clear_cons_iff.mpr ⟨sound, ?_, clear_nil⟩) result
  exact empty ▸ clear_nil

/-- A walk stops at a node that fails. -/
theorem failing
    (failed : fails node failure) :
    Outcome inside fails report path [(name, node)]
      (.error (report (path ++ [name]) failure) : Except β γ) :=
  .stops (.here failed)

/-- A walk over a node that does not fail comes to what it comes to inside it. -/
theorem holder
    {outcome : Except β γ}
    (sound : ∀ failure, ¬ fails node failure)
    (inner :
      Outcome inside fails report (path ++ [name]) (inside node) outcome)
    (change : γ → δ) :
    Outcome inside fails report path [(name, node)] (outcome.map change) := by
  cases inner with
  | passes clear result =>
      exact .passes (clear_cons_iff.mpr ⟨sound, clear, clear_nil⟩) (change result)
  | stops stopsAt =>
      rw [List.append_assoc]
      exact .stops (.within sound stopsAt)

/-- Whether a walk stops does not depend on what is made of its result. -/
theorem map
    {outcome : Except β γ}
    (comesTo : Outcome inside fails report path entries outcome)
    (change : γ → δ) :
    Outcome inside fails report path entries (outcome.map change) := by
  cases comesTo with
  | passes clear result =>
      exact .passes clear (change result)
  | stops stopsAt =>
      exact .stops stopsAt

/-- A walk goes on behind a node that it gets past. -/
theorem cons
    {first : Except β γ}
    {later : Except β δ}
    (ofFirst : Outcome inside fails report path [(name, node)] first)
    (ofLater : Outcome inside fails report path rest later)
    {η : Type}
    (combine : γ → δ → η) :
    Outcome inside fails report path ((name, node) :: rest)
      (do return combine (← first) (← later)) := by
  cases ofFirst with
  | passes clear result =>
      obtain ⟨sound, clearInside, -⟩ := clear_cons_iff.mp clear
      cases ofLater with
      | passes clearBehind results =>
          exact .passes (clear_cons_iff.mpr ⟨sound, clearInside, clearBehind⟩)
            (combine result results)
      | stops stopsAt =>
          exact .stops (.behind sound clearInside stopsAt)
  | stops stopsAt =>
      cases stopsAt with
      | here failed =>
          exact .stops (.here failed)
      | within sound inner =>
          exact .stops (.within sound inner)
      | behind sound clear none =>
          cases none

/-- A walk has a result exactly if nothing fails. -/
theorem exists_ok_iff
    {outcome : Except β γ}
    (comesTo : Outcome inside fails report path entries outcome) :
    (∃ result, outcome = .ok result) ↔ Clear inside fails entries := by
  cases comesTo with
  | passes clear result =>
      exact iff_of_true ⟨result, rfl⟩ clear
  | stops stopsAt =>
      exact iff_of_false nofun fun clear => clear _ _ stopsAt.hasFailure

/-- A walk ends with an error exactly if a node fails somewhere. -/
theorem exists_error_iff
    {outcome : Except β γ}
    (comesTo : Outcome inside fails report path entries outcome) :
    (∃ error, outcome = .error error) ↔
      ∃ place failure, HasFailure inside fails entries place failure := by
  cases comesTo with
  | passes clear result =>
      refine iff_of_false nofun ?_
      rintro ⟨place, failure, hasFailure⟩
      exact clear place failure hasFailure
  | stops stopsAt =>
      exact iff_of_true ⟨_, rfl⟩ ⟨_, _, stopsAt.hasFailure⟩

/-- With all names in order the error of a walk reports the first failure. -/
theorem exists_firstFailure
    {error : β}
    (comesTo :
      Outcome inside fails report path entries (.error error : Except β γ))
    (ordered : entries.Ordered)
    (insideOrdered :
      ∀ place node, HasNode inside entries place node → (inside node).Ordered) :
    ∃ place failure, FirstFailure inside fails entries place failure ∧
      error = report (path ++ place) failure := by
  cases comesTo with
  | stops stopsAt =>
      exact ⟨_, _, stopsAt.firstFailure ordered insideOrdered, rfl⟩

end Outcome

end Nested

end Permission.NameMap
