import Permission.Proofs.Binary64.Nearest
import Permission.Proofs.Value.Written

namespace Permission

/-!
# Values that come from trees

A tree holds only finite numbers, and an object that looks like a written
identity is read as one.  So nothing that is read is written like another value,
and each value that comes from a tree is writable.
-/

/--
Induction over trees: what holds of an array may rest on all its items, and what
holds of an object on all its members.
-/
@[elab_as_elim]
theorem Json.inductionOn
    {motive : Json → Prop}
    (scalar : ∀ leaf, motive (.scalar leaf))
    (array :
      ∀ items : List Json, (∀ item ∈ items, motive item) →
        motive (.array items))
    (object :
      ∀ members : NameMap Json, (∀ member ∈ members, motive member.2) →
        motive (.object members))
    (tree : Json) :
    motive tree := by
  refine @Json.rec motive
    (fun items => ∀ item ∈ items, motive item)
    (fun members => ∀ member ∈ members, motive member.2)
    (fun member => motive member.2)
    scalar array object ?_ ?_ ?_ ?_ ?_ tree
  · exact List.forall_mem_nil _
  · intro first rest ofFirst ofRest
    exact List.forall_mem_cons.mpr ⟨ofFirst, ofRest⟩
  · exact List.forall_mem_nil _
  · intro first rest ofFirst ofRest
    exact List.forall_mem_cons.mpr ⟨ofFirst, ofRest⟩
  · intro name value ofValue
    exact ofValue

namespace Value

/-- Only a string is read as one. -/
theorem ofJson_eq_string_iff
    {tree : Json}
    {text : String} :
    ofJson tree = string text ↔ tree = .string text := by
  cases tree with
  | scalar leaf =>
      cases leaf with
      | integer number =>
          unfold ofJson ofScalar
          dsimp only
          split <;> simp
      | _ =>
          simp [ofJson, ofScalar]
  | array items =>
      simp [ofJson]
  | object members =>
      unfold ofJson
      split <;> simp

/-- A number that is read is finite, wherever it has to be rounded. -/
theorem writable_ofScalar
    (leaf : Json.Scalar) :
    (ofScalar leaf).Writable := by
  cases leaf with
  | integer number =>
      unfold ofScalar
      dsimp only
      split
      · exact writable_of_kind nofun nofun nofun
      · have bounded : number.value.toNat < 2 ^ 64 := by
          have below := number.below
          omega
        exact writable_float_iff.mpr (Binary64.isFinite_ofNatNearest bounded)
  | float number =>
      exact writable_float_iff.mpr number.finite
  | _ =>
      exact writable_of_kind nofun nofun nofun

/-- A record comes from an object that is no written identity. -/
theorem not_isMiswritten_ofMembers
    {members : NameMap Json}
    (noIdentity : identityOf? members = none) :
    ¬ (record (ofMembers members)).IsMiswritten := by
  intro miswritten
  obtain ⟨text, identity, shape, read⟩ := isMiswritten_record_iff.mp miswritten
  rw [ofMembers_eq_map, List.map_eq_singleton_iff] at shape
  obtain ⟨⟨name, tree⟩, rfl, member⟩ := shape
  obtain ⟨rfl, isString⟩ := Prod.mk.inj member
  have sameTree : tree = .string text :=
    ofJson_eq_string_iff.mp isString
  have found : identityOf? [(identityKey, tree)] = some identity :=
    identityOf?_eq_some_iff.mpr ⟨text, by rw [sameTree], read⟩
  rw [noIdentity] at found
  cases found

/-- Each value that comes from a tree is writable. -/
theorem writable_ofJson
    (tree : Json) :
    (ofJson tree).Writable := by
  induction tree using Json.inductionOn with
  | scalar leaf =>
      exact writable_ofScalar leaf
  | array items inductionHypothesis =>
      rw [ofJson, ofItems_eq_map, writable_list_iff, List.forall_mem_map]
      exact inductionHypothesis
  | object members inductionHypothesis =>
      unfold ofJson
      split
      · exact writable_identifier _
      · rename_i noIdentity
        rw [writable_record_iff]
        refine ⟨not_isMiswritten_ofMembers noIdentity, ?_⟩
        rw [ofMembers_eq_map, List.forall_mem_map]
        exact inductionHypothesis

end Value

end Permission
