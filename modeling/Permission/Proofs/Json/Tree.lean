import Permission.Json.Reading
import Permission.Proofs.Failure
import Permission.Proofs.Value.Order

namespace Permission.Json

/-!
# Trees and their outlines

The outline of a tree is what a text of the tree has for an outline: it holds no
fault, and every key is a string.  A tree in order that nests no deeper than a
reader goes is read back from it, and whatever is read from any outline is a
tree in order.
-/

/-! ## How deep trees nest -/

mutual

/-- How many arrays and objects stand inside each other. -/
def depth : Json → Nat
  | .scalar _ =>
      0
  | .array items =>
      depthOfItems items + 1
  | .object members =>
      depthOfMembers members + 1

def depthOfItems : List Json → Nat
  | [] =>
      0
  | item :: rest =>
      max (depth item) (depthOfItems rest)

def depthOfMembers : NameMap Json → Nat
  | [] =>
      0
  | (_, value) :: rest =>
      max (depth value) (depthOfMembers rest)

end

variable {limit : Nat}

theorem depthOfItems_le_iff
    {items : List Json} :
    depthOfItems items ≤ limit ↔ ∀ item ∈ items, item.depth ≤ limit := by
  induction items with
  | nil =>
      exact iff_of_true (Nat.zero_le limit) nofun
  | cons item rest inductionHypothesis =>
      rw [depthOfItems, Nat.max_le, inductionHypothesis, List.forall_mem_cons]

theorem depthOfMembers_le_iff
    {members : NameMap Json} :
    depthOfMembers members ≤ limit ↔
      ∀ member ∈ members, member.2.depth ≤ limit := by
  induction members with
  | nil =>
      exact iff_of_true (Nat.zero_le limit) nofun
  | cons member rest inductionHypothesis =>
      obtain ⟨name, value⟩ := member
      rw [depthOfMembers, Nat.max_le, inductionHypothesis, List.forall_mem_cons]

theorem depth_array_le_iff
    {items : List Json} :
    depth (.array items) ≤ limit + 1 ↔ ∀ item ∈ items, item.depth ≤ limit := by
  rw [depth, Nat.add_le_add_iff_right, depthOfItems_le_iff]

theorem depth_object_le_iff
    {members : NameMap Json} :
    depth (.object members) ≤ limit + 1 ↔
      ∀ member ∈ members, member.2.depth ≤ limit := by
  rw [depth, Nat.add_le_add_iff_right, depthOfMembers_le_iff]

/-! ## Outlines of trees -/

/-- A scalar that reads as it is and stops nobody. -/
def Leaf.ofScalar
    (single : Scalar) :
    Leaf where
  quoted :=
    match single with
    | .string _ =>
        true
    | _ =>
        false
  value :=
    .ok single
  obstacle :=
    none

/-- A key that is a name. -/
def keyOutline
    (name : String) :
    Outline :=
  .leaf (.ofScalar (.string name))

mutual

def outline : Json → Outline
  | .scalar single =>
      .leaf (.ofScalar single)
  | .array items =>
      .array (outlineItems items) none
  | .object members =>
      .object (outlineMembers members) none

def outlineItems : List Json → List Outline
  | [] =>
      []
  | item :: rest =>
      outline item :: outlineItems rest

def outlineMembers : NameMap Json → List (Outline × Outline)
  | [] =>
      []
  | (name, value) :: rest =>
      (keyOutline name, outline value) :: outlineMembers rest

end

theorem outlineItems_eq_map
    (items : List Json) :
    outlineItems items = items.map outline := by
  induction items with
  | nil =>
      rfl
  | cons item rest inductionHypothesis =>
      rw [outlineItems, inductionHypothesis]
      rfl

/-- The outline of a member. -/
def memberOutline
    (member : String × Json) :
    Outline × Outline :=
  (keyOutline member.1, member.2.outline)

theorem outlineMembers_eq_map
    (members : NameMap Json) :
    outlineMembers members = members.map memberOutline := by
  induction members with
  | nil =>
      rfl
  | cons member rest inductionHypothesis =>
      rw [outlineMembers, inductionHypothesis]
      rfl

/--
The text that a layer writes for a tree holds that tree for it, with nothing behind.
-/
def TextLayer.ReadsBack
    (layer : TextLayer)
    (tree : Json) :
    Prop :=
  layer.read (layer.write tree) = ⟨tree.outline, none⟩

namespace Outline

variable {depth : Nat}

theorem treeItems_eq_mapM
    (outlines : List Outline) :
    treeItems depth outlines = outlines.mapM (tree depth) := by
  induction outlines with
  | nil =>
      rfl
  | cons outline rest inductionHypothesis =>
      rw [List.mapM_cons, treeItems, inductionHypothesis]

/-- Members in the order of their names are read into a map one after another. -/
private theorem treeMembers_outlineMembers
    {members known : NameMap Json}
    (ascending : NameMap.Ordered (known ++ members))
    (inside : ∀ member ∈ members, member.2.outline.tree depth = .ok member.2) :
    treeMembers depth (outlineMembers members) known =
      .ok (known ++ members) := by
  induction members generalizing known with
  | nil =>
      rw [List.append_nil]
      rfl
  | cons member rest inductionHypothesis =>
      obtain ⟨name, value⟩ := member
      obtain ⟨first, later⟩ := List.forall_mem_cons.mp inside
      have regrouped :
          known ++ (name, value) :: rest = (known ++ [(name, value)]) ++ rest :=
        List.append_cons known (name, value) rest
      have inserted :
          known.insert name value = known ++ [(name, value)] :=
        NameMap.insert_eq_append value ascending.above
      rw [regrouped] at ascending ⊢
      rw [← inductionHypothesis ascending later, ← inserted, outlineMembers,
        treeMembers, first]
      rfl

/-- The outline of a tree in order is read as that tree. -/
theorem tree_outline
    {tree : Json}
    (inOrder : tree.InOrder)
    (shallow : tree.depth ≤ depth) :
    tree.outline.tree depth = .ok tree := by
  induction inOrder generalizing depth with
  | scalar leaf =>
      rfl
  | @array items inside inductionHypothesis =>
      cases depth with
      | zero =>
          cases shallow
      | succ depth =>
          have shallowItems := depth_array_le_iff.mp shallow
          have itemsRead : treeItems depth (outlineItems items) = .ok items := by
            rw [treeItems_eq_mapM, List.mapM_eq_ok_iff_forall₂,
              outlineItems_eq_map, List.forall₂_map_left_iff,
              List.forall₂_same]
            exact fun item member =>
              inductionHypothesis item member (shallowItems item member)
          rw [outline, Outline.tree, itemsRead]
          rfl
  | @object members ascending inside inductionHypothesis =>
      cases depth with
      | zero =>
          cases shallow
      | succ depth =>
          have shallowMembers := depth_object_le_iff.mp shallow
          have ascendingFromNothing : NameMap.Ordered ([] ++ members) :=
            ascending
          rw [outline, Outline.tree,
            treeMembers_outlineMembers ascendingFromNothing fun member held =>
              inductionHypothesis member held (shallowMembers member held)]
          rfl

/-! ## Trees that are read -/

/--
Induction over outlines: what holds of a container may rest on all that stands
in it.
-/
@[elab_as_elim]
theorem inductionOn
    {motive : Outline → Prop}
    (leaf : ∀ single, motive (.leaf single))
    (array :
      ∀ items ending, (∀ item ∈ items, motive item) →
        motive (.array items ending))
    (object :
      ∀ (members : List (Outline × Outline)) ending,
        (∀ member ∈ members, motive member.2) →
          motive (.object members ending))
    (nothing : ∀ fault, motive (.nothing fault))
    (outline : Outline) :
    motive outline := by
  refine @Outline.rec motive
    (fun items => ∀ item ∈ items, motive item)
    (fun members => ∀ member ∈ members, motive member.2)
    (fun member => motive member.2)
    leaf (fun items ending ofItems => array items ending ofItems)
    (fun members ending ofMembers => object members ending ofMembers) nothing
    ?_ ?_ ?_ ?_ ?_ outline
  · exact List.forall_mem_nil _
  · intro first rest ofFirst ofRest
    exact List.forall_mem_cons.mpr ⟨ofFirst, ofRest⟩
  · exact List.forall_mem_nil _
  · intro first rest ofFirst ofRest
    exact List.forall_mem_cons.mpr ⟨ofFirst, ofRest⟩
  · intro key value _ ofValue
    exact ofValue

/-- Members that are read into an object in order leave it in order. -/
private theorem inOrder_of_treeMembers
    {members : List (Outline × Outline)}
    {known read : NameMap Json}
    (ofMembers :
      ∀ member ∈ members, ∀ value,
        member.2.tree depth = .ok value → value.InOrder)
    (ascending : known.Ordered)
    (knownInOrder : ∀ member ∈ known, member.2.InOrder)
    (membersRead : treeMembers depth members known = .ok read) :
    InOrder (.object read) := by
  induction members generalizing known with
  | nil =>
      cases membersRead
      exact .object ascending knownInOrder
  | cons member rest inductionHypothesis =>
      obtain ⟨key, outline⟩ := member
      obtain ⟨ofFirst, ofRest⟩ := List.forall_mem_cons.mp ofMembers
      rw [treeMembers] at membersRead
      obtain ⟨name, -, others⟩ := Except.bind_eq_ok_iff.mp membersRead
      obtain ⟨value, first, later⟩ := Except.bind_eq_ok_iff.mp others
      apply inductionHypothesis ofRest (NameMap.ordered_insert name value ascending)
      · intro entry held
        rcases NameMap.mem_of_mem_insert held with rfl | earlier
        · exact ofFirst value first
        · exact knownInOrder entry earlier
      · exact later

/-- Every tree that is read from an outline is in order. -/
theorem inOrder_of_tree
    (outline : Outline)
    (depth : Nat)
    (read : Json)
    (isRead : outline.tree depth = .ok read) :
    read.InOrder := by
  induction outline using inductionOn generalizing depth read with
  | leaf single =>
      rw [tree, Except.map_eq_ok_iff] at isRead
      obtain ⟨value, -, rfl⟩ := isRead
      exact .scalar value
  | array items ending inductionHypothesis =>
      cases depth with
      | zero =>
          cases isRead
      | succ depth =>
          rw [tree] at isRead
          obtain ⟨trees, itemsRead, rest⟩ := Except.bind_eq_ok_iff.mp isRead
          obtain ⟨-, -, shape⟩ := Except.bind_eq_ok_iff.mp rest
          rw [← Except.pure_eq_ok_iff.mp shape]
          rw [treeItems_eq_mapM, List.mapM_eq_ok_iff_forall₂] at itemsRead
          apply InOrder.array
          intro item held
          obtain ⟨outline, member, itemRead⟩ := itemsRead.exists_mem_left held
          exact inductionHypothesis outline member depth item itemRead
  | object members ending inductionHypothesis =>
      cases depth with
      | zero =>
          cases isRead
      | succ depth =>
          rw [tree] at isRead
          obtain ⟨known, membersRead, rest⟩ := Except.bind_eq_ok_iff.mp isRead
          obtain ⟨-, -, shape⟩ := Except.bind_eq_ok_iff.mp rest
          rw [← Except.pure_eq_ok_iff.mp shape]
          have nothingAscends : NameMap.Ordered ([] : NameMap Json) :=
            .nil
          exact inOrder_of_treeMembers
            (fun member held => inductionHypothesis member held depth)
            nothingAscends (List.forall_mem_nil _) membersRead
  | nothing fault =>
      cases isRead

end Outline

end Permission.Json
