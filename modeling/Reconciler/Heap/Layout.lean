import Reconciler.Heap

/-! # What an object remains

An object is laid out once and for all: edits change what it holds, but neither its type nor its layout, and of all
edits only one is about where it came from.
-/

namespace Reconciler

/-- How the content of a node is laid out. -/
inductive Layout where
  | bean
  | array (component : TypeName)
  | list
  | set
  | map
  | sealed
deriving DecidableEq, Repr, Inhabited

def CollectionKind.layout : CollectionKind → Layout
  | list => .list
  | set => .set

def Content.layout : Content → Layout
  | bean _ => .bean
  | array component _ => .array component
  | collection kind _ => kind.layout
  | map _ => .map
  | sealed => .sealed

def Node.layout (node : Node) : Layout := node.content.layout

namespace Content

private theorem layout_of_edited? {before after : Content} {edit : Edit} (fits : before.edited? edit = some after) :
    after.layout = before.layout := by
  cases before <;> cases edit <;> simp_all [edited?] <;> obtain ⟨_, rfl⟩ := fits <;> rfl

theorem layout_eq_array_iff {content : Content} {component : TypeName} :
    content.layout = .array component ↔ ∃ slots, content = .array component slots := by
  rcases content with _ | ⟨other, slots⟩ | ⟨kind, _⟩ | _ | _
  case array => simp [layout]
  case collection => cases kind <;> simp [layout, CollectionKind.layout]
  all_goals simp [layout]

end Content

namespace Node

theorem edited_of_unfit {node : Node} {edit : Edit} (unfit : node.content.edited? edit = none) :
    node.edited edit = node :=
  edited_of_refused (by rw [accepts, unfit]; rfl)

/-- No edit changes the layout of a node. -/
@[simp] theorem layout_edited (node : Node) (edit : Edit) : (node.edited edit).layout = node.layout := by
  rcases fits : node.content.edited? edit with _ | content
  · rw [edited_of_unfit fits]
  · have same := Content.layout_of_edited? fits
    unfold edited
    rw [fits]
    cases edit <;> exact same

private theorem shape?_of_layout {left right : Node} (same : left.layout = right.layout) :
    left.shape? = right.shape? := by
  rcases left with ⟨_, _, _ | _ | ⟨_ | _, _⟩ | _ | _⟩ <;> rcases right with ⟨_, _, _ | _ | ⟨_ | _, _⟩ | _ | _⟩ <;>
    cases same <;> rfl

@[simp] theorem layout_emptyLike (node : Node) : node.emptyLike.layout = node.layout := by
  rcases node with ⟨type, origin, content⟩
  cases content <;> rfl

end Node

/-- Objects stay, with their type and their layout, and only the named one may get another origin. -/
structure Heap.Retains (rehomed? : Option ObjectId) (before after : Heap) : Prop where
  holds : ∀ id, before.Holds id → after.Holds id
  type_eq : ∀ id, before.Holds id → (after.node id).type = (before.node id).type
  layout_eq : ∀ id, before.Holds id → (after.node id).layout = (before.node id).layout
  origin_eq : ∀ id, before.Holds id → rehomed? ≠ some id → (after.node id).origin = (before.node id).origin

namespace Heap.Retains

theorem refl (rehomed? : Option ObjectId) (heap : Heap) : heap.Retains rehomed? heap :=
  ⟨fun _ held => held, fun _ _ => rfl, fun _ _ => rfl, fun _ _ _ => rfl⟩

theorem trans {rehomed? : Option ObjectId} {first second third : Heap} (before : first.Retains rehomed? second)
    (after : second.Retains rehomed? third) : first.Retains rehomed? third where
  holds id held := after.holds id (before.holds id held)
  type_eq id held := (after.type_eq id (before.holds id held)).trans (before.type_eq id held)
  layout_eq id held := (after.layout_eq id (before.holds id held)).trans (before.layout_eq id held)
  origin_eq id held other :=
    (after.origin_eq id (before.holds id held) other).trans (before.origin_eq id held other)

theorem allocate (heap : Heap) (node : Node) : heap.Retains none (heap.allocate node) := by
  refine ⟨fun id held => holds_allocate.2 (.inl held), ?_, ?_, ?_⟩ <;> intro id held <;>
    simp only [node_allocate_of_holds held, implies_true]

/-- An edit changes an origin only where it is made. -/
theorem edit (heap : Heap) (target : ObjectId) {change : Edit} {rehomed? : Option ObjectId}
    (named : (∀ origin, change ≠ .setOrigin origin) ∨ rehomed? = some target) :
    heap.Retains rehomed? (heap.edit target change) where
  holds id held := holds_edit.2 held
  type_eq id _ := type_edit heap target change id
  layout_eq id _ := by
    rw [node_edit]
    split <;> simp
  origin_eq id _ other := by
    rw [node_edit]
    split
    · next here =>
      refine Node.origin_edited (named.resolve_right fun same => other ?_)
      rw [same, here.1]
    · rfl

/-- The shape of an object follows from its layout. -/
theorem shape?_eq {rehomed? : Option ObjectId} {before after : Heap} (retains : before.Retains rehomed? after)
    (id : ObjectId) (held : before.Holds id) : (after.node id).shape? = (before.node id).shape? :=
  Node.shape?_of_layout (retains.layout_eq id held)

end Heap.Retains

end Reconciler
