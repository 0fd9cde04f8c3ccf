import Reconciler.Node
import Reconciler.Text.Decimal
import Reconciler.Text.Quoted

/-! # The heap

The heap holds the node of every object. An object's identity is its place, so allocating leaves
every other object as it is, and editing one object leaves the others as they are. A place that was
never allocated reads as a sealed node without a name.
-/

namespace Reconciler

structure Heap where
  nodes : Array Node := #[]
deriving DecidableEq, Repr, Inhabited

namespace Heap

def size (heap : Heap) : Nat := heap.nodes.size

/-- The object was allocated. -/
def Holds (heap : Heap) (id : ObjectId) : Prop := id.index < heap.size

instance (heap : Heap) (id : ObjectId) : Decidable (heap.Holds id) :=
  inferInstanceAs (Decidable (_ < _))

def node? (heap : Heap) (id : ObjectId) : Option Node := heap.nodes[id.index]?

def node (heap : Heap) (id : ObjectId) : Node := (heap.node? id).getD default

/-- The identity that the next allocated object gets. -/
def fresh (heap : Heap) : ObjectId := ⟨heap.size⟩

def allocate (heap : Heap) (node : Node) : Heap := ⟨heap.nodes.push node⟩

def edit (heap : Heap) (id : ObjectId) (edit : Edit) : Heap :=
  ⟨heap.nodes.modify id.index (·.edited edit)⟩

@[simp] theorem size_allocate (heap : Heap) (node : Node) :
    (heap.allocate node).size = heap.size + 1 := by
  simp [allocate, size]

@[simp] theorem size_edit (heap : Heap) (id : ObjectId) (change : Edit) :
    (heap.edit id change).size = heap.size := by
  simp [edit, size]

/-- A place that was never allocated reads as a sealed node. -/
theorem node_of_not_holds {heap : Heap} {id : ObjectId} (absent : ¬ heap.Holds id) : heap.node id = default := by
  have bound : heap.nodes.size ≤ id.index := Nat.le_of_not_lt absent
  simp [Heap.node, node?, bound]

/-- Allocation adds the new object and keeps the node of every other one. -/
theorem node?_allocate (heap : Heap) (node : Node) (id : ObjectId) :
    (heap.allocate node).node? id = if id = heap.fresh then some node else heap.node? id := by
  have same : id = heap.fresh ↔ id.index = heap.nodes.size := by
    cases id
    simp [fresh, size]
  simp only [allocate, node?, Array.getElem?_push, same]

theorem node_allocate (heap : Heap) (node : Node) (id : ObjectId) :
    (heap.allocate node).node id = if id = heap.fresh then node else heap.node id := by
  rw [Heap.node, node?_allocate]
  split <;> rfl

theorem holds_allocate {heap : Heap} {node : Node} {id : ObjectId} :
    (heap.allocate node).Holds id ↔ heap.Holds id ∨ id = heap.fresh := by
  have same : id = heap.fresh ↔ id.index = heap.size := by
    cases id
    simp [fresh]
  rw [same, Holds, Holds, size_allocate]
  omega

@[simp] theorem holds_edit {heap : Heap} {target id : ObjectId} {change : Edit} :
    (heap.edit target change).Holds id ↔ heap.Holds id := by
  rw [Holds, Holds, size_edit]

theorem not_holds_fresh (heap : Heap) : ¬ heap.Holds heap.fresh :=
  Nat.lt_irrefl _

/-- The new object is what was allocated. -/
theorem node_fresh (heap : Heap) (node : Node) : (heap.allocate node).node heap.fresh = node := by
  rw [node_allocate, if_pos rfl]

/-- Allocation changes no object that was there before. -/
theorem node_allocate_of_holds {heap : Heap} {id : ObjectId} (held : heap.Holds id) (node : Node) :
    (heap.allocate node).node id = heap.node id := by
  have other : id ≠ heap.fresh := by
    rintro rfl
    exact Nat.lt_irrefl _ held
  rw [node_allocate, if_neg other]

/-- An edit changes the object it is made to and no other. -/
theorem node_edit (heap : Heap) (target : ObjectId) (change : Edit) (id : ObjectId) :
    (heap.edit target change).node id =
      if id = target ∧ heap.Holds target then (heap.node id).edited change else heap.node id := by
  have same : id = target ↔ target.index = id.index := by
    cases id
    cases target
    simp [eq_comm]
  simp only [edit, Heap.node, node?, Array.getElem?_modify]
  by_cases here : id = target
  · subst here
    by_cases held : heap.Holds id
    · have bound : id.index < heap.nodes.size := held
      simp [held, bound]
    · have bound : heap.nodes.size ≤ id.index := Nat.le_of_not_lt held
      simp [held, bound]
  · simp [here, mt same.mpr here]

theorem node_edit_of_ne (heap : Heap) {target id : ObjectId} (different : id ≠ target) (change : Edit) :
    (heap.edit target change).node id = heap.node id := by
  rw [node_edit, if_neg fun here => different here.1]

theorem node_edit_self {heap : Heap} {target : ObjectId} (held : heap.Holds target) (change : Edit) :
    (heap.edit target change).node target = (heap.node target).edited change := by
  rw [node_edit, if_pos ⟨rfl, held⟩]

/-- No edit changes the type of any object. -/
@[simp] theorem type_edit (heap : Heap) (target : ObjectId) (change : Edit) (id : ObjectId) :
    ((heap.edit target change).node id).type = (heap.node id).type := by
  rw [node_edit]
  split <;> simp

/-- No edit changes the shape of any object. -/
@[simp] theorem shape?_edit (heap : Heap) (target : ObjectId) (change : Edit) (id : ObjectId) :
    ((heap.edit target change).node id).shape? = (heap.node id).shape? := by
  rw [node_edit]
  split <;> simp

/-- How a value reads in a message: an object shows as its type, since its content may lead back to
itself. -/
def describe (heap : Heap) : Value → String
  | .null => "null"
  | .bool flag => if flag then "true" else "false"
  | .int number => toString number.toInt
  | .float bits => Decimal.ofBits bits
  | .text content => Quoted.quote content
  | .object id => (heap.node id).type.name ++ "@obj"

/-- A message shows the types of objects and nothing else of them. -/
theorem describe_of_types {left right : Heap} (types : ∀ id, (left.node id).type = (right.node id).type)
    (value : Value) : left.describe value = right.describe value := by
  cases value with
  | object id => simp only [describe, types]
  | _ => rfl

/-- How a value reads while `busy` is being written: that object does not even show its type. -/
def describeWhile (heap : Heap) (busy : ObjectId) (value : Value) : String :=
  if value = .object busy then "<locked>@obj" else heap.describe value

end Heap

namespace Value

/-- The run-time type; null has none. -/
def typeName? (heap : Heap) : Value → Option TypeName
  | null => none
  | bool _ => some .bool
  | int _ => some .int
  | float _ => some .float
  | text _ => some .text
  | object id => some (heap.node id).type

/-- The built-in type of a container's content. -/
def shape? (heap : Heap) (value : Value) : Option TypeName :=
  value.object?.bind (fun id => (heap.node id).shape?)

/-- Everything but an object with unloaded content. -/
def isLoaded (heap : Heap) : Value → Bool
  | object id => (heap.node id).origin.isLoaded
  | _ => true

/-- A collection or map that belongs to a store. -/
def isManagedContainer (heap : Heap) : Value → Bool
  | object id => (heap.node id).origin.isManaged && (heap.node id).isContainer
  | _ => false

end Value

end Reconciler
