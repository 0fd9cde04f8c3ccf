import Reconciler.BreadthFirst
import Reconciler.Heap

/-! # Reachable objects

The parts of a node are the values of its attributes, its slots or elements, or its keys and values,
in order. An object reaches those among its parts that are objects, and all that they reach.
-/

namespace Reconciler

/-- All values that a node holds, in order; every key comes before its value. -/
def Node.parts (node : Node) : List Value :=
  match node.content with
  | .bean attributes => attributes.values
  | .array _ slots => slots
  | .collection _ elements => elements
  | .map bindings => bindings.entries.flatMap (fun entry => [entry.1, entry.2])
  | .sealed => []

namespace Heap

/-- The objects that an object refers to. -/
def referents (heap : Heap) (id : ObjectId) : List ObjectId :=
  (heap.node id).parts.filterMap Value.object?

/-- Objects and their referents; a place that was never allocated refers to nothing. -/
def references (heap : Heap) : FiniteGraph ObjectId where
  next := heap.referents
  inner := (List.range heap.size).map ObjectId.mk
  mem_inner := by
    intro id refers
    by_cases held : heap.Holds id
    · exact List.mem_map.2 ⟨id.index, List.mem_range.2 held, rfl⟩
    · have bound : heap.nodes.size ≤ id.index := Nat.le_of_not_lt held
      refine absurd ?_ refers
      simp [referents, Heap.node, node?, bound, default, Node.sealed, Node.parts]

/-- The objects reachable from the roots, roots included, in breadth-first order. -/
def reachable (heap : Heap) (roots : List ObjectId) : List ObjectId :=
  heap.references.breadthFirst roots

end Heap

end Reconciler
