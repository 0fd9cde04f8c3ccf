/-! # Breadth-first search

A graph in which finitely many nodes have successors is searched breadth first: nodes come out in the
order in which they are first met, each once. The search ends because the links of a node are followed
once, when the node comes out.
-/

namespace Reconciler

/-- The successors of each node, and a list of all nodes that have any. -/
structure FiniteGraph (α : Type) where
  next : α → List α
  inner : List α
  mem_inner : ∀ {node : α}, next node ≠ [] → node ∈ inner

namespace FiniteGraph

variable {α : Type} [DecidableEq α]

/-- The links that a search which has found `found` has yet to follow. -/
def pending (graph : FiniteGraph α) (found : List α) : List α :=
  (graph.inner.filter (fun node => decide (node ∉ found))).flatMap graph.next

private theorem length_flatMap_unfound (next : α → List α) (nodes found : List α) {node : α}
    (unseen : node ∉ found) :
    ((nodes.filter (fun other => decide (other ∉ found ++ [node]))).flatMap next).length +
        (if node ∈ nodes then (next node).length else 0) ≤
      ((nodes.filter (fun other => decide (other ∉ found))).flatMap next).length := by
  have grown : ∀ other, other ∉ found ++ [node] ↔ other ∉ found ∧ other ≠ node := by simp
  simp only [grown]
  induction nodes with
  | nil => simp
  | cons head rest ih =>
    by_cases same : head = node
    · subst same
      simp only [List.filter_cons, unseen, not_false_eq_true, ne_eq, not_true_eq_false, and_false,
        decide_false, decide_true, Bool.false_eq_true, if_false, if_true, List.mem_cons_self,
        List.flatMap_cons, List.length_append] at ih ⊢
      omega
    · by_cases known : head ∈ found
      · simpa only [List.filter_cons, known, not_true_eq_false, false_and, decide_false,
          Bool.false_eq_true, if_false, List.mem_cons, Ne.symm same, false_or] using ih
      · simp only [List.filter_cons, known, same, not_false_eq_true, ne_eq, and_self, decide_true,
          if_true, List.mem_cons, Ne.symm same, false_or, List.flatMap_cons,
          List.length_append] at ih ⊢
        omega

/-- Following the links of a new node uses them up. -/
theorem length_pending_append_le (graph : FiniteGraph α) {found : List α} {node : α}
    (unseen : node ∉ found) :
    (graph.pending (found ++ [node])).length + (graph.next node).length ≤
      (graph.pending found).length := by
  have bound := length_flatMap_unfound graph.next graph.inner found unseen
  by_cases final : graph.next node = []
  · simp only [pending, final, List.length_nil] at bound ⊢
    omega
  · simp only [graph.mem_inner final, if_true] at bound
    exact bound

/-- Search on from a queue of nodes that were met. `found` holds the nodes that came out, in order. -/
def search (graph : FiniteGraph α) (queue found : List α) : List α :=
  match queue with
  | [] => found
  | node :: rest =>
      if node ∈ found then graph.search rest found
      else graph.search (rest ++ graph.next node) (found ++ [node])
termination_by queue.length + (graph.pending found).length
decreasing_by
  · simp
  · next unseen =>
    have := graph.length_pending_append_le unseen
    simp only [List.length_append, List.length_cons]
    omega

/-- All nodes that can be reached from the roots, in breadth-first order. -/
def breadthFirst (graph : FiniteGraph α) (roots : List α) : List α := graph.search roots []

end FiniteGraph

end Reconciler
