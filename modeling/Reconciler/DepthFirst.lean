import Reconciler.BreadthFirst.Reachability

/-! # Depth-first search

A depth-first search follows the links of the node that was met last, and stops as soon as it meets its
target. The nodes that wait stand on a stack. Links are followed once, so the search also ends where
cycles go round without the target.
-/

namespace Reconciler.FiniteGraph

variable {α : Type}

/-- A stack after nodes were put on it one by one. Its top comes first. -/
def pushed (nodes stack : List α) : List α := nodes.reverse ++ stack

theorem mem_pushed {nodes stack : List α} {node : α} :
    node ∈ pushed nodes stack ↔ node ∈ nodes ∨ node ∈ stack := by
  rw [pushed, List.mem_append, List.mem_reverse]

private theorem length_pushed (nodes stack : List α) : (pushed nodes stack).length = nodes.length + stack.length := by
  rw [pushed, List.length_append, List.length_reverse]

variable [DecidableEq α]

/-- Whether a search with this stack meets the target. `seen` holds the nodes whose links were followed. -/
def meets (graph : FiniteGraph α) (target : α) (stack seen : List α) : Bool :=
  match stack with
  | [] => false
  | node :: rest =>
      if node = target then true
      else if node ∈ seen then graph.meets target rest seen
      else graph.meets target (pushed (graph.next node) rest) (seen ++ [node])
termination_by stack.length + (graph.pending seen).length
decreasing_by
  · simp
  · next unseen =>
    have := graph.length_pending_append_le unseen
    simp only [length_pushed, List.length_cons]
    omega

/-- What is met, a node of the stack leads to. -/
private theorem leads_of_meets {graph : FiniteGraph α} {target : α} {stack seen : List α}
    (met : graph.meets target stack seen = true) : ∃ node ∈ stack, graph.Leads node target := by
  fun_induction meets graph target stack seen with
  | case1 seen => cases met
  | case2 seen rest => exact ⟨target, List.mem_cons_self, .refl target⟩
  | case3 seen node rest other known ih =>
    obtain ⟨root, member, leads⟩ := ih met
    exact ⟨root, List.mem_cons_of_mem _ member, leads⟩
  | case4 seen node rest other unseen ih =>
    obtain ⟨root, member, leads⟩ := ih met
    rcases mem_pushed.1 member with link | later
    · exact ⟨node, List.mem_cons_self, .step link leads⟩
    · exact ⟨root, List.mem_cons_of_mem _ later, leads⟩

/-- A search that misses its target has passed through a set without it that no link leads out of. -/
private theorem exists_closed_of_missed {graph : FiniteGraph α} {target : α} {stack seen : List α}
    (missed : graph.meets target stack seen = false) (other : target ∉ seen)
    (waiting : ∀ node ∈ seen, ∀ successor ∈ graph.next node, successor ∈ seen ∨ successor ∈ stack) :
    ∃ passed : List α, seen ⊆ passed ∧ stack ⊆ passed ∧ target ∉ passed ∧
      ∀ node ∈ passed, ∀ successor ∈ graph.next node, successor ∈ passed := by
  fun_induction meets graph target stack seen with
  | case1 seen =>
    refine ⟨seen, List.Subset.refl _, List.nil_subset _, other, fun node member successor link => ?_⟩
    exact (waiting node member successor link).resolve_right List.not_mem_nil
  | case2 => cases missed
  | case3 seen node rest different known ih =>
    obtain ⟨passed, old, later, spared, closed⟩ := ih missed other fun head member successor link => by
      rcases waiting head member successor link with early | met
      · exact .inl early
      · rcases List.mem_cons.1 met with rfl | met
        · exact .inl known
        · exact .inr met
    exact ⟨passed, old, List.cons_subset.2 ⟨old known, later⟩, spared, closed⟩
  | case4 seen node rest different unseen ih =>
    have spared : target ∉ seen ++ [node] := by simp [other, Ne.symm different]
    obtain ⟨passed, old, later, spared, closed⟩ := ih missed spared fun head member successor link => by
      rcases List.mem_append.1 member with early | last
      · rcases waiting head early successor link with early | met
        · exact .inl (List.mem_append_left _ early)
        · rcases List.mem_cons.1 met with rfl | met
          · exact .inl (List.mem_append_right _ (List.mem_singleton_self _))
          · exact .inr (mem_pushed.2 (.inr met))
      · obtain rfl := List.mem_singleton.1 last
        exact .inr (mem_pushed.2 (.inl link))
    have here : node ∈ passed := old (List.mem_append_right _ (List.mem_singleton_self _))
    have before : seen ⊆ passed := fun head member => old (List.mem_append_left _ member)
    refine ⟨passed, before, List.cons_subset.2 ⟨here, ?_⟩, spared, closed⟩
    exact fun met member => later (mem_pushed.2 (.inr member))

/-- The search meets its target if and only if a node of the stack leads there. -/
theorem meets_iff {graph : FiniteGraph α} {target : α} {stack : List α} :
    graph.meets target stack [] = true ↔ ∃ node ∈ stack, graph.Leads node target := by
  refine ⟨leads_of_meets, ?_⟩
  rintro ⟨node, member, leads⟩
  apply Bool.of_not_eq_false
  intro missed
  obtain ⟨passed, -, known, spared, closed⟩ :=
    exists_closed_of_missed missed List.not_mem_nil fun _ absent => absurd absent List.not_mem_nil
  have start : node ∈ passed := known member
  clear member missed known
  induction leads with
  | refl => exact spared start
  | step link _ ih => exact ih spared (closed _ start _ link)

end Reconciler.FiniteGraph
