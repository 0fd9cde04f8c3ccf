import Reconciler.BreadthFirst

/-! # What a breadth-first search finds

The nodes that come out are those that a root leads to, and none comes out twice.
-/

namespace Reconciler.FiniteGraph

variable {α : Type}

/-- A node leads to itself and to all that its successors lead to. -/
inductive Leads (graph : FiniteGraph α) : α → α → Prop where
  | refl (node : α) : graph.Leads node node
  | step {node successor final : α} (link : successor ∈ graph.next node)
      (onward : graph.Leads successor final) : graph.Leads node final

theorem Leads.trans {graph : FiniteGraph α} {first second third : α}
    (before : graph.Leads first second) (after : graph.Leads second third) :
    graph.Leads first third := by
  induction before with
  | refl => exact after
  | step link _ ih => exact .step link (ih after)

variable [DecidableEq α]

/-- What came out stays, in its place. -/
private theorem prefix_search (graph : FiniteGraph α) (queue found : List α) :
    found <+: graph.search queue found := by
  fun_induction search graph queue found with
  | case1 found => exact List.prefix_rfl
  | case2 found node rest known ih => exact ih
  | case3 found node rest unseen ih => exact (List.prefix_append _ _).trans ih

/-- All that was met comes out. -/
private theorem mem_search_of_mem_queue {graph : FiniteGraph α} {queue found : List α} {node : α}
    (met : node ∈ queue) : node ∈ graph.search queue found := by
  fun_induction search graph queue found with
  | case1 found => cases met
  | case2 found head rest known ih =>
    rcases List.mem_cons.1 met with rfl | later
    · exact (graph.prefix_search rest found).subset known
    · exact ih later
  | case3 found head rest unseen ih =>
    rcases List.mem_cons.1 met with rfl | later
    · exact (graph.prefix_search _ _).subset (List.mem_append_right _ (List.mem_singleton_self _))
    · exact ih (List.mem_append_left _ later)

private theorem leads_of_mem_search {graph : FiniteGraph α} {queue found : List α} {node : α}
    (out : node ∈ graph.search queue found) :
    node ∈ found ∨ ∃ root ∈ queue, graph.Leads root node := by
  fun_induction search graph queue found with
  | case1 found => exact .inl out
  | case2 found head rest known ih =>
    rcases ih out with early | ⟨root, member, leads⟩
    · exact .inl early
    · exact .inr ⟨root, List.mem_cons_of_mem _ member, leads⟩
  | case3 found head rest unseen ih =>
    rcases ih out with early | ⟨root, member, leads⟩
    · rcases List.mem_append.1 early with early | last
      · exact .inl early
      · obtain rfl := List.mem_singleton.1 last
        exact .inr ⟨node, List.mem_cons_self, .refl node⟩
    · rcases List.mem_append.1 member with later | link
      · exact .inr ⟨root, List.mem_cons_of_mem _ later, leads⟩
      · exact .inr ⟨head, List.mem_cons_self, .step link leads⟩

/-- If the successors of what came out have come out or wait in the queue, then in the end all have
come out. -/
private theorem search_closed {graph : FiniteGraph α} {queue found : List α}
    (waiting : ∀ node ∈ found, ∀ successor ∈ graph.next node, successor ∈ found ∨ successor ∈ queue)
    {node successor : α} (out : node ∈ graph.search queue found)
    (link : successor ∈ graph.next node) : successor ∈ graph.search queue found := by
  fun_induction search graph queue found with
  | case1 found => exact (waiting node out successor link).resolve_right List.not_mem_nil
  | case2 found head rest known ih =>
    refine ih (fun other member following joined => ?_) out
    rcases waiting other member following joined with early | later
    · exact .inl early
    · rcases List.mem_cons.1 later with rfl | later
      · exact .inl known
      · exact .inr later
  | case3 found head rest unseen ih =>
    refine ih (fun other member following joined => ?_) out
    rcases List.mem_append.1 member with early | last
    · rcases waiting other early following joined with early | later
      · exact .inl (List.mem_append_left _ early)
      · rcases List.mem_cons.1 later with rfl | later
        · exact .inl (List.mem_append_right _ (List.mem_singleton_self _))
        · exact .inr (List.mem_append_left _ later)
    · obtain rfl := List.mem_singleton.1 last
      exact .inr (List.mem_append_right _ joined)

private theorem nodup_search {graph : FiniteGraph α} {queue found : List α} (distinct : found.Nodup) :
    (graph.search queue found).Nodup := by
  fun_induction search graph queue found with
  | case1 found => exact distinct
  | case2 found node rest known ih => exact ih distinct
  | case3 found node rest unseen ih =>
    refine ih (List.nodup_append.2 ⟨distinct, by simp, fun early member last single => ?_⟩)
    rintro rfl
    exact unseen (List.mem_singleton.1 single ▸ member)

/-- The search finds exactly what the roots lead to. -/
theorem mem_breadthFirst {graph : FiniteGraph α} {roots : List α} {node : α} :
    node ∈ graph.breadthFirst roots ↔ ∃ root ∈ roots, graph.Leads root node := by
  constructor
  · intro out
    exact (leads_of_mem_search out).resolve_left List.not_mem_nil
  · rintro ⟨root, member, leads⟩
    have start : root ∈ graph.breadthFirst roots := mem_search_of_mem_queue member
    clear member
    induction leads with
    | refl => exact start
    | step link _ ih =>
      exact ih (search_closed (fun _ absent => absurd absent List.not_mem_nil) start link)

theorem nodup_breadthFirst (graph : FiniteGraph α) (roots : List α) :
    (graph.breadthFirst roots).Nodup :=
  nodup_search List.nodup_nil

end Reconciler.FiniteGraph
