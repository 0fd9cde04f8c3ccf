import Mathlib.Data.List.Lex
import Mathlib.Data.List.Shortlex
import Reconciler.BreadthFirst

/-! # The order of a breadth-first search

A route says which root a walk starts from and which link it follows at each node, by their positions. A route
is earlier than another if it is shorter, or as long and turns off at an earlier position. A breadth-first search
puts out its nodes in the order of their earliest routes. Its queue holds the nodes with the routes on which they
were met, and these are in order; a node that has not come out is not reached on an earlier route than these.
-/

namespace Reconciler.FiniteGraph

variable {α : Type}

/-- What a walk from the roots that takes the links at these positions comes to. -/
inductive Route (graph : FiniteGraph α) (roots : List α) : List Nat → α → Prop
  | root {position : Nat} {node : α} (at_position : roots[position]? = some node) :
      Route graph roots [position] node
  | link {route : List Nat} {node : α} {position : Nat} {successor : α} (before : Route graph roots route node)
      (at_position : (graph.next node)[position]? = some successor) :
      Route graph roots (route ++ [position]) successor

namespace Route

variable {graph : FiniteGraph α} {roots : List α} {route : List Nat} {node : α}

private theorem ne_nil (walk : graph.Route roots route node) : route ≠ [] := by
  cases walk <;> simp

theorem exists_length_eq (walk : graph.Route roots route node) : ∃ count, route.length = count + 1 :=
  Nat.exists_eq_succ_of_ne_zero fun none => walk.ne_nil (List.length_eq_zero_iff.1 none)

end Route

/-- Shorter routes are earlier, and among routes of one length those that turn off at an earlier position. -/
def Earlier : List Nat → List Nat → Prop := List.Shortlex (· < ·)

namespace Earlier

variable {first second third : List Nat}

theorem length_le (earlier : Earlier first second) : first.length ≤ second.length := by
  rcases List.shortlex_def.1 earlier with shorter | ⟨same, -⟩
  · exact shorter.le
  · exact same.le

theorem trans (before : Earlier first second) (after : Earlier second third) : Earlier first third := by
  rcases List.shortlex_def.1 before with shorter | ⟨same, lex⟩
  · exact .of_length_lt (shorter.trans_le (length_le after))
  · rcases List.shortlex_def.1 after with shorter | ⟨alike, onward⟩
    · exact .of_length_lt (same.trans_lt shorter)
    · exact .of_lex (same.trans alike) (List.lex_trans Nat.lt_trans lex onward)

theorem irrefl (route : List Nat) : ¬ Earlier route route := fun earlier =>
  asymm_of (List.Shortlex (· < ·)) earlier earlier

/-- A step further is later. -/
theorem append_singleton (route : List Nat) (position : Nat) : Earlier route (route ++ [position]) :=
  .of_length_lt (by simp)

/-- The earlier of two routes stays earlier when both take a step. -/
theorem append_both (earlier : Earlier first second) (position other : Nat) :
    Earlier (first ++ [position]) (second ++ [other]) := by
  rcases List.shortlex_def.1 earlier with shorter | ⟨same, lex⟩
  · exact .of_length_lt (by simpa using shorter)
  · refine .of_lex (by simp [same]) ?_
    induction lex with
    | nil => cases same
    | rel lt => exact .rel lt
    | cons lex ih => exact .cons (ih (.of_lex (Nat.succ.inj same) lex) (Nat.succ.inj same))

private theorem append_left {position other : Nat} (lt : position < other) (route : List Nat) :
    Earlier (route ++ [position]) (route ++ [other]) :=
  List.Shortlex.append_left ((List.shortlex_singleton_iff _ _).2 lt) route

/-- A route that takes its last step from an earlier route stays earlier if the later takes a step too. -/
theorem append_of_dropLast (earlier : Earlier first.dropLast second) (proceeds : first ≠ []) (position : Nat) :
    Earlier first (second ++ [position]) := by
  rw [← List.dropLast_append_getLast proceeds]
  exact earlier.append_both _ position

end Earlier

/-- A route that is the other or earlier. -/
def NoLater (first second : List Nat) : Prop := first = second ∨ Earlier first second

namespace NoLater

variable {first second third : List Nat}

private theorem trans_earlier (early : NoLater first second) (before : Earlier second third) : Earlier first third := by
  rcases early with rfl | early
  · exact before
  · exact early.trans before

private theorem append_singleton (early : NoLater first second) (position : Nat) : Earlier first
    (second ++ [position]) :=
  early.trans_earlier (Earlier.append_singleton second position)

private theorem append_both (early : NoLater first second) (position : Nat) :
    NoLater (first ++ [position]) (second ++ [position]) := by
  rcases early with rfl | early
  · exact .inl rfl
  · exact .inr (early.append_both position position)

end NoLater

private theorem Earlier.trans_noLater {first second third : List Nat} (before : Earlier first second)
    (early : NoLater second third) : Earlier first third := by
  rcases early with rfl | early
  · exact before
  · exact before.trans early

/-- A node with a route that is earlier than all routes to another. -/
def Ahead (graph : FiniteGraph α) (roots : List α) (near far : α) : Prop :=
  ∃ route, graph.Route roots route near ∧ ∀ other, graph.Route roots other far → Earlier route other

/-- The nodes that links lead to, each with its route from where they start. -/
def branches (route : List Nat) (nodes : List α) : List (List Nat × α) :=
  nodes.mapIdx fun position node => (route ++ [position], node)

private theorem map_snd_branches (route : List Nat) (nodes : List α) : (branches route nodes).map Prod.snd = nodes := by
  rw [branches, List.mapIdx_eq_zipIdx_map, List.map_map]
  exact List.zipIdx_map_fst 0 nodes

private theorem mem_branches {route : List Nat} {nodes : List α} {entry : List Nat × α} :
    entry ∈ branches route nodes ↔ ∃ position, nodes[position]? = some entry.2 ∧ entry.1 = route ++ [position] := by
  rw [List.mem_iff_getElem?]
  simp only [branches, List.getElem?_mapIdx, Option.map_eq_some_iff]
  constructor
  · rintro ⟨position, node, at_position, rfl⟩
    exact ⟨position, at_position, rfl⟩
  · rintro ⟨position, at_position, same⟩
    exact ⟨position, entry.2, at_position, Prod.ext same.symm rfl⟩

private theorem pairwise_branches (route : List Nat) (nodes : List α) :
    (branches route nodes).Pairwise fun near far => Earlier near.1 far.1 := by
  rw [List.pairwise_iff_getElem]
  intro position other _ _ lt
  simp only [branches, List.getElem_mapIdx]
  exact Earlier.append_left lt route

/-- A node that has come out, or waits in the queue with a route that is no later than this one. -/
def Awaited (queue : List (List Nat × α)) (found : List α) (route : List Nat) (node : α) : Prop :=
  node ∈ found ∨ ∃ entry ∈ queue, entry.2 = node ∧ NoLater entry.1 route

/-- What holds at each step of a search. The routes of the queue are in order, and none is more than a step
later than another. What has come out is followed up, was reached on earlier routes, and came out in order. -/
structure Routed (graph : FiniteGraph α) (roots : List α) (queue : List (List Nat × α)) (found : List α) :
    Prop where
  walked : ∀ entry ∈ queue, graph.Route roots entry.1 entry.2
  ordered : queue.Pairwise fun near far => Earlier near.1 far.1
  narrow : ∀ far ∈ queue, ∀ near ∈ queue, Earlier far.1.dropLast near.1
  rooted : ∀ {position : Nat} {node : α}, roots[position]? = some node → Awaited queue found [position] node
  linked : ∀ {route : List Nat} {node : α}, graph.Route roots route node → node ∈ found →
    ∀ {position : Nat} {successor : α}, (graph.next node)[position]? = some successor →
      Awaited queue found (route ++ [position]) successor
  past : ∀ node ∈ found, ∃ route, graph.Route roots route node ∧ ∀ entry ∈ queue, Earlier route entry.1
  ahead : found.Pairwise (graph.Ahead roots)

namespace Routed

variable {graph : FiniteGraph α} {roots : List α}

/-- The roots are met first. -/
theorem start (graph : FiniteGraph α) (roots : List α) : Routed graph roots (branches [] roots) [] where
  walked entry member := by
    obtain ⟨position, at_position, same⟩ := mem_branches.1 member
    rw [same]
    exact .root at_position
  ordered := pairwise_branches [] roots
  narrow far member near other := by
    obtain ⟨_, -, same⟩ := mem_branches.1 member
    obtain ⟨_, -, alike⟩ := mem_branches.1 other
    rw [same, alike]
    exact Earlier.append_singleton [] _
  rooted {position node} at_position :=
    .inr ⟨([position], node), mem_branches.2 ⟨position, at_position, rfl⟩, rfl, .inl rfl⟩
  linked _ absent := absurd absent List.not_mem_nil
  past _ absent := absurd absent List.not_mem_nil
  ahead := .nil

variable {route : List Nat} {node : α} {rest : List (List Nat × α)} {found : List α}

/-- On the way to a node that has not come out, something waits in the queue. -/
theorem exists_awaiting {queue : List (List Nat × α)} (routed : Routed graph roots queue found)
    {other : List Nat} (walk : graph.Route roots other node) (unseen : node ∉ found) :
    ∃ entry ∈ queue, NoLater entry.1 other := by
  induction walk with
  | root at_position =>
    obtain ⟨entry, member, -, early⟩ := (routed.rooted at_position).resolve_left unseen
    exact ⟨entry, member, early⟩
  | @link other before position node walk at_position ih =>
    by_cases known : before ∈ found
    · obtain ⟨entry, member, -, early⟩ := (routed.linked walk known at_position).resolve_left unseen
      exact ⟨entry, member, early⟩
    · obtain ⟨entry, member, early⟩ := ih known
      exact ⟨entry, member, .inr (early.append_singleton position)⟩

/-- The head of the queue has the earliest route to its node, if that has not come out. -/
theorem head_earliest (routed : Routed graph roots ((route, node) :: rest) found) (unseen : node ∉ found)
    {other : List Nat} (walk : graph.Route roots other node) : NoLater route other := by
  obtain ⟨entry, member, early⟩ := routed.exists_awaiting walk unseen
  rcases List.mem_cons.1 member with rfl | later
  · exact early
  · have before : Earlier route entry.1 := List.rel_of_pairwise_cons routed.ordered later
    exact .inr (before.trans_noLater early)

/-- Nodes that come out are no longer awaited. -/
theorem awaited_tail {found' : List α} {queue : List (List Nat × α)} {other : List Nat} {successor : α}
    (awaited : Awaited ((route, node) :: rest) found other successor) (out : node ∈ found') (old : found ⊆ found')
    (kept : rest ⊆ queue) : Awaited queue found' other successor := by
  rcases awaited with known | ⟨entry, member, rfl, early⟩
  · exact .inl (old known)
  · rcases List.mem_cons.1 member with rfl | later
    · exact .inl out
    · exact .inr ⟨entry, kept later, rfl, early⟩

/-- A node that has come out is passed over. -/
theorem skip (routed : Routed graph roots ((route, node) :: rest) found) (known : node ∈ found) :
    Routed graph roots rest found where
  walked entry member := routed.walked entry (List.mem_cons_of_mem _ member)
  ordered := routed.ordered.of_cons
  narrow far member near other :=
    routed.narrow far (List.mem_cons_of_mem _ member) near (List.mem_cons_of_mem _ other)
  rooted at_position := awaited_tail (routed.rooted at_position) known (List.Subset.refl _) (List.Subset.refl _)
  linked walk member _ _ at_position :=
    awaited_tail (routed.linked walk member at_position) known (List.Subset.refl _) (List.Subset.refl _)
  past other member := by
    obtain ⟨early, walk, before⟩ := routed.past other member
    exact ⟨early, walk, fun entry waits => before entry (List.mem_cons_of_mem _ waits)⟩
  ahead := routed.ahead

/-- What is met from the head of the queue is reached later than all that waits behind the head. -/
theorem earlier_branch (routed : Routed graph roots ((route, node) :: rest) found) {entry : List Nat × α}
    (waits : entry ∈ rest) (position : Nat) : Earlier entry.1 (route ++ [position]) := by
  have within := routed.narrow entry (List.mem_cons_of_mem _ waits) _ List.mem_cons_self
  exact within.append_of_dropLast (routed.walked entry (List.mem_cons_of_mem _ waits)).ne_nil position

/-- A route no later than that of the head, and earlier than all behind it, is also earlier than what is met from
the head. -/
theorem earlier_followed {early : List Nat} {nodes : List α} (headed : NoLater early route)
    (before : ∀ entry ∈ rest, Earlier early entry.1) :
    ∀ entry ∈ rest ++ branches route nodes, Earlier early entry.1 := by
  intro entry member
  rcases List.mem_append.1 member with old | new
  · exact before entry old
  · obtain ⟨position, -, same⟩ := mem_branches.1 new
    rw [same]
    exact headed.append_singleton position

/-- A new node comes out and its links are followed. -/
theorem take (routed : Routed graph roots ((route, node) :: rest) found) (unseen : node ∉ found) :
    Routed graph roots (rest ++ branches route (graph.next node)) (found ++ [node]) := by
  have walk : graph.Route roots route node := routed.walked _ List.mem_cons_self
  have first : ∀ entry ∈ rest, Earlier route entry.1 := fun _ => List.rel_of_pairwise_cons routed.ordered
  have listed : node ∈ found ++ [node] := List.mem_append_right _ (List.mem_singleton_self _)
  have kept : found ⊆ found ++ [node] := List.subset_append_left _ _
  have waiting : rest ⊆ rest ++ branches route (graph.next node) := List.subset_append_left _ _
  constructor
  case walked =>
    intro entry member
    rcases List.mem_append.1 member with old | new
    · exact routed.walked entry (List.mem_cons_of_mem _ old)
    · obtain ⟨position, at_position, same⟩ := mem_branches.1 new
      rw [same]
      exact walk.link at_position
  case ordered =>
    refine List.pairwise_append.2 ⟨routed.ordered.of_cons, pairwise_branches _ _, fun near old far new => ?_⟩
    obtain ⟨position, -, same⟩ := mem_branches.1 new
    rw [same]
    exact routed.earlier_branch old position
  case narrow =>
    intro far member
    rcases List.mem_append.1 member with old | new
    · refine earlier_followed (.inr ?_) fun entry waits => ?_
      · exact routed.narrow far (List.mem_cons_of_mem _ old) _ List.mem_cons_self
      · exact routed.narrow far (List.mem_cons_of_mem _ old) entry (List.mem_cons_of_mem _ waits)
    · obtain ⟨position, -, same⟩ := mem_branches.1 new
      rw [same, List.dropLast_concat]
      exact earlier_followed (.inl rfl) first
  case rooted => exact fun at_position => awaited_tail (routed.rooted at_position) listed kept waiting
  case linked =>
    intro other head passed out position successor at_position
    rcases List.mem_append.1 out with old | last
    · exact awaited_tail (routed.linked passed old at_position) listed kept waiting
    · obtain rfl := List.mem_singleton.1 last
      refine .inr ⟨(route ++ [position], successor), ?_, rfl, ?_⟩
      · exact List.mem_append_right _ (mem_branches.2 ⟨position, at_position, rfl⟩)
      · exact (routed.head_earliest unseen passed).append_both position
  case past =>
    intro other out
    rcases List.mem_append.1 out with old | last
    · obtain ⟨early, passed, ahead⟩ := routed.past other old
      refine ⟨early, passed, earlier_followed (.inr (ahead _ List.mem_cons_self)) fun entry waits => ?_⟩
      exact ahead entry (List.mem_cons_of_mem _ waits)
    · obtain rfl := List.mem_singleton.1 last
      exact ⟨route, walk, earlier_followed (.inl rfl) first⟩
  case ahead =>
    refine List.pairwise_append.2 ⟨routed.ahead, List.pairwise_singleton _ _, fun other old last single => ?_⟩
    obtain rfl := List.mem_singleton.1 single
    obtain ⟨early, passed, ahead⟩ := routed.past other old
    refine ⟨early, passed, fun longer later => ?_⟩
    exact (ahead _ List.mem_cons_self).trans_noLater (routed.head_earliest unseen later)

variable [DecidableEq α]

/-- What comes out at the end is in order. -/
theorem pairwise_search {queue : List (List Nat × α)} (routed : Routed graph roots queue found) :
    (graph.search (queue.map Prod.snd) found).Pairwise (graph.Ahead roots) := by
  generalize same : queue.map Prod.snd = nodes
  fun_induction search graph nodes found generalizing queue with
  | case1 found => exact routed.ahead
  | case2 found node others known ih =>
    obtain ⟨⟨route, _⟩, rest, rfl, rfl, rfl⟩ := List.map_eq_cons_iff.1 same
    exact ih (routed.skip known) rfl
  | case3 found node others unseen ih =>
    obtain ⟨⟨route, _⟩, rest, rfl, rfl, rfl⟩ := List.map_eq_cons_iff.1 same
    refine ih (routed.take unseen) ?_
    rw [List.map_append, map_snd_branches]

end Routed

/-- A breadth-first search puts out its nodes in the order of their earliest routes. -/
theorem pairwise_breadthFirst [DecidableEq α] (graph : FiniteGraph α) (roots : List α) :
    (graph.breadthFirst roots).Pairwise (graph.Ahead roots) := by
  have routed := Routed.pairwise_search (Routed.start graph roots)
  rwa [map_snd_branches] at routed

end Reconciler.FiniteGraph
