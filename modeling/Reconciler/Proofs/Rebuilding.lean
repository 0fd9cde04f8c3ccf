import Reconciler.Proofs.Clone.Filling

/-! # Rebuilding containers

When a graph is applied that holds no entities, every container that is visited gets one new copy, and every other
object that is visited stands for itself and is not looked into. So different objects have different counterparts,
and every new object is the copy of some container. No old object changes, and no new one after it was filled.
-/

namespace Reconciler

/-- An object that is no container: handlers find nothing in it to rebuild. -/
def World.Inert (world : World) (object : ObjectId) : Prop :=
  (world.heap.node object).content.handler? = none

/-- A set of objects that can be rebuilt together: each is treated as its content asks for and holds what its content
may hold, what is no container is no entity, and the containers hold members of the set. -/
structure Rebuildable (source : World) (member : ObjectId → Prop) : Prop where
  scalar : ∀ value, value.object? = none → ∀ handler,
    source.dispatch.registry.ofValue source.heap value = some handler → handler = .basic
  held : ∀ object, member object → source.heap.Holds object
  handler?_eq : ∀ object, member object → source.handler? object = (source.heap.node object).content.handler?
  undescribed : ∀ object, member object → source.Inert object →
    source.store.entity? (source.heap.node object).type = none
  distinct : ∀ object, member object → (source.heap.node object).Distinct
  scalars : ∀ object, member object → (source.heap.node object).hasScalarSlots = true →
    ∀ item ∈ (source.heap.node object).items, item.object? = none
  closed : ∀ object, member object → ∀ part, .object part ∈ (source.heap.node object).members → member part

/-- What an object is replaced by: itself, or a new object if it is a container. -/
structure World.Replaces (source : World) (object copy : ObjectId) : Prop where
  same : source.Inert object → copy = object
  new : ¬ source.Inert object → ¬ source.heap.Holds copy

/-- A world that a run can be in which rebuilds containers. -/
structure Rebuilding (source : World) (member : ObjectId → Prop) (now : World) : Prop where
  size_le : source.heap.size ≤ now.heap.size
  kept : ∀ object, source.heap.Holds object → now.heap.node object = source.heap.node object
  registry : now.dispatch.registry = source.dispatch.registry
  store : now.store = source.store
  visited : ∀ object target, now.visits.get? object = some target → member object ∧
    ∃ copy, target = .object copy ∧ now.heap.Holds copy ∧ source.Replaces object copy
  injective : ∀ left right target, now.visits.get? left = some target → now.visits.get? right = some target →
    left = right
  recorded : ∀ copy, ¬ source.heap.Holds copy → now.heap.Holds copy →
    ∃ object, now.visits.get? object = some (.object copy)

/-- What a part of the run does that leaves no other containers open than the given ones. What is no container has no
copy that could mirror it, so it counts as open for good. -/
abbrev Rebuilds (setting : Setting) (source : World) (opened : ObjectId → Prop) (now after : World) : Prop :=
  Advance setting source (fun object => source.Inert object ∨ opened object) now id after id

namespace Rebuilding

variable {setting : Setting} {source now after : World} {member opened : ObjectId → Prop} {object copy : ObjectId}

/-- The run begins with nothing visited. -/
theorem start (unvisited : source.visits = {}) : Rebuilding source member source where
  size_le := Nat.le_refl _
  kept _ _ := rfl
  registry := rfl
  store := rfl
  visited object target known := by
    rw [unvisited] at known
    cases known
  injective left right target known := by
    rw [unvisited] at known
    cases known
  recorded copy new held := absurd held new

/-- A change that matters neither to the copies nor to what the run looks up. -/
theorem of_same (rebuilding : Rebuilding source member now) (heap : after.heap = now.heap)
    (visits : after.visits = now.visits) (registry : after.dispatch.registry = now.dispatch.registry)
    (store : after.store = now.store) : Rebuilding source member after where
  size_le := heap ▸ rebuilding.size_le
  kept := heap ▸ rebuilding.kept
  registry := registry.trans rebuilding.registry
  store := store.trans rebuilding.store
  visited := by
    rw [heap, visits]
    exact rebuilding.visited
  injective := visits ▸ rebuilding.injective
  recorded := by
    rw [heap, visits]
    exact rebuilding.recorded

variable (rebuilding : Rebuilding source member now)

include rebuilding

private theorem holds (held : source.heap.Holds object) : now.heap.Holds object :=
  Nat.lt_of_lt_of_le held rebuilding.size_le

theorem member_of (visited : now.visits.get? object = some (.object copy)) : member object :=
  (rebuilding.visited object _ visited).1

theorem held_of_visited (visited : now.visits.get? object = some (.object copy)) : now.heap.Holds copy := by
  obtain ⟨-, _, same, held, -⟩ := rebuilding.visited object _ visited
  cases same
  exact held

theorem replaces (visited : now.visits.get? object = some (.object copy)) : source.Replaces object copy := by
  obtain ⟨-, _, same, -, replaces⟩ := rebuilding.visited object _ visited
  cases same
  exact replaces

/-- Old objects have the handler that they had. -/
theorem handler?_eq (held : source.heap.Holds object) : now.handler? object = source.handler? object :=
  World.handler?_of_same rebuilding.registry (congrArg Node.type (rebuilding.kept object held))
    (congrArg Node.shape? (rebuilding.kept object held))

/-- No two values have the same counterpart. -/
theorem copied_injective {left right image : Value} (first : Copied now left image)
    (second : Copied now right image) : left = right :=
  first.unique second fun _ _ _ => rebuilding.injective _ _ _

/-- An object that is visited for the first time gets a counterpart that no other object has. -/
theorem record (mem : member object) (unvisited : now.visits.get? object = none) {heap : Heap}
    (size_le : now.heap.size ≤ heap.size)
    (kept : ∀ found, now.heap.Holds found → heap.node found = now.heap.node found)
    (held : heap.Holds copy) (replaces : source.Replaces object copy)
    (own : ∀ other, now.visits.get? other ≠ some (.object copy))
    (others : ∀ found, heap.Holds found → now.heap.Holds found ∨ found = copy) (journal : List Event) :
    Rebuilding source member { now with heap, visits := now.visits.record object (.object copy), journal } := by
  have here := now.visits.get?_record_self object (.object copy)
  have elsewhere : ∀ other, other ≠ object →
      (now.visits.record object (.object copy)).get? other = now.visits.get? other :=
    fun other different => now.visits.get?_record_of_ne (Ne.symm different) _
  refine ⟨rebuilding.size_le.trans size_le, ?_, rebuilding.registry, rebuilding.store, ?_, ?_, ?_⟩
  · exact fun found old => (kept found (rebuilding.holds old)).trans (rebuilding.kept found old)
  · intro other target known
    by_cases same : other = object
    · subst same
      obtain rfl := Option.some.inj (here.symm.trans known)
      exact ⟨mem, copy, rfl, held, replaces⟩
    · obtain ⟨mem, image, rfl, present, replaces⟩ :=
        rebuilding.visited other target ((elsewhere other same).symm.trans known)
      exact ⟨mem, image, rfl, Nat.lt_of_lt_of_le present size_le, replaces⟩
  · -- Two objects have one counterpart only if both are old: nobody else has the new one.
    intro left right target first second
    by_cases isLeft : left = object <;> by_cases isRight : right = object
    · rw [isLeft, isRight]
    · subst isLeft
      obtain rfl := Option.some.inj (here.symm.trans first)
      exact absurd ((elsewhere right isRight).symm.trans second) (own right)
    · subst isRight
      obtain rfl := Option.some.inj (here.symm.trans second)
      exact absurd ((elsewhere left isLeft).symm.trans first) (own left)
    · exact rebuilding.injective left right target ((elsewhere left isLeft).symm.trans first)
        ((elsewhere right isRight).symm.trans second)
  · intro found new present
    by_cases same : found = copy
    · exact ⟨object, same ▸ here⟩
    · obtain ⟨known, visited⟩ := rebuilding.recorded found new ((others found present).resolve_right same)
      exact ⟨known, Visits.get?_record_of_get? unvisited visited _⟩

/-- What is no container stands for itself. -/
theorem pass (mem : member object) (held : source.heap.Holds object) (inert : source.Inert object)
    (unvisited : now.visits.get? object = none) :
    Rebuilding source member { now with visits := now.visits.record object (.object object) } ∧
      Rebuilds setting source opened now { now with visits := now.visits.record object (.object object) } := by
  have own : ∀ other, now.visits.get? other ≠ some (.object object) := by
    -- The counterparts of containers are new, and this object is old.
    intro other visited
    have replaces := rebuilding.replaces visited
    by_cases still : source.Inert other
    · obtain rfl := replaces.same still
      cases unvisited.symm.trans visited
    · exact replaces.new still held
  refine ⟨rebuilding.record mem unvisited (Nat.le_refl _) (fun _ _ => rfl) (rebuilding.holds held)
    ⟨fun _ => rfl, fun container => absurd inert container⟩ own (fun _ => .inl) now.journal, ?_⟩
  have visits : ∀ other target, now.visits.get? other = some target →
      (now.visits.record object (.object object)).get? other = some target :=
    fun _ _ known => Visits.get?_record_of_get? unvisited known _
  refine ⟨⟨Nat.le_refl _, fun _ _ => rfl, visits⟩, fun _ _ => rfl, ?_⟩
  intro other copy closed fresh known
  have different : object ≠ other := by
    rintro rfl
    exact closed (.inl inert)
  rw [Visits.get?_record_of_ne _ different, fresh] at known
  cases known

end Rebuilding

/-- A container that was visited, and whose copy is being filled. -/
structure Unfinished (setting : Setting) (source : World) (member : ObjectId → Prop) (now : World)
    (object copy : ObjectId) (after : World) : Prop where
  rebuilding : Rebuilding source member after
  rebuilds : Rebuilds setting source (· = object) now after
  unvisited : now.visits.get? object = none
  visited : after.visits.get? object = some (.object copy)
  new : ¬ now.heap.Holds copy
  type_eq : (after.heap.node copy).type = (source.heap.node object).type
  plain : (after.heap.node copy).origin = .plain

namespace Unfinished

variable {setting : Setting} {source now after : World} {member : ObjectId → Prop} {object copy : ObjectId}

/-- A container that is visited for the first time gets a new copy, which is empty. -/
theorem start (rebuilding : Rebuilding source member now) (mem : member object)
    (unvisited : now.visits.get? object = none) (container : ¬ source.Inert object) (journal : List Event) :
    Unfinished setting source member now object now.heap.fresh
      { now with
        heap := now.heap.allocate (source.heap.node object).emptyLike
        visits := now.visits.record object (.object now.heap.fresh)
        journal } := by
  have node := now.heap.node_fresh (source.heap.node object).emptyLike
  have absent := now.heap.not_holds_fresh
  refine ⟨?_, .start (.inr rfl) unvisited (fun _ _ => rfl) _ _, unvisited, ?_, absent, ?_, ?_⟩
  · refine rebuilding.record mem unvisited (by simp) (fun found held => Heap.node_allocate_of_holds held _)
      (Heap.holds_allocate.2 (.inr rfl)) ?_ ?_ (fun found => Heap.holds_allocate.1) journal
    · exact ⟨fun inert => absurd inert container, fun _ old => absent (rebuilding.holds old)⟩
    · exact fun other visited => absent (rebuilding.held_of_visited visited)
  · exact now.visits.get?_record_self ..
  · rw [node]
    rfl
  · rw [node]
    rfl

variable (unfinished : Unfinished setting source member now object copy after)

include unfinished

/-- The copy is there. -/
theorem held : after.heap.Holds copy :=
  unfinished.rebuilding.held_of_visited unfinished.visited

/-- A part of the run that leaves nothing open leaves the copy as it is. -/
theorem go {later : World} (rebuilding : Rebuilding source member later)
    (rebuilds : Rebuilds setting source (fun _ => False) after later) :
    Unfinished setting source member now object copy later where
  rebuilding := rebuilding
  rebuilds := unfinished.rebuilds.trans_of_held (fun _ _ => unfinished.rebuilding.held_of_visited)
    (rebuilds.weaken fun _ closed => closed.imp_right False.elim)
  unvisited := unfinished.unvisited
  visited := rebuilds.visits _ _ unfinished.visited
  new := unfinished.new
  type_eq := by simp [rebuilds.kept copy unfinished.held, unfinished.type_eq]
  plain := by simp [rebuilds.kept copy unfinished.held, unfinished.plain]

/-- An edit of the copy. -/
theorem edit (container : ¬ source.Inert object) {change : Edit}
    (other : ∀ origin, change ≠ .setOrigin origin) (journal : List Event) :
    Unfinished setting source member now object copy
      { after with heap := after.heap.edit copy change, journal } := by
  have rebuilding := unfinished.rebuilding
  have size : (after.heap.edit copy change).size = after.heap.size := Heap.size_edit ..
  have old : ¬ source.heap.Holds copy := (rebuilding.replaces unfinished.visited).new container
  have own : ∀ found, after.visits.get? found = some (.object copy) → found = object :=
    fun found visited => rebuilding.injective _ _ _ visited unfinished.visited
  have rebuilds :=
    unfinished.rebuilds.edit unfinished.new (fun found visited => .inr (own found visited)) change journal
  refine ⟨⟨size ▸ rebuilding.size_le, ?_, rebuilding.registry, rebuilding.store, ?_, rebuilding.injective, ?_⟩,
    rebuilds, unfinished.unvisited, unfinished.visited, unfinished.new, ?_, ?_⟩
  · intro found present
    refine (Heap.node_edit_of_ne _ ?_ change).trans (rebuilding.kept found present)
    rintro rfl
    exact old present
  · intro found target known
    obtain ⟨mem, image, same, present, replaces⟩ := rebuilding.visited found target known
    exact ⟨mem, image, same, Heap.holds_edit.2 present, replaces⟩
  · exact fun found new present => rebuilding.recorded found new (Heap.holds_edit.1 present)
  · simp [Heap.type_edit, unfinished.type_eq]
  · simp [Heap.node_edit_self unfinished.held, Node.origin_edited other, unfinished.plain]

/-- The container is one that had not been visited before. -/
theorem fewer (held : source.heap.Holds object) : source.unvisited after < source.unvisited now := by
  apply World.unvisited_lt unfinished.rebuilds.visits held unfinished.unvisited
  rw [unfinished.visited]
  exact Option.some_ne_none _

/-- Once the copy mirrors the container nothing is left open. -/
theorem close (imitates : Imitates (source.names setting object) id source after (source.heap.node object)
    (source.heap.node object).content (after.heap.node copy).content) :
    Rebuilds setting source (fun _ => False) now after :=
  unfinished.rebuilds.close (fun _ => .imp_left .inl) unfinished.visited unfinished.new
    ⟨unfinished.type_eq, unfinished.plain, imitates⟩

end Unfinished

end Reconciler
