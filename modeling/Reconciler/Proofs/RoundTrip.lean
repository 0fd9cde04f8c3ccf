import Reconciler.Proofs.Clone.Engine
import Reconciler.Proofs.Loan.Engine

/-! # Overwritten scalars flow back

A stored entity is disconnected, properties of the copies are overwritten with scalars or null, and the copy of
the entity is applied. The run answers with the entity. Every scalar that was written last is written to the
original of its copy, and the run changes nothing else.
-/

namespace Reconciler

open Reconciler.Action

/-- What a run walks from an object: loaded parts of what it walks. -/
inductive Setting.Walks (setting : Setting) (world : World) (root : ObjectId) : ObjectId → Prop
  | root : Walks setting world root root
  | part {id part : ObjectId} (walked : Walks setting world root id)
      (listed : .object part ∈ world.partsOf setting id)
      (loaded : (world.heap.node part).origin.isLoaded = true) : Walks setting world root part

/-- A loaded object that can be lent, and whose unloaded parts are property values. No type has a handler for
another shape. -/
structure Lendable (setting : Setting) (world : World) (id : ObjectId) : Prop
    extends Traceable setting world id where
  held : world.heap.Holds id
  wellFormed : (world.heap.node id).WellFormed
  loaded : (world.heap.node id).origin.isLoaded = true
  resolved : ∀ handler, world.dispatch.registry.resolve (world.heap.node id).type = some handler →
    (world.heap.node id).content.handler? = some handler
  scalars : (world.heap.node id).hasScalarSlots = true →
    ∀ item ∈ (world.heap.node id).items, item.object? = none
  unloaded : ∀ part, .object part ∈ world.partsOf setting id → (world.heap.node part).origin.isLoaded = false →
    (world.heap.node id).isBean = true ∧ world.heap.Holds part ∧ (world.heap.node part).WellFormed ∧
      ((world.heap.node part).isContainer = true → ∀ handler,
        world.dispatch.registry.resolve (world.heap.node part).type = some handler →
        (world.heap.node part).content.handler? = some handler)

/-- An object that can be lent and taken back as it is: it is loaded or vacant. No type has a handler for another
shape. -/
structure Returnable (setting : Setting) (world : World) (id : ObjectId) : Prop
    extends Traceable setting world id where
  held : world.heap.Holds id
  wellFormed : (world.heap.node id).WellFormed
  loaded : (world.heap.node id).origin.isLoaded = true ∨ (world.heap.node id).Vacant
  resolved : ∀ handler, world.dispatch.registry.resolve (world.heap.node id).type = some handler →
    (world.heap.node id).content.handler? = some handler
  scalars : (world.heap.node id).hasScalarSlots = true →
    ∀ item ∈ (world.heap.node id).items, item.object? = none
  unloaded : (world.heap.node id).isBean = true → ∀ part, .object part ∈ world.partsOf setting id →
    (world.heap.node part).origin.isLoaded = false →
    world.heap.Holds part ∧ (world.heap.node part).WellFormed ∧
      ((world.heap.node part).isContainer = true → ∀ handler,
        world.dispatch.registry.resolve (world.heap.node part).type = some handler →
        (world.heap.node part).content.handler? = some handler)

/-- A value that is written over a property of the copy of an object. -/
structure Overwrite where
  original : ObjectId
  property : String
  value : Value
deriving DecidableEq, Repr, Inhabited

/-- The value that was written last. -/
def Overwrite.last? (overwrites : List Overwrite) (id : ObjectId) (name : String) : Option Value :=
  (overwrites.reverse.find? (fun overwrite =>
    decide (overwrite.original = id ∧ overwrite.property = name))).map Overwrite.value

/-- The world after properties of the copies were overwritten. -/
def World.overwritten (world : World) (overwrites : List Overwrite) : World :=
  { world with
    heap := overwrites.foldl (fun heap overwrite => heap.edit (world.copyOf overwrite.original)
      (.setAttribute overwrite.property overwrite.value)) world.heap }

/-- Scalars and null may be written over what is null or a scalar in the copy of a bean, unless it identifies
the bean or is the version that is compared. -/
structure Overwrite.Permitted (setting : Setting) (world : World) (root : ObjectId) (cloned : World)
    (overwrite : Overwrite) : Prop where
  walked : setting.Walks world root overwrite.original
  bean : (world.heap.node overwrite.original).isBean = true
  listed : overwrite.property ∈ world.names setting overwrite.original
  plain : overwrite.value.object? = none
  replaced : ((cloned.heap.node (cloned.copyOf overwrite.original)).attr overwrite.property).object? = none
  spared : ∀ entity, world.store.entity? (world.heap.node overwrite.original).type = some entity →
    overwrite.property ≠ entity.idProperty ∧ checkedVersion? setting entity ≠ some overwrite.property

namespace Overwrite

variable (overwrites : List Overwrite) (overwrite : Overwrite) (id : ObjectId) (name : String)

private theorem last?_append : last? (overwrites ++ [overwrite]) id name =
    if overwrite.original = id ∧ overwrite.property = name then some overwrite.value
    else last? overwrites id name := by
  rw [last?, List.reverse_append, List.reverse_singleton, List.singleton_append, List.find?_cons]
  split
  · next here => rw [if_pos (of_decide_eq_true here)]; rfl
  · next elsewhere => rw [if_neg (of_decide_eq_false elsewhere), last?]

/-- What was written last was written. -/
theorem exists_of_last? {overwrites : List Overwrite} {id : ObjectId} {name : String} {value : Value}
    (written : last? overwrites id name = some value) :
    ∃ overwrite ∈ overwrites, overwrite.original = id ∧ overwrite.property = name ∧ overwrite.value = value := by
  obtain ⟨overwrite, found, same⟩ := Option.map_eq_some_iff.1 written
  have here : overwrite.original = id ∧ overwrite.property = name := by simpa using List.find?_some found
  exact ⟨overwrite, List.mem_reverse.1 (List.mem_of_find?_eq_some found), here.1, here.2, same⟩

/-- Nothing was written over the copy of an object that is not overwritten. -/
theorem last?_of_spared {overwrites : List Overwrite} {id : ObjectId}
    (spared : ∀ overwrite ∈ overwrites, overwrite.original ≠ id) (name : String) :
    last? overwrites id name = none := by
  refine Option.eq_none_iff_forall_not_mem.2 fun value written => ?_
  obtain ⟨overwrite, listed, same, -⟩ := exists_of_last? written
  exact spared overwrite listed same

end Overwrite

namespace World

variable (world : World) (overwrites : List Overwrite) (overwrite : Overwrite)

private theorem heap_overwritten_append : (world.overwritten (overwrites ++ [overwrite])).heap =
    (world.overwritten overwrites).heap.edit (world.copyOf overwrite.original)
      (.setAttribute overwrite.property overwrite.value) := by
  simp only [overwritten, List.foldl_append, List.foldl_cons, List.foldl_nil]

@[simp] theorem size_overwritten : (world.overwritten overwrites).heap.size = world.heap.size := by
  induction overwrites using List.reverseRecOn with
  | nil => rfl
  | append_singleton overwrites overwrite ih => rw [heap_overwritten_append, Heap.size_edit, ih]

private theorem retained_overwritten (id : ObjectId) :
    (world.heap.node id).Retained ((world.overwritten overwrites).heap.node id) := by
  induction overwrites using List.reverseRecOn with
  | nil => exact .refl _
  | append_singleton overwrites overwrite ih =>
    rw [heap_overwritten_append, Heap.node_edit]
    split
    · exact ih.trans (Node.retained_setAttribute ..)
    · exact ih

/-- Objects that are no copies are not overwritten. -/
theorem node_overwritten_of_spared {id : ObjectId}
    (spared : ∀ overwrite ∈ overwrites, world.copyOf overwrite.original ≠ id) :
    (world.overwritten overwrites).heap.node id = world.heap.node id := by
  induction overwrites using List.reverseRecOn with
  | nil => rfl
  | append_singleton overwrites overwrite ih =>
    have here := spared overwrite (by simp)
    rw [heap_overwritten_append, Heap.node_edit, if_neg fun same => here same.1.symm]
    exact ih fun other listed => spared other (List.mem_append_left _ listed)

/-- A copy carries the values that were written last. -/
theorem attr_overwritten {id : ObjectId} (held : world.heap.Holds (world.copyOf id))
    (bean : (world.heap.node (world.copyOf id)).isBean = true)
    (apart : ∀ overwrite ∈ overwrites, world.copyOf overwrite.original = world.copyOf id →
      overwrite.original = id) (name : String) :
    ((world.overwritten overwrites).heap.node (world.copyOf id)).attr name =
      (Overwrite.last? overwrites id name).getD ((world.heap.node (world.copyOf id)).attr name) := by
  induction overwrites using List.reverseRecOn with
  | nil => rfl
  | append_singleton overwrites overwrite ih =>
    have earlier := ih fun other listed => apart other (List.mem_append_left _ listed)
    rw [heap_overwritten_append, Overwrite.last?_append, Heap.node_edit]
    split
    · next here =>
      have same := apart overwrite (by simp) here.1.symm
      have bean := (world.retained_overwritten overwrites (world.copyOf id)).isBean_eq.trans bean
      rw [Node.attr_setAttribute bean]
      by_cases named : overwrite.property = name
      · rw [if_pos named, if_pos ⟨same, named⟩]
        rfl
      · rw [if_neg named, if_neg fun both => named both.2, earlier]
    · next elsewhere =>
      have different : overwrite.original ≠ id := by
        rintro rfl
        exact elsewhere ⟨rfl, by rwa [Heap.Holds, size_overwritten]⟩
      rw [if_neg fun both => different both.1, earlier]

end World

/-- What was visited before does not matter. -/
theorem Traceable.rested {setting : Setting} {world : World} {id : ObjectId} (object : Traceable setting world id) :
    Traceable setting world.rested id where
  entity bean := by
    obtain ⟨entity, metadata, managed, declared, fields, listed, known, version⟩ := object.entity bean
    exact ⟨entity, metadata, managed, declared, fields, listed, known, version⟩
  unmanaged := object.unmanaged
  inspected := object.inspected
  elements kind elements content part listed := by
    obtain ⟨bean, unequal, scalar⟩ := object.elements kind elements content part listed
    exact ⟨bean, unequal, scalar⟩
  keys bindings content entry listed part same := by
    obtain ⟨bean, unequal, scalar⟩ := object.keys bindings content entry listed part same
    exact ⟨bean, unequal, scalar⟩
  values bindings content entry listed part same := by
    obtain ⟨⟨unequal, scalar⟩, bean⟩ := object.values bindings content entry listed part same
    exact ⟨⟨unequal, scalar⟩, bean⟩

private theorem Lendable.returnable {setting : Setting} {world : World} {id : ObjectId}
    (object : Lendable setting world id) : Returnable setting world id where
  toTraceable := object.toTraceable
  held := object.held
  wellFormed := object.wellFormed
  loaded := .inl object.loaded
  resolved := object.resolved
  scalars := object.scalars
  unloaded _ part listed unloaded := (object.unloaded part listed unloaded).2

section Returnable

variable {setting : Setting} {world : World} {member : ObjectId → Prop} {schema : Schema}
  (clones : setting.config.cloneObjects = true)
  (defaults : world.dispatch.registry = .withDefaults schema)
  (flushes : world.Serves .flush)
  (returnable : ∀ id, member id → Returnable setting world id)
  (closed : ∀ id, member id → ∀ part, .object part ∈ world.partsOf setting id →
    member part ∨ (world.heap.node id).isBean = true ∧ (world.heap.node part).origin.isLoaded = false)

include clones defaults flushes returnable closed

/-- A set of objects that can be lent can be cloned together. -/
theorem Returnable.cloneable : Cloneable setting world.rested member where
  clones := clones
  flushes := flushes.rested
  scalar value plain handler found := by
    apply Handler.Registry.ofValue_scalar schema world.heap plain
    rw [← defaults]
    exact found
  copyable id mem := by
    have object := returnable id mem
    refine ⟨object.held, ?_, ?_, fun content => absurd content object.inspected, object.wellFormed.1,
      object.scalars⟩
    · have resolved := object.resolved
      rw [defaults] at resolved
      show world.dispatch.registry.ofValue world.heap (.object id) = (world.heap.node id).content.handler?
      rw [defaults]
      exact Handler.Registry.ofValue_object schema object.wellFormed resolved
    · intro bean metadata known
      obtain ⟨entity, declared, identified⟩ := object.entity bean
      have same : world.metadata? setting id = some declared := by
        rw [World.metadata?, ← Option.or_assoc, identified.declared, Option.some_or]
      cases same.symm.trans known
      exact identified.fields
  loaded id mem := (returnable id mem).loaded
  closed id mem part listed := by
    rcases closed id mem part listed with inside | ⟨bean, unloaded⟩
    · exact .inl inside
    · exact .inr ⟨bean, ((returnable id mem).unloaded bean part listed unloaded).1, unloaded⟩

/-- An unloaded container is treated as its content asks for, whether it is copied or not. -/
theorem Returnable.handler?_of_unloaded {id : ObjectId} (mem : member id) {part : ObjectId}
    (listed : .object part ∈ world.partsOf setting id)
    (unloaded : (world.heap.node part).origin.isLoaded = false)
    (container : (world.heap.node part).isContainer = true) :
    world.handler? part = (world.heap.node part).content.handler? := by
  rcases closed id mem part listed with inside | ⟨bean, -⟩
  · exact ((Returnable.cloneable clones defaults flushes returnable closed).copyable part inside).handler?_eq
  · obtain ⟨-, wellFormed, resolved⟩ := (returnable id mem).unloaded bean part listed unloaded
    have resolved := resolved container
    rw [defaults] at resolved
    rw [World.handler?, defaults]
    exact Handler.Registry.ofValue_object schema wellFormed resolved

end Returnable

/-- A part of what is walked is walked as well, or is an unloaded property value. -/
theorem Lendable.walks_part {setting : Setting} {world : World} {root id : ObjectId}
    (object : Lendable setting world id) (walked : setting.Walks world root id) {part : ObjectId}
    (listed : .object part ∈ world.partsOf setting id) : setting.Walks world root part ∨
      (world.heap.node id).isBean = true ∧ (world.heap.node part).origin.isLoaded = false := by
  rcases loaded : (world.heap.node part).origin.isLoaded with _ | _
  · exact .inr ⟨(object.unloaded part listed loaded).1, rfl⟩
  · exact .inl (.part walked listed loaded)

/-- The loaded objects of a graph that can be lent can be cloned together. -/
theorem Lendable.cloneable {setting : Setting} {world : World} {root : ObjectId} {schema : Schema}
    (clones : setting.config.cloneObjects = true)
    (defaults : world.dispatch.registry = .withDefaults schema)
    (flushes : world.Serves .flush)
    (lendable : ∀ id, setting.Walks world root id → Lendable setting world id) :
    Cloneable setting world.rested (setting.Walks world root) :=
  Returnable.cloneable clones defaults flushes (fun id walked => (lendable id walked).returnable)
    fun id walked _ => (lendable id walked).walks_part walked

/-- What was visited before does not matter. -/
theorem Setting.Walks.rested {setting : Setting} {world : World} {root id : ObjectId}
    (walked : setting.Walks world root id) : setting.Walks world.rested root id := by
  induction walked with
  | root => exact .root
  | part _ listed loaded ih => exact .part ih listed loaded

/-- What is walked has a copy once the clone is complete. -/
theorem Setting.Walks.visited {setting : Setting} {source cloned : World} {root : ObjectId}
    {origin : ObjectId → ObjectId}
    (mirrors : ∀ id copy, cloned.visits.get? id = some (.object copy) → Mirrors setting source origin cloned id copy)
    (begun : cloned.visits.get? root = some (.object (cloned.copyOf root))) {id : ObjectId}
    (walked : setting.Walks source root id) : cloned.visits.get? id = some (.object (cloned.copyOf id)) := by
  induction walked with
  | root => exact begun
  | part walked listed loaded ih =>
    obtain ⟨image, copied⟩ := (mirrors _ _ ih).exists_copied listed fun object same => by
      cases same
      exact loaded
    exact copied.object_eq.1

/-- Once the clone is back every original that was walked is settled. -/
theorem Loan.settled_of_walks {setting : Setting} {loan : Loan setting} {root id : ObjectId} {after : World}
    (begun : loan.cloned.visits.get? root = some (.object (loan.cloned.copyOf root)))
    (advances : loan.Advances loan.start after)
    (back : after.visits.get? (loan.cloned.copyOf root) = some (.object root))
    (walked : setting.Walks loan.source root id) : loan.Settled after id := by
  have lent : ∀ id, setting.Walks loan.source root id →
      loan.cloned.visits.get? id = some (.object (loan.cloned.copyOf id)) :=
    fun id walked => walked.visited loan.mirrors begun
  have settled : ∀ id, setting.Walks loan.source root id →
      after.visits.get? (loan.cloned.copyOf id) = some (.object id) → loan.Settled after id := by
    intro id walked back
    refine advances.progress.settled id _ (lent id walked) not_false ?_ ?_
    · rw [loan.rested]
      rfl
    · rw [back]
      exact Option.some_ne_none _
  apply settled id walked
  induction walked with
  | root => exact back
  | part walked listed loaded ih =>
    exact (settled _ walked ih).followed _ listed _ _ rfl loaded (lent _ (.part walked listed loaded))

/-- The copy of a stored entity is applied to the entity. -/
theorem Loan.exists_advances {setting : Setting} {loan : Loan setting} {root : ObjectId} {entity : Entity}
    (begun : loan.cloned.visits.get? root = some (.object (loan.cloned.copyOf root)))
    (stored : ∀ id ∈ loan.source.store.stored, loan.source.heap.Holds id)
    (managed : loan.source.store.entity? (loan.source.heap.node root).type = some entity)
    (scalar : ((loan.source.heap.node root).attr entity.idProperty).object? = none)
    (found : loan.source.store.find loan.source.heap (loan.source.heap.node root).type
      ((loan.source.heap.node root).attr entity.idProperty) = .ok (some root)) :
    ∃ after, setting.run (.apply (.object (loan.cloned.copyOf root))) loan.start = (.ok (.object root), after) ∧
      loan.Advances loan.start after ∧
      after.visits.get? (loan.cloned.copyOf root) = some (.object root) := by
  obtain ⟨fuel, same⟩ := Nat.exists_eq_add_of_lt (World.size_lt_fuel setting loan.start)
  have bound : loan.start.unvisited loan.start < loan.start.heap.size + 1 + fuel :=
    Nat.lt_of_le_of_lt (World.unvisited_le _ _) (by omega)
  obtain ⟨_, after, applied, rfl, advances, back⟩ := answers_apply stored begun managed scalar found bound
  exact ⟨after, by rw [← applied, ← same]; rfl, advances, back⟩

/-- The copy of a stored entity is applied to the entity, and the originals get what is awaited. -/
theorem Loan.exists_apply {setting : Setting} {loan : Loan setting} {root : ObjectId} {entity : Entity}
    (begun : loan.cloned.visits.get? root = some (.object (loan.cloned.copyOf root)))
    (walks : ∀ id, loan.member id → setting.Walks loan.source root id)
    (stored : ∀ id ∈ loan.source.store.stored, loan.source.heap.Holds id)
    (managed : loan.source.store.entity? (loan.source.heap.node root).type = some entity)
    (scalar : ((loan.source.heap.node root).attr entity.idProperty).object? = none)
    (found : loan.source.store.find loan.source.heap (loan.source.heap.node root).type
      ((loan.source.heap.node root).attr entity.idProperty) = .ok (some root)) :
    ∃ after, setting.run (.apply (.object (loan.cloned.copyOf root))) loan.start = (.ok (.object root), after) ∧
      loan.Returning after ∧ ∀ id, loan.source.heap.Holds id → ∀ name,
        (after.heap.node id).attr name = loan.awaited id name := by
  obtain ⟨after, applied, advances, back⟩ := exists_advances begun stored managed scalar found
  refine ⟨after, applied, advances.returning, fun id old name => ?_⟩
  rcases lent : loan.cloned.visits.get? id with _ | target
  · rcases advances.returning.attr_eq id old name with stayed | written
    · simp [stayed, awaited_of_not_lent lent]
    · exact written
  · have walked := walks id (loan.cloning.visited id target lent).1
    exact (settled_of_walks begun advances back walked).attr_eq name

section Lend

variable {setting : Setting} {world cloned : World} {root : ObjectId} {schema : Schema}
  {origin : ObjectId → ObjectId} {overwrites : List Overwrite}
  (clones : setting.config.cloneObjects = true)
  (defaults : world.dispatch.registry = .withDefaults schema)
  (sound : ∀ operation, world.Serves operation)
  (lendable : ∀ id, setting.Walks world root id → Lendable setting world id)
  (cloning : Cloning world.rested (setting.Walks world root) origin cloned)
  (mirrors : ∀ id copy, cloned.visits.get? id = some (.object copy) →
    Mirrors setting world.rested origin cloned id copy)
  (visited : ∀ id, setting.Walks world root id → cloned.visits.get? id = some (.object (cloned.copyOf id)))
  (permitted : ∀ overwrite ∈ overwrites, overwrite.Permitted setting world root cloned)

include cloning visited permitted in
/-- Overwriting copies leaves the originals as they are. -/
theorem Cloning.kept_overwritten {id : ObjectId} (old : world.heap.Holds id) :
    (cloned.overwritten overwrites).heap.node id = world.heap.node id := by
  rw [World.node_overwritten_of_spared, cloning.kept id old]
  · rfl
  · rintro overwrite listed rfl
    obtain ⟨-, copy, same, -, new, -⟩ := cloning.visited _ _ (visited _ (permitted overwrite listed).walked)
    cases same
    exact new old

include cloning mirrors visited permitted in
/-- A copy carries what was written last, and else what it got. -/
theorem Cloning.attr_overwritten {id copy : ObjectId} (lent : cloned.visits.get? id = some (.object copy))
    (name : String) : ((cloned.overwritten overwrites).heap.node copy).attr name =
      (Overwrite.last? overwrites id name).getD ((cloned.heap.node copy).attr name) := by
  obtain ⟨-, _, same, -, -, held⟩ := cloning.visited id _ lent
  cases same
  obtain rfl := World.copyOf_eq lent
  rcases bean : (cloned.heap.node (cloned.copyOf id)).isBean with _ | _
  · have spared : ∀ overwrite ∈ overwrites, overwrite.original ≠ id := by
      rintro overwrite listed rfl
      rw [(mirrors _ _ lent).isBean_eq] at bean
      cases bean.symm.trans (permitted overwrite listed).bean
    have still := (cloned.retained_overwritten overwrites _).isBean_eq.trans bean
    rw [Overwrite.last?_of_spared spared, Node.attr_of_notBean still, Node.attr_of_notBean bean]
    rfl
  · refine cloned.attr_overwritten overwrites held bean (fun overwrite listed same => ?_) name
    have walked := visited _ (permitted overwrite listed).walked
    rw [← cloning.origin_of_visited walked, same, cloning.origin_of_visited lent]

/-- The loan of a graph whose clone is overwritten. -/
def Loan.lend : Loan setting where
  source := world.rested
  member := setting.Walks world root
  origin := origin
  cloned := cloned
  start := (cloned.overwritten overwrites).rested
  cloneable := Lendable.cloneable clones defaults (sound .flush) lendable
  traceable id walked := (lendable id walked).rested
  lazy id walked part listed unloaded container :=
    Returnable.handler?_of_unloaded clones defaults (sound .flush) (fun id walked => (lendable id walked).returnable)
      (fun id walked _ => (lendable id walked).walks_part walked) walked listed unloaded container
  sound := World.serves_rested sound
  cloning := cloning
  mirrors := mirrors
  rested := rfl
  size_eq := cloned.size_overwritten overwrites
  kept id old := cloning.kept_overwritten visited permitted old
  retained id := cloned.retained_overwritten overwrites id
  overwritten id copy lent name := by
    have attr := cloning.attr_overwritten mirrors visited permitted lent name
    rcases written : Overwrite.last? overwrites id name with _ | value
    · rw [written] at attr
      exact .inl attr
    · obtain ⟨overwrite, listed, rfl, rfl, rfl⟩ := Overwrite.exists_of_last? written
      obtain ⟨walked, bean, declared, plain, replaced, spared⟩ := permitted overwrite listed
      rw [World.copyOf_eq lent] at replaced
      rw [written] at attr
      exact .inr ⟨(congrArg Value.object? attr).trans plain, replaced, declared, spared⟩
  registry := cloning.registry
  schema := cloning.schema
  store := rfl
  outages := rfl

/-- What is awaited is what was written last, unless that is null. -/
theorem Loan.awaited_lend (id : ObjectId) (name : String) :
    (Loan.lend clones defaults sound lendable cloning mirrors visited permitted).awaited id name =
      ((Overwrite.last? overwrites id name).filter (!·.isNull)).getD ((world.heap.node id).attr name) := by
  rcases lent : cloned.visits.get? id with _ | target
  · have spared : ∀ overwrite ∈ overwrites, overwrite.original ≠ id := by
      rintro overwrite listed rfl
      cases lent.symm.trans (visited _ (permitted overwrite listed).walked)
    rw [Overwrite.last?_of_spared spared, awaited_of_not_lent lent]
    rfl
  · obtain ⟨-, copy, rfl, -⟩ := cloning.visited id target lent
    have attr := cloning.attr_overwritten mirrors visited permitted lent name
    rcases written : Overwrite.last? overwrites id name with _ | value
    · rw [written] at attr
      exact awaited_of_kept lent attr
    · obtain ⟨overwrite, listed, -, -, rfl⟩ := Overwrite.exists_of_last? written
      have plain := (permitted overwrite listed).plain
      have carried : ((Loan.lend clones defaults sound lendable cloning mirrors visited
          permitted).start.heap.node copy).attr name = overwrite.value := by
        rw [written] at attr
        exact attr
      rw [awaited_eq lent, carried, plain, Option.filter_some]
      rcases null : overwrite.value.isNull with _ | _
      · rw [if_pos ⟨rfl, rfl⟩]
        rfl
      · rw [if_neg fun present => Bool.noConfusion present.1]
        rfl

end Lend

/-- What is overwritten in the clone of a stored entity flows back into the originals, and applying the clone
changes nothing else. -/
theorem Setting.overwrites_flow_back {setting : Setting} {world : World} {root : ObjectId} {schema : Schema}
    {entity : Entity} (clones : setting.config.cloneObjects = true)
    (defaults : world.dispatch.registry = .withDefaults schema)
    (sound : ∀ operation, world.Serves operation)
    (stored : ∀ id ∈ world.store.stored, world.heap.Holds id)
    (lendable : ∀ id, setting.Walks world root id → Lendable setting world id)
    (managed : world.store.entity? (world.heap.node root).type = some entity)
    (scalar : ((world.heap.node root).attr entity.idProperty).object? = none)
    (found : world.store.find world.heap (world.heap.node root).type
      ((world.heap.node root).attr entity.idProperty) = .ok (some root)) :
    ∃ cloned, setting.disconnect (.object root) world = (.ok (.object (cloned.copyOf root)), cloned) ∧
      cloned.store = { world.store with flushes := cloned.store.flushes } ∧
      (∀ id, setting.Walks world root id →
        ¬ world.heap.Holds (cloned.copyOf id) ∧ cloned.heap.Holds (cloned.copyOf id)) ∧
      ∀ overwrites, (∀ overwrite ∈ overwrites, overwrite.Permitted setting world root cloned) →
        ∃ after, setting.apply (.object (cloned.copyOf root)) (cloned.overwritten overwrites) =
            (.ok (.object root), after) ∧
          after.store = cloned.store ∧ after.heap.size = cloned.heap.size ∧
          (∀ id, ¬ world.heap.Holds id → after.heap.node id = (cloned.overwritten overwrites).heap.node id) ∧
          ∀ id, world.heap.Holds id → (world.heap.node id).Retained (after.heap.node id) ∧
            (∀ name, (after.heap.node id).attr name =
              ((Overwrite.last? overwrites id name).filter (!·.isNull)).getD ((world.heap.node id).attr name)) ∧
            ((∀ overwrite ∈ overwrites, overwrite.original ≠ id) →
              after.heap.node id = world.heap.node id) := by
  have cloneable := Lendable.cloneable clones defaults (sound .flush) lendable
  obtain ⟨result, cloned, origin, run, cloning, mirrors, copied⟩ :=
    Setting.exists_disconnect cloneable fun id (same : Value.object root = .object id) => by
      cases same
      exact .root
  obtain ⟨begun, rfl⟩ := copied.object_eq
  have visited : ∀ id, setting.Walks world root id → cloned.visits.get? id = some (.object (cloned.copyOf id)) :=
    fun id walked => walked.rested.visited mirrors begun
  refine ⟨cloned, run, cloning.store, ?_, ?_⟩
  · intro id walked
    obtain ⟨-, copy, same, -, new, held⟩ := cloning.visited id _ (visited id walked)
    cases same
    exact ⟨new, held⟩
  intro overwrites permitted
  obtain ⟨after, applied, returning, attr⟩ :=
    (Loan.lend clones defaults sound lendable cloning mirrors visited permitted).exists_apply begun
      (fun _ => Setting.Walks.rested) stored managed scalar found
  have awaited := Loan.awaited_lend clones defaults sound lendable cloning mirrors visited permitted
  refine ⟨after, applied, returning.store, returning.size_eq.trans (cloned.size_overwritten overwrites),
    returning.fresh, fun id old => ?_⟩
  refine ⟨returning.retained id old, fun name => (attr id old name).trans (awaited id name), fun spared => ?_⟩
  refine returning.unchanged id old fun name => (awaited id name).trans ?_
  rw [Overwrite.last?_of_spared spared]
  rfl

namespace Crew

def schema : Schema :=
  ⟨[{ name := ⟨"Sailor"⟩, properties := .ofList [("id", .field), ("version", .field), ("name", .field),
      ("captain", .field), ("crew", .field), ("cabins", .field), ("logs", .field)] }]⟩

def sailor : Entity := { type := ⟨"Sailor"⟩, idProperty := "id", versionProperty? := some "version" }

/-- A sailor and a captain, who know each other, with a crew that is held twice, unread logs and an unread
captain of the captain. -/
def world : World where
  heap := ⟨#[{ Node.bean ⟨"Sailor"⟩ [("id", .int 1), ("version", .int 3), ("captain", .object ⟨1⟩),
        ("cabins", .object ⟨3⟩)] with origin := .stored },
    { Node.bean ⟨"Sailor"⟩ [("id", .int 2), ("version", .int 5), ("captain", .object ⟨5⟩), ("crew", .object ⟨2⟩),
        ("logs", .object ⟨4⟩)] with origin := .stored },
    .set [.object ⟨0⟩, .object ⟨1⟩], .map [(.object ⟨1⟩, .object ⟨2⟩)], .lazyCollection .list,
    .placeholder ⟨"Sailor"⟩]⟩
  store := { entities := .ofList [(⟨"Sailor"⟩, sailor)], stored := [⟨0⟩, ⟨1⟩] }
  dispatch := .ofRegistry (.withDefaults schema)
  cache := .ofSchema schema

def setting : Setting := { schema, config := { cloneObjects := true } }

private theorem walks {id : ObjectId} (walked : setting.Walks world ⟨0⟩ id) : id ∈
    [(⟨0⟩ : ObjectId), ⟨1⟩, ⟨2⟩, ⟨3⟩] := by
  have closed : ∀ id ∈ [(⟨0⟩ : ObjectId), ⟨1⟩, ⟨2⟩, ⟨3⟩], ∀ value ∈ world.partsOf setting id,
      ∀ part, value.object? = some part → (world.heap.node part).origin.isLoaded = true →
        part ∈ [(⟨0⟩ : ObjectId), ⟨1⟩, ⟨2⟩, ⟨3⟩] := by
    decide +kernel
  induction walked with
  | root => decide
  | part _ listed loaded ih => exact closed _ ih _ listed _ rfl loaded

private theorem schema_allFields : schema.AllFields := by
  intro decl declared
  obtain rfl := List.mem_singleton.1 declared
  exact OrderedMap.forall_ofList (fun access : Access => access = .field) (by simp)

/-- Sailors are told apart by their numbers. -/
theorem matchable : ∀ id ∈ [(⟨0⟩ : ObjectId), ⟨1⟩, ⟨2⟩], Matchable setting world id := by
  intro id listed
  have facts : ∀ id ∈ [(⟨0⟩ : ObjectId), ⟨1⟩, ⟨2⟩],
      (setting.schema.equality? (world.heap.node id).type).isNone = true ∧
      (world.store.entity? (world.heap.node id).type = none ∨
        world.store.entity? (world.heap.node id).type = some sailor) ∧
      ((world.heap.node id).attr sailor.idProperty).object? = none := by
    decide +kernel
  obtain ⟨unequal, managed, scalar⟩ := facts id listed
  refine ⟨Option.isNone_iff_eq_none.1 unequal, fun entity known => ?_⟩
  rcases managed with unmanaged | managed
  · cases unmanaged.symm.trans known
  · obtain rfl := Option.some.inj (managed.symm.trans known)
    exact scalar

private theorem identified : ∀ id ∈ [(⟨0⟩ : ObjectId), ⟨1⟩],
    Identified setting world id sailor { type := ⟨"Sailor"⟩, properties := schema.properties ⟨"Sailor"⟩ } := by
  intro id listed
  have declared : schema.metadata? ⟨"Sailor"⟩ =
      some { type := ⟨"Sailor"⟩, properties := schema.properties ⟨"Sailor"⟩ } := rfl
  have facts : ∀ id ∈ [(⟨0⟩ : ObjectId), ⟨1⟩], (world.heap.node id).type = ⟨"Sailor"⟩ ∧
      world.store.entity? (world.heap.node id).type = some sailor ∧
      ((world.heap.node id).attr "id").isNull = false ∧
      ((world.heap.node id).attr "version").object? = none := by
    decide +kernel
  obtain ⟨type, managed, known, scalar⟩ := facts id listed
  refine ⟨managed, by rw [type]; rfl, schema_allFields.metadata? declared, by decide +kernel, known, ?_⟩
  rintro _ ⟨⟩
  exact ⟨by decide +kernel, scalar⟩

private theorem wellFormed : ∀ id ∈ [(⟨0⟩ : ObjectId), ⟨1⟩, ⟨2⟩, ⟨3⟩, ⟨4⟩, ⟨5⟩], (world.heap.node id).WellFormed := by
  intro id listed
  simp only [List.mem_cons, List.not_mem_nil, or_false] at listed
  rcases listed with rfl | rfl | rfl | rfl | rfl | rfl
  · exact ⟨trivial, fun component slots same => by cases same⟩
  · exact ⟨trivial, fun component slots same => by cases same⟩
  · exact ⟨by show List.Nodup _; decide +kernel, fun component slots same => by cases same⟩
  · exact ⟨by show List.Nodup _; decide +kernel, fun component slots same => by cases same⟩
  · exact ⟨trivial, fun component slots same => by cases same⟩
  · exact ⟨trivial, fun component slots same => by cases same⟩

private theorem traceable {id : ObjectId} (walked : setting.Walks world ⟨0⟩ id) : Traceable setting world id := by
  have facts : ∀ id ∈ [(⟨0⟩ : ObjectId), ⟨1⟩, ⟨2⟩, ⟨3⟩], (world.heap.node id).content ≠ .sealed ∧
      ((world.heap.node id).isBean = false → world.store.entity? (world.heap.node id).type = none) ∧
      ((world.heap.node id).isBean = true → id ∈ [(⟨0⟩ : ObjectId), ⟨1⟩]) ∧
      (∀ value ∈ (world.heap.node id).items, ∀ part, value.object? = some part →
        (world.heap.node part).isBean = true ∧ part ∈ [(⟨0⟩ : ObjectId), ⟨1⟩, ⟨2⟩]) ∧
      ∀ entry ∈ (world.heap.node id).bindings, entry.1 ≠ .null ∧
        (∀ part, entry.1.object? = some part →
          (world.heap.node part).isBean = true ∧ part ∈ [(⟨0⟩ : ObjectId), ⟨1⟩, ⟨2⟩]) ∧
        ∀ part, entry.2.object? = some part → part ∈ [(⟨0⟩ : ObjectId), ⟨1⟩, ⟨2⟩] := by
    decide +kernel
  obtain ⟨inspected, unmanaged, bean, elements, entries⟩ := facts id (walks walked)
  refine ⟨fun isBean => ⟨_, _, identified id (bean isBean)⟩, unmanaged, inspected, ?_, ?_, ?_⟩
  · intro kind found content part listed
    rw [← Node.items_of_collection content] at listed
    have object := elements _ listed part rfl
    exact ⟨object.1, matchable part object.2⟩
  · intro found content entry listed part same
    rw [← Node.bindings_of_map content] at listed
    have object := (entries entry listed).2.1 part ((Value.object?_eq_some_iff ..).2 same)
    exact ⟨object.1, matchable part object.2⟩
  · intro found content entry listed part same
    rw [← Node.bindings_of_map content] at listed
    have object := entries entry listed
    refine ⟨matchable part (object.2.2 part ((Value.object?_eq_some_iff ..).2 same)), fun null => ?_⟩
    exact absurd null object.1

private theorem lendable {id : ObjectId} (walked : setting.Walks world ⟨0⟩ id) : Lendable setting world id := by
  have facts : ∀ id ∈ [(⟨0⟩ : ObjectId), ⟨1⟩, ⟨2⟩, ⟨3⟩], world.heap.Holds id ∧
      id ∈ [(⟨0⟩ : ObjectId), ⟨1⟩, ⟨2⟩, ⟨3⟩, ⟨4⟩, ⟨5⟩] ∧ (world.heap.node id).origin.isLoaded = true ∧
      (∀ handler, world.dispatch.registry.resolve (world.heap.node id).type = some handler →
        (world.heap.node id).content.handler? = some handler) ∧ (world.heap.node id).hasScalarSlots = false := by
    decide +kernel
  have parts : ∀ id ∈ [(⟨0⟩ : ObjectId), ⟨1⟩, ⟨2⟩, ⟨3⟩], ∀ value ∈ world.partsOf setting id, ∀ part,
      value.object? = some part → (world.heap.node part).origin.isLoaded = false →
      (world.heap.node id).isBean = true ∧ world.heap.Holds part ∧
        part ∈ [(⟨0⟩ : ObjectId), ⟨1⟩, ⟨2⟩, ⟨3⟩, ⟨4⟩, ⟨5⟩] ∧
        ((world.heap.node part).isContainer = true → ∀ handler,
          world.dispatch.registry.resolve (world.heap.node part).type = some handler →
          (world.heap.node part).content.handler? = some handler) := by
    decide +kernel
  obtain ⟨held, listed, loaded, resolved, objects⟩ := facts id (walks walked)
  refine ⟨traceable walked, held, wellFormed id listed, loaded, resolved,
    fun scalar => absurd (objects.symm.trans scalar) Bool.false_ne_true, fun part known unloaded => ?_⟩
  obtain ⟨bean, held, listed, resolved⟩ := parts id (walks walked) _ known part rfl unloaded
  exact ⟨bean, held, wellFormed part listed, resolved⟩

/-- The world after the sailor was disconnected. -/
def lent : World := (setting.disconnect (.object ⟨0⟩) world).2

/-- The name that is written over that of the captain's copy becomes the captain's name. -/
theorem name_flows_back :
    setting.disconnect (.object ⟨0⟩) world = (.ok (.object (lent.copyOf ⟨0⟩)), lent) ∧
      ∃ after, setting.apply (.object (lent.copyOf ⟨0⟩)) (lent.overwritten [⟨⟨1⟩, "name", .text "Bob"⟩]) =
          (.ok (.object ⟨0⟩), after) ∧
        (after.heap.node ⟨1⟩).attr "name" = .text "Bob" ∧
        (after.heap.node ⟨1⟩).attr "crew" = .object ⟨2⟩ ∧
        after.heap.node ⟨0⟩ = world.heap.node ⟨0⟩ ∧ after.heap.node ⟨2⟩ = world.heap.node ⟨2⟩ := by
  have clones : setting.config.cloneObjects = true := rfl
  have defaults : world.dispatch.registry = .withDefaults schema := rfl
  have stored : ∀ id ∈ world.store.stored, world.heap.Holds id := by decide +kernel
  have managed : world.store.entity? (world.heap.node ⟨0⟩).type = some sailor := by decide +kernel
  have scalar : ((world.heap.node ⟨0⟩).attr sailor.idProperty).object? = none := by decide +kernel
  have found : (world.store.find world.heap (world.heap.node ⟨0⟩).type
      ((world.heap.node ⟨0⟩).attr sailor.idProperty)) = .ok (some ⟨0⟩) := by rfl
  obtain ⟨cloned, run, -, -, flows⟩ := Setting.overwrites_flow_back clones defaults (fun _ => ⟨rfl, rfl⟩) stored
    (fun _ => lendable) managed scalar found
  obtain rfl : cloned = lent := (congrArg Prod.snd run).symm
  have captain : setting.Walks world ⟨0⟩ ⟨1⟩ := .part .root (by decide +kernel) (by decide +kernel)
  have permitted : Overwrite.Permitted setting world ⟨0⟩ lent ⟨⟨1⟩, "name", .text "Bob"⟩ := by
    refine ⟨captain, by decide +kernel, by decide +kernel, rfl, by decide +kernel, fun entity known => ?_⟩
    obtain rfl := Option.some.inj ((show _ = some sailor by decide +kernel).symm.trans known)
    decide +kernel
  obtain ⟨after, apply, -, -, -, kept⟩ := flows _ (List.forall_mem_singleton.2 permitted)
  have spared : ∀ id ≠ (⟨1⟩ : ObjectId), ∀ overwrite ∈ [(⟨⟨1⟩, "name", .text "Bob"⟩ : Overwrite)],
      overwrite.original ≠ id := by
    rintro id different overwrite listed rfl
    rw [List.mem_singleton.1 listed] at different
    exact different rfl
  refine ⟨run, after, apply, (kept ⟨1⟩ (by decide)).2.1 "name", ?_, ?_, ?_⟩
  · exact (kept ⟨1⟩ (by decide)).2.1 "crew"
  · exact (kept ⟨0⟩ (by decide)).2.2 (spared _ (by decide))
  · exact (kept ⟨2⟩ (by decide)).2.2 (spared _ (by decide))

end Crew

namespace Keyed

def schema : Schema :=
  ⟨[{ name := ⟨"Key"⟩, properties := .ofList [("id", .field)] },
    { name := ⟨"Person"⟩, properties := .ofList [("id", .field), ("version", .field)] }]⟩

/-- A stored key, and a stored person with the given identifier and version. -/
def world (identifier version : Value) : World where
  heap := ⟨#[{ Node.bean ⟨"Key"⟩ [("id", .int 1)] with origin := .stored },
    { Node.bean ⟨"Person"⟩ [("id", identifier), ("version", version)] with origin := .stored }]⟩
  store :=
    { entities := .ofList [(⟨"Key"⟩, { type := ⟨"Key"⟩, idProperty := "id" }),
        (⟨"Person"⟩, { type := ⟨"Person"⟩, idProperty := "id", versionProperty? := some "version" })]
      stored := [⟨0⟩, ⟨1⟩] }
  dispatch := .ofRegistry (.withDefaults schema)
  cache := .ofSchema schema

def setting : Setting := { schema, config := { cloneObjects := true } }

/-- How it ends if the copy of the person is applied. -/
def ending? (world : World) : Option Ending :=
  match setting.disconnect (.object ⟨1⟩) world with
  | (.ok copy, lent) =>
      match (setting.apply copy lent).1 with
      | .ok _ => none
      | .error ending => some ending
  | _ => none

/-- The store finds a person by the key, but the copy carries a copy of the key; and a version that is an object
differs from its copy. -/
theorem untouched_round_trip_fails :
    (world (.object ⟨0⟩) .null).store.find (world (.object ⟨0⟩) .null).heap ⟨"Person"⟩ (.object ⟨0⟩) =
        .ok (some ⟨1⟩) ∧
      ending? (world (.object ⟨0⟩) .null) =
        some (.failed (.entityNotFound ⟨"Person"⟩ (.object ⟨3⟩))) ∧
      (world (.int 5) (.object ⟨0⟩)).store.find (world (.int 5) (.object ⟨0⟩)).heap ⟨"Person"⟩ (.int 5) =
        .ok (some ⟨1⟩) ∧
      ending? (world (.int 5) (.object ⟨0⟩)) =
        some (.failed (.versionMismatch ⟨"Person"⟩ "version" (.object ⟨3⟩) (.object ⟨0⟩))) := by
  refine ⟨by rfl, by decide +kernel, by rfl, by decide +kernel⟩

end Keyed

end Reconciler
