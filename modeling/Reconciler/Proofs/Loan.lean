import Reconciler.Proofs.Clone

/-! # A clone that comes back

A graph is lent out as a clone. In the clone scalars are overwritten, and then it is applied. Every object of
the clone is paired with the one that it is modelled on, and the run that takes the clone back only ever brings
an object onto its own original: it writes the overwritten scalars into the originals and nothing else.
-/

namespace Reconciler

open Reconciler.Action

/-- Only the attributes of a bean may differ. -/
structure Node.Retained (before after : Node) : Prop where
  type_eq : after.type = before.type
  origin_eq : after.origin = before.origin
  isBean_eq : after.isBean = before.isBean
  content_eq : before.isBean = false → after.content = before.content

/-- An entity with declared raw attributes, an identifier and, if versions are compared, a scalar version. -/
structure Identified (setting : Setting) (world : World) (id : ObjectId) (entity : Entity)
    (metadata : Metadata) : Prop where
  managed : world.store.entity? (world.heap.node id).type = some entity
  declared : (setting.overrides.get? (world.heap.node id).type).or
    (world.cache.schema.metadata? (world.heap.node id).type) = some metadata
  fields : metadata.AllFields
  listed : entity.idProperty ∈ metadata.names
  known : ((world.heap.node id).attr entity.idProperty).isNull = false
  version : ∀ property, checkedVersion? setting entity = some property →
    property ∈ metadata.names ∧ ((world.heap.node id).attr property).object? = none

/-- A run reads the declared properties. -/
theorem Identified.names_eq {setting : Setting} {world : World} {id : ObjectId} {entity : Entity}
    {metadata : Metadata} (identified : Identified setting world id entity metadata) :
    world.names setting id = metadata.names := by
  rw [World.names, World.metadata?, ← Option.or_assoc, identified.declared]
  rfl

/-- An object that is told apart by a scalar identifier, if at all. -/
structure Matchable (setting : Setting) (world : World) (id : ObjectId) : Prop where
  unequal : setting.schema.equality? (world.heap.node id).type = none
  scalar : ∀ entity, world.store.entity? (world.heap.node id).type = some entity →
    ((world.heap.node id).attr entity.idProperty).object? = none

/-- An object whose copy finds the way back. Beans are entities. Containers are not, and they are neither
elements nor keys nor values of null. -/
structure Traceable (setting : Setting) (world : World) (id : ObjectId) : Prop where
  entity : (world.heap.node id).isBean = true → ∃ entity metadata, Identified setting world id entity metadata
  unmanaged : (world.heap.node id).isBean = false → world.store.entity? (world.heap.node id).type = none
  inspected : (world.heap.node id).content ≠ .sealed
  elements : ∀ kind elements, (world.heap.node id).content = .collection kind elements →
    ∀ part, .object part ∈ elements → (world.heap.node part).isBean = true ∧ Matchable setting world part
  keys : ∀ bindings, (world.heap.node id).content = .map bindings → ∀ entry ∈ bindings.entries,
    ∀ part, entry.1 = .object part → (world.heap.node part).isBean = true ∧ Matchable setting world part
  values : ∀ bindings, (world.heap.node id).content = .map bindings → ∀ entry ∈ bindings.entries,
    ∀ part, entry.2 = .object part →
      Matchable setting world part ∧ (entry.1 = .null → (world.heap.node part).isBean = true)

namespace Node

theorem Retained.refl (node : Node) : node.Retained node :=
  ⟨rfl, rfl, rfl, fun _ => rfl⟩

theorem Retained.trans {before middle after : Node} (first : before.Retained middle)
    (second : middle.Retained after) : before.Retained after where
  type_eq := second.type_eq.trans first.type_eq
  origin_eq := second.origin_eq.trans first.origin_eq
  isBean_eq := second.isBean_eq.trans first.isBean_eq
  content_eq other :=
    (second.content_eq (first.isBean_eq.trans other)).trans (first.content_eq other)

/-- Setting an attribute changes attributes of beans only. -/
theorem retained_setAttribute (node : Node) (name : String) (value : Value) :
    node.Retained (node.edited (.setAttribute name value)) where
  type_eq := type_edited ..
  origin_eq := origin_edited (by simp)
  isBean_eq := isBean_edited ..
  content_eq other := by
    rcases node with ⟨type, origin, content⟩
    cases content with
    | bean => cases other
    | _ => rfl

theorem Retained.shape?_eq {before after : Node} (retained : before.Retained after) :
    after.shape? = before.shape? := by
  rcases bean : before.isBean with _ | _
  · simp [shape?, shape?, retained.content_eq bean]
  · simp [shape?_of_isBean bean, shape?_of_isBean (retained.isBean_eq.trans bean)]

end Node

section Mirrors

variable {setting : Setting} {source now : World} {origin : ObjectId → ObjectId} {id copy : ObjectId}

/-- A copy has the shape of its original. -/
theorem Mirrors.shape?_eq (mirrors : Mirrors setting source origin now id copy) :
    (now.heap.node copy).shape? = (source.heap.node id).shape? := by
  have content := mirrors.content
  rw [Node.shape?, Node.shape?]
  generalize (now.heap.node copy).content = image at content
  generalize (source.heap.node id).content = original at content
  cases content <;> rfl

/-- A copy of a bean is a bean. -/
theorem Mirrors.isBean_eq (mirrors : Mirrors setting source origin now id copy) :
    (now.heap.node copy).isBean = (source.heap.node id).isBean := by
  have content := mirrors.content
  rw [Node.isBean, Node.isBean, Node.attributes?, Node.attributes?]
  generalize (now.heap.node copy).content = image at content
  generalize (source.heap.node id).content = original at content
  cases content <;> rfl

/-- A copied bean holds the copies of the property values and nothing else. -/
theorem Mirrors.attr_cases (mirrors : Mirrors setting source origin now id copy)
    (bean : (source.heap.node id).isBean = true) (name : String) :
    (name ∈ source.names setting id ∧
      PartCopied source origin now ((source.heap.node id).attr name) ((now.heap.node copy).attr name)) ∨
      name ∉ source.names setting id ∧ (now.heap.node copy).attr name = .null := by
  have content := mirrors.content
  have attr : ∀ attributes, (now.heap.node copy).content = .bean attributes →
      (now.heap.node copy).attr name = (attributes.get? name).getD .null := by
    intro attributes same
    rw [Node.attr, Node.attributes?, same]
    rfl
  rw [Node.isBean, Node.attributes?] at bean
  generalize (source.heap.node id).content = original at content bean
  cases copied : (now.heap.node copy).content with
  | bean attributes =>
    rw [copied] at content
    rw [attr attributes copied]
    cases content with
    | bean parts =>
      rename_i values
      have length : (source.names setting id).length = values.length := by
        rw [← parts.length_eq, List.length_map]
      have all : ∀ entry ∈ (source.names setting id).zip values,
          PartCopied source origin now ((source.heap.node id).attr entry.1) entry.2 := by
        intro entry listed
        apply List.forall₂_zip parts
        rw [List.zip_map_left]
        exact List.mem_map.2 ⟨entry, listed, rfl⟩
      rcases OrderedMap.get?_insertAll_zip _ length all .empty name with ⟨listed, value, found, part⟩ | ⟨absent, none⟩
      · left
        rw [OrderedMap.ofList, found]
        exact ⟨listed, part⟩
      · right
        rw [OrderedMap.ofList, none]
        exact ⟨absent, rfl⟩
  | _ =>
    rw [copied] at content
    cases content
    all_goals cases bean

end Mirrors

/-- A graph that is lent out as a clone, and the world in which the clone comes back with other scalars. -/
structure Loan (setting : Setting) where
  source : World
  member : ObjectId → Prop
  origin : ObjectId → ObjectId
  cloned : World
  start : World
  cloneable : Cloneable setting source member
  traceable : ∀ id, member id → Traceable setting source id
  lazy : ∀ id, member id → ∀ part, .object part ∈ source.partsOf setting id →
    (source.heap.node part).origin.isLoaded = false → (source.heap.node part).isContainer = true →
    source.handler? part = (source.heap.node part).content.handler?
  sound : ∀ operation, source.Serves operation
  cloning : Cloning source member origin cloned
  mirrors : ∀ id copy, cloned.visits.get? id = some (.object copy) →
    Mirrors setting source origin cloned id copy
  rested : start.visits = {}
  size_eq : start.heap.size = cloned.heap.size
  kept : ∀ id, source.heap.Holds id → start.heap.node id = source.heap.node id
  retained : ∀ id, (cloned.heap.node id).Retained (start.heap.node id)
  overwritten : ∀ id copy, cloned.visits.get? id = some (.object copy) → ∀ name,
    (start.heap.node copy).attr name = (cloned.heap.node copy).attr name ∨
      ((start.heap.node copy).attr name).object? = none ∧
      ((cloned.heap.node copy).attr name).object? = none ∧ name ∈ source.names setting id ∧
      ∀ entity, source.store.entity? (source.heap.node id).type = some entity →
        name ≠ entity.idProperty ∧ checkedVersion? setting entity ≠ some name
  registry : start.dispatch.registry = source.dispatch.registry
  schema : start.cache.schema = source.cache.schema
  store : start.store = cloned.store
  outages : start.outages = cloned.outages

namespace Loan

variable {setting : Setting} (loan : Loan setting)

/-- An object of the clone and the one that it is modelled on: a copy and its original, or an empty container
and the unloaded one in whose place it stands. -/
inductive Paired : (detached authoritative : ObjectId) → Prop
  | copy {id copy : ObjectId} (visited : loan.cloned.visits.get? id = some (.object copy)) : Paired copy id
  | spare {spare : ObjectId} (new : ¬ loan.source.heap.Holds spare) (held : loan.cloned.heap.Holds spare)
      (old : loan.source.heap.Holds (loan.origin spare))
      (unloaded : (loan.source.heap.node (loan.origin spare)).origin.isLoaded = false)
      (container : (loan.source.heap.node (loan.origin spare)).isContainer = true)
      (handler?_eq : loan.source.handler? (loan.origin spare) =
        (loan.source.heap.node (loan.origin spare)).content.handler?) : Paired spare (loan.origin spare)

/-- The value that an attribute has once the clone is back: a scalar that its copy carries, and else the value
that it had. -/
def awaited (id : ObjectId) (name : String) : Value :=
  let carried := (loan.start.heap.node (loan.cloned.copyOf id)).attr name
  if loan.cloned.visits.contains id ∧ carried.isNull = false ∧ carried.object? = none then carried
  else (loan.source.heap.node id).attr name

/-- What the run that takes the clone back never violates: it changes attributes of visited originals only,
and only to what is awaited. -/
structure Returning (now : World) : Prop where
  size_eq : now.heap.size = loan.start.heap.size
  fresh : ∀ id, ¬ loan.source.heap.Holds id → now.heap.node id = loan.start.heap.node id
  retained : ∀ id, loan.source.heap.Holds id → (loan.source.heap.node id).Retained (now.heap.node id)
  attr_eq : ∀ id, loan.source.heap.Holds id → ∀ name,
    (now.heap.node id).attr name = (loan.source.heap.node id).attr name ∨
      (now.heap.node id).attr name = loan.awaited id name
  unchanged : ∀ id, loan.source.heap.Holds id →
    (∀ name, loan.awaited id name = (loan.source.heap.node id).attr name) →
    now.heap.node id = loan.source.heap.node id
  untouched : ∀ id copy, loan.cloned.visits.get? id = some (.object copy) → now.visits.get? copy = none →
    ∀ name, (now.heap.node id).attr name = (loan.source.heap.node id).attr name
  visited : ∀ detached target, now.visits.get? detached = some target →
    ∃ id, target = .object id ∧ loan.Paired detached id
  registry : now.dispatch.registry = loan.source.dispatch.registry
  schema : now.cache.schema = loan.source.cache.schema
  store : now.store = loan.start.store
  outages : now.outages = loan.start.outages

/-- The copy of a part was brought back, if the part is loaded. -/
def Followed (now : World) (part : Value) : Prop :=
  ∀ id copy, part = .object id → (loan.source.heap.node id).origin.isLoaded = true →
    loan.cloned.visits.get? id = some (.object copy) → now.visits.get? copy = some (.object id)

/-- The copy of an object was brought back, and so were those of its parts. -/
structure Settled (now : World) (id : ObjectId) : Prop where
  attr_eq : ∀ name, (now.heap.node id).attr name = loan.awaited id name
  followed : ∀ part ∈ loan.source.partsOf setting id, loan.Followed now part

/-- What a part of the run does: it settles every original whose copy it visits first, except those that are
still open, and leaves those that were visited before alone. -/
structure Progress (opened : ObjectId → Prop) (now after : World) : Prop where
  visits : ∀ detached target, now.visits.get? detached = some target →
    after.visits.get? detached = some target
  kept : ∀ id copy, loan.cloned.visits.get? id = some (.object copy) → now.visits.get? copy ≠ none →
    ∀ name, (after.heap.node id).attr name = (now.heap.node id).attr name
  settled : ∀ id copy, loan.cloned.visits.get? id = some (.object copy) → ¬ opened copy →
    now.visits.get? copy = none → after.visits.get? copy ≠ none → loan.Settled after id

section Paired

variable {loan} {detached authoritative id copy : ObjectId}

theorem Paired.origin_eq (paired : loan.Paired detached authoritative) :
    loan.origin detached = authoritative := by
  cases paired with
  | copy lent => exact loan.cloning.origin_of_visited lent
  | spare => rfl

theorem Paired.new (paired : loan.Paired detached authoritative) : ¬ loan.source.heap.Holds detached := by
  cases paired with
  | copy lent =>
    obtain ⟨-, copy, same, -, new, -⟩ := loan.cloning.visited _ _ lent
    cases same
    exact new
  | spare new => exact new

private theorem Paired.held (paired : loan.Paired detached authoritative) : loan.start.heap.Holds detached := by
  rw [Heap.Holds, loan.size_eq]
  cases paired with
  | copy lent =>
    obtain ⟨-, copy, same, -, -, held⟩ := loan.cloning.visited _ _ lent
    cases same
    exact held
  | spare _ held => exact held

theorem member_of_lent (lent : loan.cloned.visits.get? id = some (.object copy)) : loan.member id :=
  (loan.cloning.visited _ _ lent).1

theorem Paired.old (paired : loan.Paired detached authoritative) : loan.source.heap.Holds authoritative := by
  cases paired with
  | copy lent => exact (loan.cloneable.copyable _ (member_of_lent lent)).held
  | spare _ _ old => exact old

/-- A stand-in for an unloaded container is empty. -/
theorem node_of_spare (new : ¬ loan.source.heap.Holds detached) (held : loan.cloned.heap.Holds detached)
    (unloaded : (loan.source.heap.node (loan.origin detached)).origin.isLoaded = false) :
    loan.cloned.heap.node detached = (loan.source.heap.node (loan.origin detached)).emptyLike :=
  loan.cloning.spare _ new held unloaded

theorem Paired.type_eq (paired : loan.Paired detached authoritative) :
    (loan.start.heap.node detached).type = (loan.source.heap.node authoritative).type := by
  rw [(loan.retained detached).type_eq]
  cases paired with
  | copy lent => exact (loan.mirrors _ _ lent).type_eq
  | spare new held _ unloaded =>
    rw [node_of_spare new held unloaded]
    rfl

theorem Paired.shape?_eq (paired : loan.Paired detached authoritative) :
    (loan.start.heap.node detached).shape? = (loan.source.heap.node authoritative).shape? := by
  rw [(loan.retained detached).shape?_eq]
  cases paired with
  | copy lent => exact (loan.mirrors _ _ lent).shape?_eq
  | spare new held _ unloaded => rw [node_of_spare new held unloaded, Node.shape?_emptyLike]

private theorem Paired.handler?_eq (paired : loan.Paired detached authoritative) :
    loan.source.handler? authoritative = (loan.source.heap.node authoritative).content.handler? := by
  cases paired with
  | copy lent => exact (loan.cloneable.copyable _ (member_of_lent lent)).handler?_eq
  | spare _ _ _ _ _ same => exact same

/-- What a copy carries under a property: null or a scalar, or an object that is paired with the one that the
original holds. -/
inductive Carried (loan : Loan setting) : (held carried : Value) → Prop
  | scalar {held carried : Value} (plain : carried.object? = none) : Carried loan held carried
  | object {detached authoritative : ObjectId} (paired : loan.Paired detached authoritative) :
      Carried loan (.object authoritative) (.object detached)

/-- Nothing is awaited of an object without a copy. -/
theorem awaited_of_not_lent (alone : loan.cloned.visits.get? id = none) (name : String) :
    loan.awaited id name = (loan.source.heap.node id).attr name := by
  simp only [awaited, Visits.contains, alone, Option.isSome_none, Bool.false_eq_true, false_and, ↓reduceIte]

variable (lent : loan.cloned.visits.get? id = some (.object copy))
  (bean : (loan.source.heap.node id).isBean = true)

include lent

theorem awaited_eq (name : String) :
    loan.awaited id name =
      if ((loan.start.heap.node copy).attr name).isNull = false ∧
          ((loan.start.heap.node copy).attr name).object? = none then
        (loan.start.heap.node copy).attr name
      else (loan.source.heap.node id).attr name := by
  simp only [awaited, World.copyOf_eq lent, Visits.contains, lent, Option.isSome_some, true_and]

include bean

theorem carried {name : String} (listed : name ∈ loan.source.names setting id) :
    loan.Carried ((loan.source.heap.node id).attr name) ((loan.start.heap.node copy).attr name) := by
  have mem := member_of_lent lent
  have listed' : (loan.source.heap.node id).attr name ∈ loan.source.partsOf setting id := by
    rw [World.partsOf_of_isBean bean]
    exact List.mem_map.2 ⟨name, listed, rfl⟩
  rcases loan.overwritten id copy lent name with same | ⟨plain, -⟩
  · rw [same]
    have part := ((loan.mirrors id copy lent).attr_cases bean name).resolve_right (absurd listed ·.1)
    have part := part.2
    generalize (loan.source.heap.node id).attr name = held at part listed' ⊢
    generalize (loan.cloned.heap.node copy).attr name = carried at part ⊢
    cases part with
    | copied copied =>
      cases copied with
      | scalar plain => exact .scalar plain
      | object visited => exact .object (.copy visited)
    | dropped => exact .scalar rfl
    | emptied unloaded container modelled new held =>
      subst modelled
      have old := (loan.cloneable.closed id mem _ listed').elim
        (fun mem' => (loan.cloneable.copyable _ mem').held) (fun lazy => lazy.2.1)
      exact .object (.spare new held old unloaded container (loan.lazy id mem _ listed' unloaded container))
  · exact .scalar plain

/-- Nobody overwrites a reference to a loaded object that is lent. -/
theorem carried_lent {name : String} (listed : name ∈ loan.source.names setting id) {part image : ObjectId}
    (held : (loan.source.heap.node id).attr name = .object part)
    (loaded : (loan.source.heap.node part).origin.isLoaded = true)
    (partLent : loan.cloned.visits.get? part = some (.object image)) :
    (loan.start.heap.node copy).attr name = .object image := by
  have cloned : (loan.cloned.heap.node copy).attr name = .object image := by
    have copied := (((loan.mirrors id copy lent).attr_cases bean name).resolve_right (absurd listed ·.1)).2
    rw [held] at copied
    generalize (loan.cloned.heap.node copy).attr name = carried at copied ⊢
    cases copied with
    | copied copied =>
      cases copied with
      | scalar plain => cases plain
      | object visited =>
        cases partLent.symm.trans visited
        rfl
    | dropped unloaded => cases unloaded.symm.trans loaded
    | emptied unloaded => cases unloaded.symm.trans loaded
  rcases loan.overwritten id copy lent name with same | ⟨-, plain, -⟩
  · exact same.trans cloned
  · rw [cloned] at plain
    cases plain

/-- Nobody overwrites a property that identifies or counts versions. -/
theorem carried_of_fixed {name : String} (listed : name ∈ loan.source.names setting id)
    (scalar : ((loan.source.heap.node id).attr name).object? = none) {entity : Entity}
    (managed : loan.source.store.entity? (loan.source.heap.node id).type = some entity)
    (fixed : name = entity.idProperty ∨ checkedVersion? setting entity = some name) :
    (loan.start.heap.node copy).attr name = (loan.source.heap.node id).attr name := by
  rcases loan.overwritten id copy lent name with same | ⟨-, -, -, spared⟩
  · rw [same]
    have part := ((loan.mirrors id copy lent).attr_cases bean name).resolve_right (absurd listed ·.1)
    have part := part.2
    generalize (loan.source.heap.node id).attr name = held at part scalar ⊢
    generalize (loan.cloned.heap.node copy).attr name = carried at part ⊢
    cases part with
    | copied copied =>
      cases copied with
      | scalar => rfl
      | object => cases scalar
    | dropped => cases scalar
    | emptied => cases scalar
  · have spared := spared entity managed
    exact (fixed.elim spared.1 spared.2).elim

omit bean in
/-- The content of a copied container is what it was when it was lent. -/
theorem content_copied (other : (loan.source.heap.node id).isBean = false) :
    Imitates (loan.source.names setting id) loan.origin loan.source loan.cloned (loan.source.heap.node id)
      (loan.source.heap.node id).content (loan.start.heap.node copy).content := by
  have mirrors := loan.mirrors id copy lent
  rw [(loan.retained copy).content_eq (mirrors.isBean_eq.trans other)]
  exact mirrors.content

omit bean in
theorem collection_copied {kind : CollectionKind} {elements : List Value}
    (original : (loan.source.heap.node id).content = .collection kind elements) :
    ∃ images, (loan.start.heap.node copy).content = .collection kind images ∧
      List.Forall₂ (Copied loan.cloned) elements images := by
  have imitates := content_copied lent (Node.notBean_of_handler? (by rw [original]; rfl))
  rw [original] at imitates
  generalize (loan.start.heap.node copy).content = image at imitates
  cases imitates with
  | collection parts => exact ⟨_, rfl, parts⟩

omit bean in
theorem map_copied {bindings : OrderedMap Value Value}
    (original : (loan.source.heap.node id).content = .map bindings) :
    ∃ images, (loan.start.heap.node copy).content = .map ⟨images⟩ ∧
      List.Forall₂ (fun entry image => Copied loan.cloned entry.1 image.1 ∧ Copied loan.cloned entry.2 image.2)
        bindings.entries images := by
  have imitates := content_copied lent (Node.notBean_of_handler? (by rw [original]; rfl))
  rw [original] at imitates
  generalize (loan.start.heap.node copy).content = image at imitates
  cases imitates with
  | map parts => exact ⟨_, rfl, parts⟩

omit bean in
theorem array_copied {component : TypeName} {slots : List Value}
    (original : (loan.source.heap.node id).content = .array component slots) :
    ∃ images, (loan.start.heap.node copy).content = .array component images ∧
      List.Forall₂ (Copied loan.cloned) slots images := by
  have imitates := content_copied lent (Node.notBean_of_handler? (by rw [original]; rfl))
  rw [original] at imitates
  generalize (loan.start.heap.node copy).content = image at imitates
  cases imitates with
  | array parts => exact ⟨_, rfl, parts⟩

omit bean in
/-- What nobody overwrote is not awaited. -/
theorem awaited_of_kept {name : String}
    (same : (loan.start.heap.node copy).attr name = (loan.cloned.heap.node copy).attr name) :
    loan.awaited id name = (loan.source.heap.node id).attr name := by
  have mirrors := loan.mirrors id copy lent
  rw [awaited_eq lent, same]
  split
  · next carried =>
    rcases bean : (loan.source.heap.node id).isBean with _ | _
    · rw [Node.attr_of_notBean (mirrors.isBean_eq.trans bean)] at carried
      cases carried.1
    · rcases mirrors.attr_cases bean name with ⟨-, part⟩ | ⟨-, null⟩
      · generalize (loan.source.heap.node id).attr name = held at part ⊢
        generalize (loan.cloned.heap.node copy).attr name = image at part carried ⊢
        cases part with
        | copied copied =>
          cases copied with
          | scalar => rfl
          | object => cases carried.2
        | dropped => cases carried.1
        | emptied => cases carried.2
      · rw [null] at carried
        cases carried.1
  · rfl

omit bean in
/-- Nothing is awaited of a property that identifies or counts versions. -/
theorem awaited_of_fixed {name : String} {entity : Entity}
    (managed : loan.source.store.entity? (loan.source.heap.node id).type = some entity)
    (fixed : name = entity.idProperty ∨ checkedVersion? setting entity = some name) :
    loan.awaited id name = (loan.source.heap.node id).attr name := by
  rcases loan.overwritten id copy lent name with same | ⟨-, -, -, spared⟩
  · exact awaited_of_kept lent same
  · have spared := spared entity managed
    exact (fixed.elim spared.1 spared.2).elim

end Paired

variable {loan} {now middle after : World} {opened : ObjectId → Prop}

theorem Progress.of_same (nodes : ∀ id, after.heap.node id = now.heap.node id)
    (visits : after.visits = now.visits) : loan.Progress opened now after where
  visits detached target known := by simp [visits, known]
  kept id copy _ _ name := by simp [nodes]
  settled id copy _ _ unvisited visited := absurd (visits ▸ unvisited) visited

theorem Followed.later {part : Value} (followed : loan.Followed now part)
    (progress : loan.Progress opened now after) : loan.Followed after part :=
  fun id copy same loaded lent => progress.visits _ _ (followed id copy same loaded lent)

private theorem Settled.later {id copy : ObjectId} (lent : loan.cloned.visits.get? id = some (.object copy))
    (visited : now.visits.get? copy ≠ none) (settled : loan.Settled now id)
    (progress : loan.Progress opened now after) : loan.Settled after id where
  attr_eq name := (progress.kept id copy lent visited name).trans (settled.attr_eq name)
  followed part listed := (settled.followed part listed).later progress

private theorem Progress.later {detached : ObjectId} (progress : loan.Progress opened now after)
    (visited : now.visits.get? detached ≠ none) : after.visits.get? detached ≠ none := by
  obtain ⟨target, known⟩ := Option.ne_none_iff_exists'.1 visited
  rw [progress.visits detached target known]
  exact Option.some_ne_none _

theorem Progress.trans (first : loan.Progress opened now middle) (second : loan.Progress opened middle after) :
    loan.Progress opened now after where
  visits detached target known := second.visits _ _ (first.visits _ _ known)
  kept id copy lent visited name :=
    (second.kept id copy lent (first.later visited) name).trans (first.kept id copy lent visited name)
  settled id copy lent closed unvisited visited := by
    by_cases between : middle.visits.get? copy = none
    · exact second.settled id copy lent closed between visited
    · exact (first.settled id copy lent closed unvisited between).later lent between second

/-- What leaves nothing open leaves open what is open already. -/
theorem Progress.weaken (progress : loan.Progress (fun _ => False) now after) :
    loan.Progress opened now after :=
  { progress with settled := fun id copy lent _ => progress.settled id copy lent not_false }

/-- A change that matters neither to the objects nor to what the run looks up. -/
theorem Returning.of_same (returning : loan.Returning now) (size : after.heap.size = now.heap.size)
    (nodes : ∀ id, after.heap.node id = now.heap.node id) (visits : after.visits = now.visits)
    (registry : after.dispatch.registry = now.dispatch.registry)
    (schema : after.cache.schema = now.cache.schema) (store : after.store = now.store)
    (outages : after.outages = now.outages) : loan.Returning after where
  size_eq := size.trans returning.size_eq
  fresh id new := (nodes id).trans (returning.fresh id new)
  retained id old := by
    rw [nodes]
    exact returning.retained id old
  attr_eq id old name := by
    rw [nodes]
    exact returning.attr_eq id old name
  unchanged id old spared := by
    rw [nodes]
    exact returning.unchanged id old spared
  untouched id copy lent unvisited name := by
    rw [nodes]
    exact returning.untouched id copy lent (visits ▸ unvisited) name
  visited := by
    rw [visits]
    exact returning.visited
  registry := registry.trans returning.registry
  schema := schema.trans returning.schema
  store := store.trans returning.store
  outages := outages.trans returning.outages

namespace Returning

variable {detached authoritative id copy : ObjectId}

/-- When the clone comes back nothing is changed yet. -/
theorem start (loan : Loan setting) : loan.Returning loan.start where
  size_eq := rfl
  fresh id _ := rfl
  retained id old := by
    rw [loan.kept id old]
    exact .refl _
  attr_eq id old name := .inl (by rw [loan.kept id old])
  unchanged id old _ := loan.kept id old
  untouched id copy lent _ name := by
    simp [loan.kept id (Paired.copy lent).old]
  visited detached target known := by
    rw [loan.rested] at known
    cases known
  registry := loan.registry
  schema := loan.schema
  store := rfl
  outages := rfl

/-- A counterpart is recorded once. -/
theorem record (returning : loan.Returning now) (paired : loan.Paired detached authoritative) :
    loan.Returning { now with visits := now.visits.record detached (.object authoritative) } :=
  { returning with
    untouched := by
      intro id copy lent unvisited
      apply returning.untouched id copy lent
      rw [Visits.get?_record] at unvisited
      split at unvisited
      · cases unvisited
      · exact unvisited
    visited := by
      intro other target known
      rw [Visits.get?_record] at known
      split at known
      · next same =>
        subst same
        exact ⟨authoritative, (Option.some.inj known).symm, paired⟩
      · exact returning.visited other target known }

/-- An object of the clone is treated as its original asks for. -/
theorem ofValue_eq (returning : loan.Returning now) (paired : loan.Paired detached authoritative) :
    now.dispatch.registry.ofValue now.heap (.object detached) =
      (loan.source.heap.node authoritative).content.handler? := by
  rw [← paired.handler?_eq, World.handler?, returning.registry]
  apply Handler.Registry.ofValue_of_same
  · simp [returning.fresh _ paired.new, paired.type_eq]
  · simp [returning.fresh _ paired.new, paired.shape?_eq]

/-- Nothing was written to the original of an object that was not visited. -/
theorem attr_of_unvisited (returning : loan.Returning now) (paired : loan.Paired detached authoritative)
    (unvisited : now.visits.get? detached = none) (name : String) :
    (now.heap.node authoritative).attr name = (loan.source.heap.node authoritative).attr name := by
  cases paired with
  | copy lent => exact returning.untouched _ _ lent unvisited name
  | spare _ _ old _ container =>
    have other := Node.isBean_of_isContainer container
    have still := (returning.retained _ old).isBean_eq.trans other
    simp [Node.attr_of_notBean still, Node.attr_of_notBean other]

/-- Attributes that nobody overwrites stay. -/
theorem attr_of_spared (returning : loan.Returning now) (old : loan.source.heap.Holds id) {name : String}
    (spared : loan.awaited id name = (loan.source.heap.node id).attr name) :
    (now.heap.node id).attr name = (loan.source.heap.node id).attr name :=
  (returning.attr_eq id old name).elim (·) (·.trans spared)

/-- An original whose copy was visited gets a value that is awaited. -/
theorem write (returning : loan.Returning now) (old : loan.source.heap.Holds id) (held : now.heap.Holds id)
    (bean : (loan.source.heap.node id).isBean = true)
    (visited : ∀ other image, loan.cloned.visits.get? other = some (.object image) →
      now.visits.get? image = none → other ≠ id)
    {name : String} {value : Value} (awaited : value = loan.awaited id name)
    (changed : value ≠ (now.heap.node id).attr name) (journal : List Event) :
    loan.Returning { now with heap := now.heap.edit id (.setAttribute name value), journal } where
  size_eq := (Heap.size_edit ..).trans returning.size_eq
  fresh other new := by
    rw [← returning.fresh other new]
    refine Heap.node_edit_of_ne _ ?_ _
    rintro rfl
    exact new old
  retained other known := by
    apply (returning.retained other known).trans
    by_cases same : other = id
    · subst same
      show (now.heap.node other).Retained ((now.heap.edit other _).node other)
      rw [Heap.node_edit_self held]
      exact Node.retained_setAttribute ..
    · show (now.heap.node other).Retained ((now.heap.edit id _).node other)
      rw [Heap.node_edit_of_ne _ same]
      exact .refl _
  attr_eq other known wanted := by
    by_cases same : other = id
    · subst same
      have still := (returning.retained other old).isBean_eq.trans bean
      rw [Heap.attr_edit_setAttribute held still]
      split
      · next named => exact .inr (named ▸ awaited)
      · exact returning.attr_eq other old wanted
    · rw [Heap.node_edit_of_ne _ same]
      exact returning.attr_eq other known wanted
  unchanged other known spared := by
    have different : other ≠ id := by
      rintro rfl
      exact changed (awaited.trans ((spared name).trans (returning.attr_of_spared known (spared name)).symm))
    exact (Heap.node_edit_of_ne _ different _).trans (returning.unchanged other known spared)
  untouched other image known unvisited wanted := by
    rw [Heap.node_edit_of_ne _ (visited other image known unvisited)]
    exact returning.untouched other image known unvisited wanted
  visited := returning.visited
  registry := returning.registry
  schema := returning.schema
  store := returning.store
  outages := returning.outages

end Returning

/-- An original whose copy is open may be written. -/
theorem Progress.write {id copy : ObjectId} (progress : loan.Progress (· = copy) now after)
    (lent : loan.cloned.visits.get? id = some (.object copy)) (unvisited : now.visits.get? copy = none)
    (name : String) (value : Value) (journal : List Event) :
    loan.Progress (· = copy) now
      { after with heap := after.heap.edit id (.setAttribute name value), journal } where
  visits := progress.visits
  kept other image known visited wanted := by
    have different : other ≠ id := by
      rintro rfl
      cases lent.symm.trans known
      exact visited unvisited
    rw [Heap.node_edit_of_ne _ different]
    exact progress.kept other image known visited wanted
  settled other image known closed fresh visited := by
    have different : other ≠ id := by
      rintro rfl
      cases lent.symm.trans known
      exact closed rfl
    have settled := progress.settled other image known closed fresh visited
    refine ⟨fun wanted => ?_, settled.followed⟩
    rw [Heap.node_edit_of_ne _ different]
    exact settled.attr_eq wanted

/-- An object of the clone that was visited first and is being brought back. -/
structure Pending (loan : Loan setting) (now : World) (detached authoritative : ObjectId) (after : World) :
    Prop where
  returning : loan.Returning after
  progress : loan.Progress (· = detached) now after
  paired : loan.Paired detached authoritative
  unvisited : now.visits.get? detached = none
  visited : after.visits.get? detached = some (.object authoritative)

namespace Pending

variable {detached authoritative id copy : ObjectId}

theorem start (returning : loan.Returning now) (paired : loan.Paired detached authoritative)
    (unvisited : now.visits.get? detached = none) :
    loan.Pending now detached authoritative
      { now with visits := now.visits.record detached (.object authoritative) } where
  returning := returning.record paired
  progress :=
    { visits := by
        intro other target known
        rw [Visits.get?_record, if_neg]
        · exact known
        · rintro rfl
          cases unvisited.symm.trans known
      kept := fun _ _ _ _ _ => rfl
      settled := by
        intro id copy lent closed fresh visited
        rw [Visits.get?_record, if_neg (Ne.symm closed)] at visited
        exact absurd fresh visited }
  paired := paired
  unvisited := unvisited
  visited := by simp [Visits.get?_record]

/-- A part of the run that leaves nothing open. -/
theorem go (pending : loan.Pending now detached authoritative middle) (returning : loan.Returning after)
    (progress : loan.Progress (fun _ => False) middle after) :
    loan.Pending now detached authoritative after where
  returning := returning
  progress := pending.progress.trans progress.weaken
  paired := pending.paired
  unvisited := pending.unvisited
  visited := progress.visits _ _ pending.visited

/-- A change that matters neither to the objects nor to what the run looks up. -/
theorem of_same (pending : loan.Pending now detached authoritative middle)
    (size : after.heap.size = middle.heap.size) (nodes : ∀ id, after.heap.node id = middle.heap.node id)
    (visits : after.visits = middle.visits) (registry : after.dispatch.registry = middle.dispatch.registry)
    (schema : after.cache.schema = middle.cache.schema) (store : after.store = middle.store)
    (outages : after.outages = middle.outages) : loan.Pending now detached authoritative after :=
  pending.go (pending.returning.of_same size nodes visits registry schema store outages) (.of_same nodes visits)

/-- The object is one that had not been visited before. -/
theorem fewer (pending : loan.Pending now detached authoritative after) :
    loan.start.unvisited after < loan.start.unvisited now := by
  apply World.unvisited_lt pending.progress.visits pending.paired.held pending.unvisited
  rw [pending.visited]
  exact Option.some_ne_none _

/-- Once the original is settled nothing is left open. -/
theorem close (pending : loan.Pending now detached authoritative after)
    (settled : ∀ id, loan.cloned.visits.get? id = some (.object detached) → loan.Settled after id) :
    loan.Progress (fun _ => False) now after :=
  { pending.progress with
    settled := by
      intro id copy lent _ unvisited visited
      by_cases same : copy = detached
      · subst same
        exact settled id lent
      · exact pending.progress.settled id copy lent same unvisited visited }

theorem held (pending : loan.Pending now detached authoritative after) : after.heap.Holds authoritative := by
  rw [Heap.Holds, pending.returning.size_eq, loan.size_eq]
  exact loan.cloning.holds pending.paired.old

/-- The original gets a value that is awaited. -/
theorem write (pending : loan.Pending now copy id after)
    (lent : loan.cloned.visits.get? id = some (.object copy)) (bean : (loan.source.heap.node id).isBean = true)
    {name : String} {value : Value} (awaited : value = loan.awaited id name)
    (changed : value ≠ (after.heap.node id).attr name) (journal : List Event) :
    loan.Pending now copy id
      { after with heap := after.heap.edit id (.setAttribute name value), journal } where
  returning := by
    refine pending.returning.write pending.paired.old pending.held bean ?_ awaited changed journal
    rintro other image known unvisited rfl
    cases lent.symm.trans known
    cases unvisited.symm.trans pending.visited
  progress := pending.progress.write lent pending.unvisited name value journal
  paired := pending.paired
  unvisited := pending.unvisited
  visited := pending.visited

end Pending

end Loan

end Reconciler
