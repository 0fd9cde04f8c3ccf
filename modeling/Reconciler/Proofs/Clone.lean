import Mathlib.Data.Finset.Card
import Mathlib.Data.Finset.Range
import Mathlib.Data.List.Forall2
import Reconciler.Proofs.Answers
import Reconciler.Proofs.Defaults
import Reconciler.Traversal.Run

/-! # Cloning a graph

While a graph is cloned, every new object is modelled on an old one, its origin. A visited object has one
copy, and once the run has left the object the copy mirrors it: its parts are the copies of the object's
parts, in order. A property value that is unloaded is not copied; in its place stands null or an empty container
of its own. An unloaded container that stands in another one is copied if there is nothing in it.
The old objects do not change, and neither do the new ones that a part of the run finds in place.
-/

namespace Reconciler

open Reconciler.Action

/-- The properties that a run reads of an object. -/
def World.names (setting : Setting) (world : World) (id : ObjectId) : List String :=
  ((world.metadata? setting id).map Metadata.names).getD []

/-- The values that a run reads of an object: the declared properties of a bean, and else all parts. -/
def World.partsOf (setting : Setting) (world : World) (id : ObjectId) : List Value :=
  match (world.heap.node id).content with
  | .bean _ => (world.names setting id).map (world.heap.node id).attr
  | _ => (world.heap.node id).parts

theorem World.partsOf_of_isBean {setting : Setting} {world : World} {id : ObjectId}
    (bean : (world.heap.node id).isBean = true) :
    world.partsOf setting id = (world.names setting id).map (world.heap.node id).attr := by
  rw [partsOf]
  cases content : (world.heap.node id).content with
  | bean attributes => rfl
  | _ =>
    rw [Node.isBean, Node.attributes?, content] at bean
    cases bean

theorem World.partsOf_of_not_isBean {setting : Setting} {world : World} {id : ObjectId}
    (other : (world.heap.node id).isBean = false) :
    world.partsOf setting id = (world.heap.node id).parts := by
  rw [partsOf]
  cases content : (world.heap.node id).content with
  | bean attributes =>
    rw [Node.isBean, Node.attributes?, content] at other
    cases other
  | _ => rfl

/-- An object that can be copied: it is treated as its content asks for, all its properties are raw
attributes, and it holds what its content may hold. -/
structure Copyable (setting : Setting) (world : World) (id : ObjectId) : Prop where
  held : world.heap.Holds id
  handler?_eq : world.handler? id = (world.heap.node id).content.handler?
  fields : (world.heap.node id).isBean = true → ∀ metadata,
    world.metadata? setting id = some metadata → metadata.AllFields
  undeclared : (world.heap.node id).content = .sealed → world.metadata? setting id = none
  distinct : (world.heap.node id).Distinct
  scalars : (world.heap.node id).hasScalarSlots = true →
    ∀ item ∈ (world.heap.node id).items, item.object? = none

/-- A container whose content is still in the store, with nothing in it. -/
structure Node.Vacant (node : Node) : Prop where
  unloaded : node.origin.isLoaded = false
  container : node.isContainer = true
  empty : node.parts = []

/-- A set of objects that can be copied together: they are loaded or vacant. What they refer to belongs to the
set, except for unloaded objects that are property values. -/
structure Cloneable (setting : Setting) (source : World) (member : ObjectId → Prop) : Prop where
  clones : setting.config.cloneObjects = true
  flushes : source.Serves .flush
  scalar : ∀ value, value.object? = none → ∀ handler,
    source.dispatch.registry.ofValue source.heap value = some handler → handler = .basic
  copyable : ∀ id, member id → Copyable setting source id
  loaded : ∀ id, member id →
    (source.heap.node id).origin.isLoaded = true ∨ (source.heap.node id).Vacant
  closed : ∀ id, member id → ∀ part, .object part ∈ source.partsOf setting id →
    member part ∨ (source.heap.node id).isBean = true ∧ source.heap.Holds part ∧
      (source.heap.node part).origin.isLoaded = false

/-- The parts of a container belong to the set. -/
theorem Cloneable.member_of_parts {setting : Setting} {source : World} {member : ObjectId → Prop}
    (cloneable : Cloneable setting source member) {id : ObjectId} (mem : member id)
    (other : (source.heap.node id).isBean = false) {part : ObjectId}
    (listed : .object part ∈ (source.heap.node id).parts) : member part := by
  rw [← World.partsOf_of_not_isBean other] at listed
  refine (cloneable.closed id mem part listed).resolve_right fun lazy => ?_
  cases other.symm.trans lazy.1

/-- What belongs to the set and has parts is loaded. -/
theorem Cloneable.loaded_of_parts {setting : Setting} {source : World} {member : ObjectId → Prop}
    (cloneable : Cloneable setting source member) {id : ObjectId} (mem : member id)
    (some : (source.heap.node id).parts ≠ []) : (source.heap.node id).origin.isLoaded = true :=
  (cloneable.loaded id mem).resolve_right fun vacant => some vacant.empty

/-- What belongs to the set and is no collection or map is loaded. -/
theorem Cloneable.loaded_of_other {setting : Setting} {source : World} {member : ObjectId → Prop}
    (cloneable : Cloneable setting source member) {id : ObjectId} (mem : member id)
    (other : (source.heap.node id).isContainer = false) : (source.heap.node id).origin.isLoaded = true :=
  (cloneable.loaded id mem).resolve_right fun vacant => by cases other.symm.trans vacant.container

/-- The number of old objects that were not visited yet. -/
def World.unvisited (source now : World) : Nat :=
  ((Finset.range source.heap.size).filter (fun index => now.visits.get? ⟨index⟩ = none)).card

/-- The copy of a value: scalars are their own copies, and objects have the one that was recorded. -/
inductive Copied (now : World) : Value → Value → Prop
  | scalar {value : Value} (plain : value.object? = none) : Copied now value value
  | object {source copy : ObjectId} (visited : now.visits.get? source = some (.object copy)) :
      Copied now (.object source) (.object copy)

/-- What a copied bean holds in place of a property value. -/
inductive PartCopied (source : World) (origin : ObjectId → ObjectId) (now : World) : Value → Value → Prop
  | copied {value image : Value} (copied : Copied now value image) : PartCopied source origin now value image
  | dropped {part : ObjectId} (unloaded : (source.heap.node part).origin.isLoaded = false) :
      PartCopied source origin now (.object part) .null
  | emptied {part spare : ObjectId} (unloaded : (source.heap.node part).origin.isLoaded = false)
      (container : (source.heap.node part).isContainer = true) (modelled : origin spare = part)
      (new : ¬ source.heap.Holds spare) (held : now.heap.Holds spare) :
      PartCopied source origin now (.object part) (.object spare)

/-- The content of a copy: the copies of the parts, in order. -/
inductive Imitates (names : List String) (origin : ObjectId → ObjectId) (source now : World)
    (node : Node) : Content → Content → Prop
  | bean {attributes : Attributes} {values : List Value}
      (parts : List.Forall₂ (PartCopied source origin now) (names.map node.attr) values) :
      Imitates names origin source now node (.bean attributes) (.bean (.ofList (names.zip values)))
  | array {component : TypeName} {slots images : List Value}
      (parts : List.Forall₂ (Copied now) slots images) :
      Imitates names origin source now node (.array component slots) (.array component images)
  | collection {kind : CollectionKind} {elements images : List Value}
      (parts : List.Forall₂ (Copied now) elements images) :
      Imitates names origin source now node (.collection kind elements) (.collection kind images)
  | map {bindings : OrderedMap Value Value} {images : List (Value × Value)}
      (parts : List.Forall₂ (fun entry image => Copied now entry.1 image.1 ∧ Copied now entry.2 image.2)
        bindings.entries images) :
      Imitates names origin source now node (.map bindings) (.map ⟨images⟩)
  | sealed : Imitates names origin source now node .sealed .sealed

/-- A copy is a plain object of the same type with the copies of the parts. -/
structure Mirrors (setting : Setting) (source : World) (origin : ObjectId → ObjectId) (now : World)
    (id copy : ObjectId) : Prop where
  type_eq : (now.heap.node copy).type = (source.heap.node id).type
  plain : (now.heap.node copy).origin = .plain
  content : Imitates (source.names setting id) origin source now (source.heap.node id)
    (source.heap.node id).content (now.heap.node copy).content

/-- A world that a run of a clone can be in: the old objects are as they were, every visited one has a copy
that is modelled on it, and the stand-ins for unloaded containers are empty. -/
structure Cloning (source : World) (member : ObjectId → Prop) (origin : ObjectId → ObjectId)
    (now : World) : Prop where
  size_le : source.heap.size ≤ now.heap.size
  kept : ∀ id, source.heap.Holds id → now.heap.node id = source.heap.node id
  registry : now.dispatch.registry = source.dispatch.registry
  schema : now.cache.schema = source.cache.schema
  store : now.store = { source.store with flushes := now.store.flushes }
  outages : now.outages = source.outages
  visited : ∀ id target, now.visits.get? id = some target → member id ∧
    ∃ copy, target = .object copy ∧ origin copy = id ∧ ¬ source.heap.Holds copy ∧ now.heap.Holds copy
  spare : ∀ id, ¬ source.heap.Holds id → now.heap.Holds id →
    (source.heap.node (origin id)).origin.isLoaded = false →
    now.heap.node id = (source.heap.node (origin id)).emptyLike

/-- Objects, what they are modelled on and the recorded copies stay. -/
structure Grows (now : World) (origin : ObjectId → ObjectId) (after : World)
    (origin' : ObjectId → ObjectId) : Prop where
  size_le : now.heap.size ≤ after.heap.size
  origin_eq : ∀ id, now.heap.Holds id → origin' id = origin id
  visits : ∀ id target, now.visits.get? id = some target → after.visits.get? id = some target

/-- What a part of the run does: it leaves all objects that it finds as they are, and mirrors every object
that it visits first, except those that are still open. -/
structure Advance (setting : Setting) (source : World) (opened : ObjectId → Prop) (now : World)
    (origin : ObjectId → ObjectId) (after : World) (origin' : ObjectId → ObjectId) : Prop
    extends Grows now origin after origin' where
  kept : ∀ id, now.heap.Holds id → after.heap.node id = now.heap.node id
  mirrors : ∀ id copy, ¬ opened id → now.visits.get? id = none →
    after.visits.get? id = some (.object copy) →
    ¬ now.heap.Holds copy ∧ Mirrors setting source origin' after id copy

/-- The recorded copy of an object. -/
def World.copyOf (world : World) (id : ObjectId) : ObjectId :=
  ((world.visits.get? id).bind Value.object?).getD id

theorem World.copyOf_eq {now : World} {id copy : ObjectId}
    (visited : now.visits.get? id = some (.object copy)) : now.copyOf id = copy := by
  rw [copyOf, visited]
  rfl

/-- The copy of an object is the recorded one. -/
theorem Copied.object_eq {now : World} {id : ObjectId} {image : Value} (copied : Copied now (.object id) image) :
    now.visits.get? id = some (.object (now.copyOf id)) ∧ image = .object (now.copyOf id) := by
  cases copied with
  | scalar plain => cases plain
  | object visited =>
    rw [World.copyOf_eq visited]
    exact ⟨visited, rfl⟩

/-- If no two objects have the same copy, no two values have. -/
theorem Copied.unique {now : World} {left right image : Value} (first : Copied now left image)
    (second : Copied now right image) (injective : ∀ left right copy,
      now.visits.get? left = some (.object copy) → now.visits.get? right = some (.object copy) → left = right) :
    left = right := by
  cases first with
  | scalar plain =>
    cases second with
    | scalar => rfl
    | object => cases plain
  | object visited =>
    cases second with
    | scalar plain => cases plain
    | object again => rw [injective _ _ _ visited again]

/-- There is fuel for all objects and one request more. -/
theorem World.size_lt_fuel (setting : Setting) (world : World) : world.heap.size + 1 < world.fuel setting := by
  have bound : 1 ≤ world.propertyBound setting := by
    rw [propertyBound]
    omega
  have reads : world.heap.size + 1 < 16 * (world.heap.size + 1) * world.propertyBound setting :=
    Nat.lt_of_lt_of_le (by omega) (Nat.le_mul_of_pos_right _ bound)
  exact Nat.lt_of_lt_of_le reads (Nat.le_mul_self _)

theorem World.unvisited_le (source now : World) : source.unvisited now ≤ source.heap.size := by
  rw [unvisited]
  exact (Finset.card_filter_le _ _).trans (Finset.card_range _).le

/-- Visits only add up. -/
theorem World.unvisited_mono {source now after : World} (visits : ∀ id target,
    now.visits.get? id = some target → after.visits.get? id = some target) :
    source.unvisited after ≤ source.unvisited now := by
  refine Finset.card_le_card fun index listed => ?_
  obtain ⟨bound, fresh⟩ := Finset.mem_filter.1 listed
  refine Finset.mem_filter.2 ⟨bound, ?_⟩
  rcases known : now.visits.get? ⟨index⟩ with _ | target
  · rfl
  · cases fresh.symm.trans (visits _ _ known)

/-- The first visit of an object counts. -/
theorem World.unvisited_lt {source now after : World} (visits : ∀ id target,
    now.visits.get? id = some target → after.visits.get? id = some target) {id : ObjectId}
    (held : source.heap.Holds id) (unvisited : now.visits.get? id = none)
    (visited : after.visits.get? id ≠ none) : source.unvisited after < source.unvisited now := by
  refine Finset.card_lt_card ((Finset.ssubset_iff_of_subset ?_).2 ⟨id.index, ?_, ?_⟩)
  · intro index listed
    obtain ⟨bound, fresh⟩ := Finset.mem_filter.1 listed
    refine Finset.mem_filter.2 ⟨bound, ?_⟩
    rcases known : now.visits.get? ⟨index⟩ with _ | target
    · rfl
    · cases fresh.symm.trans (visits _ _ known)
  · exact Finset.mem_filter.2 ⟨Finset.mem_range.2 held, unvisited⟩
  · exact fun listed => visited (Finset.mem_filter.1 listed).2

/-- A member of the second list belongs to one of the first. -/
theorem exists_of_forall₂ {α β : Type} {related : α → β → Prop} {firsts : List α} {seconds : List β}
    (all : List.Forall₂ related firsts seconds) {second : β} (member : second ∈ seconds) :
    ∃ first ∈ firsts, related first second := by
  induction all with
  | nil => cases member
  | cons here _ ih =>
    rcases List.mem_cons.1 member with rfl | later
    · exact ⟨_, List.mem_cons_self, here⟩
    · obtain ⟨first, member, holds⟩ := ih later
      exact ⟨first, List.mem_cons_of_mem _ member, holds⟩

/-- Lists that are related by a function. -/
theorem eq_map_of_forall₂ {α β : Type} {related : α → β → Prop} {image : α → β} {firsts : List α}
    {seconds : List β} (all : List.Forall₂ related firsts seconds)
    (same : ∀ first ∈ firsts, ∀ second, related first second → second = image first) :
    seconds = firsts.map image := by
  induction all with
  | nil => rfl
  | cons here _ ih =>
    rw [List.map_cons, ← same _ List.mem_cons_self _ here,
      ← ih fun first listed => same first (List.mem_cons_of_mem _ listed)]

/-- What is loaded is copied. -/
theorem PartCopied.copied_of_loaded {source now : World} {origin : ObjectId → ObjectId} {value image : Value}
    (copied : PartCopied source origin now value image)
    (loaded : ∀ part, value = .object part → (source.heap.node part).origin.isLoaded = true) :
    Copied now value image := by
  cases copied with
  | copied copied => exact copied
  | dropped unloaded => cases unloaded.symm.trans (loaded _ rfl)
  | emptied unloaded => cases unloaded.symm.trans (loaded _ rfl)

/-- What the copy of a container holds depends on the parts alone. -/
theorem Imitates.of_handled {names names' : List String} {origin origin' : ObjectId → ObjectId}
    {source source' now : World} {node node' : Node} {content copy : Content}
    (imitates : Imitates names origin source now node content copy) (handled : content.handler? ≠ none) :
    Imitates names' origin' source' now node' content copy := by
  cases imitates with
  | bean => exact absurd rfl handled
  | array parts => exact .array parts
  | collection parts => exact .collection parts
  | map parts => exact .map parts
  | sealed => exact .sealed

/-- If the copy of a container holds the copies of the parts, every part has one. -/
theorem Imitates.exists_copied {names : List String} {origin : ObjectId → ObjectId} {source now : World}
    {node : Node} {copy : Content} (imitates : Imitates names origin source now node node.content copy)
    (handled : node.content.handler? ≠ none) {part : Value} (listed : part ∈ node.parts) :
    ∃ image, Copied now part image := by
  rw [Node.parts] at listed
  generalize node.content = original at imitates handled listed
  cases imitates with
  | bean => exact absurd rfl handled
  | array parts =>
    obtain ⟨image, -, copied⟩ := exists_of_forall₂ parts.flip listed
    exact ⟨image, copied⟩
  | collection parts =>
    obtain ⟨image, -, copied⟩ := exists_of_forall₂ parts.flip listed
    exact ⟨image, copied⟩
  | map parts =>
    obtain ⟨entry, known, either⟩ := List.mem_flatMap.1 listed
    obtain ⟨image, -, copied⟩ := exists_of_forall₂ parts.flip known
    rcases List.mem_pair.1 either with rfl | rfl
    · exact ⟨image.1, copied.1⟩
    · exact ⟨image.2, copied.2⟩
  | sealed => cases listed

/-- A part that is loaded has a copy. -/
theorem Mirrors.exists_copied {setting : Setting} {source now : World} {origin : ObjectId → ObjectId}
    {id copy : ObjectId} (mirrors : Mirrors setting source origin now id copy) {part : Value}
    (listed : part ∈ source.partsOf setting id)
    (loaded : ∀ object, part = .object object → (source.heap.node object).origin.isLoaded = true) :
    ∃ image, Copied now part image := by
  have imitates := mirrors.content
  by_cases handled : (source.heap.node id).content.handler? = none
  · rw [World.partsOf, Node.parts] at listed
    generalize (now.heap.node copy).content = content at imitates
    generalize (source.heap.node id).content = original at imitates handled listed
    cases imitates with
    | bean parts =>
      obtain ⟨image, -, copied⟩ := exists_of_forall₂ parts.flip listed
      exact ⟨image, copied.copied_of_loaded loaded⟩
    | sealed => cases listed
    | _ => cases handled
  · obtain ⟨handler, found⟩ := Option.ne_none_iff_exists'.1 handled
    rw [World.partsOf_of_not_isBean (Node.notBean_of_handler? found)] at listed
    exact imitates.exists_copied handled listed

section Later

variable {setting : Setting} {source : World} {now after : World} {origin origin' : ObjectId → ObjectId}

private theorem Grows.holds (grows : Grows now origin after origin') {id : ObjectId}
    (held : now.heap.Holds id) : after.heap.Holds id :=
  Nat.lt_of_lt_of_le held grows.size_le

theorem Copied.of_visits {value image : Value} (copied : Copied now value image) (visits : ∀ id target,
    now.visits.get? id = some target → after.visits.get? id = some target) : Copied after value image := by
  cases copied with
  | scalar plain => exact .scalar plain
  | object visited => exact .object (visits _ _ visited)

theorem Copied.later {value image : Value} (copied : Copied now value image)
    (grows : Grows now origin after origin') : Copied after value image :=
  copied.of_visits grows.visits

theorem PartCopied.later {value image : Value} (copied : PartCopied source origin now value image)
    (grows : Grows now origin after origin') : PartCopied source origin' after value image := by
  cases copied with
  | copied copied => exact .copied (copied.later grows)
  | dropped unloaded => exact .dropped unloaded
  | emptied unloaded container modelled new held =>
    exact .emptied unloaded container ((grows.origin_eq _ held).trans modelled) new (grows.holds held)

private theorem Imitates.later {names : List String} {node : Node} {content copy : Content}
    (imitates : Imitates names origin source now node content copy)
    (grows : Grows now origin after origin') : Imitates names origin' source after node content copy := by
  cases imitates with
  | bean parts => exact .bean (parts.imp fun _ _ part => part.later grows)
  | array parts => exact .array (parts.imp fun _ _ part => part.later grows)
  | collection parts => exact .collection (parts.imp fun _ _ part => part.later grows)
  | map parts => exact .map (parts.imp fun _ _ part => ⟨part.1.later grows, part.2.later grows⟩)
  | sealed => exact .sealed

/-- A copy that is left alone goes on to mirror its original. -/
theorem Mirrors.later {id copy : ObjectId} (mirrors : Mirrors setting source origin now id copy)
    (grows : Grows now origin after origin')
    (same : after.heap.node copy = now.heap.node copy) : Mirrors setting source origin' after id copy := by
  refine ⟨?_, ?_, ?_⟩
  · rw [same]
    exact mirrors.type_eq
  · rw [same]
    exact mirrors.plain
  · rw [same]
    exact mirrors.content.later grows

end Later

namespace Advance

variable {setting : Setting} {source : World} {member opened : ObjectId → Prop} {now after : World}
  {origin origin' : ObjectId → ObjectId}

/-- A change of neither the heap nor the visits. -/
theorem of_same (heap : after.heap = now.heap) (visits : after.visits = now.visits) :
    Advance setting source opened now origin after origin where
  size_le := by simp [heap]
  kept id _ := by simp [heap]
  origin_eq _ _ := rfl
  visits id target known := by simp [visits, known]
  mirrors id copy _ fresh known := by
    rw [visits, fresh] at known
    cases known

theorem refl (now : World) (origin : ObjectId → ObjectId) :
    Advance setting source opened now origin now origin :=
  of_same rfl rfl

/-- One part of a run after another, if the recorded copies are there in between. -/
theorem trans_of_held {middle : World} {between : ObjectId → ObjectId}
    (held : ∀ id copy, middle.visits.get? id = some (.object copy) → middle.heap.Holds copy)
    (first : Advance setting source opened now origin middle between)
    (second : Advance setting source opened middle between after origin') :
    Advance setting source opened now origin after origin' where
  size_le := first.size_le.trans second.size_le
  kept id held := (second.kept id (first.holds held)).trans (first.kept id held)
  origin_eq id held := (second.origin_eq id (first.holds held)).trans (first.origin_eq id held)
  visits id target known := second.visits id target (first.visits id target known)
  mirrors id copy closed fresh known := by
    rcases visited : middle.visits.get? id with _ | target
    · have ⟨new, mirrors⟩ := second.mirrors id copy closed visited known
      exact ⟨fun held => new (first.holds held), mirrors⟩
    · obtain rfl := Option.some.inj ((second.visits id target visited).symm.trans known)
      have ⟨new, mirrors⟩ := first.mirrors id copy closed fresh visited
      exact ⟨new, mirrors.later second.toGrows (second.kept copy (held id copy visited))⟩

theorem trans {middle : World} {between : ObjectId → ObjectId}
    (cloning : Cloning source member between middle)
    (first : Advance setting source opened now origin middle between)
    (second : Advance setting source opened middle between after origin') :
    Advance setting source opened now origin after origin' := by
  refine first.trans_of_held (fun id copy visited => ?_) second
  obtain ⟨_, _, same, _, _, held⟩ := cloning.visited id _ visited
  cases same
  exact held

/-- More objects may stay open. -/
theorem weaken {wider : ObjectId → Prop} (advance : Advance setting source opened now origin after origin')
    (sub : ∀ id, opened id → wider id) : Advance setting source wider now origin after origin' :=
  { advance with mirrors := fun id copy closed => advance.mirrors id copy fun isOpen => closed (sub id isOpen) }

/-- An object that is left open gets a new copy. -/
theorem start {id : ObjectId} (isOpen : opened id) (unvisited : now.visits.get? id = none)
    (same : ∀ id, now.heap.Holds id → origin' id = origin id) (node : Node) (journal : List Event) :
    Advance setting source opened now origin
      { now with
        heap := now.heap.allocate node
        visits := now.visits.record id (.object now.heap.fresh)
        journal } origin' where
  size_le := by simp
  kept found held := Heap.node_allocate_of_holds held node
  origin_eq := same
  visits found target known := Visits.get?_record_of_get? unvisited known _
  mirrors found copy closed fresh known := by
    have different : id ≠ found := by
      rintro rfl
      exact closed isOpen
    rw [Visits.get?_record_of_ne _ different, fresh] at known
    cases known

/-- An edit of a new object that is the copy of none but open ones. -/
theorem edit (advance : Advance setting source opened now origin after origin') {copy : ObjectId}
    (new : ¬ now.heap.Holds copy)
    (isOpen : ∀ id, after.visits.get? id = some (.object copy) → opened id) (change : Edit) (journal : List Event) :
    Advance setting source opened now origin { after with heap := after.heap.edit copy change, journal } origin' := by
  have elsewhere : ∀ found, found ≠ copy → (after.heap.edit copy change).node found = after.heap.node found :=
    fun found different => Heap.node_edit_of_ne _ different change
  have size : (after.heap.edit copy change).size = after.heap.size := Heap.size_edit ..
  refine ⟨⟨size ▸ advance.size_le, advance.origin_eq, advance.visits⟩, ?_, ?_⟩
  · intro found held
    refine (elsewhere found ?_).trans (advance.kept found held)
    rintro rfl
    exact new held
  · intro found image closed fresh known
    obtain ⟨absent, mirrors⟩ := advance.mirrors found image closed fresh known
    refine ⟨absent, mirrors.later ⟨size.ge, fun _ _ => rfl, fun _ _ same => same⟩ (elsewhere image ?_)⟩
    rintro rfl
    exact closed (isOpen found known)

/-- Once its copy mirrors an object it need not be open any more. -/
theorem close {wider : ObjectId → Prop} (advance : Advance setting source wider now origin after origin')
    {id copy : ObjectId} (others : ∀ other, wider other → opened other ∨ other = id)
    (visited : after.visits.get? id = some (.object copy)) (new : ¬ now.heap.Holds copy)
    (mirrors : Mirrors setting source origin' after id copy) :
    Advance setting source opened now origin after origin' :=
  { advance with
    mirrors := by
      intro other image closed fresh known
      by_cases same : other = id
      · subst same
        cases visited.symm.trans known
        exact ⟨new, mirrors⟩
      · exact advance.mirrors other image (fun isOpen => (others other isOpen).elim closed same) fresh known }

end Advance

namespace Cloning

variable {setting : Setting} {source : World} {member opened : ObjectId → Prop} {now : World}
  {origin : ObjectId → ObjectId}

/-- The run begins with nothing visited. -/
theorem start (unvisited : source.visits = {}) (origin : ObjectId → ObjectId) :
    Cloning source member origin source where
  size_le := Nat.le_refl _
  kept _ _ := rfl
  registry := rfl
  schema := rfl
  store := rfl
  outages := rfl
  visited id target known := by
    rw [unvisited] at known
    cases known
  spare id new held := absurd held new

/-- A change that matters neither to the copies nor to what the run looks up. -/
theorem of_same {after : World} (cloning : Cloning source member origin now)
    (heap : after.heap = now.heap) (visits : after.visits = now.visits)
    (registry : after.dispatch.registry = now.dispatch.registry)
    (schema : after.cache.schema = now.cache.schema)
    (store : after.store = { now.store with flushes := after.store.flushes })
    (outages : after.outages = now.outages) :
    Cloning source member origin after where
  size_le := by
    rw [heap]
    exact cloning.size_le
  kept := by
    rw [heap]
    exact cloning.kept
  registry := registry.trans cloning.registry
  schema := schema.trans cloning.schema
  store := by rw [store, cloning.store]
  outages := outages.trans cloning.outages
  visited := by
    rw [heap, visits]
    exact cloning.visited
  spare := by
    rw [heap]
    exact cloning.spare

variable (cloning : Cloning source member origin now)

include cloning

theorem holds {id : ObjectId} (held : source.heap.Holds id) : now.heap.Holds id :=
  Nat.lt_of_lt_of_le held cloning.size_le

/-- Old objects have the handler that they had. -/
theorem handler?_eq {id : ObjectId} (held : source.heap.Holds id) :
    now.handler? id = source.handler? id :=
  World.handler?_of_same cloning.registry (congrArg Node.type (cloning.kept id held))
    (congrArg Node.shape? (cloning.kept id held))

/-- Old objects have the metadata that they had. -/
theorem metadata?_eq {id : ObjectId} (held : source.heap.Holds id) :
    now.metadata? setting id = source.metadata? setting id := by
  simp only [World.metadata?, cloning.kept id held, cloning.schema]

/-- Different objects have different copies. -/
theorem origin_of_visited {id copy : ObjectId} (visited : now.visits.get? id = some (.object copy)) :
    origin copy = id := by
  obtain ⟨_, _, same, modelled, _⟩ := cloning.visited id _ visited
  cases same
  exact modelled

/-- No two values have the same copy. -/
theorem copied_injective {left right image : Value} (first : Copied now left image)
    (second : Copied now right image) : left = right := by
  refine first.unique second fun left right copy visited again => ?_
  rw [← cloning.origin_of_visited visited, ← cloning.origin_of_visited again]

/-- A new empty object that is modelled on an old one. -/
theorem allocate (id : ObjectId) :
    Cloning source member (Function.update origin now.heap.fresh id)
        (allocate (source.heap.node id).emptyLike now).2 ∧
      Advance setting source opened now origin (allocate (source.heap.node id).emptyLike now).2
        (Function.update origin now.heap.fresh id) := by
  have same : ∀ other, now.heap.Holds other →
      Function.update origin now.heap.fresh id other = origin other := by
    intro other present
    refine Function.update_of_ne ?_ _ _
    rintro rfl
    exact now.heap.not_holds_fresh present
  have nodes : ∀ other, now.heap.Holds other →
      (now.heap.allocate (source.heap.node id).emptyLike).node other = now.heap.node other :=
    fun other present => Heap.node_allocate_of_holds present _
  have larger : now.heap.size ≤ (now.heap.allocate (source.heap.node id).emptyLike).size := by
    rw [Heap.size_allocate]
    omega
  refine ⟨?_, ?_⟩
  · refine ⟨?_, ?_, cloning.registry, cloning.schema, cloning.store, cloning.outages, ?_, ?_⟩
    · exact cloning.size_le.trans larger
    · exact fun other present => (nodes other (cloning.holds present)).trans (cloning.kept other present)
    · intro other target known
      obtain ⟨mem, copy, same', modelled, new, present⟩ := cloning.visited other target known
      exact ⟨mem, copy, same', (same copy present).trans modelled, new, Heap.holds_allocate.2 (.inl present)⟩
    · intro other new present unloaded
      rcases Heap.holds_allocate.1 present with before | rfl
      · rw [same other before] at unloaded ⊢
        exact (nodes other before).trans (cloning.spare other new before unloaded)
      · rw [Function.update_self]
        exact now.heap.node_fresh _
  · refine ⟨⟨larger, same, fun _ _ known => known⟩, nodes, ?_⟩
    intro other copy _ fresh known
    cases fresh.symm.trans known

end Cloning

/-- A visited object whose copy is being filled. -/
structure Opened (setting : Setting) (source : World) (member : ObjectId → Prop) (now : World)
    (origin : ObjectId → ObjectId) (id copy : ObjectId) (after : World)
    (origin' : ObjectId → ObjectId) : Prop where
  cloning : Cloning source member origin' after
  advance : Advance setting source (· = id) now origin after origin'
  unvisited : now.visits.get? id = none
  visited : after.visits.get? id = some (.object copy)
  new : ¬ now.heap.Holds copy
  type_eq : (after.heap.node copy).type = (source.heap.node id).type
  plain : (after.heap.node copy).origin = .plain

namespace Opened

variable {setting : Setting} {source : World} {member : ObjectId → Prop} {now : World}
  {origin : ObjectId → ObjectId} {id : ObjectId}

/-- A member that is visited for the first time gets a new copy, which is empty. -/
theorem start (cloning : Cloning source member origin now) (mem : member id)
    (unvisited : now.visits.get? id = none) (journal : List Event) :
    Opened setting source member now origin id now.heap.fresh
      { now with
        heap := now.heap.allocate (source.heap.node id).emptyLike
        visits := now.visits.record id (.object now.heap.fresh)
        journal }
      (Function.update origin now.heap.fresh id) := by
  obtain ⟨allocated, advance⟩ : _ ∧ Advance setting source (· = id) now origin _ _ :=
    cloning.allocate id
  have node := now.heap.node_fresh (source.heap.node id).emptyLike
  have here := now.visits.get?_record_self id (.object now.heap.fresh)
  refine ⟨{ allocated with visited := ?_ }, .start (by rfl) unvisited advance.origin_eq _ _, unvisited, here,
    now.heap.not_holds_fresh, ?_, ?_⟩
  · intro other target known
    by_cases same : other = id
    · subst same
      obtain rfl := Option.some.inj (here.symm.trans known)
      refine ⟨mem, now.heap.fresh, rfl, Function.update_self _ _ _, ?_, Heap.holds_allocate.2 (.inr rfl)⟩
      exact fun old => now.heap.not_holds_fresh (cloning.holds old)
    · rw [Visits.get?_record_of_ne _ (Ne.symm same)] at known
      exact allocated.visited other target known
  · rw [node]
    rfl
  · rw [node]
    rfl

variable {copy : ObjectId} {after : World} {origin' : ObjectId → ObjectId}

/-- The copy is there. -/
theorem held (opened : Opened setting source member now origin id copy after origin') :
    after.heap.Holds copy := by
  obtain ⟨-, found, same, -, -, present⟩ := opened.cloning.visited id _ opened.visited
  cases same
  exact present

/-- The copy is modelled on the object. -/
theorem origin_eq (opened : Opened setting source member now origin id copy after origin') :
    origin' copy = id :=
  opened.cloning.origin_of_visited opened.visited

theorem member_of (opened : Opened setting source member now origin id copy after origin') : member id :=
  (opened.cloning.visited id _ opened.visited).1

/-- A part of the run that leaves nothing open leaves the copy as it is. -/
theorem go (opened : Opened setting source member now origin id copy after origin') {later : World}
    {origin'' : ObjectId → ObjectId} (cloning : Cloning source member origin'' later)
    (advance : Advance setting source (fun _ => False) after origin' later origin'') :
    Opened setting source member now origin id copy later origin'' where
  cloning := cloning
  advance := opened.advance.trans opened.cloning (advance.weaken fun _ => False.elim)
  unvisited := opened.unvisited
  visited := advance.visits _ _ opened.visited
  new := opened.new
  type_eq := by simp [advance.kept copy opened.held, opened.type_eq]
  plain := by simp [advance.kept copy opened.held, opened.plain]

/-- An edit of the copy. -/
theorem edit (opened : Opened setting source member now origin id copy after origin')
    (loaded : (source.heap.node id).origin.isLoaded = true) {change : Edit}
    (other : ∀ origin, change ≠ .setOrigin origin) (journal : List Event) :
    Opened setting source member now origin id copy
      { after with heap := after.heap.edit copy change, journal } origin' := by
  have elsewhere : ∀ found, found ≠ copy →
      (after.heap.edit copy change).node found = after.heap.node found :=
    fun found different => Heap.node_edit_of_ne _ different change
  have here := Heap.node_edit_self opened.held change
  have old : ¬ source.heap.Holds copy := by
    obtain ⟨-, found, same, -, new, -⟩ := opened.cloning.visited id _ opened.visited
    cases same
    exact new
  have own : ∀ found, after.visits.get? found = some (.object copy) → found = id := fun found visited =>
    (opened.cloning.origin_of_visited visited).symm.trans opened.origin_eq
  refine ⟨⟨?_, ?_, opened.cloning.registry, opened.cloning.schema, opened.cloning.store, opened.cloning.outages, ?_,
    ?_⟩,
    opened.advance.edit opened.new own change journal, opened.unvisited, opened.visited, opened.new, ?_, ?_⟩
  · exact (Heap.size_edit ..).symm ▸ opened.cloning.size_le
  · intro found present
    rw [← opened.cloning.kept found present]
    apply elsewhere found
    rintro rfl
    exact old present
  · intro found target known
    obtain ⟨mem, image, same, modelled, fresh, present⟩ := opened.cloning.visited found target known
    exact ⟨mem, image, same, modelled, fresh, Heap.holds_edit.2 present⟩
  · intro found fresh present unloaded
    rw [← opened.cloning.spare found fresh (Heap.holds_edit.1 present) unloaded]
    apply elsewhere found
    rintro rfl
    rw [opened.origin_eq, loaded] at unloaded
    cases unloaded
  · simp [Heap.type_edit, opened.type_eq]
  · simp [here, Node.origin_edited other, opened.plain]

/-- A change that matters neither to the copies nor to what the run looks up. -/
theorem of_same (opened : Opened setting source member now origin id copy after origin') {later : World}
    (heap : later.heap = after.heap) (visits : later.visits = after.visits)
    (registry : later.dispatch.registry = after.dispatch.registry)
    (schema : later.cache.schema = after.cache.schema)
    (store : later.store = { after.store with flushes := later.store.flushes })
    (outages : later.outages = after.outages) :
    Opened setting source member now origin id copy later origin' :=
  opened.go (opened.cloning.of_same heap visits registry schema store outages) (.of_same heap visits)

/-- The object is one that had not been visited before. -/
theorem fewer (opened : Opened setting source member now origin id copy after origin')
    (held : source.heap.Holds id) : source.unvisited after < source.unvisited now := by
  apply World.unvisited_lt opened.advance.visits held opened.unvisited
  rw [opened.visited]
  exact Option.some_ne_none _

/-- Once the copy mirrors the object nothing is left open. -/
theorem close (opened : Opened setting source member now origin id copy after origin')
    (mirrors : Mirrors setting source origin' after id copy) :
    Advance setting source (fun _ => False) now origin after origin' :=
  opened.advance.close (fun _ => .inr) opened.visited opened.new mirrors

end Opened

end Reconciler
