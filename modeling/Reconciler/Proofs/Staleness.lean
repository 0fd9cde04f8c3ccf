import Mathlib.Data.List.Find
import Mathlib.Tactic.SplitIfs
import Reconciler.Proofs.Clone.Engine
import Reconciler.Proofs.Roster

/-! # When an untouched copy is stale

A stored entity is disconnected, then its version changes, and the copy is applied as it is. A copy carries the
version that the entity had if the metadata declares the version, and none otherwise. So the copy of an entity with
an undeclared version is refused even if the version has not changed, unless it is null. If the copy is not refused,
it carries nothing new, and applying it changes nothing.
-/

namespace Reconciler

open Reconciler.Action

private theorem Node.content_of_isBean {node : Node} (bean : node.isBean = true) :
    ∃ attributes, node.content = .bean attributes := by
  rcases node with ⟨type, origin, content⟩
  cases content with
  | bean attributes => exact ⟨attributes, rfl⟩
  | _ => cases bean

/-- Declared metadata are used, whatever the object holds. -/
theorem World.metadata?_of_declared {setting : Setting} {world : World} {id : ObjectId} {metadata : Metadata}
    (declared : (setting.overrides.get? (world.heap.node id).type).or
      (world.cache.schema.metadata? (world.heap.node id).type) = some metadata) :
    world.metadata? setting id = some metadata := by
  rw [metadata?, ← Option.or_assoc, declared]
  rfl

namespace Action

variable {α β : Type} {world : World} {outcome : Except Ending α}

/-- The action ends with this outcome, and neither an object nor the store has changed. -/
def Concludes (action : Action α) (world : World) (outcome : Except Ending α) : Prop :=
  ∃ after, action world = (outcome, after) ∧ after.heap = world.heap ∧ after.store = world.store

/-- A first action that answers without a change decides nothing. -/
theorem concludes_bind_of_eq {first : Action β} {next : β → Action α} {answer : β} {middle : World}
    (run : first world = (.ok answer, middle)) (heap : middle.heap = world.heap) (store : middle.store = world.store)
    (rest : (next answer).Concludes middle outcome) : (first >>= next).Concludes world outcome := by
  obtain ⟨after, ended, same, kept⟩ := rest
  exact ⟨after, (bind_of_ok run).trans ended, same.trans heap, kept.trans store⟩

/-- What only answers in another way ends in the same way. -/
theorem Concludes.map {action : Action α} (concludes : action.Concludes world outcome) (answer : β) :
    (action >>= fun _ => pure answer).Concludes world (outcome.map fun _ => answer) := by
  obtain ⟨after, run, heap, store⟩ := concludes
  cases outcome with
  | ok => exact ⟨after, bind_of_ok run, heap, store⟩
  | error => exact ⟨after, bind_of_error run, heap, store⟩

/-- A request ends as its step does. -/
theorem concludes_answer {setting : Setting} {fuel : Nat} {request : Request} {outcome : Except Ending Value}
    (concludes : (step setting (answer setting fuel) request).Concludes
      { world with journal := .asked request :: world.journal } outcome) :
    (answer setting (fuel + 1) request).Concludes world outcome := by
  obtain ⟨after, run, heap, store⟩ := concludes
  refine concludes_bind_of_eq rfl rfl rfl ?_
  cases outcome with
  | ok result => exact ⟨_, bind_of_ok run, heap, store⟩
  | error ending => exact ⟨after, bind_of_error run, heap, store⟩

end Action

/-- A copy of a bean that is an entity of a versioned type, and the entity, whose version may have changed since. -/
structure Revised (setting : Setting) (world : World) (entity : Entity) (metadata : Metadata) (version : String)
    (copy original : ObjectId) : Prop where
  sound : ∀ operation, world.Serves operation
  managed : world.store.entity? (world.heap.node original).type = some entity
  checked : checkedVersion? setting entity = some version
  declared : (setting.overrides.get? (world.heap.node original).type).or
    (world.cache.schema.metadata? (world.heap.node original).type) = some metadata
  fields : metadata.AllFields
  bean : (world.heap.node original).isBean = true
  loaded : (world.heap.node original).origin.isLoaded = true
  known : ((world.heap.node original).attr entity.idProperty).isNull = false
  found : world.store.find world.heap (world.heap.node original).type
    ((world.heap.node original).attr entity.idProperty) = .ok (some original)
  different : copy ≠ original
  carrier : (world.heap.node copy).isBean = true
  type_eq : (world.heap.node copy).type = (world.heap.node original).type
  walked : world.handler? copy = none
  identifier : (world.heap.node copy).attr entity.idProperty = (world.heap.node original).attr entity.idProperty
  untouched : ∀ name ∈ metadata.names, name ≠ version →
    (world.heap.node copy).attr name = (world.heap.node original).attr name

/-- How the comparison of a carried version with the current one ends. A null version is not compared. -/
def versionVerdict (type : TypeName) (version : String) (carried current : Value) : Except Ending Unit :=
  if current.isNull = false ∧ current ≠ carried then
    .error (.failed (.versionMismatch type version carried current))
  else .ok ()

/-- How the comparison of the versions of two objects ends. -/
def World.verdict (world : World) (version : String) (copy original : ObjectId) : Except Ending Unit :=
  versionVerdict (world.heap.node original).type version ((world.heap.node copy).attr version)
    ((world.heap.node original).attr version)

section Apply

variable {setting : Setting} {now : World} {entity : Entity} {metadata : Metadata} {version : String}
  {copy original : ObjectId} {ask : Request → Action Value}

/-- A version is what the bean holds, whether it is declared or not. -/
theorem versionOf_eq (fields : metadata.AllFields) {id : ObjectId} (bean : (now.heap.node id).isBean = true)
    (property : String) : versionOf metadata id property now = (.ok ((now.heap.node id).attr property), now) := by
  have read : (versionOf metadata id property >>= pure).Answers now
      (fun value after => value = (now.heap.node id).attr property ∧ now = after) :=
    answers_versionOf_bind fields bean (answers_pure ⟨rfl, rfl⟩)
  rw [bind_pure] at read
  obtain ⟨_, _, run, rfl, rfl⟩ := read
  exact run

/-- A property with the value that it had is passed over. -/
private theorem answers_mergeProperty_of_same {name : String} (declared : metadata.access? name = some .field)
    (carrier : (now.heap.node copy).isBean = true) (bean : (now.heap.node original).isBean = true)
    (same : (now.heap.node copy).attr name = (now.heap.node original).attr name) :
    (mergeProperty ask metadata copy original name).Answers now (fun _ after => now = after) := by
  apply answers_readProperty_bind declared carrier
  apply answers_readProperty_bind declared bean
  rw [same, decide_eq_true rfl, Bool.or_true, if_pos rfl]
  exact answers_pure rfl

namespace Revised

variable (revised : Revised setting now entity metadata version copy original)

include revised

/-- What is remembered does not matter. -/
theorem of_same (after : World) (heap : after.heap = now.heap) (store : after.store = now.store)
    (registry : after.dispatch.registry = now.dispatch.registry) (schema : after.cache.schema = now.cache.schema)
    (outages : after.outages = now.outages) : Revised setting after entity metadata version copy original := by
  have sound := fun operation => (revised.sound operation).of_same (by rw [store]) outages
  obtain ⟨heap', store', dispatch, cache, visits, journal, outages'⟩ := after
  obtain rfl : heap' = now.heap := heap
  obtain rfl : store' = now.store := store
  have declared := revised.declared
  have walked := revised.walked
  rw [← schema] at declared
  rw [World.handler?, ← registry] at walked
  exact { revised with sound, declared, walked }

/-- The store gives the identifier that both have. -/
theorem identifier_eq {id : ObjectId}
    (same : (now.heap.node id).attr entity.idProperty = (now.heap.node original).attr entity.idProperty) :
    now.store.identifier now.heap entity id = .ok (some ((now.heap.node original).attr entity.idProperty)) := by
  rw [EntityStore.identifier_of_sound (revised.sound .identifier).faults, Entity.identifier?, same, revised.known]
  rfl

/-- The versions of the two are compared. -/
theorem compareChecked_eq : compareChecked metadata copy original (checkedVersion? setting entity) now =
    (now.verdict version copy original, now) := by
  rw [revised.checked]
  show compareVersions metadata copy original version now = _
  rw [compareVersions, bind_of_ok (versionOf_eq revised.fields revised.bean version),
    bind_of_ok (versionOf_eq revised.fields revised.carrier version), World.verdict, versionVerdict]
  by_cases stale : ((now.heap.node original).attr version).isNull = false ∧
      (now.heap.node original).attr version ≠ (now.heap.node copy).attr version
  · rw [if_pos (by simpa using stale), if_pos stale]
    rfl
  · rw [if_neg (by simpa using stale), if_neg stale]
    rfl

/-- No property of the entity changes. -/
theorem concludes_mergeProperties : (mergeProperties setting ask entity copy original).Concludes now
    (now.verdict version copy original) := by
  have known : (metadataOf setting original).Answers now _ := answers_metadataOf setting original
  obtain ⟨_, _, run, rfl, cache, schema, rfl⟩ := known
  refine concludes_bind_of_eq run rfl rfl ?_
  rw [World.metadata?_of_declared revised.declared, Option.getD_some]
  have compared := (revised.of_same { now with cache } rfl rfl rfl schema rfl).compareChecked_eq
  have same : World.verdict { now with cache } version copy original = now.verdict version copy original := rfl
  rw [same] at compared
  rcases outcome : now.verdict version copy original with ending | done
  · rw [outcome] at compared
    exact ⟨_, bind_of_error compared, rfl, rfl⟩
  · rw [outcome] at compared
    refine concludes_bind_of_eq compared rfl rfl (concludes_bind_of_eq rfl rfl rfl ?_)
    have passed : ((metadata.names.filter fun name => checkedVersion? setting entity ≠ some name).forM
        (mergeProperty ask metadata copy original)).Answers
        { now with cache, journal := .walked copy :: now.journal }
        (fun _ after => after.heap = now.heap ∧ after.store = now.store) := by
      apply answers_forM fun _ after => after.heap = now.heap ∧ after.store = now.store
      · exact ⟨rfl, rfl⟩
      · rintro earlier name later split middle ⟨heap, store⟩
        obtain ⟨listed, other⟩ := List.mem_filter.1 (split ▸ List.mem_append_cons_self)
        rw [revised.checked, decide_eq_true_iff] at other
        obtain ⟨access, declared⟩ := Metadata.access?_of_mem_names listed
        obtain rfl := revised.fields.access?_eq declared
        have same := revised.untouched name listed fun version => other (congrArg some version.symm)
        rw [← heap] at same
        apply (answers_mergeProperty_of_same declared (heap ▸ revised.carrier) (heap ▸ revised.bean) same).weaken
        rintro _ _ rfl
        exact ⟨heap, store⟩
    obtain ⟨_, after, run, heap, store⟩ := passed
    exact ⟨after, run, heap, store⟩

/-- The entity stays as it is, and it is the answer unless the version of the copy is refused. -/
theorem concludes_mergeObject : (mergeObject setting ask copy original).Concludes now
    ((now.verdict version copy original).map fun _ => .object original) := by
  refine concludes_bind_of_eq rfl rfl rfl (concludes_bind_of_eq rfl rfl rfl ?_)
  simp only [revised.managed, if_neg revised.different]
  have serves := (revised.sound .identifier).outages
  refine concludes_bind_of_eq (callStore_of_ok serves (revised.identifier_eq rfl)) rfl rfl ?_
  simp only [revised.loaded, if_true]
  exact revised.concludes_mergeProperties.map _

/-- The copy is walked property by property. -/
theorem handlerOf_eq : ∃ dispatch, handlerOf (.object copy) now = (.ok none, { now with dispatch }) ∧
    Revised setting { now with dispatch } entity metadata version copy original := by
  have looked : (handlerOf (.object copy)).Answers now _ := answers_handlerOf (.object copy)
  obtain ⟨_, _, run, answer, dispatch, registry, rfl⟩ := looked
  obtain rfl := answer.trans revised.walked
  exact ⟨dispatch, run, revised.of_same _ rfl rfl registry rfl rfl⟩

/-- A copy that was not visited yet is brought onto the entity. -/
theorem concludes_applyTo (unvisited : now.visits.get? copy = none) (fuel : Nat) :
    (answer setting (fuel + 1) (.applyTo (.object copy) (.object original))).Concludes now
      ((now.verdict version copy original).map fun _ => .object original) := by
  apply concludes_answer
  generalize Event.asked _ :: now.journal = journal
  refine concludes_bind_of_eq (congrArg (fun known => (Except.ok known, { now with journal })) unvisited) rfl rfl ?_
  refine concludes_bind_of_eq rfl rfl rfl ?_
  have recorded := revised.of_same (record copy (.object original) { now with journal }).2 rfl rfl rfl rfl rfl
  obtain ⟨dispatch, looked, revised⟩ := recorded.handlerOf_eq
  exact concludes_bind_of_eq looked rfl rfl revised.concludes_mergeObject

/-- The store finds the entity by the identifier of the copy. -/
theorem concludes_apply (unvisited : now.visits.get? copy = none) (fuel : Nat) :
    (answer setting (fuel + 2) (.apply (.object copy))).Concludes now
      ((now.verdict version copy original).map fun _ => .object original) := by
  apply concludes_answer
  generalize Event.asked _ :: now.journal = journal
  refine concludes_bind_of_eq (congrArg (fun known => (Except.ok known, { now with journal })) unvisited) rfl rfl ?_
  have noted := revised.of_same { now with journal } rfl rfl rfl rfl rfl
  obtain ⟨dispatch, looked, revised⟩ := noted.handlerOf_eq
  refine concludes_bind_of_eq looked rfl rfl (concludes_bind_of_eq rfl rfl rfl (concludes_bind_of_eq rfl rfl rfl ?_))
  simp only [revised.type_eq, revised.managed]
  have serves := (revised.sound .identifier).outages
  refine concludes_bind_of_eq (callStore_of_ok serves (revised.identifier_eq revised.identifier)) rfl rfl ?_
  refine concludes_bind_of_eq (callStore_of_ok (revised.sound .find).outages revised.found) rfl rfl ?_
  exact revised.concludes_applyTo unvisited fuel

end Revised

end Apply

/-- A stored and loaded entity of a versioned type, which the store finds by its identifier. It has no handler, and
its declared properties are raw attributes with scalars or null. Its version may be declared or not. -/
structure Versioned (setting : Setting) (world : World) (entity : Entity) (metadata : Metadata) (version : String)
    (original : ObjectId) : Prop where
  clones : setting.config.cloneObjects = true
  checks : setting.config.checkVersion = true
  sound : ∀ operation, world.Serves operation
  stored : ∀ id ∈ world.store.stored, world.heap.Holds id
  passes : world.PassesScalars
  managed : world.store.entity? (world.heap.node original).type = some entity
  versioned : entity.versionProperty? = some version
  apart : entity.idProperty ≠ version
  declared : (setting.overrides.get? (world.heap.node original).type).or
    (world.cache.schema.metadata? (world.heap.node original).type) = some metadata
  fields : metadata.AllFields
  identified : entity.idProperty ∈ metadata.names
  bean : (world.heap.node original).isBean = true
  loaded : (world.heap.node original).origin.isLoaded = true
  walked : world.handler? original = none
  known : ((world.heap.node original).attr entity.idProperty).isNull = false
  scalar : ∀ name ∈ metadata.names, ((world.heap.node original).attr name).object? = none
  found : world.store.find world.heap (world.heap.node original).type
    ((world.heap.node original).attr entity.idProperty) = .ok (some original)

/-- The world after the version of an entity was set. -/
def World.withVersion (world : World) (original : ObjectId) (version : String) (current : Value) : World :=
  { world with heap := world.heap.edit original (.setAttribute version current) }

/-- The version that a copy has of an entity: that of the entity if it is declared, and else none. -/
def Metadata.carried (metadata : Metadata) (version : String) (value : Value) : Value :=
  if metadata.declares version then value else .null

namespace Versioned

variable {setting : Setting} {world : World} {entity : Entity} {metadata : Metadata} {version : String}
  {original : ObjectId} (versioned : Versioned setting world entity metadata version original)

include versioned

private theorem names_eq : world.names setting original = metadata.names := by
  rw [World.names, World.metadata?_of_declared versioned.declared]
  rfl

/-- The entity refers to no other object, so it is cloned alone. -/
theorem cloneable : Cloneable setting world.rested (· = original) where
  clones := versioned.clones
  flushes := (versioned.sound .flush).rested
  scalar := versioned.passes
  copyable id same := by
    rw [same]
    obtain ⟨attributes, content⟩ := Node.content_of_isBean versioned.bean
    have node : (world.rested.heap.node original).content = .bean attributes := content
    refine ⟨Heap.holds_of_isBean versioned.bean, ?_, fun _ other used => ?_, fun sealed => ?_, ?_, fun slots => ?_⟩
    · rw [node]
      exact versioned.walked
    · cases (World.metadata?_of_declared versioned.declared).symm.trans used
      exact versioned.fields
    · cases node.symm.trans sealed
    · rw [Node.Distinct, node]
      trivial
    · rw [Node.hasScalarSlots, node] at slots
      cases slots
  loaded id same := by
    rw [same]
    exact .inl versioned.loaded
  closed id same part listed := by
    rw [same] at listed
    exfalso
    have listed : .object part ∈ world.partsOf setting original := listed
    rw [World.partsOf_of_isBean versioned.bean] at listed
    obtain ⟨name, declared, same⟩ := List.mem_map.1 listed
    have plain := versioned.scalar name (versioned.names_eq ▸ declared)
    rw [same] at plain
    cases plain

end Versioned

private theorem Metadata.declares_iff {metadata : Metadata} {property : String} :
    metadata.declares property = true ↔ property ∈ metadata.names := by
  refine ⟨fun declared => ?_, fun listed => ?_⟩
  · obtain ⟨access, declared⟩ := Option.isSome_iff_exists.1 declared
    exact mem_names_of_access? declared
  · obtain ⟨access, declared⟩ := access?_of_mem_names listed
    exact Option.isSome_iff_exists.2 ⟨access, declared⟩

/-- There is a new copy with the declared attributes of the original, and all objects that were there before are as
they were. -/
structure Duplicated (world : World) (metadata : Metadata) (original copy : ObjectId) (cloned : World) : Prop where
  new : ¬ world.heap.Holds copy
  kept : ∀ id, world.heap.Holds id → cloned.heap.node id = world.heap.node id
  type_eq : (cloned.heap.node copy).type = (world.heap.node original).type
  bean : (cloned.heap.node copy).isBean = true
  attr_eq : ∀ name, (cloned.heap.node copy).attr name =
    if name ∈ metadata.names then (world.heap.node original).attr name else .null
  store : cloned.store = { world.store with flushes := cloned.store.flushes }
  registry : cloned.dispatch.registry = world.dispatch.registry
  schema : cloned.cache.schema = world.cache.schema
  outages : cloned.outages = world.outages

/-- A scalar stays what it is in a copied bean. -/
theorem PartCopied.eq_of_scalar {source now : World} {origin : ObjectId → ObjectId} {value image : Value}
    (copied : PartCopied source origin now value image) (plain : value.object? = none) : image = value := by
  cases copied with
  | copied copied =>
    cases copied with
    | scalar => rfl
    | object => cases plain
  | dropped | emptied => cases plain

namespace Versioned

variable {setting : Setting} {world : World} {entity : Entity} {metadata : Metadata} {version : String}
  {original : ObjectId} (versioned : Versioned setting world entity metadata version original)

include versioned

/-- Disconnecting the entity makes such a copy of it. -/
theorem exists_duplicated : ∃ copy cloned,
    setting.disconnect (.object original) world = (.ok (.object copy), cloned) ∧
      Duplicated world metadata original copy cloned := by
  obtain ⟨result, cloned, origin, run, cloning, mirrors, copied⟩ :=
    Setting.exists_disconnect versioned.cloneable fun id same => (Value.object.inj same).symm
  obtain ⟨visited, rfl⟩ := copied.object_eq
  have mirror := mirrors original _ visited
  obtain ⟨-, _, same, -, new, -⟩ := cloning.visited original _ visited
  obtain rfl := Value.object.inj same
  refine ⟨_, cloned, run, new, cloning.kept, mirror.type_eq, mirror.isBean_eq.trans versioned.bean, fun name => ?_,
    cloning.store, cloning.registry, cloning.schema, cloning.outages⟩
  have names : World.names setting world.rested original = metadata.names := versioned.names_eq
  rcases mirror.attr_cases versioned.bean name with ⟨listed, part⟩ | ⟨unlisted, null⟩
  · rw [names] at listed
    rw [if_pos listed]
    exact part.eq_of_scalar (versioned.scalar name listed)
  · rw [names] at unlisted
    rw [if_neg unlisted, null]

/-- Setting the version of the entity keeps the rest of it. -/
theorem attr_withVersion {cloned : World} (kept : cloned.heap.node original = world.heap.node original)
    (current : Value) (name : String) :
    ((cloned.withVersion original version current).heap.node original).attr name =
      if version = name then current else (world.heap.node original).attr name := by
  have bean : (cloned.heap.node original).isBean = true := by rw [kept, versioned.bean]
  rw [← kept]
  exact Heap.attr_edit_setAttribute (Heap.holds_of_isBean bean) bean version current name

private theorem retained_withVersion {cloned : World} (kept : cloned.heap.node original = world.heap.node original)
    (current : Value) : (world.heap.node original).Retained
      ((cloned.withVersion original version current).heap.node original) := by
  have bean : (cloned.heap.node original).isBean = true := by rw [kept, versioned.bean]
  have edited : (cloned.withVersion original version current).heap.node original =
      (cloned.heap.node original).edited (.setAttribute version current) :=
    Heap.node_edit_self (Heap.holds_of_isBean bean) _
  rw [edited, kept]
  exact Node.retained_setAttribute _ _ _

/-- The copy is another object, and setting the version of the entity does not change it. -/
theorem node_withVersion {copy : ObjectId} {cloned : World}
    (duplicated : Duplicated world metadata original copy cloned) (current : Value) : copy ≠ original ∧
      (cloned.withVersion original version current).heap.node copy = cloned.heap.node copy := by
  have different : copy ≠ original := fun same =>
    duplicated.new (same ▸ Heap.holds_of_isBean versioned.bean)
  exact ⟨different, Heap.node_edit_of_ne _ different _⟩

/-- The store finds the entity, as the identifier is not the version. -/
theorem find_withVersion {copy : ObjectId} {cloned : World}
    (duplicated : Duplicated world metadata original copy cloned) (current : Value) :
    cloned.store.find (cloned.withVersion original version current).heap (world.heap.node original).type
      ((world.heap.node original).attr entity.idProperty) = .ok (some original) := by
  have kept := duplicated.kept original (Heap.holds_of_isBean versioned.bean)
  have same : ∀ id ∈ world.store.stored,
      ((cloned.withVersion original version current).heap.node id).type = (world.heap.node id).type ∧
        ((cloned.withVersion original version current).heap.node id).attr entity.idProperty =
          (world.heap.node id).attr entity.idProperty := by
    intro id listed
    by_cases here : id = original
    · subst here
      refine ⟨(versioned.retained_withVersion kept current).type_eq, ?_⟩
      rw [versioned.attr_withVersion kept, if_neg (Ne.symm versioned.apart)]
    · have node : (cloned.withVersion original version current).heap.node id = cloned.heap.node id :=
        Heap.node_edit_of_ne _ here _
      rw [node, duplicated.kept id (versioned.stored id listed)]
      exact ⟨rfl, rfl⟩
  have faults : cloned.store.faults.get? .find = none := by
    rw [duplicated.store]
    exact (versioned.sound .find).faults
  have managed : cloned.store.entity? (world.heap.node original).type = some entity := by
    rw [duplicated.store]
    exact versioned.managed
  have stored : cloned.store.stored = world.store.stored := by rw [duplicated.store]
  rw [← versioned.found, EntityStore.find_of_sound faults managed,
    EntityStore.find_of_sound (versioned.sound .find).faults versioned.managed, stored]
  refine congrArg Except.ok (List.find?_congr fun id listed => ?_)
  rw [(same id listed).1, (same id listed).2]

/-- Whatever version the entity gets, the copy still stands for it. -/
theorem revised {copy : ObjectId} {cloned : World} (duplicated : Duplicated world metadata original copy cloned)
    (current : Value) :
    Revised setting (cloned.withVersion original version current) entity metadata version copy original := by
  have kept := duplicated.kept original (Heap.holds_of_isBean versioned.bean)
  have retained := versioned.retained_withVersion kept current
  have attr := versioned.attr_withVersion kept current
  obtain ⟨different, carrier⟩ := versioned.node_withVersion duplicated current
  have store : (cloned.withVersion original version current).store =
      { world.store with flushes := cloned.store.flushes } := duplicated.store
  have identifier := attr entity.idProperty
  rw [if_neg (Ne.symm versioned.apart)] at identifier
  constructor
  case sound => exact fun operation => (versioned.sound operation).of_same (by rw [store]) duplicated.outages
  case managed =>
    rw [store, retained.type_eq]
    exact versioned.managed
  case checked => rw [checkedVersion?, versioned.checks, if_pos rfl, versioned.versioned]
  case declared =>
    rw [retained.type_eq, ← versioned.declared, ← duplicated.schema]
    rfl
  case fields => exact versioned.fields
  case bean => rw [retained.isBean_eq, versioned.bean]
  case loaded => rw [retained.origin_eq, versioned.loaded]
  case known => rw [identifier, versioned.known]
  case found =>
    rw [retained.type_eq, identifier]
    exact versioned.find_withVersion duplicated current
  case different => exact different
  case carrier => rw [carrier, duplicated.bean]
  case type_eq => rw [carrier, retained.type_eq, duplicated.type_eq]
  case walked =>
    rw [← versioned.walked, World.handler?, World.handler?, ← duplicated.registry]
    apply Handler.Registry.ofValue_of_same
    · rw [carrier, duplicated.type_eq]
    · rw [carrier, Node.shape?_of_isBean duplicated.bean, Node.shape?_of_isBean versioned.bean]
  case identifier => rw [carrier, identifier, duplicated.attr_eq, if_pos versioned.identified]
  case untouched =>
    intro name listed other
    rw [carrier, duplicated.attr_eq, if_pos listed, attr, if_neg (Ne.symm other)]

/-- The version that the copy carries is compared with the one that the entity got. -/
theorem verdict_withVersion {copy : ObjectId} {cloned : World}
    (duplicated : Duplicated world metadata original copy cloned) (current : Value) :
    (cloned.withVersion original version current).rested.verdict version copy original =
      versionVerdict (world.heap.node original).type version
        (metadata.carried version ((world.heap.node original).attr version)) current := by
  have kept := duplicated.kept original (Heap.holds_of_isBean versioned.bean)
  obtain ⟨-, carrier⟩ := versioned.node_withVersion duplicated current
  have carried : (cloned.heap.node copy).attr version =
      metadata.carried version ((world.heap.node original).attr version) := by
    rw [duplicated.attr_eq, Metadata.carried]
    simp only [Metadata.declares_iff]
  show versionVerdict ((cloned.withVersion original version current).heap.node original).type version
    (((cloned.withVersion original version current).heap.node copy).attr version)
    (((cloned.withVersion original version current).heap.node original).attr version) = _
  rw [carrier, carried, versioned.attr_withVersion kept, if_pos rfl,
    (versioned.retained_withVersion kept current).type_eq]

end Versioned

/-- An entity is disconnected, then its version is set, and its copy is applied as it is. The copy is refused if the
version that the entity has now is not null and not the version that the copy carries. Else the answer is the entity.
In both cases no object changes. -/
theorem Setting.apply_untouched {setting : Setting} {world : World} {entity : Entity} {metadata : Metadata}
    {version : String} {original : ObjectId}
    (versioned : Versioned setting world entity metadata version original) :
    ∃ copy cloned, setting.disconnect (.object original) world = (.ok (.object copy), cloned) ∧
      ¬ world.heap.Holds copy ∧ cloned.heap.node original = world.heap.node original ∧
      ∀ current, let start := cloned.withVersion original version current
        let carried := metadata.carried version ((world.heap.node original).attr version)
        ∃ outcome after, setting.apply (.object copy) start = (outcome, after) ∧
          after.heap = start.heap ∧ after.store = start.store ∧
          outcome = if current.isNull = false ∧ current ≠ carried then
            .error (.failed (.versionMismatch (world.heap.node original).type version carried current))
          else .ok (.object original) := by
  obtain ⟨copy, cloned, run, duplicated⟩ := versioned.exists_duplicated
  have kept := duplicated.kept original (Heap.holds_of_isBean versioned.bean)
  refine ⟨copy, cloned, run, duplicated.new, kept, fun current => ?_⟩
  intro start carried
  have revised : Revised setting start.rested entity metadata version copy original :=
    (versioned.revised duplicated current).of_same _ rfl rfl rfl rfl rfl
  obtain ⟨fuel, enough⟩ := Nat.exists_eq_add_of_lt (start.rested.size_lt_fuel setting)
  obtain ⟨after, applied, heap, store⟩ := revised.concludes_apply rfl (start.rested.heap.size + fuel)
  have supply : start.rested.fuel setting = start.rested.heap.size + fuel + 2 := by omega
  rw [← supply] at applied
  refine ⟨_, after, applied, heap, store, ?_⟩
  rw [versioned.verdict_withVersion duplicated current, versionVerdict]
  split_ifs <;> rfl

namespace Parcels

/-- The version of a ticket is declared, and that of a parcel is not. -/
def schema : Schema :=
  ⟨[{ name := ⟨"Ticket"⟩, properties := .ofList [("id", .field), ("title", .field), ("version", .field)] },
    { name := ⟨"Parcel"⟩, properties := .ofList [("id", .field), ("title", .field)] }]⟩

def entity (type : TypeName) : Entity := { type, idProperty := "id", versionProperty? := some "version" }

/-- A stored entity of the third version. -/
def world (type : TypeName) : World where
  heap := ⟨#[{ Node.bean type [("id", .int 1), ("title", .text "x"), ("version", .int 3)] with origin := .stored }]⟩
  store := { entities := .ofList [(type, entity type)], stored := [⟨0⟩] }
  dispatch := .ofRegistry (.withDefaults schema)
  cache := .ofSchema schema

def setting : Setting := { schema, config := { cloneObjects := true } }

/-- How it ends if the copy of the entity is applied after the version of the entity was set. -/
def outcome (type : TypeName) (current : Value) : Except Ending Value :=
  (setting.apply (.object ⟨1⟩) ((setting.disconnect (.object ⟨0⟩) (world type)).2.withVersion ⟨0⟩ "version" current)).1

def metadata (type : TypeName) (names : List String) : Metadata :=
  { type, properties := .ofList (names.map fun name => (name, .field)) }

private theorem versioned_ticket : Versioned setting (world ⟨"Ticket"⟩) (entity ⟨"Ticket"⟩)
    (metadata ⟨"Ticket"⟩ ["id", "title", "version"]) "version" ⟨0⟩ where
  clones := rfl
  checks := rfl
  sound _ := ⟨rfl, rfl⟩
  stored := by decide
  passes _ plain _ found := Handler.Registry.ofValue_scalar schema _ plain found
  managed := by decide +kernel
  versioned := rfl
  apart := by decide
  declared := rfl
  fields := by
    refine OrderedMap.forall_ofList (fun access : Access => access = .field) fun entry listed => ?_
    obtain ⟨_, -, rfl⟩ := List.mem_map.1 listed
    rfl
  identified := by decide +kernel
  bean := rfl
  loaded := rfl
  walked := by decide +kernel
  known := by decide +kernel
  scalar := by decide +kernel
  found := by rfl

/-- The copy of the ticket is taken while the version is the same, and refused when it is another. -/
theorem ticket_copy_current :
    ∃ copy cloned, setting.disconnect (.object ⟨0⟩) (world ⟨"Ticket"⟩) = (.ok (.object copy), cloned) ∧
      (∃ after, setting.apply (.object copy) (cloned.withVersion ⟨0⟩ "version" (.int 3)) = (.ok (.object ⟨0⟩), after) ∧
        after.heap = (cloned.withVersion ⟨0⟩ "version" (.int 3)).heap) ∧
      ∃ after, setting.apply (.object copy) (cloned.withVersion ⟨0⟩ "version" (.int 4)) =
          (.error (.failed (.versionMismatch ⟨"Ticket"⟩ "version" (.int 3) (.int 4))), after) ∧
        after.heap = (cloned.withVersion ⟨0⟩ "version" (.int 4)).heap := by
  obtain ⟨copy, cloned, run, -, -, applied⟩ := Setting.apply_untouched versioned_ticket
  obtain ⟨_, accepted, accepts, kept, -, rfl⟩ := applied (.int 3)
  obtain ⟨_, refused, refuses, spared, -, rfl⟩ := applied (.int 4)
  exact ⟨copy, cloned, run, ⟨accepted, accepts, kept⟩, refused, refuses, spared⟩

/-- The version of the parcel is the one that it had, but the copy is refused. -/
theorem untouched_parcel_refused :
    setting.config.checkVersion = true ∧ schema.declares ⟨"Parcel"⟩ = true ∧
      (world ⟨"Parcel"⟩).store.find (world ⟨"Parcel"⟩).heap ⟨"Parcel"⟩ (.int 1) = .ok (some ⟨0⟩) ∧
      (setting.disconnect (.object ⟨0⟩) (world ⟨"Parcel"⟩)).1 = .ok (.object ⟨1⟩) ∧
      ((world ⟨"Parcel"⟩).heap.node ⟨0⟩).attr "version" = .int 3 ∧
      outcome ⟨"Parcel"⟩ (.int 3) =
        .error (.failed (.versionMismatch ⟨"Parcel"⟩ "version" .null (.int 3))) := by
  decide +kernel

end Parcels

end Reconciler
