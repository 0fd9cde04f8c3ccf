import Reconciler.Proofs.Loan

/-! # Bringing a collection of entities up to date

A detached collection holds beans with scalar attributes. Every one of them stands for one entity, its partner: the
element of the authoritative collection that is of its type and has its identifier, or else what the store finds.
Here is what becomes of one pair: the partner takes over what the element carries, except null and the version, and
keeps the rest. So it stays the same entity, whatever else it takes over.
-/

namespace Reconciler

open Reconciler.Action

/-- Both objects are of one entity type and have one identifier. -/
def World.sameEntity (world : World) (left right : ObjectId) : Bool :=
  (world.store.entity? (world.heap.node left).type).any (fun entity =>
    decide ((world.heap.node right).type = (world.heap.node left).type ∧
      (world.heap.node right).attr entity.idProperty = (world.heap.node left).attr entity.idProperty))

/-- What an attribute is once the named ones were taken over. Null is not taken over. -/
def Heap.takenOver (heap : Heap) (names : List String) (source target : ObjectId) (name : String) : Value :=
  let carried := (heap.node source).attr name
  if name ∈ names ∧ carried.isNull = false then carried else (heap.node target).attr name

/-- The declared properties that an entity takes over: all but the version, while versions are compared. -/
def Setting.merges (setting : Setting) (world : World) (id : ObjectId) : List String :=
  let checked? := (world.store.entity? (world.heap.node id).type).bind (checkedVersion? setting)
  (world.names setting id).filter (fun name => checked? ≠ some name)

/-- Scalars are nobody's business but their own. -/
def World.PassesScalars (world : World) : Prop :=
  ∀ value, value.object? = none → ∀ handler,
    world.dispatch.registry.ofValue world.heap value = some handler → handler = .basic

/-- An element of a detached collection and its partner: beans of an entity type with declared raw attributes,
without a handler or a domain equality. The element has an identifier and carries scalars; the partner is loaded, and
its version, if versions are compared, is that of the element. -/
structure Enrolled (setting : Setting) (world : World) (entity : Entity) (metadata : Metadata)
    (element partner : ObjectId) : Prop where
  managed : world.store.entity? (world.heap.node element).type = some entity
  declared : (setting.overrides.get? (world.heap.node element).type).or
    (world.cache.schema.metadata? (world.heap.node element).type) = some metadata
  fields : metadata.AllFields
  walked : world.handler? element = none
  unequal : setting.schema.equality? (world.heap.node element).type = none
  carrier : (world.heap.node element).isBean = true
  scalar : ∀ name ∈ metadata.names, ((world.heap.node element).attr name).object? = none
  known : ((world.heap.node element).attr entity.idProperty).isNull = false
  different : element ≠ partner
  bean : (world.heap.node partner).isBean = true
  loaded : (world.heap.node partner).origin.isLoaded = true
  version : ∀ property, checkedVersion? setting entity = some property →
    ((world.heap.node partner).attr property).isNull = true ∨
      (world.heap.node partner).attr property = (world.heap.node element).attr property

namespace World

variable {world : World} {left right shared : ObjectId}

theorem sameEntity_iff : world.sameEntity left right = true ↔
    ∃ entity, world.store.entity? (world.heap.node left).type = some entity ∧
      (world.heap.node right).type = (world.heap.node left).type ∧
      (world.heap.node right).attr entity.idProperty = (world.heap.node left).attr entity.idProperty := by
  simp [sameEntity, Option.any_eq_true]

theorem type_of_sameEntity (same : world.sameEntity left right = true) :
    (world.heap.node right).type = (world.heap.node left).type := by
  obtain ⟨_, -, type, -⟩ := sameEntity_iff.1 same
  exact type

theorem attr_of_sameEntity {entity : Entity}
    (managed : world.store.entity? (world.heap.node left).type = some entity)
    (same : world.sameEntity left right = true) :
    (world.heap.node right).attr entity.idProperty = (world.heap.node left).attr entity.idProperty := by
  obtain ⟨_, known, -, identifier⟩ := sameEntity_iff.1 same
  cases managed.symm.trans known
  exact identifier

theorem sameEntity_symm (same : world.sameEntity left right = true) : world.sameEntity right left = true := by
  obtain ⟨entity, managed, type, identifier⟩ := sameEntity_iff.1 same
  exact sameEntity_iff.2 ⟨entity, type ▸ managed, type.symm, identifier.symm⟩

/-- Two objects are the same entity if one object is the same as both. -/
theorem sameEntity_of_shared (one : world.sameEntity left shared = true)
    (two : world.sameEntity right shared = true) : world.sameEntity left right = true := by
  obtain ⟨entity, managed, type, identifier⟩ := sameEntity_iff.1 one
  have type' := type_of_sameEntity two
  have managed' : world.store.entity? (world.heap.node right).type = some entity := by
    rw [← type', type, managed]
  have identifier' := attr_of_sameEntity managed' two
  exact sameEntity_iff.2 ⟨entity, managed, type'.symm.trans type, identifier'.symm.trans identifier⟩

/-- Whether two objects are the same entity is read off their types and identifiers. -/
theorem sameEntity_eq_of_same {now : World} (store : now.store = world.store)
    (types : ∀ id, (now.heap.node id).type = (world.heap.node id).type)
    (identifiers : ∀ entity, world.store.entity? (world.heap.node left).type = some entity →
      ∀ id ∈ [left, right], (world.heap.node id).type = (world.heap.node left).type →
        (now.heap.node id).attr entity.idProperty = (world.heap.node id).attr entity.idProperty) :
    now.sameEntity left right = world.sameEntity left right := by
  rw [Bool.eq_iff_iff, sameEntity_iff, sameEntity_iff, store, types, types]
  refine exists_congr fun entity => and_congr_right fun managed => and_congr_right fun type => ?_
  have here := identifiers entity managed left List.mem_cons_self rfl
  have there := identifiers entity managed right (List.mem_cons_of_mem _ List.mem_cons_self) type
  rw [here, there]

end World

/-- Every bean was allocated. -/
theorem Heap.holds_of_isBean {heap : Heap} {id : ObjectId} (bean : (heap.node id).isBean = true) : heap.Holds id := by
  by_contra absent
  rw [node_of_not_holds absent] at bean
  cases bean

/-- Only what is remembered and the journal have changed. -/
structure World.Unmoved (before after : World) : Prop where
  heap : after.heap = before.heap
  store : after.store = before.store
  visits : after.visits = before.visits
  registry : after.dispatch.registry = before.dispatch.registry
  schema : after.cache.schema = before.cache.schema
  outages : after.outages = before.outages

/-- Nothing but the attributes of one object has changed, and these are as given. -/
structure World.Amended (before : World) (target : ObjectId) (attr : String → Value) (after : World) : Prop where
  size_eq : after.heap.size = before.heap.size
  others : ∀ id, id ≠ target → after.heap.node id = before.heap.node id
  retained : (before.heap.node target).Retained (after.heap.node target)
  attr_eq : ∀ name, (after.heap.node target).attr name = attr name
  store : after.store = before.store
  visits : after.visits = before.visits
  registry : after.dispatch.registry = before.dispatch.registry
  schema : after.cache.schema = before.cache.schema
  outages : after.outages = before.outages

section Changes

variable {before middle after : World} {target : ObjectId} {attr : String → Value}

theorem World.Unmoved.trans (first : before.Unmoved middle) (second : middle.Unmoved after) :
    before.Unmoved after :=
  ⟨second.heap.trans first.heap, second.store.trans first.store, second.visits.trans first.visits,
    second.registry.trans first.registry, second.schema.trans first.schema, second.outages.trans first.outages⟩

private theorem World.Unmoved.amended (unmoved : before.Unmoved after) (target : ObjectId) :
    before.Amended target (before.heap.node target).attr after where
  size_eq := by rw [unmoved.heap]
  others _ _ := by rw [unmoved.heap]
  retained := by
    rw [unmoved.heap]
    exact .refl _
  attr_eq _ := by rw [unmoved.heap]
  store := unmoved.store
  visits := unmoved.visits
  registry := unmoved.registry
  schema := unmoved.schema
  outages := unmoved.outages

namespace World.Amended

/-- What is changed first and what is changed then. -/
theorem trans {attr' : String → Value} (first : before.Amended target attr middle)
    (second : middle.Amended target attr' after) : before.Amended target attr' after where
  size_eq := second.size_eq.trans first.size_eq
  others id other := (second.others id other).trans (first.others id other)
  retained := first.retained.trans second.retained
  attr_eq := second.attr_eq
  store := second.store.trans first.store
  visits := second.visits.trans first.visits
  registry := second.registry.trans first.registry
  schema := second.schema.trans first.schema
  outages := second.outages.trans first.outages

/-- The attributes may be given in another way. -/
theorem of_eq {attr' : String → Value} (amended : before.Amended target attr after)
    (same : ∀ name, attr name = attr' name) : before.Amended target attr' after :=
  { amended with attr_eq := fun name => (amended.attr_eq name).trans (same name) }

private theorem unmoved (amended : before.Amended target attr middle) (unmoved : middle.Unmoved after) :
    before.Amended target attr after :=
  (amended.trans (unmoved.amended target)).of_eq amended.attr_eq

/-- One attribute more. -/
theorem write (amended : before.Amended target attr middle) (held : middle.heap.Holds target)
    (bean : (middle.heap.node target).isBean = true) (name : String) (value : Value) :
    before.Amended target (fun wanted => if name = wanted then value else attr wanted)
      (Action.edit target (.setAttribute name value) middle).2 where
  size_eq := (Heap.size_edit ..).trans amended.size_eq
  others id other := (Heap.node_edit_of_ne _ other _).trans (amended.others id other)
  retained := by
    refine amended.retained.trans ?_
    show (middle.heap.node target).Retained ((middle.heap.edit target (.setAttribute name value)).node target)
    rw [Heap.node_edit_self held]
    exact Node.retained_setAttribute _ _ _
  attr_eq wanted := by
    rw [← amended.attr_eq]
    exact Heap.attr_edit_setAttribute held bean name value wanted
  store := amended.store
  visits := amended.visits
  registry := amended.registry
  schema := amended.schema
  outages := amended.outages

end World.Amended

end Changes

section Scalars

variable {setting : Setting} {now : World} {fuel : Nat}

/-- A request is answered as its step is, with two notes. -/
theorem answers_answer {request : Request} {post : Value → World → Prop}
    (answers : (step setting (answer setting fuel) request).Answers
      { now with journal := .asked request :: now.journal } post)
    (noted : ∀ result after, post result after →
      post result { after with journal := .answered request result :: after.journal }) :
    (answer setting (fuel + 1) request).Answers now post := by
  apply answers_bind_of_eq rfl
  apply answers.bind
  intro result after holds
  exact answers_bind_of_eq rfl (answers_pure (noted result after holds))

/-- A scalar is its own counterpart. -/
private theorem answers_scalar {value : Value} (plain : value.object? = none) (passes : now.PassesScalars)
    {next : Option Handler → Action Value} (basic : next (some .basic) = pure value)
    (walked : next none = pure value) :
    (handlerOf value >>= next).Answers now (fun result after => result = value ∧ now.Unmoved after) := by
  apply (answers_handlerOf value).bind
  rintro handler? _ ⟨answer, dispatch, registry, rfl⟩
  have unmoved : now.Unmoved { now with dispatch } := ⟨rfl, rfl, rfl, registry, rfl, rfl⟩
  rcases handler? with _ | handler
  · rw [walked]
    exact answers_pure ⟨rfl, unmoved⟩
  · obtain rfl := passes value plain handler answer.symm
    rw [basic]
    exact answers_pure ⟨rfl, unmoved⟩

theorem answers_reconcile_scalar {value : Value} (plain : value.object? = none) (present : value.isNull = false)
    (passes : now.PassesScalars) (current : Value) :
    (answer setting (fuel + 1) (.reconcile value current)).Answers now
      (fun result after => result = value ∧ now.Unmoved after) := by
  refine answers_answer ?_ fun result after holds => ⟨holds.1, holds.2.trans ⟨rfl, rfl, rfl, rfl, rfl, rfl⟩⟩
  generalize Event.asked _ :: now.journal = journal
  have noted : now.Unmoved { now with journal } := ⟨rfl, rfl, rfl, rfl, rfl, rfl⟩
  have passes : World.PassesScalars { now with journal } := passes
  suffices answers : (step setting (answer setting fuel) (.reconcile value current)).Answers { now with journal }
      (fun result after => result = value ∧ World.Unmoved { now with journal } after) from
    answers.weaken fun _ _ holds => ⟨holds.1, noted.trans holds.2⟩
  unfold Request.reconcile
  split
  · show (applyValue _ value).Answers _ _
    unfold applyValue
    rw [present, if_neg Bool.false_ne_true]
    cases value with
    | object id => cases plain
    | null => cases present
    | _ =>
      apply answers_look_bind
      refine answers_scalar plain passes ?_ ?_
      all_goals rfl
  · next known =>
    show (applyValueTo setting _ value current).Answers _ _
    unfold applyValueTo
    rw [present, Bool.false_or, if_neg known]
    cases value with
    | object id => cases plain
    | null => cases present
    | _ =>
      refine answers_look_bind (answers_bind_of_eq rfl ?_)
      refine answers_scalar plain passes ?_ ?_
      all_goals rfl

end Scalars

section Entities

variable {setting : Setting} {now middle : World} {entity : Entity} {metadata : Metadata}
  {element partner : ObjectId}

/-- A version is read off the bean, whether it is declared or not. -/
theorem answers_versionOf_bind {α : Type} {next : Value → Action α} {post : α → World → Prop}
    (fields : metadata.AllFields) {id : ObjectId} (bean : (now.heap.node id).isBean = true) {property : String}
    (rest : (next ((now.heap.node id).attr property)).Answers now post) :
    (versionOf metadata id property >>= next).Answers now post := by
  unfold versionOf
  split
  · next declared =>
    obtain ⟨access, declared⟩ := Option.isSome_iff_exists.1 declared
    obtain rfl := fields.access?_eq declared
    exact answers_readProperty_bind declared bean rest
  · exact rest

/-- What a merge changes matters to no pair but its own. -/
theorem Enrolled.of_same (enrolled : Enrolled setting now entity metadata element partner) {after : World}
    (carrier : after.heap.node element = now.heap.node element)
    (target : after.heap.node partner = now.heap.node partner) (store : after.store = now.store)
    (registry : after.dispatch.registry = now.dispatch.registry) (schema : after.cache.schema = now.cache.schema) :
    Enrolled setting after entity metadata element partner where
  managed := by rw [store, carrier, enrolled.managed]
  declared := by rw [schema, carrier, enrolled.declared]
  fields := enrolled.fields
  walked := by
    rw [← enrolled.walked, World.handler?, registry]
    exact Handler.Registry.ofValue_of_same _ (congrArg Node.type carrier) (congrArg Node.shape? carrier)
  unequal := by rw [carrier, enrolled.unequal]
  carrier := by rw [carrier, enrolled.carrier]
  scalar := by
    rw [carrier]
    exact enrolled.scalar
  known := by rw [carrier, enrolled.known]
  different := enrolled.different
  bean := by rw [target, enrolled.bean]
  loaded := by rw [target, enrolled.loaded]
  version := by
    rw [carrier, target]
    exact enrolled.version

variable (enrolled : Enrolled setting now entity metadata element partner)

include enrolled

/-- The properties that are merged are listed by the metadata. -/
theorem Enrolled.merges_eq :
    setting.merges now element = metadata.names.filter (fun name => checkedVersion? setting entity ≠ some name) := by
  have names : now.names setting element = metadata.names := by
    rw [World.names, World.metadata?, ← Option.or_assoc, enrolled.declared]
    rfl
  rw [Setting.merges, names, enrolled.managed, Option.bind_some]

/-- The version of the element is no obstacle. -/
private theorem Enrolled.answers_compareChecked (unmoved : now.Unmoved middle) :
    (compareChecked metadata element partner (checkedVersion? setting entity)).Answers middle
      (fun _ after => middle = after) := by
  unfold compareChecked
  split
  · next property checked =>
    unfold compareVersions
    apply answers_versionOf_bind enrolled.fields (by rw [unmoved.heap, enrolled.bean])
    apply answers_versionOf_bind enrolled.fields (by rw [unmoved.heap, enrolled.carrier])
    rw [unmoved.heap, if_neg]
    · exact answers_pure rfl
    · rcases enrolled.version property checked with null | same
      · simp [null]
      · simp [same]
  · exact answers_pure rfl

variable (passes : now.PassesScalars) {fuel : Nat}

include passes

/-- One property more is taken over, unless it carries null or what is already there. -/
private theorem Enrolled.answers_mergeProperty {done : List String} {name : String} (listed : name ∈ metadata.names)
    (amended : now.Amended partner (now.heap.takenOver done element partner) middle) :
    (mergeProperty (answer setting (fuel + 1)) metadata element partner name).Answers middle
      (fun _ after => now.Amended partner (now.heap.takenOver (done ++ [name]) element partner) after) := by
  obtain ⟨access, declared⟩ := Metadata.access?_of_mem_names listed
  obtain rfl := enrolled.fields.access?_eq declared
  have carrier : middle.heap.node element = now.heap.node element := amended.others element enrolled.different
  have bean : (middle.heap.node partner).isBean = true := amended.retained.isBean_eq.trans enrolled.bean
  apply answers_readProperty_bind declared (carrier ▸ enrolled.carrier)
  apply answers_readProperty_bind declared bean
  rw [carrier]
  -- What the other attributes are does not depend on this property.
  have others : ∀ wanted, name ≠ wanted →
      now.heap.takenOver (done ++ [name]) element partner wanted =
        now.heap.takenOver done element partner wanted := by
    intro wanted other
    simp [Heap.takenOver, Ne.symm other]
  split
  · next kept =>
    refine answers_pure (amended.of_eq fun wanted => ?_)
    by_cases here : name = wanted
    · subst here
      by_cases null : ((now.heap.node element).attr name).isNull = true
      · simp [Heap.takenOver, null]
      · rw [Bool.or_eq_true, decide_eq_true_iff, amended.attr_eq] at kept
        rw [← kept.resolve_left null]
        simp [Heap.takenOver, null]
    · exact (others wanted here).symm
  · next changed =>
    rw [Bool.or_eq_true, decide_eq_true_iff, not_or, Bool.not_eq_true] at changed
    have passes : middle.PassesScalars := by
      intro value plain handler found
      rw [amended.registry, Handler.Registry.ofValue_of_scalar _ plain _ now.heap] at found
      exact passes value plain handler found
    apply (answers_reconcile_scalar (enrolled.scalar name listed) changed.1 passes _).bind
    rintro _ asked ⟨rfl, unmoved⟩
    rw [updateProperty, if_neg changed.2]
    have bean : (asked.heap.node partner).isBean = true := by rw [unmoved.heap, bean]
    have held : asked.heap.Holds partner := Heap.holds_of_isBean bean
    apply answers_writeProperty declared bean
    refine ⟨(), _, rfl, ((amended.unmoved unmoved).write held bean name _).of_eq fun wanted => ?_⟩
    split
    · next here =>
      subst here
      simp [Heap.takenOver, changed.1]
    · next other => exact (others wanted other).symm

variable (same : now.sameEntity element partner = true)

include same

/-- All properties are taken over but the version. -/
private theorem Enrolled.answers_mergeProperties (unmoved : now.Unmoved middle) :
    (mergeProperties setting (answer setting (fuel + 1)) entity element partner).Answers middle
      (fun _ after =>
        now.Amended partner (now.heap.takenOver (setting.merges now element) element partner) after) := by
  have metadata?_eq : middle.metadata? setting partner = some metadata := by
    rw [World.metadata?, unmoved.heap, unmoved.schema, World.type_of_sameEntity same, ← Option.or_assoc,
      enrolled.declared]
    rfl
  apply (answers_metadataOf setting partner).bind
  rintro _ _ ⟨rfl, cache, schema, rfl⟩
  rw [metadata?_eq, Option.getD_some]
  have unmoved : now.Unmoved { middle with cache } := unmoved.trans ⟨rfl, rfl, rfl, rfl, schema, rfl⟩
  apply (enrolled.answers_compareChecked unmoved).bind
  rintro _ _ rfl
  apply answers_bind_of_eq rfl
  have unmoved : now.Unmoved { middle with cache, journal := .walked element :: middle.journal } :=
    unmoved.trans ⟨rfl, rfl, rfl, rfl, rfl, rfl⟩
  rw [enrolled.merges_eq]
  apply answers_forM (fun done after => now.Amended partner (now.heap.takenOver done element partner) after)
  · refine (unmoved.amended partner).of_eq fun name => ?_
    simp [Heap.takenOver]
  · intro done name rest split later amended
    have listed : name ∈ metadata.names := (List.mem_filter.1 (split ▸ List.mem_append_cons_self)).1
    exact enrolled.answers_mergeProperty passes listed amended

/-- The partner is brought up to date. -/
theorem Enrolled.answers_mergeObject (sound : now.Serves .identifier)
    (unmoved : now.Unmoved middle) :
    (mergeObject setting (answer setting (fuel + 1)) element partner).Answers middle
      (fun result after => result = .object partner ∧
        now.Amended partner (now.heap.takenOver (setting.merges now element) element partner) after) := by
  have managed : middle.store.entity? (middle.heap.node partner).type = some entity := by
    rw [unmoved.store, unmoved.heap, World.type_of_sameEntity same, enrolled.managed]
  have identifier : middle.store.identifier middle.heap entity partner =
      .ok (some ((now.heap.node element).attr entity.idProperty)) := by
    rw [unmoved.store, EntityStore.identifier_of_sound sound.faults, Entity.identifier?, unmoved.heap,
      World.attr_of_sameEntity enrolled.managed same, enrolled.known]
    rfl
  have loaded : (middle.heap.node partner).origin.isLoaded = true := by rw [unmoved.heap, enrolled.loaded]
  apply answers_look_bind
  apply answers_look_bind
  simp only [managed, if_neg enrolled.different]
  apply answers_bind_of_eq (callStore_of_ok (by rw [unmoved.outages, sound.outages]) identifier)
  simp only [loaded, if_true]
  apply (enrolled.answers_mergeProperties passes same unmoved).bind
  intro _ after amended
  exact answers_pure ⟨rfl, amended⟩

end Entities

end Reconciler
