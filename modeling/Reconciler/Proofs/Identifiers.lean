import Reconciler.Proofs.Attributes
import Reconciler.Proofs.Episode.Account

/-! # Identifiers during a reconciliation

Only merging writes attributes, and it writes those of entities. So the identifiers of entities stay as
long as every detached object is merged into an entity of its own identifier. The engine finds that entity
when it looks one up, but it does not compare identifiers when the entity comes from the same property or the
same slot, and then it copies the identifier along with the other properties.
-/

namespace Reconciler

open Reconciler.Action

/-- An accessor that writes an attribute also reads it. -/
def Access.Respects (name : String) : Access → Prop
  | .field => True
  | .accessor getter? setter? =>
      (∀ getter, getter? = some getter → ∀ node : Node, node.isBean = true → getter node = node.attr name) ∨
      ∀ setter, setter? = some setter → ∀ (node : Node) value, node.isBean = true →
        ((setter node value).attributes.get? name).getD .null = node.attr name

/-- No accessor of the metadata writes an attribute that it does not read. -/
def Metadata.Respects (metadata : Metadata) (name : String) : Prop :=
  ∀ property access, metadata.access? property = some access → access.Respects name

/-- The entity that an object of the world is, if it is one. -/
def World.IsEntity (world : World) (id : ObjectId) (entity : Entity) : Prop :=
  world.heap.Holds id ∧ world.store.entity? (world.heap.node id).type = some entity

/-- A change of the attribute that identifies an entity. -/
def World.Rewrites (start after : World) : Prop :=
  ∃ id entity change value, start.IsEntity id entity ∧ .edited id change ∈ after.journal ∧
    change.assigns? entity.idProperty = some value ∧
    value ≠ (start.heap.node id).attr entity.idProperty

/-- A run merged the source into the target, which is another object and an entity. -/
structure World.Merges (start after : World) (source target : ObjectId) (entity : Entity) : Prop where
  recorded : after.visits.get? source = some (.object target)
  distinct : source ≠ target
  held : start.heap.Holds source
  unhandled : start.handler? source = none
  managed : start.IsEntity target entity

/-- A detached object carries no other identifier than the entity. If it is an entity too, it is identified
by the same attribute. -/
structure World.SameIdentifier (start : World) (source target : ObjectId) (entity : Entity) : Prop where
  key : ∀ own, start.IsEntity source own → own.idProperty = entity.idProperty
  value : (start.heap.node source).attr entity.idProperty = .null ∨
    (start.heap.node source).attr entity.idProperty = (start.heap.node target).attr entity.idProperty

/-- Whatever a run merged carries no other identifier than the entity it was merged into. -/
def World.MergesSame (start after : World) : Prop :=
  ∀ source target entity, start.Merges after source target entity →
    start.SameIdentifier source target entity

/-- A run merged an object that carries another identifier: a plain scalar, which is declared as a raw
attribute of the entity and not exempt as its version. -/
structure World.Clashes (setting : Setting) (start after : World) (source target : ObjectId)
    (entity : Entity) : Prop where
  merges : start.Merges after source target entity
  key : ∀ own, start.IsEntity source own → own.idProperty = entity.idProperty
  different : (start.heap.node source).attr entity.idProperty ≠
    (start.heap.node target).attr entity.idProperty
  significant : (start.heap.node source).attr entity.idProperty ≠ .null
  scalar : ∀ id, (start.heap.node source).attr entity.idProperty ≠ .object id
  plain : start.dispatch.registry.ofValue start.heap ((start.heap.node source).attr entity.idProperty) ∈
    [none, some .basic]
  declared : ∀ metadata, start.metadata? setting target = some metadata →
    metadata.access? entity.idProperty = some .field
  unchecked : checkedVersion? setting entity ≠ some entity.idProperty

/-- The metadata of entities leave the identifiers alone, except through what they read. -/
def World.RespectsIdentifiers (setting : Setting) (world : World) : Prop :=
  ∀ id entity metadata, world.IsEntity id entity → world.metadata? setting id = some metadata →
    metadata.Respects entity.idProperty

/-- Introspection finds every attribute that is not null. -/
theorem Metadata.access?_introspect_of_attr {node : Node} {property : String}
    (present : node.attr property ≠ .null) :
    (Metadata.introspect node).access? property = some .field := by
  rcases bean : node.attributes? with _ | attributes
  · exact absurd (by rw [Node.attr, bean]; rfl) present
  rw [Node.attr_of_attributes bean] at present
  rcases found : attributes.get? property with _ | value
  · rw [found] at present
    exact absurd rfl present
  have listed : property ∈ (Metadata.introspect node).names := by
    simp only [Metadata.names, OrderedMap.keys, Metadata.introspect, bean, Option.map_some,
      Option.getD_some, List.map_map, List.mem_map]
    exact ⟨_, OrderedMap.mem_of_get? found, rfl⟩
  obtain ⟨access, known⟩ := Metadata.access?_of_mem_names listed
  rw [known, (Metadata.allFields_introspect node).access?_eq known]

theorem Request.reconciled?_reconcile (detached authoritative : Value) :
    (Request.reconcile detached authoritative).reconciled? = some detached := by
  unfold Request.reconcile
  split
  · rfl
  · next present => exact if_neg present

theorem Handler.Fills.assigns?_eq {handler : Handler} {change : Edit} (fills : handler.Fills change)
    (name : String) : change.assigns? name = none := by
  cases fills <;> rfl

theorem Handler.Refills.assigns?_eq {handler : Handler} {change : Edit}
    (refills : handler.Refills change) (name : String) : change.assigns? name = none := by
  cases refills <;> rfl

private theorem World.Rewrites.later {start before after : World} (rewrites : start.Rewrites before)
    (later : before.Later after) : start.Rewrites after := by
  obtain ⟨id, entity, change, value, managed, edited, assigns, different⟩ := rewrites
  exact ⟨id, entity, change, value, managed, later.journal.subset edited, assigns, different⟩

private theorem World.Rewrites.of_note {start now : World} {event : Event}
    (rewrites : start.Rewrites (note event now).2) (other : ∀ id change, event ≠ .edited id change) :
    start.Rewrites now := by
  obtain ⟨id, entity, change, value, managed, edited, assigns, different⟩ := rewrites
  have edited := (List.mem_cons.1 edited).resolve_left (other id change).symm
  exact ⟨id, entity, change, value, managed, edited, assigns, different⟩

private theorem World.Rewrites.of_edit {start now : World} {target : ObjectId} {change : Edit}
    (rewrites : start.Rewrites (edit target change now).2)
    (harmless : ∀ entity value, start.IsEntity target entity →
      change.assigns? entity.idProperty = some value →
      value = (start.heap.node target).attr entity.idProperty) : start.Rewrites now := by
  obtain ⟨id, entity, other, value, managed, edited, assigns, different⟩ := rewrites
  rcases List.mem_cons.1 edited with same | edited
  · obtain ⟨rfl, rfl⟩ := Event.edited.inj same
    exact absurd (harmless entity value managed assigns) different
  · exact ⟨id, entity, other, value, managed, edited, assigns, different⟩

private theorem World.MergesSame.earlier {start before after : World} (same : start.MergesSame after)
    (later : before.Later after) : start.MergesSame before :=
  fun source target entity merges =>
    same source target entity { merges with recorded := later.visits _ _ merges.recorded }

/-- The metadata of an object is that of its type before the run, or lists its attributes. -/
theorem World.Later.metadata?_cases {setting : Setting} {start now : World} (later : start.Later now) {id : ObjectId}
    (held : start.heap.Holds id) {metadata : Metadata}
    (known : now.metadata? setting id = some metadata) :
    start.metadata? setting id = some metadata ∨ metadata = .introspect (now.heap.node id) := by
  have type := later.heap.type_eq id held
  simp only [World.metadata?, type, later.schema] at known ⊢
  rcases replaced : setting.overrides.get? (start.heap.node id).type with _ | override
  · rcases declared : start.cache.schema.metadata? (start.heap.node id).type with _ | inherited
    · simp only [replaced, declared, Option.none_or, Option.ite_none_right_eq_some,
        Option.some.injEq] at known
      exact .inr known.2.symm
    · simp only [replaced, declared, Option.none_or, Option.some_or] at known ⊢
      exact .inl known
  · simp only [replaced, Option.some_or] at known ⊢
    exact .inl known

namespace Course

variable {setting : Setting} {start now : World}

/-- An edit gave the attribute this value when something was merged into the object. -/
structure Assigned (setting : Setting) (start now : World) (id : ObjectId) (name : String)
    (value : Value) : Prop where
  held : start.heap.Holds id
  merged : ∃ source entity metadata, Once setting start now fun begun =>
    Merging setting begun source id entity metadata
  edited : ∃ change, .edited id change ∈ now.journal ∧ change.assigns? name = some value

private theorem Assigned.later {id : ObjectId} {name : String} {value : Value} {after : World}
    (assigned : Assigned setting start now id name value) (later : now.Later after) :
    Assigned setting start after id name value := by
  obtain ⟨held, ⟨source, entity, metadata, once⟩, change, edited, assigns⟩ := assigned
  exact ⟨held, ⟨source, entity, metadata, once.later later⟩, change, later.journal.subset edited, assigns⟩

private theorem attr_cases_of_same {id : ObjectId} {name : String} {after : World}
    (before : (now.heap.node id).attr name = (start.heap.node id).attr name ∨
      Assigned setting start now id name ((now.heap.node id).attr name))
    (later : now.Later after)
    (same : (after.heap.node id).attr name = (now.heap.node id).attr name) :
    (after.heap.node id).attr name = (start.heap.node id).attr name ∨
      Assigned setting start after id name ((after.heap.node id).attr name) := by
  rw [same]
  exact before.imp_right (·.later later)

/-- An attribute is what it was, unless it was assigned. -/
theorem attr_cases (course : Course setting start now) (id : ObjectId) (name : String) :
    (now.heap.node id).attr name = (start.heap.node id).attr name ∨
      Assigned setting start now id name ((now.heap.node id).attr name) := by
  induction course generalizing name with
  | start => exact .inl rfl
  | asked course request ih => exact attr_cases_of_same (ih name) (.note _ _) rfl
  | answered course resolved ih => exact attr_cases_of_same (ih name) (.note _ _) rfl
  | walked course source ih => exact attr_cases_of_same (ih name) (.note _ _) rfl
  | dispatched course same ih => exact attr_cases_of_same (ih name) (.dispatch _ same) rfl
  | cached course same ih => exact attr_cases_of_same (ih name) (.cache _ same) rfl
  | recorded course unvisited counterpart ih =>
    exact attr_cases_of_same (ih name) (.record _ unvisited _) rfl
  | allocated course handled ih =>
    exact attr_cases_of_same (ih name) (.allocate _ _) (Heap.attr_allocate _ _ _ _)
  | filled course new fills ih =>
    have spared := fills.assigns?_eq name
    exact attr_cases_of_same (ih name) (.edit _ _ fills.ne_setOrigin) (Heap.attr_edit_of_spared _ _ spared _)
  | refilled first course started recorded handled loaded refills _ ih =>
    have spared := refills.assigns?_eq name
    exact attr_cases_of_same (ih name) (.edit _ _ refills.ne_setOrigin)
      (Heap.attr_edit_of_spared _ _ spared _)
  | discarding course container entity managed enabled ih =>
    exact attr_cases_of_same (ih name) (.note _ _) rfl
  | removed course removal ih =>
    exact attr_cases_of_same (ih name) (.removed _ removal) rfl
  | called course spent ih => exact attr_cases_of_same (ih name) (.called _ spent) rfl
  | @written begun earlier before first second course started read source target entity metadata
      property value current merged change merging taking changed made older _ ih =>
    have later := World.Later.edit before target made.ne_setOrigin
    rcases Heap.attr_edit before.heap target change id name with same | ⟨rfl, assigns⟩
    · exact attr_cases_of_same (ih name) later same
    · refine .inr ⟨?_, ⟨source, entity, metadata, begun, first, ?_, merging⟩, change, ?_, assigns⟩
      · -- An object that was not there before has a null identifier, and nothing is merged into it.
        rcases older entity.idProperty with unchanged | assigned
        · refine Decidable.byContradiction fun absent => merging.identified ?_
          rw [Heap.attr_of_not_holds absent] at unchanged
          exact if_pos ((Value.isNull_iff _).2 unchanged)
        · exact assigned.held
      · exact (started.trans read).trans later
      · exact List.mem_cons_self

/-- What was not there before has only null attributes. -/
theorem attr_of_new (course : Course setting start now) {id : ObjectId}
    (new : ¬ start.heap.Holds id) (name : String) : (now.heap.node id).attr name = .null := by
  rcases course.attr_cases id name with same | assigned
  · exact same.trans (Heap.attr_of_not_holds new name)
  · exact absurd assigned.held new

/-- Nothing is assigned to an object that is no entity. -/
theorem attr_of_unmanaged (course : Course setting start now) {id : ObjectId}
    (held : start.heap.Holds id) (other : start.store.entity? (start.heap.node id).type = none)
    (name : String) : (now.heap.node id).attr name = (start.heap.node id).attr name := by
  refine (course.attr_cases id name).resolve_right fun assigned => ?_
  obtain ⟨source, entity, metadata, begun, before, _, merging⟩ := assigned.merged
  have managed := merging.managed
  rw [before.later.entity?_eq held, other] at managed
  cases managed

/-- As long as no identifier is rewritten, all of them are as they were. -/
theorem identifier_eq (course : Course setting start now) (kept : ¬ start.Rewrites now)
    {id : ObjectId} {entity : Entity} (managed : start.IsEntity id entity) :
    (now.heap.node id).attr entity.idProperty = (start.heap.node id).attr entity.idProperty := by
  rcases course.attr_cases id entity.idProperty with same | assigned
  · exact same
  · obtain ⟨change, edited, assigns⟩ := assigned.edited
    exact Decidable.byContradiction fun different =>
      kept ⟨id, entity, change, _, managed, edited, assigns, different⟩

/-- So is what a detached object carries under the name that identifies the entity. -/
theorem carried_eq (course : Course setting start now) (kept : ¬ start.Rewrites now) {source : ObjectId}
    (held : start.heap.Holds source) {entity : Entity}
    (key : ∀ own, start.IsEntity source own → own.idProperty = entity.idProperty) :
    (now.heap.node source).attr entity.idProperty =
      (start.heap.node source).attr entity.idProperty := by
  rcases known : start.store.entity? (start.heap.node source).type with _ | own
  · exact course.attr_of_unmanaged held known _
  · rw [← key own ⟨held, known⟩]
    exact course.identifier_eq kept ⟨held, known⟩

/-- The metadata that a merge uses leaves the identifier alone, except through what it reads. -/
theorem metadata_respects (course : Course setting start now)
    (respects : start.RespectsIdentifiers setting) {target : ObjectId} {entity : Entity}
    (managed : start.IsEntity target entity) :
    ((now.metadata? setting target).getD { type := entity.type }).Respects entity.idProperty := by
  rcases known : now.metadata? setting target with _ | metadata
  · rintro property access ⟨⟩
  · rcases course.later.metadata?_cases managed.1 known with before | rfl
    · exact respects target entity metadata managed before
    · intro property access declared
      have field := (Metadata.allFields_introspect _).access?_eq declared
      subst field
      trivial

/-- A merge that carries no other identifier takes none over. -/
theorem not_taken (course : Course setting start now) (kept : ¬ start.Rewrites now)
    {source target : ObjectId} {entity : Entity} (managed : start.IsEntity target entity)
    (agree : start.heap.Holds source → start.SameIdentifier source target entity)
    (significant : (now.heap.node source).attr entity.idProperty ≠ .null) :
    (now.heap.node source).attr entity.idProperty = (now.heap.node target).attr entity.idProperty := by
  by_cases held : start.heap.Holds source
  · have same := agree held
    have carried := course.carried_eq kept held same.key
    rw [course.identifier_eq kept managed, carried]
    exact same.value.resolve_left (carried ▸ significant)
  · exact absurd (course.attr_of_new held _) significant

/-- A write that assigns the identifier of an entity assigns the one that it has, if what is merged into it
carries no other. -/
theorem written_identifier (course : Course setting start now) {begun earlier : World}
    (first : Course setting start begun) (second : Course setting start earlier)
    (read : earlier.Later now)
    {source target : ObjectId} {entity : Entity} {metadata : Metadata} {property : String}
    {value current merged written : Value} {change : Edit}
    (merging : Merging setting begun source target entity metadata)
    (taking : Taking setting earlier now source target entity metadata property value current merged)
    (made : Property.Edits now.heap metadata target property merged change)
    (respects : start.RespectsIdentifiers setting) (kept : ¬ start.Rewrites now)
    (managed : start.IsEntity target entity)
    (agree : start.heap.Holds source → start.SameIdentifier source target entity)
    (assigns : change.assigns? entity.idProperty = some written) :
    written = (start.heap.node target).attr entity.idProperty := by
  have honest : metadata.Respects entity.idProperty :=
    merging.metadata_eq ▸ first.metadata_respects respects managed
  have keptBefore : ¬ start.Rewrites earlier := fun rewrites => kept (rewrites.later read)
  -- A property that shows the identifier is never written: the values that were read are equal.
  have shown : value = (earlier.heap.node source).attr entity.idProperty →
      current = (earlier.heap.node target).attr entity.idProperty → False := by
    rintro rfl rfl
    exact taking.differs (second.not_taken keptBefore managed agree taking.significant)
  obtain ⟨bean, ⟨declared, rfl⟩ | ⟨getter?, setter, declared, rfl⟩⟩ := made.cases
  · obtain ⟨rfl, -⟩ := Option.ite_none_right_eq_some.1 assigns
    exact (shown (Property.read_of_field declared taking.carried)
      (Property.read_of_field declared taking.present)).elim
  · rcases honest property _ declared with reads | spares
    · have reading : ∀ id result, Property.read earlier.heap metadata id property = .ok result →
          result = (earlier.heap.node id).attr entity.idProperty := by
        intro id result found
        obtain ⟨getter, same, rfl⟩ := Property.read_of_accessor declared found
        exact reads getter same _ (Property.read_cases found).1
      exact (shown (reading _ _ taking.carried) (reading _ _ taking.present)).elim
    · obtain rfl := Option.some.inj assigns
      rw [spares setter rfl _ merged bean]
      exact course.identifier_eq kept managed

/-- A run that merges nothing but what carries no other identifier rewrites no identifier. -/
theorem not_rewrites (course : Course setting start now) (quiet : start.journal = [])
    (respects : start.RespectsIdentifiers setting) (same : start.MergesSame now) :
    ¬ start.Rewrites now := by
  induction course with
  | start =>
    rintro ⟨id, entity, change, value, _, edited, -⟩
    simp [quiet] at edited
  | asked course request ih => exact fun rewrites => ih (same.earlier (.note _ _)) (rewrites.of_note nofun)
  | answered course resolved ih =>
    exact fun rewrites => ih (same.earlier (.note _ _)) (rewrites.of_note nofun)
  | walked course source ih => exact fun rewrites => ih (same.earlier (.note _ _)) (rewrites.of_note nofun)
  | dispatched course kept ih => exact ih (same.earlier (.dispatch _ kept))
  | cached course kept ih => exact ih (same.earlier (.cache _ kept))
  | recorded course unvisited counterpart ih => exact ih (same.earlier (.record _ unvisited _))
  | allocated course handled ih => exact ih (same.earlier (.allocate _ _))
  | filled course new fills ih =>
    refine fun rewrites => ih (same.earlier (.edit _ _ fills.ne_setOrigin)) (rewrites.of_edit ?_)
    exact fun entity value _ assigns => by cases (fills.assigns?_eq _).symm.trans assigns
  | refilled first course started recorded handled loaded refills _ ih =>
    refine fun rewrites => ih (same.earlier (.edit _ _ refills.ne_setOrigin)) (rewrites.of_edit ?_)
    exact fun entity value _ assigns => by cases (refills.assigns?_eq _).symm.trans assigns
  | discarding course container entity managed enabled ih =>
    exact fun rewrites => ih (same.earlier (.note _ _)) (rewrites.of_note nofun)
  | removed course removal ih =>
    exact ih (same.earlier (.removed _ removal))
  | called course spent ih => exact ih (same.earlier (.called _ spent))
  | @written begun earlier before first second course started read source target entity metadata
      property value current merged change merging taking changed made _ _ ih =>
    have later := World.Later.edit before target made.ne_setOrigin
    have kept := ih (same.earlier later)
    refine fun rewrites => kept (rewrites.of_edit ?_)
    intro known written managed assigns
    obtain rfl : entity = known := by
      have found := merging.managed
      rw [first.later.entity?_eq managed.1, managed.2] at found
      exact (Option.some.inj found).symm
    refine course.written_identifier first second read merging taking made respects kept managed ?_ assigns
    intro held
    refine same source target entity ⟨?_, merging.distinct, held, ?_, managed⟩
    · exact ((started.trans read).trans later).visits _ _ merging.recorded
    · exact (first.later.handler?_eq held).symm.trans merging.unhandled

/-- A scalar that no handler changes is what it resolves to. -/
theorem scalar_of_resolved (later : start.Later now) {scalar result : Value}
    (resolved : Resolved now scalar result) (other : ∀ id, scalar ≠ .object id)
    (plain : start.dispatch.registry.ofValue start.heap scalar ∈ [none, some .basic]) :
    result = scalar := by
  cases scalar with
  | object id => exact absurd rfl (other id)
  | _ =>
    apply resolved
    rw [later.registry]
    exact plain

/-- What a merge uses for the identifier is a raw attribute if its metadata declares it as one. -/
theorem identifier_declared (course : Course setting start now) {source target : ObjectId}
    {entity : Entity} {metadata : Metadata}
    (merging : Merging setting now source target entity metadata) (held : start.heap.Holds target)
    (declared : ∀ metadata, start.metadata? setting target = some metadata →
      metadata.access? entity.idProperty = some .field) :
    metadata.access? entity.idProperty = some .field := by
  have present : (now.heap.node target).attr entity.idProperty ≠ .null := fun null =>
    merging.identified (if_pos ((Value.isNull_iff _).2 null))
  rw [merging.metadata_eq]
  rcases known : now.metadata? setting target with _ | metadata
  · have missing := (Option.or_eq_none_iff.1 (Option.or_eq_none_iff.1 known).2).2
    have other : (now.heap.node target).isBean = false := by
      rcases bean : (now.heap.node target).isBean with _ | _
      · rfl
      · rw [if_pos bean] at missing
        cases missing
    exact absurd (Node.attr_of_notBean other _) present
  · rcases course.later.metadata?_cases held known with before | rfl
    · exact declared metadata before
    · exact Metadata.access?_introspect_of_attr present

/-- A run that answers rewrites an identifier if it has merged anything with another one. -/
theorem rewrites_of_clash (course : Course setting start now) (quiet : start.journal = []) {source target : ObjectId}
    {entity : Entity} (settled : Settled setting start now source (.object target))
    (clash : start.Clashes setting now source target entity) : start.Rewrites now := by
  have merges := clash.merges
  refine Classical.byContradiction fun kept => ?_
  cases settled with
  | handled once =>
    obtain ⟨earlier, before, -, handled⟩ := once
    exact handled ((before.later.handler?_eq merges.held).trans merges.unhandled)
  | unmanaged once =>
    obtain ⟨earlier, before, -, other⟩ := once
    have missing := other target rfl
    rw [before.later.entity?_eq merges.managed.1, merges.managed.2] at missing
    cases missing
  | itself => exact merges.distinct rfl
  | @merged _ known metadata once taken =>
    obtain ⟨begun, first, _, merging⟩ := once
    obtain rfl : known = entity := by
      have found := merging.managed
      rw [first.later.entity?_eq merges.managed.1, merges.managed.2] at found
      exact (Option.some.inj found).symm
    have declared := first.identifier_declared merging merges.managed.1 clash.declared
    obtain ⟨value, current, ⟨earlier, second, before, carried, present⟩, outcome⟩ :=
      taken _ (Metadata.mem_names_of_access? declared) clash.unchecked
    have keptBefore : ¬ start.Rewrites earlier := fun rewrites => kept (rewrites.later before)
    have carries : value = (start.heap.node source).attr known.idProperty :=
      (Property.read_of_field declared carried).trans
        (second.carried_eq keptBefore merges.held clash.key)
    have presents : current = (start.heap.node target).attr known.idProperty :=
      (Property.read_of_field declared present).trans
        (second.identifier_eq keptBefore merges.managed)
    subst carries presents
    rcases outcome with null | same | ⟨merged, answer, outcome⟩
    · exact clash.significant null
    · exact clash.different same
    obtain ⟨moment, third, _, resolved⟩ := course.answered_once quiet answer
    have carried := resolved _ (Request.reconciled?_reconcile _ _) clash.significant
    obtain rfl := scalar_of_resolved third.later carried clash.scalar clash.plain
    rcases outcome with unchanged | ⟨change, ⟨_, _, _, made⟩, edited⟩
    · exact clash.different unchanged
    · obtain rfl := (Property.Edits.of_write made).eq_of_field declared
      exact kept ⟨target, known, _, _, merges.managed, edited, if_pos rfl, clash.different⟩

end Course

/-- Metadata of raw attributes leave every identifier alone. -/
theorem World.respectsIdentifiers_of_fields {setting : Setting} {world : World}
    (own : setting.overrides = .empty) (fields : world.cache.schema.AllFields) :
    world.RespectsIdentifiers setting := by
  intro id entity metadata _ known property access declared
  obtain rfl := (World.allFields_of_metadata? own fields known).access?_eq declared
  trivial

/-- A call leaves all identifiers as they are if it only merges objects that carry no other identifier than
the entities that they are merged into. A call that answers and has merged a declared identifier of another
value has rewritten an identifier. -/
theorem Reconciliation.identifiers_kept {setting : Setting} {world : World}
    {outcome : Except Ending Value × World} (run : Reconciliation setting world outcome)
    (respects : world.rested.RespectsIdentifiers setting) :
    (world.rested.MergesSame outcome.2 → ¬ world.rested.Rewrites outcome.2 ∧
      ∀ id entity, world.rested.IsEntity id entity →
        (outcome.2.heap.node id).attr entity.idProperty =
          (world.heap.node id).attr entity.idProperty) ∧
    ∀ result, outcome.1 = .ok result → ∀ source target entity,
      world.rested.Clashes setting outcome.2 source target entity →
      world.rested.Rewrites outcome.2 := by
  refine ⟨fun same => ?_, ?_⟩
  · have kept := run.course.not_rewrites rfl respects same
    exact ⟨kept, fun id entity managed => run.course.identifier_eq kept managed⟩
  · intro result answered source target entity clash
    exact run.course.rewrites_of_clash rfl (run.settled answered clash.merges.recorded) clash

namespace Bosses

def schema : Schema :=
  ⟨[{ name := ⟨"Person"⟩, properties := .ofList [("id", .field), ("name", .field), ("boss", .field)] }]⟩

def person (id : Int64) (boss : Value) : Node := .bean ⟨"Person"⟩ [("id", .int id), ("boss", boss)]

/-- People of whom the first ones are stored. -/
def world (stored detached : List Node) : World where
  heap := ⟨(stored.map (fun (node : Node) => { node with origin := .stored }) ++ detached).toArray⟩
  store :=
    { entities := .ofList [(⟨"Person"⟩, { type := ⟨"Person"⟩, idProperty := "id" })]
      stored := (List.range stored.length).map ObjectId.mk }
  dispatch := .ofRegistry (.withDefaults schema)
  cache := .ofSchema schema

private theorem schema_allFields : schema.AllFields := by
  intro decl declared
  obtain rfl := List.mem_singleton.1 declared
  exact OrderedMap.forall_ofList (fun access : Access => access = .field) (by simp)

/-- A stored person, and a copy with a boss of its own. -/
def promoted : World := world [person 1 .null] [person 1 (.text "Bob")]

def promotion : Except Ending Value × World := Setting.apply { schema } (.object ⟨1⟩) promoted.rested

/-- Giving a person a boss leaves the identifier alone. -/
theorem promotion_keeps_identifier :
    promoted.rested.RespectsIdentifiers { schema } ∧ promoted.rested.MergesSame promotion.2 ∧
      (promotion.2.heap.node ⟨0⟩).attr "id" = (promoted.heap.node ⟨0⟩).attr "id" := by
  have run : Reconciliation { schema } promoted promotion := .apply _
  have respects : promoted.rested.RespectsIdentifiers { schema } :=
    World.respectsIdentifiers_of_fields rfl schema_allFields
  have visits : promotion.2.visits = ⟨[(⟨1⟩, .object ⟨0⟩)]⟩ := by decide +kernel
  have person : promoted.rested.IsEntity ⟨0⟩ { type := ⟨"Person"⟩, idProperty := "id" } :=
    ⟨by decide, by decide +kernel⟩
  have same : promoted.rested.MergesSame promotion.2 := by
    rintro source target entity ⟨recorded, -, -, -, managed⟩
    have pair : (⟨1⟩ : ObjectId) = source ∧ .object ⟨0⟩ = Value.object target := by
      simpa [visits, Visits.get?, List.find?_singleton] using recorded
    obtain ⟨rfl, ⟨⟩⟩ := pair
    obtain rfl := Option.some.inj (person.2.symm.trans managed.2)
    refine ⟨fun own known => ?_, .inr (by decide +kernel)⟩
    obtain rfl := Option.some.inj (person.2.symm.trans known.2)
    rfl
  exact ⟨respects, same, ((run.identifiers_kept respects).1 same).2 ⟨0⟩ _ person⟩

/-- Person 3 has boss 1, and a detached copy has a copy of boss 2. -/
def repointed : World :=
  world [person 1 .null, person 2 .null, person 3 (.object ⟨0⟩)] [person 2 .null, person 3 (.object ⟨3⟩)]

/-- Giving person 3 another boss turns the old boss into the new one. -/
theorem repointed_rewrites_identifier :
    (Setting.apply { schema } (.object ⟨4⟩) repointed).1.toOption = some (.object ⟨2⟩) ∧
      ⟨0⟩ ∈ repointed.store.stored ∧ (repointed.heap.node ⟨0⟩).attr "id" = .int 1 ∧
      ((Setting.apply { schema } (.object ⟨4⟩) repointed).2.heap.node ⟨0⟩).attr "id" = .int 2 := by
  decide +kernel

end Bosses

end Reconciler
