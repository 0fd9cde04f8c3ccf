import Reconciler.Proofs.Course
import Reconciler.Proofs.Isomorphism
import Reconciler.Proofs.Parts

/-! # Detached values

While a graph is detached, the detached side holds three kinds of values: scalars, objects that were
allocated after the call began, and beans that are detached in place. New objects are plain from the start and
never hold anything else. A bean that is detached in place holds old values until its own properties have
been walked, so it is only settled when the part of the run that visited it is over.
-/

namespace Reconciler

open Reconciler.Action

/-- A world in which every graph can be detached for good: with the default handlers, none of which passes an
object through unchanged, with raw attributes only, and with scalars only where slots are copied unseen. -/
structure Severable (setting : Setting) (start : World) : Prop where
  defaults : ∃ schema, start.dispatch.registry = .withDefaults schema
  closed : start.heap.Closed
  fields : ∀ id, start.heap.Holds id → ∀ metadata, start.metadata? setting id = some metadata →
    metadata.AllFields
  walked : ∀ id, start.heap.Holds id → start.handler? id ≠ some .basic
  scalars : ∀ id, start.heap.Holds id → (start.heap.node id).hasScalarSlots = true →
    ∀ item ∈ (start.heap.node id).items, item.object? = none

/-- A value that a detached graph may hold. -/
def Severed (start now : World) (value : Value) : Prop :=
  ∀ id, value = .object id → now.heap.Holds id ∧
    (¬ start.heap.Holds id ∨ now.visits.get? id = some (.object id))

/-- A world that a detachment which began in `start` can be in. -/
structure Severing (setting : Setting) (start now : World) : Prop where
  later : start.Later now
  closed : now.heap.Closed
  modelled : ∀ id, now.heap.Holds id → ∃ original, start.heap.Holds original ∧
    (now.heap.node id).type = (start.heap.node original).type ∧
    (now.heap.node id).shape? = (start.heap.node original).shape?
  plain : ∀ id, ¬ start.heap.Holds id → (now.heap.node id).origin = .plain
  parts : ∀ id, ¬ start.heap.Holds id → ∀ part ∈ (now.heap.node id).parts, Severed start now part
  counterpart : ∀ id target, now.visits.get? id = some target → Severed start now target
  own : ∀ id, now.visits.get? id = some (.object id) → setting.config.cloneObjects = false ∧
    now.handler? id = none ∧ (now.heap.node id).origin.isProxy = false
  kept : ∀ id, start.heap.Holds id → now.visits.get? id ≠ some (.object id) →
    now.heap.node id = start.heap.node id

/-- What a part of a run does that finds `now` and leaves `after`: it edits only what it allocates and the
beans that it visits first and detaches in place; and those it leaves settled, except the open ones. -/
structure Severance (setting : Setting) (start : World) (opened : ObjectId → Prop) (now after : World) :
    Prop where
  later : now.Later after
  kept : ∀ id, now.heap.Holds id →
    now.visits.get? id ≠ none ∨ after.visits.get? id ≠ some (.object id) →
    after.heap.node id = now.heap.node id
  settles : ∀ id, start.heap.Holds id → ¬ opened id → after.visits.get? id = some (.object id) →
    now.visits.get? id = some (.object id) ∨ ∀ part ∈ after.partsOf setting id, Severed start after part

/-- An object that stays as it is keeps its metadata. -/
theorem World.metadata?_of_same {setting : Setting} {now after : World} {id : ObjectId}
    (node : after.heap.node id = now.heap.node id) (schema : after.cache.schema = now.cache.schema) :
    after.metadata? setting id = now.metadata? setting id := by
  simp only [metadata?, node, schema]

/-- The parts of an object that stays as it is stay the same. -/
theorem World.partsOf_of_same {setting : Setting} {now after : World} {id : ObjectId}
    (node : after.heap.node id = now.heap.node id) (schema : after.cache.schema = now.cache.schema) :
    after.partsOf setting id = now.partsOf setting id := by
  simp only [partsOf, names, metadata?_of_same node schema, node]

/-- A bean that gets another value for one of its attributes keeps its properties. -/
theorem Metadata.introspect_setAttribute {node : Node} {name : String}
    (listed : name ∈ (introspect node).names) (value : Value) :
    introspect (node.edited (.setAttribute name value)) = introspect node := by
  rcases node with ⟨type, origin, content⟩
  cases content with
  | bean attributes =>
    have known : name ∈ attributes.keys := by
      obtain ⟨entry, member, rfl⟩ := List.mem_map.1 listed
      obtain ⟨key, known, rfl⟩ := List.mem_map.1 member
      exact known
    have keys : (attributes.insert name value).keys = attributes.keys := by
      rw [OrderedMap.keys_insert, if_pos known]
    simp [introspect, Node.edited, Content.edited?, Node.attributes?, keys]
  | _ => cases listed

/-- An object that gets another value for one of its properties keeps its metadata. -/
theorem World.metadata?_setAttribute {setting : Setting} {world : World} {id : ObjectId} {metadata : Metadata}
    (known : world.metadata? setting id = some metadata) {name : String} (listed : name ∈ metadata.names)
    (value : Value) : (edit id (.setAttribute name value) world).2.metadata? setting id = some metadata := by
  by_cases held : world.heap.Holds id
  · have node : (edit id (.setAttribute name value) world).2.heap.node id =
        (world.heap.node id).edited (.setAttribute name value) := Heap.node_edit_self held _
    have schema : (edit id (.setAttribute name value) world).2.cache.schema = world.cache.schema := rfl
    rw [metadata?, ← Option.or_assoc] at known ⊢
    rw [node, schema, Node.type_edited, Node.isBean_edited]
    rcases declared : (setting.overrides.get? (world.heap.node id).type).or
        (world.cache.schema.metadata? (world.heap.node id).type) with _ | found
    · rw [declared, Option.none_or] at known
      obtain ⟨bean, same⟩ := Option.ite_none_right_eq_some.1 known
      obtain rfl := Option.some.inj same
      rw [Option.none_or, if_pos bean, Metadata.introspect_setAttribute listed]
    · rw [declared, Option.some_or] at known
      rw [Option.some_or, known]
  · have same : (edit id (.setAttribute name value) world).2.heap.node id = world.heap.node id := by
      show (world.heap.edit id _).node id = _
      rw [Heap.node_edit, if_neg fun here => held here.2]
    exact (metadata?_of_same same rfl).trans known

/-- What is neither a bean nor a container holds nothing. -/
theorem Node.parts_of_shape? {node : Node} (shapeless : node.shape? = none) (other : node.isBean = false) :
    node.parts = [] := by
  rcases node with ⟨type, origin, content⟩
  cases content with
  | sealed => rfl
  | bean => cases other
  | _ => cases shapeless

/-- What a run reads of an object is null or a part of it. -/
theorem World.mem_partsOf {setting : Setting} {world : World} {id : ObjectId} {part : Value}
    (member : part ∈ world.partsOf setting id) : part = .null ∨ part ∈ (world.heap.node id).parts := by
  rcases bean : (world.heap.node id).isBean with _ | _
  · rw [partsOf_of_not_isBean bean] at member
    exact .inr member
  · rw [partsOf_of_isBean bean] at member
    obtain ⟨name, -, rfl⟩ := List.mem_map.1 member
    exact Node.attr_null_or_mem_parts _ name

/-- With the default handlers every container has a handler. -/
theorem Handler.Registry.shape?_of_unhandled {schema : Schema} {heap : Heap} {id : ObjectId}
    (unhandled : (withDefaults schema).ofValue heap (.object id) = none) : (heap.node id).shape? = none := by
  have whole : (withDefaults schema).ofValue heap (.object id) =
      ((withDefaults schema).resolve (heap.node id).type).or
        ((heap.node id).shape?.bind (withDefaults schema).resolve) := rfl
  rw [whole, Option.or_eq_none_iff] at unhandled
  have named : ∀ type ∈ [TypeName.list, .set, .map], (withDefaults schema).resolve type ≠ none := by
    intro type listed
    simp only [List.mem_cons, List.not_mem_nil, or_false] at listed
    have known : ∃ handler, (withDefaults schema).exact.get? type = some handler := by
      rw [exact_withDefaults]
      rcases listed with rfl | rfl | rfl
      · exact ⟨.collection, by decide⟩
      · exact ⟨.collection, by decide⟩
      · exact ⟨.map, by decide⟩
    obtain ⟨handler, found⟩ := known
    rw [resolve_of_exact found]
    exact Option.some_ne_none handler
  rcases shape : (heap.node id).shape? with _ | type
  · rfl
  · rw [shape, Option.bind_some] at unhandled
    refine absurd unhandled.2 ?_
    unfold Node.shape? Content.shape? at shape
    split at shape
    · cases shape
    · cases shape
      exact resolve_arrayOf schema _
    · next kind _ _ =>
      cases shape
      apply named
      cases kind <;> simp [CollectionKind.typeName]
    · cases shape
      exact named _ (by simp)
    · cases shape

/-- Leaving a value alone altogether is no default. -/
theorem Handler.Registry.ofValue_ne_frozen (schema : Schema) (heap : Heap) (value : Value) :
    (withDefaults schema).ofValue heap value ≠ some .frozen := by
  have resolved : ∀ type, (withDefaults schema).resolve type ≠ some .frozen := by
    intro type found
    rw [resolve, Option.or_eq_some_iff] at found
    rcases found with found | ⟨-, found⟩
    · obtain ⟨other, -, known⟩ := List.exists_of_findSome?_eq_some found
      have listed := OrderedMap.mem_of_get? known
      rw [exact_withDefaults] at listed
      simp at listed
    · obtain ⟨registration, known, same⟩ := Option.map_eq_some_iff.1 found
      have listed := List.mem_of_find?_eq_some known
      obtain rfl := List.mem_singleton.1 (show registration ∈ [⟨TypeName.isArray, .array⟩] from listed)
      cases same
  intro found
  obtain ⟨type, -, found⟩ := Option.bind_eq_some_iff.1 found
  rcases Option.or_eq_some_iff.1 found with own | ⟨-, shape⟩
  · exact resolved type own
  · obtain ⟨other, -, known⟩ := Option.bind_eq_some_iff.1 shape
    exact resolved other known

namespace Severed

variable {start now after : World} {value : Value}

theorem scalar (plain : value.object? = none) : Severed start now value := by
  rintro id rfl
  cases plain

/-- What is severed stays severed. -/
theorem later (severed : Severed start now value) (later : now.Later after) : Severed start after value := by
  intro id same
  obtain ⟨held, either⟩ := severed id same
  exact ⟨later.holds held, either.imp_right (later.visits id _)⟩

theorem new {id : ObjectId} (held : now.heap.Holds id) (new : ¬ start.heap.Holds id) :
    Severed start now (.object id) := by
  rintro _ ⟨⟩
  exact ⟨held, .inl new⟩

end Severed

namespace Severing

/-- A run begins with nothing visited. -/
theorem start {setting : Setting} {world : World} (severable : Severable setting world)
    (unvisited : world.visits = {}) : Severing setting world world where
  later := .refl world
  closed := severable.closed
  modelled id held := ⟨id, held, rfl, rfl⟩
  plain id new := by
    have bound : world.heap.nodes.size ≤ id.index := Nat.le_of_not_lt new
    simp [Heap.node, Heap.node?, bound, default, Node.sealed]
  parts id new part member := by
    rw [Heap.parts_of_not_holds new] at member
    cases member
  counterpart id target known := by
    rw [unvisited] at known
    cases known
  own id known := by
    rw [unvisited] at known
    cases known
  kept _ _ _ := rfl

variable {setting : Setting} {start now : World} (severing : Severing setting start now)

include severing

/-- A change of neither the heap nor the visits. -/
theorem of_same {after : World} (later : now.Later after) (heap : after.heap = now.heap)
    (visits : after.visits = now.visits) : Severing setting start after := by
  have severed : ∀ value, Severed start now value → Severed start after value :=
    fun _ severed => severed.later later
  have handler : ∀ id, after.handler? id = now.handler? id := by
    intro id
    rw [World.handler?, World.handler?, later.registry, heap]
  constructor
  · exact severing.later.trans later
  · rw [heap]
    exact severing.closed
  · rw [heap]
    exact severing.modelled
  · rw [heap]
    exact severing.plain
  · rw [heap]
    exact fun id new part member => severed part (severing.parts id new part member)
  · rw [visits]
    exact fun id target known => severed target (severing.counterpart id target known)
  · rw [visits, heap]
    intro id known
    rw [handler]
    exact severing.own id known
  · rw [heap, visits]
    exact severing.kept

theorem not_holds_fresh : ¬ start.heap.Holds now.heap.fresh :=
  severing.later.not_holds_fresh

/-- A new empty object that is modelled on one that is there. -/
theorem allocate {source : ObjectId} (held : now.heap.Holds source) :
    Severing setting start (allocate (now.heap.node source).emptyLike now).2 := by
  have allocating := World.Later.allocate now (now.heap.node source).emptyLike
  have node : ∀ id, ¬ id = now.heap.fresh →
      (now.heap.allocate (now.heap.node source).emptyLike).node id = now.heap.node id := by
    intro id other
    rw [Heap.node_allocate, if_neg other]
  have made := now.heap.node_fresh (now.heap.node source).emptyLike
  constructor
  · exact severing.later.trans allocating
  · exact severing.closed.allocate _
  · intro id present
    rcases Heap.holds_allocate.1 present with before | rfl
    · have old := severing.modelled id before
      rwa [← Heap.node_allocate_of_holds before (now.heap.node source).emptyLike] at old
    · obtain ⟨original, old, type, shape⟩ := severing.modelled source held
      refine ⟨original, old, ?_, ?_⟩
      · exact (congrArg Node.type made).trans type
      · exact (congrArg Node.shape? made).trans ((Node.shape?_emptyLike _).trans shape)
  · intro id new
    by_cases fresh : id = now.heap.fresh
    · subst fresh
      exact congrArg Node.origin made
    · exact (congrArg Node.origin (node id fresh)).trans (severing.plain id new)
  · intro id new part member
    rcases Heap.mem_parts_allocate member with before | rfl
    · exact (severing.parts id new part before).later allocating
    · exact .scalar rfl
  · exact fun id target known => (severing.counterpart id target known).later allocating
  · intro id known
    obtain ⟨reuses, unhandled, origin⟩ := severing.own id known
    have present := (severing.counterpart id _ known id rfl).1
    refine ⟨reuses, (allocating.handler?_eq present).trans unhandled, ?_⟩
    exact (congrArg (·.origin.isProxy) (Heap.node_allocate_of_holds present _)).trans origin
  · intro id present other
    have before := severing.later.holds present
    exact (Heap.node_allocate_of_holds before _).trans (severing.kept id present other)

/-- The first visit of an object, with a new object as its counterpart or with itself. -/
theorem record {source target : ObjectId} (unvisited : now.visits.get? source = none)
    (present : now.heap.Holds target)
    (either : ¬ start.heap.Holds target ∨ target = source)
    (own : target = source → setting.config.cloneObjects = false ∧
      now.handler? source = none ∧ (now.heap.node source).origin.isProxy = false) :
    Severing setting start (record source (.object target) now).2 := by
  have recording := World.Later.record now unvisited (.object target)
  have others : ∀ id, source ≠ id →
      (Action.record source (.object target) now).2.visits.get? id = now.visits.get? id :=
    fun id other => Visits.get?_record_of_ne _ other _
  have here := World.Later.visits_record now source (.object target)
  constructor
  · exact severing.later.trans recording
  · exact severing.closed
  · exact severing.modelled
  · exact severing.plain
  · exact fun id new part member => (severing.parts id new part member).later recording
  · intro id counterpart known
    by_cases same : source = id
    · subst same
      cases here.symm.trans known
      rintro _ ⟨⟩
      refine ⟨present, either.imp_right ?_⟩
      rintro rfl
      exact here
    · rw [others id same] at known
      exact (severing.counterpart id counterpart known).later recording
  · intro id known
    by_cases same : source = id
    · subst same
      cases here.symm.trans known
      exact own rfl
    · rw [others id same] at known
      exact severing.own id known
  · intro id held other
    apply severing.kept id held
    by_cases same : source = id
    · subst same
      rw [unvisited]
      exact nofun
    · rwa [others id same] at other

/-- An edit of a new object, or of a bean that is detached in place, which puts severed values into it. -/
theorem edit {target : ObjectId} {change : Edit} (other : ∀ origin, change ≠ .setOrigin origin)
    (either : ¬ start.heap.Holds target ∨ now.visits.get? target = some (.object target))
    (carried : ∀ part ∈ change.values, Severed start now part) :
    Severing setting start (edit target change now).2 := by
  have editing := World.Later.edit now target other
  have origin : ∀ id, ((now.heap.edit target change).node id).origin = (now.heap.node id).origin := by
    intro id
    rw [Heap.node_edit]
    split
    · exact Node.origin_edited other
    · rfl
  have handler : ∀ id, (Action.edit target change now).2.handler? id = now.handler? id := by
    intro id
    exact now.dispatch.registry.ofValue_of_same (Heap.type_edit ..) (Heap.shape?_edit ..)
  constructor
  · exact severing.later.trans editing
  · exact severing.closed.edit target fun part listed => (carried _ listed part rfl).1
  · intro id present
    have before : now.heap.Holds id := Heap.holds_edit.1 present
    obtain ⟨original, held, type, shape⟩ := severing.modelled id before
    exact ⟨original, held, (Heap.type_edit ..).trans type, (Heap.shape?_edit ..).trans shape⟩
  · exact fun id new => (origin id).trans (severing.plain id new)
  · intro id new part member
    rcases Heap.mem_parts_edit member with before | ⟨-, listed⟩
    · exact (severing.parts id new part before).later editing
    · exact (carried part listed).later editing
  · exact fun id counterpart known => (severing.counterpart id counterpart known).later editing
  · intro id known
    obtain ⟨reuses, unhandled, proxy⟩ := severing.own id known
    exact ⟨reuses, (handler id).trans unhandled, (congrArg Origin.isProxy (origin id)).trans proxy⟩
  · intro id held unowned
    have different : id ≠ target := by
      rintro rfl
      exact either.elim (fun new => new held) unowned
    exact (Heap.node_edit_of_ne _ different change).trans (severing.kept id held unowned)

/-- An object has the handler of the one that it is modelled on. -/
theorem handler?_ne_basic (severable : Severable setting start) {id : ObjectId} (held : now.heap.Holds id) :
    now.handler? id ≠ some .basic := by
  obtain ⟨original, old, type, shape⟩ := severing.modelled id held
  have same : now.handler? id = start.handler? original := by
    rw [World.handler?, World.handler?, severing.later.registry]
    exact start.dispatch.registry.ofValue_of_same type shape
  rw [same]
  exact severable.walked original old

/-- All declared properties are raw attributes, those of new objects included. -/
theorem allFields (severable : Severable setting start) {id : ObjectId} (held : now.heap.Holds id)
    {metadata : Metadata} (known : now.metadata? setting id = some metadata) : metadata.AllFields := by
  obtain ⟨original, old, type, -⟩ := severing.modelled id held
  rw [World.metadata?, type, severing.later.schema, ← Option.or_assoc] at known
  rcases declared : (setting.overrides.get? (start.heap.node original).type).or
      (start.cache.schema.metadata? (start.heap.node original).type) with _ | found
  · rw [declared, Option.none_or] at known
    obtain rfl := Option.some.inj (Option.ite_none_right_eq_some.1 known).2
    exact Metadata.allFields_introspect _
  · rw [declared, Option.some_or] at known
    obtain rfl := Option.some.inj known
    apply severable.fields original old
    rw [World.metadata?, ← Option.or_assoc, declared, Option.some_or]

/-- No container is detached in place. -/
theorem shape?_of_own (severable : Severable setting start) {id : ObjectId}
    (own : now.visits.get? id = some (.object id)) : (now.heap.node id).shape? = none := by
  obtain ⟨schema, defaults⟩ := severable.defaults
  have unhandled := (severing.own id own).2.1
  rw [World.handler?, severing.later.registry, defaults] at unhandled
  exact Handler.Registry.shape?_of_unhandled unhandled

/-- An array whose slots are copied unseen holds severed values only. -/
theorem items_of_hasScalarSlots (severable : Severable setting start) {id : ObjectId}
    (scalar : (now.heap.node id).hasScalarSlots = true) :
    ∀ item ∈ (now.heap.node id).items, Severed start now item := by
  intro item member
  by_cases old : start.heap.Holds id
  · have unowned : now.visits.get? id ≠ some (.object id) := by
      intro own
      have shapeless := severing.shape?_of_own severable own
      rcases content : (now.heap.node id).content with _ | _ | _ | _ | _
      case array => simp [Node.shape?, Content.shape?, content] at shapeless
      all_goals simp [Node.hasScalarSlots, content] at scalar
    rw [severing.kept id old unowned] at scalar member
    exact .scalar (severable.scalars id old scalar item member)
  · exact severing.parts id old item (Node.mem_parts_of_items member)

end Severing

namespace Severance

variable {setting : Setting} {start now : World} {opened : ObjectId → Prop}

theorem of_same {after : World} (later : now.Later after) (heap : after.heap = now.heap)
    (visits : after.visits = now.visits) : Severance setting start opened now after where
  later := later
  kept id _ _ := by rw [heap]
  settles id _ _ own := by
    rw [visits] at own
    exact .inl own

theorem refl (now : World) : Severance setting start opened now now :=
  of_same (.refl now) rfl rfl

theorem weaken {after : World} (severance : Severance setting start (fun _ => False) now after) :
    Severance setting start opened now after :=
  { severance with settles := fun id held _ => severance.settles id held not_false }

theorem trans {middle after : World} (begun : start.Later now)
    (first : Severance setting start opened now middle)
    (second : Severance setting start opened middle after) : Severance setting start opened now after where
  later := first.later.trans second.later
  kept := by
    intro id held either
    have node : middle.heap.node id = now.heap.node id := by
      apply first.kept id held
      refine either.imp_right fun unowned own => unowned ?_
      exact second.later.visits id _ own
    refine (second.kept id (first.later.holds held) ?_).trans node
    refine either.imp_left fun visited fresh => ?_
    rcases known : now.visits.get? id with _ | target
    · exact visited known
    · cases fresh.symm.trans (first.later.visits id target known)
  settles := by
    intro id held closed own
    rcases second.settles id held closed own with between | settled
    · rcases first.settles id held closed between with before | settled
      · exact .inl before
      · right
        have present := first.later.holds (begun.holds held)
        have visited : middle.visits.get? id ≠ none := by
          rw [between]
          exact Option.some_ne_none _
        have same := second.kept id present (.inl visited)
        rw [World.partsOf_of_same same second.later.schema]
        exact fun part member => (settled part member).later second.later
    · exact .inr settled

theorem allocate (node : Node) : Severance setting start opened now (allocate node now).2 where
  later := .allocate now node
  kept _ held _ := Heap.node_allocate_of_holds held node
  settles _ _ _ own := .inl own

/-- A first visit opens an object. -/
theorem record {source : ObjectId} (unvisited : now.visits.get? source = none) (target : Value) :
    Severance setting start (· = source) now (record source target now).2 where
  later := .record now unvisited target
  kept _ _ _ := rfl
  settles id _ other own := by
    left
    have elsewhere : (Action.record source target now).2.visits.get? id = now.visits.get? id :=
      Visits.get?_record_of_ne _ (Ne.symm other) _
    exact elsewhere.symm.trans own

/-- An edit of an object that was allocated since, or of one that is open. -/
theorem edit {middle : World} (begun : start.Later now) (severance : Severance setting start opened now middle)
    {target : ObjectId} {change : Edit} (other : ∀ origin, change ≠ .setOrigin origin)
    (either : ¬ now.heap.Holds target ∨
      opened target ∧ now.visits.get? target = none ∧ middle.visits.get? target = some (.object target)) :
    Severance setting start opened now (edit target change middle).2 where
  later := severance.later.trans (.edit middle target other)
  kept := by
    intro id held unowned
    have different : id ≠ target := by
      rintro rfl
      rcases either with absent | ⟨-, fresh, own⟩
      · exact absent held
      · exact unowned.elim (fun visited => visited fresh) (fun unowned => unowned own)
    exact (Heap.node_edit_of_ne _ different change).trans (severance.kept id held unowned)
  settles := by
    intro id held closed own
    refine (severance.settles id held closed own).imp_right fun settled => ?_
    have different : id ≠ target := by
      rintro rfl
      rcases either with absent | ⟨isOpen, -⟩
      · exact absent (begun.holds held)
      · exact closed isOpen
    have same : (Action.edit target change middle).2.heap.node id = middle.heap.node id :=
      Heap.node_edit_of_ne _ different change
    rw [World.partsOf_of_same same rfl]
    exact fun part member => (settled part member).later (.edit middle target other)

/-- Once the last open object is settled nothing is open. -/
theorem close {after : World} {source : ObjectId} (severance : Severance setting start (· = source) now after)
    (settled : after.visits.get? source = some (.object source) →
      ∀ part ∈ after.partsOf setting source, Severed start after part) :
    Severance setting start (fun _ => False) now after :=
  { severance with
    settles := by
      intro id held _ own
      by_cases same : id = source
      · subst same
        exact .inr (settled own)
      · exact severance.settles id held same own }

end Severance

end Reconciler
