import Reconciler.Proofs.Answers
import Reconciler.Traversal.Frame

/-! # The course of a reconciliation

A run that reconciles passes through worlds, each one change after the one before. `Course` has one case
for every kind of change and says in it what the run knew when it made the change, so what holds
of all worlds on the way is shown case by case and never again from the code of the engine. A run that
answers also settles every counterpart that it records: the declared properties of a merged entity have
all been taken over by then.
-/

namespace Reconciler

open Reconciler.Action

/-- What an object stands for if it is passed through: nothing if it is a lazy handle, else itself. -/
def World.standIn (world : World) (source : ObjectId) : Value :=
  if world.handler? source = some .null then .null else .object source

theorem World.standIn_of_unhandled {world : World} {source : ObjectId}
    (unhandled : world.handler? source = none) : world.standIn source = .object source := by
  rw [World.standIn, unhandled]
  exact if_neg nofun

namespace Request

/-- The value that a request reconciles. Nothing is reconciled with null. -/
def reconciled? : Request → Option Value
  | disconnect _ => none
  | apply detached => some detached
  | applyTo detached authoritative => if authoritative.isNull then none else some detached

/-- The requests of a run that detaches. -/
def Detaches (request : Request) : Prop := ∃ value, request = disconnect value

/-- The requests of a run that reconciles. -/
def Reconciling (request : Request) : Prop := ∀ value, request ≠ disconnect value

theorem Reconciling.not_detaches {request : Request} (reconciling : request.Reconciling) : ¬ request.Detaches :=
  fun ⟨value, same⟩ => reconciling value same

theorem reconciling_apply (detached : Value) : (apply detached).Reconciling :=
  nofun

theorem reconciling_applyTo (detached authoritative : Value) : (applyTo detached authoritative).Reconciling :=
  nofun

theorem reconciling_reconcile (detached authoritative : Value) : (reconcile detached authoritative).Reconciling := by
  unfold reconcile
  split
  · exact reconciling_apply detached
  · exact reconciling_applyTo detached authoritative

end Request

/-- Every recorded counterpart was recorded at some time. -/
theorem Visits.mem_log_of_get? {visits : Visits} {source : ObjectId} {counterpart : Value}
    (known : visits.get? source = some counterpart) : (source, counterpart) ∈ visits.log := by
  rw [get?, Option.map_eq_some_iff] at known
  obtain ⟨entry, found, rfl⟩ := known
  have same : entry.1 = source := by simpa using List.find?_some found
  exact same ▸ List.mem_of_find?_eq_some found

/-- What every part of a run keeps: the objects, the counterparts, the events, and all that the
configuration of the engine depends on. -/
structure World.Later (before after : World) : Prop where
  heap : before.heap.Retains none after.heap
  visits : ∀ source counterpart, before.visits.get? source = some counterpart →
    after.visits.get? source = some counterpart
  journal : before.journal <:+ after.journal
  registry : after.dispatch.registry = before.dispatch.registry
  schema : after.cache.schema = before.cache.schema
  store : before.store.Kept after.store
  outages : before.outages.Spends after.outages

namespace World.Later

theorem refl (world : World) : world.Later world :=
  ⟨.refl _ _, fun _ _ known => known, List.suffix_refl _, rfl, rfl, .refl _, .refl _⟩

theorem trans {first second third : World} (before : first.Later second)
    (after : second.Later third) : first.Later third where
  heap := before.heap.trans after.heap
  visits _ _ known := after.visits _ _ (before.visits _ _ known)
  journal := before.journal.trans after.journal
  registry := after.registry.trans before.registry
  schema := after.schema.trans before.schema
  store := before.store.trans after.store
  outages := before.outages.trans after.outages

variable {before after : World} (later : before.Later after)

include later

theorem holds {id : ObjectId} (held : before.heap.Holds id) : after.heap.Holds id :=
  later.heap.holds id held

/-- What is allocated later was not there before. -/
theorem not_holds_fresh : ¬ before.heap.Holds after.heap.fresh :=
  fun held => after.heap.not_holds_fresh (later.holds held)

/-- An object that is unvisited later was unvisited before. -/
theorem unvisited {id : ObjectId} (unvisited : after.visits.get? id = none) : before.visits.get? id = none := by
  rcases known : before.visits.get? id with _ | target
  · rfl
  · cases unvisited.symm.trans (later.visits id target known)

/-- The handler of an object depends on its type and its shape, so it stays. -/
theorem handler?_eq {id : ObjectId} (held : before.heap.Holds id) :
    after.handler? id = before.handler? id :=
  World.handler?_of_same later.registry (later.heap.type_eq id held) (later.heap.shape?_eq id held)

theorem standIn_eq {id : ObjectId} (held : before.heap.Holds id) :
    after.standIn id = before.standIn id := by
  rw [World.standIn, later.handler?_eq held, World.standIn]

theorem entity?_eq {id : ObjectId} (held : before.heap.Holds id) :
    after.store.entity? (after.heap.node id).type = before.store.entity? (before.heap.node id).type := by
  rw [later.heap.type_eq id held, EntityStore.entity?, later.store.entities, EntityStore.entity?]

end World.Later

namespace World.Later

theorem note (world : World) (event : Event) : world.Later (Action.note event world).2 where
  heap := .refl _ _
  visits _ _ known := known
  journal := List.suffix_cons _ _
  registry := rfl
  schema := rfl
  store := .refl _
  outages := .refl _

theorem edit (world : World) (target : ObjectId) {change : Edit}
    (other : ∀ origin, change ≠ .setOrigin origin) : world.Later (Action.edit target change world).2 where
  heap := .edit _ _ (.inl other)
  visits _ _ known := known
  journal := List.suffix_cons _ _
  registry := rfl
  schema := rfl
  store := .refl _
  outages := .refl _

theorem allocate (world : World) (node : Node) : world.Later (Action.allocate node world).2 :=
  { refl world with heap := .allocate _ _ }

theorem record (world : World) {source : ObjectId} (unvisited : world.visits.get? source = none)
    (counterpart : Value) : world.Later (Action.record source counterpart world).2 :=
  { refl world with
    visits := fun _ _ known => Visits.get?_record_of_get? unvisited known counterpart }

theorem visits_record (world : World) (source : ObjectId) (counterpart : Value) :
    (Action.record source counterpart world).2.visits.get? source = some counterpart :=
  Visits.get?_record_self ..

theorem dispatch (world : World) {dispatch : Handler.Dispatch}
    (same : dispatch.registry = world.dispatch.registry) : world.Later { world with dispatch } :=
  { refl world with registry := same }

theorem cache (world : World) {cache : MetadataCache} (same : cache.schema = world.cache.schema) :
    world.Later { world with cache } :=
  { refl world with schema := same }

theorem stored (world : World) {store : EntityStore} {outages : Outages} (kept : world.store.Kept store)
    (spent : world.outages.Spends outages) : world.Later { world with store, outages } :=
  { refl world with store := kept, outages := spent }

theorem called (world : World) {outages : Outages} (spent : world.outages.Spends outages) :
    world.Later { world with outages } :=
  stored world (.refl _) spent

theorem removed (world : World) {store : EntityStore} {id : ObjectId}
    (removal : world.store.remove world.heap id = .ok store) : world.Later { world with store } :=
  stored world (.remove removal) (.refl _)

end World.Later

/-- The edits by which a handler fills the new container that it rebuilds. -/
inductive Handler.Fills : Handler → Edit → Prop
  | element (value : Value) : Fills .collection (.append value)
  | entry (key value : Value) : Fills .map (.bind key value)
  | slots (values : List Value) : Fills .array (.setItems values)
  | slot (index : Nat) (value : Value) : Fills .array (.setSlot index value)

/-- The edits by which a handler brings an authoritative container up to date. -/
inductive Handler.Refills : Handler → Edit → Prop
  | elements (values : List Value) : Refills .collection (.setItems values)
  | entries (entries : List (Value × Value)) : Refills .map (.setBindings entries)
  | slot (index : Nat) (value : Value) : Refills .array (.setSlot index value)

/-- A map or a collection whose content is not there. -/
def World.isUnloadedContainer (world : World) (id : ObjectId) : Bool :=
  (Value.object id).isManagedContainer world.heap && !(Value.object id).isLoaded world.heap

/-- What a detached object resolves to: its recorded counterpart, or, if it is passed through, what it
stands for. -/
inductive Resolves (now : World) (source : ObjectId) : Value → Prop
  | recorded {counterpart : Value} (known : now.visits.get? source = some counterpart) :
      Resolves now source counterpart
  | inert {handler : Handler} (known : now.handler? source = some handler)
      (idle : handler ∈ [.basic, .null, .frozen]) : Resolves now source (now.standIn source)
  | unmanaged {counterpart : Value} (known : now.visits.get? source = some counterpart)
      (unhandled : now.handler? source = none)
      (other : ∀ target, counterpart = .object target →
        now.store.entity? (now.heap.node target).type = none) :
      Resolves now source (now.standIn source)

/-- What a detached value resolves to. A scalar that no handler changes stands for itself. -/
def Resolved (now : World) (detached result : Value) : Prop :=
  match detached with
  | .object source => Resolves now source result
  | scalar => now.dispatch.registry.ofValue now.heap scalar ∈ [none, some .basic] → result = scalar

/-- The version of an object: a property if the metadata declares it, and else a raw attribute. -/
def World.version (world : World) (metadata : Metadata) (id : ObjectId) (property : String) :
    Except PropertyError Value :=
  if metadata.declares property then Property.read world.heap metadata id property
  else .ok ((world.heap.node id).attr property)

/-- An object may be merged into an entity of the same version, or into one without a version. -/
def World.SameVersion (world : World) (metadata : Metadata) (source target : ObjectId)
    (property : String) : Prop :=
  ∃ current carried, world.version metadata target property = .ok current ∧
    world.version metadata source property = .ok carried ∧ (current ≠ .null → current = carried)

/-- What holds when a run begins to merge the properties of a detached object into an entity. -/
structure Merging (setting : Setting) (begun : World) (source target : ObjectId) (entity : Entity)
    (metadata : Metadata) : Prop where
  recorded : begun.visits.get? source = some (.object target)
  unhandled : begun.handler? source = none
  managed : begun.store.entity? (begun.heap.node target).type = some entity
  distinct : source ≠ target
  identified : entity.identifier? begun.heap target ≠ none
  loaded : (begun.heap.node target).origin.isLoaded = true
  metadata_eq : metadata = (begun.metadata? setting target).getD { type := entity.type }
  version : ∀ property, checkedVersion? setting entity = some property →
    begun.SameVersion metadata source target property

/-- What holds when a run is about to reconcile a property of a detached object with that of an entity. -/
structure Reading (setting : Setting) (earlier : World) (source target : ObjectId) (entity : Entity)
    (metadata : Metadata) (property : String) (value current : Value) : Prop where
  declared : property ∈ metadata.names
  unchecked : checkedVersion? setting entity ≠ some property
  carried : Property.read earlier.heap metadata source property = .ok value
  present : Property.read earlier.heap metadata target property = .ok current
  significant : value ≠ .null
  differs : value ≠ current

/-- What holds when a run has reconciled a property of a detached object with that of an entity. -/
structure Taking (setting : Setting) (earlier now : World) (source target : ObjectId)
    (entity : Entity) (metadata : Metadata) (property : String) (value current merged : Value) : Prop
    extends Reading setting earlier source target entity metadata property value current where
  answered : .answered (.reconcile value current) merged ∈ now.journal

/-- The worlds that a reconciliation that starts in `start` can pass through. -/
inductive Course (setting : Setting) (start : World) : World → Prop
  | start : Course setting start start
  | asked {now : World} (course : Course setting start now) (request : Request) :
      Course setting start (note (.asked request) now).2
  | answered {now : World} (course : Course setting start now) {request : Request} {result : Value}
      (resolved : ∀ detached, request.reconciled? = some detached → detached ≠ .null →
        Resolved now detached result) :
      Course setting start (note (.answered request result) now).2
  | walked {now : World} (course : Course setting start now) (source : ObjectId) :
      Course setting start (note (.walked source) now).2
  | dispatched {now : World} (course : Course setting start now) {dispatch : Handler.Dispatch}
      (same : dispatch.registry = now.dispatch.registry) :
      Course setting start { now with dispatch }
  | cached {now : World} (course : Course setting start now) {cache : MetadataCache}
      (same : cache.schema = now.cache.schema) : Course setting start { now with cache }
  | recorded {now : World} (course : Course setting start now) {source : ObjectId}
      (unvisited : now.visits.get? source = none) (counterpart : Value) :
      Course setting start (record source counterpart now).2
  | allocated {now : World} (course : Course setting start now) {source : ObjectId}
      (handled : now.handler? source ≠ none) :
      Course setting start (allocate (now.heap.node source).emptyLike now).2
  | filled {now : World} (course : Course setting start now) {copy : ObjectId}
      (new : ¬ start.heap.Holds copy) {handler : Handler} {change : Edit}
      (fills : handler.Fills change) : Course setting start (edit copy change now).2
  | refilled {begun now : World} (first : Course setting start begun)
      (course : Course setting start now) (started : begun.Later now) {source target : ObjectId}
      (recorded : begun.visits.get? source = some (.object target)) {handler : Handler}
      (handled : begun.handler? source = some handler)
      (loaded : handler ≠ .array → begun.isUnloadedContainer target = false) {change : Edit}
      (refills : handler.Refills change) : Course setting start (edit target change now).2
  | discarding {now : World} (course : Course setting start now) (container entity : ObjectId)
      (managed : now.store.manages (now.heap.node entity).type = true)
      (enabled : setting.config.deleteRemoved = true) :
      Course setting start (note (.discarded container entity) now).2
  | removed {now : World} (course : Course setting start now) {entity : ObjectId} {store : EntityStore}
      (removal : now.store.remove now.heap entity = .ok store) : Course setting start { now with store }
  | called {now : World} (course : Course setting start now) {outages : Outages} (spent : now.outages.Spends outages) :
      Course setting start { now with outages }
  | written {begun earlier now : World} (first : Course setting start begun)
      (second : Course setting start earlier) (course : Course setting start now)
      (started : begun.Later earlier) (read : earlier.Later now)
      {source target : ObjectId} {entity : Entity} {metadata : Metadata} {property : String}
      {value current merged : Value} {change : Edit}
      (merging : Merging setting begun source target entity metadata)
      (taking : Taking setting earlier now source target entity metadata property value current merged)
      (changed : merged ≠ current)
      (made : Property.Edits now.heap metadata target property merged change) :
      Course setting start (edit target change now).2

theorem Handler.Fills.ne_setOrigin {handler : Handler} {change : Edit} (fills : handler.Fills change)
    (origin : Origin) : change ≠ .setOrigin origin := by
  rintro rfl
  cases fills

theorem Handler.Refills.ne_setOrigin {handler : Handler} {change : Edit}
    (refills : handler.Refills change) (origin : Origin) : change ≠ .setOrigin origin := by
  rintro rfl
  cases refills

namespace Course

variable {setting : Setting} {start now : World}

/-- The worlds on the way keep what every part of a run keeps. -/
theorem later (course : Course setting start now) : start.Later now := by
  induction course with
  | start => exact .refl start
  | asked course request ih => exact ih.trans (.note _ _)
  | answered course resolved ih => exact ih.trans (.note _ _)
  | walked course source ih => exact ih.trans (.note _ _)
  | dispatched course same ih => exact ih.trans (.dispatch _ same)
  | cached course same ih => exact ih.trans (.cache _ same)
  | recorded course unvisited counterpart ih => exact ih.trans (.record _ unvisited _)
  | allocated course handled ih => exact ih.trans (.allocate _ _)
  | filled course new fills ih => exact ih.trans (.edit _ _ fills.ne_setOrigin)
  | refilled first course started recorded handled loaded refills _ ih =>
    exact ih.trans (.edit _ _ refills.ne_setOrigin)
  | discarding course container entity managed enabled ih => exact ih.trans (.note _ _)
  | removed course removal ih => exact ih.trans (.removed _ removal)
  | called course spent ih => exact ih.trans (.called _ spent)
  | written first second course started read merging taking changed made _ _ ih =>
    exact ih.trans (.edit _ _ made.ne_setOrigin)

/-- A fact that held at some moment of the course. -/
def Once (setting : Setting) (start now : World) (fact : World → Prop) : Prop :=
  ∃ earlier, Course setting start earlier ∧ earlier.Later now ∧ fact earlier

theorem Once.of_now {fact : World → Prop} (course : Course setting start now) (holds : fact now) :
    Once setting start now fact :=
  ⟨now, course, .refl now, holds⟩

theorem Once.later {fact : World → Prop} {after : World} (once : Once setting start now fact)
    (later : now.Later after) : Once setting start after fact := by
  obtain ⟨earlier, course, before, holds⟩ := once
  exact ⟨earlier, course, before.trans later, holds⟩

/-- Whenever a request was answered, the answer was what its value resolved to at that moment. -/
theorem answered_once (course : Course setting start now) (quiet : start.journal = [])
    {request : Request} {result : Value} (member : .answered request result ∈ now.journal) :
    Once setting start now (fun earlier => ∀ detached, request.reconciled? = some detached →
      detached ≠ .null → Resolved earlier detached result) := by
  -- Every other change adds another event to the journal or none.
  induction course with
  | start => simp [quiet] at member
  | asked course request ih =>
    exact (ih ((List.mem_cons.1 member).resolve_left nofun)).later (.note _ _)
  | answered course resolved ih =>
    rcases List.mem_cons.1 member with same | member
    · obtain ⟨rfl, rfl⟩ := Event.answered.inj same
      exact ⟨_, course, .note _ _, resolved⟩
    · exact (ih member).later (.note _ _)
  | walked course source ih =>
    exact (ih ((List.mem_cons.1 member).resolve_left nofun)).later (.note _ _)
  | dispatched course same ih => exact (ih member).later (.dispatch _ same)
  | cached course same ih => exact (ih member).later (.cache _ same)
  | recorded course unvisited counterpart ih => exact (ih member).later (.record _ unvisited _)
  | allocated course handled ih => exact (ih member).later (.allocate _ _)
  | filled course new fills ih =>
    exact (ih ((List.mem_cons.1 member).resolve_left nofun)).later (.edit _ _ fills.ne_setOrigin)
  | refilled first course started recorded handled loaded refills _ ih =>
    exact (ih ((List.mem_cons.1 member).resolve_left nofun)).later (.edit _ _ refills.ne_setOrigin)
  | discarding course container entity managed enabled ih =>
    exact (ih ((List.mem_cons.1 member).resolve_left nofun)).later (.note _ _)
  | removed course removal ih =>
    exact (ih member).later (.removed _ removal)
  | called course spent ih => exact (ih member).later (.called _ spent)
  | written first second course started read merging taking changed made _ _ ih =>
    exact (ih ((List.mem_cons.1 member).resolve_left nofun)).later (.edit _ _ made.ne_setOrigin)

/-- A property of a detached object has been taken over into an entity: it was null, or what the entity
had, or what it was reconciled to is what the entity had or was written to it. -/
def TakenOver (setting : Setting) (start now : World) (source target : ObjectId)
    (metadata : Metadata) (property : String) : Prop :=
  ∃ value current,
    Once setting start now (fun earlier =>
      Property.read earlier.heap metadata source property = .ok value ∧
        Property.read earlier.heap metadata target property = .ok current) ∧
    (value = .null ∨ value = current ∨ ∃ merged,
      .answered (.reconcile value current) merged ∈ now.journal ∧
        (merged = current ∨ ∃ change,
          Once setting start now (fun earlier =>
            Property.write earlier.heap metadata target property merged = .ok change) ∧
          .edited target change ∈ now.journal))

theorem TakenOver.later {source target : ObjectId} {metadata : Metadata} {property : String}
    {after : World} (taken : TakenOver setting start now source target metadata property)
    (later : now.Later after) : TakenOver setting start after source target metadata property := by
  obtain ⟨value, current, read, outcome⟩ := taken
  refine ⟨value, current, read.later later, ?_⟩
  rcases outcome with null | same | ⟨merged, answered, outcome⟩
  · exact .inl null
  · exact .inr (.inl same)
  refine .inr (.inr ⟨merged, later.journal.subset answered, ?_⟩)
  rcases outcome with same | ⟨change, made, edited⟩
  · exact .inl same
  · exact .inr ⟨change, made.later later, later.journal.subset edited⟩

/-- Nothing is left to be done for an object with the given counterpart: it is treated by a handler, or
its counterpart is no entity or the object itself, or its properties have been taken over. -/
inductive Settled (setting : Setting) (start now : World) (source : ObjectId) : Value → Prop
  | handled {counterpart : Value}
      (once : Once setting start now (fun earlier => earlier.handler? source ≠ none)) :
      Settled setting start now source counterpart
  | unmanaged {counterpart : Value}
      (once : Once setting start now (fun earlier => ∀ target, counterpart = .object target →
        earlier.store.entity? (earlier.heap.node target).type = none)) :
      Settled setting start now source counterpart
  | itself : Settled setting start now source (.object source)
  | merged {target : ObjectId} {entity : Entity} {metadata : Metadata}
      (once : Once setting start now (fun begun =>
        Merging setting begun source target entity metadata))
      (taken : ∀ property ∈ metadata.names, checkedVersion? setting entity ≠ some property →
        TakenOver setting start now source target metadata property) :
      Settled setting start now source (.object target)

theorem Settled.later {source : ObjectId} {counterpart : Value} {after : World}
    (settled : Settled setting start now source counterpart) (later : now.Later after) :
    Settled setting start after source counterpart := by
  cases settled with
  | handled once => exact .handled (once.later later)
  | unmanaged once => exact .unmanaged (once.later later)
  | itself => exact .itself
  | merged once taken =>
    exact .merged (once.later later) fun property member unchecked =>
      (taken property member unchecked).later later

end Course

/-- A call that brings a detached value up to date, and how it ends. -/
inductive Reconciliation (setting : Setting) (world : World) : Except Ending Value × World → Prop
  | apply (detached : Value) : Reconciliation setting world (setting.apply detached world.rested)
  | applyTo (detached authoritative : Value) :
      Reconciliation setting world (setting.applyTo detached authoritative world.rested)
  | applyWith (detached : Value) (lookUp : EntityStore → Heap → Except StoreError Value) :
      Reconciliation setting world (setting.applyWith detached lookUp world.rested)

end Reconciler
