import Reconciler.Proofs.Passage

/-! # Episodes

An episode of a run is what is done about one request. `Move` says once what a step of the engine can do and all that
is known when it is made; `Subrequest` says why something else is asked for in between, which is another episode.
What holds of all runs follows from that by induction, so a change of the engine changes its moves and nothing that was
concluded from the others.
-/

namespace Reconciler

open Reconciler.Action

/-- An object that is merged property by property into an entity, and the world in which that began. -/
structure Merger where
  source : ObjectId
  target : ObjectId
  entity : Entity
  metadata : Metadata
  begun : World

/-- A property that is being taken over: what both objects had in the world in which it was read. -/
structure Transfer where
  property : String
  value : Value
  current : Value
  earlier : World

/-- How far the treatment of a request has come. -/
inductive Phase where
  | opened
  /-- The counterpart that the request names is recorded. -/
  | paired (source : ObjectId) (counterpart : Value)
  /-- The object is being brought onto its counterpart, or the counterpart made from it. -/
  | busy (source : ObjectId) (counterpart : Value)
  | merging (merger : Merger) (done : List String)
  | taking (merger : Merger) (done : List String) (transfer : Transfer) (merged : Value)
  /-- Only the answer is left to be given. -/
  | settled
  | replied (result : Value)
  | failed (ending : Ending)

namespace Phase

/-- The phases in which the engine looks something up. -/
def Searching : Phase → Prop
  | opened | paired _ _ | busy _ _ => True
  | _ => False

/-- The phases in which the engine gives up for reasons that need not be told apart. -/
def Fragile (request : Request) : Phase → Prop
  | opened => ∃ source, request = .apply (.object source)
  | busy _ _ | merging _ _ | taking _ _ _ _ => True
  | _ => False

end Phase

/-- Calls of the operation fail with the error, all of them or one that is still to come. -/
def World.MayFail (start : World) (operation : StoreOperation) (error : StoreError) : Prop :=
  start.store.faults.get? operation = some error ∨ some error ∈ start.outages operation

/-- The metadata by which an object is merged into an entity. -/
def World.metadataFor (world : World) (setting : Setting) (target : ObjectId) (entity : Entity) : Metadata :=
  (world.metadata? setting target).getD { type := entity.type }

/-- Why an object is not merged into an entity. -/
inductive Refusal (setting : Setting) (now middle : World) (source target : ObjectId) (entity : Entity) :
    Ending → Prop
  | unavailable {error : StoreError} (fails : now.MayFail .identifier error) :
      Refusal setting now middle source target entity (.failed (.store error))
  | unidentified (null : entity.identifier? middle.heap target = none) :
      Refusal setting now middle source target entity
        (.failed (.nullIdentifier (middle.heap.node target).type))
  | unloaded {identifier : Value} (unloaded : (middle.heap.node target).origin.isLoaded = false) :
      Refusal setting now middle source target entity
        (.failed (.uninitialized (middle.heap.node target).type (.entity identifier)))
  | unreadable {property : String} {error : PropertyError} {id : ObjectId}
      (checked : checkedVersion? setting entity = some property) (either : id = target ∨ id = source)
      (unread : middle.version (middle.metadataFor setting target entity) id property = .error error) :
      Refusal setting now middle source target entity (.failed (.access error))
  | outdated {property : String} {current carried : Value}
      (checked : checkedVersion? setting entity = some property)
      (present : middle.version (middle.metadataFor setting target entity) target property = .ok current)
      (brought : middle.version (middle.metadataFor setting target entity) source property = .ok carried)
      (significant : current ≠ .null) (differs : current ≠ carried) :
      Refusal setting now middle source target entity
        (.failed (.versionMismatch (middle.heap.node target).type property carried current))

/-- The request for which an object is rebuilt, detached or left to itself. -/
inductive Alone (request : Request) (source : ObjectId) (applied : Prop) : Prop
  | apply (asked : request = .apply (.object source)) (holds : applied) : Alone request source applied
  | disconnect (asked : request = .disconnect (.object source)) : Alone request source applied

/-- When a run reconciles, such an object was to be applied. -/
theorem Alone.applied {request : Request} {source : ObjectId} {applied : Prop} (alone : Alone request source applied)
    (reconciling : request.Reconciling) : request = .apply (.object source) ∧ applied := by
  cases alone with
  | apply asked holds => exact ⟨asked, holds⟩
  | disconnect asked => exact absurd ⟨_, asked⟩ reconciling.not_detaches

/-- Where a value comes from that is put into the slot of an authoritative array. -/
inductive Slotted (now middle : World) (source : ObjectId) : Value → Prop
  | null : Slotted now middle source .null
  | answer {inner : Request} {value : Value} (answered : .answered inner value ∈ middle.journal) :
      Slotted now middle source value
  | scalar {value : Value} (plain : (now.heap.node source).hasScalarSlots = true)
      (slot : value ∈ (now.heap.node source).items) : Slotted now middle source value

/-- A step of the engine in the treatment of a request that was made in `now`. -/
inductive Move (setting : Setting) (request : Request) (now : World) : Phase → World → Phase → World → Prop
  /-- Answers of look-ups are remembered, and calls of the store are made. -/
  | idle {phase : Phase} {middle : World} (searching : phase.Searching) {dispatch : Handler.Dispatch}
      {cache : MetadataCache} {outages : Outages} (registry : dispatch.registry = middle.dispatch.registry)
      (schema : cache.schema = middle.cache.schema) (spent : middle.outages.Spends outages) :
      Move setting request now phase middle phase { middle with dispatch, cache, outages }
  | flushed {source : ObjectId} {counterpart : Value} {middle : World} (detaches : request.Detaches)
      {store : EntityStore} {outages : Outages} (kept : middle.store.Kept store)
      (spent : middle.outages.Spends outages) :
      Move setting request now (.busy source counterpart) middle (.busy source counterpart)
        { middle with store, outages }
  | allocated {source id : ObjectId} {counterpart : Value} {middle : World} (detaches : request.Detaches)
      (container : (middle.heap.node id).isContainer = true) :
      Move setting request now (.busy source counterpart) middle (.busy source counterpart)
        (allocate (middle.heap.node id).emptyLike middle).2
  | walked {source : ObjectId} {counterpart : Value} {middle : World} :
      Move setting request now (.busy source counterpart) middle (.busy source counterpart)
        (note (.walked source) middle).2
  | pairing {source : ObjectId} {counterpart : Value} {middle : World}
      (requested : request = .applyTo (.object source) counterpart)
      (unvisited : middle.visits.get? source = none) :
      Move setting request now .opened middle (.paired source counterpart) (record source counterpart middle).2
  | rebuilding {source : ObjectId} {middle : World} (alone : Alone request source (middle.handler? source ≠ none))
      (unvisited : middle.visits.get? source = none) :
      Move setting request now .opened middle (.busy source (.object middle.heap.fresh)) (middle.rebuilding source)
  /-- An array of scalars is copied as it is. -/
  | copied {source : ObjectId} {middle : World} (alone : Alone request source (middle.handler? source ≠ none))
      (unvisited : middle.visits.get? source = none) (handled : middle.handler? source = some .array)
      (plain : (middle.heap.node source).hasScalarSlots = true) :
      Move setting request now .opened middle .settled
        (edit middle.heap.fresh (.setItems (middle.heap.node source).items) (middle.rebuilding source)).2
  | standing {source : ObjectId} {middle : World}
      (alone : Alone request source (middle.store.entity? (middle.heap.node source).type = none))
      (unvisited : middle.visits.get? source = none) (unhandled : middle.handler? source = none) :
      Move setting request now .opened middle (.busy source (.object source))
        (record source (.object source) middle).2
  | handled {source : ObjectId} {counterpart : Value} {middle : World} (handled : middle.handler? source ≠ none) :
      Move setting request now (.paired source counterpart) middle (.busy source counterpart) middle
  /-- Nothing is merged: the counterpart is no entity, or the object itself. -/
  | apart {source : ObjectId} {counterpart : Value} {middle : World} (unhandled : middle.handler? source = none)
      (apart : counterpart = .object source ∨ ∀ target, counterpart = .object target →
        middle.store.entity? (middle.heap.node target).type = none) :
      Move setting request now (.paired source counterpart) middle .settled middle
  | refused {source target : ObjectId} {middle : World} {entity : Entity} {ending : Ending}
      (unhandled : middle.handler? source = none)
      (managed : middle.store.entity? (middle.heap.node target).type = some entity) (distinct : source ≠ target)
      (refusal : Refusal setting now middle source target entity ending) :
      Move setting request now (.paired source (.object target)) middle (.failed ending) middle
  | merging {source target : ObjectId} {middle : World} {entity : Entity} {metadata : Metadata}
      (merging : Merging setting middle source target entity metadata) :
      Move setting request now (.paired source (.object target)) middle
        (.merging ⟨source, target, entity, metadata, middle⟩ []) (note (.walked source) middle).2
  | filled {source copy : ObjectId} {middle : World} (new : ¬ now.heap.Holds copy) {handler : Handler} {change : Edit}
      (fills : handler.Fills change) (partly : ∀ values, change ≠ .setItems values)
      (supplied : ∀ value ∈ change.values, ∃ inner, .answered inner value ∈ middle.journal) :
      Move setting request now (.busy source (.object copy)) middle (.busy source (.object copy))
        (edit copy change middle).2
  | slotted {source target : ObjectId} {middle : World}
      (requested : request = .applyTo (.object source) (.object target))
      (handled : now.handler? source = some .array) (index : Nat) {value : Value}
      (supplied : Slotted now middle source value) :
      Move setting request now (.busy source (.object target)) middle (.busy source (.object target))
        (edit target (.setSlot index value) middle).2
  | detached {source target : ObjectId} {middle : World} (detaches : request.Detaches)
      (unhandled : now.handler? source = none) {metadata : Metadata} {property : String} {value : Value}
      {change : Edit} (made : Property.Edits middle.heap metadata target property value change) :
      Move setting request now (.busy source (.object target)) middle (.busy source (.object target))
        (edit target change middle).2
  /-- The treatment is over, and it was not one that refills a container that had been there. -/
  | closed {source : ObjectId} {counterpart : Value} {middle : World}
      (kept : ∀ target, counterpart = .object target → now.heap.Holds target →
        now.handler? source ∈ [some .collection, some .map] → now.isUnloadedContainer target = true) :
      Move setting request now (.busy source counterpart) middle .settled middle
  /-- A container trades what it holds, gives up what it has lost, and is refilled. -/
  | refilled {source target : ObjectId} {middle after : World}
      (requested : request = .applyTo (.object source) (.object target)) {handler : Handler}
      (handled : now.handler? source = some handler) (whole : handler ≠ .array)
      (loaded : now.isUnloadedContainer target = false) {change : Edit} (refills : handler.Refills change)
      {trades : List Trade} {leftovers : List Value}
      (elements : trades.map Trade.element = handler.candidates (now.heap.node source))
      (images : trades.map Trade.image = change.values) (made : ∀ trade ∈ trades, trade.Made middle)
      (drawn : (trades.filterMap Trade.counterpart? ++ leftovers).Perm
        (handler.candidates (now.heap.node target)))
      (lost : discardLeftovers setting target change.values leftovers middle = (.ok (), after)) :
      Move setting request now (.busy source (.object target)) middle .settled (edit target change after).2
  /-- A property is null, or what the entity has. -/
  | spared {merger : Merger} {done : List String} {middle : World} {property : String} {value current : Value}
      (carried : Property.read middle.heap merger.metadata merger.source property = .ok value)
      (present : Property.read middle.heap merger.metadata merger.target property = .ok current)
      (idle : value = .null ∨ value = current) :
      Move setting request now (.merging merger done) middle (.merging merger (done ++ [property])) middle
  | unchanged {merger : Merger} {done : List String} {transfer : Transfer} {merged : Value} {middle : World}
      (same : merged = transfer.current) :
      Move setting request now (.taking merger done transfer merged) middle
        (.merging merger (done ++ [transfer.property])) middle
  | written {merger : Merger} {done : List String} {transfer : Transfer} {merged : Value} {middle : World}
      (changed : merged ≠ transfer.current) {change : Edit}
      (made : Property.write middle.heap merger.metadata merger.target transfer.property merged = .ok change) :
      Move setting request now (.taking merger done transfer merged) middle
        (.merging merger (done ++ [transfer.property])) (edit merger.target change middle).2
  | merged {merger : Merger} {done : List String} {middle : World}
      (all : ∀ property ∈ merger.metadata.names, checkedVersion? setting merger.entity ≠ some property →
        property ∈ done) :
      Move setting request now (.merging merger done) middle .settled middle
  /-- The request is not about two objects, or the first one has been treated before. -/
  | passed {middle : World} (treated : ∀ source target, request = .applyTo (.object source) (.object target) →
        middle.visits.get? source ≠ none) :
      Move setting request now .opened middle .settled middle
  | replied {middle : World} {result : Value} (yields : request.Reconciling → middle.Yields result request) :
      Move setting request now .settled middle (.replied result) (note (.answered request result) middle).2
  | missing {source : ObjectId} {middle : World} (requested : request = .apply (.object source)) {type : TypeName}
      {identifier : Value} (absent : middle.store.find middle.heap type identifier = .ok none) :
      Move setting request now .opened middle (.failed (.failed (.entityNotFound type identifier))) middle
  | stopped {phase : Phase} {middle : World} (fragile : phase.Fragile request) {ending : Ending}
      (other : ∀ type identifier, ending ≠ .failed (.entityNotFound type identifier)) :
      Move setting request now phase middle (.failed ending) middle
  /-- The value that is written is refused after the entity was changed. -/
  | rejected {merger : Merger} {done : List String} {transfer : Transfer} {merged : Value} {middle : World}
      (changed : merged ≠ transfer.current) {change : Edit}
      (made : Property.Edits middle.heap merger.metadata merger.target transfer.property merged change)
      {error : PropertyError} :
      Move setting request now (.taking merger done transfer merged) middle (.failed (.failed (.access error)))
        (edit merger.target change middle).2
  | interrupted {source target : ObjectId} {middle after : World} {kept leftovers : List Value} {ending : Ending}
      (lost : discardLeftovers setting target kept leftovers middle = (.error ending, after)) :
      Move setting request now (.busy source (.object target)) middle (.failed ending) after

/-- Why something else is asked for while an object is brought onto its counterpart. -/
inductive Part (request : Request) (now : World) (source : ObjectId) (counterpart : Value) : Request → Prop
  | detached (detaches : request.Detaches) (value : Value) : Part request now source counterpart (.disconnect value)
  | applied (reconciling : request.Reconciling) {value : Value} (carried : value ∈ (now.heap.node source).members) :
      Part request now source counterpart (.apply value)
  | matched {target : ObjectId} (requested : request = .applyTo (.object source) counterpart)
      (refers : counterpart = .object target) {value present : Value}
      (carried : value ∈ (now.heap.node source).members) (held : present ∈ (now.heap.node target).members) :
      Part request now source counterpart (.applyTo value present)

/-- A request that is made in the treatment of another one, and how the treatment goes on with the answer. -/
inductive Subrequest (setting : Setting) (request : Request) (now : World) :
    Phase → World → Request → (Value → Phase) → Prop
  | part {source : ObjectId} {counterpart : Value} {middle : World} {inner : Request}
      (part : Part request now source counterpart inner) :
      Subrequest setting request now (.busy source counterpart) middle inner (fun _ => .busy source counterpart)
  | found {source target : ObjectId} {identifier : Value} {middle : World}
      (requested : request = .apply (.object source))
      (stored : middle.store.find middle.heap (middle.heap.node source).type identifier = .ok (some target)) :
      Subrequest setting request now .opened middle (.applyTo (.object source) (.object target)) (fun _ => .settled)
  | property {merger : Merger} {done : List String} {middle : World} {property : String} {value current : Value}
      (reading : Reading setting middle merger.source merger.target merger.entity merger.metadata property value
        current) :
      Subrequest setting request now (.merging merger done) middle (.reconcile value current)
        (.taking merger done ⟨property, value, current, middle⟩)

/-- What is done about a request that is made in the first world: it has come to a phase in the last one. -/
inductive Episode (setting : Setting) : Request → Phase → World → World → Prop
  | exhausted (request : Request) (now : World) : Episode setting request (.failed .exhausted) now now
  | asked (request : Request) (now : World) : Episode setting request .opened now (note (.asked request) now).2
  | moved {request : Request} {phase next : Phase} {now middle after : World}
      (episode : Episode setting request phase now middle)
      (move : Move setting request now phase middle next after) : Episode setting request next now after
  | called {request inner : Request} {phase : Phase} {next : Value → Phase} {result : Value} {now middle after : World}
      (episode : Episode setting request phase now middle)
      (call : Subrequest setting request now phase middle inner next)
      (answered : Episode setting inner (.replied result) middle after) :
      Episode setting request (next result) now after
  | broken {request inner : Request} {phase : Phase} {next : Value → Phase} {ending : Ending}
      {now middle after : World} (episode : Episode setting request phase now middle)
      (call : Subrequest setting request now phase middle inner next)
      (failed : Episode setting inner (.failed ending) middle after) :
      Episode setting request (.failed ending) now after

section Moves

variable {setting : Setting} {request inner : Request} {phase next : Phase} {now middle after : World}

/-- A call is made in a run of the same kind. -/
theorem Subrequest.reconciling {further : Value → Phase}
    (call : Subrequest setting request now phase middle inner further)
    (reconciling : request.Reconciling) : inner.Reconciling := by
  cases call with
  | part part =>
    cases part with
    | detached detaches value => exact absurd detaches reconciling.not_detaches
    | applied => exact Request.reconciling_apply _
    | matched => exact Request.reconciling_applyTo _ _
  | found => exact Request.reconciling_applyTo _ _
  | property => exact Request.reconciling_reconcile _ _

/-- Every move keeps what every part of a run keeps. -/
theorem Move.later (move : Move setting request now phase middle next after) : middle.Later after := by
  cases move with
  | idle searching registry schema spent =>
    exact ((World.Later.dispatch middle registry).trans (.cache _ schema)).trans (.called _ spent)
  | flushed detaches kept spent => exact .stored middle kept spent
  | allocated detaches container => exact .allocate middle _
  | walked => exact .note middle _
  | pairing requested unvisited => exact .record middle unvisited _
  | rebuilding alone unvisited => exact middle.later_rebuilding unvisited
  | copied alone unvisited handled plain => exact (middle.later_rebuilding unvisited).trans (.edit _ _ nofun)
  | standing alone unvisited unhandled => exact .record middle unvisited _
  | handled | apart | refused | closed | spared | unchanged | merged | passed | missing | stopped => exact .refl _
  | merging => exact .note middle _
  | filled new fills partly supplied => exact .edit _ _ fills.ne_setOrigin
  | slotted requested handled index supplied => exact .edit _ _ nofun
  | detached detaches unhandled made => exact .edit _ _ made.ne_setOrigin
  | refilled requested handled whole loaded refills elements images made drawn lost =>
    have shed := sheds_of_discardLeftovers lost
    exact shed.later.trans (.edit _ _ refills.ne_setOrigin)
  | written changed made => exact .edit _ _ (Property.Edits.of_write made).ne_setOrigin
  | replied => exact .note middle _
  | rejected changed made => exact .edit _ _ made.ne_setOrigin
  | interrupted lost => exact (sheds_of_discardLeftovers lost).later

end Moves

namespace Episode

variable {setting : Setting} {request : Request} {phase : Phase} {now middle after : World} {source target : ObjectId}
  {counterpart : Value}

theorem later (episode : Episode setting request phase now after) : now.Later after := by
  induction episode with
  | exhausted request now => exact .refl now
  | asked request now => exact .note now _
  | moved episode move ih => exact ih.trans move.later
  | called episode call answered ih inner => exact ih.trans inner
  | broken episode call failed ih inner => exact ih.trans inner

/-- What was just asked for is looked into, and nothing else was done. -/
structure Fresh (request : Request) (now after : World) : Prop where
  heap : after.heap = now.heap
  visits : after.visits = now.visits
  journal : after.journal = .asked request :: now.journal
  store : after.store = now.store

theorem Fresh.asked_of_eq {other : Request} (fresh : Fresh request now after) (requested : request = other) :
    .asked other ∈ after.journal := by
  rw [fresh.journal, requested]
  exact List.mem_cons_self

/-- The counterpart that was asked for is recorded, and nothing else was done. -/
structure Paired (source : ObjectId) (counterpart : Value) (request : Request) (now after : World) : Prop where
  requested : request = .applyTo (.object source) counterpart
  unvisited : now.visits.get? source = none
  heap : after.heap = now.heap
  visits : after.visits = now.visits.record source counterpart
  journal : after.journal = .asked request :: now.journal
  store : after.store = now.store

/-- What an episode has come to. -/
def Reaches (request : Request) (now after : World) : Phase → Prop
  | .opened => Fresh request now after
  | .paired source counterpart => Paired source counterpart request now after
  | .busy source counterpart =>
      now.visits.get? source = none ∧ after.visits.get? source = some counterpart
  | .merging merger _ | .taking merger _ _ _ =>
      request = .applyTo (.object merger.source) (.object merger.target) ∧
        now.visits.get? merger.source = none ∧
        after.visits.get? merger.source = some (.object merger.target)
  | .replied result => .answered request result ∈ after.journal
  | .settled | .failed _ => True

/-- An episode that does not fail has noted its request. -/
theorem asked_of_ongoing (episode : Episode setting request phase now after) :
    (∃ ending, phase = .failed ending) ∨ .asked request ∈ after.journal := by
  induction episode with
  | exhausted request now => exact .inl ⟨_, rfl⟩
  | asked request now => exact .inr List.mem_cons_self
  | moved episode move ih =>
    rcases ih with ⟨ending, rfl⟩ | known
    · cases move with
      | idle searching => exact searching.elim
      | stopped fragile => exact fragile.elim
    · exact .inr (move.later.journal.subset known)
  | called episode call answered ih inner =>
    rcases ih with ⟨ending, rfl⟩ | known
    · cases call
    · exact .inr (answered.later.journal.subset known)
  | broken episode call failed ih inner => exact .inl ⟨_, rfl⟩

/-- A counterpart that was recorded stays. -/
theorem Reaches.later_of_busy (reached : Reaches request now middle (.busy source counterpart))
    (later : middle.Later after) : Reaches request now after (.busy source counterpart) :=
  ⟨reached.1, later.visits _ _ reached.2⟩

private theorem Reaches.later_of_merging {merger : Merger} (done : List String)
    (reached : Reaches request now middle (.merging merger done)) (later : middle.Later after) :
    Reaches request now after (.merging merger done) :=
  ⟨reached.1, reached.2.1, later.visits _ _ reached.2.2⟩

private theorem Reaches.move {next : Phase} (reached : Reaches request now middle phase)
    (move : Move setting request now phase middle next after) : Reaches request now after next := by
  have later := move.later
  cases move with
  | @idle phase middle searching dispatch cache outages registry schema spent =>
    cases phase with
    | opened => exact ⟨reached.heap, reached.visits, reached.journal, reached.store⟩
    | paired => exact { reached with }
    | busy => exact reached
    | _ => exact searching.elim
  | flushed | allocated | walked | filled | slotted | detached => exact reached.later_of_busy later
  | pairing requested unvisited =>
    exact ⟨requested, reached.visits ▸ unvisited, reached.heap, reached.visits ▸ rfl, reached.journal, reached.store⟩
  | rebuilding alone unvisited => exact ⟨reached.visits ▸ unvisited, World.Later.visits_record _ _ _⟩
  | standing alone unvisited unhandled => exact ⟨reached.visits ▸ unvisited, World.Later.visits_record _ _ _⟩
  | handled => exact ⟨reached.unvisited, reached.visits ▸ Visits.get?_record_self ..⟩
  | merging => exact ⟨reached.requested, reached.unvisited, reached.visits ▸ Visits.get?_record_self ..⟩
  | spared | unchanged => exact reached
  | written changed made => exact Reaches.later_of_merging _ reached later
  | replied => exact List.mem_cons_self
  | copied | apart | refused | closed | refilled | merged | passed | missing | stopped | rejected | interrupted =>
    trivial

theorem reaches (episode : Episode setting request phase now after) : Reaches request now after phase := by
  induction episode with
  | exhausted request now => trivial
  | asked request now => exact ⟨rfl, rfl, rfl, rfl⟩
  | moved episode move ih => exact ih.move move
  | called episode call answered ih inner =>
    have later := answered.later
    cases call with
    | part => exact ih.later_of_busy later
    | found => trivial
    | property => exact Reaches.later_of_merging _ ih later
  | broken => trivial

end Episode

end Reconciler
