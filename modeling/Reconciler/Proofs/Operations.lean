import Reconciler.Proofs.Attributes
import Reconciler.Proofs.Defaults
import Reconciler.Proofs.Episode.Engine
import Reconciler.Traversal.Frame

/-! # What no sequence of operations breaks

Nodes are made by constructors, changed by edits, taken in and given up by the store, and copied and refilled
by the engine, in any order and by calls that answer or fail. Sets and maps repeat nothing at any time, because
every way of filling one asks for equality first, and equality of values does not look at what an object holds:
a later change of an element never makes two elements equal. Objects keep their type and their layout, and
where they came from changes only when a store takes them in or the caller says so.
-/

namespace Reconciler

namespace Content

private theorem nodup_appended {elements : List Value} (distinct : elements.Nodup) (value : Value) :
    (appended .set elements value).Nodup := by
  unfold appended
  split
  · exact distinct
  · next new =>
    refine List.nodup_append.2 ⟨distinct, by simp, fun element listed last single => ?_⟩
    rintro rfl
    exact new ⟨rfl, List.mem_singleton.1 single ▸ listed⟩

/-- A set that is filled value by value holds each of them once. -/
theorem nodup_collected (values : List Value) : (collected .set values).Nodup := by
  have filled : ∀ {elements : List Value}, elements.Nodup → (values.foldl (appended .set) elements).Nodup := by
    induction values with
    | nil => exact fun distinct => distinct
    | cons value rest ih => exact fun distinct => ih (nodup_appended distinct value)
  exact filled List.nodup_nil

private theorem nodup_ofList (bindings : List (Value × Value)) : (OrderedMap.ofList bindings).keys.Nodup :=
  OrderedMap.keys_nodup_insertAll (show (OrderedMap.empty : OrderedMap Value Value).keys.Nodup from List.nodup_nil)
    bindings

/-- An edit of a set leaves a set. -/
theorem edited?_set {elements : List Value} (distinct : elements.Nodup) {edit : Edit} {after : Content}
    (fits : (collection .set elements).edited? edit = some after) :
    ∃ others, after = collection .set others ∧ others.Nodup := by
  cases edit with
  | setItems values =>
    cases fits
    exact ⟨_, rfl, nodup_collected values⟩
  | append value =>
    obtain ⟨new, fits⟩ := Option.ite_none_left_eq_some.1 fits
    have appended := nodup_appended distinct value
    rw [Content.appended, if_neg new] at appended
    exact ⟨_, (Option.some.inj fits).symm, appended⟩
  | setOrigin =>
    cases fits
    exact ⟨_, rfl, distinct⟩
  | _ => cases fits

/-- An edit of a map leaves a map. -/
theorem edited?_map {bindings : OrderedMap Value Value} (distinct : bindings.keys.Nodup) {edit : Edit}
    {after : Content} (fits : (map bindings).edited? edit = some after) :
    ∃ others, after = map others ∧ others.keys.Nodup := by
  cases edit with
  | setBindings entries =>
    cases fits
    exact ⟨_, rfl, nodup_ofList entries⟩
  | bind key value =>
    cases fits
    exact ⟨_, rfl, OrderedMap.keys_nodup_insert distinct key value⟩
  | setOrigin =>
    cases fits
    exact ⟨_, rfl, distinct⟩
  | _ => cases fits

end Content

namespace Node

/-- Only sets and maps can repeat something. -/
theorem distinct_of_layout {node : Node} (noSet : node.layout ≠ .set) (noMap : node.layout ≠ .map) :
    node.Distinct := by
  rcases node with ⟨type, origin, content⟩
  rcases content with _ | _ | ⟨_ | _, _⟩ | _ | _
  case collection.set => exact absurd rfl noSet
  case map => exact absurd rfl noMap
  all_goals trivial

private theorem Distinct.edited {node : Node} (distinct : node.Distinct) (edit : Edit) :
    (node.edited edit).Distinct := by
  rcases fits : node.content.edited? edit with _ | after
  · rwa [edited_of_unfit fits]
  rcases node with ⟨type, origin, content⟩
  have edited := content_edited fits
  -- A set is still a set and a map still a map; nothing else can repeat anything.
  rcases content with _ | _ | ⟨_ | _, _⟩ | _ | _
  case collection.set elements =>
    obtain ⟨others, rfl, kept⟩ := Content.edited?_set distinct fits
    rwa [Distinct, edited]
  case map bindings =>
    obtain ⟨others, rfl, kept⟩ := Content.edited?_map distinct fits
    rwa [Distinct, edited]
  all_goals
    apply distinct_of_layout <;> rw [layout_edited] <;> simp [layout, Content.layout, CollectionKind.layout]

namespace WellFormed

/-- The type of an array follows from its layout. -/
theorem of_layout {node : Node} (distinct : node.Distinct)
    (type : ∀ component, node.layout = .array component → node.type = .arrayOf component) : node.WellFormed :=
  ⟨distinct, fun component slots content => type component (Content.layout_eq_array_iff.2 ⟨slots, content⟩)⟩

private theorem type_eq {node : Node} (wellFormed : node.WellFormed) {component : TypeName}
    (array : node.layout = .array component) : node.type = .arrayOf component := by
  obtain ⟨slots, content⟩ := Content.layout_eq_array_iff.1 array
  exact wellFormed.2 component slots content

/-- Every edit keeps a node well-formed. -/
theorem edited {node : Node} (wellFormed : node.WellFormed) (edit : Edit) : (node.edited edit).WellFormed := by
  refine of_layout (wellFormed.1.edited edit) fun component array => ?_
  rw [layout_edited] at array
  rw [type_edited]
  exact wellFormed.type_eq array

/-- An empty node repeats nothing. -/
theorem emptyLike {node : Node} (wellFormed : node.WellFormed) : node.emptyLike.WellFormed := by
  refine of_layout ?_ fun component array => ?_
  · rcases node with ⟨type, origin, content⟩
    rcases content with _ | _ | ⟨_ | _, _⟩ | _ | _
    case collection.set => exact List.nodup_nil
    case map => exact List.nodup_nil
    all_goals trivial
  · rw [layout_emptyLike] at array
    exact wellFormed.type_eq array

private theorem collection (type : TypeName) (kind : CollectionKind) (values : List Value) :
    (Node.collection type kind values).WellFormed := by
  refine of_layout ?_ fun component array => ?_
  · cases kind with
    | list => trivial
    | set => exact Content.nodup_collected values
  · cases kind <;> cases array

private theorem map (bindings : List (Value × Value)) : (Node.map bindings).WellFormed :=
  of_layout (Content.nodup_ofList bindings) nofun

private theorem array (component : TypeName) (slots : List Value) : (Node.array component slots).WellFormed :=
  of_layout trivial fun _ same => congrArg TypeName.arrayOf (Layout.array.inj same)

end WellFormed

end Node

/-- How a node is made. Lists and sets are collections of the built-in types. -/
inductive Recipe where
  | bean (type : TypeName) (attributes : List (String × Value))
  | collection (type : TypeName) (kind : CollectionKind) (values : List Value)
  | map (bindings : List (Value × Value))
  | array (component : TypeName) (slots : List Value)
  | sealed (type : TypeName)
  | placeholder (type : TypeName)
  | lazyCollection (kind : CollectionKind)
  | lazyMap
  /-- What an object holds at the moment. -/
  | copy (id : ObjectId)
  | emptyLike (recipe : Recipe)
  /-- A node is edited before it is allocated, or gets another origin. -/
  | edited (recipe : Recipe) (edit : Edit)
deriving Repr, Inhabited

def Recipe.node (heap : Heap) : Recipe → Node
  | bean type attributes => .bean type attributes
  | collection type kind values => .collection type kind values
  | map bindings => .map bindings
  | array component slots => .array component slots
  | sealed type => .sealed type
  | placeholder type => .placeholder type
  | lazyCollection kind => .lazyCollection kind
  | lazyMap => .lazyMap
  | copy id => heap.node id
  | emptyLike recipe => (recipe.node heap).emptyLike
  | edited recipe edit => (recipe.node heap).edited edit

/-- What a caller may ask of the engine. -/
inductive Call where
  /-- A traversal of its own. -/
  | traverse (request : Request)
  /-- A request in the traversal that the last call left. -/
  | resume (request : Request)
  | applyWith (detached : Value) (lookUp : EntityStore → Heap → Except StoreError Value)
  | rebuild (handler : Handler) (request : Value → Request) (value : Value)
  | merge (handler : Handler) (detached authoritative : Value)
  | createEmpty (handler : Handler) (template : Value)

def Call.action (setting : Setting) : Call → Action Value
  | traverse request => setting.runFresh request
  | resume request => setting.run request
  | applyWith detached lookUp => setting.applyWith detached lookUp
  | rebuild handler request value => setting.rebuildWith handler request value
  | merge handler detached authoritative => setting.mergeWith handler detached authoritative
  | createEmpty handler template => handler.createEmpty template

/-- What can be done to a world. What only looks at it is left out. -/
inductive Operation where
  | create (recipe : Recipe)
  | edit (target : ObjectId) (change : Edit)
  | register (entity : Entity)
  | persist (id : ObjectId)
  | remove (id : ObjectId)
  | flush
  /-- Go on with another store, with other registrations or with another cache. -/
  | equip (store : EntityStore) (outages : Outages) (dispatch : Handler.Dispatch) (cache : MetadataCache)
  | call (setting : Setting) (call : Call)

namespace Operation

/-- The world after an operation. What a failing operation did before it failed stays done. -/
def perform (world : World) : Operation → World
  | create recipe => { world with heap := world.heap.allocate (recipe.node world.heap) }
  | edit target change => { world with heap := world.heap.edit target change }
  | register entity => { world with store := world.store.register entity }
  | persist id =>
      match world.store.persist world.heap id with
      | .ok (store, heap) => { world with store, heap }
      | .error _ => world
  | remove id => ((Action.changeStore .remove fun store heap => store.remove heap id) world).2
  | flush => ((Action.changeStore .flush fun store _ => store.flush) world).2
  | equip store outages dispatch cache => { world with store, outages, dispatch, cache }
  | call setting asked => (asked.action setting world).2

def performAll (world : World) (operations : List Operation) : World := operations.foldl perform world

/-- The object whose origin an operation may change: one that is persisted, or that gets an origin from the
caller. -/
def rehomed? : Operation → Option ObjectId
  | persist id => some id
  | edit target (.setOrigin _) => some target
  | _ => none

end Operation

/-- All objects are well-formed. -/
def Heap.WellFormed (heap : Heap) : Prop := ∀ id, (heap.node id).WellFormed

namespace Heap.WellFormed

private theorem empty : (Heap.mk #[]).WellFormed := fun _ => .of_layout trivial nofun

private theorem allocate {heap : Heap} (wellFormed : heap.WellFormed) {node : Node} (new : node.WellFormed) :
    (heap.allocate node).WellFormed := by
  intro id
  rw [node_allocate]
  split
  · exact new
  · exact wellFormed id

private theorem edit {heap : Heap} (wellFormed : heap.WellFormed) (target : ObjectId) (change : Edit) :
    (heap.edit target change).WellFormed := by
  intro id
  rw [node_edit]
  split
  · exact (wellFormed id).edited change
  · exact wellFormed id

private theorem frame : Frame (fun before after => before.heap.WellFormed → after.heap.WellFormed) where
  refl _ wellFormed := wellFormed
  trans before after wellFormed := after (before wellFormed)
  note _ _ wellFormed := wellFormed
  changeStore _ _ wellFormed := wellFormed
  called _ _ wellFormed := wellFormed
  allocateLike _ id wellFormed := wellFormed.allocate (wellFormed id).emptyLike
  edit _ target change _ wellFormed := wellFormed.edit target change
  record _ _ _ wellFormed := wellFormed
  dispatch _ _ wellFormed := wellFormed
  cache _ _ wellFormed := wellFormed

end Heap.WellFormed

/-- Constructors make well-formed nodes. -/
theorem Recipe.wellFormed {heap : Heap} (wellFormed : heap.WellFormed) (recipe : Recipe) :
    (recipe.node heap).WellFormed := by
  induction recipe with
  | bean type attributes => exact .of_layout trivial nofun
  | collection type kind values => exact .collection type kind values
  | map bindings => exact .map bindings
  | array component slots => exact .array component slots
  | sealed type => exact .of_layout trivial nofun
  | placeholder type => exact .of_layout trivial nofun
  | lazyCollection kind => exact (Node.WellFormed.collection kind.typeName kind []).edited (.setOrigin _)
  | lazyMap => exact (Node.WellFormed.map []).edited (.setOrigin _)
  | copy id => exact wellFormed id
  | emptyLike recipe ih => exact ih.emptyLike
  | edited recipe edit ih => exact ih.edited edit

namespace Frame

variable {related : World → World → Prop} (frame : Frame related)

include frame

private theorem keeps_createEmpty (handler : Handler) (template : Value) :
    (handler.createEmpty template).Keeps related := by
  unfold Handler.createEmpty
  split
  · exact frame.keeps_pure _
  · exact frame.keeps_allocateLike _ fun _ _ => frame.keeps_pure _
  · exact frame.keeps_allocateLike _ fun _ _ => frame.keeps_pure _
  · exact frame.keeps_allocateLike _ fun _ _ => frame.keeps_pure _
  · exact frame.keeps_pure _

section Runs

variable {setting : Setting} {request : Request} {phase next : Phase} {now middle after : World}

private theorem keeps_lost {container : ObjectId} {kept leftovers : List Value} {outcome : Except Ending Unit}
    (lost : discardLeftovers setting container kept leftovers middle = (outcome, after)) : related middle after := by
  have kept := frame.keeps_discardLeftovers setting container kept leftovers middle
  rwa [lost] at kept

private theorem keeps_rebuilding (world : World) (source : ObjectId) : related world (world.rebuilding source) :=
  frame.trans (frame.allocateLike world source) (frame.trans (frame.record _ source _) (frame.note _ _))

/-- What every change keeps, a step of the engine keeps. -/
private theorem keeps_move (move : Move setting request now phase middle next after) : related middle after := by
  cases move with
  | @idle phase middle searching dispatch cache outages registry schema spent =>
    exact frame.trans (frame.dispatch middle dispatch) (frame.trans (frame.cache _ cache) (frame.called _ outages))
  | @flushed source counterpart middle detaches store outages kept spent =>
    exact frame.trans (frame.changeStore middle store) (frame.called _ outages)
  | allocated => exact frame.allocateLike middle _
  | walked | merging | replied => exact frame.note middle _
  | pairing | standing => exact frame.record middle _ _
  | rebuilding => exact frame.keeps_rebuilding middle _
  | copied => exact frame.trans (frame.keeps_rebuilding middle _) (frame.edit _ _ _ nofun)
  | handled | apart | refused | closed | spared | unchanged | merged | passed | missing | stopped =>
    exact frame.refl _
  | filled new fills partly supplied => exact frame.edit middle _ _ fills.ne_setOrigin
  | slotted => exact frame.edit middle _ _ nofun
  | detached detaches unhandled made => exact frame.edit middle _ _ made.ne_setOrigin
  | refilled requested handled whole loaded refills elements images made drawn lost =>
    exact frame.trans (frame.keeps_lost lost) (frame.edit _ _ _ refills.ne_setOrigin)
  | written changed made => exact frame.edit middle _ _ (Property.Edits.of_write made).ne_setOrigin
  | rejected changed made => exact frame.edit middle _ _ made.ne_setOrigin
  | interrupted lost => exact frame.keeps_lost lost

/-- What every change keeps, an episode keeps, and so a run does, whether it answers or fails. -/
private theorem keeps_episode (episode : Episode setting request phase now after) : related now after := by
  induction episode with
  | exhausted request now => exact frame.refl now
  | asked request now => exact frame.note now _
  | moved episode move ih => exact frame.trans ih (frame.keeps_move move)
  | called episode call answered ih inner => exact frame.trans ih inner
  | broken episode call failed ih inner => exact frame.trans ih inner

theorem keeps_run (setting : Setting) (request : Request) : (setting.run request).Keeps related := by
  intro world
  have ensures := setting.run_episode request world
  rcases ended : setting.run request world with ⟨ending | result, after⟩
  · exact frame.keeps_episode (ensures.ended ending after ended)
  · exact frame.keeps_episode (ensures.answered result after ended)

end Runs

section Calls

variable (rested : ∀ world, related world world.rested)

include rested

private theorem keeps_runFresh (setting : Setting) (request : Request) : (setting.runFresh request).Keeps related :=
  fun world => frame.trans (rested world) (frame.keeps_run setting request world.rested)

/-- What every change keeps, a call keeps, also one that fails. -/
theorem keeps_call (setting : Setting) (call : Call) : (call.action setting).Keeps related := by
  cases call with
  | traverse request => exact frame.keeps_runFresh rested setting request
  | resume request => exact frame.keeps_run setting request
  | applyWith detached lookUp =>
    simp only [Call.action, Setting.applyWith]
    split
    · exact frame.keeps_runFresh rested setting _
    · exact frame.keeps_bind (frame.keeps_askStore _) fun _ => frame.keeps_runFresh rested setting _
  | rebuild handler request value =>
    exact frame.keeps_rebuildValue (fun part => frame.keeps_run setting _) handler value
  | merge handler detached authoritative =>
    exact frame.keeps_mergeValue (frame.keeps_run setting) handler detached authoritative
  | createEmpty handler template => exact frame.keeps_createEmpty handler template

end Calls

end Frame

namespace Operation

/-- No operation gives up an object, changes its type or lays it out anew, and only those that are about the
origin of an object change it. -/
theorem perform_retains (world : World) (operation : Operation) :
    world.heap.Retains operation.rehomed? (operation.perform world).heap := by
  cases operation with
  | create recipe => exact .allocate world.heap _
  | edit target change =>
    cases change with
    | setOrigin origin => exact .edit world.heap target (.inr rfl)
    | _ => exact .edit world.heap target (.inl nofun)
  | register entity => exact .refl none world.heap
  | persist id =>
    rcases run : world.store.persist world.heap id with error | ⟨store, changed⟩
    · simp only [perform, run]
      exact .refl _ world.heap
    · simp only [perform, run]
      rw [(EntityStore.persist_eq run).2]
      exact .edit world.heap id (.inr rfl)
  | remove id => exact Heap.Retains.frame.keeps_changeStore _ _ world
  | flush => exact Heap.Retains.frame.keeps_changeStore _ _ world
  | equip store outages dispatch cache => exact .refl none world.heap
  | call setting asked => exact Heap.Retains.frame.keeps_call (fun world => .refl none world.heap) setting asked world

private theorem perform_wellFormed {world : World} (wellFormed : world.heap.WellFormed) (operation : Operation) :
    (operation.perform world).heap.WellFormed := by
  cases operation with
  | create recipe => exact wellFormed.allocate (recipe.wellFormed wellFormed)
  | edit target change => exact wellFormed.edit target change
  | register entity => exact wellFormed
  | persist id =>
    rcases run : world.store.persist world.heap id with error | ⟨store, changed⟩
    · simpa only [perform, run] using wellFormed
    · simp only [perform, run]
      rw [(EntityStore.persist_eq run).2]
      exact wellFormed.edit id _
  | remove id => exact Heap.WellFormed.frame.keeps_changeStore _ _ world wellFormed
  | flush => exact Heap.WellFormed.frame.keeps_changeStore _ _ world wellFormed
  | equip store outages dispatch cache => exact wellFormed
  | call setting asked => exact Heap.WellFormed.frame.keeps_call (fun _ kept => kept) setting asked world wellFormed

private theorem performAll_wellFormed {world : World} (wellFormed : world.heap.WellFormed)
    (operations : List Operation) :
    (performAll world operations).heap.WellFormed := by
  induction operations generalizing world with
  | nil => exact wellFormed
  | cons operation rest ih => exact ih (perform_wellFormed wellFormed operation)

/-- After any operations on an empty heap the elements of every set are different, the keys of every map are
different and the type of every array is that of its slots, and the next operation, whatever it is, leaves
every object its type and its layout, and its origin unless it is about the origin of this object. -/
theorem history_invariants (start : World) (history : List Operation) (operation : Operation) :
    let world := performAll { start with heap := {} } history
    (∀ id elements, (world.heap.node id).content = .collection .set elements → elements.Nodup) ∧
      (∀ id bindings, (world.heap.node id).content = .map bindings → bindings.keys.Nodup) ∧
      (∀ id component slots, (world.heap.node id).content = .array component slots →
        (world.heap.node id).type = .arrayOf component) ∧
      world.heap.Retains operation.rehomed? (operation.perform world).heap := by
  intro world
  have wellFormed : world.heap.WellFormed := performAll_wellFormed Heap.WellFormed.empty history
  refine ⟨?_, ?_, fun id => (wellFormed id).2, perform_retains world operation⟩
  · intro id elements content
    have distinct := (wellFormed id).1
    rwa [Node.Distinct, content] at distinct
  · intro id bindings content
    have distinct := (wellFormed id).1
    rwa [Node.Distinct, content] at distinct

end Operation

namespace Tags

def tag : Recipe := .bean ⟨"Tag"⟩ [("name", .text "new")]

/-- A set of two tags that become equal in all that they hold. -/
def history : List Operation := [
  .create tag, .create tag, .create (.collection .set .set [.object ⟨0⟩, .object ⟨1⟩, .object ⟨0⟩]),
  .edit ⟨0⟩ (.setAttribute "name" (.text "old")), .edit ⟨1⟩ (.setAttribute "name" (.text "old")),
  .edit ⟨2⟩ (.append (.object ⟨1⟩)), .register { type := ⟨"Tag"⟩, idProperty := "id" }]

def world : World := Operation.performAll { (default : World) with heap := {} } history

def setting : Setting := { schema := {} }

/-- Two equal tags stay two elements. They have no identifiers, so a call that applies one fails, and leaves all
objects what they are. -/
theorem stay_apart :
    (world.heap.node ⟨0⟩).content = (world.heap.node ⟨1⟩).content ∧
      (world.heap.node ⟨2⟩).content = .collection .set [.object ⟨0⟩, .object ⟨1⟩] ∧
      [Value.object ⟨0⟩, Value.object ⟨1⟩].Nodup ∧
      (setting.apply (.object ⟨0⟩) world).1 = .error (.failed (.unsavedTransient ⟨"Tag"⟩)) ∧
      world.heap.Retains none (setting.apply (.object ⟨0⟩) world).2.heap := by
  have same : (world.heap.node ⟨0⟩).content = (world.heap.node ⟨1⟩).content := by decide
  have content : (world.heap.node ⟨2⟩).content = .collection .set [.object ⟨0⟩, .object ⟨1⟩] := by decide
  have refused : (setting.apply (.object ⟨0⟩) world).1 = .error (.failed (.unsavedTransient ⟨"Tag"⟩)) := by
    decide +kernel
  have ⟨sets, _, _, kept⟩ :=
    Operation.history_invariants default history (.call setting (.traverse (.apply (.object ⟨0⟩))))
  exact ⟨same, content, sets ⟨2⟩ _ content, refused, kept⟩

end Tags

end Reconciler
