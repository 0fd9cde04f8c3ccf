import Reconciler.Proofs.Attributes
import Reconciler.Proofs.Defaults
import Reconciler.Traversal.Action

/-! # Actions that answer

`Answers` says that an action does answer, and what holds of the answer and of the world that it leaves.
There is a rule for sequencing, one for loops, whose invariant speaks of the items that are done, and one
for each look-up: what a run finds out about an object depends on the object alone.
-/

namespace Reconciler

/-- The handler that a run uses for an object. -/
def World.handler? (world : World) (id : ObjectId) : Option Handler :=
  world.dispatch.registry.ofValue world.heap (.object id)

/-- The handler of an object depends on its type and its shape. -/
theorem World.handler?_of_same {one other : World} {id : ObjectId}
    (registry : one.dispatch.registry = other.dispatch.registry)
    (type : (one.heap.node id).type = (other.heap.node id).type)
    (shape : (one.heap.node id).shape? = (other.heap.node id).shape?) : one.handler? id = other.handler? id := by
  rw [handler?, handler?, registry]
  exact other.dispatch.registry.ofValue_of_same type shape

/-- A new empty object has the handler of the one that it is like. -/
theorem World.handler?_fresh (world : World) (source : ObjectId) :
    (Action.allocate (world.heap.node source).emptyLike world).2.handler? world.heap.fresh =
      world.handler? source := by
  have made := world.heap.node_fresh (world.heap.node source).emptyLike
  apply world.dispatch.registry.ofValue_of_same
  · exact (congrArg Node.type made).trans rfl
  · exact (congrArg Node.shape? made).trans (Node.shape?_emptyLike _)

/-- The metadata that a run uses for an object. -/
def World.metadata? (setting : Setting) (world : World) (id : ObjectId) : Option Metadata :=
  (setting.overrides.get? (world.heap.node id).type).or
    ((world.cache.schema.metadata? (world.heap.node id).type).or
      (if (world.heap.node id).isBean then some (.introspect (world.heap.node id)) else none))

/-- If the schema declares raw attributes only, a run uses no other metadata. -/
theorem World.allFields_of_metadata? {setting : Setting} {world : World} (own : setting.overrides = .empty)
    (fields : world.cache.schema.AllFields) {id : ObjectId} {metadata : Metadata}
    (known : world.metadata? setting id = some metadata) : metadata.AllFields := by
  rw [metadata?, own, OrderedMap.get?_empty, Option.none_or] at known
  rcases found : world.cache.schema.metadata? (world.heap.node id).type with _ | inherited
  · rw [found, Option.none_or] at known
    obtain rfl := Option.some.inj (Option.ite_none_right_eq_some.1 known).2
    exact Metadata.allFields_introspect _
  · rw [found, Option.some_or] at known
    obtain rfl := Option.some.inj known
    exact fields.metadata? found

namespace Action

variable {α β : Type}

/-- The action answers, with `post` true of the answer and of the world after it. -/
def Answers (action : Action α) (world : World) (post : α → World → Prop) : Prop :=
  ∃ answer after, action world = (.ok answer, after) ∧ post answer after

variable {world : World} {post : α → World → Prop}

theorem answers_pure {answer : α} (holds : post answer world) :
    (pure answer : Action α).Answers world post :=
  ⟨answer, world, rfl, holds⟩

theorem Answers.weaken {action : Action α} (answers : action.Answers world post)
    {weaker : α → World → Prop} (weaken : ∀ answer after, post answer after → weaker answer after) :
    action.Answers world weaker := by
  obtain ⟨answer, after, run, holds⟩ := answers
  exact ⟨answer, after, run, weaken answer after holds⟩

theorem Answers.bind {first : Action α} {next : α → Action β} {goal : β → World → Prop}
    (answers : first.Answers world post)
    (rest : ∀ answer after, post answer after → (next answer).Answers after goal) :
    (first >>= next).Answers world goal := by
  obtain ⟨answer, middle, run, holds⟩ := answers
  obtain ⟨result, after, run', reached⟩ := rest answer middle holds
  exact ⟨result, after, (bind_of_ok run).trans run', reached⟩

/-- An action whose outcome is known, and what follows it. -/
theorem answers_bind_of_eq {first : Action β} {next : β → Action α} {answer : β} {middle : World}
    (run : first world = (.ok answer, middle)) (rest : (next answer).Answers middle post) :
    (first >>= next).Answers world post := by
  obtain ⟨result, after, run', holds⟩ := rest
  exact ⟨result, after, (bind_of_ok run).trans run', holds⟩

theorem answers_look_bind {view : World → β} {next : β → Action α}
    (rest : (next (view world)).Answers world post) : (look view >>= next).Answers world post :=
  rest

/-- A loop keeps an invariant of the items that are done. -/
theorem answers_forM {items : List α} {body : α → Action PUnit} (invariant : List α → World → Prop)
    (start : invariant [] world)
    (step : ∀ done item rest, items = done ++ item :: rest → ∀ middle, invariant done middle →
      (body item).Answers middle (fun _ after => invariant (done ++ [item]) after)) :
    (items.forM body).Answers world (fun _ after => invariant items after) := by
  have tail : ∀ rest done middle, items = done ++ rest → invariant done middle →
      (rest.forM body).Answers middle (fun _ after => invariant items after) := by
    intro rest
    induction rest with
    | nil =>
      intro done middle split holds
      rw [List.append_nil] at split
      exact answers_pure (split ▸ holds)
    | cons item rest ih =>
      intro done middle split holds
      refine (step done item rest split middle holds).bind fun _ after kept => ?_
      exact ih (done ++ [item]) after (by rw [split, List.append_assoc, List.singleton_append]) kept
  exact tail items [] world rfl start

/-- The items that are done say which one is next. -/
theorem zipIdx_eq_append {α : Type} {items : List α} {done rest : List (α × Nat)} {item : α} {index : Nat}
    (split : items.zipIdx = done ++ (item, index) :: rest) :
    index = done.length ∧ items[done.length]? = some item ∧
      items.length = done.length + (rest.length + 1) := by
  have length := congrArg List.length split
  rw [List.length_zipIdx, List.length_append, List.length_cons] at length
  have here : items.zipIdx[done.length]? = some (item, index) := by
    rw [split, List.getElem?_append_right (Nat.le_refl _), Nat.sub_self]
    rfl
  rw [List.getElem?_zipIdx, Option.map_eq_some_iff] at here
  obtain ⟨_, known, same⟩ := here
  obtain ⟨rfl, rfl⟩ := Prod.mk.inj same
  exact ⟨Nat.zero_add _, known, length⟩

theorem askStore_of_ok {query : EntityStore → Heap → Outages → Except StoreError α × Outages} {answer : α}
    (found : query world.store world.heap world.outages = (.ok answer, world.outages)) :
    askStore query world = (.ok answer, world) := by
  rw [askStore, found]

theorem callStore_of_ok {operation : StoreOperation} {outcome : EntityStore → Heap → Except StoreError α} {answer : α}
    (sound : world.outages operation = []) (found : outcome world.store world.heap = .ok answer) :
    callStore operation outcome world = (.ok answer, world) :=
  askStore_of_ok (by rw [EntityStore.call_of_nil sound, found])

theorem changeStore_of_ok {operation : StoreOperation} {update : EntityStore → Heap → Except StoreError EntityStore}
    {store : EntityStore} (sound : world.outages operation = []) (changed : update world.store world.heap = .ok store) :
    changeStore operation update world = (.ok (), { world with store }) :=
  bind_of_ok (callStore_of_ok sound changed)

/-- The store answers a query without a change. -/
theorem answers_askStore {query : EntityStore → Heap → Outages → Except StoreError α × Outages} {answer : α}
    (found : query world.store world.heap world.outages = (.ok answer, world.outages)) (holds : post answer world) :
    (askStore query).Answers world post :=
  ⟨answer, world, askStore_of_ok found, holds⟩

/-- A call that does not fail answers without a change. -/
theorem answers_callStore {operation : StoreOperation} {outcome : EntityStore → Heap → Except StoreError α}
    {answer : α} (sound : world.outages operation = []) (found : outcome world.store world.heap = .ok answer)
    (holds : post answer world) : (callStore operation outcome).Answers world post :=
  ⟨answer, world, callStore_of_ok sound found, holds⟩

/-- Looking up a handler only remembers the answer. -/
theorem answers_handlerOf (value : Value) :
    (handlerOf value).Answers world (fun handler? after =>
      handler? = world.dispatch.registry.ofValue world.heap value ∧
        ∃ dispatch, dispatch.registry = world.dispatch.registry ∧ after = { world with dispatch }) :=
  ⟨_, _, rfl, world.dispatch.forValue_fst world.heap value, _,
    world.dispatch.registry_forValue world.heap value, rfl⟩

/-- Looking up metadata only remembers the answer. -/
theorem answers_metadataOf (setting : Setting) (id : ObjectId) :
    (metadataOf setting id).Answers world (fun metadata? after =>
      metadata? = world.metadata? setting id ∧
        ∃ cache, cache.schema = world.cache.schema ∧ after = { world with cache }) := by
  have answer := world.cache.forNode_fst (world.heap.node id)
  have same := world.cache.schema_forNode (world.heap.node id)
  unfold metadataOf World.metadata?
  rcases replaced : setting.overrides.get? (world.heap.node id).type with _ | override
  · simp only [Answers, replaced, Option.none_or, ← answer]
    exact ⟨_, _, rfl, rfl, _, same, rfl⟩
  · simp only [Answers, replaced, Option.some_or]
    exact ⟨_, _, rfl, rfl, world.cache, rfl, rfl⟩

/-- A raw attribute can be read. -/
theorem answers_readProperty_bind {next : Value → Action α} {metadata : Metadata} {id : ObjectId}
    {property : String} (declared : metadata.access? property = some .field)
    (bean : (world.heap.node id).isBean = true)
    (rest : (next ((world.heap.node id).attr property)).Answers world post) :
    (readProperty metadata id property >>= next).Answers world post := by
  exact answers_bind_of_eq (by rw [readProperty, Property.read_field declared bean]) rest

/-- A raw attribute can be written. -/
theorem answers_writeProperty {post : Unit → World → Prop} {metadata : Metadata} {id : ObjectId}
    {property : String} {value : Value} (declared : metadata.access? property = some .field)
    (bean : (world.heap.node id).isBean = true)
    (edits : (edit id (.setAttribute property value)).Answers world post) :
    (writeProperty metadata id property value).Answers world post := by
  apply answers_look_bind
  rw [Property.attempt_field declared bean]
  exact edits.bind fun _ _ => answers_pure

end Action

end Reconciler
