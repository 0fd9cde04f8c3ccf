import Reconciler.Traversal.World

/-! # Actions

An action changes the world and answers, or ends without an answer. Whatever it did before it ended
stays done. Running out of fuel is an ending of its own and never an error of the domain.
-/

namespace Reconciler

/-- Why there is no answer. -/
inductive Ending where
  | failed (error : ReconcileError)
  | exhausted
deriving DecidableEq, Repr, Inhabited

/-- A computation on the world. -/
def Action (α : Type) : Type := World → Except Ending α × World

namespace Action

variable {α β : Type}

protected def pure (answer : α) : Action α := fun world => (.ok answer, world)

/-- The second action starts in the world that the first one leaves, if the first one answers. -/
protected def bind (first : Action α) (next : α → Action β) : Action β := fun world =>
  match first world with
  | (.ok answer, world) => next answer world
  | (.error ending, world) => (.error ending, world)

instance : Monad Action where
  pure := Action.pure
  bind := Action.bind

@[simp] theorem pure_apply (answer : α) (world : World) :
    (pure answer : Action α) world = (.ok answer, world) := rfl

theorem bind_apply (first : Action α) (next : α → Action β) (world : World) :
    (first >>= next) world =
      match first world with
      | (.ok answer, world) => next answer world
      | (.error ending, world) => (.error ending, world) := rfl

theorem bind_of_ok {first : Action α} {next : α → Action β} {world after : World} {answer : α}
    (run : first world = (.ok answer, after)) : (first >>= next) world = next answer after := by
  rw [bind_apply, run]

theorem bind_of_error {first : Action α} {next : α → Action β} {world after : World}
    {ending : Ending} (run : first world = (.error ending, after)) :
    (first >>= next) world = (.error ending, after) := by
  rw [bind_apply, run]

theorem map_id (action : Action α) : id <$> action = action := by
  funext world
  show (match action world with
    | (.ok answer, world) => (Except.ok answer, world)
    | (.error ending, world) => (.error ending, world)) = action world
  rcases action world with ⟨_ | _, _⟩ <;> rfl

theorem bind_bind {γ : Type} (first : Action α) (second : α → Action β) (third : β → Action γ) :
    first >>= second >>= third = first >>= fun answer => second answer >>= third := by
  funext world
  simp only [bind_apply]
  rcases first world with ⟨_ | _, _⟩ <;> rfl

instance : LawfulMonad Action := .mk' Action map_id (fun _ _ => rfl) bind_bind

/-- End without an answer. -/
def stop (ending : Ending) : Action α := fun world => (.error ending, world)

def fail (error : ReconcileError) : Action α := stop (.failed error)

/-- Look at the world. -/
def look (view : World → α) : Action α := fun world => (.ok (view world), world)

/-- Change the world. -/
def change (update : World → World) : Action Unit := fun world => (.ok (), update world)

def note (event : Event) : Action Unit :=
  change (fun world => { world with journal := event :: world.journal })

/-- Ask the store, in any number of calls; its errors end the traversal. -/
def askStore (query : EntityStore → Heap → Outages → Except StoreError α × Outages) : Action α :=
  fun world =>
    match query world.store world.heap world.outages with
    | (.ok answer, outages) => (.ok answer, { world with outages })
    | (.error error, outages) => (.error (.failed (.store error)), { world with outages })

/-- Look into the store without a call; what is found there may be an error. -/
def consult (query : EntityStore → Heap → Except StoreError α) : Action α :=
  askStore (fun store heap outages => (query store heap, outages))

theorem consult_of_ok {query : EntityStore → Heap → Except StoreError α} {world : World} {answer : α}
    (found : query world.store world.heap = .ok answer) : consult query world = (.ok answer, world) := by
  rw [consult, askStore, found]

theorem consult_of_error {query : EntityStore → Heap → Except StoreError α} {world : World} {error : StoreError}
    (found : query world.store world.heap = .error error) :
    consult query world = (.error (.failed (.store error)), world) := by
  rw [consult, askStore, found]

/-- Call an operation of the store. -/
def callStore (operation : StoreOperation) (outcome : EntityStore → Heap → Except StoreError α) :
    Action α :=
  askStore (fun store heap => EntityStore.call operation (outcome store heap))

/-- Call an operation that changes the store. -/
def changeStore (operation : StoreOperation)
    (update : EntityStore → Heap → Except StoreError EntityStore) : Action Unit := do
  let store ← callStore operation update
  change (fun world => { world with store })

def nodeOf (id : ObjectId) : Action Node := look (fun world => world.heap.node id)

def allocate (node : Node) : Action ObjectId := fun world =>
  (.ok world.heap.fresh, { world with heap := world.heap.allocate node })

def edit (target : ObjectId) (edit : Edit) : Action Unit :=
  change (fun world => { world with
    heap := world.heap.edit target edit
    journal := .edited target edit :: world.journal })

def record (source : ObjectId) (target : Value) : Action Unit :=
  change (fun world => { world with visits := world.visits.record source target })

/-- The counterpart recorded for a value, if it is a visited object. -/
def visited? (value : Value) : Action (Option Value) :=
  look (fun world => value.object?.bind world.visits.get?)

/-- The handler of a value, remembered. -/
def handlerOf (value : Value) : Action (Option Handler) := fun world =>
  let (handler?, dispatch) := world.dispatch.forValue world.heap value
  (.ok handler?, { world with dispatch })

/-- The metadata of an object: that of the setting for its type, else that of the cache. -/
def metadataOf (setting : Setting) (id : ObjectId) : Action (Option Metadata) := fun world =>
  match setting.overrides.get? (world.heap.node id).type with
  | some metadata => (.ok (some metadata), world)
  | none =>
      let (metadata?, cache) := world.cache.forNode (world.heap.node id)
      (.ok metadata?, { world with cache })

def readProperty (metadata : Metadata) (id : ObjectId) (property : String) : Action Value :=
  fun world =>
    match Property.read world.heap metadata id property with
    | .ok value => (.ok value, world)
    | .error error => (.error (.failed (.access error)), world)

def writeProperty (metadata : Metadata) (id : ObjectId) (property : String) (value : Value) :
    Action Unit := do
  match ← look (fun world => Property.attempt world.heap metadata id property value) with
  | .error error => fail (.access error)
  | .ok (change, refusal?) =>
    edit id change
    match refusal? with
    | none => pure ()
    | some error => fail (.access error)

end Action

end Reconciler
