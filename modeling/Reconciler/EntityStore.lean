import Reconciler.Heap

/-! # The entity store

The store knows which types are entities, by which attribute each is identified and which attribute,
if any, counts its versions. It holds entities by identity, in the order in which they were taken in,
and remembers what was removed and how often it was flushed. Any of the operations that reach the
backend may be set to fail for good, and any single call of one may fail on its own; a call that fails
does nothing else.
-/

namespace Reconciler

inductive StoreError where
  | unmanagedType (type : TypeName)
  | notAnEntity (found : String)
  | missingIdentifier (type : TypeName)
  | backend (detail : String)
deriving DecidableEq, Repr, Inhabited

def StoreError.message : StoreError → String
  | unmanagedType type => type.name ++ " is not a managed entity type"
  | notAnEntity found => "expected an entity, found " ++ found
  | missingIdentifier type => "cannot persist " ++ type.name ++ " without identifier"
  | backend detail => "backend failure: " ++ detail

/-- What makes a type an entity type. -/
structure Entity where
  type : TypeName
  idProperty : String
  versionProperty? : Option String := none
deriving DecidableEq, Repr, Inhabited

/-- The identifier of an object, unless it is null. -/
def Entity.identifier? (entity : Entity) (heap : Heap) (id : ObjectId) : Option Value :=
  let value := (heap.node id).attr entity.idProperty
  if value.isNull then none else some value

/-- The operations that reach the backend. -/
inductive StoreOperation where
  | find
  | identifier
  | flush
  | remove
deriving DecidableEq, Repr, Inhabited

/-- Which of the coming calls of each operation fail, in their order. The calls after those that are
listed do not fail on their own. -/
abbrev Outages := StoreOperation → List (Option StoreError)

namespace Outages

/-- No call fails on its own. -/
protected def none : Outages := fun _ => []

/-- What is left after a call of an operation. -/
def next (outages : Outages) (operation : StoreOperation) : Outages := fun other =>
  if other = operation then (outages other).tail else outages other

theorem next_of_nil {outages : Outages} {operation : StoreOperation} (sound : outages operation = []) :
    outages.next operation = outages := by
  funext other
  unfold next
  split
  · next same => rw [same, sound, List.tail_nil]
  · rfl

/-- The second outages are what some calls have left of the first. -/
structure Spends (before after : Outages) : Prop where
  suffix : ∀ operation, after operation <:+ before operation

namespace Spends

theorem refl (outages : Outages) : outages.Spends outages :=
  ⟨fun _ => List.suffix_refl _⟩

theorem trans {first second third : Outages} (before : first.Spends second) (after : second.Spends third) :
    first.Spends third :=
  ⟨fun operation => (after.suffix operation).trans (before.suffix operation)⟩

theorem next (outages : Outages) (operation : StoreOperation) : outages.Spends (outages.next operation) := by
  refine ⟨fun other => ?_⟩
  unfold Outages.next
  split
  · exact List.tail_suffix _
  · exact List.suffix_refl _

end Spends

end Outages

structure EntityStore where
  entities : OrderedMap TypeName Entity := .empty
  stored : List ObjectId := []
  removed : List ObjectId := []
  flushes : Nat := 0
  faults : OrderedMap StoreOperation StoreError := .empty
deriving DecidableEq, Repr, Inhabited

namespace EntityStore

/-- Make a type an entity type, or describe it anew. -/
def register (store : EntityStore) (entity : Entity) : EntityStore :=
  { store with entities := store.entities.insert entity.type entity }

def entity? (store : EntityStore) (type : TypeName) : Option Entity := store.entities.get? type

def manages (store : EntityStore) (type : TypeName) : Bool := (store.entity? type).isSome

def contains (store : EntityStore) (id : ObjectId) : Bool := store.stored.contains id

def size (store : EntityStore) : Nat := store.stored.length

/-- One call of an operation that has an outcome unless the call fails on its own, and the outages that are
left after it. -/
def call {α : Type} (operation : StoreOperation) (outcome : Except StoreError α) (outages : Outages) :
    Except StoreError α × Outages :=
  (match outages operation with
    | some error :: _ => .error error
    | _ => outcome, outages.next operation)

theorem call_of_nil {α : Type} {operation : StoreOperation} {outages : Outages} (sound : outages operation = [])
    (outcome : Except StoreError α) : call operation outcome outages = (outcome, outages) := by
  rw [call, sound, Outages.next_of_nil sound]

/-- A call that answers has the outcome of the operation. -/
theorem eq_ok_of_call {α : Type} {operation : StoreOperation} {outcome : Except StoreError α}
    {outages after : Outages} {answer : α} (called : call operation outcome outages = (.ok answer, after)) :
    outcome = .ok answer := by
  have answered := (Prod.mk.inj called).1
  split at answered
  · cases answered
  · exact answered

/-- A call fails as its operation does, or on its own. -/
theorem error_of_call {α : Type} {operation : StoreOperation} {outcome : Except StoreError α}
    {outages after : Outages} {error : StoreError} (called : call operation outcome outages = (.error error, after)) :
    outcome = .error error ∨ some error ∈ outages operation := by
  have failed := (Prod.mk.inj called).1
  split at failed
  · next listed =>
    cases failed
    exact .inr (by rw [listed]; exact List.mem_cons_self)
  · exact .inl failed

theorem spends_call {α : Type} (operation : StoreOperation) (outcome : Except StoreError α) (outages : Outages) :
    outages.Spends (call operation outcome outages).2 :=
  .next outages operation

/-- Fail if the operation is set to fail. -/
def attempt (store : EntityStore) (operation : StoreOperation) : Except StoreError Unit :=
  match store.faults.get? operation with
  | some error => throw error
  | none => return ()

theorem attempt_of_sound {store : EntityStore} {operation : StoreOperation}
    (sound : store.faults.get? operation = none) : store.attempt operation = .ok () := by
  rw [attempt, sound]
  rfl

/-- The identifier of an object as the backend reads it. -/
def identifier (store : EntityStore) (heap : Heap) (entity : Entity) (id : ObjectId) :
    Except StoreError (Option Value) := do
  store.attempt .identifier
  return entity.identifier? heap id

theorem identifier_of_sound {store : EntityStore} (sound : store.faults.get? .identifier = none) (heap : Heap)
    (entity : Entity) (id : ObjectId) : store.identifier heap entity id = .ok (entity.identifier? heap id) := by
  rw [identifier, attempt_of_sound sound]
  rfl

/-- The backend reads identifiers as the heap has them. -/
theorem identifier?_eq {store : EntityStore} {heap : Heap} {entity : Entity}
    {id : ObjectId} {identifier? : Option Value}
    (found : store.identifier heap entity id = .ok identifier?) :
    identifier? = entity.identifier? heap id := by
  unfold EntityStore.identifier at found
  cases attempt : store.attempt .identifier with
  | error error =>
    rw [attempt] at found
    cases found
  | ok done =>
    rw [attempt] at found
    cases found
    rfl

/-- An error in reading an identifier is the one that reads are set to fail with. -/
theorem faults_of_identifier {store : EntityStore} {heap : Heap} {entity : Entity} {id : ObjectId} {error : StoreError}
    (failed : store.identifier heap entity id = .error error) : store.faults.get? .identifier = some error := by
  unfold EntityStore.identifier attempt at failed
  rcases fault : store.faults.get? .identifier with _ | found
  · rw [fault] at failed
    cases failed
  · rw [fault] at failed
    cases failed
    rfl

/-- The first stored object of a type with the given identifier. -/
def find (store : EntityStore) (heap : Heap) (type : TypeName) (identifier : Value) :
    Except StoreError (Option ObjectId) := do
  store.attempt .find
  match store.entity? type with
  | none => throw (.unmanagedType type)
  | some entity =>
      return store.stored.find? (fun id =>
        decide ((heap.node id).type = type ∧ (heap.node id).attr entity.idProperty = identifier))

def flush (store : EntityStore) : Except StoreError EntityStore := do
  store.attempt .flush
  return { store with flushes := store.flushes + 1 }

/-- A flush is counted and changes nothing else. -/
theorem flush_eq {store flushed : EntityStore} (run : store.flush = .ok flushed) :
    flushed = { store with flushes := store.flushes + 1 } := by
  unfold flush at run
  rcases attempted : store.attempt .flush with error | done
  · rw [attempted] at run
    cases run
  · rw [attempted] at run
    exact (Except.ok.inj run).symm

/-- Give up an object. It counts as removed even if the store did not hold it. -/
def remove (store : EntityStore) (heap : Heap) (id : ObjectId) : Except StoreError EntityStore := do
  store.attempt .remove
  let type := (heap.node id).type
  if store.manages type then
    return { store with
      stored := store.stored.filter (fun other => decide (other ≠ id))
      removed := store.removed ++ [id] }
  else throw (.unmanagedType type)

/-- An object that is given up is no longer stored, and nothing else changes. -/
theorem remove_eq {store after : EntityStore} {heap : Heap} {id : ObjectId}
    (run : store.remove heap id = .ok after) :
    after = { store with
      stored := store.stored.filter (fun other => decide (other ≠ id))
      removed := store.removed ++ [id] } := by
  unfold remove at run
  rcases attempted : store.attempt .remove with error | done
  · rw [attempted] at run
    cases run
  · rw [attempted] at run
    simp only [bind, Except.bind] at run
    split at run
    · exact (Except.ok.inj run).symm
    · cases run

theorem remove_of_sound {store : EntityStore} (sound : store.faults.get? .remove = none) {heap : Heap}
    {id : ObjectId} (managed : store.manages (heap.node id).type = true) :
    store.remove heap id = .ok { store with
      stored := store.stored.filter (fun other => decide (other ≠ id))
      removed := store.removed ++ [id] } := by
  rw [remove, attempt_of_sound sound]
  simp only [bind, Except.bind, managed, if_true]
  rfl

/-- What is found is stored. -/
theorem mem_stored_of_find {store : EntityStore} {heap : Heap} {type : TypeName} {identifier : Value}
    {id : ObjectId} (run : store.find heap type identifier = .ok (some id)) : id ∈ store.stored := by
  unfold find at run
  rcases attempted : store.attempt .find with error | done
  · rw [attempted] at run
    cases run
  · rw [attempted] at run
    simp only [bind, Except.bind] at run
    split at run
    · cases run
    · exact List.mem_of_find?_eq_some (Except.ok.inj run)

/-- A look-up that does not fail only needs the type to be described. -/
theorem find_of_sound {store : EntityStore} (sound : store.faults.get? .find = none) {heap : Heap}
    {type : TypeName} {entity : Entity} (described : store.entity? type = some entity) (identifier : Value) :
    store.find heap type identifier = .ok (store.stored.find? (fun id =>
      decide ((heap.node id).type = type ∧ (heap.node id).attr entity.idProperty = identifier))) := by
  rw [find, attempt_of_sound sound]
  simp only [bind, Except.bind, described]
  rfl

/-- A look-up in a type that is not described fails. -/
theorem find_of_undescribed {store : EntityStore} (sound : store.faults.get? .find = none) {heap : Heap}
    {type : TypeName} (undescribed : store.entity? type = none) (identifier : Value) :
    store.find heap type identifier = .error (.unmanagedType type) := by
  rw [find, attempt_of_sound sound]
  simp only [bind, Except.bind, undescribed]
  rfl

/-- Take in an object of an entity type that has an identifier; it becomes a loaded managed entity. -/
def persist (store : EntityStore) (heap : Heap) (id : ObjectId) :
    Except StoreError (EntityStore × Heap) :=
  let type := (heap.node id).type
  match store.entity? type with
  | none => throw (.unmanagedType type)
  | some entity =>
      match entity.identifier? heap id with
      | none => throw (.missingIdentifier type)
      | some _ =>
          let stored := if id ∈ store.stored then store.stored else store.stored ++ [id]
          return ({ store with stored }, heap.edit id (.setOrigin .stored))

/-- What is persisted is stored once and counts as loaded, and nothing else changes. -/
theorem persist_eq {store after : EntityStore} {heap changed : Heap} {id : ObjectId}
    (run : store.persist heap id = .ok (after, changed)) :
    after = { store with stored := if id ∈ store.stored then store.stored else store.stored ++ [id] } ∧
      changed = heap.edit id (.setOrigin .stored) := by
  unfold persist at run
  dsimp only at run
  split at run
  · cases run
  · split at run
    · cases run
    · obtain ⟨rfl, rfl⟩ := Prod.mk.inj (Except.ok.inj run)
      exact ⟨rfl, rfl⟩

/-- The entity types and the operations that are set to fail are the same. -/
structure Kept (before after : EntityStore) : Prop where
  entities : after.entities = before.entities
  faults : after.faults = before.faults

namespace Kept

theorem refl (store : EntityStore) : store.Kept store :=
  ⟨rfl, rfl⟩

theorem trans {first second third : EntityStore} (before : first.Kept second) (after : second.Kept third) :
    first.Kept third :=
  ⟨after.entities.trans before.entities, after.faults.trans before.faults⟩

theorem flush {store flushed : EntityStore} (run : store.flush = .ok flushed) : store.Kept flushed := by
  rw [flush_eq run]
  exact ⟨rfl, rfl⟩

theorem remove {store after : EntityStore} {heap : Heap} {id : ObjectId} (run : store.remove heap id = .ok after) :
    store.Kept after := by
  rw [remove_eq run]
  exact ⟨rfl, rfl⟩

end Kept

end EntityStore

end Reconciler
