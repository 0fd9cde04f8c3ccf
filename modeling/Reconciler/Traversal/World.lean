import Reconciler.Config
import Reconciler.Error
import Reconciler.Handler.Dispatch
import Reconciler.Heap.Reach
import Reconciler.Metadata.Cache

/-! # What a traversal works on

A traversal answers requests about values. The world is all that it may change: the heap, the store,
the remembered handlers and metadata, the counterparts of the objects it has visited and the journal
of what it did. Beside them stand the calls of the store that are still to fail. The setting is what it
only reads.
-/

namespace Reconciler

/-- What a traversal is asked to do. -/
inductive Request where
  /-- Build the detached counterpart of a value. -/
  | disconnect (value : Value)
  /-- Find the authoritative counterpart of a detached value and bring it up to date. -/
  | apply (detached : Value)
  /-- Bring a known authoritative counterpart up to date. -/
  | applyTo (detached authoritative : Value)
deriving DecidableEq, Repr, Inhabited

/-- A nested value is applied on its own if its counterpart is null. -/
def Request.reconcile (detached authoritative : Value) : Request :=
  if authoritative.isNull then .apply detached else .applyTo detached authoritative

/-- A matched value is brought onto its counterpart, and any other applied on its own. -/
def Request.matched (detached : Value) : (counterpart? : Option Value) → Request
  | some counterpart => .applyTo detached counterpart
  | none => .apply detached

/-- The counterparts recorded for visited objects, the last one first. -/
structure Visits where
  log : List (ObjectId × Value) := []
deriving DecidableEq, Repr, Inhabited

namespace Visits

/-- The counterpart recorded last. -/
def get? (visits : Visits) (source : ObjectId) : Option Value :=
  (visits.log.find? (fun entry => decide (entry.1 = source))).map Prod.snd

def contains (visits : Visits) (source : ObjectId) : Bool := (visits.get? source).isSome

def record (visits : Visits) (source : ObjectId) (target : Value) : Visits :=
  ⟨(source, target) :: visits.log⟩

/-- The number of visited objects. -/
def size (visits : Visits) : Nat := (visits.log.map Prod.fst).eraseDups.length

theorem get?_record (visits : Visits) (source wanted : ObjectId) (target : Value) :
    (visits.record source target).get? wanted =
      if source = wanted then some target else visits.get? wanted := by
  by_cases same : source = wanted <;> simp [record, get?, same]

theorem get?_record_self (visits : Visits) (source : ObjectId) (target : Value) :
    (visits.record source target).get? source = some target :=
  (get?_record ..).trans (if_pos rfl)

theorem get?_record_of_ne (visits : Visits) {source wanted : ObjectId} (different : source ≠ wanted)
    (target : Value) : (visits.record source target).get? wanted = visits.get? wanted :=
  (get?_record ..).trans (if_neg different)

/-- The first counterpart of an object replaces none. -/
theorem get?_record_of_get? {visits : Visits} {source wanted : ObjectId} (unvisited : visits.get? source = none)
    {found : Value} (known : visits.get? wanted = some found) (target : Value) :
    (visits.record source target).get? wanted = some found := by
  have different : source ≠ wanted := by
    rintro rfl
    cases unvisited.symm.trans known
  exact (visits.get?_record_of_ne different target).trans known

end Visits

/-- One thing that a traversal did. -/
inductive Event where
  | asked (request : Request)
  | answered (request : Request) (result : Value)
  /-- The parts of a source object were about to be read. -/
  | walked (source : ObjectId)
  | edited (target : ObjectId) (edit : Edit)
  /-- An entity was removed from the store because a container had lost it. -/
  | discarded (container entity : ObjectId)
deriving DecidableEq, Repr, Inhabited

/-- What a traversal reads and never changes. -/
structure Setting where
  schema : Schema
  config : Config := {}
  /-- Metadata that replaces that of its type. -/
  overrides : OrderedMap TypeName Metadata := .empty
deriving Inhabited

/-- What a traversal may change. The journal's last event comes first. -/
structure World where
  heap : Heap := {}
  store : EntityStore := {}
  dispatch : Handler.Dispatch
  cache : MetadataCache
  visits : Visits := {}
  journal : List Event := []
  /-- The calls of the store that fail on their own. -/
  outages : Outages := .none
deriving Inhabited

namespace World

/-- No call of the operation fails from now on. -/
structure Serves (world : World) (operation : StoreOperation) : Prop where
  faults : world.store.faults.get? operation = none
  outages : world.outages operation = []

theorem Serves.of_same {world after : World} {operation : StoreOperation} (sound : world.Serves operation)
    (faults : after.store.faults = world.store.faults) (outages : after.outages = world.outages) :
    after.Serves operation where
  faults := by rw [faults, sound.faults]
  outages := by rw [outages, sound.outages]

/-- The world before a traversal: nothing visited, nothing done. -/
def rested (world : World) : World := { world with visits := {}, journal := [] }

theorem Serves.rested {world : World} {operation : StoreOperation} (sound : world.Serves operation) :
    world.rested.Serves operation :=
  sound.of_same rfl rfl

theorem serves_rested {world : World} (sound : ∀ operation, world.Serves operation) (operation : StoreOperation) :
    world.rested.Serves operation :=
  (sound operation).rested

/-- A bound on the number of properties of any object. -/
def propertyBound (setting : Setting) (world : World) : Nat :=
  1 + (world.cache.schema.types.flatMap (·.properties.keys)).length +
    (setting.overrides.values.flatMap Metadata.names).length +
    (world.heap.nodes.toList.flatMap Node.parts).length

/-- A bound on the depth of nested requests. Of two nested requests at least one visits an object for the
first time. Rebuilding a container visits one object and allocates one, and merging only visits one, so
only a property read can add to the unvisited objects, and it adds at most one. Between two reads or
merges a chain of requests is therefore no longer than the number of unvisited objects; and a bean is
visited at most twice, as itself and as the copy of a stand-in, and reads each property once. -/
def fuel (setting : Setting) (world : World) : Nat :=
  let reads := 16 * (world.heap.size + 1) * world.propertyBound setting
  reads * reads

end World

end Reconciler
