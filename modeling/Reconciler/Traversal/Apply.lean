import Reconciler.Traversal.Counterpart
import Reconciler.Traversal.Disconnect

/-! # Bringing the authoritative graph up to date

A detached value is applied on its own, by looking up the entity it stands for, or onto a known
authoritative counterpart. Entities are merged property by property after their versions were
compared; containers are matched element by element and refilled once all elements are reconciled.
The counterpart of an object is recorded before its parts are looked at. `ask` answers the requests for
the parts.
-/

open Reconciler.Action

namespace Reconciler

/-- Match an element against the candidates and reconcile it. -/
def mergeItem (setting : Setting) (ask : Request → Action Value) (element : Value)
    (candidates : List Value) : Action (Value × List Value) := do
  let (counterpart?, rest) ← askStore (fun store heap =>
    Counterpart.take setting.schema store heap element candidates)
  let merged ← ask (.matched element counterpart?)
  return (merged, rest)

/-- Reconcile the elements in order: the new elements, and the candidates that are left over. -/
def mergeItems (setting : Setting) (ask : Request → Action Value) :
    List Value → List Value → Action (List Value × List Value)
  | [], candidates => return ([], candidates)
  | element :: elements, candidates => do
      let (merged, rest) ← mergeItem setting ask element candidates
      let (others, leftovers) ← mergeItems setting ask elements rest
      return (merged :: others, leftovers)

/-- Match the entry of a map against the candidates and reconcile its key and then its value. -/
def mergeBinding (setting : Setting) (ask : Request → Action Value)
    (authoritative : List (Value × Value)) (key value : Value) (pool : Counterpart.Pool) :
    Action ((Value × Value) × Counterpart.Pool) := do
  let ((key?, value?), rest) ← askStore (fun store heap =>
    Counterpart.takeEntry setting.schema store heap authoritative key value pool)
  let key ← ask (.matched key key?)
  let value ← ask (.matched value value?)
  return ((key, value), rest)

/-- Reconcile the entries in order: the new entries, and the candidates that are left over. -/
def mergeBindings (setting : Setting) (ask : Request → Action Value)
    (authoritative : List (Value × Value)) :
    List (Value × Value) → Counterpart.Pool → Action (List (Value × Value) × Counterpart.Pool)
  | [], pool => return ([], pool)
  | (key, value) :: entries, pool => do
      let (merged, rest) ← mergeBinding setting ask authoritative key value pool
      let (others, leftovers) ← mergeBindings setting ask authoritative entries rest
      return (merged :: others, leftovers)

/-- Remove an entity that a container has lost from the store. -/
def discard (container entity : ObjectId) : Action Unit := do
  note (.discarded container entity)
  changeStore .remove (fun store heap => store.remove heap entity)

/-- Remove a leftover if it is an entity that was not kept. -/
def discardUnless (container : ObjectId) (kept : List Value) (leftover : Value) : Action Unit :=
  match leftover with
  | .object entity => do
      let managed ← look (fun world => world.store.manages (world.heap.node entity).type)
      if !kept.contains leftover && managed then discard container entity else return ()
  | _ => return ()

/-- Remove the entities among the leftovers, except those that were kept, if the configuration says
so. -/
def discardLeftovers (setting : Setting) (container : ObjectId) (kept leftovers : List Value) :
    Action Unit :=
  if setting.config.deleteRemoved then leftovers.forM (discardUnless container kept)
  else return ()

/-- An unloaded container can only stay as it is: it is reconciled with itself and with empty
containers, and with nothing else. -/
def keepUnloaded (detached authoritative : ObjectId) : Action Bool := do
  let value := Value.object authoritative
  if ← look (fun world => value.isManagedContainer world.heap && !value.isLoaded world.heap) then
    if detached ≠ authoritative ∧ (← nodeOf detached).size ≠ 0 then
      fail (.uninitialized (← nodeOf authoritative).type .elements)
    else return true
  else return false

/-- Refill a collection with the reconciled elements of a detached one. -/
def mergeCollection (setting : Setting) (ask : Request → Action Value)
    (detached authoritative : ObjectId) : Action Value := do
  if ← keepUnloaded detached authoritative then return .object authoritative
  else
    note (.walked detached)
    let candidates ← look (fun world => (world.heap.node authoritative).items)
    let elements ← look (fun world => (world.heap.node detached).items)
    let (merged, leftovers) ← mergeItems setting ask elements candidates
    discardLeftovers setting authoritative merged leftovers
    edit authoritative (.setItems merged)
    return .object authoritative

/-- Refill a map with the reconciled entries of a detached one. -/
def mergeMap (setting : Setting) (ask : Request → Action Value)
    (detached authoritative : ObjectId) : Action Value := do
  if ← keepUnloaded detached authoritative then return .object authoritative
  else
    note (.walked detached)
    let current ← look (fun world => (world.heap.node authoritative).bindings)
    let entries ← look (fun world => (world.heap.node detached).bindings)
    let pool := ⟨current.map Prod.fst, current.map Prod.snd⟩
    let (merged, leftovers) ← mergeBindings setting ask current entries pool
    discardLeftovers setting authoritative (merged.flatMap (fun entry => [entry.1, entry.2]))
      (leftovers.keys ++ leftovers.values)
    edit authoritative (.setBindings merged)
    return .object authoritative

/-- What goes into the slot of an array. Null and scalars are taken over. -/
def mergeSlot (ask : Request → Action Value) (source : Node) (item counterpart : Value) :
    Action Value :=
  if item.isNull || source.hasScalarSlots then return item
  else ask (.reconcile item counterpart)

/-- Reconcile arrays slot by slot, as far as both reach. -/
def mergeArray (ask : Request → Action Value) (detached authoritative : ObjectId) :
    Action Value := do
  note (.walked detached)
  let source ← nodeOf detached
  let current ← look (fun world => (world.heap.node authoritative).items)
  (source.items.zip current).zipIdx.forM fun ((item, counterpart), index) => do
    let merged ← mergeSlot ask source item counterpart
    edit authoritative (.setSlot index merged)
  return .object authoritative

/-- What a handler makes of a detached value and its authoritative counterpart. -/
def Handler.mergeValue (handler : Handler) (setting : Setting) (ask : Request → Action Value)
    (detached authoritative : Value) : Action Value :=
  match handler, detached, authoritative with
  | .basic, _, _ => return detached
  | .null, _, _ => return .null
  | .collection, .object detached, .object authoritative =>
      mergeCollection setting ask detached authoritative
  | .map, .object detached, .object authoritative => mergeMap setting ask detached authoritative
  | .array, .object detached, .object authoritative => mergeArray ask detached authoritative
  | _, _, _ => return authoritative

/-- A version is a property if the metadata declares it, and a raw attribute otherwise. -/
def versionOf (metadata : Metadata) (id : ObjectId) (property : String) : Action Value := do
  if metadata.declares property then readProperty metadata id property
  else return (← nodeOf id).attr property

/-- An entity with a version only takes changes that were made to that version. -/
def compareVersions (metadata : Metadata) (detached authoritative : ObjectId) (property : String) :
    Action Unit := do
  let current ← versionOf metadata authoritative property
  let carried ← versionOf metadata detached property
  if !current.isNull && current ≠ carried then
    fail (.versionMismatch (← nodeOf authoritative).type property carried current)
  else return ()

/-- The version property of an entity, if versions are to be compared. -/
def checkedVersion? (setting : Setting) (entity : Entity) : Option String :=
  if setting.config.checkVersion then entity.versionProperty? else none

/-- Compare versions if there is a version property to compare. -/
def compareChecked (metadata : Metadata) (detached authoritative : ObjectId)
    (version? : Option String) : Action Unit :=
  match version? with
  | some property => compareVersions metadata detached authoritative property
  | none => return ()

/-- Give a property its reconciled value, unless that is the value it has. -/
def updateProperty (metadata : Metadata) (authoritative : ObjectId) (property : String)
    (current merged : Value) : Action Unit :=
  if merged = current then return ()
  else writeProperty metadata authoritative property merged

/-- Take over one property of a detached entity. Null and unchanged values leave it as it is. -/
def mergeProperty (ask : Request → Action Value) (metadata : Metadata)
    (detached authoritative : ObjectId) (property : String) : Action Unit := do
  let value ← readProperty metadata detached property
  let current ← readProperty metadata authoritative property
  if value.isNull || value = current then return ()
  else
    let merged ← ask (.reconcile value current)
    updateProperty metadata authoritative property current merged

/-- Take over the properties of a detached entity into a loaded one of the same version. The version
itself is not taken over. -/
def mergeProperties (setting : Setting) (ask : Request → Action Value) (entity : Entity)
    (detached authoritative : ObjectId) : Action Unit := do
  let metadata := (← metadataOf setting authoritative).getD { type := entity.type }
  let version? := checkedVersion? setting entity
  compareChecked metadata detached authoritative version?
  note (.walked detached)
  (metadata.names.filter (fun property => version? ≠ some property)).forM
    (mergeProperty ask metadata detached authoritative)

/-- Bring an entity up to date. Objects of other types are not merged: the detached one stands for
itself. -/
def mergeObject (setting : Setting) (ask : Request → Action Value)
    (detached authoritative : ObjectId) : Action Value := do
  let node ← nodeOf authoritative
  match ← look (fun world => world.store.entity? node.type) with
  | none => return .object detached
  | some entity =>
      if detached = authoritative then return .object authoritative
      else
        match ← callStore .identifier (fun store heap => store.identifier heap entity authoritative) with
        | none => fail (.nullIdentifier node.type)
        | some identifier =>
            if node.origin.isLoaded then
              mergeProperties setting ask entity detached authoritative
              return .object authoritative
            else fail (.uninitialized node.type (.entity identifier))

/-- Record the counterpart of a detached value if it is an object. -/
def recordCounterpart (detached authoritative : Value) : Action Unit :=
  match detached with
  | .object source => record source authoritative
  | _ => return ()

/-- Bring the known counterpart of a detached value up to date. -/
def applyValueTo (setting : Setting) (ask : Request → Action Value)
    (detached authoritative : Value) : Action Value := do
  if detached.isNull || authoritative.isNull then return authoritative
  else
    match ← visited? detached with
    | some counterpart => return counterpart
    | none =>
        recordCounterpart detached authoritative
        match ← handlerOf detached with
        | some handler => handler.mergeValue setting ask detached authoritative
        | none =>
            match detached, authoritative with
            | .object source, .object target => mergeObject setting ask source target
            | _, _ => return detached

/-- Look up the entity that a detached object stands for and bring it up to date. Objects of other
types stand for themselves. -/
def applyObject (ask : Request → Action Value) (source : ObjectId) : Action Value := do
  let node ← nodeOf source
  match ← look (fun world => world.store.entity? node.type) with
  | none =>
      record source (.object source)
      return .object source
  | some entity =>
      match ← callStore .identifier (fun store heap => store.identifier heap entity source) with
      | none => fail (.unsavedTransient node.type)
      | some identifier =>
          match ← callStore .find (fun store heap => store.find heap node.type identifier) with
          | none => fail (.entityNotFound node.type identifier)
          | some target => ask (.applyTo (.object source) (.object target))

/-- Find the authoritative counterpart of a detached value and bring it up to date. -/
def applyValue (ask : Request → Action Value) (detached : Value) : Action Value := do
  if detached.isNull then return .null
  else
    match ← visited? detached with
    | some counterpart => return counterpart
    | none =>
        match ← handlerOf detached with
        | some handler => handler.rebuildValue (fun part => ask (.apply part)) detached
        | none =>
            match detached with
            | .object source => applyObject ask source
            | _ => return detached

end Reconciler
