import Reconciler.Traversal.Action

/-! # Detaching a graph

Objects without a handler become beans with detached property values; containers are rebuilt part by
part. The counterpart of an object is recorded before its parts are looked at, so cycles end and
shared objects stay shared. `ask` answers the requests for the parts.
-/

open Reconciler.Action

namespace Reconciler

/-- Offer the counterparts of the source's elements to a collection. -/
def fillCollection (ask : Value → Action Value) (source : Node) (copy : ObjectId) : Action Unit :=
  source.items.forM fun item => do
    let item ← ask item
    edit copy (.append item)

/-- Bind the counterparts of the source's keys to those of its values. -/
def fillMap (ask : Value → Action Value) (source : Node) (copy : ObjectId) : Action Unit :=
  source.bindings.forM fun (key, value) => do
    let key ← ask key
    let value ← ask value
    edit copy (.bind key value)

/-- Put the counterparts of the source's slots into an array. Scalar slots are copied as they are. -/
def fillArray (ask : Value → Action Value) (source : Node) (copy : ObjectId) : Action Unit :=
  if source.hasScalarSlots then edit copy (.setItems source.items)
  else
    source.items.zipIdx.forM fun (item, index) => do
      let item ← ask item
      edit copy (.setSlot index item)

/-- A new container like `source`, which is its recorded counterpart before `fill` puts anything into
it. -/
def rebuild (fill : Node → ObjectId → Action Unit) (source : ObjectId) : Action Value := do
  let node ← nodeOf source
  let copy ← allocate node.emptyLike
  record source (.object copy)
  note (.walked source)
  fill node copy
  return .object copy

/-- What a handler makes of a value without a known counterpart. -/
def Handler.rebuildValue (handler : Handler) (ask : Value → Action Value) (value : Value) :
    Action Value :=
  match handler, value with
  | .null, _ => return .null
  | .collection, .object source => rebuild (fillCollection ask) source
  | .map, .object source => rebuild (fillMap ask) source
  | .array, .object source => rebuild (fillArray ask) source
  | _, _ => return value

/-- What takes the place of an unloaded property value in a detached bean: an empty container for a
container if the configuration says so, and else null. -/
def unloadedPart (setting : Setting) (value : Value) : Action Value :=
  match value with
  | .object id => do
      let node ← nodeOf id
      if node.isContainer && setting.config.createEmptyCollections then
        return .object (← allocate node.emptyLike)
      else return .null
  | _ => return .null

/-- What takes the place of a property value in a detached bean. -/
def detachedPart (setting : Setting) (ask : Value → Action Value) (value : Value) :
    Action Value := do
  if value.isNull then return .null
  else if ← look (fun world => value.isLoaded world.heap) then ask value
  else unloadedPart setting value

/-- Give a property of the target what takes the place of the source's value. -/
def disconnectProperty (setting : Setting) (ask : Value → Action Value) (metadata : Metadata)
    (source target : ObjectId) (property : String) : Action Unit := do
  let value ← readProperty metadata source property
  let detached ← detachedPart setting ask value
  writeProperty metadata target property detached

/-- The bean that takes the detached values: a new one if objects are cloned or the source is a
stand-in, else the source itself. -/
def targetOf (setting : Setting) (source : ObjectId) : Action ObjectId := do
  let node ← nodeOf source
  if setting.config.cloneObjects || node.origin.isProxy then allocate node.emptyLike
  else return source

/-- Flush the store if the configuration says so. -/
def flushFirst (setting : Setting) : Action Unit :=
  if setting.config.flushAutomatically then changeStore .flush (fun store _ => store.flush)
  else return ()

/-- Detach an object property by property. -/
def disconnectObject (setting : Setting) (ask : Value → Action Value) (source : ObjectId) :
    Action Value := do
  let target ← targetOf setting source
  record source (.object target)
  note (.walked source)
  flushFirst setting
  match ← metadataOf setting source with
  | none => return .object target
  | some metadata =>
      metadata.names.forM (disconnectProperty setting ask metadata source target)
      return .object target

/-- The detached counterpart of a value. -/
def disconnectValue (setting : Setting) (ask : Value → Action Value) (value : Value) :
    Action Value := do
  if value.isNull then return .null
  else
    match ← visited? value with
    | some counterpart => return counterpart
    | none =>
        match ← handlerOf value with
        | some handler => handler.rebuildValue ask value
        | none =>
            match value with
            | .object source => disconnectObject setting ask source
            | _ => return value

end Reconciler
