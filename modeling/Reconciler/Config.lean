/-! # Configuration

Five switches say how graphs are taken apart and put together again.
-/

namespace Reconciler

structure Config where
  /-- Compare versions before an entity is changed. -/
  checkVersion : Bool := true
  /-- Flush the store before the properties of an object are read. -/
  flushAutomatically : Bool := false
  /-- Build new objects when a graph is detached, instead of reusing the source. -/
  cloneObjects : Bool := false
  /-- Put empty containers where the source has unloaded ones. -/
  createEmptyCollections : Bool := true
  /-- Remove the entities that a container has lost. -/
  deleteRemoved : Bool := false
deriving DecidableEq, Repr, Inhabited

namespace Config

/-- A switch, as it is named in a configuration file. -/
inductive Switch where
  | checkVersion
  | flushAutomatically
  | cloneObjects
  | createEmptyCollections
  | deleteRemoved
deriving DecidableEq, Repr, Inhabited

namespace Switch

def all : List Switch :=
  [checkVersion, flushAutomatically, cloneObjects, createEmptyCollections, deleteRemoved]

def key : Switch → String
  | checkVersion => "check_version"
  | flushAutomatically => "flush_automatically"
  | cloneObjects => "clone_objects"
  | createEmptyCollections => "create_empty_collections"
  | deleteRemoved => "delete_removed"

end Switch

def get (config : Config) : Switch → Bool
  | .checkVersion => config.checkVersion
  | .flushAutomatically => config.flushAutomatically
  | .cloneObjects => config.cloneObjects
  | .createEmptyCollections => config.createEmptyCollections
  | .deleteRemoved => config.deleteRemoved

def set (config : Config) (switch : Switch) (flag : Bool) : Config :=
  match switch with
  | .checkVersion => { config with checkVersion := flag }
  | .flushAutomatically => { config with flushAutomatically := flag }
  | .cloneObjects => { config with cloneObjects := flag }
  | .createEmptyCollections => { config with createEmptyCollections := flag }
  | .deleteRemoved => { config with deleteRemoved := flag }

/-- Setting a switch changes that switch and no other. -/
theorem get_set (config : Config) (switch wanted : Switch) (flag : Bool) :
    (config.set switch flag).get wanted = if wanted = switch then flag else config.get wanted := by
  cases switch <;> cases wanted <;> rfl

end Config

end Reconciler
