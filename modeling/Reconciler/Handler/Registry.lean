import Reconciler.Handler
import Reconciler.Schema

/-! # The handler registry

The registry finds the handler of a type: the one registered for the type itself, else the one
registered for the first supertype that has one, else the first whose predicate accepts the type.
A value whose type has no handler gets that of its container shape, if it has one.
-/

namespace Reconciler

/-- Which types a dynamic registration accepts. -/
abbrev TypePredicate := TypeName → Bool

structure Registration where
  accepts : TypePredicate
  handler : Handler
deriving Inhabited

namespace Handler

/-- The registrations, over the hierarchy of a schema. -/
structure Registry where
  schema : Schema
  exact : OrderedMap TypeName Handler := .empty
  dynamic : List Registration := []
deriving Inhabited

namespace Registry

def add (registry : Registry) (handler : Handler) (types : List TypeName) : Registry :=
  { registry with exact := types.foldl (·.insert · handler) registry.exact }

def addDynamic (registry : Registry) (handler : Handler) (accepts : TypePredicate) : Registry :=
  { registry with dynamic := registry.dynamic ++ [{ accepts, handler }] }

/-- Scalars, lists and sets, maps, lazy handles and all arrays have handlers by default. -/
def withDefaults (schema : Schema) : Registry :=
  let register (registry : Registry) (handler : Handler) := registry.add handler handler.types
  ([Handler.basic, .collection, .map, .null].foldl register { schema }).addDynamic .array
    TypeName.isArray

/-- The handler of a type: exact, inherited, dynamic, in this order. -/
def resolve (registry : Registry) (type : TypeName) : Option Handler :=
  ((type :: registry.schema.supertypes type).findSome? registry.exact.get?).or
    ((registry.dynamic.find? (·.accepts type)).map Registration.handler)

/-- The handler of a value: that of its type, or else that of its container shape. -/
def ofValue (registry : Registry) (heap : Heap) (value : Value) : Option Handler :=
  (value.typeName? heap).bind (fun type =>
    (registry.resolve type).or ((value.shape? heap).bind registry.resolve))

end Registry

end Handler

end Reconciler
