import Reconciler.TypeName

/-! # Handlers

A handler is a way to treat all values of a type: pass them through, rebuild them element by element,
or replace them. Values without a handler are walked property by property.
-/

namespace Reconciler

/-- Ways to treat a value: pass scalars through, rebuild collections, maps or arrays, turn lazy
handles into null, or leave a value alone altogether. -/
inductive Handler where
  | basic
  | collection
  | map
  | null
  | array
  | frozen
deriving DecidableEq, Repr, Inhabited

namespace Handler

def name : Handler → String
  | basic => "basic"
  | collection => "collection"
  | map => "map"
  | null => "null"
  | array => "array"
  | frozen => "frozen"

/-- The types that a handler is meant for. -/
def types : Handler → List TypeName
  | basic => TypeName.scalars
  | collection => [.list, .set]
  | map => [.map]
  | null => [.lazyHandle]
  | array => []
  | frozen => []

end Handler

end Reconciler
