import Reconciler.TypeName

/-! # Values

A value is null, a scalar or a reference to an object. Equality of values is equality of their
parts: floats are compared by their bits, so a NaN equals itself and the two zeros differ, and
references by the object they name, whatever that object holds at the moment.
-/

namespace Reconciler

/-- The identity of an object: its place in the heap, never given to another object. -/
structure ObjectId where
  index : Nat
deriving DecidableEq, Repr, Inhabited, Hashable

/-- What properties, elements and map entries hold. -/
inductive Value where
  | null
  | bool (flag : Bool)
  | int (number : Int64)
  | float (bits : UInt64)
  | text (content : String)
  | object (id : ObjectId)
deriving DecidableEq, Repr, Inhabited

namespace Value

def isNull : Value → Bool
  | null => true
  | _ => false

def object? : Value → Option ObjectId
  | object id => some id
  | _ => none

def int? : Value → Option Int64
  | int number => some number
  | _ => none

def text? : Value → Option String
  | text content => some content
  | _ => none

@[simp] theorem isNull_iff (value : Value) : value.isNull = true ↔ value = null := by
  cases value <;> simp [isNull]

@[simp] theorem object?_eq_some_iff (value : Value) (id : ObjectId) :
    value.object? = some id ↔ value = object id := by
  cases value <;> simp [object?]

end Value

end Reconciler
