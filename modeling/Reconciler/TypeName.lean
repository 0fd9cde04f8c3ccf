/-! # Type names

A type is its name, so two types with one name are the same type. Arrays are the names that begin
with `[]`; what follows is the component type. Besides arrays the scalars and the containers have
fixed names of their own.
-/

namespace Reconciler

/-- The run-time type of a value. -/
structure TypeName where
  name : String
deriving DecidableEq, Repr, Inhabited, Hashable

namespace TypeName

def bool : TypeName := ⟨"bool"⟩
def int : TypeName := ⟨"int"⟩
def float : TypeName := ⟨"float"⟩
def text : TypeName := ⟨"text"⟩

/-- The common supertype of lists and sets. -/
def collection : TypeName := ⟨"collection"⟩
def list : TypeName := ⟨"list"⟩
def set : TypeName := ⟨"set"⟩
def map : TypeName := ⟨"map"⟩

/-- A handle for a value that can no longer be resolved. -/
def lazyHandle : TypeName := ⟨"lazy-handle"⟩

def scalars : List TypeName := [bool, int, float, text]

def containers : List TypeName := [collection, list, set, map, lazyHandle]

def isScalar (type : TypeName) : Bool := scalars.contains type

/-- Names that no schema may declare. -/
def isBuiltin (type : TypeName) : Bool := containers.contains type || type.isScalar

/-- What every array name begins with. -/
def arrayMark : List Char := ['[', ']']

def arrayOf (component : TypeName) : TypeName := ⟨String.ofList (arrayMark ++ component.name.toList)⟩

def isArray (type : TypeName) : Bool := arrayMark.isPrefixOf type.name.toList

/-- The type of the slots of an array. -/
def component? (type : TypeName) : Option TypeName :=
  if type.isArray then some ⟨String.ofList (type.name.toList.drop arrayMark.length)⟩ else none

/-- Only lists and sets have a parent without a declaration. -/
def builtinParents (type : TypeName) : List TypeName :=
  if type = list ∨ type = set then [collection] else []

private theorem toList_arrayOf (component : TypeName) :
    (arrayOf component).name.toList = arrayMark ++ component.name.toList :=
  String.toList_ofList

theorem isArray_arrayOf (component : TypeName) : (arrayOf component).isArray = true := by
  rw [isArray, toList_arrayOf, List.isPrefixOf_iff_prefix]
  exact List.prefix_append _ _

theorem component?_arrayOf (component : TypeName) :
    (arrayOf component).component? = some component := by
  rw [component?, if_pos (isArray_arrayOf component), toList_arrayOf, List.drop_left,
    String.ofList_toList]

/-- Arrays of different components are different types. -/
theorem arrayOf_injective {left right : TypeName} (same : arrayOf left = arrayOf right) :
    left = right :=
  Option.some.inj (by rw [← component?_arrayOf, same, component?_arrayOf])

end TypeName

end Reconciler
