import Reconciler.BreadthFirst
import Reconciler.Metadata

/-! # Schemas

A schema declares types with their parents, their own properties and, if they have one, their domain
equality. The supertypes of a type are its ancestors in breadth-first order, so nearer ones come
first. The properties of a type are those of its ancestors and its own: inherited names come first
and keep their place, and the access that a type declares itself replaces the inherited one.
-/

namespace Reconciler

/-- When two objects are the same in the domain. -/
abbrev Equality := Heap → ObjectId → ObjectId → Bool

namespace Equality

/-- Objects are equal if all the named attributes are; a missing attribute is null. -/
def onAttributes (names : List String) : Equality := fun heap left right =>
  names.all (fun name => decide ((heap.node left).attr name = (heap.node right).attr name))

def always (answer : Bool) : Equality := fun _ _ _ => answer

end Equality

structure TypeDecl where
  name : TypeName
  parents : List TypeName := []
  properties : OrderedMap String Access := .empty
  equality? : Option Equality := none
deriving Inhabited

namespace TypeDecl

/-- Declare a property, or change its access and leave it in its place. -/
def withProperty (decl : TypeDecl) (property : String) (access : Access) : TypeDecl :=
  { decl with properties := decl.properties.insert property access }

end TypeDecl

/-- The declared types, in the order of their declarations. -/
structure Schema where
  types : List TypeDecl := []
deriving Inhabited

namespace Schema

def names (schema : Schema) : List TypeName := schema.types.map TypeDecl.name

def find? (schema : Schema) (type : TypeName) : Option TypeDecl :=
  schema.types.find? (fun decl => decide (decl.name = type))

def declares (schema : Schema) (type : TypeName) : Bool := (schema.find? type).isSome

/-- The direct parents of a type. -/
def parents (schema : Schema) (type : TypeName) : List TypeName :=
  match schema.find? type with
  | some decl => decl.parents
  | none => type.builtinParents

/-- The types and their parents. Besides the declared types only lists and sets have one. -/
def hierarchy (schema : Schema) : FiniteGraph TypeName where
  next := schema.parents
  inner := schema.names ++ [.list, .set]
  mem_inner := by
    intro type some
    unfold parents at some
    split at some
    · next decl found =>
      have member := List.mem_of_find?_eq_some found
      have named : decl.name = type := by simpa using List.find?_some found
      exact List.mem_append_left _ (List.mem_map.2 ⟨decl, member, named⟩)
    · apply List.mem_append_right
      unfold TypeName.builtinParents at some
      split at some
      · next builtin => simpa using builtin
      · contradiction

/-- The ancestors of a type, each once, in breadth-first order of declaration. -/
def supertypes (schema : Schema) (type : TypeName) : List TypeName :=
  schema.hierarchy.breadthFirst (schema.parents type)

def isSubtype (schema : Schema) (sub super : TypeName) : Bool :=
  decide (sub = super) || (schema.supertypes sub).contains super

/-- The domain equality of a type or of the first supertype that has one. -/
def equality? (schema : Schema) (type : TypeName) : Option Equality :=
  (type :: schema.supertypes type).findSome? (fun other => (schema.find? other).bind (·.equality?))

/-- Add `type` and its declared ancestors to `done`, ancestors first. The fuel bounds the length of
a chain of declared ancestors. -/
def lineageFrom (schema : Schema) : (fuel : Nat) → (done : List TypeDecl) → TypeName → List TypeDecl
  | 0, done, _ => done
  | fuel + 1, done, type =>
      if done.any (fun decl => decide (decl.name = type)) then done
      else
        match schema.find? type with
        | none => done
        | some decl => decl.parents.foldl (schema.lineageFrom fuel) done ++ [decl]

/-- The declarations that a type is made of: each once, every ancestor before its heirs. -/
def lineage (schema : Schema) (type : TypeName) : List TypeDecl :=
  schema.lineageFrom (schema.types.length + 1) [] type

/-- Own and inherited properties. -/
def properties (schema : Schema) (type : TypeName) : OrderedMap String Access :=
  (schema.lineage type).foldl (fun done decl => done.insertAll decl.properties.entries) .empty

/-- The metadata of a declared type. -/
def metadata? (schema : Schema) (type : TypeName) : Option Metadata :=
  if schema.declares type then some { type, properties := schema.properties type } else none

end Schema

end Reconciler
