import Reconciler.DepthFirst
import Reconciler.Schema

/-! # Drafting a schema

A draft takes declarations one by one and refuses a name that is built in or taken. It becomes a
schema if every parent is declared or built in and no type is its own ancestor; otherwise the error
is about the first unknown parent, or, if all parents are known, about the first declared type that
lies on a cycle.
-/

namespace Reconciler

inductive SchemaError where
  | duplicateType (type : TypeName)
  | unknownParent (type parent : TypeName)
  | inheritanceCycle (type : TypeName)
deriving DecidableEq, Repr, Inhabited

def SchemaError.message : SchemaError → String
  | duplicateType type => "type " ++ type.name ++ " is declared more than once"
  | unknownParent type parent => "type " ++ type.name ++ " extends unknown type " ++ parent.name
  | inheritanceCycle type => "inheritance cycle through " ++ type.name

namespace Schema

/-- Declarations that may still turn out to be no schema. -/
structure Draft where
  types : List TypeDecl := []
deriving Inhabited

namespace Draft

/-- Read a draft as a schema, whether or not it is one. -/
def asSchema (draft : Draft) : Schema := ⟨draft.types⟩

/-- A name can be declared once, and a built-in one never. -/
def declare (draft : Draft) (decl : TypeDecl) : Except SchemaError Draft :=
  if draft.asSchema.declares decl.name || decl.name.isBuiltin then
    .error (.duplicateType decl.name)
  else .ok ⟨draft.types ++ [decl]⟩

/-- Make declarations up to the first that is refused. -/
def declareAll (draft : Draft) (decls : List TypeDecl) : Except SchemaError Draft :=
  decls.foldlM declare draft

/-- A parent has to be declared, before or after its heir, or built in. -/
def knows (draft : Draft) (type : TypeName) : Bool :=
  draft.asSchema.declares type || type.isBuiltin

/-- The first type with an unknown parent, and the first such parent. -/
def unknownParent? (draft : Draft) : Option (TypeName × TypeName) :=
  draft.types.findSome? (fun decl =>
    (decl.parents.find? (fun parent => !draft.knows parent)).map (fun parent => (decl.name, parent)))

/-- Whether a type is its own ancestor: a search from its parents meets it. -/
def isCyclic (draft : Draft) (type : TypeName) : Bool :=
  draft.asSchema.hierarchy.meets type (FiniteGraph.pushed (draft.asSchema.parents type) []) []

/-- The first type that is its own ancestor. -/
def cyclic? (draft : Draft) : Option TypeName := draft.asSchema.names.find? draft.isCyclic

def build (draft : Draft) : Except SchemaError Schema :=
  match draft.unknownParent?, draft.cyclic? with
  | some (type, parent), _ => .error (.unknownParent type parent)
  | none, some type => .error (.inheritanceCycle type)
  | none, none => .ok draft.asSchema

end Draft

/-- The schema that a list of declarations makes. -/
def ofDecls (decls : List TypeDecl) : Except SchemaError Schema := do
  let draft ← Draft.declareAll {} decls
  draft.build

end Schema

end Reconciler
