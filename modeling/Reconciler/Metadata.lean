import Reconciler.Heap

/-! # Metadata

Metadata lists the properties of a type in order and says how each is accessed: as a raw attribute,
or through a getter and a setter, either of which may be missing. Getters and setters see one bean and
no other object. A setter may give its bean any attributes, also before it refuses a value, but neither
another type nor another origin.
-/

namespace Reconciler

/-- Why a setter refused a value: an explanation, and the value if the explanation ends with it. -/
structure Rejection where
  explanation : String
  offender? : Option Value := none
deriving DecidableEq, Repr, Inhabited

/-- What a setter did with a value: the attributes that it left to the bean, and why it refused the value,
if it refused it. -/
structure Assignment where
  attributes : Attributes
  rejection? : Option Rejection := none
deriving DecidableEq, Repr, Inhabited

abbrev Getter := Node → Value

abbrev Setter := Node → Value → Assignment

/-- How a property is read and written. -/
inductive Access where
  | field
  | accessor (getter? : Option Getter) (setter? : Option Setter)
deriving Inhabited

namespace Access

def isReadable : Access → Bool
  | field => true
  | accessor getter? _ => getter?.isSome

def isWritable : Access → Bool
  | field => true
  | accessor _ setter? => setter?.isSome

/-- A one-line description of the kind of access. -/
def summary : Access → String
  | field => "Field"
  | accessor getter? setter? =>
      "Accessor \x7b readable: " ++ toString getter?.isSome ++ ", writable: " ++
        toString setter?.isSome ++ " \x7d"

end Access

/-- The properties of a type, in order. -/
structure Metadata where
  type : TypeName
  properties : OrderedMap String Access := .empty
deriving Inhabited

namespace Metadata

def names (metadata : Metadata) : List String := metadata.properties.keys

def access? (metadata : Metadata) (property : String) : Option Access :=
  metadata.properties.get? property

def declares (metadata : Metadata) (property : String) : Bool := metadata.properties.contains property

/-- Add a property, or change its access and leave it in its place. -/
def withProperty (metadata : Metadata) (property : String) (access : Access) : Metadata :=
  { metadata with properties := metadata.properties.insert property access }

def withProperties (metadata : Metadata) (access : Access) (properties : List String) : Metadata :=
  properties.foldl (·.withProperty · access) metadata

def withoutProperty (metadata : Metadata) (property : String) : Metadata :=
  { metadata with properties := metadata.properties.erase property }

/-- Every attribute a bean has right now, as a raw field. Other nodes have no properties. -/
def introspect (node : Node) : Metadata :=
  { type := node.type
    properties := ⟨((node.attributes?.map OrderedMap.keys).getD []).map (fun name => (name, .field))⟩ }

/-- All properties are raw fields. -/
def AllFields (metadata : Metadata) : Prop :=
  ∀ entry ∈ metadata.properties.entries, entry.2 = .field

end Metadata

end Reconciler
