import Reconciler.OrderedMap
import Reconciler.Value

/-! # Nodes

A node is what an object holds: its type, where it came from and its content. Beans hold named
attributes; arrays have a fixed number of slots; lists and sets grow, and a set refuses what it
already holds; maps bind each key once; the content of a sealed node cannot be inspected.

Every change of a node is an `Edit`. An edit that does not fit the node's content is refused and
changes nothing, so no edit changes the type or the shape of a node.
-/

namespace Reconciler

/-- Where a node came from. A managed node belongs to a store; it may be a stand-in generated by the
store, and its content may not have been loaded yet. -/
inductive Origin where
  | plain
  | managed (proxy loaded : Bool)
deriving DecidableEq, Repr, Inhabited

namespace Origin

/-- What a store gives to an entity that it takes in. -/
def stored : Origin := managed false true

def unloadedProxy : Origin := managed true false

def unloadedContainer : Origin := managed false false

def isManaged : Origin → Bool
  | plain => false
  | managed _ _ => true

def isProxy : Origin → Bool
  | plain => false
  | managed proxy _ => proxy

def isLoaded : Origin → Bool
  | plain => true
  | managed _ loaded => loaded

end Origin

inductive CollectionKind where
  | list
  | set
deriving DecidableEq, Repr, Inhabited

def CollectionKind.typeName : CollectionKind → TypeName
  | list => .list
  | set => .set

/-- The named values of a bean, in the order in which they were first set. -/
abbrev Attributes := OrderedMap String Value

inductive Content where
  | bean (attributes : Attributes)
  | array (component : TypeName) (slots : List Value)
  | collection (kind : CollectionKind) (elements : List Value)
  | map (bindings : OrderedMap Value Value)
  | sealed
deriving DecidableEq, Repr, Inhabited

structure Node where
  type : TypeName
  origin : Origin := .plain
  content : Content
deriving DecidableEq, Repr

namespace Content

/-- The elements after `value` was offered: a set that already holds it stays as it is. -/
def appended (kind : CollectionKind) (elements : List Value) (value : Value) : List Value :=
  if kind = .set ∧ value ∈ elements then elements else elements ++ [value]

/-- Offer values one by one to an empty collection. -/
def collected (kind : CollectionKind) (values : List Value) : List Value :=
  values.foldl (appended kind) []

/-- Content of the same shape without anything in it. Arrays keep their length. -/
def emptied : Content → Content
  | bean _ => bean .empty
  | array component slots => array component (List.replicate slots.length .null)
  | collection kind _ => collection kind []
  | map _ => map .empty
  | sealed => sealed

/-- The built-in type of a container with this content. Beans and sealed nodes have none. -/
def shape? : Content → Option TypeName
  | bean _ => none
  | array component _ => some (.arrayOf component)
  | collection kind _ => some kind.typeName
  | map _ => some .map
  | sealed => none

end Content

namespace Node

def bean (type : TypeName) (attributes : List (String × Value)) : Node :=
  { type, content := .bean (.ofList attributes) }

def collection (type : TypeName) (kind : CollectionKind) (values : List Value) : Node :=
  { type, content := .collection kind (Content.collected kind values) }

def list (values : List Value) : Node := collection .list .list values

def set (values : List Value) : Node := collection .set .set values

def map (bindings : List (Value × Value)) : Node :=
  { type := .map, content := .map (.ofList bindings) }

def array (component : TypeName) (slots : List Value) : Node :=
  { type := .arrayOf component, content := .array component slots }

def sealed (type : TypeName) : Node := { type, content := .sealed }

instance : Inhabited Node := ⟨sealed ⟨""⟩⟩

/-- A stand-in for an entity whose attributes are still in the store. -/
def placeholder (type : TypeName) : Node :=
  { bean type [] with origin := .unloadedProxy }

/-- A collection whose elements are still in the store. -/
def lazyCollection (kind : CollectionKind) : Node :=
  { collection kind.typeName kind [] with origin := .unloadedContainer }

/-- A map whose entries are still in the store. -/
def lazyMap : Node := { map [] with origin := .unloadedContainer }

/-- A plain node of the same type and shape without anything in it. -/
def emptyLike (node : Node) : Node :=
  { type := node.type, origin := .plain, content := node.content.emptied }

def shape? (node : Node) : Option TypeName := node.content.shape?

def attributes? (node : Node) : Option Attributes :=
  match node.content with
  | .bean attributes => some attributes
  | _ => none

def isBean (node : Node) : Bool := node.attributes?.isSome

/-- The attributes of a bean; other nodes have none. -/
def attributes (node : Node) : Attributes := node.attributes?.getD .empty

/-- A raw attribute; null if it is missing or the node is no bean. -/
def attr (node : Node) (name : String) : Value :=
  ((node.attributes?.bind (·.get? name))).getD .null

def items? (node : Node) : Option (List Value) :=
  match node.content with
  | .array _ slots => some slots
  | .collection _ elements => some elements
  | _ => none

/-- The slots of an array or the elements of a collection. -/
def items (node : Node) : List Value := node.items?.getD []

def bindings? (node : Node) : Option (List (Value × Value)) :=
  match node.content with
  | .map bindings => some bindings.entries
  | _ => none

/-- The entries of a map. -/
def bindings (node : Node) : List (Value × Value) := node.bindings?.getD []

theorem items_of_collection {node : Node} {kind : CollectionKind} {elements : List Value}
    (content : node.content = .collection kind elements) : node.items = elements := by
  simp [items, items?, content]

theorem items_of_array {node : Node} {component : TypeName} {slots : List Value}
    (content : node.content = .array component slots) : node.items = slots := by
  simp [items, items?, content]

theorem bindings_of_map {node : Node} {bindings : OrderedMap Value Value}
    (content : node.content = .map bindings) : node.bindings = bindings.entries := by
  simp [Node.bindings, bindings?, content]

/-- What a map binds to a key. -/
def lookUp? (node : Node) (key : Value) : Option Value :=
  match node.content with
  | .map bindings => bindings.get? key
  | _ => none

/-- The number of attributes, slots, elements or entries. -/
def size (node : Node) : Nat :=
  match node.content with
  | .bean attributes => attributes.size
  | .array _ slots => slots.length
  | .collection _ elements => elements.length
  | .map bindings => bindings.size
  | .sealed => 0

/-- Collections and maps grow and shrink; everything else has a fixed layout. -/
def isContainer (node : Node) : Bool :=
  match node.content with
  | .collection _ _ => true
  | .map _ => true
  | _ => false

/-- Arrays whose slots hold scalars are copied without a look at the slots. -/
def hasScalarSlots (node : Node) : Bool :=
  match node.content with
  | .array component _ => component.isScalar
  | _ => false

end Node

/-- A change of one node. -/
inductive Edit where
  | setAttribute (name : String) (value : Value)
  | replaceAttributes (attributes : Attributes)
  | setItems (values : List Value)
  | setSlot (index : Nat) (value : Value)
  | append (value : Value)
  | setBindings (entries : List (Value × Value))
  | bind (key value : Value)
  | setOrigin (origin : Origin)
deriving DecidableEq, Repr, Inhabited

namespace Content

/-- The content after an edit, or nothing if the edit does not fit it. An array takes any number of
new items, a slot only if it is one of the array's. -/
def edited? : Content → Edit → Option Content
  | bean attributes, .setAttribute name value => some (bean (attributes.insert name value))
  | bean _, .replaceAttributes all => some (bean all)
  | array component _, .setItems values => some (array component values)
  | array component slots, .setSlot index value =>
      if index < slots.length then some (array component (slots.set index value)) else none
  | collection kind _, .setItems values => some (collection kind (collected kind values))
  | collection kind elements, .append value =>
      if kind = .set ∧ value ∈ elements then none else some (collection kind (elements ++ [value]))
  | map _, .setBindings entries => some (map (.ofList entries))
  | map bindings, .bind key value => some (map (bindings.insert key value))
  | content, .setOrigin _ => some content
  | _, _ => none

end Content

namespace Node

/-- Whether an edit takes effect on the node. -/
def accepts (node : Node) (edit : Edit) : Bool := (node.content.edited? edit).isSome

/-- The node after an edit; a refused edit leaves it as it was. -/
def edited (node : Node) (edit : Edit) : Node :=
  match node.content.edited? edit with
  | none => node
  | some content =>
      match edit with
      | .setOrigin origin => { node with origin, content }
      | _ => { node with content }

theorem edited_of_refused {node : Node} {edit : Edit} (refused : node.accepts edit = false) :
    node.edited edit = node := by
  have absent : node.content.edited? edit = none := by simpa [accepts] using refused
  simp [edited, absent]

/-- No edit changes the type of a node. -/
@[simp] theorem type_edited (node : Node) (edit : Edit) : (node.edited edit).type = node.type := by
  unfold edited
  split
  · rfl
  · split <;> rfl

/-- Only an explicit change of the origin changes where a node came from. -/
theorem origin_edited {node : Node} {edit : Edit} (other : ∀ origin, edit ≠ .setOrigin origin) :
    (node.edited edit).origin = node.origin := by
  unfold edited
  split
  · rfl
  · split
    · exact absurd rfl (other _)
    · rfl

end Node

theorem Content.shape?_of_edited? {before after : Content} {edit : Edit}
    (fits : before.edited? edit = some after) : after.shape? = before.shape? := by
  cases before <;> cases edit <;> simp_all [Content.edited?] <;> obtain ⟨_, rfl⟩ := fits <;> rfl

/-- No edit changes the shape of a node. -/
@[simp] theorem Node.shape?_edited (node : Node) (edit : Edit) :
    (node.edited edit).shape? = node.shape? := by
  unfold Node.edited
  split
  · rfl
  · next fits =>
    have same := Content.shape?_of_edited? fits
    split <;> exact same

end Reconciler
