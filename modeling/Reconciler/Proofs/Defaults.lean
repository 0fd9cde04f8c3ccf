import Reconciler.Handler.Dispatch
import Reconciler.Proofs.Attributes

/-! # The default handlers

With the default registrations scalars pass through, and an object whose type has no handler of its own is
treated as its content asks for.
-/

namespace Reconciler

/-- The handler that the content of an object asks for. -/
def Content.handler? : Content → Option Handler
  | bean _ => none
  | array _ _ => some .array
  | collection _ _ => some .collection
  | map _ => some .map
  | sealed => none

/-- What no handler is asked for has no shape. -/
theorem Content.shape?_of_handler? {content : Content} (unhandled : content.handler? = none) :
    content.shape? = none := by
  cases content with
  | bean | sealed => rfl
  | array | collection | map => cases unhandled

/-- A bean is walked property by property. -/
theorem Node.handler?_of_isBean {node : Node} (bean : node.isBean = true) : node.content.handler? = none := by
  rcases node with ⟨type, origin, content⟩
  cases content with
  | bean => rfl
  | _ => cases bean

theorem Node.notBean_of_handler? {node : Node} {handler : Handler}
    (handled : node.content.handler? = some handler) : node.isBean = false := by
  rcases bean : node.isBean with _ | _
  · rfl
  · cases handled.symm.trans (handler?_of_isBean bean)

/-- Collections and maps have handlers. -/
theorem Node.handler?_of_isContainer {node : Node} (container : node.isContainer = true) :
    node.content.handler? ≠ none := by
  rcases node with ⟨type, origin, content⟩
  cases content with
  | collection => exact Option.some_ne_none _
  | map => exact Option.some_ne_none _
  | _ => cases container

/-- Sets hold their elements once, and maps bind their keys once. -/
def Node.Distinct (node : Node) : Prop :=
  match node.content with
  | .collection .set elements => elements.Nodup
  | .map bindings => bindings.keys.Nodup
  | _ => True

/-- What no node violates: sets and maps repeat nothing, and the type of an array is that of its slots. -/
def Node.WellFormed (node : Node) : Prop :=
  node.Distinct ∧ ∀ component slots, node.content = .array component slots → node.type = .arrayOf component

theorem Node.hasScalarSlots_of_isBean {node : Node} (bean : node.isBean = true) : node.hasScalarSlots = false := by
  rcases node with ⟨type, origin, content⟩
  cases content with
  | bean attributes => rfl
  | _ => cases bean

theorem Node.wellFormed_of_isBean {node : Node} (bean : node.isBean = true) : node.WellFormed := by
  rcases node with ⟨type, origin, content⟩
  cases content with
  | bean => exact ⟨trivial, fun _ _ => nofun⟩
  | _ => cases bean

namespace Handler.Registry

theorem exact_withDefaults (schema : Schema) : (withDefaults schema).exact = ⟨[(.bool, .basic), (.int, .basic),
    (.float, .basic), (.text, .basic), (.list, .collection), (.set, .collection), (.map, .map),
    (.lazyHandle, .null)]⟩ := by
  rfl

/-- A type that was registered itself needs no supertypes. -/
theorem resolve_of_exact {registry : Registry} {type : TypeName} {handler : Handler}
    (found : registry.exact.get? type = some handler) : registry.resolve type = some handler := by
  rw [resolve, List.findSome?_cons, found]
  rfl

/-- Every array type has a handler. -/
theorem resolve_arrayOf (schema : Schema) (component : TypeName) :
    (withDefaults schema).resolve (.arrayOf component) ≠ none := by
  intro missing
  rw [resolve, Option.or_eq_none_iff, Option.map_eq_none_iff, List.find?_eq_none] at missing
  exact missing.2 ⟨TypeName.isArray, .array⟩ List.mem_cons_self (TypeName.isArray_arrayOf component)

/-- An array type without supertypes has the handler of arrays. -/
theorem resolve_arrayOf_of_rootless {schema : Schema} {component : TypeName}
    (rootless : schema.supertypes (.arrayOf component) = []) :
    (withDefaults schema).resolve (.arrayOf component) = some .array := by
  have array := TypeName.isArray_arrayOf component
  have named : ∀ entry ∈ (withDefaults schema).exact.entries, entry.1.isArray = false := by
    rw [exact_withDefaults]
    decide
  have unnamed : (withDefaults schema).exact.get? (.arrayOf component) = none := by
    rcases found : (withDefaults schema).exact.get? (.arrayOf component) with _ | handler
    · rfl
    · have other := named (.arrayOf component, handler) (OrderedMap.mem_of_get? found)
      cases array.symm.trans other
  have supertypes : (withDefaults schema).schema.supertypes (.arrayOf component) = [] := rootless
  have found : (withDefaults schema).dynamic.find? (·.accepts (.arrayOf component)) =
      some ⟨TypeName.isArray, .array⟩ := List.find?_cons_of_pos array
  rw [resolve, supertypes, List.findSome?_cons, unnamed, found]
  rfl

/-- With the default handlers an object of the type of its shape is treated as its content asks for. -/
theorem resolve_shape {schema : Schema} {content : Content} {type : TypeName} (shaped : content.shape? = some type)
    (rootless : type.isArray = true → schema.supertypes type = []) :
    (withDefaults schema).resolve type = content.handler? := by
  cases content with
  | collection kind elements =>
    obtain rfl := Option.some.inj shaped
    apply resolve_of_exact
    rw [exact_withDefaults]
    cases kind <;> decide
  | map bindings =>
    obtain rfl := Option.some.inj shaped
    apply resolve_of_exact
    rw [exact_withDefaults]
    decide
  | array component slots =>
    obtain rfl := Option.some.inj shaped
    exact resolve_arrayOf_of_rootless (rootless (TypeName.isArray_arrayOf component))
  | bean | sealed => cases shaped

/-- The handler of a scalar does not depend on the heap. -/
theorem ofValue_of_scalar (registry : Registry) {value : Value}
    (scalar : value.object? = none) (left right : Heap) :
    registry.ofValue left value = registry.ofValue right value := by
  cases value with
  | object id => cases scalar
  | _ => rfl

/-- The handler of an object depends on its type and its shape. -/
theorem ofValue_of_same (registry : Registry) {left right : Heap} {first second : ObjectId}
    (type : (left.node first).type = (right.node second).type)
    (shape : (left.node first).shape? = (right.node second).shape?) :
    registry.ofValue left (.object first) = registry.ofValue right (.object second) := by
  simp only [ofValue, Value.typeName?, Value.shape?, Value.object?, Option.bind_some, type, shape]

/-- With the default handlers a scalar passes through. -/
theorem ofValue_scalar (schema : Schema) (heap : Heap) {value : Value} (scalar : value.object? = none)
    {handler : Handler} (found : (withDefaults schema).ofValue heap value = some handler) :
    handler = .basic := by
  have resolved : ∀ type ∈ TypeName.scalars, (withDefaults schema).resolve type = some .basic := by
    intro type listed
    apply resolve_of_exact
    rw [exact_withDefaults]
    revert type
    decide
  have known : ∀ type, value.typeName? heap = some type → type ∈ TypeName.scalars := by
    cases value with
    | object id => cases scalar
    | null => exact fun type same => by cases same
    | _ =>
      intro type same
      obtain rfl := Option.some.inj same
      decide
  obtain ⟨type, same, found⟩ := Option.bind_eq_some_iff.1 found
  rw [resolved type (known type same), Option.some_or] at found
  exact (Option.some.inj found).symm

/-- With the default handlers an object has the handler of its shape, if that of its type is no other. -/
theorem ofValue_object (schema : Schema) {heap : Heap} {id : ObjectId} (wellFormed : (heap.node id).WellFormed)
    (resolved : ∀ handler, (withDefaults schema).resolve (heap.node id).type = some handler →
      (heap.node id).content.handler? = some handler) :
    (withDefaults schema).ofValue heap (.object id) = (heap.node id).content.handler? := by
  have shape : (withDefaults schema).ofValue heap (.object id) =
      ((withDefaults schema).resolve (heap.node id).type).or
        ((heap.node id).content.shape?.bind (withDefaults schema).resolve) := rfl
  rw [shape]
  rcases own : (withDefaults schema).resolve (heap.node id).type with _ | handler
  · rw [Option.none_or]
    cases content : (heap.node id).content with
    | array component slots =>
      rw [wellFormed.2 component slots content] at own
      exact absurd own (resolve_arrayOf schema component)
    | collection kind elements => exact resolve_shape rfl fun array => by cases kind <;> cases array
    | map bindings => exact resolve_shape rfl nofun
    | _ => rfl
  · rw [Option.some_or, resolved handler own]

end Handler.Registry

end Reconciler
