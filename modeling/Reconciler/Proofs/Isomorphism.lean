import Mathlib.Data.Set.Function
import Reconciler.Proofs.Clone.Engine

/-! # A clone is isomorphic to its original

With the default handlers and all of a graph loaded, a clone has one new object for each object of the graph:
a plain one of the same type, whose parts are the images of the original's parts.
-/

namespace Reconciler

open Reconciler.Action

/-- What a run reaches from a value through declared properties, elements, slots, keys and values. -/
inductive Setting.Reaches (setting : Setting) (world : World) (root : Value) : ObjectId → Prop
  | root {id : ObjectId} (same : root = .object id) : Reaches setting world root id
  | part {id part : ObjectId} (reached : Reaches setting world root id)
      (listed : .object part ∈ world.partsOf setting id) : Reaches setting world root part

/-- A loaded object whose type has no handler for another shape and whose properties are raw attributes. -/
structure Clonable (setting : Setting) (world : World) (id : ObjectId) : Prop where
  held : world.heap.Holds id
  wellFormed : (world.heap.node id).WellFormed
  loaded : (world.heap.node id).origin.isLoaded = true
  resolved : ∀ handler, world.dispatch.registry.resolve (world.heap.node id).type = some handler →
    (world.heap.node id).content.handler? = some handler
  fields : (world.heap.node id).isBean = true → ∀ metadata,
    world.metadata? setting id = some metadata → metadata.AllFields
  undeclared : (world.heap.node id).content = .sealed → world.metadata? setting id = none
  scalars : (world.heap.node id).hasScalarSlots = true →
    ∀ item ∈ (world.heap.node id).items, item.object? = none

/-- A value with its object renamed. -/
def Value.renamed (rename : ObjectId → ObjectId) : Value → Value
  | .object id => .object (rename id)
  | value => value

/-- A plain node of the same type with the images of the parts; a bean keeps the named attributes. -/
def Node.clone (node : Node) (names : List String) (image : Value → Value) : Node where
  type := node.type
  content :=
    match node.content with
    | .bean _ => .bean (.ofList (names.map (fun name => (name, image (node.attr name)))))
    | .array component slots => .array component (slots.map image)
    | .collection kind elements => .collection kind (elements.map image)
    | .map bindings => .map ⟨bindings.entries.map (fun entry => (image entry.1, image entry.2))⟩
    | .sealed => .sealed

theorem Copied.eq_renamed {now : World} {value image : Value} (copied : Copied now value image) :
    image = value.renamed now.copyOf := by
  cases copied with
  | scalar plain =>
    cases value with
    | object id => cases plain
    | _ => rfl
  | object visited =>
    rw [Value.renamed, World.copyOf, visited]
    rfl

/-- If all property values are loaded, the content of a copy is the image of the original's. -/
theorem Imitates.content_eq {names : List String} {origin : ObjectId → ObjectId} {source now : World}
    {node : Node} {copy : Content} (imitates : Imitates names origin source now node node.content copy)
    (loaded : node.isBean = true → ∀ name ∈ names, ∀ part, node.attr name = .object part →
      (source.heap.node part).origin.isLoaded = true) :
    copy = (node.clone names (Value.renamed now.copyOf)).content := by
  rcases node with ⟨type, state, content⟩
  cases imitates with
  | bean parts =>
    rename_i attributes values
    have same := eq_map_of_forall₂ parts fun value listed image copied => by
      obtain ⟨name, named, rfl⟩ := List.mem_map.1 listed
      exact (copied.copied_of_loaded (loaded rfl name named)).eq_renamed
    rw [same, List.map_map, ← List.map_prod_left_eq_zip]
    rfl
  | array parts => rw [eq_map_of_forall₂ parts fun _ _ _ copied => copied.eq_renamed, Node.clone]
  | collection parts => rw [eq_map_of_forall₂ parts fun _ _ _ copied => copied.eq_renamed, Node.clone]
  | map parts =>
    have image : ∀ entry image : Value × Value, Copied now entry.1 image.1 ∧ Copied now entry.2 image.2 →
        image = (entry.1.renamed now.copyOf, entry.2.renamed now.copyOf) :=
      fun entry image copied => Prod.ext copied.1.eq_renamed copied.2.eq_renamed
    simp [eq_map_of_forall₂ parts fun entry _ => image entry, Node.clone]
  | sealed => rfl

/-- If all parts are loaded, a copy is the image of its original. -/
theorem Mirrors.node_eq {setting : Setting} {source now : World} {origin : ObjectId → ObjectId}
    {id copy : ObjectId} (mirrors : Mirrors setting source origin now id copy)
    (loaded : ∀ part, .object part ∈ source.partsOf setting id →
      (source.heap.node part).origin.isLoaded = true) :
    now.heap.node copy =
      (source.heap.node id).clone (source.names setting id) (Value.renamed now.copyOf) := by
  have values : (source.heap.node id).isBean = true → ∀ name ∈ source.names setting id, ∀ part,
      (source.heap.node id).attr name = .object part → (source.heap.node part).origin.isLoaded = true := by
    intro bean name named part value
    apply loaded part
    rw [World.partsOf]
    cases content : (source.heap.node id).content with
    | bean attributes => exact List.mem_map.2 ⟨name, named, value⟩
    | _ =>
      rw [Node.isBean, Node.attributes?, content] at bean
      cases bean
  have content := mirrors.content.content_eq values
  show Node.mk (now.heap.node copy).type (now.heap.node copy).origin (now.heap.node copy).content = _
  rw [mirrors.type_eq, mirrors.plain, content]
  rfl

/-- The copy of a container is the image of its original, whatever is loaded. -/
theorem Mirrors.node_eq_of_handled {setting : Setting} {source now : World} {origin : ObjectId → ObjectId}
    {id copy : ObjectId} (mirrors : Mirrors setting source origin now id copy)
    (handled : (source.heap.node id).content.handler? ≠ none) :
    now.heap.node copy = (source.heap.node id).clone [] (Value.renamed now.copyOf) := by
  have imitates : Imitates [] origin source now (source.heap.node id) _ _ := mirrors.content.of_handled handled
  have content := imitates.content_eq fun bean => absurd (Node.handler?_of_isBean bean) handled
  show Node.mk (now.heap.node copy).type (now.heap.node copy).origin (now.heap.node copy).content = _
  rw [mirrors.type_eq, mirrors.plain, content]
  rfl

/-- Only the image of an object is an object. -/
theorem Value.renamed_eq_object {rename : ObjectId → ObjectId} {value : Value} {id : ObjectId}
    (same : value.renamed rename = .object id) : ∃ original, value = .object original ∧ rename original = id := by
  cases value with
  | object original => exact ⟨original, rfl, Value.object.inj same⟩
  | _ => cases same

namespace Node

variable {node : Node} {names : List String} {image : Value → Value}

private theorem attributes?_clone (bean : node.isBean = true) : (node.clone names image).attributes? =
    some (.ofList (names.map (fun name => (name, image (node.attr name))))) := by
  obtain ⟨attributes, known⟩ := Option.isSome_iff_exists.1 bean
  unfold attributes? at known ⊢
  unfold clone
  split at known
  · next content => rw [content]
  · cases known

private theorem attr_clone (bean : node.isBean = true) {name : String} (listed : name ∈ names) :
    (node.clone names image).attr name = image (node.attr name) := by
  rw [attr_of_attributes (attributes?_clone bean), OrderedMap.ofList, OrderedMap.get?_insertAll_map,
    if_pos listed]
  rfl

@[simp] theorem isBean_clone : (node.clone names image).isBean = node.isBean := by
  unfold isBean attributes? clone
  cases node.content <;> rfl

end Node

section Images

variable {setting : Setting} {source now : World} {id copy : ObjectId} {image : Value → Value}
  (schema : now.cache.schema = source.cache.schema)
  (node : now.heap.node copy = (source.heap.node id).clone (source.names setting id) image)

include schema node

/-- A copy has the properties of its original. -/
theorem mem_names_clone (name : String) :
    name ∈ now.names setting copy ↔ name ∈ source.names setting id := by
  have type : (now.heap.node copy).type = (source.heap.node id).type := by
    rw [node]
    rfl
  have bean : (now.heap.node copy).isBean = (source.heap.node id).isBean := by
    simp [node, Node.isBean_clone]
  have original : source.metadata? setting id = ((setting.overrides.get? (source.heap.node id).type).or
      (source.cache.schema.metadata? (source.heap.node id).type)).or
      (if (source.heap.node id).isBean then some (.introspect (source.heap.node id)) else none) := by
    simp [World.metadata?, Option.or_assoc]
  have copied : now.metadata? setting copy = ((setting.overrides.get? (source.heap.node id).type).or
      (source.cache.schema.metadata? (source.heap.node id).type)).or
      (if (source.heap.node id).isBean then some (.introspect (now.heap.node copy)) else none) := by
    simp [World.metadata?, type, schema, bean, Option.or_assoc]
  rw [World.names, copied]
  rcases known : (setting.overrides.get? (source.heap.node id).type).or
      (source.cache.schema.metadata? (source.heap.node id).type) with _ | metadata
  · -- An undeclared bean has the attributes that it got.
    rcases isBean : (source.heap.node id).isBean with _ | _
    · rw [known, isBean] at original
      rw [World.names, original]
      rfl
    · have keys : (Metadata.introspect (now.heap.node copy)).names =
          (OrderedMap.ofList ((source.names setting id).map
            (fun name => (name, image ((source.heap.node id).attr name))))).keys := by
        rw [Metadata.names, Metadata.introspect, node, Node.attributes?_clone isBean]
        simp [OrderedMap.keys]
      rw [if_pos rfl, Option.none_or, Option.map_some, Option.getD_some, keys, OrderedMap.ofList,
        OrderedMap.mem_keys_insertAll]
      simp [OrderedMap.keys, OrderedMap.empty]
  · rw [known] at original
    rw [World.names, original]
    rfl

/-- The parts of a copy are the images of the parts. -/
theorem mem_partsOf_clone (value : Value) :
    value ∈ now.partsOf setting copy ↔ ∃ part ∈ source.partsOf setting id, value = image part := by
  cases content : (source.heap.node id).content with
  | bean attributes =>
    have bean : (source.heap.node id).isBean = true := by
      rw [Node.isBean, Node.attributes?, content]
      rfl
    have copied : now.partsOf setting copy = (now.names setting copy).map (now.heap.node copy).attr := by
      simp [World.partsOf, node, Node.clone, content]
    have original : source.partsOf setting id = (source.names setting id).map (source.heap.node id).attr := by
      simp [World.partsOf, content]
    rw [copied, original]
    constructor
    · intro listed
      obtain ⟨name, named, rfl⟩ := List.mem_map.1 listed
      have known := (mem_names_clone schema node name).1 named
      exact ⟨_, List.mem_map.2 ⟨name, known, rfl⟩, by rw [node, Node.attr_clone bean known]⟩
    · rintro ⟨_, listed, rfl⟩
      obtain ⟨name, known, rfl⟩ := List.mem_map.1 listed
      have named := (mem_names_clone schema node name).2 known
      exact List.mem_map.2 ⟨name, named, by rw [node, Node.attr_clone bean known]⟩
  | map bindings =>
    have same : now.partsOf setting copy = (source.partsOf setting id).map image := by
      simp [World.partsOf, Node.parts, node, Node.clone, content, List.flatMap_map, List.map_flatMap]
    rw [same, List.mem_map]
    simp only [eq_comm]
  | _ =>
    have same : now.partsOf setting copy = (source.partsOf setting id).map image := by
      simp [World.partsOf, Node.parts, node, Node.clone, content]
    rw [same, List.mem_map]
    simp only [eq_comm]

end Images

/-- What can be cloned object by object can be cloned as a whole. -/
theorem Clonable.cloneable {setting : Setting} {world : World} {value : Value} {schema : Schema}
    (clones : setting.config.cloneObjects = true)
    (defaults : world.dispatch.registry = .withDefaults schema)
    (flushes : world.Serves .flush)
    (clonable : ∀ id, setting.Reaches world value id → Clonable setting world id) :
    Cloneable setting world.rested (setting.Reaches world value) where
  clones := clones
  flushes := flushes.rested
  scalar value plain handler found := by
    apply Handler.Registry.ofValue_scalar schema world.heap plain
    rw [← defaults]
    exact found
  copyable id reached := by
    have object := clonable id reached
    refine ⟨object.held, ?_, object.fields, object.undeclared, object.wellFormed.1, object.scalars⟩
    have resolved := object.resolved
    rw [defaults] at resolved
    show world.dispatch.registry.ofValue world.heap (.object id) = (world.heap.node id).content.handler?
    rw [defaults]
    exact Handler.Registry.ofValue_object schema object.wellFormed resolved
  loaded id reached := .inl (clonable id reached).loaded
  closed id reached part listed := .inl (.part reached listed)

/-- What is reached has a copy once the clone is complete, if everything is loaded. -/
theorem Setting.Reaches.visited {setting : Setting} {world cloned : World} {origin : ObjectId → ObjectId}
    {value result : Value} {id : ObjectId} (reached : setting.Reaches world value id)
    (loaded : ∀ id, setting.Reaches world value id → ∀ part, .object part ∈ world.partsOf setting id →
      (world.heap.node part).origin.isLoaded = true)
    (mirrors : ∀ id copy, cloned.visits.get? id = some (.object copy) →
      Mirrors setting world.rested origin cloned id copy)
    (copied : Copied cloned value result) : cloned.visits.get? id = some (.object (cloned.copyOf id)) := by
  induction reached with
  | root same =>
    subst same
    exact copied.object_eq.1
  | part reached listed ih =>
    obtain ⟨image, copied⟩ := (mirrors _ _ ih).exists_copied listed fun object same => by
      cases same
      exact loaded _ reached _ listed
    exact copied.object_eq.1

/-- Where everything is loaded and has its default handler, a clone is isomorphic to the original: it has one
new plain object for each, with the images of its parts. -/
theorem Setting.disconnect_isomorphic {setting : Setting} {world : World} {value : Value} {schema : Schema}
    (clones : setting.config.cloneObjects = true)
    (defaults : world.dispatch.registry = .withDefaults schema)
    (flushes : world.Serves .flush)
    (clonable : ∀ id, setting.Reaches world value id → Clonable setting world id) :
    ∃ result after rename, setting.disconnect value world = (.ok result, after) ∧
      result = value.renamed rename ∧
      Set.BijOn rename { id | setting.Reaches world value id } { id | setting.Reaches after result id } ∧
      ∀ id, setting.Reaches world value id →
        ¬ world.heap.Holds (rename id) ∧ after.heap.Holds (rename id) ∧
        after.heap.node (rename id) =
          (world.heap.node id).clone (world.names setting id) (Value.renamed rename) := by
  have cloneable := Clonable.cloneable clones defaults flushes clonable
  obtain ⟨result, after, origin, run, cloning, mirrors, copied⟩ :=
    Setting.exists_disconnect cloneable fun id same => .root same
  have parts : ∀ id, setting.Reaches world value id → ∀ part, .object part ∈ world.partsOf setting id →
      (world.heap.node part).origin.isLoaded = true :=
    fun id reached part listed => (clonable part (.part reached listed)).loaded
  have visited : ∀ id, setting.Reaches world value id →
      after.visits.get? id = some (.object (after.copyOf id)) :=
    fun id reached => reached.visited parts mirrors copied
  have image : ∀ id, setting.Reaches world value id → after.heap.node (after.copyOf id) =
      (world.heap.node id).clone (world.names setting id) (Value.renamed after.copyOf) :=
    fun id reached => (mirrors id _ (visited id reached)).node_eq (parts id reached)
  have result_eq := copied.eq_renamed
  refine ⟨result, after, after.copyOf, run, result_eq, ⟨?_, ?_, ?_⟩, ?_⟩
  · intro id reached
    induction reached with
    | root same => exact .root (by rw [result_eq, same]; rfl)
    | part reached listed ih =>
      exact .part ih ((mem_partsOf_clone cloning.schema (image _ reached) _).2 ⟨_, listed, rfl⟩)
  · intro left reached right reached' same
    have modelled := cloning.origin_of_visited (visited left reached)
    rw [← modelled, same, cloning.origin_of_visited (visited right reached')]
  · intro copy reached
    induction reached with
    | root same =>
      obtain ⟨id, root, rfl⟩ := Value.renamed_eq_object (result_eq.symm.trans same)
      exact ⟨id, .root root, rfl⟩
    | part _ listed ih =>
      obtain ⟨id, reached, rfl⟩ := ih
      obtain ⟨original, known, same⟩ := (mem_partsOf_clone cloning.schema (image id reached) _).1 listed
      obtain ⟨part, rfl, rfl⟩ := Value.renamed_eq_object same.symm
      exact ⟨part, .part reached known, rfl⟩
  · intro id reached
    obtain ⟨-, copy, same, -, new, held⟩ := cloning.visited id _ (visited id reached)
    obtain rfl := Value.object.inj same
    exact ⟨new, held, image id reached⟩

namespace Friends

def schema : Schema := ⟨[{ name := ⟨"Person"⟩, properties := .ofList [("friends", .field), ("seats", .field)] }]⟩

/-- A person among its own friends, with a map from the person to the friends. -/
def world : World where
  heap := ⟨#[.bean ⟨"Person"⟩ [("friends", .object ⟨1⟩), ("seats", .object ⟨2⟩)],
    .set [.object ⟨0⟩, .int 7], .map [(.object ⟨0⟩, .object ⟨1⟩)]]⟩
  dispatch := .ofRegistry (.withDefaults schema)
  cache := .ofSchema schema

def setting : Setting := { schema, config := { cloneObjects := true } }

private theorem reaches {id : ObjectId} (reached : setting.Reaches world (.object ⟨0⟩) id) :
    id ∈ [(⟨0⟩ : ObjectId), ⟨1⟩, ⟨2⟩] := by
  have closed : ∀ id ∈ [(⟨0⟩ : ObjectId), ⟨1⟩, ⟨2⟩], ∀ value ∈ world.partsOf setting id,
      ∀ part, value.object? = some part → part ∈ [(⟨0⟩ : ObjectId), ⟨1⟩, ⟨2⟩] := by
    decide +kernel
  induction reached with
  | root same => 
    cases same
    decide
  | part _ listed ih => exact closed _ ih _ listed _ rfl

private theorem schema_allFields : schema.AllFields := by
  intro decl declared
  obtain rfl := List.mem_singleton.1 declared
  exact OrderedMap.forall_ofList (fun access : Access => access = .field) (by simp)

private theorem clonable {id : ObjectId} (reached : setting.Reaches world (.object ⟨0⟩) id) :
    Clonable setting world id := by
  have listed := reaches reached
  have loaded : ∀ id ∈ [(⟨0⟩ : ObjectId), ⟨1⟩, ⟨2⟩], world.heap.Holds id ∧
      (world.heap.node id).origin.isLoaded = true ∧
      (∀ handler, world.dispatch.registry.resolve (world.heap.node id).type = some handler →
        (world.heap.node id).content.handler? = some handler) ∧
      (world.heap.node id).content ≠ .sealed ∧ (world.heap.node id).hasScalarSlots = false := by
    decide +kernel
  obtain ⟨held, loaded, resolved, inspected, objects⟩ := loaded id listed
  refine ⟨held, ?_, loaded, resolved, fun _ _ => World.allFields_of_metadata? rfl schema_allFields,
    fun content => absurd content inspected, fun scalar => by cases objects.symm.trans scalar⟩
  simp only [List.mem_cons, List.not_mem_nil, or_false] at listed
  rcases listed with rfl | rfl | rfl
  · exact ⟨trivial, fun component slots same => by cases same⟩
  · exact ⟨by show List.Nodup _; decide +kernel, fun component slots same => by cases same⟩
  · exact ⟨by show List.Nodup _; decide +kernel, fun component slots same => by cases same⟩

/-- A cyclic graph with shared objects is cloned. -/
theorem person_clone_isomorphic : ∃ result after rename,
    setting.disconnect (.object ⟨0⟩) world = (.ok result, after) ∧
      result = (Value.object ⟨0⟩).renamed rename ∧
      Set.BijOn rename { id | setting.Reaches world (.object ⟨0⟩) id } { id | setting.Reaches after result id } ∧
      ∀ id, setting.Reaches world (.object ⟨0⟩) id →
        ¬ world.heap.Holds (rename id) ∧ after.heap.Holds (rename id) ∧
        after.heap.node (rename id) =
          (world.heap.node id).clone (world.names setting id) (Value.renamed rename) :=
  Setting.disconnect_isomorphic (by rfl) (by rfl) ⟨rfl, rfl⟩ fun _ => clonable

end Friends

end Reconciler
