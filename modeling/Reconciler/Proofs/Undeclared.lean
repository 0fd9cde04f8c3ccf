import Reconciler.Proofs.Attributes
import Reconciler.Traversal.Run

/-! # Attributes that nobody declares

Two worlds differ only in attributes of beans that the metadata of their types do not declare. An action is
compared with its counterpart in the other world step by step: both answer the same, or both end the same way,
and the worlds that they leave differ in no more than the worlds that they started in. What an action may look
at follows from this relation: types, origins and the content of everything but a bean, and the declared
attributes of a bean.
-/

namespace Reconciler

/-- The metadata that a run uses for the objects of a type, whatever they hold. -/
def Setting.declared? (setting : Setting) (schema : Schema) (type : TypeName) : Option Metadata :=
  (setting.overrides.get? type).or (schema.metadata? type)

namespace Node

/-- Two beans that differ only in attributes that the metadata do not list. -/
structure Masked (metadata : Metadata) (left right : Node) : Prop where
  type_eq : left.type = right.type
  origin_eq : left.origin = right.origin
  left_bean : left.isBean = true
  right_bean : right.isBean = true
  attr_eq : ∀ name ∈ metadata.names, left.attr name = right.attr name

/-- Two nodes that are the same, or differ in what metadata of raw attributes do not list. -/
def Alike (metadata? : Option Metadata) (left right : Node) : Prop :=
  left = right ∨ ∃ metadata, metadata? = some metadata ∧ metadata.AllFields ∧ Masked metadata left right

/-- A view of nodes that does not look at the attributes of beans. -/
def Blind {α : Type} (view : Node → α) : Prop :=
  ∀ type origin one two, view ⟨type, origin, .bean one⟩ = view ⟨type, origin, .bean two⟩

private theorem Masked.beans {metadata : Metadata} {left right : Node} (masked : Masked metadata left right) :
    ∃ type origin one two, left = ⟨type, origin, .bean one⟩ ∧ right = ⟨type, origin, .bean two⟩ := by
  obtain ⟨same, other, left_bean, right_bean, -⟩ := masked
  rcases left with ⟨type, origin, one⟩
  rcases right with ⟨_, _, two⟩
  cases same
  cases other
  cases one with
  | bean one =>
    cases two with
    | bean two => exact ⟨type, origin, one, two, rfl, rfl⟩
    | _ => cases right_bean
  | _ => cases left_bean

private theorem Masked.view_eq {metadata : Metadata} {left right : Node} (masked : Masked metadata left right)
    {α : Type}
    {view : Node → α} (blind : Blind view) : view left = view right := by
  obtain ⟨type, origin, one, two, rfl, rfl⟩ := masked.beans
  exact blind type origin one two

/-- Two beans that differ in what is not listed still do after the same edit, or no longer differ. -/
theorem Masked.edited {metadata : Metadata} {left right : Node} (masked : Masked metadata left right) (edit : Edit) :
    left.edited edit = right.edited edit ∨ Masked metadata (left.edited edit) (right.edited edit) := by
  obtain ⟨type, origin, one, two, rfl, rfl⟩ := masked.beans
  have attr_eq := masked.attr_eq
  cases edit with
  | setAttribute name value =>
    refine .inr ⟨rfl, rfl, rfl, rfl, fun wanted listed => ?_⟩
    rw [attr_setAttribute rfl, attr_setAttribute rfl, attr_eq wanted listed]
  | replaceAttributes => exact .inl rfl
  | setOrigin => exact .inr ⟨rfl, rfl, rfl, rfl, attr_eq⟩
  | _ => exact .inr masked

namespace Alike

variable {metadata? : Option Metadata} {left right : Node}

theorem view_eq (alike : Alike metadata? left right) {α : Type} (view : Node → α) (blind : Blind view) :
    view left = view right := by
  rcases alike with rfl | ⟨metadata, -, -, masked⟩
  · rfl
  · exact masked.view_eq blind

private theorem edited (alike : Alike metadata? left right) (edit : Edit) :
    Alike metadata? (left.edited edit) (right.edited edit) := by
  rcases alike with rfl | ⟨metadata, known, fields, masked⟩
  · exact .inl rfl
  · exact (masked.edited edit).imp_right fun masked => ⟨metadata, known, fields, masked⟩

end Alike

end Node

namespace Property

variable {metadata? : Option Metadata} {metadata : Metadata} {left right : Heap} {id : ObjectId}
  (alike : Node.Alike metadata? (left.node id) (right.node id))
  (sees : ∀ hidden, metadata? = some hidden → hidden = metadata) {property : String}
  (listed : property ∈ metadata.names)

include alike sees listed

/-- A listed property is the same, or a raw attribute of two beans that is the same. -/
theorem same_or_field : left.node id = right.node id ∨
    metadata.access? property = some .field ∧ (left.node id).isBean = true ∧ (right.node id).isBean = true ∧
      (left.node id).attr property = (right.node id).attr property := by
  refine alike.imp_right ?_
  rintro ⟨hidden, known, fields, masked⟩
  obtain rfl := sees hidden known
  obtain ⟨access, declared⟩ := Metadata.access?_of_mem_names listed
  obtain rfl := fields.access?_eq declared
  exact ⟨declared, masked.left_bean, masked.right_bean, masked.attr_eq property listed⟩

private theorem read_of_alike : read left metadata id property = read right metadata id property := by
  rcases same_or_field alike sees listed with same | ⟨declared, left_bean, right_bean, same⟩
  · simp only [read, open?, same]
  · rw [read_field declared left_bean, read_field declared right_bean, same]

private theorem attempt_of_alike {value : Value} :
    attempt left metadata id property value = attempt right metadata id property value := by
  rcases same_or_field alike sees listed with same | ⟨declared, left_bean, right_bean, -⟩
  · simp only [attempt, open?, same]
  · rw [attempt_field declared left_bean, attempt_field declared right_bean]

end Property

/-- The metadata of a declared type do not depend on the object. -/
theorem MetadataCache.forNode_of_declared {cache : MetadataCache} {left right : Node} {metadata : Metadata}
    (declared : cache.schema.metadata? left.type = some metadata) (type : left.type = right.type) :
    cache.forNode right = cache.forNode left := by
  have answer := cache.get_fst left.type
  rw [declared] at answer
  unfold forNode
  rw [← type]
  rcases found : cache.get left.type with ⟨_ | known, after⟩
  · rw [found] at answer
    cases answer
  · rfl

/-- Two heaps of the same objects that differ only in undeclared attributes. -/
structure Heap.Alike (declared? : TypeName → Option Metadata) (left right : Heap) : Prop where
  size_eq : left.size = right.size
  node : ∀ id, Node.Alike (declared? (left.node id).type) (left.node id) (right.node id)

/-- How two runs are compared. -/
structure Comparison where
  setting : Setting
  /-- The metadata that hide what is different about an object. -/
  hides? : ObjectId → Option Metadata
  /-- Whether one of the runs may be short of fuel. -/
  lenient : Prop

namespace Comparison

/-- Worlds that differ only in what is hidden. What hides an object is declared for its type, which never changes,
so a run that asks for the metadata of the object gets these. -/
structure Relates (comparison : Comparison) (left right : World) : Prop where
  rest : right = { left with heap := right.heap }
  size_eq : left.heap.size = right.heap.size
  node : ∀ id, Node.Alike (comparison.hides? id) (left.heap.node id) (right.heap.node id)
  hides : ∀ id metadata, comparison.hides? id = some metadata → left.heap.Holds id ∧
    comparison.setting.declared? left.cache.schema (left.heap.node id).type = some metadata

/-- The same answer or the same ending in related worlds, unless one of the two was short of fuel. -/
def Agrees (comparison : Comparison) {α : Type} (left right : Except Ending α × World) : Prop :=
  left.1 = right.1 ∧ comparison.Relates left.2 right.2 ∨
    comparison.lenient ∧ (left.1 = .error .exhausted ∨ right.1 = .error .exhausted)

namespace Relates

variable {comparison : Comparison} {left right : World}

theorem view_eq (relates : comparison.Relates left right) (id : ObjectId) {α : Type} (view : Node → α)
    (blind : Node.Blind view) : view (left.heap.node id) = view (right.heap.node id) :=
  (relates.node id).view_eq view blind

/-- Objects of related worlds are of the same type. -/
theorem type_eq (relates : comparison.Relates left right) (id : ObjectId) :
    (left.heap.node id).type = (right.heap.node id).type :=
  relates.view_eq id Node.type fun _ _ _ _ => rfl

theorem fresh_eq (relates : comparison.Relates left right) : left.heap.fresh = right.heap.fresh :=
  congrArg ObjectId.mk relates.size_eq

/-- Nothing is hidden of an object that is not there yet. -/
theorem hides?_fresh (relates : comparison.Relates left right) : comparison.hides? left.heap.fresh = none := by
  rcases hidden : comparison.hides? left.heap.fresh with _ | metadata
  · rfl
  · exact absurd (relates.hides _ metadata hidden).1 left.heap.not_holds_fresh

/-- A change of neither heap. -/
theorem of_heaps (relates : comparison.Relates left right) {left' right' : World}
    (rest : right' = { left' with heap := right'.heap }) (left_heap : left'.heap = left.heap)
    (right_heap : right'.heap = right.heap) (schema : left'.cache.schema = left.cache.schema) :
    comparison.Relates left' right' where
  rest := rest
  size_eq := by rw [left_heap, right_heap, relates.size_eq]
  node id := by
    rw [left_heap, right_heap]
    exact relates.node id
  hides id metadata hidden := by
    rw [left_heap, schema]
    exact relates.hides id metadata hidden

/-- The same edit of the same object. -/
theorem edit (relates : comparison.Relates left right) (target : ObjectId) (change : Edit) (event : Event) :
    comparison.Relates
      { left with heap := left.heap.edit target change, journal := event :: left.journal }
      { right with heap := right.heap.edit target change, journal := event :: right.journal } where
  rest := by
    rw [relates.rest]
  size_eq := by
    simp only [Heap.size_edit, relates.size_eq]
  node id := by
    have held : left.heap.Holds target ↔ right.heap.Holds target := by
      rw [Heap.Holds, Heap.Holds, relates.size_eq]
    simp only [Heap.node_edit, held]
    split
    · exact (relates.node id).edited change
    · exact relates.node id
  hides id metadata hidden := by
    obtain ⟨held, known⟩ := relates.hides id metadata hidden
    refine ⟨?_, ?_⟩
    · rwa [Heap.holds_edit]
    · rwa [Heap.type_edit]

/-- New empty objects like the same object are the same. -/
theorem allocateLike (relates : comparison.Relates left right) (id : ObjectId) :
    comparison.Relates
      { left with heap := left.heap.allocate (left.heap.node id).emptyLike }
      { right with heap := right.heap.allocate (right.heap.node id).emptyLike } where
  rest := by
    rw [relates.rest]
  size_eq := by
    simp only [Heap.size_allocate, relates.size_eq]
  node other := by
    have same : (left.heap.node id).emptyLike = (right.heap.node id).emptyLike :=
      relates.view_eq id Node.emptyLike fun _ _ _ _ => rfl
    rw [Heap.node_allocate, Heap.node_allocate, ← relates.fresh_eq, same]
    split
    · exact .inl rfl
    · exact relates.node other
  hides other metadata hidden := by
    obtain ⟨held, known⟩ := relates.hides other metadata hidden
    refine ⟨Heap.holds_allocate.2 (.inl held), ?_⟩
    rwa [Heap.node_allocate_of_holds held]

end Relates

end Comparison

namespace Action

variable {comparison : Comparison} {α β : Type}

/-- From related worlds both actions come to the same outcome. -/
def Parallel (comparison : Comparison) (one two : Action α) : Prop :=
  ∀ left right, comparison.Relates left right → comparison.Agrees (one left) (two right)

theorem parallel_pure (answer : α) : (pure answer : Action α).Parallel comparison (pure answer) :=
  fun _ _ relates => .inl ⟨rfl, relates⟩

theorem parallel_stop (ending : Ending) : (stop ending : Action α).Parallel comparison (stop ending) :=
  fun _ _ relates => .inl ⟨rfl, relates⟩

theorem parallel_bind {one two : Action α} {next other : α → Action β} (first : one.Parallel comparison two)
    (rest : ∀ answer, (next answer).Parallel comparison (other answer)) :
    (one >>= next).Parallel comparison (two >>= other) := by
  intro left right relates
  rcases first left right relates with ⟨same, after⟩ | ⟨lenient, short⟩
  · rcases ran : one left with ⟨ending | answer, left'⟩ <;> rcases ran' : two right with ⟨_, right'⟩ <;>
      rw [ran, ran'] at same after <;> obtain rfl := same
    · rw [bind_of_error ran, bind_of_error ran']
      exact .inl ⟨rfl, after⟩
    · rw [bind_of_ok ran, bind_of_ok ran']
      exact rest answer left' right' after
  · refine .inr ⟨lenient, short.imp ?_ ?_⟩
    · intro exhausted
      rw [bind_of_error (Prod.ext exhausted rfl)]
    · intro exhausted
      rw [bind_of_error (Prod.ext exhausted rfl)]

/-- What is seen of related worlds need not be the same. -/
theorem parallel_look {view : World → α} {next other : α → Action β}
    (rest : ∀ left right, comparison.Relates left right →
      (next (view left)).Parallel comparison (other (view right))) :
    (look view >>= next).Parallel comparison (look view >>= other) :=
  fun left right relates => rest left right relates left right relates

theorem parallel_forM {items : List α} {body other : α → Action PUnit}
    (each : ∀ item ∈ items, (body item).Parallel comparison (other item)) :
    (items.forM body).Parallel comparison (items.forM other) := by
  induction items with
  | nil => exact parallel_pure _
  | cons head rest ih =>
    rw [List.forall_mem_cons] at each
    exact parallel_bind each.1 fun _ => ih each.2

theorem parallel_note (event : Event) : (note event).Parallel comparison (note event) :=
  fun _ _ relates => .inl ⟨rfl, relates.of_heaps (by rw [relates.rest]; rfl) rfl rfl rfl⟩

theorem parallel_record (source : ObjectId) (target : Value) :
    (record source target).Parallel comparison (record source target) :=
  fun _ _ relates => .inl ⟨rfl, relates.of_heaps (by rw [relates.rest]; rfl) rfl rfl rfl⟩

theorem parallel_edit (target : ObjectId) (change : Edit) :
    (edit target change).Parallel comparison (edit target change) :=
  fun _ _ relates => .inl ⟨rfl, relates.edit target change _⟩

/-- A call that does not look at the objects comes out the same on both sides. -/
theorem parallel_callStore (operation : StoreOperation) (outcome : EntityStore → Except StoreError α) :
    (callStore operation fun store _ => outcome store).Parallel comparison
      (callStore operation fun store _ => outcome store) := by
  intro left right relates
  have store : right.store = left.store := by rw [relates.rest]
  have outages : right.outages = left.outages := by rw [relates.rest]
  simp only [callStore, askStore, store, outages]
  rcases EntityStore.call operation (outcome left.store) left.outages with ⟨error | answer, remaining⟩
  · exact .inl ⟨rfl, relates.of_heaps (by rw [relates.rest]) rfl rfl rfl⟩
  · exact .inl ⟨rfl, relates.of_heaps (by rw [relates.rest]) rfl rfl rfl⟩

theorem parallel_flushFirst (setting : Setting) : (flushFirst setting).Parallel comparison (flushFirst setting) := by
  unfold flushFirst
  split
  · refine parallel_bind (parallel_callStore _ _) fun store left right relates => ?_
    exact .inl ⟨rfl, relates.of_heaps (by rw [relates.rest]; rfl) rfl rfl rfl⟩
  · exact parallel_pure ()

/-- A handler depends on the type and the shape of an object. -/
theorem parallel_handlerOf (value : Value) : (handlerOf value).Parallel comparison (handlerOf value) := by
  intro left right relates
  have type : value.typeName? left.heap = value.typeName? right.heap := by
    cases value with
    | object id => exact congrArg some (relates.type_eq id)
    | _ => rfl
  have shape : value.shape? left.heap = value.shape? right.heap := by
    cases value with
    | object id => exact relates.view_eq id Node.shape? fun _ _ _ _ => rfl
    | _ => rfl
  have same : right.dispatch.forValue right.heap value = left.dispatch.forValue left.heap value := by
    have dispatch : right.dispatch = left.dispatch := by rw [relates.rest]
    simp only [dispatch, Handler.Dispatch.forValue, type, shape]
  unfold handlerOf
  rw [same]
  exact .inl ⟨rfl, relates.of_heaps (by rw [relates.rest]) rfl rfl rfl⟩

/-- A new object like the same one. Nothing is hidden of it. -/
theorem parallel_allocateLike (id : ObjectId) {next other : Node → ObjectId → Action β}
    (rest : ∀ one two copy, Node.Alike (comparison.hides? id) one two → comparison.hides? copy = none →
      (next one copy).Parallel comparison (other two copy)) :
    (nodeOf id >>= fun node => allocate node.emptyLike >>= next node).Parallel comparison
      (nodeOf id >>= fun node => allocate node.emptyLike >>= other node) := by
  intro left right relates
  have agrees := rest _ (right.heap.node id) left.heap.fresh (relates.node id) relates.hides?_fresh _ _
    (relates.allocateLike id)
  show comparison.Agrees (next _ left.heap.fresh _) (other _ right.heap.fresh _)
  rwa [← relates.fresh_eq]

/-- The metadata of an object do not depend on what is hidden of it, and they are what hides it. -/
theorem parallel_metadataOf (id : ObjectId) {next other : Option Metadata → Action β}
    (rest : ∀ metadata?, (∀ hidden, comparison.hides? id = some hidden → metadata? = some hidden) →
      (next metadata?).Parallel comparison (other metadata?)) :
    (metadataOf comparison.setting id >>= next).Parallel comparison (metadataOf comparison.setting id >>= other) := by
  intro left right relates
  have cache : right.cache = left.cache := by rw [relates.rest]
  have hides := fun hidden hides => (relates.hides id hidden hides).2
  simp only [bind_apply, metadataOf, cache, ← relates.type_eq id]
  rcases replaced : comparison.setting.overrides.get? (left.heap.node id).type with _ | override
  · have declared : ∀ hidden, comparison.hides? id = some hidden →
        left.cache.schema.metadata? (left.heap.node id).type = some hidden := by
      intro hidden known
      have declared := hides hidden known
      rwa [Setting.declared?, replaced, Option.none_or] at declared
    -- Only an undeclared bean is introspected, and two of those are the same.
    have same : left.cache.forNode (right.heap.node id) = left.cache.forNode (left.heap.node id) := by
      rcases relates.node id with same | ⟨hidden, known, -, masked⟩
      · rw [same]
      · exact MetadataCache.forNode_of_declared (declared hidden known) masked.type_eq
    simp only [same]
    refine rest _ (fun hidden known => ?_) _ _ (relates.of_heaps (by rw [relates.rest]) rfl rfl ?_)
    · rw [MetadataCache.forNode_fst, declared hidden known, Option.some_or]
    · exact MetadataCache.schema_forNode _ _
  · refine rest (some override) (fun hidden known => ?_) _ _ relates
    have declared := hides hidden known
    rwa [Setting.declared?, replaced, Option.some_or] at declared

section Properties

variable {metadata : Metadata} {id : ObjectId}
  (sees : ∀ hidden, comparison.hides? id = some hidden → hidden = metadata)
  {property : String} (listed : property ∈ metadata.names)

include sees listed

theorem parallel_readProperty :
    (readProperty metadata id property).Parallel comparison (readProperty metadata id property) := by
  intro left right relates
  unfold readProperty
  rw [Property.read_of_alike (relates.node id) sees listed]
  split
  · exact .inl ⟨rfl, relates⟩
  · exact .inl ⟨rfl, relates⟩

theorem parallel_writeProperty (value : Value) :
    (writeProperty metadata id property value).Parallel comparison (writeProperty metadata id property value) := by
  refine parallel_look fun left right relates => ?_
  rw [Property.attempt_of_alike (relates.node id) sees listed]
  rcases Property.attempt right.heap metadata id property value with error | ⟨change, refusal?⟩
  · exact parallel_stop _
  · refine parallel_bind (parallel_edit id change) fun _ => ?_
    cases refusal? with
    | none => exact parallel_pure ()
    | some error => exact parallel_stop _

end Properties

end Action

end Reconciler
