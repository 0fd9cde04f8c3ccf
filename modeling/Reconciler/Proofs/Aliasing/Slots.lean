import Reconciler.Proofs.Aliasing.Engine

/-! # Slots that hold one object

A loaded object that two slots hold has one image in the two slots of the copies, and so has an unloaded one that no
property holds. In a property an unloaded object is dropped, or replaced by an empty container of that property's own.
An array of scalars keeps whatever it holds. So the copies share what the slots share, as long as the slots leave the
object the same fate and none of them gets an empty container.
-/

namespace Reconciler

open Reconciler.Action

/-- A place where an object holds a value: a property, an element or a slot of an array, the key of an entry or the
value that is bound to it. -/
inductive Slot where
  | property (name : String)
  | item (index : Nat)
  | key (index : Nat)
  | bound (index : Nat)
deriving DecidableEq, Repr

def Slot.isProperty : Slot → Bool
  | property _ => true
  | _ => false

namespace Node

/-- What a node holds in a slot, if it has the slot. -/
def at? (node : Node) : Slot → Option Value
  | .property name => if node.isBean then some (node.attr name) else none
  | .item index => node.items[index]?
  | .key index => node.bindings[index]?.map Prod.fst
  | .bound index => node.bindings[index]?.map Prod.snd

/-- What a node holds once only: the elements of a set or the keys of a map. -/
def uniques (node : Node) : List Value :=
  match node.content with
  | .collection .set elements => elements
  | .map bindings => bindings.keys
  | _ => []

end Node

/-- What the copy of a slot holds in place of an object: the object itself, its copy, an empty container of that slot's
own, or null. -/
inductive Fate where
  | itself
  | copied
  | emptied
  | dropped
deriving DecidableEq, Repr

/-- The fate of an object that is asked about. -/
def World.fate (start : World) (id : ObjectId) : Fate :=
  match start.passed? id with
  | none => .copied
  | some .null => .dropped
  | some _ => .itself

/-- A value, or null in place of an object that its handler turns into null. -/
def World.standing (start : World) : Value → Value
  | .object id => if start.fate id = .dropped then .null else .object id
  | scalar => scalar

/-- A run that visits an object copies a slot of it: the type has the handler that the content asks for, and a property
is declared. No two elements of a set or keys of a map are equal or both become null, so the copy has as many. -/
structure World.Reads (setting : Setting) (start : World) (id : ObjectId) (slot : Slot) : Prop where
  handled : start.handler? id = (start.heap.node id).content.handler?
  declared : ∀ name, slot = .property name → name ∈ start.names setting id
  distinct : ((start.heap.node id).uniques.map start.standing).Nodup

/-- The fate of an object in a slot. Properties lose what is unloaded, and arrays of scalars keep what they have. -/
def World.fateIn (setting : Setting) (start : World) (holder : ObjectId) (slot : Slot) (id : ObjectId) : Fate :=
  if slot.isProperty = true ∧ (start.heap.node id).origin.isLoaded = false then
    if setting.empties (start.heap.node id) then .emptied else .dropped
  else if (start.heap.node holder).hasScalarSlots then .itself
  else start.fate id

/-- What a slot holds in place of an object with this fate. -/
inductive Lands (start now : World) (id : ObjectId) : Fate → Value → Prop
  | itself (held : start.heap.Holds id) : Lands start now id .itself (.object id)
  | copied {copy : ObjectId} (visited : now.visits.get? id = some (.object copy)) :
      Lands start now id .copied (.object copy)
  | emptied {spare : ObjectId} (own : start.Spare now spare) : Lands start now id .emptied (.object spare)
  | dropped : Lands start now id .dropped .null

section Slots

variable {setting : Setting} {start now : World}

/-- The image of an object is what its fate says. -/
theorem World.lands_image (state : Reproducing start now) {id : ObjectId} (imaged : start.Imaged now (.object id)) :
    Lands start now id (start.fate id) (start.image now (.object id)) := by
  obtain ⟨held, known⟩ := imaged id rfl
  have image : start.image now (.object id) = ((start.passed? id).or (now.visits.get? id)).getD .null := rfl
  rw [image, World.fate]
  rcases passed : start.passed? id with _ | target
  · rw [World.image?, passed, Option.none_or] at known
    obtain ⟨target, visited⟩ := Option.ne_none_iff_exists'.1 known
    obtain ⟨-, -, copy, rfl, -⟩ := state.visited id target visited
    rw [Option.none_or, visited]
    exact .copied visited
  · unfold World.passed? at passed
    split at passed
    · cases passed
      exact .dropped
    · cases passed
      exact .itself held
    · cases passed
      exact .itself held
    · cases passed

/-- An image that is no object is what stands in place of the value. -/
theorem World.image_eq_standing {value : Value} (state : Reproducing start now) (imaged : start.Imaged now value)
    (scalar : ∀ part, start.image now value ≠ .object part) : start.image now value = start.standing value := by
  cases value with
  | object id =>
    have lands := World.lands_image state imaged
    rw [World.standing]
    generalize start.fate id = fate at lands ⊢
    generalize image : start.image now (.object id) = result at lands ⊢
    cases lands with
    | dropped => rfl
    | itself | copied | emptied => exact absurd image (scalar _)
  | _ => rfl

/-- Values have different images, except those that become null. -/
theorem World.standing_eq {left right : Value} (state : Reproducing start now) (imaged : start.Imaged now left)
    (imaged' : start.Imaged now right) (same : start.image now left = start.image now right) :
    start.standing left = start.standing right := by
  by_cases scalar : ∀ part, start.image now left ≠ .object part
  · have scalar' : ∀ part, start.image now right ≠ .object part := same ▸ scalar
    rw [← World.image_eq_standing state imaged scalar, ← World.image_eq_standing state imaged' scalar', same]
  · obtain ⟨part, object⟩ := not_forall_not.1 scalar
    have object' := same.symm.trans object
    rcases World.image_cases imaged object with ⟨held, rfl, -⟩ | ⟨id, rfl, visited⟩
    · rcases World.image_cases imaged' object' with ⟨-, rfl, -⟩ | ⟨id, rfl, visited⟩
      · rfl
      · exact absurd held (state.not_holds_copy visited)
    · rcases World.image_cases imaged' object' with ⟨held, rfl, -⟩ | ⟨id', rfl, visited'⟩
      · exact absurd held (state.not_holds_copy visited)
      · rw [state.injective id id' _ visited visited']

private theorem Node.at?_of_content {node copy : Node} (same : copy.content = node.content) (slot : Slot) :
    copy.at? slot = node.at? slot := by
  rcases node with ⟨type, origin, content⟩
  rcases copy with ⟨type', origin', _⟩
  cases same
  cases slot <;> rfl

private theorem Content.mapped_of_hasScalarSlots {node : Node} (scalars : node.hasScalarSlots = true)
    (image : Value → Value) :
    node.content.mapped image = node.content := by
  rcases node with ⟨type, origin, content⟩
  cases content with
  | array component slots => exact congrArg (array component) (if_pos scalars)
  | _ => cases scalars

/-- The parts of a node stay apart, so its copy has the same slots with the images in them. -/
theorem Node.at?_mapped {node copy : Node} {image : Value → Value} (content : copy.content = node.content.mapped image)
    (mixed : node.hasScalarSlots = false) (distinct : (node.uniques.map image).Nodup) {slot : Slot}
    (other : slot.isProperty = false) : copy.at? slot = (node.at? slot).map image := by
  have items : copy.items = node.items.map image := by
    rcases node with ⟨type, origin, before⟩
    cases before with
    | array component slots =>
      have objects : ¬ component.isScalar = true := Bool.eq_false_iff.1 mixed
      rw [Content.mapped, if_neg objects] at content
      exact Node.items_of_array content
    | collection kind elements =>
      rw [Node.items_of_collection content]
      apply Content.collected_eq
      rintro rfl
      exact distinct
    | _ => simp [Node.items, Node.items?, content, Content.mapped]
  have bindings : copy.bindings = node.bindings.map (fun entry => (image entry.1, image entry.2)) := by
    rcases node with ⟨type, origin, before⟩
    cases before with
    | map bindings =>
      rw [Node.bindings_of_map content, OrderedMap.ofList_of_nodup]
      · rfl
      · simpa [Node.uniques, OrderedMap.keys, Function.comp_def] using distinct
    | _ => simp [Node.bindings, Node.bindings?, content, Content.mapped]
  cases slot with
  | property name => cases other
  | item index => rw [Node.at?, Node.at?, items, List.getElem?_map]
  | key index =>
    rw [Node.at?, Node.at?, bindings, List.getElem?_map, Option.map_map, Option.map_map]
    rfl
  | bound index =>
    rw [Node.at?, Node.at?, bindings, List.getElem?_map, Option.map_map, Option.map_map]
    rfl

/-- Slots other than properties are those of the parts of a node that has a handler by its content. -/
theorem Node.mem_parts_of_at? {node : Node} {slot : Slot} {part : Value} (other : slot.isProperty = false)
    (holds : node.at? slot = some part) : part ∈ node.parts ∧ node.content.handler? ≠ none := by
  constructor
  · cases slot with
    | property name => cases other
    | item index => exact Node.mem_parts_of_items (List.mem_of_getElem? holds)
    | key index =>
      obtain ⟨entry, known, rfl⟩ := Option.map_eq_some_iff.1 holds
      exact (Node.mem_parts_of_bindings (List.mem_of_getElem? known)).1
    | bound index =>
      obtain ⟨entry, known, rfl⟩ := Option.map_eq_some_iff.1 holds
      exact (Node.mem_parts_of_bindings (List.mem_of_getElem? known)).2
  · rcases node with ⟨type, origin, content⟩
    cases content with
    | bean | sealed =>
      cases slot with
      | property name => cases other
      | _ => cases holds
    | _ => exact Option.some_ne_none _

private theorem Node.mem_parts_of_uniques {node : Node} {part : Value} (listed : part ∈ node.uniques) :
    part ∈ node.parts := by
  rcases node with ⟨type, origin, content⟩
  cases content with
  | collection kind elements =>
    cases kind with
    | list => cases listed
    | set => exact listed
  | map bindings =>
    obtain ⟨entry, member, rfl⟩ := List.mem_map.1 listed
    exact Node.mem_flatMap_of_mem member (.inl rfl)
  | _ => cases listed

/-- A slot of a copy holds what the fate of the object says. -/
theorem Reproduces.lands {id copy : ObjectId} (reproduces : Reproduces setting start now id copy)
    (state : Reproducing start now) (closed : start.heap.Closed) {slot : Slot} (reads : start.Reads setting id slot)
    {part : ObjectId} (holds : (start.heap.node id).at? slot = some (.object part)) :
    ∃ result, (now.heap.node copy).at? slot = some result ∧
      Lands start now part (start.fateIn setting id slot part) result := by
  rcases other : slot.isProperty with _ | _
  · obtain ⟨listed, shaped⟩ := Node.mem_parts_of_at? other holds
    obtain ⟨handler, asked⟩ := Option.ne_none_iff_exists'.1 shaped
    obtain ⟨content, imaged⟩ := reproduces.members handler (reads.handled.trans asked) asked
    rw [World.fateIn, if_neg (by simp [other])]
    rcases mixed : (start.heap.node id).hasScalarSlots with _ | _
    · have distinct : ((start.heap.node id).uniques.map (start.image now)).Nodup := by
        have apart := List.pairwise_map.1 reads.distinct
        refine List.pairwise_map.2 (apart.imp_of_mem fun left right differ same => differ ?_)
        exact World.standing_eq state (imaged mixed _ (Node.mem_parts_of_uniques left))
          (imaged mixed _ (Node.mem_parts_of_uniques right)) same
      refine ⟨start.image now (.object part), ?_, World.lands_image state (imaged mixed _ listed)⟩
      rw [Node.at?_mapped content mixed distinct other, holds]
      rfl
    · rw [Content.mapped_of_hasScalarSlots mixed] at content
      exact ⟨.object part, (Node.at?_of_content content slot).trans holds, .itself (closed id part listed)⟩
  · cases slot with
    | property name =>
      rw [Node.at?, Option.ite_none_right_eq_some] at holds
      obtain ⟨bean, held⟩ := holds
      have unhandled := reads.handled.trans (Node.handler?_of_isBean bean)
      obtain ⟨copied, values⟩ := reproduces.properties unhandled bean
      have replaced := values name (reads.declared name rfl)
      rw [Option.some.inj held] at replaced
      refine ⟨(now.heap.node copy).attr name, by rw [Node.at?, if_pos copied], ?_⟩
      generalize (now.heap.node copy).attr name = result at replaced
      cases replaced with
      | image loaded imaged =>
        have present : ¬ (start.heap.node part).origin.isLoaded = false := by
          rw [Bool.not_eq_false]
          exact loaded
        rw [World.fateIn, if_neg fun absent => present absent.2, Node.hasScalarSlots_of_isBean bean]
        exact World.lands_image state imaged
      | dropped unloaded stays =>
        rw [World.fateIn, if_pos ⟨rfl, unloaded⟩, stays]
        exact .dropped
      | emptied unloaded empties own =>
        rw [World.fateIn, if_pos ⟨rfl, unloaded⟩, if_pos empties]
        exact .emptied own
    | _ => cases other

/-- Only a property gets an empty container of its own. -/
theorem World.exists_property {holder id : ObjectId} {slot : Slot}
    (emptied : start.fateIn setting holder slot id = .emptied) : ∃ name, slot = .property name := by
  cases slot with
  | property name => exact ⟨name, rfl⟩
  | _ =>
    rw [World.fateIn, if_neg (by simp [Slot.isProperty])] at emptied
    split at emptied
    · cases emptied
    · unfold World.fate at emptied
      split at emptied <;> cases emptied

private theorem Node.attr_of_at? {node : Node} {name : String} {value : Value}
    (holds : node.at? (.property name) = some value) : node.attr name = value := by
  rw [Node.at?, Option.ite_none_right_eq_some] at holds
  exact Option.some.inj holds.2

/-- A value takes the place of an object under one fate only. -/
theorem Lands.fate_eq (state : Reproducing start now) {id : ObjectId} {fate fate' : Fate} {result : Value}
    (lands : Lands start now id fate result) (lands' : Lands start now id fate' result) : fate = fate' := by
  cases lands with
  | itself held =>
    cases lands' with
    | itself => rfl
    | copied visited => exact absurd held (state.not_holds_copy visited)
    | emptied own => exact absurd held own.new
  | copied visited =>
    cases lands' with
    | itself held => exact absurd held (state.not_holds_copy visited)
    | copied => rfl
    | emptied own => exact absurd visited (own.unrecorded id)
  | emptied own =>
    cases lands' with
    | itself held => exact absurd held own.new
    | copied visited => exact absurd visited (own.unrecorded id)
    | emptied => rfl
  | dropped =>
    cases lands'
    rfl

/-- One value takes the place of an object, unless it is an empty container. -/
theorem Lands.eq {id : ObjectId} {fate : Fate} {one two : Value} (lands : Lands start now id fate one)
    (lands' : Lands start now id fate two) (other : fate ≠ .emptied) : one = two := by
  cases lands with
  | itself =>
    cases lands'
    rfl
  | copied visited =>
    cases lands' with
    | copied visited' => exact Option.some.inj (visited.symm.trans visited')
  | emptied => exact absurd rfl other
  | dropped =>
    cases lands'
    rfl

/-- Two slots of copies hold one value if they leave an object the same fate, unless both got empty containers. -/
theorem Reproducing.eq_iff (state : Reproducing start now) {left right copy copy' : ObjectId}
    (visited : now.visits.get? left = some (.object copy)) (visited' : now.visits.get? right = some (.object copy'))
    {slot slot' : Slot} {one two : Value} (here : (now.heap.node copy).at? slot = some one)
    (there : (now.heap.node copy').at? slot' = some two) {shared : ObjectId}
    (lands : Lands start now shared (start.fateIn setting left slot shared) one)
    (lands' : Lands start now shared (start.fateIn setting right slot' shared) two) :
    one = two ↔ start.fateIn setting left slot shared = start.fateIn setting right slot' shared ∧
      (start.fateIn setting left slot shared = .emptied → left = right ∧ slot = slot') := by
  constructor
  · rintro rfl
    have same := lands.fate_eq state lands'
    refine ⟨same, fun emptied => ?_⟩
    obtain ⟨name, rfl⟩ := World.exists_property emptied
    obtain ⟨name', rfl⟩ := World.exists_property (same.symm.trans emptied)
    rw [emptied] at lands
    cases lands with
    | emptied own =>
      obtain ⟨rfl, rfl⟩ := state.unshared copy copy' name name' _ (Node.attr_of_at? here) (Node.attr_of_at? there) own
      exact ⟨state.injective left right _ visited visited', rfl⟩
  · rintro ⟨same, own⟩
    by_cases emptied : start.fateIn setting left slot shared = .emptied
    · obtain ⟨rfl, rfl⟩ := own emptied
      cases visited.symm.trans visited'
      exact Option.some.inj (here.symm.trans there)
    · exact lands.eq (same ▸ lands') emptied

end Slots

/-- While graphs are cloned, two slots that hold one object end up with one value if and only if the slots leave the
object the same fate, and are one slot if that fate is an empty container. -/
theorem Setting.disconnect_aliases {setting : Setting} {schema : Schema} {world after : World} {value result : Value}
    (clones : setting.config.cloneObjects = true) (defaults : world.dispatch.registry = .withDefaults schema)
    (closed : world.heap.Closed) (held : ∀ id, value = .object id → world.heap.Holds id)
    (fields : ∀ id, world.heap.Holds id → ∀ metadata, world.metadata? setting id = some metadata → metadata.AllFields)
    (run : setting.disconnect value world = (.ok result, after)) {left right copy copy' : ObjectId}
    (visited : after.visits.get? left = some (.object copy))
    (visited' : after.visits.get? right = some (.object copy')) {slot slot' : Slot}
    (reads : world.Reads setting left slot) (reads' : world.Reads setting right slot') {shared : ObjectId}
    (holds : (world.heap.node left).at? slot = some (.object shared))
    (holds' : (world.heap.node right).at? slot' = some (.object shared)) :
    ∃ one two, (after.heap.node copy).at? slot = some one ∧ (after.heap.node copy').at? slot' = some two ∧
      (one = two ↔ world.fateIn setting left slot shared = world.fateIn setting right slot' shared ∧
        (world.fateIn setting left slot shared = .emptied → left = right ∧ slot = slot')) := by
  have replicable : Replicable setting world.rested := ⟨clones, ⟨schema, defaults⟩, closed, fields⟩
  have begun : Reproducing world.rested world.rested := .start closed rfl
  obtain ⟨state, since, -, -⟩ := (reproducer_answer replicable (world.rested.fuel setting) world.rested value begun
    held).answered result after run
  have reads : world.rested.Reads setting left slot := { reads with }
  have reads' : world.rested.Reads setting right slot' := { reads' with }
  obtain ⟨one, here, lands⟩ := (since.reproduces left copy not_false rfl visited).lands state closed reads holds
  obtain ⟨two, there, lands'⟩ :=
    (since.reproduces right copy' not_false rfl visited').lands state closed reads' holds'
  exact ⟨one, two, here, there, state.eq_iff visited visited' here there lands lands'⟩

namespace Boards

def schema : Schema := ⟨[{ name := ⟨"Board"⟩, properties := .ofList [("chair", .field), ("people", .field),
  ("minutes", .field), ("motions", .field)] }]⟩

/-- A board whose chair is one of its people, with one list for the minutes and the motions that was not loaded. -/
def world : World where
  heap := ⟨#[.bean ⟨"Board"⟩ [("chair", .object ⟨1⟩), ("people", .object ⟨2⟩), ("minutes", .object ⟨3⟩),
      ("motions", .object ⟨3⟩)],
    .bean ⟨"Person"⟩ [("name", .text "Ann")], .set [.object ⟨1⟩], .lazyCollection .list]⟩
  dispatch := .ofRegistry (.withDefaults schema)
  cache := .ofSchema schema

def setting : Setting := { schema, config := { cloneObjects := true } }

def outcome : Except Ending Value × World := setting.disconnect (.object ⟨0⟩) world

private theorem schema_allFields : schema.AllFields := by
  intro decl declared
  obtain rfl := List.mem_singleton.1 declared
  exact OrderedMap.forall_ofList (fun access : Access => access = .field) (by simp)

/-- The chair of the new board is one of its people. -/
theorem chair_shared :
    outcome.1 = .ok (.object ⟨4⟩) ∧ outcome.2.visits.get? ⟨0⟩ = some (.object ⟨4⟩) ∧
      outcome.2.visits.get? ⟨2⟩ = some (.object ⟨6⟩) ∧
      ∃ chair, (outcome.2.heap.node ⟨4⟩).at? (.property "chair") = some chair ∧
        (outcome.2.heap.node ⟨6⟩).at? (.item 0) = some chair := by
  have answered : outcome.1 = .ok (.object ⟨4⟩) := by decide +kernel
  have board : outcome.2.visits.get? ⟨0⟩ = some (.object ⟨4⟩) := by decide +kernel
  have people : outcome.2.visits.get? ⟨2⟩ = some (.object ⟨6⟩) := by decide +kernel
  have chair : world.Reads setting ⟨0⟩ (.property "chair") := by
    refine ⟨by decide +kernel, ?_, by decide⟩
    rintro _ ⟨⟩
    decide +kernel
  have member : world.Reads setting ⟨2⟩ (.item 0) := by
    refine ⟨by decide +kernel, ?_, by decide +kernel⟩
    rintro _ ⟨⟩
  have run : setting.disconnect (.object ⟨0⟩) world = (.ok (.object ⟨4⟩), outcome.2) := Prod.ext answered rfl
  have held : ∀ id, Value.object ⟨0⟩ = .object id → world.heap.Holds id := by
    rintro _ ⟨⟩
    decide
  have here : (world.heap.node ⟨0⟩).at? (.property "chair") = some (.object ⟨1⟩) := by decide
  have there : (world.heap.node ⟨2⟩).at? (.item 0) = some (.object ⟨1⟩) := by decide
  obtain ⟨one, two, here, there, same⟩ := Setting.disconnect_aliases rfl rfl (by decide +kernel) held
    (fun _ _ _ => World.allFields_of_metadata? rfl schema_allFields) run board people chair member here there
  obtain rfl := same.2 ⟨by decide +kernel, by decide +kernel⟩
  exact ⟨answered, board, people, one, here, there⟩

/-- The minutes and the motions of the new board are two lists. -/
theorem lists_parted :
    setting.config.cloneObjects = true ∧ outcome.1 = .ok (.object ⟨4⟩) ∧
      (world.heap.node ⟨0⟩).attr "minutes" = .object ⟨3⟩ ∧ (world.heap.node ⟨0⟩).attr "motions" = .object ⟨3⟩ ∧
      outcome.2.visits.get? ⟨0⟩ = some (.object ⟨4⟩) ∧
      (outcome.2.heap.node ⟨4⟩).attr "minutes" = .object ⟨7⟩ ∧
      (outcome.2.heap.node ⟨4⟩).attr "motions" = .object ⟨8⟩ := by
  decide +kernel

end Boards

end Reconciler
