import Reconciler.Proofs.Severed

/-! # Shared objects of a clone

While a graph is cloned, every value has one image: scalars are their own images, an object that is visited has its
copy, and one that a handler passes through has what the handler makes of it. Handlers put the images of the parts into
the copy, and so does the property walk with loaded values, so what is shared stays shared. Unloaded property values
have no image. In place of each of them the walk puts null, or a new empty container that nothing else refers to.
-/

namespace Reconciler

open Reconciler.Action

/-- What takes the place of an object that a handler passes through or replaces by null. -/
def World.passed? (start : World) (id : ObjectId) : Option Value :=
  match start.handler? id with
  | some .null => some .null
  | some .basic | some .frozen => some (.object id)
  | _ => none

/-- The image of an object, if it has one by now. -/
def World.image? (start now : World) (id : ObjectId) : Option Value :=
  (start.passed? id).or (now.visits.get? id)

/-- What takes the place of a value. -/
def World.image (start now : World) : Value → Value
  | .object id => (start.image? now id).getD .null
  | scalar => scalar

/-- A value of the source that has an image by now. -/
def World.Imaged (start now : World) (value : Value) : Prop :=
  ∀ id, value = .object id → start.heap.Holds id ∧ start.image? now id ≠ none

/-- A new object that is nobody's copy. -/
structure World.Spare (start now : World) (id : ObjectId) : Prop where
  new : ¬ start.heap.Holds id
  unrecorded : ∀ source, now.visits.get? source ≠ some (.object id)

/-- An unloaded container is replaced by an empty one if the configuration says so. -/
def Setting.empties (setting : Setting) (node : Node) : Bool :=
  node.isContainer && setting.config.createEmptyCollections

/-- What takes the place of a property value: the image of a loaded value, and null or an empty container of its own in
place of an unloaded one. -/
inductive Replaced (setting : Setting) (start now : World) : Value → Value → Prop
  | image {value : Value} (loaded : value.isLoaded start.heap = true) (imaged : start.Imaged now value) :
      Replaced setting start now value (start.image now value)
  | dropped {part : ObjectId} (unloaded : (start.heap.node part).origin.isLoaded = false)
      (other : setting.empties (start.heap.node part) = false) :
      Replaced setting start now (.object part) .null
  | emptied {part spare : ObjectId} (unloaded : (start.heap.node part).origin.isLoaded = false)
      (empties : setting.empties (start.heap.node part) = true) (own : start.Spare now spare)
      (held : now.heap.Holds spare) (empty : now.heap.node spare = (start.heap.node part).emptyLike) :
      Replaced setting start now (.object part) (.object spare)

/-- A container with the images of its parts. A set takes them in one by one, and a map binds them one by one. An array
of scalars keeps what it has. -/
def Content.mapped (image : Value → Value) : Content → Content
  | bean attributes => bean attributes
  | array component slots => array component (if component.isScalar then slots else slots.map image)
  | collection kind elements => collection kind (collected kind (elements.map image))
  | map bindings => map (.ofList (bindings.entries.map (fun entry => (image entry.1, image entry.2))))
  | sealed => sealed

/-- The copy of a container holds the images of the parts. -/
structure World.Rebuilt (start now : World) (id copy : ObjectId) : Prop where
  content : (now.heap.node copy).content = (start.heap.node id).content.mapped (start.image now)
  imaged : (start.heap.node id).hasScalarSlots = false → ∀ part ∈ (start.heap.node id).parts, start.Imaged now part

/-- A copy holds what takes the place of the property values, if the source is a bean without a handler, or the images
of the parts, if the handler of the source is the one that its content asks for. -/
structure Reproduces (setting : Setting) (start now : World) (id copy : ObjectId) : Prop where
  held : now.heap.Holds copy
  properties : start.handler? id = none → (start.heap.node id).isBean = true →
    (now.heap.node copy).isBean = true ∧ ∀ name ∈ start.names setting id,
      Replaced setting start now ((start.heap.node id).attr name) ((now.heap.node copy).attr name)
  members : ∀ handler, start.handler? id = some handler → (start.heap.node id).content.handler? = some handler →
    start.Rebuilt now id copy

/-- A world that the cloning of a graph which began in `start` can be in. -/
structure Reproducing (start now : World) : Prop where
  later : start.Later now
  closed : now.heap.Closed
  kept : ∀ id, start.heap.Holds id → now.heap.node id = start.heap.node id
  visited : ∀ id target, now.visits.get? id = some target → start.heap.Holds id ∧ start.passed? id = none ∧
    ∃ copy, target = .object copy ∧ ¬ start.heap.Holds copy ∧ now.heap.Holds copy
  injective : ∀ left right target, now.visits.get? left = some target → now.visits.get? right = some target →
    left = right
  unshared : ∀ left right name name' spare, (now.heap.node left).attr name = .object spare →
    (now.heap.node right).attr name' = .object spare → start.Spare now spare → left = right ∧ name = name'

/-- What a part of a run does that finds `now` and leaves `after`: it edits only what it allocates, visited objects
get new copies, and these reproduce them, except those that are still open. -/
structure Reproduction (setting : Setting) (start : World) (opened : ObjectId → Prop) (now after : World) :
    Prop where
  later : now.Later after
  kept : ∀ id, now.heap.Holds id → after.heap.node id = now.heap.node id
  fresh : ∀ id copy, after.visits.get? id = some (.object copy) →
    now.visits.get? id = some (.object copy) ∨ ¬ now.heap.Holds copy
  reproduces : ∀ id copy, ¬ opened id → now.visits.get? id = none →
    after.visits.get? id = some (.object copy) → Reproduces setting start after id copy

/-- What is offered to a collection is taken in, unless it is refused. -/
theorem Node.content_append {node : Node} {kind : CollectionKind} {elements : List Value}
    (content : node.content = .collection kind elements) (value : Value) :
    (node.edited (.append value)).content = .collection kind (Content.appended kind elements value) := by
  unfold Node.edited Content.appended
  rw [content, Content.edited?]
  by_cases refused : kind = .set ∧ value ∈ elements
  · rw [if_pos refused, if_pos refused]
    exact content
  · rw [if_neg refused, if_neg refused]

section Images

variable {setting : Setting} {start now after : World} {value : Value}

theorem World.Imaged.scalar (plain : value.object? = none) : start.Imaged now value := by
  rintro id rfl
  cases plain

theorem World.image_of_scalar (plain : value.object? = none) : start.image now value = value := by
  cases value with
  | object id => cases plain
  | _ => rfl

/-- An object has one image once and for all. -/
theorem World.image?_later (later : now.Later after) {id : ObjectId} (known : start.image? now id ≠ none) :
    start.image? after id = start.image? now id := by
  unfold image? at known ⊢
  rcases passed : start.passed? id with _ | _
  · rw [passed, Option.none_or] at known
    obtain ⟨target, visited⟩ := Option.ne_none_iff_exists'.1 known
    rw [visited, later.visits id target visited]
  · rfl

theorem World.Imaged.later (imaged : start.Imaged now value) (later : now.Later after) : start.Imaged after value := by
  intro id same
  obtain ⟨held, known⟩ := imaged id same
  exact ⟨held, by rwa [image?_later later known]⟩

theorem World.Imaged.image_eq (imaged : start.Imaged now value) (later : now.Later after) :
    start.image after value = start.image now value := by
  cases value with
  | object id => rw [image, image, image?_later later (imaged id rfl).2]
  | _ => rfl

theorem World.map_image_eq {values : List Value} (imaged : ∀ value ∈ values, start.Imaged now value)
    (later : now.Later after) : values.map (start.image after) = values.map (start.image now) :=
  List.map_congr_left fun value listed => (imaged value listed).image_eq later

theorem World.map_entry_eq {entries : List (Value × Value)}
    (imaged : ∀ entry ∈ entries, start.Imaged now entry.1 ∧ start.Imaged now entry.2) (later : now.Later after) :
    entries.map (fun entry => (start.image after entry.1, start.image after entry.2)) =
      entries.map (fun entry => (start.image now entry.1, start.image now entry.2)) := by
  refine List.map_congr_left fun entry listed => ?_
  obtain ⟨key, bound⟩ := imaged entry listed
  rw [key.image_eq later, bound.image_eq later]

theorem World.imaged_append {done : List Value} {item : Value} (imaged : ∀ value ∈ done, start.Imaged now value)
    (later : now.Later after) (new : start.Imaged after item) : ∀ value ∈ done ++ [item], start.Imaged after value := by
  intro value listed
  rcases List.mem_append.1 listed with before | last
  · exact (imaged value before).later later
  · exact List.mem_singleton.1 last ▸ new

/-- A container whose parts have images stays as they make it. -/
theorem Content.mapped_eq {node : Node}
    (imaged : node.hasScalarSlots = false → ∀ part ∈ node.parts, start.Imaged now part) (later : now.Later after) :
    node.content.mapped (start.image after) = node.content.mapped (start.image now) := by
  rcases node with ⟨type, origin, content⟩
  cases content with
  | bean | sealed => rfl
  | array component slots =>
    rw [mapped, mapped]
    split
    · rfl
    · next mixed =>
      exact congrArg (array component) (World.map_image_eq (imaged (Bool.eq_false_iff.2 mixed)) later)
  | collection kind elements =>
    replace imaged := imaged rfl
    exact congrArg (fun images => collection kind (collected kind images)) (World.map_image_eq imaged later)
  | map bindings =>
    replace imaged := imaged rfl
    refine congrArg (fun entries => map (.ofList entries)) (World.map_entry_eq (fun entry listed => ?_) later)
    exact ⟨imaged entry.1 (Node.mem_flatMap_of_mem listed (.inl rfl)),
      imaged entry.2 (Node.mem_flatMap_of_mem listed (.inr rfl))⟩

/-- An image is an old object or a copy, if it is an object at all. -/
theorem World.image_cases (imaged : start.Imaged now value) {part : ObjectId}
    (same : start.image now value = .object part) :
    (start.heap.Holds part ∧ value = .object part ∧ start.passed? part = some (.object part)) ∨
      ∃ id, value = .object id ∧ now.visits.get? id = some (.object part) := by
  cases value with
  | object id =>
    obtain ⟨held, known⟩ := imaged id rfl
    rw [World.image] at same
    unfold World.image? at known same
    rcases passed : start.passed? id with _ | target
    · rw [passed, Option.none_or] at known same
      obtain ⟨target, visited⟩ := Option.ne_none_iff_exists'.1 known
      rw [visited, Option.getD_some] at same
      exact .inr ⟨id, rfl, same ▸ visited⟩
    · rw [passed, Option.some_or, Option.getD_some] at same
      subst same
      left
      have itself : id = part := by
        unfold World.passed? at passed
        split at passed
        · cases passed
        · exact Value.object.inj (Option.some.inj passed)
        · exact Value.object.inj (Option.some.inj passed)
        · cases passed
      exact itself ▸ ⟨held, rfl, itself ▸ passed⟩
  | _ => cases same

/-- An image is no spare. -/
theorem World.not_spare_image (imaged : start.Imaged now value) {part : ObjectId}
    (same : start.image now value = .object part) : ¬ start.Spare now part := by
  intro own
  rcases World.image_cases imaged same with ⟨held, -⟩ | ⟨id, -, visited⟩
  · exact own.new held
  · exact own.unrecorded id visited

end Images

namespace Reproducing

/-- A run begins with nothing visited. -/
theorem start {world : World} (closed : world.heap.Closed) (unvisited : world.visits = {}) :
    Reproducing world world where
  later := .refl world
  closed := closed
  kept _ _ := rfl
  visited id target known := by
    rw [unvisited] at known
    cases known
  injective left right target known := by
    rw [unvisited] at known
    cases known
  unshared _ _ _ _ _ one _ own := absurd (closed.holds_attr one) own.new

variable {start now : World} (state : Reproducing start now)

include state

theorem of_same {after : World} (later : now.Later after) (heap : after.heap = now.heap)
    (visits : after.visits = now.visits) : Reproducing start after where
  later := state.later.trans later
  closed := heap ▸ state.closed
  kept := heap ▸ state.kept
  visited := by
    rw [visits, heap]
    exact state.visited
  injective := by
    rw [visits]
    exact state.injective
  unshared := by
    rw [heap]
    intro left right name name' spare one two own
    exact state.unshared left right name name' spare one two ⟨own.new, visits ▸ own.unrecorded⟩

theorem not_holds_fresh : ¬ start.heap.Holds now.heap.fresh :=
  state.later.not_holds_fresh

theorem holds_copy {id copy : ObjectId} (visited : now.visits.get? id = some (.object copy)) :
    now.heap.Holds copy := by
  obtain ⟨-, -, _, ⟨⟩, -, held⟩ := state.visited id _ visited
  exact held

theorem not_holds_copy {id copy : ObjectId} (visited : now.visits.get? id = some (.object copy)) :
    ¬ start.heap.Holds copy := by
  obtain ⟨-, -, _, ⟨⟩, new, -⟩ := state.visited id _ visited
  exact new

theorem ne_fresh (id : ObjectId) : now.visits.get? id ≠ some (.object now.heap.fresh) :=
  fun visited => now.heap.not_holds_fresh (state.holds_copy visited)

private theorem image?_of_visited {id : ObjectId} {target : Value} (visited : now.visits.get? id = some target) :
    start.image? now id = some target := by
  rw [World.image?, (state.visited id target visited).2.1, Option.none_or, visited]

/-- What is visited has an image. -/
theorem imaged_of_visited {id : ObjectId} {target : Value} (visited : now.visits.get? id = some target) :
    start.Imaged now (.object id) ∧ start.image now (.object id) = target := by
  have known := state.image?_of_visited visited
  refine ⟨?_, ?_⟩
  · rintro _ ⟨⟩
    exact ⟨(state.visited id target visited).1, by simp [known]⟩
  · rw [World.image, known]
    rfl

theorem holds_image {value : Value} (imaged : start.Imaged now value) {part : ObjectId}
    (same : start.image now value = .object part) : now.heap.Holds part := by
  rcases World.image_cases imaged same with ⟨held, -⟩ | ⟨id, -, visited⟩
  · exact state.later.holds held
  · exact state.holds_copy visited

/-- A new empty object that nothing refers to. -/
theorem allocate (node : Node) : Reproducing start (allocate node.emptyLike now).2 where
  later := state.later.trans (.allocate now _)
  closed := state.closed.allocate node
  kept id held := (Heap.node_allocate_of_holds (state.later.holds held) _).trans (state.kept id held)
  visited id target known := by
    obtain ⟨old, unpassed, copy, rfl, new, held⟩ := state.visited id target known
    exact ⟨old, unpassed, copy, rfl, new, Heap.holds_allocate.2 (.inl held)⟩
  injective := state.injective
  unshared left right name name' spare one two own := by
    have same : ∀ id wanted, ((Action.allocate node.emptyLike now).2.heap.node id).attr wanted =
        (now.heap.node id).attr wanted := Heap.attr_allocate now.heap node
    rw [same] at one two
    replace own : start.Spare now spare := ⟨own.new, own.unrecorded⟩
    exact state.unshared left right name name' spare one two own

/-- The first visit of an object, with a new object as its copy. -/
theorem record {source copy : ObjectId} (old : start.heap.Holds source) (unpassed : start.passed? source = none)
    (unvisited : now.visits.get? source = none) (new : ¬ start.heap.Holds copy) (held : now.heap.Holds copy)
    (unrecorded : ∀ id, now.visits.get? id ≠ some (.object copy)) :
    Reproducing start (record source (.object copy) now).2 where
  later := state.later.trans (.record now unvisited _)
  closed := state.closed
  kept := state.kept
  visited id target known := by
    change (now.visits.record source (.object copy)).get? id = some target at known
    rw [Visits.get?_record] at known
    split at known
    · next same =>
      subst same
      exact ⟨old, unpassed, copy, (Option.some.inj known).symm, new, held⟩
    · exact state.visited id target known
  injective left right target one two := by
    change (now.visits.record source (.object copy)).get? left = some target at one
    change (now.visits.record source (.object copy)).get? right = some target at two
    rw [Visits.get?_record] at one two
    split at one
    · next here =>
      split at two
      · next there => exact here.symm.trans there
      · cases one
        exact absurd two (unrecorded right)
    · split at two
      · cases two
        exact absurd one (unrecorded left)
      · exact state.injective left right target one two
  unshared left right name name' spare one two own := by
    refine state.unshared left right name name' spare one two ⟨own.new, fun id known => ?_⟩
    exact own.unrecorded id ((World.Later.record now unvisited _).visits id _ known)

/-- An edit of a new object. It makes no attribute of an object that is nobody's copy, unless nothing refers to
that object yet. -/
theorem edit {target : ObjectId} {change : Edit} (other : ∀ origin, change ≠ .setOrigin origin)
    (new : ¬ start.heap.Holds target) (held : ∀ part, .object part ∈ change.values → now.heap.Holds part)
    (single : ∀ name spare, change.assigns? name = some (.object spare) → start.Spare now spare →
      (∀ wanted, change.assigns? wanted = some (.object spare) → wanted = name) ∧
      ∀ id wanted, (now.heap.node id).attr wanted ≠ .object spare) :
    Reproducing start (edit target change now).2 where
  later := state.later.trans (.edit now target other)
  closed := state.closed.edit target held
  kept id old := by
    have different : id ≠ target := fun same => new (same ▸ old)
    exact (Heap.node_edit_of_ne _ different _).trans (state.kept id old)
  visited id counterpart known := by
    obtain ⟨old, unpassed, copy, same, new, held⟩ := state.visited id counterpart known
    exact ⟨old, unpassed, copy, same, new, (World.Later.edit now target other).holds held⟩
  injective := state.injective
  unshared left right name name' spare one two own := by
    change ((now.heap.edit target change).node left).attr name = _ at one
    change ((now.heap.edit target change).node right).attr name' = _ at two
    replace own : start.Spare now spare := ⟨own.new, own.unrecorded⟩
    rcases Heap.attr_edit now.heap target change left name with before | ⟨rfl, assigned⟩
    · rcases Heap.attr_edit now.heap target change right name' with before' | ⟨rfl, assigned'⟩
      · exact state.unshared left right name name' spare (before ▸ one) (before' ▸ two) own
      · rw [two] at assigned'
        exact absurd (before ▸ one) ((single name' spare assigned' own).2 left name)
    · rw [one] at assigned
      obtain ⟨only, unreferenced⟩ := single name spare assigned own
      rcases Heap.attr_edit now.heap left change right name' with before' | ⟨rfl, assigned'⟩
      · exact absurd (before' ▸ two) (unreferenced right name')
      · rw [two] at assigned'
        exact ⟨rfl, (only name' assigned').symm⟩

end Reproducing

section Copies

variable {setting : Setting} {start now after : World} {opened : ObjectId → Prop}

/-- What takes the place of a property value stays, if the spares stay as they are. -/
theorem Replaced.later {value result : Value} (replaced : Replaced setting start now value result)
    (later : now.Later after)
    (spares : ∀ spare, start.Spare now spare → now.heap.Holds spare →
      start.Spare after spare ∧ after.heap.node spare = now.heap.node spare) :
    Replaced setting start after value result := by
  cases replaced with
  | image loaded imaged =>
    rw [← imaged.image_eq later]
    exact .image loaded (imaged.later later)
  | dropped unloaded other => exact .dropped unloaded other
  | emptied unloaded empties own held empty =>
    obtain ⟨own', node⟩ := spares _ own held
    exact .emptied unloaded empties own' (later.holds held) (node.trans empty)

/-- A copy that stays as it is reproduces what it did. -/
theorem Reproduces.later {id copy : ObjectId} (reproduces : Reproduces setting start now id copy)
    (later : now.Later after) (node : after.heap.node copy = now.heap.node copy)
    (spares : ∀ spare, start.Spare now spare → now.heap.Holds spare →
      start.Spare after spare ∧ after.heap.node spare = now.heap.node spare) :
    Reproduces setting start after id copy where
  held := later.holds reproduces.held
  properties unhandled bean := by
    obtain ⟨copied, values⟩ := reproduces.properties unhandled bean
    rw [node]
    exact ⟨copied, fun name listed => (values name listed).later later spares⟩
  members handler handled asked := by
    obtain ⟨content, imaged⟩ := reproduces.members handler handled asked
    refine ⟨?_, fun mixed part listed => (imaged mixed part listed).later later⟩
    rw [node, Content.mapped_eq imaged later, content]

namespace Reproduction

theorem of_same (later : now.Later after) (heap : after.heap = now.heap) (visits : after.visits = now.visits) :
    Reproduction setting start opened now after where
  later := later
  kept id _ := by rw [heap]
  fresh id copy known := .inl (visits ▸ known)
  reproduces id copy _ unvisited known := by
    rw [visits, unvisited] at known
    cases known

theorem refl (now : World) : Reproduction setting start opened now now :=
  of_same (.refl now) rfl rfl

theorem weaken (reproduction : Reproduction setting start (fun _ => False) now after) :
    Reproduction setting start opened now after :=
  { reproduction with reproduces := fun id copy _ => reproduction.reproduces id copy not_false }

/-- The spares that were there before are left alone. -/
theorem spares (reproduction : Reproduction setting start opened now after) {spare : ObjectId}
    (own : start.Spare now spare) (held : now.heap.Holds spare) :
    start.Spare after spare ∧ after.heap.node spare = now.heap.node spare := by
  refine ⟨⟨own.new, fun source known => ?_⟩, reproduction.kept spare held⟩
  exact (reproduction.fresh source spare known).elim (own.unrecorded source) (absurd held ·)

theorem trans {middle : World} (first : Reproduction setting start opened now middle)
    (second : Reproduction setting start opened middle after) : Reproduction setting start opened now after where
  later := first.later.trans second.later
  kept id held := (second.kept id (first.later.holds held)).trans (first.kept id held)
  fresh id copy known := by
    rcases second.fresh id copy known with between | new
    · exact first.fresh id copy between
    · exact .inr fun held => new (first.later.holds held)
  reproduces id copy closed unvisited known := by
    rcases between : middle.visits.get? id with _ | target
    · exact second.reproduces id copy closed between known
    · cases (second.later.visits id target between).symm.trans known
      have reproduces := first.reproduces id copy closed unvisited between
      exact reproduces.later second.later (second.kept copy reproduces.held) fun _ => second.spares

theorem allocate (node : Node) : Reproduction setting start opened now (allocate node now).2 where
  later := .allocate now node
  kept _ held := Heap.node_allocate_of_holds held node
  fresh _ _ known := .inl known
  reproduces id copy _ unvisited known := by cases unvisited.symm.trans known

/-- A first visit opens an object, with a new one as its copy. -/
theorem visit {source : ObjectId} (unvisited : now.visits.get? source = none) (node : Node) :
    Reproduction setting start (· = source) now
      (record source (.object now.heap.fresh) (Action.allocate node now).2).2 where
  later := by
    have still : (Action.allocate node now).2.visits.get? source = none := unvisited
    exact (World.Later.allocate now node).trans (.record _ still _)
  kept _ held := Heap.node_allocate_of_holds held node
  fresh id copy known := by
    change (now.visits.record source _).get? id = _ at known
    rw [Visits.get?_record] at known
    split at known
    · cases known
      exact .inr now.heap.not_holds_fresh
    · exact .inl known
  reproduces id copy other fresh known := by
    change (now.visits.record source _).get? id = _ at known
    rw [Visits.get?_record, if_neg (Ne.symm other), fresh] at known
    cases known

/-- An edit of the copy of an open object. -/
theorem edit {middle : World} {source copy : ObjectId} (state : Reproducing start middle)
    (reproduction : Reproduction setting start (· = source) now middle)
    (visited : middle.visits.get? source = some (.object copy)) (new : ¬ now.heap.Holds copy)
    {change : Edit} (other : ∀ origin, change ≠ .setOrigin origin) :
    Reproduction setting start (· = source) now (edit copy change middle).2 where
  later := reproduction.later.trans (.edit middle copy other)
  kept id held := by
    have different : id ≠ copy := fun same => new (same ▸ held)
    exact (Heap.node_edit_of_ne _ different _).trans (reproduction.kept id held)
  fresh := reproduction.fresh
  reproduces id image closed unvisited known := by
    have reproduces := reproduction.reproduces id image closed unvisited known
    have apart : image ≠ copy := by
      rintro rfl
      exact closed (state.injective id source _ known visited)
    refine reproduces.later (.edit middle copy other) (Heap.node_edit_of_ne _ apart _) fun spare own _ => ?_
    have different : spare ≠ copy := by
      rintro rfl
      exact own.unrecorded source visited
    exact ⟨⟨own.new, own.unrecorded⟩, Heap.node_edit_of_ne _ different _⟩

/-- Once the last open copy reproduces its source nothing is open. -/
theorem close {source : ObjectId} (reproduction : Reproduction setting start (· = source) now after)
    (reproduces : ∀ copy, after.visits.get? source = some (.object copy) →
      Reproduces setting start after source copy) :
    Reproduction setting start (fun _ => False) now after :=
  { reproduction with
    reproduces := by
      intro id copy _ unvisited known
      by_cases same : id = source
      · subst same
        exact reproduces copy known
      · exact reproduction.reproduces id copy same unvisited known }

end Reproduction

end Copies

end Reconciler
