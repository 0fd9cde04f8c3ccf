import Reconciler.Proofs.Episode.Account

/-! # Unloaded objects during a reconciliation

The content of an unloaded object is still in the store, so there is nothing that a run could bring up to
date. An unloaded entity ends the run, and an unloaded collection or map is left alone or ends it. Nobody
asks whether an array is loaded: its slots are written whenever it is paired with an array or a collection.
-/

namespace Reconciler

open Reconciler.Action

/-- The run paired an array with an object whose handler writes into the slots of an array. -/
structure World.Exposed (start after : World) (id : ObjectId) : Prop where
  slots : ∃ component slots, (start.heap.node id).content = .array component slots
  paired : ∃ source, after.visits.get? source = some (.object id) ∧
    (start.heap.Holds source → start.handler? source ∈ [some .array, some .collection])

private theorem World.Exposed.later {start before after : World} {id : ObjectId}
    (exposed : start.Exposed before id) (later : before.Later after) : start.Exposed after id := by
  obtain ⟨slots, source, recorded, handled⟩ := exposed
  exact ⟨slots, source, later.visits _ _ recorded, handled⟩

/-- Only what a store manages can be without its content. -/
theorem Origin.isManaged_of_unloaded {origin : Origin} (unloaded : origin.isLoaded = false) :
    origin.isManaged = true := by
  cases origin with
  | plain => cases unloaded
  | managed proxy loaded => rfl

/-- An unloaded object refuses the edits that refill a container, unless it is an array under a handler
that writes slots, or the handler was to make sure that it is loaded. -/
theorem Handler.Refills.refused {handler : Handler} {change : Edit} (refills : handler.Refills change)
    {node : Node} (unloaded : node.origin.isLoaded = false)
    (loaded : handler ≠ .array → (node.origin.isManaged && node.isContainer && !node.origin.isLoaded) = false)
    (other : handler ∈ [.array, .collection] → ∀ component slots, node.content ≠ .array component slots) :
    node.accepts change = false := by
  have managed := Origin.isManaged_of_unloaded unloaded
  have fixed : handler ≠ .array → node.isContainer = false := by
    intro kind
    simpa [managed, unloaded] using loaded kind
  rcases content : node.content with attributes | ⟨component, slots⟩ | ⟨kind, elements⟩ | bindings | _
  · cases refills <;> simp [Node.accepts, content, Content.edited?]
  · cases refills with
    | entries => simp [Node.accepts, content, Content.edited?]
    | elements => exact absurd content (other (by decide) _ _)
    | slot => exact absurd content (other (by decide) _ _)
  · cases refills with
    | slot | entries => simp [Node.accepts, content, Content.edited?]
    | elements => simp [Node.isContainer, content] at fixed
  · cases refills with
    | slot | elements => simp [Node.accepts, content, Content.edited?]
    | entries => simp [Node.isContainer, content] at fixed
  · cases refills <;> simp [Node.accepts, content, Content.edited?]

namespace Course

variable {setting : Setting} {start now : World} {id : ObjectId}

private theorem node_cases_of_same {after : World}
    (before : now.heap.node id = start.heap.node id ∨ start.Exposed now id) (later : now.Later after)
    (same : after.heap.node id = now.heap.node id) :
    after.heap.node id = start.heap.node id ∨ start.Exposed after id :=
  before.imp same.trans (·.later later)

/-- A refilled object that was unloaded is exposed, or refuses to be refilled. -/
theorem node_cases_of_refilled {begun : World} {source : ObjectId} (first : Course setting start begun)
    (started : begun.Later now) (held : start.heap.Holds id)
    (unloaded : (start.heap.node id).origin.isLoaded = false)
    (before : begun.heap.node id = start.heap.node id) (same : now.heap.node id = start.heap.node id)
    (recorded : begun.visits.get? source = some (.object id)) {handler : Handler}
    (handled : begun.handler? source = some handler)
    (loaded : handler ≠ .array → begun.isUnloadedContainer id = false) {change : Edit}
    (refills : handler.Refills change) :
    (edit id change now).2.heap.node id = start.heap.node id ∨
      start.Exposed (edit id change now).2 id := by
  by_cases writes : handler ∈ [.array, .collection] ∧
      ∃ component slots, (start.heap.node id).content = .array component slots
  · refine .inr ⟨writes.2, source, started.visits _ _ recorded, fun present => ?_⟩
    rw [← first.later.handler?_eq present, handled]
    simpa using writes.1
  · have refused : (now.heap.node id).accepts change = false := by
      rw [same]
      refine refills.refused unloaded (fun kind => ?_) ?_
      · simpa [World.isUnloadedContainer, Value.isManagedContainer, Value.isLoaded, before] using loaded kind
      · exact fun handles component slots content => writes ⟨handles, component, slots, content⟩
    have there := (first.later.trans started).holds held
    refine .inl (.trans (Heap.node_edit_self there change) ?_)
    rw [Node.edited_of_refused refused, same]

/-- An unloaded object stays as it is, unless it is exposed. -/
theorem node_cases (course : Course setting start now) (held : start.heap.Holds id)
    (unloaded : (start.heap.node id).origin.isLoaded = false) :
    now.heap.node id = start.heap.node id ∨ start.Exposed now id := by
  induction course with
  | start => exact .inl rfl
  | asked course request ih => exact node_cases_of_same ih (.note _ _) rfl
  | answered course resolved ih => exact node_cases_of_same ih (.note _ _) rfl
  | walked course source ih => exact node_cases_of_same ih (.note _ _) rfl
  | dispatched course same ih => exact node_cases_of_same ih (.dispatch _ same) rfl
  | cached course same ih => exact node_cases_of_same ih (.cache _ same) rfl
  | recorded course unvisited counterpart ih => exact node_cases_of_same ih (.record _ unvisited _) rfl
  | allocated course handled ih =>
    exact node_cases_of_same ih (.allocate _ _) (Heap.node_allocate_of_holds (course.later.holds held) _)
  | @filled before course copy new handler change fills ih =>
    have other : id ≠ copy := by
      rintro rfl
      exact new held
    exact node_cases_of_same ih (.edit _ _ fills.ne_setOrigin) (Heap.node_edit_of_ne _ other _)
  | @refilled begun before first course started source target recorded handler handled loaded change
      refills first_ih ih =>
    have later := World.Later.edit before target refills.ne_setOrigin
    by_cases here : id = target
    · subst here
      rcases ih with same | exposed
      · rcases first_ih with earlier | exposed
        · exact first.node_cases_of_refilled started held unloaded earlier same recorded handled loaded refills
        · exact .inr (exposed.later (started.trans later))
      · exact .inr (exposed.later later)
    · exact node_cases_of_same ih later (Heap.node_edit_of_ne _ here _)
  | discarding course container entity managed enabled ih => exact node_cases_of_same ih (.note _ _) rfl
  | removed course removal ih =>
    exact node_cases_of_same ih (.removed _ removal) rfl
  | called course spent ih => exact node_cases_of_same ih (.called _ spent) rfl
  | @written begun earlier before first second course started read source target entity metadata
      property value current merged change merging taking changed made _ _ ih =>
    -- Nothing is merged into an unloaded entity, and the run never marks it as loaded.
    have other : id ≠ target := by
      rintro rfl
      have loaded := merging.loaded
      rw [first.later.heap.origin_eq id held nofun, unloaded] at loaded
      cases loaded
    exact node_cases_of_same ih (.edit _ _ made.ne_setOrigin) (Heap.node_edit_of_ne _ other _)

end Course

/-- A call that answers has brought nothing onto an unloaded entity. So no copy of one comes back if the run pairs
the two. -/
theorem Reconciliation.loaded_of_paired {setting : Setting} {world : World}
    {outcome : Except Ending Value × World} (run : Reconciliation setting world outcome) {result : Value}
    (answered : outcome.1 = .ok result) {source target : ObjectId} (held : world.heap.Holds source)
    (present : world.heap.Holds target) (different : source ≠ target)
    (recorded : outcome.2.visits.get? source = some (.object target)) (unhandled : world.handler? source = none)
    (managed : world.store.entity? (world.heap.node target).type ≠ none) :
    (world.heap.node target).origin.isLoaded = true := by
  cases run.settled answered recorded with
  | handled once =>
    obtain ⟨earlier, course, -, handled⟩ := once
    rw [course.later.handler?_eq held] at handled
    exact absurd unhandled handled
  | unmanaged once =>
    obtain ⟨earlier, course, -, unmanaged⟩ := once
    have none := unmanaged target rfl
    rw [course.later.entity?_eq present] at none
    exact absurd none managed
  | itself => exact absurd rfl different
  | merged once taken =>
    obtain ⟨begun, course, -, merging⟩ := once
    have loaded := merging.loaded
    rwa [course.later.heap.origin_eq target present nofun] at loaded

/-- Whether it answers or fails, a call leaves every unloaded object as it was, except an array that it
paired with a detached array or collection. -/
theorem Reconciliation.unloaded_kept {setting : Setting} {world : World}
    {outcome : Except Ending Value × World} (run : Reconciliation setting world outcome)
    {id : ObjectId} (held : world.heap.Holds id)
    (unloaded : (world.heap.node id).origin.isLoaded = false) :
    outcome.2.heap.node id = world.heap.node id ∨ world.rested.Exposed outcome.2 id :=
  run.course.node_cases held unloaded

namespace Albums

def schema : Schema :=
  ⟨[{ name := ⟨"Album"⟩, properties := .ofList [("id", .field), ("tags", .field), ("scores", .field)] }]⟩

def album (tags scores : ObjectId) : Node :=
  .bean ⟨"Album"⟩ [("id", .int 1), ("tags", .object tags), ("scores", .object scores)]

/-- A stored album with an unloaded list of tags and an unloaded array of scores, and a detached copy with
an empty list and an array of other scores. -/
def world : World where
  heap := ⟨#[.lazyCollection .list,
    { Node.array .int [.int 1, .int 2] with origin := .unloadedContainer },
    { album ⟨0⟩ ⟨1⟩ with origin := .stored },
    .list [], .array .int [.int 8, .int 9], album ⟨3⟩ ⟨4⟩]⟩
  store := { entities := .ofList [(⟨"Album"⟩, { type := ⟨"Album"⟩, idProperty := "id" })], stored := [⟨2⟩] }
  dispatch := .ofRegistry (.withDefaults schema)
  cache := .ofSchema schema

def outcome : Except Ending Value × World := Setting.apply { schema } (.object ⟨5⟩) world.rested

/-- The unloaded tags stay as they are. -/
theorem tags_kept :
    Reconciliation { schema } world outcome ∧ world.heap.Holds ⟨0⟩ ∧
      (world.heap.node ⟨0⟩).origin.isLoaded = false ∧
      outcome.2.heap.node ⟨0⟩ = world.heap.node ⟨0⟩ := by
  have run : Reconciliation { schema } world outcome := .apply _
  have held : world.heap.Holds ⟨0⟩ := by decide
  refine ⟨run, held, by decide, (run.unloaded_kept held (by decide)).resolve_right ?_⟩
  rintro ⟨⟨component, slots, content⟩, -⟩
  cases content

/-- The unloaded scores are written, and stay unloaded. -/
theorem scores_overwritten :
    outcome.1.toOption = some (.object ⟨2⟩) ∧
      (world.heap.node ⟨1⟩).origin.isLoaded = false ∧
      (world.heap.node ⟨1⟩).items = [.int 1, .int 2] ∧
      (outcome.2.heap.node ⟨1⟩).origin.isLoaded = false ∧
      (outcome.2.heap.node ⟨1⟩).items = [.int 8, .int 9] := by
  decide +kernel

end Albums

end Reconciler
