import Reconciler.BreadthFirst.Reachability
import Reconciler.Proofs.Episode.Account

/-! # Entities that a container has lost

With delete-on-remove a container that is brought up to date gives up the entities that it has lost, and the
store forgets them. That is decided for each container on its own, as soon as its elements are reconciled. So
an entity that another object holds, or that another container takes over, is removed all the same; and one that a
later container was to take over is no longer found.
-/

namespace Reconciler

open Reconciler.Action

/-- The call put the object somewhere: as the answer to a request, out of an array of scalars, whose slots
are copied unseen, or through an accessor. -/
inductive World.Places (start after : World) (entity : ObjectId) : Prop
  | answer {request : Request} (answered : .answered request (.object entity) ∈ after.journal) :
      Places start after entity
  | slot {array : ObjectId} (plain : (start.heap.node array).hasScalarSlots = true)
      (listed : .object entity ∈ (start.heap.node array).items) : Places start after entity
  | accessor {target : ObjectId} {attributes : Attributes}
      (edited : .edited target (.replaceAttributes attributes) ∈ after.journal)
      (listed : .object entity ∈ attributes.values) : Places start after entity

private theorem World.Places.later {start before after : World} {entity : ObjectId}
    (places : start.Places before entity) (later : before.Later after) : start.Places after entity := by
  cases places with
  | answer answered => exact .answer (later.journal.subset answered)
  | slot plain listed => exact .slot plain listed
  | accessor edited listed => exact .accessor (later.journal.subset edited) listed

/-- The object holds the entity, as it did before the call, and has not given it up. -/
def World.Retains (start now : World) (holder entity : ObjectId) : Prop :=
  .object entity ∈ (start.heap.node holder).parts ∧ .discarded holder entity ∉ now.journal

private theorem TypeName.arrayOf_ne_map (component : TypeName) : arrayOf component ≠ .map := by
  intro same
  have array := isArray_arrayOf component
  rw [same] at array
  revert array
  decide

namespace Node

private theorem isSome_items? (node : Node) : node.items?.isSome = node.shape?.any
    (fun shape => decide (shape ≠ .map)) := by
  rcases node with ⟨type, origin, content⟩
  cases content with
  | array component slots => simp [items?, shape?, Content.shape?, TypeName.arrayOf_ne_map]
  | collection kind elements => cases kind <;> rfl
  | bean | map | sealed => rfl

private theorem isSome_bindings? (node : Node) : node.bindings?.isSome = decide (node.shape? = some .map) := by
  rcases node with ⟨type, origin, content⟩
  cases content with
  | array component slots => simp [bindings?, shape?, Content.shape?, TypeName.arrayOf_ne_map]
  | collection kind elements => cases kind <;> rfl
  | bean | map | sealed => rfl

private theorem hasScalarSlots_eq (node : Node) : node.hasScalarSlots =
    node.shape?.any (fun shape => shape.component?.any TypeName.isScalar) := by
  rcases node with ⟨type, origin, content⟩
  cases content with
  | array component slots => simp [hasScalarSlots, shape?, Content.shape?, TypeName.component?_arrayOf]
  | collection kind elements => cases kind <;> rfl
  | bean | map | sealed => rfl

private theorem parts_of_hasScalarSlots {node : Node} (plain : node.hasScalarSlots = true) :
    node.parts = node.items := by
  rcases node with ⟨type, origin, content⟩
  cases content with
  | array => rfl
  | bean | collection | map | sealed => cases plain

/-- Refilling replaces all that is there. It is refused only by objects that have nothing to be matched. -/
theorem parts_refilled {node : Node} {handler : Handler} {change : Edit} (refills : handler.Refills change)
    (whole : handler ≠ .array) {other : Node} (same : other.shape? = node.shape?)
    (matched : handler.candidates other ≠ []) : ∀ part ∈ (node.edited change).parts, part ∈ change.values := by
  intro part member
  rcases node with ⟨type, origin, content⟩
  cases refills with
  | elements values =>
    have known : other.items?.isSome = true := by
      rcases items : other.items? with _ | elements
      · exact absurd (by rw [Handler.candidates, Node.items, items] <;> simp) matched
      · rfl
    rw [isSome_items?, same, ← isSome_items?] at known
    cases content with
    | array => exact member
    | collection => exact Content.mem_collected member
    | bean | map | sealed => cases known
  | entries entries =>
    have known : other.bindings?.isSome = true := by
      rcases bindings : other.bindings? with _ | entries
      · exact absurd (by rw [Handler.candidates, Node.bindings, bindings]; rfl) matched
      · rfl
    rw [isSome_bindings?, same, ← isSome_bindings?] at known
    cases content with
    | map bindings =>
      obtain ⟨entry, listed, either⟩ := mem_entries member
      have offered := (OrderedMap.mem_insertAll listed).resolve_right List.not_mem_nil
      exact mem_flatMap_of_mem offered either
    | bean | array | collection | sealed => cases known
  | slot => exact absurd rfl whole

end Node

namespace Account

variable {setting : Setting} {root : Request} {start now : World} {holder entity : ObjectId}

private theorem holder_cases_of_same {after : World}
    (before : start.Retains now holder entity ∨ start.Places now entity) (later : now.Later after)
    (fresh : .discarded holder entity ∈ after.journal → .discarded holder entity ∈ now.journal) :
    start.Retains after holder entity ∨ start.Places after entity :=
  before.imp (fun retains => ⟨retains.1, mt fresh retains.2⟩) (·.later later)

private theorem holder_cases_of_edit {target : ObjectId} {change : Edit} (other : ∀ origin, change ≠ .setOrigin origin)
    (before : .object entity ∈ (now.heap.node holder).parts →
      start.Retains now holder entity ∨ start.Places now entity)
    (carried : .object entity ∈ change.values → start.Places (edit target change now).2 entity)
    (held : .object entity ∈ ((edit target change now).2.heap.node holder).parts) :
    start.Retains (edit target change now).2 holder entity ∨ start.Places (edit target change now).2 entity := by
  rcases Heap.mem_parts_edit held with older | ⟨-, new⟩
  · exact holder_cases_of_same (before older) (.edit now target other) fun member =>
      (List.mem_cons.1 member).resolve_left nofun
  · exact .inr (carried new)

/-- What a container was supplied with is placed by the call. -/
theorem places_of_supplies {begun : World} {source : ObjectId} (first : Account setting root start begun)
    (started : begun.Later now)
    (before : .object entity ∈ (begun.heap.node source).parts →
      start.Retains begun source entity ∨ start.Places begun entity)
    (supplied : Supplies begun now source (.object entity)) : start.Places now entity := by
  cases supplied with
  | answer answered => exact .answer answered
  | scalar plain slot =>
    rcases before (Node.mem_parts_of_items slot) with ⟨older, -⟩ | places
    · have held : start.heap.Holds source := by
        refine Decidable.byContradiction fun absent => ?_
        rw [Heap.parts_of_not_holds absent] at older
        cases older
      rw [Node.hasScalarSlots_eq, first.later.heap.shape?_eq source held, ← Node.hasScalarSlots_eq] at plain
      exact .slot plain (Node.parts_of_hasScalarSlots plain ▸ older)
    · exact places.later started

/-- What cannot be matched was never there. -/
theorem holds_of_candidates {heap : Heap} {id : ObjectId} {handler : Handler}
    (matched : handler.candidates (heap.node id) ≠ []) : heap.Holds id := by
  refine Decidable.byContradiction fun absent => matched ?_
  rw [Heap.node_of_not_holds absent]
  cases handler <;> rfl

/-- A container that has given something up holds only what it was refilled with. -/
theorem holder_cases_of_refilled {begun after : World} {target : ObjectId} {handler : Handler} {change : Edit}
    {leftovers : List Value} (started : begun.Later now) (whole : handler ≠ .array)
    (refills : handler.Refills change) (drawn : leftovers ⊆ handler.candidates (begun.heap.node target))
    (shed : Sheds target change.values leftovers now after)
    (supplied : ∀ value ∈ change.values, ∃ request, .answered request value ∈ now.journal)
    (before : .object entity ∈ (now.heap.node holder).parts →
      start.Retains now holder entity ∨ start.Places now entity)
    (held : .object entity ∈ ((edit target change after).2.heap.node holder).parts) :
    start.Retains (edit target change after).2 holder entity ∨
      start.Places (edit target change after).2 entity := by
  have later := shed.later.trans (.edit after target refills.ne_setOrigin)
  have carried : .object entity ∈ change.values → start.Places (edit target change after).2 entity := by
    intro listed
    obtain ⟨request, answered⟩ := supplied _ listed
    exact .answer (later.journal.subset answered)
  have old : (holder = target → leftovers = []) → .discarded holder entity ∈ (edit target change after).2.journal →
      .discarded holder entity ∈ now.journal := by
    intro none member
    refine (shed.noted _ ((List.mem_cons.1 member).resolve_left nofun)).resolve_right ?_
    rintro ⟨other, same, listed, -⟩
    rw [none (Event.discarded.inj same).1] at listed
    cases listed
  change .object entity ∈ ((after.heap.edit target change).node holder).parts at held
  rw [shed.heap] at held
  by_cases lost : holder = target ∧ leftovers ≠ []
  · obtain ⟨rfl, some⟩ := lost
    have matched : handler.candidates (begun.heap.node holder) ≠ [] :=
      fun none => some (List.subset_nil.1 (none ▸ drawn))
    have present := holds_of_candidates matched
    rw [Heap.node_edit_self (started.holds present)] at held
    have same := started.heap.shape?_eq holder present
    exact .inr (carried (Node.parts_refilled refills whole same.symm matched _ held))
  · rcases Heap.mem_parts_edit held with older | ⟨-, new⟩
    · refine holder_cases_of_same (before older) later (old fun same => ?_)
      exact Decidable.not_not.1 (not_and.1 lost same)
    · exact .inr (carried new)

/-- Whoever holds an object has held it from the start and not given it up, unless the call has placed it. -/
theorem holder_cases (account : Account setting root start now) (quiet : start.journal = [])
    (held : .object entity ∈ (now.heap.node holder).parts) :
    start.Retains now holder entity ∨ start.Places now entity := by
  induction account generalizing holder with
  | start => exact .inl ⟨held, by simp [quiet]⟩
  | asked first account started sought _ ih =>
    exact holder_cases_of_same (ih held) (.note _ _) fun member => (List.mem_cons.1 member).resolve_left nofun
  | answered account asked yields ih =>
    exact holder_cases_of_same (ih held) (.note _ _) fun member => (List.mem_cons.1 member).resolve_left nofun
  | walked account source ih =>
    exact holder_cases_of_same (ih held) (.note _ _) fun member => (List.mem_cons.1 member).resolve_left nofun
  | dispatched account same ih => exact holder_cases_of_same (ih held) (.dispatch _ same) id
  | cached account same ih => exact holder_cases_of_same (ih held) (.cache _ same) id
  | called account spent ih => exact holder_cases_of_same (ih held) (.called _ spent) id
  | recorded account unvisited paired ih => exact holder_cases_of_same (ih held) (.record _ unvisited _) id
  | allocated account handled ih =>
    have older := (Heap.mem_parts_allocate held).resolve_right nofun
    exact holder_cases_of_same (ih older) (.allocate _ _) id
  | @filled begun before first account started source copy recorded new handler change fills supplied first_ih ih =>
    have later := World.Later.edit before copy fills.ne_setOrigin
    refine holder_cases_of_edit fills.ne_setOrigin ih (fun carried => ?_) held
    exact (first.places_of_supplies started first_ih (supplied _ carried)).later later
  | slotted first account started recorded handled index supplied first_ih ih =>
    refine holder_cases_of_edit nofun ih (fun carried => ?_) held
    obtain rfl := List.mem_singleton.1 carried
    exact (first.places_of_supplies started first_ih supplied).later (.edit _ _ nofun)
  | @refilled begun now after first account started source target recorded handler handled whole loaded
      change refills supplied leftovers drawn lost first_ih ih =>
    have shed := sheds_of_discardLeftovers lost
    exact holder_cases_of_refilled started whole refills drawn shed supplied ih held
  | @written begun earlier before first second account started read source target entity' metadata property value
      current merged change merging taking changed made _ _ ih =>
    have later := World.Later.edit before target made.ne_setOrigin
    refine holder_cases_of_edit made.ne_setOrigin ih (fun carried => ?_) held
    rcases made.cases.2 with ⟨-, rfl⟩ | ⟨getter?, setter, -, rfl⟩
    · obtain rfl := List.mem_singleton.1 carried
      exact .answer (later.journal.subset taking.answered)
    · exact .accessor List.mem_cons_self carried

private theorem stored_cases_of_same {after : World} {id : ObjectId}
    (before : id ∈ now.store.stored ∨ ∃ container, .discarded container id ∈ now.journal)
    (later : now.Later after) (same : after.store = now.store) :
    id ∈ after.store.stored ∨ ∃ container, .discarded container id ∈ after.journal := by
  rcases before with still | ⟨container, noted⟩
  · exact .inl (same ▸ still)
  · exact .inr ⟨container, later.journal.subset noted⟩

/-- What was stored is stored, unless a container has given it up. -/
theorem stored_cases (account : Account setting root start now) {id : ObjectId} (stored : id ∈ start.store.stored) :
    id ∈ now.store.stored ∨ ∃ container, .discarded container id ∈ now.journal := by
  induction account with
  | start => exact .inl stored
  | asked first account started sought _ ih => exact stored_cases_of_same ih (.note _ _) rfl
  | answered account asked yields ih => exact stored_cases_of_same ih (.note _ _) rfl
  | walked account source ih => exact stored_cases_of_same ih (.note _ _) rfl
  | dispatched account same ih => exact stored_cases_of_same ih (.dispatch _ same) rfl
  | cached account same ih => exact stored_cases_of_same ih (.cache _ same) rfl
  | called account spent ih => exact stored_cases_of_same ih (.called _ spent) rfl
  | recorded account unvisited paired ih => exact stored_cases_of_same ih (.record _ unvisited _) rfl
  | allocated account handled ih => exact stored_cases_of_same ih (.allocate _ _) rfl
  | filled first account started recorded new fills supplied _ ih =>
    exact stored_cases_of_same ih (.edit _ _ fills.ne_setOrigin) rfl
  | slotted first account started recorded handled index supplied _ ih =>
    exact stored_cases_of_same ih (.edit _ _ nofun) rfl
  | @refilled begun now after first account started source target recorded handler handled whole loaded
      change refills supplied leftovers drawn lost _ ih =>
    have shed := sheds_of_discardLeftovers lost
    refine stored_cases_of_same ?_ (.edit after target refills.ne_setOrigin) rfl
    rcases ih with still | ⟨container, noted⟩
    · exact (shed.discarded id still).imp_right (⟨target, ·⟩)
    · exact .inr ⟨container, shed.later.journal.subset noted⟩
  | written first second account started read merging taking changed made _ _ ih =>
    exact stored_cases_of_same ih (.edit _ _ made.ne_setOrigin) rfl

end Account

/-- If nothing is found, nothing that is stored has the type and the identifier. -/
theorem EntityStore.not_mem_stored_of_find {store : EntityStore} {heap : Heap} {type : TypeName}
    {identifier : Value} (absent : store.find heap type identifier = .ok none) {entity : Entity}
    (managed : store.entity? type = some entity) {id : ObjectId} (same : (heap.node id).type = type)
    (identified : (heap.node id).attr entity.idProperty = identifier) : id ∉ store.stored := by
  intro stored
  unfold find at absent
  rcases attempted : store.attempt .find with error | done
  · rw [attempted] at absent
    cases absent
  · rw [attempted, managed] at absent
    have none := List.find?_eq_none.1 (Except.ok.inj absent) id stored
    exact none (decide_eq_true ⟨same, identified⟩)

/-- Whatever a root leads to is the root, or a link of something that the root leads to. -/
theorem FiniteGraph.Leads.eq_or_exists {α : Type} {graph : FiniteGraph α} {root final : α}
    (leads : graph.Leads root final) : root = final ∨ ∃ last, graph.Leads root last ∧ final ∈ graph.next last := by
  induction leads with
  | refl => exact .inl rfl
  | @step node successor final link onward ih =>
    rcases ih with rfl | ⟨last, before, final⟩
    · exact .inr ⟨node, .refl node, link⟩
    · exact .inr ⟨last, .step link before, final⟩

/-- What is reachable from a value is the value itself or held by something reachable. -/
theorem Heap.holder_of_reachable {heap : Heap} {value : Value} {id : ObjectId}
    (reached : id ∈ heap.reachable value.object?.toList) : value = .object id ∨
      ∃ holder ∈ heap.reachable value.object?.toList, .object id ∈ (heap.node holder).parts := by
  obtain ⟨root, listed, leads⟩ := FiniteGraph.mem_breadthFirst.1 reached
  rcases leads.eq_or_exists with rfl | ⟨holder, before, link⟩
  · exact .inl ((Value.object?_eq_some_iff _ _).1 (Option.mem_toList.1 listed))
  · obtain ⟨part, held, same⟩ := List.mem_filterMap.1 link
    obtain rfl := (Value.object?_eq_some_iff _ _).1 same
    exact .inr ⟨holder, FiniteGraph.mem_breadthFirst.2 ⟨root, listed, before⟩, held⟩

namespace Squads

def schema : Schema :=
  ⟨[{ name := ⟨"Squad"⟩, properties := .ofList [("id", .field), ("first", .field), ("second", .field)] },
    { name := ⟨"Player"⟩, properties := .ofList [("id", .field)] }]⟩

def setting : Setting := { schema, config := { deleteRemoved := true } }

def squad (first second : ObjectId) : Node :=
  .bean ⟨"Squad"⟩ [("id", .int 1), ("first", .object first), ("second", .object second)]

def player : Node := .bean ⟨"Player"⟩ [("id", .int 7)]

/-- A stored squad with two teams and a detached copy of it. Player 0 is stored, and player 4 is a detached copy. -/
def world (first second detachedFirst detachedSecond : List Value) : World where
  heap := ⟨#[{ player with origin := .stored }, .list first, .list second,
    { squad ⟨1⟩ ⟨2⟩ with origin := .stored }, player, .list detachedFirst, .list detachedSecond, squad ⟨5⟩ ⟨6⟩]⟩
  store :=
    { entities := .ofList [(⟨"Squad"⟩, { type := ⟨"Squad"⟩, idProperty := "id" }),
        (⟨"Player"⟩, { type := ⟨"Player"⟩, idProperty := "id" })]
      stored := [⟨0⟩, ⟨3⟩] }
  dispatch := .ofRegistry (.withDefaults schema)
  cache := .ofSchema schema

/-- The copy has the player in the first team instead of the second. -/
def promoted : World := world [] [.object ⟨0⟩] [.object ⟨4⟩] []

/-- The copy has the player in the second team instead of the first. -/
def relegated : World := world [.object ⟨0⟩] [] [] [.object ⟨4⟩]

def promotion : Except Ending Value × World := setting.apply (.object ⟨7⟩) promoted.rested

def relegation : Except Ending Value × World := setting.apply (.object ⟨7⟩) relegated.rested

private theorem promotion_reaches : ⟨0⟩ ∈ promotion.2.heap.reachable (Value.object ⟨3⟩).object?.toList := by
  refine FiniteGraph.mem_breadthFirst.2 ⟨⟨3⟩, List.mem_cons_self, ?_⟩
  have team : (⟨1⟩ : ObjectId) ∈ promotion.2.heap.referents ⟨3⟩ := by decide +kernel
  have member : (⟨0⟩ : ObjectId) ∈ promotion.2.heap.referents ⟨1⟩ := by decide +kernel
  exact .step team (.step member (.refl _))

end Squads

end Reconciler
