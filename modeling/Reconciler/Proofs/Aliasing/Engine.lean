import Reconciler.Proofs.Aliasing
import Reconciler.Proofs.Ensures

/-! # The engine keeps what is shared

One lemma for each function that takes a graph apart says that it answers with the image of the value that it is asked
about, and that the copies it leaves reproduce their sources. Nothing is claimed of a run that fails.
-/

namespace Reconciler

open Reconciler.Action

/-- A world whose graphs are cloned, with the default handlers and with raw attributes as declared properties. -/
structure Replicable (setting : Setting) (start : World) : Prop where
  clones : setting.config.cloneObjects = true
  defaults : ∃ schema, start.dispatch.registry = .withDefaults schema
  closed : start.heap.Closed
  fields : ∀ id, start.heap.Holds id → ∀ metadata, start.metadata? setting id = some metadata → metadata.AllFields

/-- A part of the run has answered with the image of a value. -/
structure Reproduced (setting : Setting) (start now : World) (value result : Value) (after : World) : Prop where
  state : Reproducing start after
  since : Reproduction setting start (fun _ => False) now after
  imaged : start.Imaged after value
  result_eq : result = start.image after value

/-- Requests for the parts of old objects are answered with their images. -/
def Reproducer (setting : Setting) (start : World) (ask : Value → Action Value) : Prop :=
  ∀ now value, Reproducing start now → (∀ id, value = .object id → start.heap.Holds id) →
    (ask value).Ensures now (fun _ _ => True) (Reproduced setting start now value)

/-- A visited object whose copy is being filled. -/
structure Drafting (setting : Setting) (start now : World) (source copy : ObjectId) (middle : World) : Prop where
  old : start.heap.Holds source
  unvisited : now.visits.get? source = none
  new : ¬ now.heap.Holds copy
  state : Reproducing start middle
  since : Reproduction setting start (· = source) now middle
  visited : middle.visits.get? source = some (.object copy)

section Drafting

variable {setting : Setting} {start now middle after : World} {source copy : ObjectId}

/-- A first visit with a new object as the copy. -/
private theorem Drafting.visit (state : Reproducing start now) (old : start.heap.Holds source)
    (unpassed : start.passed? source = none) (unvisited : now.visits.get? source = none) :
    Drafting setting start now source now.heap.fresh
      (record source (.object now.heap.fresh) (allocate (now.heap.node source).emptyLike now).2).2 where
  old := old
  unvisited := unvisited
  new := now.heap.not_holds_fresh
  state := by
    exact (state.allocate (now.heap.node source)).record old unpassed unvisited state.not_holds_fresh
      (Heap.holds_allocate.2 (.inr rfl)) state.ne_fresh
  since := .visit unvisited _
  visited := World.Later.visits_record _ source _

namespace Drafting

variable (drafting : Drafting setting start now source copy middle)

include drafting

private theorem held : middle.heap.Holds copy :=
  drafting.state.holds_copy drafting.visited

private theorem node_source : middle.heap.node source = start.heap.node source :=
  drafting.state.kept source drafting.old

/-- A part of the run leaves the copy open. -/
private theorem go (state : Reproducing start after)
    (since : Reproduction setting start (fun _ => False) middle after) :
    Drafting setting start now source copy after :=
  { drafting with
    state
    since := drafting.since.trans since.weaken
    visited := since.later.visits _ _ drafting.visited }

private theorem of_same (later : middle.Later after) (heap : after.heap = middle.heap)
    (visits : after.visits = middle.visits) : Drafting setting start now source copy after :=
  drafting.go (drafting.state.of_same later heap visits) (.of_same later heap visits)

/-- Values are put into the copy. An object that is nobody's copy is put there once. -/
private theorem edit {change : Edit} (other : ∀ origin, change ≠ .setOrigin origin)
    (held : ∀ part, .object part ∈ change.values → middle.heap.Holds part)
    (single : ∀ name spare, change.assigns? name = some (.object spare) → start.Spare middle spare →
      (∀ wanted, change.assigns? wanted = some (.object spare) → wanted = name) ∧
      ∀ id wanted, (middle.heap.node id).attr wanted ≠ .object spare) :
    Drafting setting start now source copy (Action.edit copy change middle).2 where
  old := drafting.old
  unvisited := drafting.unvisited
  new := drafting.new
  state := drafting.state.edit other (drafting.state.not_holds_copy drafting.visited) held single
  since := .edit drafting.state drafting.since drafting.visited drafting.new other
  visited := drafting.visited

/-- Once the copy reproduces its source the object is left. -/
private theorem reproduced (reproduces : Reproduces setting start middle source copy) :
    Reproduced setting start now (.object source) (.object copy) middle := by
  obtain ⟨imaged, same⟩ := drafting.state.imaged_of_visited drafting.visited
  refine ⟨drafting.state, drafting.since.close ?_, imaged, same.symm⟩
  intro other known
  cases drafting.visited.symm.trans known
  exact reproduces

/-- The image of a part. The copy is left alone meanwhile. -/
private theorem ensures_ask {ask : Value → Action Value} (asks : Reproducer setting start ask) {value : Value}
    (old : ∀ id, value = .object id → start.heap.Holds id) :
    (ask value).Ensures middle (fun _ _ => True) (fun result after =>
      Drafting setting start now source copy after ∧ start.Imaged after value ∧ result = start.image after value ∧
        after.heap.node copy = middle.heap.node copy ∧ middle.Later after) := by
  apply (asks middle value drafting.state old).weaken
  rintro result after ⟨state, since, imaged, same⟩
  exact ⟨drafting.go state since, imaged, same, since.kept copy drafting.held, since.later⟩

/-- The images of some parts are put into a container. -/
private theorem fill {change : Edit} (other : ∀ origin, change ≠ .setOrigin origin)
    (silent : ∀ name, change.assigns? name = none)
    (images : ∀ value ∈ change.values, ∃ part, start.Imaged middle part ∧ value = start.image middle part) :
    Drafting setting start now source copy (Action.edit copy change middle).2 := by
  refine drafting.edit other ?_ ?_
  · intro part listed
    obtain ⟨value, imaged, same⟩ := images _ listed
    exact drafting.state.holds_image imaged same.symm
  · intro name spare assigned
    cases (silent name).symm.trans assigned

end Drafting

end Drafting

/-- The copy of a container holds the images of the parts, if the content of the container asks for the handler. -/
structure Drafted (setting : Setting) (start now : World) (handler : Handler) (source copy : ObjectId)
    (after : World) : Prop extends Drafting setting start now source copy after where
  members : (start.heap.node source).content.handler? = some handler → start.Rebuilt after source copy

section Filling

variable {setting : Setting} {start now middle : World} {source copy : ObjectId} (closed : start.heap.Closed)
  {ask : Value → Action Value} (asks : Reproducer setting start ask)
  (drafting : Drafting setting start now source copy middle)
  (empty : (middle.heap.node copy).content = (start.heap.node source).content.emptied)

include closed asks drafting empty

/-- Elements are taken in one by one. -/
private theorem Drafting.ensures_fillCollection :
    (fillCollection ask (start.heap.node source) copy).Ensures middle (fun _ _ => True)
      (fun _ after => Drafted setting start now .collection source copy after) := by
  refine (ensures_forM (fun done after => Drafting setting start now source copy after ∧
    (∀ item ∈ done, start.Imaged after item) ∧
    ∀ kind elements, (start.heap.node source).content = .collection kind elements →
      (after.heap.node copy).content =
        .collection kind (Content.collected kind (done.map (start.image after)))) ⟨drafting, by simp, ?_⟩ ?_).weaken ?_
  · intro kind elements content
    rw [empty, content]
    rfl
  · rintro done item rest split middle ⟨drafting, imaged, filled⟩
    have old : ∀ id, item = .object id → start.heap.Holds id := by
      rintro id rfl
      exact closed source id (Node.mem_parts_of_items (by simp [split]))
    apply (drafting.ensures_ask asks old).bind
    rintro _ after ⟨drafting, new, rfl, node, later⟩
    have imaged' := World.imaged_append imaged later new
    refine ensures_of_ok rfl ⟨drafting.fill (by simp) (fun _ => rfl) ?_, imaged', ?_⟩
    · intro value listed
      exact ⟨item, new, List.mem_singleton.1 listed⟩
    · intro kind elements content
      have before := filled kind elements content
      rw [← node, ← World.map_image_eq imaged later] at before
      have grown : ((after.heap.edit copy (.append (start.image after item))).node copy).content =
          .collection kind (Content.collected kind ((done ++ [item]).map (start.image after))) := by
        rw [Heap.node_edit_self drafting.held, Node.content_append before, List.map_append, List.map_singleton,
          Content.collected_append]
      exact grown
  · rintro _ after ⟨drafting, imaged, filled⟩
    refine ⟨drafting, fun asked => ?_⟩
    rcases content : (start.heap.node source).content with _ | _ | ⟨kind, elements⟩ | _ | _
    case collection =>
      rw [Node.items_of_collection content] at filled imaged
      refine ⟨?_, fun _ => ?_⟩
      · rw [content, Content.mapped]
        exact filled kind elements content
      · rwa [Node.parts, content]
    all_goals
      rw [content] at asked
      cases asked

/-- Entries are bound one by one. -/
private theorem Drafting.ensures_fillMap :
    (fillMap ask (start.heap.node source) copy).Ensures middle (fun _ _ => True)
      (fun _ after => Drafted setting start now .map source copy after) := by
  refine (ensures_forM (fun done after => Drafting setting start now source copy after ∧
    (∀ entry ∈ done, start.Imaged after entry.1 ∧ start.Imaged after entry.2) ∧
    ∀ bindings, (start.heap.node source).content = .map bindings → (after.heap.node copy).content =
      .map (.ofList (done.map (fun entry => (start.image after entry.1, start.image after entry.2)))))
    ⟨drafting, by simp, ?_⟩ ?_).weaken ?_
  · intro bindings content
    rw [empty, content]
    rfl
  · rintro done ⟨key, value⟩ rest split middle ⟨drafting, imaged, filled⟩
    obtain ⟨keyPart, valuePart⟩ := Node.mem_parts_of_bindings
      (by simp [split] : (key, value) ∈ (start.heap.node source).bindings)
    apply (drafting.ensures_ask asks fun id same => closed source id (same ▸ keyPart)).bind
    rintro _ between ⟨drafting, newKey, rfl, node, later⟩
    apply (drafting.ensures_ask asks fun id same => closed source id (same ▸ valuePart)).bind
    rintro _ after ⟨drafting, newValue, rfl, node', later'⟩
    have newKey' := newKey.later later'
    have since := later.trans later'
    have imaged' : ∀ entry ∈ done ++ [(key, value)], start.Imaged after entry.1 ∧ start.Imaged after entry.2 := by
      intro entry listed
      rcases List.mem_append.1 listed with before | last
      · obtain ⟨keyImaged, valueImaged⟩ := imaged entry before
        exact ⟨keyImaged.later since, valueImaged.later since⟩
      · obtain rfl := List.mem_singleton.1 last
        exact ⟨newKey', newValue⟩
    rw [← newKey.image_eq later']
    refine ensures_of_ok rfl ⟨drafting.fill (by simp) (fun _ => rfl) ?_, imaged', ?_⟩
    · intro other listed
      rcases List.mem_pair.1 listed with same | same
      · exact ⟨key, newKey', same⟩
      · exact ⟨value, newValue, same⟩
    · intro bindings content
      have before := filled bindings content
      rw [← node, ← node', ← World.map_entry_eq imaged since] at before
      have grown : ((after.heap.edit copy (.bind (start.image after key) (start.image after value))).node
          copy).content = .map (.ofList ((done ++ [(key, value)]).map
            (fun entry => (start.image after entry.1, start.image after entry.2)))) := by
        rw [Heap.node_edit_self drafting.held, List.map_append, List.map_singleton, OrderedMap.ofList_append]
        exact Node.content_edited (by rw [before]; rfl)
      exact grown
  · rintro _ after ⟨drafting, imaged, filled⟩
    refine ⟨drafting, fun asked => ?_⟩
    rcases content : (start.heap.node source).content with _ | _ | _ | bindings | _
    case map =>
      rw [Node.bindings_of_map content] at filled imaged
      refine ⟨?_, fun _ part listed => ?_⟩
      · rw [content, Content.mapped]
        exact filled bindings content
      · rw [Node.parts, content] at listed
        obtain ⟨entry, member, rfl | rfl⟩ := Node.mem_entries listed
        · exact (imaged entry member).1
        · exact (imaged entry member).2
    all_goals
      rw [content] at asked
      cases asked

omit asks in
/-- An array of scalars is copied unseen. -/
private theorem Drafting.copyItems (scalars : (start.heap.node source).hasScalarSlots = true) :
    Drafted setting start now .array source copy
      (Action.edit copy (.setItems (start.heap.node source).items) middle).2 := by
  have kept : Drafting setting start now source copy
      (Action.edit copy (.setItems (start.heap.node source).items) middle).2 := by
    refine drafting.edit (by simp) ?_ ?_
    · intro part listed
      exact drafting.state.later.holds (closed source part (Node.mem_parts_of_items listed))
    · intro name spare assigned
      cases assigned
  refine ⟨kept, fun asked => ⟨?_, fun mixed => ?_⟩⟩
  · rcases content : (start.heap.node source).content with _ | ⟨component, slots⟩ | _ | _ | _
    case array =>
      rw [Node.hasScalarSlots, content] at scalars
      rw [content] at empty
      show ((middle.heap.edit copy _).node copy).content = _
      rw [Heap.node_edit_self drafting.held, Node.items_of_array content, Content.mapped, if_pos scalars]
      exact Node.content_edited (by rw [empty]; rfl)
    all_goals
      rw [content] at asked
      cases asked
  · cases scalars.symm.trans mixed

/-- Slots are filled in order, and those that were not reached yet are null. -/
private theorem Drafting.ensures_fillArray :
    (fillArray ask (start.heap.node source) copy).Ensures middle (fun _ _ => True)
      (fun _ after => Drafted setting start now .array source copy after) := by
  unfold fillArray
  split
  · next scalars => exact ensures_of_ok rfl (drafting.copyItems closed empty scalars)
  · next mixed =>
    refine (ensures_forM (fun done after => Drafting setting start now source copy after ∧
      (∀ item ∈ done.map Prod.fst, start.Imaged after item) ∧
      ∀ component slots, (start.heap.node source).content = .array component slots → (after.heap.node copy).content =
        .array component
          ((done.map Prod.fst).map (start.image after) ++ .replicate (slots.length - done.length) .null))
      ⟨drafting, by simp, ?_⟩ ?_).weaken ?_
    · intro component slots content
      rw [empty, content]
      rfl
    · rintro done ⟨item, index⟩ rest split middle ⟨drafting, imaged, filled⟩
      obtain ⟨rfl, known, all⟩ := zipIdx_eq_append split
      have old : ∀ id, item = .object id → start.heap.Holds id := by
        rintro id rfl
        exact closed source id (Node.mem_parts_of_items (List.mem_of_getElem? known))
      apply (drafting.ensures_ask asks old).bind
      rintro _ after ⟨drafting, new, rfl, node, later⟩
      have imaged' : ∀ other ∈ (done ++ [(item, done.length)]).map Prod.fst, start.Imaged after other := by
        rw [List.map_append]
        exact World.imaged_append imaged later new
      refine ensures_of_ok rfl ⟨drafting.fill (by simp) (fun _ => rfl) ?_, imaged', ?_⟩
      · intro value listed
        exact ⟨item, new, List.mem_singleton.1 listed⟩
      · intro component slots content
        have before := filled component slots content
        rw [← node, ← World.map_image_eq imaged later] at before
        rw [Node.items_of_array content] at all
        have reached : ((done.map Prod.fst).map (start.image after)).length = done.length := by simp
        have grown : ((after.heap.edit copy (.setSlot done.length (start.image after item))).node copy).content =
            .array component (((done ++ [(item, done.length)]).map Prod.fst).map (start.image after) ++
              .replicate (slots.length - (done ++ [(item, done.length)]).length) .null) := by
          rw [Heap.node_edit_self drafting.held]
          apply Node.content_edited
          have short : ((done.map Prod.fst).map (start.image after)).length < slots.length := by omega
          have next := Content.edited?_setSlot_next component short (start.image after item)
          rw [reached, ← before] at next
          simpa using next
        exact grown
    · rintro _ after ⟨drafting, imaged, filled⟩
      refine ⟨drafting, fun asked => ?_⟩
      rw [List.zipIdx_map_fst] at imaged filled
      rcases content : (start.heap.node source).content with _ | ⟨component, slots⟩ | _ | _ | _
      case array =>
        have last := filled component slots content
        rw [Node.items_of_array content] at last imaged
        rw [List.length_zipIdx, Nat.sub_self, List.replicate_zero, List.append_nil] at last
        rw [Node.hasScalarSlots, content] at mixed
        refine ⟨?_, fun _ => ?_⟩
        · rw [content, Content.mapped, if_neg mixed]
          exact last
        · rwa [Node.parts, content]
      all_goals
        rw [content] at asked
        cases asked

end Filling

/-- A part of the run has answered with what takes the place of a property value. -/
structure Detached (setting : Setting) (start now : World) (value result : Value) (after : World) : Prop where
  state : Reproducing start after
  since : Reproduction setting start (fun _ => False) now after
  replaced : Replaced setting start after value result
  held : ∀ part, result = .object part → after.heap.Holds part
  single : ∀ spare, result = .object spare → start.Spare after spare →
    ∀ id name, (after.heap.node id).attr name ≠ .object spare

/-- A bean some of whose properties have been copied. -/
structure Drawing (setting : Setting) (start now : World) (source copy : ObjectId) (done : List String)
    (middle : World) : Prop extends Drafting setting start now source copy middle where
  bean : (middle.heap.node copy).isBean = (start.heap.node source).isBean
  replaced : ∀ name ∈ done,
    Replaced setting start middle ((start.heap.node source).attr name) ((middle.heap.node copy).attr name)

section Detaching

variable {setting : Setting} {start : World} (replicable : Replicable setting start) {ask : Value → Action Value}
  (asks : Reproducer setting start ask) {now : World} (state : Reproducing start now)

include state in
/-- A rebuilt container holds what its handler fills in. -/
private theorem Reproducing.ensures_rebuild {handler : Handler} {fill : Node → ObjectId → Action Unit}
    {source : ObjectId}
    (old : start.heap.Holds source) (unpassed : start.passed? source = none)
    (unvisited : now.visits.get? source = none) (handled : start.handler? source = some handler)
    (fills : ∀ middle, Drafting setting start now source now.heap.fresh middle →
      (middle.heap.node now.heap.fresh).content = (start.heap.node source).content.emptied →
      (fill (start.heap.node source) now.heap.fresh).Ensures middle (fun _ _ => True)
        (fun _ after => Drafted setting start now handler source now.heap.fresh after)) :
    (rebuild fill source).Ensures now (fun _ _ => True) (Reproduced setting start now (.object source)) := by
  have drafting : Drafting setting start now source _ _ := .visit state old unpassed unvisited
  have noted := drafting.of_same (.note _ (.walked source)) rfl rfl
  have node := state.kept source old
  rw [node] at noted
  apply ensures_look_bind
  rw [node]
  refine ensures_bind_of_eq rfl (ensures_bind_of_eq rfl (ensures_bind_of_eq rfl ?_))
  refine (fills _ noted (congrArg Node.content (now.heap.node_fresh _))).bind ?_
  intro _ after drafted
  refine ensures_pure (drafted.reproduced ⟨drafted.held, fun unhandled => ?_, fun other known => ?_⟩)
  · cases handled.symm.trans unhandled
  · cases handled.symm.trans known
    exact drafted.members

include asks state in
/-- A loaded property value has its image, and an unloaded one is replaced by something new. -/
private theorem ensures_replaced {value : Value} (old : ∀ id, value = .object id → start.heap.Holds id) :
    (detachedPart setting ask value).Ensures now (fun _ _ => True) (Detached setting start now value) := by
  have nullified : ∀ {lost}, Replaced setting start now lost .null → Detached setting start now lost .null now :=
    fun replaced => ⟨state, .refl now, replaced, nofun, nofun⟩
  have loaded : value.isLoaded now.heap = value.isLoaded start.heap := by
    cases value with
    | object id => rw [Value.isLoaded, Value.isLoaded, state.kept id (old id rfl)]
    | _ => rfl
  unfold detachedPart
  split
  · next null =>
    obtain rfl := (Value.isNull_iff value).1 null
    exact ensures_pure (nullified (.image rfl (.scalar rfl)))
  apply ensures_look_bind
  split
  · next present =>
    apply (asks now value state old).weaken
    rintro _ after ⟨state, since, imaged, rfl⟩
    refine ⟨state, since, .image (loaded ▸ present) imaged, ?_, ?_⟩
    · exact fun part same => state.holds_image imaged same
    · exact fun spare same own => absurd own (World.not_spare_image imaged same)
  · next absent =>
    cases value with
    | object part =>
      have node := state.kept part (old part rfl)
      have unloaded : (start.heap.node part).origin.isLoaded = false := by
        rw [Bool.not_eq_true, loaded] at absent
        exact absent
      apply ensures_look_bind
      rw [node]
      rcases empties : setting.empties (start.heap.node part) with _ | _
      · rw [Setting.empties] at empties
        rw [if_neg (by simp [empties])]
        exact ensures_pure (nullified (.dropped unloaded empties))
      · rw [Setting.empties] at empties
        rw [if_pos empties]
        have own : start.Spare (allocate (start.heap.node part).emptyLike now).2 now.heap.fresh :=
          ⟨state.not_holds_fresh, state.ne_fresh⟩
        have held : (now.heap.allocate (start.heap.node part).emptyLike).Holds now.heap.fresh :=
          Heap.holds_allocate.2 (.inr rfl)
        refine ensures_bind_of_eq rfl (ensures_pure ⟨state.allocate _, .allocate _, ?_, ?_, ?_⟩)
        · exact .emptied unloaded empties own held (now.heap.node_fresh _)
        · rintro _ ⟨⟩
          exact held
        · rintro _ ⟨⟩ - id name refers
          change ((now.heap.allocate _).node id).attr name = _ at refers
          rw [Heap.attr_allocate] at refers
          exact now.heap.not_holds_fresh (state.closed.holds_attr refers)
    | _ => exact absurd rfl absent

variable {source copy : ObjectId} {done : List String} {middle after : World}

/-- A part of the run leaves the properties that are done as they are. -/
private theorem Drawing.go (drawing : Drawing setting start now source copy done middle)
    (state : Reproducing start after)
    (since : Reproduction setting start (fun _ => False) middle after) :
    Drawing setting start now source copy done after := by
  have node := since.kept copy drawing.held
  refine ⟨drawing.toDrafting.go state since, ?_, fun name listed => ?_⟩
  · rw [node]
    exact drawing.bean
  · rw [node]
    exact (drawing.replaced name listed).later since.later fun _ => since.spares

/-- A property of the copy gets what takes the place of the source's value. -/
private theorem Drawing.write (drawing : Drawing setting start now source copy done middle)
    (bean : (start.heap.node source).isBean = true) {property : String} {result : Value}
    (detached : Detached setting start middle ((start.heap.node source).attr property) result after) :
    Drawing setting start now source copy (done ++ [property])
      (edit copy (.setAttribute property result) after).2 := by
  have drawing := drawing.go detached.state detached.since
  have editing := World.Later.edit after copy
    (by simp : ∀ origin, Edit.setAttribute property result ≠ .setOrigin origin)
  have spares : ∀ spare, start.Spare after spare → after.heap.Holds spare →
      start.Spare (edit copy (.setAttribute property result) after).2 spare ∧
        (edit copy (.setAttribute property result) after).2.heap.node spare = after.heap.node spare := by
    intro spare own _
    have different : spare ≠ copy := by
      rintro rfl
      exact own.unrecorded source drawing.visited
    exact ⟨⟨own.new, own.unrecorded⟩, Heap.node_edit_of_ne _ different _⟩
  constructor
  · apply drawing.toDrafting.edit (by simp)
    · intro part carried
      exact detached.held part (List.mem_singleton.1 carried).symm
    · intro name spare assigned own
      have written : ∀ wanted, (Edit.setAttribute property result).assigns? wanted = some (.object spare) →
          property = wanted ∧ result = .object spare := by
        intro wanted assigned
        rw [Edit.assigns?] at assigned
        split at assigned
        · next same => exact ⟨same, Option.some.inj assigned⟩
        · cases assigned
      obtain ⟨rfl, same⟩ := written name assigned
      exact ⟨fun wanted assigned => (written wanted assigned).1.symm, detached.single spare same own⟩
  · exact (congrArg Node.isBean (Heap.node_edit_self drawing.held _)).trans
      ((Node.isBean_edited _ _).trans drawing.bean)
  · intro name listed
    change Replaced setting start _ _ (((after.heap.edit copy _).node copy).attr name)
    rw [Heap.attr_edit_setAttribute drawing.held (drawing.bean.trans bean)]
    split
    · next same => exact same ▸ detached.replaced.later editing spares
    · next other =>
      have before : name ∈ done := by
        rcases List.mem_append.1 listed with before | last
        · exact before
        · exact absurd (List.mem_singleton.1 last).symm other
      exact (drawing.replaced name before).later editing spares

include replicable asks

/-- A property of a bean is copied. -/
private theorem Drawing.ensures_disconnectProperty (drawing : Drawing setting start now source copy done middle)
    {metadata : Metadata} (known : start.metadata? setting source = some metadata) {property : String}
    (listed : property ∈ metadata.names) :
    (disconnectProperty setting ask metadata source copy property).Ensures middle (fun _ _ => True)
      (fun _ after => Drawing setting start now source copy (done ++ [property]) after) := by
  obtain ⟨access, declared⟩ := Metadata.access?_of_mem_names listed
  obtain rfl := (replicable.fields source drawing.old metadata known).access?_eq declared
  apply (ensures_readProperty fun _ => trivial).bind
  rintro value _ ⟨rfl, found⟩
  have bean : (start.heap.node source).isBean = true := by
    rw [← drawing.node_source]
    exact (Property.read_cases found).1
  obtain rfl := Property.read_of_field declared found
  rw [drawing.node_source]
  apply (ensures_replaced asks drawing.state fun _ => replicable.closed.holds_attr).bind
  intro result after detached
  apply ensures_writeProperty fun _ => trivial
  intro change made
  obtain rfl := made.eq_of_field declared
  exact ⟨fun _ => trivial, fun _ => drawing.write bean detached⟩

/-- All declared properties of an object are copied, if it has any. -/
private theorem Drafting.ensures_disconnectProperties (drafting : Drafting setting start now source copy middle)
    (unhandled : start.handler? source = none)
    (empty : middle.heap.node copy = (start.heap.node source).emptyLike) :
    (metadataOf setting source >>= fun metadata? =>
      match metadata? with
      | none => pure (.object copy)
      | some metadata => do
        metadata.names.forM (disconnectProperty setting ask metadata source copy)
        return .object copy).Ensures middle (fun _ _ => True) (Reproduced setting start now (.object source)) := by
  apply (Answers.ensures (answers_metadataOf setting source)).bind
  rintro metadata? _ ⟨known, cache, same, rfl⟩
  replace known : metadata? = start.metadata? setting source := by
    rw [known, World.metadata?_of_same drafting.node_source drafting.state.later.schema]
  have drafting := drafting.of_same (.cache middle same) rfl rfl
  have bean : (middle.heap.node copy).isBean = (start.heap.node source).isBean := by
    rw [empty, Node.isBean_emptyLike]
  have handled : ∀ {after : World} handler, start.handler? source = some handler →
      (start.heap.node source).content.handler? = some handler → start.Rebuilt after source copy := by
    intro after handler handled
    cases unhandled.symm.trans handled
  rcases metadata? with _ | metadata
  · refine ensures_pure (drafting.reproduced ⟨drafting.held, fun _ shaped => ⟨bean.trans shaped, ?_⟩, handled⟩)
    rw [World.names, ← known]
    exact List.forall_mem_nil _
  · have drawing : Drawing setting start now source copy [] { middle with cache } :=
      ⟨drafting, bean, List.forall_mem_nil _⟩
    refine Ensures.bind (ensures_forM (fun done => Drawing setting start now source copy done) drawing ?_) ?_
    · intro done property rest split reached drawing
      exact drawing.ensures_disconnectProperty replicable asks known.symm (by simp [split])
    · intro _ after drawing
      have names : start.names setting source = metadata.names := by
        rw [World.names, ← known]
        rfl
      refine ensures_pure (drawing.reproduced ⟨drawing.held, fun _ shaped => ⟨drawing.bean.trans shaped, ?_⟩,
        handled⟩)
      rw [names]
      exact drawing.replaced

/-- An object without a handler is copied. -/
private theorem ensures_copied (state : Reproducing start now) (old : start.heap.Holds source)
    (unhandled : start.handler? source = none) (unvisited : now.visits.get? source = none) :
    (disconnectObject setting ask source).Ensures now (fun _ _ => True)
      (Reproduced setting start now (.object source)) := by
  have unpassed : start.passed? source = none := by
    rw [World.passed?, unhandled]
  have drafting : Drafting setting start now source _ _ := .visit state old unpassed unvisited
  have node := state.kept source old
  have target : targetOf setting source now = allocate (now.heap.node source).emptyLike now := by
    simp only [targetOf, nodeOf, bind_apply, look, replicable.clones, Bool.true_or, if_true]
  unfold disconnectObject
  refine ensures_bind_of_eq target (ensures_bind_of_eq rfl (ensures_bind_of_eq rfl ?_))
  have noted := drafting.of_same (.note _ (.walked source)) rfl rfl
  apply (ensures_flushFirst fun _ _ _ => trivial).bind
  rintro _ _ ⟨store, outages, kept, spent, rfl⟩
  have flushed := noted.of_same (.stored _ kept spent) rfl rfl
  have empty := (now.heap.node_fresh (now.heap.node source).emptyLike).trans (congrArg Node.emptyLike node)
  exact flushed.ensures_disconnectProperties replicable asks unhandled empty

/-- A value that was not visited is rebuilt, replaced or passed through. -/
private theorem ensures_rebuilt {handler : Handler} {value : Value} (state : Reproducing start now)
    (old : ∀ id, value = .object id → start.heap.Holds id)
    (unvisited : ∀ id, value = .object id → now.visits.get? id = none)
    (known : now.dispatch.registry.ofValue now.heap value = some handler) :
    (handler.rebuildValue ask value).Ensures now (fun _ _ => True) (Reproduced setting start now value) := by
  rcases object : value.object? with _ | source
  · obtain ⟨schema, defaults⟩ := replicable.defaults
    rw [state.later.registry, defaults] at known
    obtain rfl := Handler.Registry.ofValue_scalar schema now.heap object known
    exact ensures_pure ⟨state, .refl now, .scalar object, (World.image_of_scalar object).symm⟩
  obtain rfl := (Value.object?_eq_some_iff _ _).1 object
  have held := old source rfl
  have handled : start.handler? source = some handler := (state.later.handler?_eq held).symm.trans known
  have passes : ∀ target, start.passed? source = some target →
      Reproduced setting start now (.object source) target now := by
    intro target passed
    have image : start.image? now source = some target := by
      rw [World.image?, passed, Option.some_or]
    refine ⟨state, .refl now, ?_, ?_⟩
    · rintro _ ⟨⟩
      exact ⟨held, by simp [image]⟩
    · rw [World.image, image]
      rfl
  cases handler with
  | basic | frozen => exact ensures_pure (passes _ (by rw [World.passed?, handled]))
  | null => exact ensures_pure (passes _ (by rw [World.passed?, handled]))
  | collection =>
    apply state.ensures_rebuild held (by rw [World.passed?, handled]) (unvisited source rfl) handled
    exact fun middle drafting => drafting.ensures_fillCollection replicable.closed asks
  | map =>
    apply state.ensures_rebuild held (by rw [World.passed?, handled]) (unvisited source rfl) handled
    exact fun middle drafting => drafting.ensures_fillMap replicable.closed asks
  | array =>
    apply state.ensures_rebuild held (by rw [World.passed?, handled]) (unvisited source rfl) handled
    exact fun middle drafting => drafting.ensures_fillArray replicable.closed asks

/-- A value is taken apart, unless it was visited before. -/
private theorem ensures_reproduced {value : Value} (state : Reproducing start now)
    (old : ∀ id, value = .object id → start.heap.Holds id) :
    (disconnectValue setting ask value).Ensures now (fun _ _ => True) (Reproduced setting start now value) := by
  unfold disconnectValue
  split
  · next null =>
    obtain rfl := (Value.isNull_iff value).1 null
    exact ensures_pure ⟨state, .refl now, .scalar rfl, rfl⟩
  apply ensures_look_bind
  rcases visited : value.object?.bind now.visits.get? with _ | counterpart
  · apply (Answers.ensures (answers_handlerOf value)).bind
    rintro handler? _ ⟨known, dispatch, same, rfl⟩
    have looked : Reproduction setting start (fun _ => False) now { now with dispatch } :=
      .of_same (.dispatch now same) rfl rfl
    have unvisited : ∀ id, value = .object id → now.visits.get? id = none := by
      rintro id rfl
      exact visited
    have state := state.of_same (.dispatch now same) rfl rfl
    suffices rest : Ensures _ { now with dispatch } (fun _ _ => True)
        (Reproduced setting start { now with dispatch } value) from
      rest.weaken fun _ _ reproduced => { reproduced with since := looked.trans reproduced.since }
    rcases handler? with _ | handler
    · cases value with
      | object source =>
        have held := old source rfl
        apply ensures_copied replicable asks state held _ (unvisited source rfl)
        rw [← state.later.handler?_eq held, World.handler?, same]
        exact known.symm
      | _ => exact ensures_pure ⟨state, .refl _, .scalar rfl, rfl⟩
    · apply ensures_rebuilt replicable asks state old unvisited
      rw [same]
      exact known.symm
  · obtain ⟨id, object, known⟩ := Option.bind_eq_some_iff.1 visited
    obtain rfl := (Value.object?_eq_some_iff _ _).1 object
    obtain ⟨imaged, image⟩ := state.imaged_of_visited known
    exact ensures_pure ⟨state, .refl now, imaged, image.symm⟩

end Detaching

/-- Requests are answered with images, however much fuel there is. -/
theorem reproducer_answer {setting : Setting} {start : World} (replicable : Replicable setting start) (fuel : Nat) :
    Reproducer setting start (fun value => answer setting fuel (.disconnect value)) := by
  induction fuel with
  | zero => exact fun _ _ _ _ => ensures_stop trivial
  | succ fuel ih =>
    intro now value state old
    have asking := World.Later.note now (.asked (.disconnect value))
    refine ensures_bind_of_eq rfl ?_
    apply (ensures_reproduced replicable ih (state.of_same asking rfl rfl) old).bind
    intro result after reproduced
    have answering := World.Later.note after (.answered (.disconnect value) result)
    refine ensures_bind_of_eq rfl (ensures_pure ?_)
    have since := reproduced.since.trans (.of_same answering rfl rfl)
    refine ⟨reproduced.state.of_same answering rfl rfl, ?_, reproduced.imaged, reproduced.result_eq⟩
    exact (Reproduction.of_same asking rfl rfl).trans since

end Reconciler
