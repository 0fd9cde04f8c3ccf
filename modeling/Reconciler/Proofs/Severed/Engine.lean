import Reconciler.Proofs.Ensures
import Reconciler.Proofs.Severed

/-! # A detached graph keeps no lazy link

One lemma for each function that takes a graph apart says that it leaves severed values. Nothing is claimed
of a run that fails. What a run returns is severed, and so is everything that it has put into new objects or
into the beans that it has detached in place; so the objects that are reachable from its result are
severed, too.
-/

namespace Reconciler

open Reconciler.Action

/-- A part of the run has answered with a severed value. -/
structure Yielded (setting : Setting) (start now : World) (result : Value) (after : World) : Prop where
  severing : Severing setting start after
  since : Severance setting start (fun _ => False) now after
  severed : Severed start after result

/-- What was done before may be counted in. -/
private theorem Yielded.after {setting : Setting} {start now middle : World} {result : Value} {after : World}
    (yielded : Yielded setting start middle result after) (begun : start.Later now)
    (first : Severance setting start (fun _ => False) now middle) : Yielded setting start now result after :=
  { yielded with since := first.trans begun yielded.since }

/-- Requests for detached parts are answered with severed values. -/
def Severs (setting : Setting) (start : World) (ask : Value → Action Value) : Prop :=
  ∀ now value, Severing setting start now → (∀ id, value = .object id → now.heap.Holds id) →
    (ask value).Ensures now (fun _ _ => True) (Yielded setting start now)

/-- A visited object whose counterpart, a new object or the object itself, is being filled. -/
structure Underway (setting : Setting) (start now : World) (source target : ObjectId) (middle : World) :
    Prop where
  begun : start.Later now
  present : now.heap.Holds source
  unvisited : now.visits.get? source = none
  either : ¬ now.heap.Holds target ∨ target = source
  severing : Severing setting start middle
  since : Severance setting start (· = source) now middle
  visited : middle.visits.get? source = some (.object target)
  held : middle.heap.Holds target

namespace Underway

variable {setting : Setting} {start now : World} {source target : ObjectId} {middle : World}

/-- A first visit with a new object as the counterpart. -/
private theorem start_new (severing : Severing setting start now) (present : now.heap.Holds source)
    (unvisited : now.visits.get? source = none) :
    Underway setting start now source now.heap.fresh
      (record source (.object now.heap.fresh) (allocate (now.heap.node source).emptyLike now).2).2 := by
  have held : (now.heap.allocate (now.heap.node source).emptyLike).Holds now.heap.fresh :=
    Heap.holds_allocate.2 (.inr rfl)
  have fresh : (allocate (now.heap.node source).emptyLike now).2.visits.get? source = none := unvisited
  constructor
  · exact severing.later
  · exact present
  · exact unvisited
  · exact .inl now.heap.not_holds_fresh
  · apply (severing.allocate present).record unvisited held (.inl severing.not_holds_fresh)
    intro same
    exact absurd present (same ▸ now.heap.not_holds_fresh)
  · exact (Severance.allocate _).trans severing.later (.record fresh _)
  · exact World.Later.visits_record _ source _
  · exact held

/-- A first visit of a bean that is detached in place. -/
private theorem start_own (severing : Severing setting start now) (present : now.heap.Holds source)
    (unvisited : now.visits.get? source = none) (reuses : setting.config.cloneObjects = false)
    (unhandled : now.handler? source = none) (real : (now.heap.node source).origin.isProxy = false) :
    Underway setting start now source source (record source (.object source) now).2 where
  begun := severing.later
  present := present
  unvisited := unvisited
  either := .inr rfl
  severing := severing.record unvisited present (.inr rfl) fun _ => ⟨reuses, unhandled, real⟩
  since := .record unvisited _
  visited := World.Later.visits_record now source _
  held := present

variable (underway : Underway setting start now source target middle)

include underway

/-- A part of the run leaves the object open. -/
private theorem go {result : Value} {after : World} (yielded : Yielded setting start middle result after) :
    Underway setting start now source target after :=
  { underway with
    severing := yielded.severing
    since := underway.since.trans underway.begun yielded.since.weaken
    visited := yielded.since.later.visits _ _ underway.visited
    held := yielded.since.later.holds underway.held }

private theorem of_same {after : World} (later : middle.Later after) (heap : after.heap = middle.heap)
    (visits : after.visits = middle.visits) : Underway setting start now source target after :=
  { underway with
    severing := underway.severing.of_same later heap visits
    since := underway.since.trans underway.begun (.of_same later heap visits)
    visited := (congrArg (·.get? source) visits).trans underway.visited
    held := later.holds underway.held }

/-- Severed values are put into the counterpart. -/
private theorem edit {change : Edit} (other : ∀ origin, change ≠ .setOrigin origin)
    (carried : ∀ part ∈ change.values, Severed start middle part) :
    Underway setting start now source target (edit target change middle).2 where
  begun := underway.begun
  present := underway.present
  unvisited := underway.unvisited
  either := underway.either
  severing := by
    apply underway.severing.edit other _ carried
    rcases underway.either with absent | rfl
    · exact .inl fun old => absent (underway.begun.holds old)
    · exact .inr underway.visited
  since := by
    apply underway.since.edit underway.begun other
    rcases underway.either with absent | rfl
    · exact .inl absent
    · exact .inr ⟨rfl, underway.unvisited, underway.visited⟩
  visited := underway.visited
  held := (World.Later.edit middle target other).holds underway.held

/-- The counterpart is severed at once, though it may be filled later. -/
private theorem yields (settled : target = source → ∀ part ∈ middle.partsOf setting source, Severed start middle part) :
    Yielded setting start now (.object target) middle where
  severing := underway.severing
  since := by
    apply underway.since.close
    intro own
    cases underway.visited.symm.trans own
    exact settled rfl
  severed := underway.severing.counterpart source _ underway.visited

/-- A new counterpart leaves nothing to be settled. -/
private theorem yields_new (absent : ¬ now.heap.Holds target) : Yielded setting start now (.object target) middle :=
  underway.yields fun same => absurd underway.present (same ▸ absent)

private theorem ensures_ask {ask : Value → Action Value} (asks : Severs setting start ask) {value : Value}
    (listed : ∀ id, value = .object id → now.heap.Holds id) :
    (ask value).Ensures middle (fun _ _ => True) (fun result after =>
      Underway setting start now source target after ∧ Severed start after result ∧ middle.Later after) := by
  have held : ∀ id, value = .object id → middle.heap.Holds id :=
    fun id same => underway.since.later.holds (listed id same)
  apply (asks middle value underway.severing held).weaken
  intro result after yielded
  exact ⟨underway.go yielded, yielded.severed, yielded.since.later⟩

end Underway

section Filling

variable {setting : Setting} {start : World} {ask : Value → Action Value} (asks : Severs setting start ask)
  {now middle : World} {source copy : ObjectId}

include asks

private theorem Underway.ensures_fillCollection (underway : Underway setting start now source copy middle) {node : Node}
    (listed : ∀ item ∈ node.items, ∀ id, item = .object id → now.heap.Holds id) :
    (fillCollection ask node copy).Ensures middle (fun _ _ => True)
      (fun _ after => Underway setting start now source copy after) := by
  apply ensures_forM (fun _ => Underway setting start now source copy) underway
  intro done item rest split reached underway
  apply (underway.ensures_ask asks (listed item (by simp [split]))).bind
  rintro image after ⟨underway, severed, -⟩
  refine ensures_of_ok rfl (underway.edit (by simp) ?_)
  intro part carried
  obtain rfl := List.mem_singleton.1 carried
  exact severed

private theorem Underway.ensures_fillMap (underway : Underway setting start now source copy middle) {node : Node}
    (listed : ∀ entry ∈ node.bindings, (∀ id, entry.1 = .object id → now.heap.Holds id) ∧
      ∀ id, entry.2 = .object id → now.heap.Holds id) :
    (fillMap ask node copy).Ensures middle (fun _ _ => True)
      (fun _ after => Underway setting start now source copy after) := by
  apply ensures_forM (fun _ => Underway setting start now source copy) underway
  rintro done ⟨key, value⟩ rest split reached underway
  obtain ⟨keyHeld, valueHeld⟩ := listed (key, value) (by simp [split])
  apply (underway.ensures_ask asks keyHeld).bind
  rintro image after ⟨underway, severed, -⟩
  apply (underway.ensures_ask asks valueHeld).bind
  rintro bound last ⟨underway, severed', later⟩
  refine ensures_of_ok rfl (underway.edit (by simp) ?_)
  intro part carried
  rcases List.mem_pair.1 carried with rfl | rfl
  · exact severed.later later
  · exact severed'

private theorem Underway.ensures_fillArray (underway : Underway setting start now source copy middle) {node : Node}
    (listed : ∀ item ∈ node.items, ∀ id, item = .object id → now.heap.Holds id)
    (scalars : node.hasScalarSlots = true → ∀ item ∈ node.items, Severed start now item) :
    (fillArray ask node copy).Ensures middle (fun _ _ => True)
      (fun _ after => Underway setting start now source copy after) := by
  unfold fillArray
  split
  · next scalar =>
    refine ensures_of_ok rfl (underway.edit (by simp) ?_)
    intro part carried
    exact (scalars scalar part carried).later underway.since.later
  · apply ensures_forM (fun _ => Underway setting start now source copy) underway
    rintro done ⟨item, index⟩ rest split reached underway
    have member : item ∈ node.items := by
      have listed : (item, index) ∈ node.items.zipIdx := by simp [split]
      exact (List.mem_zipIdx listed).2.2 ▸ List.getElem_mem _
    apply (underway.ensures_ask asks (listed item member)).bind
    rintro image after ⟨underway, severed, -⟩
    refine ensures_of_ok rfl (underway.edit (by simp) ?_)
    intro part carried
    obtain rfl := List.mem_singleton.1 carried
    exact severed

end Filling

section Detaching

variable {setting : Setting} {start : World} (severable : Severable setting start)
  {ask : Value → Action Value} (asks : Severs setting start ask) {now : World}

omit severable asks in
/-- A rebuilt container is new and is filled with severed values. -/
private theorem ensures_rebuild {fill : Node → ObjectId → Action Unit} {source : ObjectId}
    (severing : Severing setting start now) (held : now.heap.Holds source)
    (unvisited : now.visits.get? source = none)
    (fills : ∀ middle, Underway setting start now source now.heap.fresh middle →
      (fill (now.heap.node source) now.heap.fresh).Ensures middle (fun _ _ => True)
        (fun _ after => Underway setting start now source now.heap.fresh after)) :
    (rebuild fill source).Ensures now (fun _ _ => True) (Yielded setting start now) := by
  have underway := Underway.start_new severing held unvisited
  apply ensures_look_bind
  refine ensures_bind_of_eq rfl (ensures_bind_of_eq rfl (ensures_bind_of_eq rfl ?_))
  have noted := underway.of_same (.note _ (.walked source)) rfl rfl
  apply (fills _ noted).bind
  intro _ after filled
  exact ensures_pure (filled.yields_new now.heap.not_holds_fresh)

include asks in
/-- What takes the place of a property value is severed. -/
private theorem ensures_detachedPart (severing : Severing setting start now) {value : Value}
    (held : ∀ id, value = .object id → now.heap.Holds id) :
    (detachedPart setting ask value).Ensures now (fun _ _ => True) (Yielded setting start now) := by
  have null : Yielded setting start now .null now := ⟨severing, .refl now, .scalar rfl⟩
  unfold detachedPart
  split
  · exact ensures_pure null
  apply ensures_look_bind
  split
  · exact asks now value severing held
  unfold unloadedPart
  split
  · next id _ _ =>
    apply ensures_look_bind
    split
    · refine ensures_bind_of_eq rfl (ensures_pure ⟨severing.allocate (held id rfl), .allocate _, ?_⟩)
      exact .new (Heap.holds_allocate.2 (.inr rfl)) severing.not_holds_fresh
    · exact ensures_pure null
  · exact ensures_pure null

/-- A bean some of whose properties have been detached. -/
structure Walking (setting : Setting) (start now : World) (source target : ObjectId) (metadata : Metadata)
    (done : List String) (middle : World) : Prop extends Underway setting start now source target middle where
  metadata?_eq : middle.metadata? setting source = some metadata
  detached : target = source → ∀ name ∈ done, Severed start middle ((middle.heap.node source).attr name)

/-- A part of the run leaves the properties that are done as they are. -/
private theorem Walking.go {source target : ObjectId} {metadata : Metadata} {done : List String} {middle : World}
    (walking : Walking setting start now source target metadata done middle) {result : Value} {after : World}
    (yielded : Yielded setting start middle result after) :
    Walking setting start now source target metadata done after := by
  have visited : middle.visits.get? source ≠ none := by
    rw [walking.visited]
    exact Option.some_ne_none _
  have node := yielded.since.kept source (walking.since.later.holds walking.present) (.inl visited)
  constructor
  · exact walking.toUnderway.go yielded
  · exact (World.metadata?_of_same node yielded.since.later.schema).trans walking.metadata?_eq
  · intro same name listed
    rw [node]
    exact (walking.detached same name listed).later yielded.since.later

/-- A property gets a severed value. -/
private theorem Walking.write {source target : ObjectId} {metadata : Metadata} {done : List String} {middle : World}
    (walking : Walking setting start now source target metadata done middle) {property : String}
    (listed : property ∈ metadata.names) {value : Value} (severed : Severed start middle value) :
    Walking setting start now source target metadata (done ++ [property])
      (edit target (.setAttribute property value) middle).2 := by
  have editing := World.Later.edit middle target
    (by simp : ∀ origin, Edit.setAttribute property value ≠ .setOrigin origin)
  constructor
  · apply walking.toUnderway.edit (by simp)
    intro part carried
    obtain rfl := List.mem_singleton.1 carried
    exact severed
  · by_cases same : target = source
    · subst same
      exact World.metadata?_setAttribute walking.metadata?_eq listed value
    · have node : (edit target (.setAttribute property value) middle).2.heap.node source =
          middle.heap.node source := Heap.node_edit_of_ne _ (Ne.symm same) _
      exact (World.metadata?_of_same node rfl).trans walking.metadata?_eq
  · rintro rfl name member
    show Severed start _ (((middle.heap.edit target _).node target).attr name)
    rcases bean : (middle.heap.node target).isBean with _ | _
    · have still : ((middle.heap.edit target (.setAttribute property value)).node target).isBean = false := by
        rw [Heap.node_edit_self walking.held, Node.isBean_edited, bean]
      rw [Node.attr_of_notBean still]
      exact .scalar rfl
    · rw [Heap.attr_edit_setAttribute walking.held bean]
      split
      · exact severed.later editing
      · next other =>
        have before : name ∈ done := by
          rcases List.mem_append.1 member with before | last
          · exact before
          · exact absurd (List.mem_singleton.1 last).symm other
        exact (walking.detached rfl name before).later editing

include severable asks

/-- A property of a bean is detached. -/
private theorem Walking.ensures_disconnectProperty {source target : ObjectId} {metadata : Metadata} {done : List String}
    {middle : World} (walking : Walking setting start now source target metadata done middle)
    {property : String} (listed : property ∈ metadata.names) :
    (disconnectProperty setting ask metadata source target property).Ensures middle (fun _ _ => True)
      (fun _ after => Walking setting start now source target metadata (done ++ [property]) after) := by
  have present := walking.since.later.holds walking.present
  obtain ⟨access, declared⟩ := Metadata.access?_of_mem_names listed
  obtain rfl := (walking.severing.allFields severable present walking.metadata?_eq).access?_eq declared
  apply (ensures_readProperty fun _ => trivial).bind
  rintro value _ ⟨rfl, found⟩
  have held : ∀ id, value = .object id → middle.heap.Holds id := by
    intro id same
    rw [Property.read_of_field declared found] at same
    exact walking.severing.closed.holds_attr same
  apply (ensures_detachedPart asks walking.severing held).bind
  intro detached after yielded
  apply ensures_writeProperty fun _ => trivial
  intro change made
  obtain rfl := made.eq_of_field declared
  exact ⟨fun _ => trivial, fun _ => (walking.go yielded).write listed yielded.severed⟩

/-- All properties of an object are detached, if it has any. -/
private theorem Underway.ensures_disconnectProperties {source target : ObjectId} {middle : World}
    (underway : Underway setting start now source target middle) :
    (metadataOf setting source >>= fun metadata? =>
      match metadata? with
      | none => pure (.object target)
      | some metadata => do
        metadata.names.forM (disconnectProperty setting ask metadata source target)
        return .object target).Ensures middle (fun _ _ => True) (Yielded setting start now) := by
  -- What is detached in place is no container, so it has properties or no parts at all.
  have bare : ∀ {after}, Underway setting start now source target after → target = source →
      (after.heap.node source).isBean = false → after.partsOf setting source = [] := by
    rintro after underway rfl other
    rw [World.partsOf_of_not_isBean other]
    exact Node.parts_of_shape? (underway.severing.shape?_of_own severable underway.visited) other
  apply (Answers.ensures (answers_metadataOf setting source)).bind
  rintro metadata? _ ⟨known, cache, same, rfl⟩
  have underway := underway.of_same (.cache middle same) rfl rfl
  rcases metadata? with _ | metadata
  · refine ensures_pure (underway.yields fun own => ?_)
    have other : (middle.heap.node source).isBean = false := by
      rcases bean : (middle.heap.node source).isBean with _ | _
      · rfl
      · rw [World.metadata?, bean, if_pos rfl] at known
        simp at known
    rw [bare underway own other]
    exact List.forall_mem_nil _
  · have kept : ({ middle with cache } : World).metadata? setting source = middle.metadata? setting source :=
      World.metadata?_of_same rfl same
    have walking : Walking setting start now source target metadata [] { middle with cache } :=
      ⟨underway, kept.trans known.symm, fun _ _ listed => absurd listed List.not_mem_nil⟩
    refine Ensures.bind (ensures_forM (fun done => Walking setting start now source target metadata done)
      walking ?_) ?_
    · intro done property rest split reached walking
      exact walking.ensures_disconnectProperty severable asks (by simp [split])
    · intro _ after walking
      refine ensures_pure (walking.toUnderway.yields fun own part member => ?_)
      rcases bean : (after.heap.node source).isBean with _ | _
      · rw [bare walking.toUnderway own bean] at member
        cases member
      · rw [World.partsOf_of_isBean bean, World.names, walking.metadata?_eq] at member
        obtain ⟨name, listed, rfl⟩ := List.mem_map.1 member
        exact walking.detached own name listed

/-- An object without a handler is detached into a new one or in place. -/
private theorem ensures_disconnectObject {source : ObjectId} (severing : Severing setting start now)
    (held : now.heap.Holds source) (unvisited : now.visits.get? source = none)
    (unhandled : now.handler? source = none) :
    (disconnectObject setting ask source).Ensures now (fun _ _ => True) (Yielded setting start now) := by
  have rest : ∀ {target middle}, Underway setting start now source target middle →
      (do
        note (.walked source)
        flushFirst setting
        match ← metadataOf setting source with
        | none => return .object target
        | some metadata =>
          metadata.names.forM (disconnectProperty setting ask metadata source target)
          return .object target : Action Value).Ensures middle (fun _ _ => True)
        (Yielded setting start now) := by
    intro target middle underway
    refine ensures_bind_of_eq rfl ?_
    have noted := underway.of_same (.note _ (.walked source)) rfl rfl
    apply (ensures_flushFirst fun _ _ _ => trivial).bind
    rintro _ _ ⟨store, outages, kept, spent, rfl⟩
    exact (noted.of_same (.stored _ kept spent) rfl rfl).ensures_disconnectProperties severable asks
  unfold disconnectObject
  by_cases copies : (setting.config.cloneObjects || (now.heap.node source).origin.isProxy) = true
  · have target : targetOf setting source now = allocate (now.heap.node source).emptyLike now := by
      simp only [targetOf, nodeOf, bind_apply, look, copies, if_true]
    exact ensures_bind_of_eq target
      (ensures_bind_of_eq rfl (rest (Underway.start_new severing held unvisited)))
  · have target : targetOf setting source now = (.ok source, now) := by
      simp only [targetOf, nodeOf, bind_apply, look, if_neg copies, pure_apply]
    obtain ⟨reuses, real⟩ := Bool.or_eq_false_iff.1 (Bool.eq_false_iff.2 copies)
    exact ensures_bind_of_eq target
      (ensures_bind_of_eq rfl (rest (Underway.start_own severing held unvisited reuses unhandled real)))

/-- A value without a counterpart is rebuilt, replaced or passed through, and never an object passed through. -/
private theorem ensures_rebuildValue {handler : Handler} {value : Value} (severing : Severing setting start now)
    (held : ∀ id, value = .object id → now.heap.Holds id)
    (unvisited : ∀ id, value = .object id → now.visits.get? id = none)
    (known : now.dispatch.registry.ofValue now.heap value = some handler) :
    (handler.rebuildValue ask value).Ensures now (fun _ _ => True) (Yielded setting start now) := by
  have null : Yielded setting start now .null now := ⟨severing, .refl now, .scalar rfl⟩
  rcases object : value.object? with _ | source
  · have kept : Yielded setting start now value now := ⟨severing, .refl now, .scalar object⟩
    unfold Handler.rebuildValue
    split
    · exact ensures_pure null
    · cases object
    · cases object
    · cases object
    · exact ensures_pure kept
  obtain rfl := (Value.object?_eq_some_iff _ _).1 object
  have present := held source rfl
  have fresh := unvisited source rfl
  have items : ∀ item ∈ (now.heap.node source).items, ∀ id, item = .object id → now.heap.Holds id := by
    rintro _ member id rfl
    exact severing.closed source id (Node.mem_parts_of_items member)
  cases handler with
  | basic => exact absurd known (severing.handler?_ne_basic severable present)
  | frozen =>
    obtain ⟨schema, defaults⟩ := severable.defaults
    rw [severing.later.registry, defaults] at known
    exact absurd known (Handler.Registry.ofValue_ne_frozen schema now.heap _)
  | null => exact ensures_pure null
  | collection =>
    apply ensures_rebuild severing present fresh
    intro middle underway
    exact underway.ensures_fillCollection asks items
  | map =>
    apply ensures_rebuild severing present fresh
    intro middle underway
    apply underway.ensures_fillMap asks
    intro entry member
    obtain ⟨key, bound⟩ := Node.mem_parts_of_bindings member
    constructor
    · exact fun id same => severing.closed source id (same ▸ key)
    · exact fun id same => severing.closed source id (same ▸ bound)
  | array =>
    apply ensures_rebuild severing present fresh
    intro middle underway
    exact underway.ensures_fillArray asks items (severing.items_of_hasScalarSlots severable)

private theorem ensures_disconnectValue {value : Value} (severing : Severing setting start now)
    (held : ∀ id, value = .object id → now.heap.Holds id) :
    (disconnectValue setting ask value).Ensures now (fun _ _ => True) (Yielded setting start now) := by
  unfold disconnectValue
  split
  · exact ensures_pure ⟨severing, .refl now, .scalar rfl⟩
  apply ensures_look_bind
  rcases visited : value.object?.bind now.visits.get? with _ | counterpart
  · apply (Answers.ensures (answers_handlerOf value)).bind
    rintro handler? _ ⟨known, dispatch, same, rfl⟩
    have looked : Severance setting start (fun _ => False) now { now with dispatch } :=
      .of_same (.dispatch now same) rfl rfl
    have unvisited : ∀ id, value = .object id → now.visits.get? id = none := by
      rintro id rfl
      exact visited
    have begun := severing.later
    have severing := severing.of_same (.dispatch now same) rfl rfl
    suffices rest : Ensures _ { now with dispatch } (fun _ _ => True)
        (Yielded setting start { now with dispatch }) from
      rest.weaken fun _ _ yielded => yielded.after begun looked
    rcases handler? with _ | handler
    · cases value with
      | object source =>
        apply ensures_disconnectObject severable asks severing (held source rfl) (unvisited source rfl)
        rw [World.handler?, same]
        exact known.symm
      | _ => exact ensures_pure ⟨severing, .refl _, .scalar rfl⟩
    · apply ensures_rebuildValue severable asks severing held unvisited
      rw [same]
      exact known.symm
  · obtain ⟨id, -, known⟩ := Option.bind_eq_some_iff.1 visited
    exact ensures_pure ⟨severing, .refl now, severing.counterpart id counterpart known⟩

end Detaching

/-- Requests are answered with severed values, however much fuel there is. -/
private theorem severs_answer {setting : Setting} {start : World} (severable : Severable setting start) (fuel : Nat) :
    Severs setting start (fun value => answer setting fuel (.disconnect value)) := by
  induction fuel with
  | zero => exact fun _ _ _ _ => ensures_stop trivial
  | succ fuel ih =>
    intro now value severing held
    have asking := World.Later.note now (.asked (.disconnect value))
    refine ensures_bind_of_eq rfl ?_
    apply (ensures_disconnectValue severable ih (severing.of_same asking rfl rfl) held).bind
    intro result after yielded
    have answering := World.Later.note after (.answered (.disconnect value) result)
    refine ensures_bind_of_eq rfl (ensures_pure ?_)
    have noted : Yielded setting start after result (note (.answered (.disconnect value) result) after).2 :=
      ⟨yielded.severing.of_same answering rfl rfl, .of_same answering rfl rfl, yielded.severed.later answering⟩
    exact (noted.after (severing.later.trans asking) yielded.since).after severing.later
      (.of_same asking rfl rfl)

/-- What is reachable from the result of a detachment is severed. -/
private theorem Yielded.severed_of_reaches {setting : Setting} {start : World} {result : Value} {after : World}
    (yielded : Yielded setting start start result after) (unvisited : start.visits = {}) {id : ObjectId}
    (reached : setting.Reaches after result id) : Severed start after (.object id) := by
  induction reached with
  | root same => exact same ▸ yielded.severed
  | @part id part reached listed ih =>
    obtain ⟨-, either⟩ := ih id rfl
    by_cases old : start.heap.Holds id
    · have own := either.resolve_left fun new => new old
      rcases yielded.since.settles id old not_false own with before | settled
      · rw [unvisited] at before
        cases before
      · exact settled _ listed
    · rcases World.mem_partsOf listed with null | member
      · cases null
      · exact yielded.severing.parts id old _ member

/-- A graph that was detached holds no stand-in of the store and no managed container. If objects are cloned
it holds new plain objects only. -/
theorem Setting.disconnect_severs {setting : Setting} {schema : Schema} {world after : World}
    {value result : Value} (defaults : world.dispatch.registry = .withDefaults schema)
    (closed : world.heap.Closed) (held : ∀ id, value = .object id → world.heap.Holds id)
    (fields : ∀ id, world.heap.Holds id → ∀ metadata, world.metadata? setting id = some metadata →
      metadata.AllFields)
    (walked : ∀ id, world.heap.Holds id → world.handler? id ≠ some .basic)
    (scalars : ∀ id, world.heap.Holds id → (world.heap.node id).hasScalarSlots = true →
      ∀ item ∈ (world.heap.node id).items, item.object? = none)
    (run : setting.disconnect value world = (.ok result, after)) :
    ∀ id, setting.Reaches after result id →
      (after.heap.node id).origin.isProxy = false ∧
      ((after.heap.node id).shape? ≠ none → (after.heap.node id).origin.isManaged = false) ∧
      (setting.config.cloneObjects = true →
        ¬ world.heap.Holds id ∧ after.heap.Holds id ∧ (after.heap.node id).origin = .plain) := by
  intro id reached
  have severable : Severable setting world.rested := ⟨⟨schema, defaults⟩, closed, fields, walked, scalars⟩
  have begun : Severing setting world.rested world.rested := .start severable rfl
  have yielded := (severs_answer severable (world.rested.fuel setting) world.rested value begun held).answered
    result after run
  obtain ⟨present, either⟩ := yielded.severed_of_reaches rfl reached id rfl
  rcases either with new | own
  · have plain := yielded.severing.plain id new
    rw [plain]
    exact ⟨rfl, fun _ => rfl, fun _ => ⟨new, present, rfl⟩⟩
  · obtain ⟨reuses, -, real⟩ := yielded.severing.own id own
    constructor
    · exact real
    constructor
    · exact fun shape => absurd (yielded.severing.shape?_of_own severable own) shape
    · intro clones
      cases reuses.symm.trans clones

namespace Couples

def schema : Schema := ⟨[
  { name := ⟨"Person"⟩, properties := .ofList [("spouse", .field), ("friends", .field), ("notes", .field)] }]⟩

/-- A person with a stand-in for the spouse, a managed set with both of them and a list that was not loaded. -/
def world : World where
  heap := ⟨#[{ Node.bean ⟨"Person"⟩ [("spouse", .object ⟨1⟩), ("friends", .object ⟨2⟩), ("notes", .object ⟨3⟩)]
      with origin := .stored },
    { Node.bean ⟨"Person"⟩ [("spouse", .object ⟨0⟩)] with origin := .managed true true },
    { Node.set [.object ⟨0⟩, .object ⟨1⟩] with origin := .stored }, .lazyCollection .list]⟩
  dispatch := .ofRegistry (.withDefaults schema)
  cache := .ofSchema schema

def setting : Setting := { schema }

private theorem schema_allFields : schema.AllFields := by
  intro decl declared
  obtain rfl := List.mem_singleton.1 declared
  exact OrderedMap.forall_ofList (fun access : Access => access = .field) (by simp)

/-- The person is detached in place, and all around it is new. -/
theorem couple_severed :
    let outcome := setting.disconnect (.object ⟨0⟩) world
    (outcome.1 = .ok (.object ⟨0⟩) ∧ outcome.2.heap.size = 7) ∧
    ∀ id, setting.Reaches outcome.2 (.object ⟨0⟩) id →
      (outcome.2.heap.node id).origin.isProxy = false ∧
      ((outcome.2.heap.node id).shape? ≠ none → (outcome.2.heap.node id).origin.isManaged = false) ∧
      (setting.config.cloneObjects = true →
        ¬ world.heap.Holds id ∧ outcome.2.heap.Holds id ∧ (outcome.2.heap.node id).origin = .plain) := by
  intro outcome
  have answered : outcome.1 = .ok (.object ⟨0⟩) := by decide +kernel
  have walked : ∀ index < world.heap.size, world.handler? ⟨index⟩ ≠ some .basic := by decide +kernel
  have objects : ∀ index < world.heap.size, (world.heap.node ⟨index⟩).hasScalarSlots = false := by
    decide +kernel
  refine ⟨⟨answered, by decide +kernel⟩, Setting.disconnect_severs (by rfl) (by decide +kernel) ?_ ?_ ?_ ?_
    (Prod.ext answered rfl)⟩
  · rintro _ ⟨⟩
    decide +kernel
  · exact fun _ _ _ => World.allFields_of_metadata? rfl schema_allFields
  · exact fun id held => walked id.index held
  · intro id held scalar
    cases (objects id.index held).symm.trans scalar

end Couples

end Reconciler
