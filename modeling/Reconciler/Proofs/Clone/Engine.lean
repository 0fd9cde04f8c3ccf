import Reconciler.Proofs.Clone.Filling

/-! # The engine clones

One lemma for each function of the engine says that it answers and how far the copies have come by then. The
fuel lasts because every request for a part comes from an object that was visited for the first time.
-/

namespace Reconciler

open Reconciler.Action

/-- A part of the run that leaves nothing open has answered for a value with its copy. -/
def Yields (setting : Setting) (source : World) (member : ObjectId → Prop) (now : World)
    (origin : ObjectId → ObjectId) (value image : Value) (after : World) : Prop :=
  ∃ origin', Cloning source member origin' after ∧
    Advance setting source (fun _ => False) now origin after origin' ∧ Copied after value image

/-- The copies of the parts of an open object have been put into its copy. -/
def Filled (setting : Setting) (source : World) (member : ObjectId → Prop) (now : World)
    (origin : ObjectId → ObjectId) (id copy : ObjectId) (after : World) : Prop :=
  ∃ origin', Opened setting source member now origin id copy after origin' ∧
    Imitates (source.names setting id) origin' source after (source.heap.node id)
      (source.heap.node id).content (after.heap.node copy).content

/-- Once its parts are copied an object is. -/
private theorem Filled.yields {setting : Setting} {source : World} {member : ObjectId → Prop} {now : World}
    {origin : ObjectId → ObjectId} {id copy : ObjectId} {after : World}
    (filled : Filled setting source member now origin id copy after) :
    Yields setting source member now origin (.object id) (.object copy) after := by
  obtain ⟨origin', opened, imitates⟩ := filled
  have mirrors : Mirrors setting source origin' after id copy := ⟨opened.type_eq, opened.plain, imitates⟩
  exact ⟨origin', opened.cloning, opened.close mirrors, .object opened.visited⟩

/-- What was done before leaves a copy a copy. -/
private theorem Yields.since {setting : Setting} {source : World} {member : ObjectId → Prop} {now middle : World}
    {origin between : ObjectId → ObjectId} {value image : Value} {after : World}
    (yields : Yields setting source member middle between value image after)
    (cloning : Cloning source member between middle)
    (first : Advance setting source (fun _ => False) now origin middle between) :
    Yields setting source member now origin value image after := by
  obtain ⟨origin', cloning', advance, copied⟩ := yields
  exact ⟨origin', cloning', first.trans cloning advance, copied⟩

/-- Requests for copies are answered with copies, as long as there is fuel for the unvisited objects. -/
def Clones (setting : Setting) (source : World) (member : ObjectId → Prop) (fuel : Nat)
    (ask : Value → Action Value) : Prop :=
  ∀ now origin value, Cloning source member origin now → source.unvisited now < fuel →
    (∀ id, value = .object id → member id) →
    (ask value).Answers now (Yields setting source member now origin value)

section Filling

variable {setting : Setting} {source : World} {member : ObjectId → Prop} {fuel : Nat}
  {ask : Value → Action Value} {now middle : World} {origin between : ObjectId → ObjectId}
  {id copy : ObjectId}

/-- A part of an object that is being copied. -/
private theorem Opened.answers_ask (opened : Opened setting source member now origin id copy middle between)
    (cloneable : Cloneable setting source member) (asks : Clones setting source member fuel ask)
    (bound : source.unvisited now ≤ fuel) {value : Value} (part : ∀ id, value = .object id → member id) :
    (ask value).Answers middle (fun image after => ∃ origin',
      Opened setting source member now origin id copy after origin' ∧
      after.heap.node copy = middle.heap.node copy ∧ Grows middle between after origin' ∧
      Copied after value image) := by
  have held := (cloneable.copyable id opened.member_of).held
  have fewer := opened.fewer held
  apply (asks middle between value opened.cloning (by omega) part).weaken
  rintro image after ⟨origin', cloning, advance, copied⟩
  exact ⟨origin', opened.go cloning advance, advance.kept copy opened.held, advance.toGrows, copied⟩

/-- An edit of the copy that fits it. -/
private theorem Opened.answers_edit (opened : Opened setting source member now origin id copy middle between)
    (loaded : (source.heap.node id).origin.isLoaded = true) {change : Edit} (content : Content)
    (other : ∀ origin, change ≠ .setOrigin origin)
    (fits : (middle.heap.node copy).content.edited? change = some content) :
    (Action.edit copy change).Answers middle (fun _ after =>
      Opened setting source member now origin id copy after between ∧
      (after.heap.node copy).content = content ∧ Grows middle between after between) := by
  refine ⟨(), _, rfl, opened.edit loaded other _, ?_, ?_⟩
  · show ((middle.heap.edit copy change).node copy).content = _
    rw [Heap.node_edit_self opened.held, Node.content_edited fits]
  · exact ⟨(Heap.size_edit ..).symm ▸ Nat.le_refl _, fun _ _ => rfl, fun _ _ known => known⟩

/-- The copy of a container can be filled, because no two values have the same copy. -/
private theorem Cloneable.fillable (cloneable : Cloneable setting source member)
    (asks : Clones setting source member fuel ask)
    (bound : source.unvisited now ≤ fuel) (mem : member id) (other : (source.heap.node id).isBean = false)
    (origin : ObjectId → ObjectId) (copy : ObjectId) :
    Fillable ask (source.heap.node id) copy
      (fun after => ∃ origin', Opened setting source member now origin id copy after origin') where
  distinct := (cloneable.copyable id mem).distinct
  scalars := (cloneable.copyable id mem).scalars
  held := fun _ ⟨_, opened⟩ => opened.held
  injective := fun _ _ _ _ ⟨_, opened⟩ => opened.cloning.copied_injective
  asks := by
    rintro middle ⟨between, opened⟩ value listed
    have part : ∀ part, value = .object part → member part := by
      rintro part rfl
      exact cloneable.member_of_parts mem other (Node.mem_parts_of_members listed)
    apply (opened.answers_ask cloneable asks bound part).weaken
    rintro image after ⟨origin', opened, same, grows, copied⟩
    exact ⟨⟨origin', opened⟩, same, grows.visits, copied⟩
  edits := by
    rintro middle change ⟨between, opened⟩ something other
    refine ⟨between, opened.edit ?_ other _⟩
    rcases container : (source.heap.node id).isContainer with _ | _
    · exact cloneable.loaded_of_other mem container
    · obtain ⟨value, listed⟩ := List.exists_mem_of_ne_nil _ (something container)
      exact cloneable.loaded_of_parts mem (List.ne_nil_of_mem (Node.mem_parts_of_members listed))

/-- What is unloaded is left out or becomes an empty container, and what is loaded is copied. -/
private theorem Opened.answers_detachedPart
    (opened : Opened setting source member now origin id copy middle between)
    (cloneable : Cloneable setting source member) (asks : Clones setting source member fuel ask)
    (bound : source.unvisited now ≤ fuel) {value : Value}
    (part : ∀ part, value = .object part → member part ∨
      source.heap.Holds part ∧ (source.heap.node part).origin.isLoaded = false) :
    (detachedPart setting ask value).Answers middle (fun image after => ∃ origin',
      Opened setting source member now origin id copy after origin' ∧
      after.heap.node copy = middle.heap.node copy ∧ Grows middle between after origin' ∧
      PartCopied source origin' after value image) := by
  have stays : Grows middle between middle between := ⟨Nat.le_refl _, fun _ _ => rfl, fun _ _ known => known⟩
  unfold detachedPart
  split
  · next null =>
    obtain rfl := (Value.isNull_iff value).1 null
    exact answers_pure ⟨between, opened, rfl, stays, .copied (.scalar rfl)⟩
  apply answers_look_bind
  rcases loaded : value.isLoaded middle.heap with _ | _
  · rw [if_neg Bool.false_ne_true]
    cases value with
    | object lazy =>
      have held : source.heap.Holds lazy :=
        (part lazy rfl).elim (fun mem => (cloneable.copyable lazy mem).held) And.left
      have unloaded : (source.heap.node lazy).origin.isLoaded = false := by
        rwa [Value.isLoaded, opened.cloning.kept lazy held] at loaded
      apply answers_look_bind
      split
      · next container =>
        have same := opened.cloning.kept lazy held
        rw [same] at container ⊢
        rw [Bool.and_eq_true] at container
        obtain ⟨cloning, advance⟩ : _ ∧ Advance setting source (fun _ => False) middle between _ _ :=
          opened.cloning.allocate lazy
        refine ⟨_, _, rfl, _, opened.go cloning advance, advance.kept copy opened.held, advance.toGrows, ?_⟩
        refine .emptied unloaded container.1 (Function.update_self _ _ _) ?_ (Heap.holds_allocate.2 (.inr rfl))
        exact fun old => middle.heap.not_holds_fresh (opened.cloning.holds old)
      · exact answers_pure ⟨between, opened, rfl, stays, .dropped unloaded⟩
    | _ => cases loaded
  · rw [if_pos rfl]
    refine (opened.answers_ask cloneable asks bound ?_).weaken ?_
    · rintro part' rfl
      rcases part part' rfl with mem | ⟨held, unloaded⟩
      · exact mem
      · rw [Value.isLoaded, opened.cloning.kept part' held, unloaded] at loaded
        cases loaded
    · rintro image after ⟨origin', opened, same, grows, copied⟩
      exact ⟨origin', opened, same, grows, .copied copied⟩

/-- The declared properties are copied in order. -/
private theorem Opened.answers_disconnectProperties
    (opened : Opened setting source member now origin id copy middle between)
    (cloneable : Cloneable setting source member) (asks : Clones setting source member fuel ask)
    (bound : source.unvisited now ≤ fuel) {attributes : Attributes} {metadata : Metadata}
    (original : (source.heap.node id).content = .bean attributes)
    (known : source.metadata? setting id = some metadata)
    (empty : (middle.heap.node copy).content = .bean .empty) :
    (metadata.names.forM (disconnectProperty setting ask metadata id copy)).Answers middle
      (fun _ after =>
      Filled setting source member now origin id copy after) := by
  have copyable := cloneable.copyable id opened.member_of
  have bean : (source.heap.node id).isBean = true := by
    rw [Node.isBean, Node.attributes?, original]
    rfl
  have names : source.names setting id = metadata.names := by
    rw [World.names, known]
    rfl
  have parts : source.partsOf setting id = metadata.names.map (source.heap.node id).attr := by
    simp [World.partsOf, original, names]
  refine (answers_forM (fun done after => ∃ origin' values,
    Opened setting source member now origin id copy after origin' ∧
    (after.heap.node copy).content = .bean (.ofList (done.zip values)) ∧
    List.Forall₂ (PartCopied source origin' after) (done.map (source.heap.node id).attr) values)
    ⟨between, [], opened, empty, .nil⟩ ?_).weaken ?_
  · rintro done property rest split middle ⟨between, values, opened, content, copies⟩
    have listed : property ∈ metadata.names := by simp [split]
    obtain ⟨access, declared⟩ := Metadata.access?_of_mem_names listed
    obtain rfl := (copyable.fields bean metadata known).access?_eq declared
    have same := opened.cloning.kept id copyable.held
    have part : ∀ part, (source.heap.node id).attr property = .object part → member part ∨
        source.heap.Holds part ∧ (source.heap.node part).origin.isLoaded = false := by
      intro part value
      have mem : Value.object part ∈ source.partsOf setting id :=
        parts ▸ List.mem_map.2 ⟨property, listed, value⟩
      exact (cloneable.closed id opened.member_of part mem).imp_right And.right
    apply answers_readProperty_bind declared (same ▸ bean)
    rw [same]
    apply (opened.answers_detachedPart cloneable asks bound part).bind
    rintro image later ⟨origin', opened, same, grows, copied⟩
    have copies := copies.imp fun _ _ copied => PartCopied.later copied grows
    have bean : (later.heap.node copy).isBean = true := by
      rw [same, Node.isBean, Node.attributes?, content]
      rfl
    have loaded := cloneable.loaded_of_other opened.member_of (by rw [Node.isContainer, original])
    refine answers_writeProperty declared bean ((opened.answers_edit loaded
      (.bean (.ofList ((done ++ [property]).zip (values ++ [image])))) (by simp) ?_).weaken ?_)
    · have length : done.length = values.length := by rw [← copies.length_eq, List.length_map]
      rw [same, content, List.zip_append length, List.zip_cons_cons, List.zip_nil_left,
        OrderedMap.ofList_append]
      rfl
    · rintro _ after ⟨opened, content, grows⟩
      refine ⟨origin', values ++ [image], opened, content, ?_⟩
      rw [List.map_append]
      exact (List.rel_append copies (.cons copied .nil)).imp fun _ _ copied => copied.later grows
  · rintro _ after ⟨origin', values, opened, content, copies⟩
    refine ⟨origin', opened, ?_⟩
    rw [original, names, content]
    exact .bean copies

/-- Flushing only counts. -/
private theorem Opened.answers_flushFirst (opened : Opened setting source member now origin id copy middle between)
    (cloneable : Cloneable setting source member) :
    (flushFirst setting).Answers middle (fun _ after => after.heap = middle.heap ∧
      Opened setting source member now origin id copy after between) := by
  unfold flushFirst
  split
  · have sound : middle.Serves .flush :=
      cloneable.flushes.of_same (by rw [opened.cloning.store]) opened.cloning.outages
    have run : middle.store.flush = .ok { middle.store with flushes := middle.store.flushes + 1 } := by
      rw [EntityStore.flush, EntityStore.attempt, sound.faults]
      rfl
    exact ⟨(), _, changeStore_of_ok sound.outages run, rfl, opened.of_same rfl rfl rfl rfl rfl rfl⟩
  · exact answers_pure ⟨rfl, opened⟩

/-- The metadata of the object are those that it had. -/
private theorem Opened.answers_metadataOf (opened : Opened setting source member now origin id copy middle between)
    (held : source.heap.Holds id) :
    (metadataOf setting id).Answers middle (fun metadata? after =>
      metadata? = source.metadata? setting id ∧ after.heap = middle.heap ∧
      Opened setting source member now origin id copy after between) := by
  apply (Action.answers_metadataOf setting id).weaken
  rintro metadata? _ ⟨rfl, cache, schema, rfl⟩
  exact ⟨opened.cloning.metadata?_eq held, rfl, opened.of_same rfl rfl rfl schema rfl rfl⟩

/-- Objects without a handler are copied: beans property by property, and sealed objects as they are. -/
private theorem answers_disconnectObject (cloneable : Cloneable setting source member)
    (asks : Clones setting source member fuel ask) (cloning : Cloning source member origin now)
    (mem : member id) (unvisited : now.visits.get? id = none) (bound : source.unvisited now ≤ fuel)
    (unhandled : (source.heap.node id).content.handler? = none) :
    (disconnectObject setting ask id).Answers now (Yields setting source member now origin (.object id)) := by
  have copyable := cloneable.copyable id mem
  have opened : Opened setting source member now origin id _ _ _ :=
    .start cloning mem unvisited (.walked id :: now.journal)
  have target : targetOf setting id now = (.ok now.heap.fresh,
      { now with heap := now.heap.allocate (source.heap.node id).emptyLike }) := by
    show (if setting.config.cloneObjects || (now.heap.node id).origin.isProxy then
      allocate (now.heap.node id).emptyLike else pure id) now = _
    rw [cloneable.clones, Bool.true_or, if_pos rfl, cloning.kept id copyable.held]
    rfl
  refine answers_bind_of_eq target (answers_bind_of_eq rfl (answers_bind_of_eq rfl ?_))
  apply (opened.answers_flushFirst cloneable).bind
  rintro _ flushed ⟨heap, opened⟩
  apply (opened.answers_metadataOf copyable.held).bind
  rintro metadata? middle ⟨known, heap', opened⟩
  have empty : middle.heap.node now.heap.fresh = (source.heap.node id).emptyLike := by
    simp [heap', heap, Heap.node_fresh]
  have names : source.names setting id = (metadata?.map Metadata.names).getD [] := by
    simp [World.names, known]
  cases content : (source.heap.node id).content with
  | bean attributes =>
    rcases metadata? with _ | metadata
    · have filled : Filled setting source member now origin id now.heap.fresh middle := by
        refine ⟨_, opened, ?_⟩
        rw [empty, names, Node.emptyLike, content]
        show Imitates [] _ _ _ _ (.bean attributes) (.bean (.ofList (List.zip [] [])))
        exact .bean .nil
      exact answers_pure filled.yields
    · refine (opened.answers_disconnectProperties cloneable asks bound content known.symm ?_).bind ?_
      · rw [empty, Node.emptyLike, content]
        rfl
      · exact fun _ after filled => answers_pure filled.yields
  | sealed =>
    obtain rfl : metadata? = none := known.trans (copyable.undeclared content)
    have filled : Filled setting source member now origin id now.heap.fresh middle := by
      refine ⟨_, opened, ?_⟩
      rw [empty, Node.emptyLike, content]
      exact .sealed
    exact answers_pure filled.yields
  | _ =>
    rw [content] at unhandled
    cases unhandled

/-- A container is copied by the handler that its content asks for. -/
private theorem answers_rebuildValue (cloneable : Cloneable setting source member)
    (asks : Clones setting source member fuel ask) (cloning : Cloning source member origin now)
    (mem : member id) (unvisited : now.visits.get? id = none) (bound : source.unvisited now ≤ fuel)
    {handler : Handler} (handled : (source.heap.node id).content.handler? = some handler) :
    (handler.rebuildValue ask (.object id)).Answers now (Yields setting source member now origin (.object id)) := by
  have kept := cloning.kept id (cloneable.copyable id mem).held
  have fillable := cloneable.fillable asks bound mem (Node.notBean_of_handler? handled) origin now.heap.fresh
  have begun : Opened setting source member now origin id _ _ _ :=
    .start cloning mem unvisited (.walked id :: now.journal)
  rw [← kept] at fillable handled begun
  apply (fillable.answers_rebuildValue [] origin source ⟨_, begun⟩ handled).weaken
  rintro _ after ⟨rfl, ⟨origin', opened⟩, imitates⟩
  rw [kept] at handled imitates
  have container : (source.heap.node id).content.handler? ≠ none := handled ▸ Option.some_ne_none _
  exact Filled.yields ⟨origin', opened, imitates.of_handled container⟩

/-- The look-up of a handler leaves the copies as they are. -/
private theorem Cloning.answers_handlerOf (cloning : Cloning source member origin now) (value : Value) :
    (handlerOf value).Answers now (fun handler? after =>
      handler? = source.dispatch.registry.ofValue now.heap value ∧ Cloning source member origin after ∧
      after.heap = now.heap ∧ after.visits = now.visits) := by
  apply (Action.answers_handlerOf value).weaken
  rintro handler? _ ⟨rfl, dispatch, registry, rfl⟩
  exact ⟨by rw [cloning.registry], cloning.of_same rfl rfl registry rfl rfl rfl, rfl, rfl⟩

/-- A value gets the copy that it has, or a new one. -/
private theorem answers_disconnectValue (cloneable : Cloneable setting source member)
    (asks : Clones setting source member fuel ask) (cloning : Cloning source member origin now)
    (bound : source.unvisited now ≤ fuel) {value : Value} (part : ∀ id, value = .object id → member id) :
    (disconnectValue setting ask value).Answers now (Yields setting source member now origin value) := by
  have stays : ∀ image, Copied now value image → (pure image : Action Value).Answers now
      (Yields setting source member now origin value) :=
    fun image copied => answers_pure ⟨origin, cloning, .refl now origin, copied⟩
  unfold disconnectValue
  split
  · next null =>
    obtain rfl := (Value.isNull_iff value).1 null
    exact stays .null (.scalar rfl)
  apply answers_look_bind
  rcases object : value.object? with _ | id
  · -- Scalars are not visited, and the only handler that they have passes them through.
    apply (cloning.answers_handlerOf value).bind
    rintro handler? after ⟨answer, cloning, heap, visits⟩
    rw [Handler.Registry.ofValue_of_scalar _ object _ source.heap] at answer
    refine ⟨value, after, ?_, origin, cloning, .of_same heap visits, .scalar object⟩
    rcases handler? with _ | handler
    · cases value with
      | object id => cases object
      | _ => rfl
    · obtain rfl := cloneable.scalar value object handler answer.symm
      rfl
  · obtain rfl := (Value.object?_eq_some_iff value id).1 object
    have mem := part id rfl
    have copyable := cloneable.copyable id mem
    rw [Option.bind_some]
    rcases visited : now.visits.get? id with _ | target
    · apply (cloning.answers_handlerOf (.object id)).bind
      rintro handler? middle ⟨answer, cloning', heap, visits⟩
      have handler : handler? = (source.heap.node id).content.handler? := by
        rw [answer, ← copyable.handler?_eq, ← cloning.handler?_eq copyable.held, World.handler?,
          cloning.registry]
      have unvisited : middle.visits.get? id = none := by simp [visits, visited]
      have bound : source.unvisited middle ≤ fuel := by rwa [World.unvisited, visits]
      have looked : Advance setting source (fun _ => False) now origin middle origin := .of_same heap visits
      rcases handler? with _ | found
      · apply (answers_disconnectObject cloneable asks cloning' mem unvisited bound handler.symm).weaken
        exact fun image after yields => yields.since cloning' looked
      · apply (answers_rebuildValue cloneable asks cloning' mem unvisited bound handler.symm).weaken
        exact fun image after yields => yields.since cloning' looked
    · obtain ⟨-, copy, rfl, -⟩ := cloning.visited id target visited
      exact stays (.object copy) (.object visited)

end Filling

/-- A run copies any value whose parts belong to the set. -/
private theorem clones_answer {setting : Setting} {source : World} {member : ObjectId → Prop}
    (cloneable : Cloneable setting source member) (fuel : Nat) :
    Clones setting source member fuel (fun value => answer setting fuel (.disconnect value)) := by
  induction fuel with
  | zero => exact fun now origin value cloning bound => absurd bound (Nat.not_lt_zero _)
  | succ fuel ih =>
    intro now origin value cloning bound part
    have asked : Cloning source member origin
        { now with journal := .asked (.disconnect value) :: now.journal } :=
      cloning.of_same rfl rfl rfl rfl rfl rfl
    apply answers_bind_of_eq rfl
    apply (answers_disconnectValue cloneable ih asked (Nat.le_of_lt_succ bound) part).bind
    rintro image after ⟨origin', cloning', advance, copied⟩
    have begun : Advance setting source (fun _ => False) now origin
        { now with journal := .asked (.disconnect value) :: now.journal } origin := .of_same rfl rfl
    have ended : Advance setting source (fun _ => False) after origin'
        { after with journal := .answered (.disconnect value) image :: after.journal } origin' :=
      .of_same rfl rfl
    refine answers_bind_of_eq rfl (answers_pure ⟨origin', cloning'.of_same rfl rfl rfl rfl rfl rfl, ?_, ?_⟩)
    · exact begun.trans asked (advance.trans cloning' ended)
    · exact copied.later ended.toGrows

/-- A disconnect copies what can be copied together. Everything it visited is mirrored when it is done. -/
theorem Setting.exists_disconnect {setting : Setting} {world : World} {member : ObjectId → Prop} {value : Value}
    (cloneable : Cloneable setting world.rested member) (part : ∀ id, value = .object id → member id) :
    ∃ result cloned origin, setting.disconnect value world = (.ok result, cloned) ∧
      Cloning world.rested member origin cloned ∧
      (∀ id copy, cloned.visits.get? id = some (.object copy) →
        Mirrors setting world.rested origin cloned id copy) ∧
      Copied cloned value result := by
  have bound : world.rested.unvisited world.rested < world.rested.fuel setting :=
    Nat.lt_of_le_of_lt (World.unvisited_le _ _) (Nat.lt_of_succ_lt (World.size_lt_fuel setting _))
  obtain ⟨result, cloned, run, origin, cloning, advance, copied⟩ :=
    clones_answer cloneable (world.rested.fuel setting) world.rested id value (.start rfl id) bound part
  refine ⟨result, cloned, origin, run, cloning, fun id copy known => ?_, copied⟩
  exact (advance.mirrors id copy not_false rfl known).2

end Reconciler
