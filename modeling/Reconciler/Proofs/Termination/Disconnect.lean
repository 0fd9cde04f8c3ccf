import Reconciler.Proofs.Termination.Rebuild

/-! # Taking a graph apart ends

One lemma for each function that takes a graph apart. If objects are cloned a visit uses up no credit: nothing is
ever edited but what the run has allocated, and what lies ahead only gets less. Otherwise a bean that takes its
detached values itself uses up its credit, and a stand-in uses up the credit that it has over the bean that is
allocated in its place. The empty containers that take the place of unloaded ones have no parts, and no credit.
-/

namespace Reconciler

open Reconciler.Action

/-- How a setting detaches objects. -/
def Setting.detaching (setting : Setting) : Mode :=
  if setting.config.cloneObjects then .cloning else .reusing

theorem Setting.detaching_ne (setting : Setting) : setting.detaching ≠ .reconciling := by
  unfold detaching
  split <;> nofun

/-- A container carries no credit while a graph is taken apart. -/
theorem Mode.weight_detaching {mode : Mode} (detaches : mode ≠ .reconciling) (proxy : Bool) :
    mode.weight true proxy = 0 := by
  cases mode with
  | reconciling => exact absurd rfl detaches
  | _ => rfl

private theorem Node.isContainer_emptyLike (node : Node) : node.emptyLike.isContainer = node.isContainer := by
  rcases node with ⟨type, origin, content⟩
  cases content <;> rfl

private theorem Node.parts_emptyLike_of_isContainer {node : Node} (container : node.isContainer = true) :
    node.emptyLike.parts = [] := by
  rcases node with ⟨type, origin, content⟩
  cases content with
  | collection => rfl
  | map => rfl
  | _ => cases container

section

variable {mode : Mode} {setting : Setting} {now : World}

/-- By default containers have handlers. -/
theorem Orderly.isHandled_of_isContainer (orderly : Orderly setting now) {id : ObjectId}
    (container : (now.heap.node id).isContainer = true) : now.isHandled id = true := by
  rcases known : now.handler? id with _ | handler
  · obtain ⟨schema, defaults⟩ := orderly.defaults
    rw [World.handler?, defaults] at known
    have shapeless := Handler.Registry.shape?_of_unhandled known
    rcases content : (now.heap.node id).content with _ | _ | _ | _ | _ <;>
      simp [Node.isContainer, Node.shape?, Content.shape?, content] at container shapeless
  · rw [World.isHandled, known]
    rfl

/-- An empty container can be allocated at any time. -/
theorem Concluded.spare (orderly : Orderly setting now) (detaches : mode ≠ .reconciling) {id : ObjectId}
    (container : (now.heap.node id).isContainer = true) :
    Concluded mode setting now (.object now.heap.fresh) (allocate (now.heap.node id).emptyLike now).2 := by
  have later := World.Later.allocate now (now.heap.node id).emptyLike
  have allocated := orderly.allocate (now.heap.node id)
  have made : (allocate (now.heap.node id).emptyLike now).2.heap.node now.heap.fresh =
      (now.heap.node id).emptyLike := now.heap.node_fresh _
  have credit : (allocate (now.heap.node id).emptyLike now).2.credit mode = now.credit mode := by
    have handled : (allocate (now.heap.node id).emptyLike now).2.isHandled now.heap.fresh = true := by
      apply allocated.isHandled_of_isContainer
      rw [made]
      exact (Node.isContainer_emptyLike _).trans container
    rw [World.credit_allocate mode _ orderly.unvisited_fresh, World.weight, handled, mode.weight_detaching detaches]
    exact Nat.add_zero _
  have frozen : ∀ other, now.heap.Holds other →
      (allocate (now.heap.node id).emptyLike now).2.heap.node other = now.heap.node other :=
    fun other held => Heap.node_allocate_of_holds held _
  constructor
  · exact allocated
  · constructor
    · exact later
    · exact credit.le
    · intro opened known
      have queue : (allocate (now.heap.node id).emptyLike now).2.queue mode opened ≤ now.queue mode opened := by
        apply World.queue_le
        rintro other ⟨held, unvisited, counts, either⟩
        rcases Heap.holds_allocate.1 held with before | rfl
        · rw [later.isHandled_eq before] at counts
          rw [frozen other before] at either
          exact ⟨before, unvisited, counts, either⟩
        · rcases either with listed | parts
          · exact absurd (known _ listed) now.heap.not_holds_fresh
          · rw [made] at parts
            exact absurd (Node.parts_emptyLike_of_isContainer container) parts
      apply World.room_le
      omega
    · exact fun _ => frozen
  · rintro _ ⟨⟩
    exact Heap.holds_allocate.2 (.inr rfl)
  · exact .of_same orderly later rfl rfl

end

namespace Inside

variable {mode : Mode} {setting : Setting} {bound limit : Nat} {ask : Value → Action Value}
  {now : World} {source target : ObjectId} {middle : World}

/-- What is read of an object later was a part of it before, as long as no credit was used up. -/
theorem listed_before {kept : List ObjectId} (inside : Inside mode setting now source target kept middle)
    {part : Value} (listed : part.object? = none ∨ part ∈ (middle.heap.node source).parts)
    (same : middle.credit mode = now.credit mode) :
    part.object? = none ∨ part ∈ (now.heap.node source).parts := by
  rcases inside.progress with used | ⟨-, -, -, frozen⟩
  · omega
  · rwa [frozen source inside.present] at listed

/-- What takes the place of a property value can be found. -/
private theorem ensures_detachedPart {kept : List ObjectId} (inside : Inside mode setting now source target kept middle)
    (detaches : mode ≠ .reconciling) (asks : Nests mode setting bound limit ask)
    (within : now.room mode [] ≤ bound) (light : now.weigh mode bound (.object source) ≤ limit) {part : Value}
    (listed : part.object? = none ∨ part ∈ (middle.heap.node source).parts) :
    (detachedPart setting ask part).Ensures middle (Stopped setting) (fun result after =>
      Inside mode setting now source target kept after ∧ ∀ id, result = .object id → after.heap.Holds id) := by
  have held : ∀ id, part = .object id → middle.heap.Holds id := by
    rintro id rfl
    exact inside.orderly.closed source id (listed.resolve_left nofun)
  unfold detachedPart
  split
  · exact ensures_pure ⟨inside, nofun⟩
  apply ensures_look_bind
  split
  · apply (inside.ensures_ask asks within light held (inside.listed_before listed)).weaken
    rintro result after ⟨inside, concluded⟩
    exact ⟨inside, concluded.held⟩
  unfold unloadedPart
  split
  · next id _ _ =>
    apply ensures_look_bind
    split
    · next spare =>
      have concluded := Concluded.spare inside.orderly detaches (Bool.and_eq_true_iff.1 spare).1
      exact ensures_bind_of_eq rfl (ensures_pure ⟨inside.go concluded, concluded.held⟩)
    · exact ensures_pure ⟨inside, nofun⟩
  · exact ensures_pure ⟨inside, nofun⟩

/-- One property is detached. -/
private theorem ensures_disconnectProperty (inside : Inside mode setting now source target [target] middle)
    (detaches : mode ≠ .reconciling) (asks : Nests mode setting bound limit ask)
    (within : now.room mode [] ≤ bound) (light : now.weigh mode bound (.object source) ≤ limit)
    {metadata : Metadata} (transparent : metadata.Transparent) (property : String) :
    (disconnectProperty setting ask metadata source target property).Ensures middle (Stopped setting)
      (fun _ after => Inside mode setting now source target [target] after) := by
  apply (ensures_readProperty fun _ => ⟨nofun, inside.orderly⟩).bind
  rintro value _ ⟨rfl, found⟩
  apply (inside.ensures_detachedPart detaches asks within light (transparent.read found)).bind
  rintro detached after ⟨inside, held⟩
  apply ensures_writeProperty fun _ => ⟨nofun, inside.orderly⟩
  intro change made
  have written : Inside mode setting now source target [target] (Action.edit target change after).2 := by
    refine inside.edit made.ne_setOrigin ?_ (.inl (List.mem_singleton_self _))
    intro part carried
    rcases transparent.write made _ carried with plain | same | before
    · cases plain
    · exact held part same.symm
    · exact inside.orderly.closed target part before
  exact ⟨fun _ => ⟨nofun, written.orderly⟩, fun _ => written⟩

/-- The store is flushed for an object that is walked without a handler. -/
private theorem ensures_flushFirst {kept : List ObjectId} (inside : Inside mode setting now source target kept middle)
    (walks : middle.walks = now.walks) (unhandled : now.isHandled source = false) :
    (flushFirst setting).Ensures (note (.walked source) middle).2 (Stopped setting)
      (fun _ after => Inside mode setting now source target kept after) := by
  have noting := World.Later.note middle (.walked source)
  have new : source ∉ middle.walks := by
    rw [walks]
    exact fun listed => inside.begun.walked source listed inside.unvisited
  have walked := inside.orderly.walk inside.visited new
  unfold flushFirst
  split
  · apply ensures_changeStore fun _ _ spent => ⟨nofun, walked.called spent⟩
    intro store outages spent flush
    have flushed := EntityStore.flush_eq flush
    have flushing := World.Later.stored (note (.walked source) middle).2 (.flush flush) spent
    have stored : store.stored ⊆ middle.store.stored := by
      rw [flushed]
      exact List.Subset.refl _
    apply inside.of_same (noting.trans flushing) rfl rfl (walked.of_same flushing rfl rfl stored rfl)
    intro detaches automatic
    have before := inside.flushed detaches automatic
    have still : (note (.walked source) middle).2.isHandled source = false :=
      ((inside.later.trans noting).isHandled_eq inside.present).trans unhandled
    have counted : (note (.walked source) middle).2.unhandledWalks = middle.unhandledWalks + 1 := by
      show (List.filter _ (source :: middle.walks)).length = _
      rw [List.filter_cons_of_pos (by simp [still])]
      rfl
    have flushes : store.flushes = middle.store.flushes + 1 := congrArg EntityStore.flushes flushed
    show store.flushes + _ = _ + (note (.walked source) middle).2.unhandledWalks
    omega
  · next manual =>
    exact ensures_pure (inside.of_same noting rfl rfl walked fun _ automatic => absurd automatic manual)

end Inside

section Detaching

variable {setting : Setting} {bound limit : Nat} {ask : Value → Action Value}
  (asks : Nests setting.detaching setting bound limit ask) {now : World}

include asks

/-- All properties of an object without a handler are detached. -/
private theorem Inside.ensures_disconnectProperties {source target : ObjectId} {middle : World}
    (inside : Inside setting.detaching setting now source target [target] middle)
    (within : now.room setting.detaching [] ≤ bound)
    (light : now.weigh setting.detaching bound (.object source) ≤ limit) :
    (metadataOf setting source >>= fun metadata? =>
      match metadata? with
      | none => pure (.object target)
      | some metadata => do
        metadata.names.forM (disconnectProperty setting ask metadata source target)
        return .object target).Ensures middle (Stopped setting) (Concluded setting.detaching setting now) := by
  apply (Answers.ensures (answers_metadataOf setting source)).bind
  rintro metadata? _ ⟨known, cache, same, rfl⟩
  have looked : Concluded setting.detaching setting middle .null { middle with cache } :=
    .of_same inside.orderly (.cache middle same) rfl rfl rfl rfl nofun
  have done : ∀ {after}, Inside setting.detaching setting now source target [target] after →
      Concluded setting.detaching setting now (.object target) after := by
    intro after inside
    apply inside.concludes
    rintro id ⟨⟩
    exact inside.held
  rcases metadata? with _ | metadata
  · exact ensures_pure (done (inside.go looked))
  · have transparent := inside.orderly.transparent.metadata? known.symm
    refine Ensures.bind (ensures_forM (fun _ => Inside setting.detaching setting now source target [target])
      (inside.go looked) ?_) ?_
    · intro _ property _ _ reached inside
      exact inside.ensures_disconnectProperty setting.detaching_ne asks within light transparent property
    · exact fun _ after inside => ensures_pure (done inside)

omit asks in
/-- An object that is not detached in place is detached into a new one. -/
theorem Orderly.inside_withCopy {source : ObjectId} (orderly : Orderly setting now) (held : now.heap.Holds source)
    (unvisited : now.visits.get? source = none) (unhandled : now.isHandled source = false)
    (copies : (setting.config.cloneObjects || (now.heap.node source).origin.isProxy) = true) :
    Inside setting.detaching setting now source now.heap.fresh [now.heap.fresh] (now.withCopy source) := by
  rcases clones : setting.config.cloneObjects with _ | _
  · have proxy : (now.heap.node source).origin.isProxy = true := by
      rwa [clones, Bool.false_or] at copies
    have reuses : setting.detaching = .reusing := by
      rw [Setting.detaching, clones]
      rfl
    apply Inside.spend_copy orderly held unvisited
    rw [World.weight, unhandled, proxy, reuses]
    decide
  · have copying : setting.detaching = .cloning := by
      rw [Setting.detaching, clones]
      rfl
    rw [copying]
    have inside : Inside .cloning setting now source _ _ _ := .copy orderly held unvisited rfl rfl
    have present := inside.held
    refine { inside with there := ?_, room_le := fun _ _ => Nat.le_refl 0 }
    intro id member
    obtain rfl := List.mem_singleton.1 member
    exact present

omit asks in
/-- Detaching an object in place costs the credit that it came with. -/
theorem Orderly.inside_reused {source : ObjectId} (orderly : Orderly setting now) (held : now.heap.Holds source)
    (unvisited : now.visits.get? source = none) (unhandled : now.isHandled source = false)
    (reused : (setting.config.cloneObjects || (now.heap.node source).origin.isProxy) = false) :
    Inside setting.detaching setting now source source [source] (Action.record source (.object source) now).2 := by
  obtain ⟨clones, real⟩ := Bool.or_eq_false_iff.1 reused
  have reuses : setting.detaching = .reusing := by
    rw [Setting.detaching, clones]
    rfl
  apply Inside.spend orderly held unvisited _ held
  rw [World.weight, unhandled, real, reuses]
  decide

/-- An object without a handler is detached into a new one or in place. -/
private theorem Nests.ensures_disconnectObject {source : ObjectId} (orderly : Orderly setting now)
    (held : now.heap.Holds source) (unvisited : now.visits.get? source = none)
    (unhandled : now.isHandled source = false) (within : now.room setting.detaching [] ≤ bound)
    (light : now.weigh setting.detaching bound (.object source) ≤ limit) :
    (disconnectObject setting ask source).Ensures now (Stopped setting)
      (Concluded setting.detaching setting now) := by
  have rest : ∀ {target middle}, Inside setting.detaching setting now source target [target] middle →
      middle.walks = now.walks →
      (do
        note (.walked source)
        flushFirst setting
        match ← metadataOf setting source with
        | none => return .object target
        | some metadata =>
          metadata.names.forM (disconnectProperty setting ask metadata source target)
          return .object target : Action Value).Ensures middle (Stopped setting)
        (Concluded setting.detaching setting now) := by
    intro target middle inside walks
    refine ensures_bind_of_eq rfl ?_
    apply (inside.ensures_flushFirst walks unhandled).bind
    intro _ after inside
    exact inside.ensures_disconnectProperties asks within light
  unfold disconnectObject
  rcases copies : (setting.config.cloneObjects || (now.heap.node source).origin.isProxy) with _ | _
  · have target : targetOf setting source now = (.ok source, now) := by
      simp only [targetOf, nodeOf, bind_apply, look, copies, Bool.false_eq_true, if_false, pure_apply]
    have inside := orderly.inside_reused held unvisited unhandled copies
    exact ensures_bind_of_eq target (ensures_bind_of_eq rfl (rest inside rfl))
  · have target : targetOf setting source now = allocate (now.heap.node source).emptyLike now := by
      simp only [targetOf, nodeOf, bind_apply, look, copies, if_true]
    have inside := orderly.inside_withCopy held unvisited unhandled copies
    exact ensures_bind_of_eq target (ensures_bind_of_eq rfl (rest inside rfl))

private theorem Nests.ensures_disconnectValue {value : Value} (orderly : Orderly setting now)
    (held : ∀ id, value = .object id → now.heap.Holds id) (within : now.room setting.detaching [] ≤ bound)
    (light : now.weigh setting.detaching bound value ≤ limit) :
    (disconnectValue setting ask value).Ensures now (Stopped setting)
      (Concluded setting.detaching setting now) := by
  unfold disconnectValue
  split
  · exact ensures_pure (.here orderly fun _ same => by cases same)
  apply ensures_look_bind
  rcases visited : value.object?.bind now.visits.get? with _ | counterpart
  · apply (Answers.ensures (answers_handlerOf value)).bind
    rintro handler? _ ⟨known, dispatch, same, rfl⟩
    have later := World.Later.dispatch now same
    have looked : Concluded setting.detaching setting now .null { now with dispatch } :=
      .of_same orderly later rfl rfl rfl rfl fun _ same => by cases same
    have unvisited : ∀ id, value = .object id → now.visits.get? id = none := by
      rintro id rfl
      exact visited
    have within' := (looked.went.room_le [] fun _ listed => absurd listed List.not_mem_nil).trans within
    have light' := (World.weigh_le_of_same later orderly.closed rfl rfl held).trans light
    have handled : ∀ id, value = .object id → ({ now with dispatch } : World).isHandled id = handler?.isSome := by
      rintro id rfl
      rw [known, World.isHandled, World.handler?, same]
    suffices rest : Ensures _ { now with dispatch } (Stopped setting)
        (Concluded setting.detaching setting { now with dispatch }) from
      rest.weaken fun _ _ concluded => concluded.since looked.went looked.flushed
    rcases handler? with _ | handler
    · cases value with
      | object source =>
        exact asks.ensures_disconnectObject looked.orderly (held source rfl) (unvisited source rfl)
          (handled source rfl) within' light'
      | _ => exact ensures_pure (.here looked.orderly fun _ same => by cases same)
    · exact asks.ensures_rebuildValue looked.orderly held unvisited handled within' light'
  · obtain ⟨id, -, known⟩ := Option.bind_eq_some_iff.1 visited
    exact ensures_pure (.here orderly (orderly.counterpart id counterpart known).2)

end Detaching

/-- Fuel is enough if it exceeds the weight of the request. -/
theorem nests_disconnect (setting : Setting) (bound fuel : Nat) :
    Nests setting.detaching setting bound fuel (fun value => answer setting fuel (.disconnect value)) := by
  induction fuel with
  | zero => exact fun _ _ _ _ _ light => absurd light (Nat.not_lt_zero _)
  | succ fuel ih =>
    intro now value orderly held within light
    have asking := World.Later.note now (.asked (.disconnect value))
    have asked : Concluded setting.detaching setting now .null (note (.asked (.disconnect value)) now).2 :=
      .of_same orderly asking rfl rfl rfl rfl nofun
    refine ensures_bind_of_eq rfl ?_
    apply (ih.ensures_disconnectValue asked.orderly held ((asked.went.room_le [] nofun).trans within)
      ((World.weigh_le_of_same asking orderly.closed rfl rfl held).trans (Nat.le_of_lt_succ light))).bind
    intro result after concluded
    refine ensures_bind_of_eq rfl (ensures_pure ?_)
    have answering := World.Later.note after (.answered (.disconnect value) result)
    have answered : Concluded setting.detaching setting after result
        (note (.answered (.disconnect value) result) after).2 :=
      .of_same concluded.orderly answering rfl rfl rfl rfl concluded.held
    exact (answered.since concluded.went concluded.flushed).since asked.went asked.flushed

end Reconciler
