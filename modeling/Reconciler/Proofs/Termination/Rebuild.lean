import Reconciler.Proofs.Termination.Inside

/-! # Rebuilding containers

A container is rebuilt in the same way whether a graph is taken apart or put together, and neither uses up
credit: the new container takes the place of its source in the queue, and nothing else is edited. So a request
about a part weighs less than the container.
-/

namespace Reconciler

open Reconciler.Action

section Visits

variable {mode : Mode} {setting : Setting} {now : World} {source : ObjectId}

/-- The world after an empty object like `source` was allocated and recorded as its counterpart. -/
def World.withCopy (now : World) (source : ObjectId) : World :=
  (record source (.object now.heap.fresh) (allocate (now.heap.node source).emptyLike now).2).2

private theorem World.later_withCopy (unvisited : now.visits.get? source = none) : now.Later (now.withCopy source) := by
  have still : (allocate (now.heap.node source).emptyLike now).2.visits.get? source = none := unvisited
  exact (World.Later.allocate now _).trans (.record _ still _)

private theorem World.holds_withCopy : (now.withCopy source).heap.Holds now.heap.fresh :=
  Heap.holds_allocate.2 (.inr rfl)

private theorem World.visits_withCopy : (now.withCopy source).visits.get? source = some (.object now.heap.fresh) :=
  World.Later.visits_record _ source _

private theorem World.node_withCopy {id : ObjectId} (held : now.heap.Holds id) :
    (now.withCopy source).heap.node id = now.heap.node id :=
  Heap.node_allocate_of_holds held _

private theorem Orderly.withCopy (orderly : Orderly setting now) (held : now.heap.Holds source)
    (unvisited : now.visits.get? source = none) : Orderly setting (now.withCopy source) := by
  apply (orderly.allocate (now.heap.node source)).record unvisited
  · exact (World.Later.allocate now _).holds held
  · rintro id ⟨⟩
    show (now.withCopy source).heap.Holds now.heap.fresh
    exact World.holds_withCopy

variable (mode) in
/-- The copy brings the credit of an object that is no stand-in, and the source's is used up. -/
theorem Orderly.credit_withCopy (orderly : Orderly setting now) (held : now.heap.Holds source)
    (unvisited : now.visits.get? source = none) :
    (now.withCopy source).credit mode + now.weight mode source =
      now.credit mode + mode.weight (now.isHandled source) false := by
  have allocating := World.Later.allocate now (now.heap.node source).emptyLike
  have made := now.heap.node_fresh (now.heap.node source).emptyLike
  have fresh : (Action.allocate (now.heap.node source).emptyLike now).2.weight mode now.heap.fresh =
      mode.weight (now.isHandled source) false := by
    have origin : ((Action.allocate (now.heap.node source).emptyLike now).2.heap.node now.heap.fresh).origin = .plain :=
      congrArg Node.origin made
    rw [World.weight, World.isHandled, now.handler?_fresh source, origin]
    rfl
  have recorded := World.credit_record mode (allocating.holds held) unvisited (.object now.heap.fresh)
  have allocated := World.credit_allocate mode (now.heap.node source).emptyLike orderly.unvisited_fresh
  rw [allocating.weight_eq held] at recorded
  rw [fresh] at allocated
  show (Action.record source _ _).2.credit mode + _ = _
  omega

/-- Nothing but the copy joins the queue. -/
theorem World.queued_withCopy (unvisited : now.visits.get? source = none) {opened : List ObjectId}
    {id : ObjectId} (other : id ≠ now.heap.fresh)
    (queued : (now.withCopy source).Queued mode (now.heap.fresh :: opened) id) : now.Queued mode opened id := by
  obtain ⟨held, unvisited', counts, either⟩ := queued
  have before : now.heap.Holds id := (Heap.holds_allocate.1 held).resolve_right other
  have later := later_withCopy unvisited
  rw [later.isHandled_eq before] at counts
  rw [node_withCopy before] at either
  refine ⟨before, later.unvisited unvisited', counts, either.imp_left fun listed => ?_⟩
  exact (List.mem_cons.1 listed).resolve_left other

/-- The copy is queued in place of a source with parts. A copy that stays empty is not queued. -/
def World.keptCopy (now : World) (source : ObjectId) : List ObjectId :=
  if (now.heap.node source).parts = [] then [] else [now.heap.fresh]

private theorem World.room_withCopy (orderly : Orderly setting now) (held : now.heap.Holds source)
    (unvisited : now.visits.get? source = none) (counts : mode.counts (now.isHandled source) = true)
    (credit : mode.weight (now.isHandled source) false = now.weight mode source) (opened : List ObjectId)
    (known : ∀ id ∈ opened, now.heap.Holds id) :
    (now.withCopy source).room mode (now.keptCopy source ++ opened) ≤ now.room mode opened := by
  have total := orderly.credit_withCopy mode held unvisited
  have queue : (now.withCopy source).queue mode (now.keptCopy source ++ opened) ≤ now.queue mode opened := by
    unfold keptCopy
    split
    · next bare =>
      apply World.queue_le
      rintro id ⟨there, still, handled, either⟩
      by_cases fresh : id = now.heap.fresh
      · subst fresh
        have empty : ((now.withCopy source).heap.node now.heap.fresh).parts = [] := by
          have made : (now.withCopy source).heap.node now.heap.fresh = (now.heap.node source).emptyLike :=
            now.heap.node_fresh _
          rw [made]
          exact Node.parts_emptyLike_of_bare bare
        rcases either with listed | parts
        · exact absurd (known _ listed) now.heap.not_holds_fresh
        · exact absurd empty parts
      · exact World.queued_withCopy unvisited fresh ⟨there, still, handled, either.imp_left (List.mem_cons_of_mem _)⟩
    · next parts =>
      apply World.queue_le_of_replaced ⟨held, unvisited, counts, .inr parts⟩ _ now.heap.fresh
      · exact fun id other => World.queued_withCopy unvisited other
      · rintro ⟨-, still, -⟩
        cases World.visits_withCopy.symm.trans still
  apply World.room_le
  omega

/-- A visit with a new object as the counterpart that uses up no credit. -/
theorem Inside.copy (orderly : Orderly setting now) (held : now.heap.Holds source)
    (unvisited : now.visits.get? source = none) (counts : mode.counts (now.isHandled source) = true)
    (credit : mode.weight (now.isHandled source) false = now.weight mode source) :
    Inside mode setting now source now.heap.fresh (now.keptCopy source) (now.withCopy source) := by
  have later := World.later_withCopy unvisited
  have total := orderly.credit_withCopy mode held unvisited
  constructor
  · exact orderly
  · exact held
  · exact unvisited
  · exact orderly.withCopy held unvisited
  · exact later
  · rw [World.visits_withCopy]
    exact Option.some_ne_none _
  · exact World.holds_withCopy
  · intro id member
    unfold World.keptCopy at member
    split at member
    · cases member
    · obtain rfl := List.mem_singleton.1 member
      exact World.holds_withCopy
  · exact World.room_withCopy orderly held unvisited counts credit
  · refine .inr ⟨by omega, counts, now.heap.not_holds_fresh, fun id known => World.node_withCopy known⟩
  · exact .of_same orderly later rfl rfl

/-- A visit with a new object as the counterpart that uses up credit. -/
theorem Inside.spend_copy (orderly : Orderly setting now) (held : now.heap.Holds source)
    (unvisited : now.visits.get? source = none)
    (credit : mode.weight (now.isHandled source) false < now.weight mode source) :
    Inside mode setting now source now.heap.fresh [now.heap.fresh] (now.withCopy source) := by
  have later := World.later_withCopy unvisited
  have total := orderly.credit_withCopy mode held unvisited
  constructor
  · exact orderly
  · exact held
  · exact unvisited
  · exact orderly.withCopy held unvisited
  · exact later
  · rw [World.visits_withCopy]
    exact Option.some_ne_none _
  · exact World.holds_withCopy
  · intro id member
    obtain rfl := List.mem_singleton.1 member
    exact World.holds_withCopy
  · intro opened _
    have queue : (now.withCopy source).queue mode (now.heap.fresh :: opened) ≤ now.queue mode opened + 1 :=
      World.queue_le_succ now.heap.fresh fun id other => World.queued_withCopy unvisited other
    apply World.room_le
    rw [List.singleton_append]
    omega
  · exact .inl (by omega)
  · exact .of_same orderly later rfl rfl

/-- A visit with an object that is there as the counterpart. -/
theorem Inside.spend {target : ObjectId} (orderly : Orderly setting now) (held : now.heap.Holds source)
    (unvisited : now.visits.get? source = none) (credit : 0 < now.weight mode source)
    (there : now.heap.Holds target) :
    Inside mode setting now source target [target] (record source (.object target) now).2 := by
  have later := World.Later.record now unvisited (.object target)
  have total := World.credit_record mode held unvisited (.object target)
  constructor
  · exact orderly
  · exact held
  · exact unvisited
  · apply orderly.record unvisited held
    rintro id ⟨⟩
    exact there
  · exact later
  · rw [World.Later.visits_record]
    exact Option.some_ne_none _
  · exact there
  · intro id member
    obtain rfl := List.mem_singleton.1 member
    exact there
  · intro opened _
    have queue : (record source (.object target) now).2.queue mode (target :: opened) ≤
        now.queue mode opened + 1 := by
      apply World.queue_le_succ target
      rintro id other ⟨known, still, counts, either⟩
      refine ⟨known, later.unvisited still, counts, either.imp_left fun listed => ?_⟩
      exact (List.mem_cons.1 listed).resolve_left other
    apply World.room_le
    rw [List.singleton_append]
    omega
  · exact .inl (by omega)
  · exact .of_same orderly later rfl rfl

end Visits

section Rebuilding

variable {mode : Mode} {setting : Setting} {bound limit : Nat} {ask : Value → Action Value}
  {now : World} {source : ObjectId} {middle : World}

/-- A rebuilt container is being filled with what became of the source's parts. -/
abbrev Filling (mode : Mode) (setting : Setting) (now : World) (source : ObjectId) (middle : World) : Prop :=
  Inside mode setting now source now.heap.fresh (now.keptCopy source) middle

private theorem World.mem_keptCopy {part : Value} (listed : part ∈ (now.heap.node source).parts) :
    now.heap.fresh ∈ now.keptCopy source := by
  unfold keptCopy
  rw [if_neg (List.ne_nil_of_mem listed)]
  exact List.mem_singleton_self _

section Asking

variable (asks : Nests mode setting bound limit ask) (within : now.room mode [] ≤ bound)
  (light : now.weigh mode bound (.object source) ≤ limit)

include asks within light

private theorem Inside.ensures_part (filling : Filling mode setting now source middle) {part : Value}
    (listed : part ∈ (now.heap.node source).parts) :
    (ask part).Ensures middle (Stopped setting) (fun result after =>
      Filling mode setting now source after ∧ (∀ id, result = .object id → after.heap.Holds id) ∧
        middle.Later after) := by
  apply (filling.ensures_ask asks within light ?_ fun _ => .inr listed).weaken
  · rintro result after ⟨filling, concluded⟩
    exact ⟨filling, concluded.held, concluded.went.later⟩
  · rintro id rfl
    exact filling.later.holds (filling.begun.closed source id listed)

private theorem Inside.ensures_fillCollection (filling : Filling mode setting now source middle) :
    (fillCollection ask (now.heap.node source) now.heap.fresh).Ensures middle (Stopped setting)
      (fun _ after => Filling mode setting now source after) := by
  apply ensures_forM (fun _ => Filling mode setting now source) filling
  intro done item rest split reached filling
  have listed : item ∈ (now.heap.node source).parts := Node.mem_parts_of_items (by simp [split])
  apply (filling.ensures_part asks within light listed).bind
  rintro image after ⟨filling, held, -⟩
  refine ensures_of_ok rfl (filling.edit (by simp) ?_ (.inl (World.mem_keptCopy listed)))
  intro part carried
  exact held part (List.mem_singleton.1 carried).symm

private theorem Inside.ensures_fillMap (filling : Filling mode setting now source middle) :
    (fillMap ask (now.heap.node source) now.heap.fresh).Ensures middle (Stopped setting)
      (fun _ after => Filling mode setting now source after) := by
  apply ensures_forM (fun _ => Filling mode setting now source) filling
  rintro done ⟨key, value⟩ rest split reached filling
  obtain ⟨key_listed, value_listed⟩ :=
    Node.mem_parts_of_bindings (by simp [split] : (key, value) ∈ (now.heap.node source).bindings)
  apply (filling.ensures_part asks within light key_listed).bind
  rintro image after ⟨filling, held, -⟩
  apply (filling.ensures_part asks within light value_listed).bind
  rintro counterpart last ⟨filling, held', later⟩
  refine ensures_of_ok rfl (filling.edit (by simp) ?_ (.inl (World.mem_keptCopy key_listed)))
  intro part carried
  rcases List.mem_pair.1 carried with same | same
  · exact later.holds (held part same.symm)
  · exact held' part same.symm

private theorem Inside.ensures_fillArray (filling : Filling mode setting now source middle) :
    (fillArray ask (now.heap.node source) now.heap.fresh).Ensures middle (Stopped setting)
      (fun _ after => Filling mode setting now source after) := by
  unfold fillArray
  split
  · refine ensures_of_ok rfl (filling.edit (by simp) ?_ ?_)
    · intro part carried
      exact filling.later.holds (filling.begun.closed source part (Node.mem_parts_of_items carried))
    · rcases empty : (now.heap.node source).items with _ | ⟨item, items⟩
      · exact .inr rfl
      · exact .inl (World.mem_keptCopy (Node.mem_parts_of_items (by simp [empty] : item ∈ _)))
  · apply ensures_forM (fun _ => Filling mode setting now source) filling
    rintro done ⟨item, index⟩ rest split reached filling
    have member : (item, index) ∈ (now.heap.node source).items.zipIdx := by simp [split]
    have listed : item ∈ (now.heap.node source).parts :=
      Node.mem_parts_of_items ((List.mem_zipIdx member).2.2 ▸ List.getElem_mem _)
    apply (filling.ensures_part asks within light listed).bind
    rintro image after ⟨filling, held, -⟩
    refine ensures_of_ok rfl (filling.edit (by simp) ?_ (.inl (World.mem_keptCopy listed)))
    intro part carried
    exact held part (List.mem_singleton.1 carried).symm

end Asking

/-- An object is walked right after its first visit. -/
theorem Inside.walk {target : ObjectId} {kept : List ObjectId}
    (inside : Inside mode setting now source target kept middle) (walks : middle.walks = now.walks)
    (handled : mode = .reconciling ∨ now.isHandled source = true) :
    Inside mode setting now source target kept (note (.walked source) middle).2 := by
  have later := World.Later.note middle (.walked source)
  have new : source ∉ middle.walks := by
    rw [walks]
    exact fun listed => inside.begun.walked source listed inside.unvisited
  apply inside.of_same later rfl rfl (inside.orderly.walk inside.visited new)
  intro detaches automatic
  have flushed := inside.flushed detaches automatic
  have kept : (note (.walked source) middle).2.isHandled source = true :=
    ((inside.later.trans later).isHandled_eq inside.present).trans (handled.resolve_left detaches)
  have counted : (note (.walked source) middle).2.unhandledWalks = middle.unhandledWalks := by
    show (List.filter _ (source :: middle.walks)).length = _
    rw [List.filter_cons_of_neg (by simp [kept])]
    rfl
  rw [counted]
  exact flushed

/-- A container that was visited for the first time is rebuilt. -/
private theorem ensures_rebuild_handled {fill : Node → ObjectId → Action Unit} (orderly : Orderly setting now)
    (held : now.heap.Holds source) (unvisited : now.visits.get? source = none)
    (handled : now.isHandled source = true)
    (fills : ∀ middle, Filling mode setting now source middle →
      (fill (now.heap.node source) now.heap.fresh).Ensures middle (Stopped setting)
        (fun _ after => Filling mode setting now source after)) :
    (rebuild fill source).Ensures now (Stopped setting) (Concluded mode setting now) := by
  have counts : mode.counts (now.isHandled source) = true := by
    rw [handled]
    exact mode.counts_handled
  have credit : mode.weight (now.isHandled source) false = now.weight mode source := by
    rw [World.weight, handled]
    exact (mode.weight_handled _).symm
  have visited := (Inside.copy orderly held unvisited counts credit).walk rfl (.inr handled)
  apply ensures_look_bind
  refine ensures_bind_of_eq rfl (ensures_bind_of_eq rfl (ensures_bind_of_eq rfl ?_))
  apply (fills _ visited).bind
  intro _ after filled
  refine ensures_pure (filled.concludes ?_)
  rintro id ⟨⟩
  exact filled.held

/-- A value that has a handler is rebuilt, replaced or passed through. -/
theorem Nests.ensures_rebuildValue {handler : Handler} {value : Value}
    (asks : Nests mode setting bound limit ask) (orderly : Orderly setting now)
    (held : ∀ id, value = .object id → now.heap.Holds id)
    (unvisited : ∀ id, value = .object id → now.visits.get? id = none)
    (handled : ∀ id, value = .object id → now.isHandled id = true) (within : now.room mode [] ≤ bound)
    (light : now.weigh mode bound value ≤ limit) :
    (handler.rebuildValue ask value).Ensures now (Stopped setting) (Concluded mode setting now) := by
  have kept : Concluded mode setting now value now := .here orderly held
  unfold Handler.rebuildValue
  split
  · exact ensures_pure (.here orderly nofun)
  · next source =>
    apply ensures_rebuild_handled orderly (held source rfl) (unvisited source rfl) (handled source rfl)
    exact fun middle filling => filling.ensures_fillCollection asks within light
  · next source =>
    apply ensures_rebuild_handled orderly (held source rfl) (unvisited source rfl) (handled source rfl)
    exact fun middle filling => filling.ensures_fillMap asks within light
  · next source =>
    apply ensures_rebuild_handled orderly (held source rfl) (unvisited source rfl) (handled source rfl)
    exact fun middle filling => filling.ensures_fillArray asks within light
  · exact ensures_pure kept

end Rebuilding

end Reconciler
