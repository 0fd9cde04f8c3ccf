import Reconciler.Proofs.Episode.Passage

/-! # What a passage leaves alone, and how it refills a container

An object changes in a passage only if the passage recorded it as the counterpart of another one. So the treatment
of a container that is the counterpart of one object alone has the last word about its content, and the entities
that it gives up on the way are all that are given up on its behalf.
-/

namespace Reconciler

open Reconciler.Action

/-- The entity that was removed from the store because the container had lost it. -/
def Event.discarded? (container : ObjectId) : Event → Option ObjectId
  | .discarded holder entity => if holder = container then some entity else none
  | _ => none

/-- The entities that were removed from the store because the container had lost them, the last one first. -/
def World.gone (world : World) (container : ObjectId) : List ObjectId :=
  world.journal.filterMap (Event.discarded? container)

/-- The entities among the leftovers of a container that were not kept, if these are to be removed. -/
def World.lost (setting : Setting) (world : World) (kept leftovers : List Value) : List ObjectId :=
  if setting.config.deleteRemoved then
    (leftovers.filterMap Value.object?).filter (fun id =>
      !kept.contains (.object id) && world.store.manages (world.heap.node id).type)
  else []

/-- An object is as it was, and nothing was given up on its behalf. -/
structure World.Spares (now after : World) (id : ObjectId) : Prop where
  node_eq : after.heap.node id = now.heap.node id
  gone_eq : after.gone id = now.gone id

namespace World.Spares

variable {now middle after : World} {id : ObjectId}

private theorem refl (now : World) (id : ObjectId) : now.Spares now id :=
  ⟨rfl, rfl⟩

private theorem trans (first : now.Spares middle id) (second : middle.Spares after id) : now.Spares after id :=
  ⟨second.node_eq.trans first.node_eq, second.gone_eq.trans first.gone_eq⟩

/-- An edit of another object. -/
theorem edit (first : now.Spares middle id) {target : ObjectId} (other : id ≠ target) (change : Edit) :
    now.Spares (Action.edit target change middle).2 id :=
  ⟨(Heap.node_edit_of_ne _ other _).trans first.node_eq, first.gone_eq⟩

private theorem allocate (now : World) (held : now.heap.Holds id) (node : Node) :
    now.Spares (Action.allocate node now).2 id :=
  ⟨Heap.node_allocate_of_holds held node, rfl⟩

/-- What a new object takes the place of is left alone. -/
theorem rebuilding (now : World) (held : now.heap.Holds id) (source : ObjectId) :
    now.Spares (now.rebuilding source) id :=
  ⟨Heap.node_allocate_of_holds held _, rfl⟩

end World.Spares

/-- The container has given up some entities, in this order, and nobody else has given up anything. -/
structure GivesUp (container : ObjectId) (given : List ObjectId) (now after : World) : Prop where
  heap : after.heap = now.heap
  entities : after.store.entities = now.store.entities
  gone_eq : after.gone container = given.reverse ++ now.gone container
  others : ∀ other, other ≠ container → after.gone other = now.gone other

namespace GivesUp

variable {setting : Setting} {container : ObjectId} {given : List ObjectId} {kept : List Value}
  {now middle after : World}

private theorem refl (now : World) : GivesUp container [] now now :=
  ⟨rfl, rfl, rfl, fun _ _ => rfl⟩

/-- One entity more is given up, as far as the journal says. -/
theorem note (gives : GivesUp container given now middle) (entity : ObjectId) :
    GivesUp container (given ++ [entity]) now (Action.note (.discarded container entity) middle).2 where
  heap := gives.heap
  entities := gives.entities
  gone_eq := by
    rw [World.gone, Action.note, change, List.filterMap_cons, Event.discarded?, if_pos rfl, List.reverse_append]
    exact congrArg (entity :: ·) gives.gone_eq
  others other different := by
    rw [World.gone, Action.note, change, List.filterMap_cons, Event.discarded?, if_neg (Ne.symm different)]
    exact gives.others other different

/-- A leftover is given up if it is an entity that was not kept. -/
private theorem ensures_discardUnless (gives : GivesUp container given now middle) (leftover : Value) :
    (discardUnless container kept leftover).Ensures middle
      (fun _ after => ∃ more, GivesUp container more now after)
      (fun _ after => GivesUp container (given ++ leftover.object?.toList.filter (fun id =>
        !kept.contains (.object id) && now.store.manages (now.heap.node id).type)) now after) := by
  unfold discardUnless
  split
  · next entity =>
    have managed : middle.store.manages (middle.heap.node entity).type =
        now.store.manages (now.heap.node entity).type := by
      rw [EntityStore.manages, EntityStore.entity?, gives.entities, gives.heap]
      rfl
    apply ensures_look_bind
    simp only [managed, Value.object?, Option.toList_some, List.filter_cons, List.filter_nil]
    split
    · have noted := gives.note entity
      refine ensures_bind_of_eq rfl
        (ensures_changeStore (fun _ _ _ => ⟨_, { noted with }⟩) fun store outages _ removal => ?_)
      exact ⟨noted.heap, (EntityStore.Kept.remove removal).entities.trans noted.entities, noted.gone_eq, noted.others⟩
    · rw [List.append_nil]
      exact ensures_pure gives
  · next other =>
    have scalar : leftover.object? = none := by
      cases leftover with
      | object id => exact absurd rfl (other id)
      | _ => rfl
    rw [scalar, Option.toList_none, List.filter_nil, List.append_nil]
    exact ensures_pure gives

end GivesUp

/-- All entities among the leftovers are given up that were not kept, or the store fails on the way. -/
private theorem ensures_discardLeftovers_givesUp {setting : Setting} (container : ObjectId)
    (kept leftovers : List Value)
    (now : World) : (discardLeftovers setting container kept leftovers).Ensures now
      (fun _ after => ∃ given, GivesUp container given now after)
      (fun _ after => GivesUp container (now.lost setting kept leftovers) now after) := by
  unfold discardLeftovers World.lost
  split
  · apply ensures_forM (fun done after => GivesUp container ((done.filterMap Value.object?).filter (fun id =>
      !kept.contains (.object id) && now.store.manages (now.heap.node id).type)) now after) (.refl now)
    intro done leftover rest split middle gives
    have last : [leftover].filterMap Value.object? = leftover.object?.toList := by
      cases leftover <;> rfl
    rw [List.filterMap_append, List.filter_append, last]
    exact gives.ensures_discardUnless leftover
  · exact ensures_pure (.refl now)

namespace Passage

variable {setting : Setting} {scope : Request → Prop} {stage : Stage} {now middle after : World}
  {source target id : ObjectId}

/-- An object is spared by a passage that records it as nobody's counterpart, unless the passage is treating a
container and the object is what that one will be refilled onto. -/
theorem spares (passage : Passage setting scope stage now after) (held : now.heap.Holds id)
    (alone : ∀ other, now.visits.get? other = none → after.visits.get? other = some (.object id) →
      stage = .busy other (.object id) ∧ now.handler? other ∈ [some .collection, some .map]) :
    now.Spares after id := by
  -- A treated object has its counterpart from this passage, so that is spared only by way of the exception.
  induction passage with
  | still now => exact .refl now id
  | asked | answered | walked | stored | dispatched | cached | standing | pairing => exact ⟨rfl, rfl⟩
  | allocated now container => exact .allocate now held _
  | @followed stage now middle after first second one two =>
    have before : now.Spares middle id := one held fun other unvisited known =>
      alone other unvisited (second.later.visits _ _ known)
    refine before.trans (two (first.later.holds held) fun other unvisited known => ?_)
    obtain ⟨rfl, -⟩ := alone other (first.later.unvisited unvisited) known
    exact absurd (first.recorded.2.symm.trans unvisited) nofun
  | rebuilding now unvisited => exact .rebuilding now held _
  | copied now unvisited plain =>
    have other : id ≠ now.heap.fresh := by
      rintro rfl
      exact now.heap.not_holds_fresh held
    exact (World.Spares.rebuilding now held _).edit other _
  | @filled source copy now middle treated new handler change fills partly ih =>
    have other : id ≠ copy := by
      rintro rfl
      exact new held
    exact (ih held alone).edit other _
  | @slotted source target now middle treated handled index value ih =>
    refine (ih held alone).edit ?_ _
    rintro rfl
    have exempt := (alone source treated.recorded.1 treated.recorded.2).2
    simp [handled] at exempt
  | @written source target now middle treated unhandled metadata property value change made ih =>
    refine (ih held alone).edit ?_ _
    rintro rfl
    have exempt := (alone source treated.recorded.1 treated.recorded.2).2
    simp [unhandled] at exempt
  | closed treated kept ih => exact ih held fun other unvisited known => absurd (alone other unvisited known).1 nofun
  | @refilled source target now middle after treated requested handler handled whole loaded change refills trades
      leftovers elements images made drawn lost ih =>
    have gives := (ensures_discardLeftovers_givesUp target change.values leftovers middle).answered _ _ lost
    have shed := sheds_of_discardLeftovers lost
    have visits : (edit target change after).2.visits = middle.visits := shed.visits
    have other : id ≠ target := by
      rintro rfl
      exact absurd (alone source treated.recorded.1 (visits ▸ treated.recorded.2)).1 nofun
    have before : now.Spares middle id := ih held fun other unvisited known =>
      absurd (alone other unvisited (visits ▸ known)).1 nofun
    exact (before.trans ⟨by rw [gives.heap], gives.others id other⟩).edit other change
  | @interrupted source target now middle after treated kept leftovers ending lost ih =>
    obtain ⟨given, gives⟩ := (ensures_discardLeftovers_givesUp target kept leftovers middle).ended _ _ lost
    have shed := sheds_of_discardLeftovers lost
    have other : id ≠ target := by
      rintro rfl
      exact absurd (alone source treated.recorded.1 (shed.visits ▸ treated.recorded.2)).1 nofun
    have before : now.Spares middle id := ih held fun other unvisited known =>
      absurd (alone other unvisited (shed.visits ▸ known)).1 nofun
    exact before.trans ⟨by rw [gives.heap], gives.others id other⟩
  | stopped first ih => exact ih held fun other unvisited known => absurd (alone other unvisited known).1 nofun
  | @failed stage now middle after first second one two =>
    have before : now.Spares middle id := one held fun other unvisited known =>
      absurd (alone other unvisited (second.later.visits _ _ known)).1 nofun
    refine before.trans (two (first.later.holds held) fun other unvisited known => ?_)
    exact absurd (alone other (first.later.unvisited unvisited) known).1 nofun

/-- An object that is nobody's new counterpart is spared. -/
theorem spares_of_unpaired (passage : Passage setting scope stage now after) (held : now.heap.Holds id)
    (unpaired : ∀ other, now.visits.get? other = none → after.visits.get? other ≠ some (.object id)) :
    now.Spares after id :=
  passage.spares held fun other unvisited known => absurd known (unpaired other unvisited)

end Passage

/-- In between an object got another one as its counterpart, which is nobody else's. Nobody got the object itself. -/
structure World.SolePair (now after : World) (source target : ObjectId) : Prop where
  held : now.heap.Holds source
  present : now.heap.Holds target
  unvisited : now.visits.get? source = none
  recorded : after.visits.get? source = some (.object target)
  sole : ∀ other, now.visits.get? other = none → after.visits.get? other = some (.object target) → other = source
  unpaired : ∀ other, now.visits.get? other = none → after.visits.get? other ≠ some (.object source)

/-- A pair is the only one of its kind if the log of the visits has no other entry that ends at either object. -/
theorem World.SolePair.of_log {now after : World} {source target : ObjectId} {log : List (ObjectId × Value)}
    (visits : after.visits.log = log) (held : now.heap.Holds source) (present : now.heap.Holds target)
    (unvisited : now.visits.get? source = none) (recorded : after.visits.get? source = some (.object target))
    (sole : ∀ entry ∈ log, entry.2 = .object target → entry.1 = source)
    (unpaired : ∀ entry ∈ log, entry.2 ≠ .object source) : now.SolePair after source target where
  held := held
  present := present
  unvisited := unvisited
  recorded := recorded
  sole _ _ known := sole _ (visits ▸ Visits.mem_log_of_get? known) rfl
  unpaired _ _ known := unpaired _ (visits ▸ Visits.mem_log_of_get? known) rfl

/-- A container was brought up to date with another one: which trades were made, what was left over, and what
became of the container. -/
structure World.Refills (setting : Setting) (now after : World) (source target : ObjectId) (handler : Handler)
    (change : Edit) (trades : List Trade) (leftovers : List Value) : Prop where
  refills : handler.Refills change
  elements : trades.map Trade.element = handler.candidates (now.heap.node source)
  images : trades.map Trade.image = change.values
  made : ∀ trade ∈ trades, trade.Made after
  drawn : (trades.filterMap Trade.counterpart? ++ leftovers).Perm (handler.candidates (now.heap.node target))
  node_eq : after.heap.node target = (now.heap.node target).edited change
  gone_eq : (∀ id, .object id ∈ handler.candidates (now.heap.node target) → now.heap.Holds id) →
    after.gone target = (now.lost setting change.values leftovers).reverse ++ now.gone target

/-- What is lost is told by the types of the leftovers. -/
theorem World.Later.lost_eq {now after : World} (later : now.Later after) {leftovers : List Value}
    (held : ∀ id, .object id ∈ leftovers → now.heap.Holds id) (setting : Setting) (kept : List Value) :
    after.lost setting kept leftovers = now.lost setting kept leftovers := by
  unfold World.lost
  split
  · refine List.filter_congr fun id member => ?_
    obtain ⟨value, listed, same⟩ := List.mem_filterMap.1 member
    obtain rfl := (Value.object?_eq_some_iff _ _).1 same
    rw [EntityStore.manages, later.entity?_eq (held id listed), EntityStore.manages]
  · rfl

namespace World

variable {setting : Setting} {now middle after : World} {source target : ObjectId} {handler : Handler}
  {change : Edit} {trades : List Trade} {leftovers : List Value}

/-- Nothing that happens later takes back what was done. -/
theorem Refills.later (refills : Refills setting now middle source target handler change trades leftovers)
    (later : middle.Later after) (spares : middle.Spares after target) :
    Refills setting now after source target handler change trades leftovers :=
  { refills with
    made := fun trade member => (refills.made trade member).later later
    node_eq := spares.node_eq.trans refills.node_eq
    gone_eq := fun held => spares.gone_eq.trans (refills.gone_eq held) }

/-- Nothing that happened earlier makes a difference. -/
theorem Refills.earlier (refills : Refills setting middle after source target handler change trades leftovers)
    (later : now.Later middle) (carried : now.Spares middle source) (spares : now.Spares middle target) :
    Refills setting now after source target handler change trades leftovers where
  refills := refills.refills
  elements := carried.node_eq ▸ refills.elements
  images := refills.images
  made := refills.made
  drawn := spares.node_eq ▸ refills.drawn
  node_eq := spares.node_eq ▸ refills.node_eq
  gone_eq held := by
    have drawn := refills.drawn
    rw [spares.node_eq] at drawn
    have left : ∀ id, .object id ∈ leftovers → now.heap.Holds id := fun id member =>
      held id (drawn.subset (List.mem_append_right _ member))
    have present : ∀ id, .object id ∈ handler.candidates (middle.heap.node target) → middle.heap.Holds id :=
      fun id member => later.holds (held id (spares.node_eq ▸ member))
    rw [refills.gone_eq present, later.lost_eq left, spares.gone_eq]

namespace SolePair

variable (pair : now.SolePair after source target)

include pair

/-- The counterpart was recorded in the second part. -/
theorem second (before : now.Later middle) (unvisited : middle.visits.get? source = none) :
    middle.SolePair after source target where
  held := before.holds pair.held
  present := before.holds pair.present
  unvisited := unvisited
  recorded := pair.recorded
  sole other new known := pair.sole other (before.unvisited new) known
  unpaired other new := pair.unpaired other (before.unvisited new)

/-- The counterpart was recorded in the first part. -/
theorem first (later : middle.Later after) {counterpart : Value}
    (known : middle.visits.get? source = some counterpart) : now.SolePair middle source target where
  held := pair.held
  present := pair.present
  unvisited := pair.unvisited
  recorded := by
    have same := (later.visits _ _ known).symm.trans pair.recorded
    rw [known, Option.some.inj same]
  sole other new known := pair.sole other new (later.visits _ _ known)
  unpaired other new known := pair.unpaired other new (later.visits _ _ known)

private theorem of_visits (same : after.visits = middle.visits) : now.SolePair middle source target :=
  { pair with
    recorded := same ▸ pair.recorded
    sole := same ▸ pair.sole
    unpaired := same ▸ pair.unpaired }

/-- The pair is recorded in between. -/
theorem visits_ne (same : after.visits = now.visits) : False := by
  have known := (congrArg (·.get? source) same).symm.trans pair.recorded
  exact Option.some_ne_none _ (known.symm.trans pair.unvisited)

/-- If one counterpart only is recorded in between, it is that of the pair. -/
theorem eq_of_record {other : ObjectId} {counterpart : Value}
    (same : after.visits = now.visits.record other counterpart) : other = source ∧ counterpart = .object target := by
  have known := pair.recorded
  rw [same, Visits.get?_record] at known
  split at known
  · next here => exact ⟨here, Option.some.inj known⟩
  · exact absurd (pair.unvisited.symm.trans known) (Option.some_ne_none _).symm

end SolePair

end World

namespace Passage

variable {setting : Setting} {scope : Request → Prop} {stage : Stage} {now middle after : World}
  {source target : ObjectId} {handler : Handler}

/-- Both objects are as they were until the one is visited. -/
theorem spares_of_second (first : Passage setting scope stage now middle) (later : middle.Later after)
    (pair : now.SolePair after source target) (unvisited : middle.visits.get? source = none) :
    now.Spares middle source ∧ now.Spares middle target := by
  refine ⟨first.spares_of_unpaired pair.held ?_, first.spares_of_unpaired pair.present ?_⟩
  · exact fun other new known => pair.unpaired other new (later.visits _ _ known)
  · intro other new known
    obtain rfl := pair.sole other new (later.visits _ _ known)
    exact absurd (known.symm.trans unvisited) nofun

/-- The counterpart is as it was since the one was visited. -/
theorem spares_of_first (second : Passage setting scope .done middle after) (before : now.Later middle)
    (pair : now.SolePair after source target) {counterpart : Value}
    (known : middle.visits.get? source = some counterpart) : middle.Spares after target := by
  refine second.spares_of_unpaired (before.holds pair.present) fun other new recorded => ?_
  obtain rfl := pair.sole other (before.unvisited new) recorded
  exact absurd (known.symm.trans new) nofun

/-- While a container is treated it stays as it is. -/
theorem spares_of_busy (treated : Passage setting scope (.busy source (.object target)) now after)
    (pair : now.SolePair after source target) (handled : now.handler? source = some handler)
    (container : handler ∈ [.collection, .map]) : now.Spares after target := by
  refine treated.spares pair.present fun other new known => ?_
  obtain rfl := pair.sole other new known
  exact ⟨rfl, by simpa [handled] using container⟩

/-- The treatment of any other object is that of another counterpart. -/
theorem ne_of_busy {other written : ObjectId}
    (treated : Passage setting scope (.busy other (.object written)) now after)
    (pair : now.SolePair after source target) (different : other ≠ source) : target ≠ written := by
  rintro rfl
  exact different (pair.sole other treated.recorded.1 treated.recorded.2)

/-- The treatment of a container ends with its refill. -/
theorem refills_of_busy (treated : Passage setting scope (.busy source (.object target)) now middle)
    (pair : now.SolePair middle source target) (handled : now.handler? source = some handler)
    (container : handler ∈ [.collection, .map]) {change : Edit} (refills : handler.Refills change)
    {trades : List Trade} {leftovers : List Value}
    (elements : trades.map Trade.element = handler.candidates (now.heap.node source))
    (images : trades.map Trade.image = change.values) (made : ∀ trade ∈ trades, trade.Made middle)
    (drawn : (trades.filterMap Trade.counterpart? ++ leftovers).Perm (handler.candidates (now.heap.node target)))
    (lost : discardLeftovers setting target change.values leftovers middle = (.ok (), after)) :
    World.Refills setting now (edit target change after).2 source target handler change trades leftovers := by
  have shed := sheds_of_discardLeftovers lost
  have gives := (ensures_discardLeftovers_givesUp target change.values leftovers middle).answered _ _ lost
  have spares := treated.spares_of_busy pair handled container
  have present : after.heap.Holds target := gives.heap ▸ treated.later.holds pair.present
  refine ⟨refills, elements, images, fun trade member => ?_, drawn, ?_, fun held => ?_⟩
  · exact ((made trade member).later shed.later).later (.edit _ _ refills.ne_setOrigin)
  · refine (Heap.node_edit_self present change).trans ?_
    rw [gives.heap, spares.node_eq]
  · refine gives.gone_eq.trans ?_
    rw [spares.gone_eq, treated.later.lost_eq]
    exact fun id member => held id (drawn.subset (List.mem_append_right _ member))

/-- A container that is the counterpart of one object alone is refilled with what came of the parts of that object,
and keeps what it is refilled with. -/
theorem refills (passage : Passage setting scope stage now after) (unbroken : stage ≠ .broken)
    (pair : now.SolePair after source target) (idle : ∀ counterpart, stage ≠ .busy source counterpart)
    (handled : now.handler? source = some handler) (container : handler ∈ [.collection, .map])
    (loaded : now.isUnloadedContainer target = false) :
    ∃ change trades leftovers, World.Refills setting now after source target handler change trades leftovers := by
  -- The counterpart is recorded when the treatment of the object begins, and the treatment ends in the same passage.
  induction passage with
  | still | asked | answered | walked | stored | dispatched | cached | allocated => exact (pair.visits_ne rfl).elim
  | @followed stage now middle after first second one two =>
    rcases known : middle.visits.get? source with _ | counterpart
    · obtain ⟨carried, spares⟩ := first.spares_of_second second.later pair known
      have handled := (first.later.handler?_eq pair.held).trans handled
      have loaded : middle.isUnloadedContainer target = false := by
        rw [← loaded, World.isUnloadedContainer, World.isUnloadedContainer]
        simp only [Value.isManagedContainer, Value.isLoaded, spares.node_eq]
      obtain ⟨change, trades, leftovers, refills⟩ :=
        two Stage.done_ne_broken (pair.second first.later known) (Stage.done_ne_busy _) handled loaded
      exact ⟨change, trades, leftovers, refills.earlier first.later carried spares⟩
    · obtain ⟨change, trades, leftovers, refills⟩ := one unbroken (pair.first second.later known) idle handled loaded
      exact ⟨change, trades, leftovers,
        refills.later second.later (second.spares_of_first first.later pair known)⟩
  | rebuilding | standing | pairing => exact absurd (congrArg (Stage.busy · _) (pair.eq_of_record rfl).1) (idle _)
  | copied now unvisited plain =>
    have same := (pair.eq_of_record rfl).2
    exact absurd (Value.object.inj same ▸ pair.present) now.heap.not_holds_fresh
  | @filled _ copy now middle treated new handler change fills partly ih =>
    have other : target ≠ copy := by
      rintro rfl
      exact new pair.present
    obtain ⟨change, trades, leftovers, refills⟩ :=
      ih (Stage.busy_ne_broken _ _) (pair.of_visits rfl) idle handled loaded
    exact ⟨change, trades, leftovers,
      refills.later (.edit _ _ fills.ne_setOrigin) ((World.Spares.refl middle target).edit other _)⟩
  | @slotted other written now middle treated _ index value ih =>
    have before : now.SolePair middle source target := pair.of_visits rfl
    have apart := treated.ne_of_busy before fun same => idle _ (congrArg (Stage.busy · _) same)
    obtain ⟨change, trades, leftovers, refills⟩ := ih (Stage.busy_ne_broken _ _) before idle handled loaded
    exact ⟨change, trades, leftovers,
      refills.later (.edit _ _ (Edit.setSlot_ne_setOrigin index value))
        ((World.Spares.refl middle target).edit apart _)⟩
  | @written other written now middle treated unhandled metadata property value change made ih =>
    have before : now.SolePair middle source target := pair.of_visits rfl
    have apart := treated.ne_of_busy before fun same => idle _ (congrArg (Stage.busy · _) same)
    obtain ⟨_, trades, leftovers, refills⟩ := ih (Stage.busy_ne_broken _ _) before idle handled loaded
    exact ⟨_, trades, leftovers, refills.later (.edit _ _ made.ne_setOrigin)
      ((World.Spares.refl middle target).edit apart _)⟩
  | @closed other counterpart now after treated kept ih =>
    by_cases same : other = source
    · subst same
      obtain rfl := Option.some.inj (treated.recorded.2.symm.trans pair.recorded)
      have unloaded := kept target rfl pair.present (by simpa [handled] using container)
      exact Bool.noConfusion (unloaded.symm.trans loaded)
    · exact ih (Stage.busy_ne_broken _ _) pair (fun _ busy => same (Stage.busy.inj busy).1) handled loaded
  | @refilled other written now middle after treated requested handler' handled' whole loaded' change refills trades
      leftovers elements images made drawn lost ih =>
    have shed := sheds_of_discardLeftovers lost
    have gives := (ensures_discardLeftovers_givesUp written change.values leftovers middle).answered _ _ lost
    have before : now.SolePair middle source target := pair.of_visits shed.visits
    by_cases same : other = source
    · subst same
      obtain rfl := Value.object.inj (Option.some.inj (treated.recorded.2.symm.trans before.recorded))
      obtain rfl := Option.some.inj (handled'.symm.trans handled)
      exact ⟨change, trades, leftovers,
        treated.refills_of_busy before handled container refills elements images made drawn lost⟩
    · have apart := treated.ne_of_busy before same
      obtain ⟨change', trades', leftovers', refills'⟩ :=
        ih (Stage.busy_ne_broken _ _) before (fun _ busy => same (Stage.busy.inj busy).1) handled loaded
      have spares : middle.Spares after target := ⟨by rw [gives.heap], gives.others target apart⟩
      exact ⟨change', trades', leftovers',
        refills'.later (shed.later.trans (.edit _ _ refills.ne_setOrigin)) (spares.edit apart _)⟩
  | interrupted | stopped | failed => exact absurd rfl unbroken

end Passage

end Reconciler
