import Reconciler.Proofs.Course
import Reconciler.Proofs.Ensures
import Reconciler.Proofs.Parts

/-! # The account of a reconciliation

`Course` says what a run may do to the objects that it meets. An `Account` of the run also says how it met them: which
part of which object a request is about, whose counterpart was looked for, and where every value that is
written comes from. What holds of the values on either side is shown case by case from that. A container that is
refilled gives up what it has lost in the same step, so an account only stops in between if the store fails.
-/

namespace Reconciler

open Reconciler.Action

/-- What a container holds: slots or elements, or keys and values. -/
def Node.members (node : Node) : List Value :=
  node.items ++ node.bindings.flatMap (fun entry => [entry.1, entry.2])

namespace Node

theorem mem_members_of_items {node : Node} {item : Value} (listed : item ∈ node.items) : item ∈ node.members :=
  List.mem_append_left _ listed

theorem mem_members_of_bindings {node : Node} {entry : Value × Value} (listed : entry ∈ node.bindings) :
    entry.1 ∈ node.members ∧ entry.2 ∈ node.members :=
  ⟨List.mem_append_right _ (mem_flatMap_of_mem listed (.inl rfl)),
    List.mem_append_right _ (mem_flatMap_of_mem listed (.inr rfl))⟩

theorem mem_parts_of_members {node : Node} {value : Value} (member : value ∈ node.members) :
    value ∈ node.parts := by
  rcases List.mem_append.1 member with item | bound
  · exact mem_parts_of_items item
  · obtain ⟨entry, listed, either⟩ := mem_entries bound
    rcases either with rfl | rfl
    · exact (mem_parts_of_bindings listed).1
    · exact (mem_parts_of_bindings listed).2

/-- Only containers hold anything as a container does. -/
theorem members_of_shapeless {node : Node} (shapeless : node.shape? = none) : node.members = [] := by
  rcases node with ⟨type, origin, content⟩
  cases content with
  | array | collection | map => cases shapeless
  | bean | sealed => rfl

end Node

/-- What a handler matches against when it brings a container up to date. -/
def Handler.candidates (handler : Handler) (node : Node) : List Value :=
  match handler with
  | .map => node.bindings.flatMap (fun entry => [entry.1, entry.2])
  | _ => node.items

/-- Allocating an empty object leaves the one that it is like as it is, even if that was never allocated. -/
theorem Heap.node_allocate_emptyLike (heap : Heap) (id : ObjectId) :
    (heap.allocate (heap.node id).emptyLike).node id = heap.node id := by
  by_cases held : heap.Holds id
  · exact node_allocate_of_holds held _
  · have absent := node_of_not_holds held
    rw [absent]
    by_cases new : id = heap.fresh
    · rw [new, node_fresh]
      rfl
    · rw [node_allocate, if_neg new]
      exact absent

/-- What changes while a container gives up leftovers: entities among them that were not kept are noted
and then leave the store. -/
structure Sheds (container : ObjectId) (kept leftovers : List Value) (now after : World) : Prop where
  heap : after.heap = now.heap
  visits : after.visits = now.visits
  later : now.Later after
  events : ∃ events, after.journal = events ++ now.journal ∧ ∀ event ∈ events,
    ∃ entity, event = .discarded container entity ∧ .object entity ∈ leftovers ∧ .object entity ∉ kept
  stored_subset : after.store.stored ⊆ now.store.stored
  discarded : ∀ id ∈ now.store.stored,
    id ∈ after.store.stored ∨ .discarded container id ∈ after.journal

namespace Sheds

variable {container : ObjectId} {kept leftovers : List Value} {now middle after : World}

private theorem refl (now : World) : Sheds container kept leftovers now now where
  heap := rfl
  visits := rfl
  later := .refl now
  events := ⟨[], rfl, nofun⟩
  stored_subset := List.Subset.refl _
  discarded _ member := .inl member

theorem noted (sheds : Sheds container kept leftovers now after) : ∀ event ∈ after.journal, event ∈ now.journal ∨
    ∃ entity, event = .discarded container entity ∧ .object entity ∈ leftovers ∧ .object entity ∉ kept := by
  obtain ⟨events, same, given⟩ := sheds.events
  intro event member
  rw [same] at member
  exact (List.mem_append.1 member).symm.imp_right (given event)

private theorem trans (first : Sheds container kept leftovers now middle)
    (second : Sheds container kept leftovers middle after) : Sheds container kept leftovers now after where
  heap := second.heap.trans first.heap
  visits := second.visits.trans first.visits
  later := first.later.trans second.later
  events := by
    obtain ⟨earlier, before, given⟩ := first.events
    obtain ⟨events, same, others⟩ := second.events
    refine ⟨events ++ earlier, ?_, List.forall_mem_append.2 ⟨others, given⟩⟩
    rw [same, before, List.append_assoc]
  stored_subset := List.Subset.trans second.stored_subset first.stored_subset
  discarded id member := by
    rcases first.discarded id member with still | noted
    · exact second.discarded id still
    · exact .inr (second.later.journal.subset noted)

private theorem note {entity : ObjectId} (listed : .object entity ∈ leftovers) (lost : .object entity ∉ kept)
    (now : World) :
    Sheds container kept leftovers now (Action.note (.discarded container entity) now).2 where
  heap := rfl
  visits := rfl
  later := .note now (.discarded container entity)
  events := ⟨[.discarded container entity], rfl, List.forall_mem_singleton.2 ⟨entity, rfl, listed, lost⟩⟩
  stored_subset := List.Subset.refl _
  discarded _ member := .inl member

private theorem remove {entity : ObjectId} {store : EntityStore} (noted : .discarded container entity ∈ now.journal)
    (removal : now.store.remove now.heap entity = .ok store) :
    Sheds container kept leftovers now { now with store } := by
  obtain rfl := EntityStore.remove_eq removal
  constructor
  · rfl
  · rfl
  · exact .stored now ⟨rfl, rfl⟩ (.refl _)
  · exact ⟨[], rfl, nofun⟩
  · exact List.filter_sublist.subset
  · intro id member
    by_cases same : id = entity
    · exact .inr (same ▸ noted)
    · exact .inl (List.mem_filter.2 ⟨member, decide_eq_true same⟩)

private theorem called (now : World) {outages : Outages} (spent : now.outages.Spends outages) :
    Sheds container kept leftovers now { now with outages } where
  heap := rfl
  visits := rfl
  later := .called now spent
  events := ⟨[], rfl, nofun⟩
  stored_subset := List.Subset.refl _
  discarded _ member := .inl member

end Sheds

/-- Leftovers are given up, or the store fails; no entity is looked for. -/
theorem ensures_discardLeftovers_sheds {setting : Setting} (container : ObjectId) (kept leftovers : List Value)
    (now : World) : (discardLeftovers setting container kept leftovers).Ensures now
      (fun ending after => Sheds container kept leftovers now after ∧
        ∀ type identifier, ending ≠ .failed (.entityNotFound type identifier))
      (fun _ after => Sheds container kept leftovers now after) := by
  unfold discardLeftovers
  split
  · apply ensures_forM (fun _ => Sheds container kept leftovers now) (.refl now)
    intro done leftover rest split middle shed
    have listed : leftover ∈ leftovers := split ▸ List.mem_append_right _ List.mem_cons_self
    unfold discardUnless
    split
    · next entity =>
      apply ensures_look_bind
      split
      · next lost =>
        have unkept : Value.object entity ∉ kept := by
          simpa using (Bool.and_eq_true_iff.1 lost).1
        have noted := shed.trans (.note listed unkept middle)
        refine ensures_bind_of_eq rfl (ensures_changeStore ?_ ?_)
        · exact fun _ _ spent => ⟨noted.trans (.called _ spent), fun _ _ => nofun⟩
        · intro store outages spent removal
          exact (noted.trans (.remove List.mem_cons_self removal)).trans (.called _ spent)
      · exact ensures_pure shed
    · exact ensures_pure shed
  · exact ensures_pure (.refl now)

/-- Whether all leftovers are given up or the store fails on the way. -/
theorem sheds_of_discardLeftovers {setting : Setting} {container : ObjectId} {kept leftovers : List Value}
    {now after : World} {outcome : Except Ending Unit}
    (run : discardLeftovers setting container kept leftovers now = (outcome, after)) :
    Sheds container kept leftovers now after := by
  cases outcome with
  | ok => exact (ensures_discardLeftovers_sheds container kept leftovers now).answered _ _ run
  | error => exact ((ensures_discardLeftovers_sheds container kept leftovers now).ended _ _ run).1

/-- A run stays on its course while leftovers are given up. -/
private theorem Course.ensures_discardLeftovers {setting : Setting} {start now : World}
    (course : Course setting start now)
    (container : ObjectId) (kept leftovers : List Value) :
    (discardLeftovers setting container kept leftovers).Ensures now (fun _ after => Course setting start after)
      (fun _ after => Course setting start after) := by
  unfold discardLeftovers
  split
  · next enabled =>
    apply ensures_forM (fun _ => Course setting start) course
    intro done leftover rest split middle course
    unfold discardUnless
    split
    · next entity =>
      apply ensures_look_bind
      split
      · next lost =>
        have noted := course.discarding container entity (Bool.and_eq_true_iff.1 lost).2 enabled
        refine ensures_bind_of_eq rfl (ensures_changeStore ?_ ?_)
        · exact fun _ _ spent => noted.called spent
        · exact fun _ _ spent removal => (noted.removed removal).called spent
      · exact ensures_pure course
    · exact ensures_pure course
  · exact ensures_pure course

/-- Metadata that a run can use. -/
def World.Uses (setting : Setting) (start : World) (metadata : Metadata) : Prop :=
  ∃ begun target type, start.Later begun ∧ metadata = (begun.metadata? setting target).getD { type }

/-- What a request is answered with. Null stands for nothing, and nothing is reconciled with it. -/
def World.Yields (now : World) (result : Value) : Request → Prop
  | .disconnect _ => False
  | .apply detached => if detached = .null then result = .null else Resolved now detached result
  | .applyTo detached authoritative =>
      if detached = .null ∨ authoritative = .null then result = authoritative
      else Resolved now detached result

theorem World.Yields.resolved {now : World} {result : Value} {request : Request} (yields : now.Yields result request) :
    ∀ detached, request.reconciled? = some detached → detached ≠ .null → Resolved now detached result := by
  intro detached found present
  cases request with
  | disconnect value => exact yields.elim
  | apply value =>
    obtain rfl := Option.some.inj found
    rwa [Yields, if_neg present] at yields
  | applyTo value authoritative =>
    simp only [Request.reconciled?, Option.ite_none_left_eq_some, Option.some.injEq] at found
    obtain ⟨known, rfl⟩ := found
    rwa [Yields, if_neg (not_or.2 ⟨present, mt (Value.isNull_iff _).2 known⟩)] at yields

namespace Account

/-- Why a run makes a request: it was asked for from outside, it is about parts of an object whose counterpart
was recorded, or the counterpart of an entity was looked up. -/
inductive Seeks (setting : Setting) (root : Request) (start begun now : World) : Request → Prop
  | root : Seeks setting root start begun now root
  | part {source : ObjectId} {counterpart value : Value}
      (recorded : begun.visits.get? source = some counterpart)
      (carried : value ∈ (begun.heap.node source).members) :
      Seeks setting root start begun now (.apply value)
  | matched {source target : ObjectId} {value counterpart : Value}
      (recorded : begun.visits.get? source = some (.object target))
      (carried : value ∈ (begun.heap.node source).members)
      (present : counterpart ∈ (begun.heap.node target).members) :
      Seeks setting root start begun now (.applyTo value counterpart)
  | property {source target : ObjectId} {entity : Entity} {metadata : Metadata} {property : String}
      {value current : Value} (recorded : begun.visits.get? source = some (.object target))
      (managed : begun.store.entity? (begun.heap.node target).type = some entity)
      (uses : start.Uses setting metadata)
      (carried : Property.read begun.heap metadata source property = .ok value)
      (present : Property.read begun.heap metadata target property = .ok current) :
      Seeks setting root start begun now (.reconcile value current)
  | found {source target : ObjectId} {identifier : Value}
      (asked : .asked (.apply (.object source)) ∈ now.journal)
      (stored : now.store.find now.heap (now.heap.node source).type identifier = .ok (some target)) :
      Seeks setting root start begun now (.applyTo (.object source) (.object target))

/-- Why an object has a counterpart: it came with the request, or the object stands for itself, or it is
rebuilt as a new one. -/
inductive Pairs (start now : World) (source : ObjectId) : Value → Prop
  | given {counterpart : Value} (asked : .asked (.applyTo (.object source) counterpart) ∈ now.journal) :
      Pairs start now source counterpart
  | itself (asked : .asked (.apply (.object source)) ∈ now.journal)
      (unhandled : now.handler? source = none)
      (unmanaged : now.store.entity? (now.heap.node source).type = none) :
      Pairs start now source (.object source)
  | rebuilt {copy : ObjectId} (asked : .asked (.apply (.object source)) ∈ now.journal)
      (new : ¬ start.heap.Holds copy) (held : now.heap.Holds copy) : Pairs start now source (.object copy)

/-- Where a value comes from that is put into a container: it is null, the answer to a request, or one of
the scalars that an array holds. -/
inductive Supplies (begun now : World) (source : ObjectId) : Value → Prop
  | null : Supplies begun now source .null
  | answer {request : Request} {value : Value} (answered : .answered request value ∈ now.journal) :
      Supplies begun now source value
  | scalar {value : Value} (plain : (begun.heap.node source).hasScalarSlots = true)
      (slot : value ∈ (begun.heap.node source).items) : Supplies begun now source value

end Account

open Account in
/-- The worlds that a run passes through that starts in `start` with the request `root`. -/
inductive Account (setting : Setting) (root : Request) (start : World) : World → Prop
  | start : Account setting root start start
  | asked {begun now : World} (first : Account setting root start begun)
      (account : Account setting root start now) (started : begun.Later now) {request : Request}
      (sought : Seeks setting root start begun now request) :
      Account setting root start (note (.asked request) now).2
  | answered {now : World} (account : Account setting root start now) {request : Request} {result : Value}
      (asked : .asked request ∈ now.journal) (yields : now.Yields result request) :
      Account setting root start (note (.answered request result) now).2
  | walked {now : World} (account : Account setting root start now) (source : ObjectId) :
      Account setting root start (note (.walked source) now).2
  | dispatched {now : World} (account : Account setting root start now) {dispatch : Handler.Dispatch}
      (same : dispatch.registry = now.dispatch.registry) : Account setting root start { now with dispatch }
  | cached {now : World} (account : Account setting root start now) {cache : MetadataCache}
      (same : cache.schema = now.cache.schema) : Account setting root start { now with cache }
  | called {now : World} (account : Account setting root start now) {outages : Outages}
      (spent : now.outages.Spends outages) : Account setting root start { now with outages }
  | recorded {now : World} (account : Account setting root start now) {source : ObjectId}
      (unvisited : now.visits.get? source = none) {counterpart : Value}
      (paired : Pairs start now source counterpart) :
      Account setting root start (record source counterpart now).2
  | allocated {now : World} (account : Account setting root start now) {source : ObjectId}
      (handled : now.handler? source ≠ none) :
      Account setting root start (allocate (now.heap.node source).emptyLike now).2
  | filled {begun now : World} (first : Account setting root start begun)
      (account : Account setting root start now) (started : begun.Later now) {source copy : ObjectId}
      (recorded : begun.visits.get? source = some (.object copy)) (new : ¬ start.heap.Holds copy)
      {handler : Handler} {change : Edit} (fills : handler.Fills change)
      (supplied : ∀ value ∈ change.values, Supplies begun now source value) :
      Account setting root start (edit copy change now).2
  | slotted {begun now : World} (first : Account setting root start begun)
      (account : Account setting root start now) (started : begun.Later now) {source target : ObjectId}
      (recorded : begun.visits.get? source = some (.object target))
      (handled : begun.handler? source = some .array) (index : Nat) {value : Value}
      (supplied : Supplies begun now source value) :
      Account setting root start (edit target (.setSlot index value) now).2
  | refilled {begun now after : World} (first : Account setting root start begun)
      (account : Account setting root start now) (started : begun.Later now) {source target : ObjectId}
      (recorded : begun.visits.get? source = some (.object target)) {handler : Handler}
      (handled : begun.handler? source = some handler) (whole : handler ≠ .array)
      (loaded : begun.isUnloadedContainer target = false) {change : Edit}
      (refills : handler.Refills change)
      (supplied : ∀ value ∈ change.values, ∃ request, .answered request value ∈ now.journal)
      {leftovers : List Value} (drawn : leftovers ⊆ handler.candidates (begun.heap.node target))
      (lost : discardLeftovers setting target change.values leftovers now = (.ok (), after)) :
      Account setting root start (edit target change after).2
  | written {begun earlier now : World} (first : Account setting root start begun)
      (second : Account setting root start earlier) (account : Account setting root start now)
      (started : begun.Later earlier) (read : earlier.Later now) {source target : ObjectId} {entity : Entity}
      {metadata : Metadata} {property : String} {value current merged : Value} {change : Edit}
      (merging : Merging setting begun source target entity metadata)
      (taking : Taking setting earlier now source target entity metadata property value current merged)
      (changed : merged ≠ current)
      (made : Property.Edits now.heap metadata target property merged change) :
      Account setting root start (edit target change now).2

/-- How a run fails: an entity was not found, the store failed while a container gave up what it had lost, or
something else went wrong. -/
inductive Account.Fails (setting : Setting) (root : Request) (start : World) : Ending → World → Prop
  | missing {last : World} (account : Account setting root start last) {type : TypeName} {identifier : Value}
      (absent : last.store.find last.heap type identifier = .ok none) :
      Fails setting root start (.failed (.entityNotFound type identifier)) last
  | interrupted {last after : World} (account : Account setting root start last) {ending : Ending}
      (other : ∀ type identifier, ending ≠ .failed (.entityNotFound type identifier))
      {container : ObjectId} {kept leftovers : List Value}
      (lost : discardLeftovers setting container kept leftovers last = (.error ending, after)) :
      Fails setting root start ending after
  | stopped {last : World} (account : Account setting root start last) {ending : Ending}
      (other : ∀ type identifier, ending ≠ .failed (.entityNotFound type identifier)) :
      Fails setting root start ending last

namespace Account

variable {setting : Setting} {root : Request} {start now : World}

/-- What a run does according to its account is what a run may do. -/
theorem course (account : Account setting root start now) : Course setting start now := by
  induction account with
  | start => exact .start
  | asked first account started sought _ ih => exact ih.asked _
  | answered account asked yields ih => exact ih.answered yields.resolved
  | walked account source ih => exact ih.walked source
  | dispatched account same ih => exact ih.dispatched same
  | cached account same ih => exact ih.cached same
  | called account spent ih => exact ih.called spent
  | recorded account unvisited paired ih => exact ih.recorded unvisited _
  | allocated account handled ih => exact ih.allocated handled
  | filled first account started recorded new fills supplied _ ih => exact ih.filled new fills
  | slotted first account started recorded handled index supplied first_ih ih =>
    exact .refilled first_ih ih started recorded handled (absurd rfl) (.slot index _)
  | @refilled begun now after first account started source target recorded handler handled whole loaded
      change refills supplied leftovers drawn lost first_ih ih =>
    have discarding := (ih.ensures_discardLeftovers target change.values leftovers).answered _ _ lost
    have shed := sheds_of_discardLeftovers lost
    exact .refilled first_ih discarding (started.trans shed.later) recorded handled (fun _ => loaded) refills
  | written first second account started read merging taking changed made first_ih second_ih ih =>
    exact .written first_ih second_ih ih started read merging taking changed made

theorem later (account : Account setting root start now) : start.Later now :=
  account.course.later

/-- A run that fails does so on its course. -/
theorem Fails.course {ending : Ending} (fails : Fails setting root start ending now) : Course setting start now := by
  cases fails with
  | missing account absent => exact account.course
  | @interrupted last after account ending other container kept leftovers lost =>
    exact (account.course.ensures_discardLeftovers container kept leftovers).ended _ _ lost
  | stopped account other => exact account.course

end Account

end Reconciler
