import Reconciler.Proofs.Account

/-! # The passages of a run

A `Course` strings the changes of a run together and forgets which call made them. A `Passage` keeps the calls
apart: it leads from the world in which a part of a run begins to the world that it leaves, and one object at a
time is being treated in between, with a counterpart that the part itself recorded. So what only the treatment of
an object can change is the same at both ends of every passage that does not treat one.
-/

namespace Reconciler

open Reconciler.Action

/-- An element of a container that was brought up to date: what it was matched with, and what came of it. -/
structure Trade where
  element : Value
  counterpart? : Option Value
  image : Value
deriving DecidableEq, Repr, Inhabited

/-- The trade was made by a request of the run. -/
def Trade.Made (trade : Trade) (now : World) : Prop :=
  .answered (.matched trade.element trade.counterpart?) trade.image ∈ now.journal

theorem Trade.Made.later {trade : Trade} {now after : World} (made : trade.Made now) (later : now.Later after) :
    trade.Made after :=
  later.journal.subset made

/-- The world in which an object is walked that has a new one like it as its counterpart. -/
def World.rebuilding (world : World) (source : ObjectId) : World :=
  (note (.walked source) (record source (.object world.heap.fresh)
    (allocate (world.heap.node source).emptyLike world).2).2).2

theorem Edit.setSlot_ne_setOrigin (index : Nat) (value : Value) (origin : Origin) :
    Edit.setSlot index value ≠ .setOrigin origin :=
  nofun

/-- How far a part of a run has come: to its end, into the treatment of an object, or into a failure. -/
inductive Stage where
  | done
  | busy (source : ObjectId) (counterpart : Value)
  | broken
deriving DecidableEq, Repr

namespace Stage

theorem done_ne_broken : Stage.done ≠ .broken :=
  nofun

theorem done_ne_busy (source : ObjectId) (counterpart : Value) : Stage.done ≠ .busy source counterpart :=
  nofun

theorem busy_ne_broken (source : ObjectId) (counterpart : Value) : Stage.busy source counterpart ≠ .broken :=
  nofun

end Stage

/-- A part of a run that makes no other requests than those in `scope`, from the world in which it begins. -/
inductive Passage (setting : Setting) (scope : Request → Prop) : Stage → World → World → Prop
  | still (now : World) : Passage setting scope .done now now
  | asked (now : World) {request : Request} (within : scope request) :
      Passage setting scope .done now (note (.asked request) now).2
  | answered (now : World) (request : Request) (result : Value) :
      Passage setting scope .done now (note (.answered request result) now).2
  | walked (now : World) {source : ObjectId} {counterpart : Value}
      (recorded : now.visits.get? source = some counterpart) :
      Passage setting scope .done now (note (.walked source) now).2
  | stored (now : World) {store : EntityStore} {outages : Outages} (kept : now.store.Kept store)
      (spent : now.outages.Spends outages) :
      Passage setting scope .done now { now with store, outages }
  | dispatched (now : World) {dispatch : Handler.Dispatch}
      (same : dispatch.registry = now.dispatch.registry) : Passage setting scope .done now { now with dispatch }
  | cached (now : World) {cache : MetadataCache} (same : cache.schema = now.cache.schema) :
      Passage setting scope .done now { now with cache }
  | allocated (now : World) {id : ObjectId} (container : (now.heap.node id).isContainer = true) :
      Passage setting scope .done now (allocate (now.heap.node id).emptyLike now).2
  /-- Another part of the run is over, and this one goes on. -/
  | followed {stage : Stage} {now middle after : World} (first : Passage setting scope stage now middle)
      (second : Passage setting scope .done middle after) : Passage setting scope stage now after
  | rebuilding (now : World) {source : ObjectId} (unvisited : now.visits.get? source = none) :
      Passage setting scope (.busy source (.object now.heap.fresh)) now (now.rebuilding source)
  /-- An array of scalars is copied as it is. -/
  | copied (now : World) {source : ObjectId} (unvisited : now.visits.get? source = none)
      (plain : (now.heap.node source).hasScalarSlots = true) :
      Passage setting scope .done now
        (edit now.heap.fresh (.setItems (now.heap.node source).items) (now.rebuilding source)).2
  | standing (now : World) {source : ObjectId} (unvisited : now.visits.get? source = none)
      (unhandled : now.handler? source = none) :
      Passage setting scope (.busy source (.object source)) now (record source (.object source) now).2
  | pairing (now : World) {source : ObjectId} {counterpart : Value} {earlier : List Event}
      (unvisited : now.visits.get? source = none)
      (requested : now.journal = .asked (.applyTo (.object source) counterpart) :: earlier) :
      Passage setting scope (.busy source counterpart) now (record source counterpart now).2
  | filled {source copy : ObjectId} {now middle : World}
      (treated : Passage setting scope (.busy source (.object copy)) now middle) (new : ¬ now.heap.Holds copy)
      {handler : Handler} {change : Edit} (fills : handler.Fills change)
      (partly : ∀ values, change ≠ .setItems values) :
      Passage setting scope (.busy source (.object copy)) now (edit copy change middle).2
  | slotted {source target : ObjectId} {now middle : World}
      (treated : Passage setting scope (.busy source (.object target)) now middle)
      (handled : now.handler? source = some .array) (index : Nat) (value : Value) :
      Passage setting scope (.busy source (.object target)) now (edit target (.setSlot index value) middle).2
  | written {source target : ObjectId} {now middle : World}
      (treated : Passage setting scope (.busy source (.object target)) now middle)
      (unhandled : now.handler? source = none) {metadata : Metadata} {property : String} {value : Value}
      {change : Edit} (made : Property.Edits middle.heap metadata target property value change) :
      Passage setting scope (.busy source (.object target)) now (edit target change middle).2
  /-- The treatment is over, and it was not one that refills a container that had been there. -/
  | closed {source : ObjectId} {counterpart : Value} {now after : World}
      (treated : Passage setting scope (.busy source counterpart) now after)
      (kept : ∀ target, counterpart = .object target → now.heap.Holds target →
        now.handler? source ∈ [some .collection, some .map] → now.isUnloadedContainer target = true) :
      Passage setting scope .done now after
  /-- The treatment is over with a container that trades what it holds, gives up what it has lost, and is
  refilled. -/
  | refilled {source target : ObjectId} {now middle after : World}
      (treated : Passage setting scope (.busy source (.object target)) now middle)
      (requested : .asked (.applyTo (.object source) (.object target)) ∈ now.journal) {handler : Handler}
      (handled : now.handler? source = some handler) (whole : handler ≠ .array)
      (loaded : now.isUnloadedContainer target = false) {change : Edit} (refills : handler.Refills change)
      {trades : List Trade} {leftovers : List Value}
      (elements : trades.map Trade.element = handler.candidates (now.heap.node source))
      (images : trades.map Trade.image = change.values) (made : ∀ trade ∈ trades, trade.Made middle)
      (drawn : (trades.filterMap Trade.counterpart? ++ leftovers).Perm
        (handler.candidates (now.heap.node target)))
      (lost : discardLeftovers setting target change.values leftovers middle = (.ok (), after)) :
      Passage setting scope .done now (edit target change after).2
  | interrupted {source target : ObjectId} {now middle after : World}
      (treated : Passage setting scope (.busy source (.object target)) now middle)
      {kept leftovers : List Value} {ending : Ending}
      (lost : discardLeftovers setting target kept leftovers middle = (.error ending, after)) :
      Passage setting scope .broken now after
  | stopped {stage : Stage} {now after : World} (first : Passage setting scope stage now after) :
      Passage setting scope .broken now after
  | failed {stage : Stage} {now middle after : World} (first : Passage setting scope stage now middle)
      (second : Passage setting scope .broken middle after) : Passage setting scope .broken now after

/-- A passage that records a counterpart keeps what every part of a run keeps. -/
theorem World.later_rebuilding (world : World) {source : ObjectId} (unvisited : world.visits.get? source = none) :
    world.Later (world.rebuilding source) := by
  have allocating := World.Later.allocate world (world.heap.node source).emptyLike
  have recording := World.Later.record (allocate (world.heap.node source).emptyLike world).2 unvisited
    (.object world.heap.fresh)
  exact (allocating.trans recording).trans (.note _ (.walked source))

namespace Passage

variable {setting : Setting} {scope : Request → Prop} {stage : Stage} {now middle after : World}
  {source id : ObjectId} {counterpart : Value}

/-- The worlds at both ends have in common what every part of a run keeps. -/
theorem later (passage : Passage setting scope stage now after) : now.Later after := by
  induction passage with
  | still now => exact .refl now
  | asked now within => exact .note _ _
  | answered now request result => exact .note _ _
  | walked now recorded => exact .note _ _
  | stored now kept spent => exact .stored now kept spent
  | dispatched now same => exact .dispatch now same
  | cached now same => exact .cache now same
  | allocated now container => exact .allocate now _
  | followed first second one two => exact one.trans two
  | rebuilding now unvisited => exact now.later_rebuilding unvisited
  | copied now unvisited plain => exact (now.later_rebuilding unvisited).trans (.edit _ _ nofun)
  | standing now unvisited unhandled => exact .record now unvisited _
  | pairing now unvisited requested => exact .record now unvisited _
  | filled treated new fills partly ih => exact ih.trans (.edit _ _ fills.ne_setOrigin)
  | slotted treated handled index value ih => exact ih.trans (.edit _ _ (Edit.setSlot_ne_setOrigin index value))
  | written treated unhandled made ih => exact ih.trans (.edit _ _ made.ne_setOrigin)
  | closed treated kept ih => exact ih
  | refilled treated requested handled whole loaded refills elements images made drawn lost ih =>
    have shed := sheds_of_discardLeftovers lost
    exact (ih.trans shed.later).trans (.edit _ _ refills.ne_setOrigin)
  | interrupted treated lost ih => exact ih.trans (sheds_of_discardLeftovers lost).later
  | stopped first ih => exact ih
  | failed first second one two => exact one.trans two

/-- A call of the store came out one way or the other. -/
theorem called (passage : Passage setting scope stage now after) {outages : Outages}
    (spent : after.outages.Spends outages) : Passage setting scope stage now { after with outages } :=
  passage.followed (.stored after (.refl _) spent)

/-- The object that is being treated was first visited in this part of the run, and its counterpart is recorded. -/
theorem recorded (passage : Passage setting scope (.busy source counterpart) now after) :
    now.visits.get? source = none ∧ after.visits.get? source = some counterpart := by
  generalize treating : Stage.busy source counterpart = stage at passage
  induction passage with
  | followed first second one two =>
    exact ⟨(one treating).1, second.later.visits _ _ (one treating).2⟩
  | rebuilding now unvisited =>
    cases treating
    exact ⟨unvisited, World.Later.visits_record _ _ _⟩
  | standing now unvisited unhandled =>
    cases treating
    exact ⟨unvisited, World.Later.visits_record _ _ _⟩
  | pairing now unvisited requested =>
    cases treating
    exact ⟨unvisited, World.Later.visits_record _ _ _⟩
  | filled treated new fills partly ih => exact ih treating
  | slotted treated handled index value ih => exact ih treating
  | written treated unhandled made ih => exact ih treating
  | _ => cases treating

/-- A request that was made in a passage is in scope. -/
theorem scope_of_asked (passage : Passage setting scope stage now after) {request : Request}
    (asked : .asked request ∈ after.journal) : .asked request ∈ now.journal ∨ scope request := by
  -- Only one kind of change adds such an event to the journal.
  induction passage with
  | still now => exact .inl asked
  | asked now within =>
    rcases List.mem_cons.1 asked with same | before
    · exact .inr (Event.asked.inj same ▸ within)
    · exact .inl before
  | answered now request result => exact .inl ((List.mem_cons.1 asked).resolve_left nofun)
  | walked now recorded => exact .inl ((List.mem_cons.1 asked).resolve_left nofun)
  | stored now kept spent => exact .inl asked
  | dispatched now same => exact .inl asked
  | cached now same => exact .inl asked
  | allocated now container => exact .inl asked
  | followed first second one two => exact (two asked).elim one .inr
  | rebuilding now unvisited => exact .inl ((List.mem_cons.1 asked).resolve_left nofun)
  | copied now unvisited plain =>
    exact .inl ((List.mem_cons.1 ((List.mem_cons.1 asked).resolve_left nofun)).resolve_left nofun)
  | standing now unvisited unhandled => exact .inl asked
  | pairing now unvisited requested => exact .inl asked
  | filled treated new fills partly ih => exact ih ((List.mem_cons.1 asked).resolve_left nofun)
  | slotted treated handled index value ih => exact ih ((List.mem_cons.1 asked).resolve_left nofun)
  | written treated unhandled made ih => exact ih ((List.mem_cons.1 asked).resolve_left nofun)
  | closed treated kept ih => exact ih asked
  | refilled treated requested handled whole loaded refills elements images made drawn lost ih =>
    have shed := sheds_of_discardLeftovers lost
    have noted := (List.mem_cons.1 asked).resolve_left nofun
    exact ih ((shed.noted _ noted).resolve_right nofun)
  | interrupted treated lost ih =>
    have shed := sheds_of_discardLeftovers lost
    exact ih ((shed.noted _ asked).resolve_right nofun)
  | stopped first ih => exact ih asked
  | failed first second one two => exact (two asked).elim one .inr

end Passage

end Reconciler
