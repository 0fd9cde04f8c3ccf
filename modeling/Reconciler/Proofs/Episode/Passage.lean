import Reconciler.Proofs.Episode.Engine

/-! # Episodes as passages

An episode is a passage through the run, in which the treatment of its object is one stage. A run either detaches
or reconciles, and all that is asked for on the way is of the same kind.
-/

namespace Reconciler

open Reconciler.Action

namespace Passage

variable {setting : Setting} {scope : Request → Prop} {stage : Stage} {now middle : World}

/-- Looking something up changes nothing of note. -/
theorem looked (passage : Passage setting scope stage now middle) {dispatch : Handler.Dispatch}
    {cache : MetadataCache} {outages : Outages} (registry : dispatch.registry = middle.dispatch.registry)
    (schema : cache.schema = middle.cache.schema) (spent : middle.outages.Spends outages) :
    Passage setting scope stage now { middle with dispatch, cache, outages } :=
  ((passage.followed (.dispatched middle registry)).followed (.cached _ schema)).called spent

end Passage

namespace Episode

variable {setting : Setting} {scope : Request → Prop} {request inner : Request} {phase next : Phase}
  {now begun middle after : World} {source target : ObjectId} {counterpart : Value}

/-- Whatever is asked for in the treatment of a request in scope is in scope. -/
def Closed (setting : Setting) (scope : Request → Prop) : Prop :=
  ∀ ⦃request inner phase now middle further⦄, Episode setting request phase now middle →
    Subrequest setting request now phase middle inner further → scope request → scope inner

private theorem closed_reconciling : Closed setting Request.Reconciling :=
  fun _ _ _ _ _ _ _ call reconciling => call.reconciling reconciling

private theorem closed_detaches : Closed setting Request.Detaches := by
  intro request inner phase now middle further episode call detaches
  obtain ⟨value, rfl⟩ := detaches
  cases call with
  | part part =>
    cases part with
    | detached detaches part => exact ⟨part, rfl⟩
    | applied reconciling => exact absurd rfl (reconciling value)
    | matched requested => cases requested
  | found requested => cases requested
  | property reading => cases episode.reaches.1

/-- The treatment of an object began in a passage and goes on in another one. -/
structure Treating (setting : Setting) (scope : Request → Prop) (request : Request) (source : ObjectId)
    (counterpart : Value) (now begun after : World) : Prop where
  first : Passage setting scope .done now begun
  fresh : Fresh request now begun
  treated : Passage setting scope (.busy source counterpart) begun after

namespace Treating

variable (treating : Treating setting scope request source counterpart now begun middle)

include treating

private theorem handler?_eq (id : ObjectId) : begun.handler? id = now.handler? id := by
  rw [World.handler?, World.handler?, treating.first.later.registry, treating.fresh.heap]

private theorem isUnloadedContainer_eq (id : ObjectId) : begun.isUnloadedContainer id = now.isUnloadedContainer id := by
  rw [World.isUnloadedContainer, World.isUnloadedContainer, treating.fresh.heap]

private theorem followed (second : Passage setting scope .done middle after) :
    Treating setting scope request source counterpart now begun after :=
  { treating with treated := treating.treated.followed second }

private theorem closed (kept : ∀ target, counterpart = .object target → now.heap.Holds target →
      now.handler? source ∈ [some .collection, some .map] → now.isUnloadedContainer target = true) :
    Passage setting scope .done now middle := by
  refine treating.first.followed (treating.treated.closed fun target refers held handled => ?_)
  rw [treating.isUnloadedContainer_eq]
  rw [treating.handler?_eq] at handled
  exact kept target refers (treating.fresh.heap ▸ held) handled

private theorem closed_of_unhandled (unhandled : now.handler? source = none) :
    Passage setting scope .done now middle := by
  refine treating.closed fun _ _ _ handled => ?_
  rw [unhandled] at handled
  simp at handled

private theorem broken : Passage setting scope .broken now middle :=
  .failed treating.first (.stopped treating.treated)

/-- A property of the counterpart is written. -/
theorem written {metadata : Metadata} {property : String} {value : Value} {change : Edit}
    (refers : counterpart = .object target) (unhandled : now.handler? source = none)
    (made : Property.Edits middle.heap metadata target property value change) :
    Treating setting scope request source counterpart now begun (edit target change middle).2 := by
  subst refers
  exact { treating with treated := treating.treated.written ((treating.handler?_eq source).trans unhandled) made }

end Treating

/-- The passage that an episode has come to. -/
def Passes (setting : Setting) (scope : Request → Prop) (request : Request) (now after : World) : Phase → Prop
  | .opened | .settled | .replied _ => Passage setting scope .done now after
  | .paired source counterpart | .busy source counterpart =>
      ∃ begun, Treating setting scope request source counterpart now begun after
  | .merging merger _ | .taking merger _ _ _ => now.handler? merger.source = none ∧
      ∃ begun, Treating setting scope request merger.source (.object merger.target) now begun after
  | .failed _ => Passage setting scope .broken now after

private theorem Passes.broken (passes : Passes setting scope request now after phase)
    (fragile : phase.Fragile request) :
    Passage setting scope .broken now after := by
  cases phase with
  | opened => exact .stopped passes
  | busy =>
    obtain ⟨begun, treating⟩ := passes
    exact treating.broken
  | merging | taking =>
    obtain ⟨unhandled, begun, treating⟩ := passes
    exact treating.broken
  | _ => exact fragile.elim

/-- What is done next is part of the passage. -/
theorem Passes.move (passes : Passes setting scope request now middle phase)
    (episode : Episode setting request phase now middle) (move : Move setting request now phase middle next after) :
    Passes setting scope request now after next := by
  have reached := episode.reaches
  cases move with
  | @idle phase middle searching dispatch cache outages registry schema spent =>
    cases phase with
    | opened => exact Passage.looked passes registry schema spent
    | paired | busy =>
      obtain ⟨begun, treating⟩ := passes
      exact ⟨begun, { treating with treated := treating.treated.looked registry schema spent }⟩
    | _ => exact searching.elim
  | flushed detaches kept spent =>
    obtain ⟨begun, treating⟩ := passes
    exact ⟨begun, treating.followed (.stored middle kept spent)⟩
  | allocated detaches container =>
    obtain ⟨begun, treating⟩ := passes
    exact ⟨begun, treating.followed (.allocated middle container)⟩
  | walked =>
    obtain ⟨begun, treating⟩ := passes
    exact ⟨begun, treating.followed (.walked middle reached.2)⟩
  | pairing requested unvisited =>
    exact ⟨middle, passes, reached, .pairing middle unvisited (requested ▸ reached.journal)⟩
  | rebuilding alone unvisited => exact ⟨middle, passes, reached, .rebuilding middle unvisited⟩
  | copied alone unvisited handled plain => exact Passage.followed passes (.copied middle unvisited plain)
  | standing alone unvisited unhandled => exact ⟨middle, passes, reached, .standing middle unvisited unhandled⟩
  | handled handled => exact passes
  | apart unhandled apart =>
    obtain ⟨begun, treating⟩ := passes
    exact treating.closed_of_unhandled ((episode.handler?_eq reached.heap).symm.trans unhandled)
  | refused unhandled managed distinct refusal =>
    obtain ⟨begun, treating⟩ := passes
    exact treating.broken
  | merging merging =>
    obtain ⟨begun, treating⟩ := passes
    refine ⟨(episode.handler?_eq reached.heap).symm.trans merging.unhandled, begun, ?_⟩
    exact treating.followed (.walked middle merging.recorded)
  | filled new fills partly supplied =>
    obtain ⟨begun, treating⟩ := passes
    rw [← treating.fresh.heap] at new
    exact ⟨begun, { treating with treated := treating.treated.filled new fills partly }⟩
  | slotted requested handled index supplied =>
    obtain ⟨begun, treating⟩ := passes
    have handled := (treating.handler?_eq _).trans handled
    exact ⟨begun, { treating with treated := treating.treated.slotted handled index _ }⟩
  | detached detaches unhandled made =>
    obtain ⟨begun, treating⟩ := passes
    exact ⟨begun, treating.written rfl unhandled made⟩
  | closed kept =>
    obtain ⟨begun, treating⟩ := passes
    exact treating.closed kept
  | @refilled source target middle after requested handler handled whole loaded change refills trades leftovers
      elements images made drawn lost =>
    obtain ⟨begun, treating⟩ := passes
    rw [← treating.fresh.heap] at elements drawn
    refine treating.first.followed (.refilled treating.treated ?_ ?_ whole ?_ refills elements images made drawn lost)
    · exact treating.fresh.asked_of_eq requested
    · exact (treating.handler?_eq source).trans handled
    · exact (treating.isUnloadedContainer_eq target).trans loaded
  | spared carried present idle => exact passes
  | unchanged same => exact passes
  | written changed made =>
    obtain ⟨unhandled, begun, treating⟩ := passes
    exact ⟨unhandled, begun, treating.written rfl unhandled (.of_write made)⟩
  | merged all =>
    obtain ⟨unhandled, begun, treating⟩ := passes
    exact treating.closed_of_unhandled unhandled
  | passed treated => exact passes
  | replied yields => exact Passage.followed passes (.answered middle request _)
  | missing requested absent => exact .stopped passes
  | stopped fragile other => exact passes.broken fragile
  | rejected changed made =>
    obtain ⟨unhandled, begun, treating⟩ := passes
    exact (treating.written rfl unhandled made).broken
  | interrupted lost =>
    obtain ⟨begun, treating⟩ := passes
    exact .failed treating.first (.interrupted treating.treated lost)

/-- An answer to a request that was made on the way is part of the passage. -/
theorem Passes.call {further : Value → Phase} {result : Value}
    (passes : Passes setting scope request now middle phase)
    (call : Subrequest setting request now phase middle inner further)
    (reply : Passage setting scope .done middle after) :
    Passes setting scope request now after (further result) := by
  cases call with
  | part part =>
    obtain ⟨begun, treating⟩ := passes
    exact ⟨begun, treating.followed reply⟩
  | found requested stored => exact Passage.followed passes reply
  | property reading =>
    obtain ⟨unhandled, begun, treating⟩ := passes
    exact ⟨unhandled, begun, treating.followed reply⟩

private theorem Passes.call_broken {further : Value → Phase} (passes : Passes setting scope request now middle phase)
    (call : Subrequest setting request now phase middle inner further)
    (failed : Passage setting scope .broken middle after) :
    Passage setting scope .broken now after := by
  cases call with
  | part part =>
    obtain ⟨begun, treating⟩ := passes
    exact .failed treating.first (.failed treating.treated failed)
  | found requested stored => exact .failed passes failed
  | property reading =>
    obtain ⟨unhandled, begun, treating⟩ := passes
    exact .failed treating.first (.failed treating.treated failed)

/-- An episode is a passage, if all that it asks for is in scope. -/
theorem passes (closed : Closed setting scope) (episode : Episode setting request phase now after)
    (within : scope request) : Passes setting scope request now after phase := by
  induction episode with
  | exhausted request now => exact .stopped (.still now)
  | asked request now => exact .asked now within
  | moved episode move ih => exact (ih within).move episode move
  | called episode call answered ih inner => exact (ih within).call call (inner (closed episode call within))
  | broken episode call failed ih inner => exact (ih within).call_broken call (inner (closed episode call within))

end Episode

/-- A call that detaches makes a passage, or a broken one if it fails. -/
theorem Setting.disconnect_passage (setting : Setting) (value : Value) (world : World) :
    (setting.disconnect value).Ensures world
      (fun _ after => Passage setting Request.Detaches .broken world.rested after)
      (fun _ after => Passage setting Request.Detaches .done world.rested after) := by
  have ensures := setting.runFresh_episode (.disconnect value) world
  constructor
  · exact fun ending after run => (ensures.ended ending after run).passes Episode.closed_detaches ⟨value, rfl⟩
  · exact fun result after run => (ensures.answered result after run).passes Episode.closed_detaches ⟨value, rfl⟩

/-- A call that reconciles makes a passage, or a broken one if it fails. -/
theorem Reconciliation.passage {setting : Setting} {world : World} {outcome : Except Ending Value × World}
    (run : Reconciliation setting world outcome) :
    (∀ result, outcome.1 = .ok result → Passage setting Request.Reconciling .done world.rested outcome.2) ∧
      ∀ ending, outcome.1 = .error ending → Passage setting Request.Reconciling .broken world.rested outcome.2 := by
  rcases run.episode with ⟨error, rfl⟩ | ⟨request, reconciling, answers, fails⟩
  · exact ⟨nofun, fun _ _ => .stopped (.still _)⟩
  · exact ⟨fun result answered => (answers result answered).passes Episode.closed_reconciling reconciling,
      fun ending failed => (fails ending failed).passes Episode.closed_reconciling reconciling⟩

end Reconciler
