import Reconciler.Proofs.Versions

/-! # Containers that a run was busy with when it failed

A container is refilled once all its elements are reconciled and what it lost is given up, and then nothing can go wrong
any more before the request is answered. So as long as the request to bring a detached container onto an
authoritative one is open, the authoritative one has the content that it had at the start, unless another object was
brought onto it in the meantime.
-/

namespace Reconciler

open Reconciler.Action

/-- Another object than the source was asked for and recorded with the target as its counterpart. -/
def World.Shares (now : World) (source target : ObjectId) : Prop :=
  ∃ other, other ≠ source ∧ now.visits.get? other = some (.object target) ∧
    .asked (.ofPair other target) ∈ now.journal

/-- The target is what it was at the start, or is shared. -/
def World.Intact (start : World) (source target : ObjectId) (now : World) : Prop :=
  now.Shares source target ∨ now.heap.node target = start.heap.node target

/-- The target is a container that is intact until the source gets its counterpart, and afterwards as long as the
request for both is among those that wait. -/
structure Untouched (start : World) (source target : ObjectId) (waiting : List Request) (now : World) : Prop where
  present : start.heap.Holds target
  container : (start.heap.node target).isContainer = true
  later : start.Later now
  visited : .asked (.ofPair source target) ∈ now.journal → now.visits.get? source ≠ none
  intact : now.visits.get? source = none ∨ .ofPair source target ∈ waiting → start.Intact source target now

/-- What holds whenever a run ends, and all along it but for the moment between a refill and the answer. -/
def Suspended (start : World) (source target : ObjectId) (now : World) : Prop :=
  Untouched start source target (openRequests now.journal) now

/-- Containers refuse to have single slots changed. -/
theorem Node.refuses_setSlot {node : Node} (container : node.isContainer = true) (index : Nat) (value : Value) :
    node.accepts (.setSlot index value) = false := by
  rcases node with ⟨type, origin, content⟩
  cases content with
  | collection | map => rfl
  | _ => cases container

section Steps

variable {start now middle after : World} {source target : ObjectId}

private theorem World.Shares.later (shares : now.Shares source target) (later : now.Later after) :
    after.Shares source target := by
  obtain ⟨other, different, recorded, asked⟩ := shares
  exact ⟨other, different, later.visits _ _ recorded, later.journal.subset asked⟩

private theorem World.Intact.later (intact : start.Intact source target now) (later : now.Later after)
    (same : after.heap.node target = now.heap.node target) : start.Intact source target after :=
  intact.imp (·.later later) same.trans

/-- Fewer requests wait. -/
theorem Untouched.weaken {waiting fewer : List Request} (untouched : Untouched start source target waiting now)
    (subset : fewer ⊆ waiting) : Untouched start source target fewer now :=
  { untouched with intact := fun either => untouched.intact (either.imp_right fun listed => subset listed) }

/-- A request for anything else may wait as well. -/
theorem Untouched.cons {waiting : List Request} {request : Request}
    (untouched : Untouched start source target waiting now) (other : request ≠ .ofPair source target) :
    Untouched start source target (request :: waiting) now :=
  { untouched with intact := fun either =>
      untouched.intact (either.imp_right fun waits => (List.mem_cons.1 waits).resolve_left (Ne.symm other)) }

namespace Suspended

variable (suspended : Suspended start source target now)

include suspended

/-- As long as the source has no counterpart, the request for both does not wait. -/
theorem not_waiting (unvisited : now.visits.get? source = none) : .ofPair source target ∉ openRequests now.journal :=
  fun waits => suspended.visited (asked_of_mem_openRequests waits) unvisited

/-- A change that keeps the target intact and asks for nothing. -/
theorem of_intact (later : now.Later after) (level : openRequests after.journal = openRequests now.journal)
    (asked : .asked (.ofPair source target) ∈ after.journal → .asked (.ofPair source target) ∈ now.journal)
    (keeps : start.Intact source target now → start.Intact source target after) :
    Suspended start source target after where
  present := suspended.present
  container := suspended.container
  later := suspended.later.trans later
  visited listed unvisited := suspended.visited (asked listed) (later.unvisited unvisited)
  intact := by
    rintro (unvisited | waits)
    · exact keeps (suspended.intact (.inl (later.unvisited unvisited)))
    · exact keeps (suspended.intact (.inr (level ▸ waits)))

/-- A change of neither the heap nor the journal. -/
theorem of_same (later : now.Later after) (heap : after.heap = now.heap) (journal : after.journal = now.journal) :
    Suspended start source target after :=
  suspended.of_intact later (by rw [journal]) (by rw [journal]; exact id)
    fun intact => intact.later later (by rw [heap])

private theorem walked (id : ObjectId) : Suspended start source target (note (.walked id) now).2 :=
  suspended.of_intact (.note now _) rfl (fun listed => (List.mem_cons.1 listed).resolve_left nofun)
    fun intact => intact.later (.note now _) rfl

/-- A container gives up what it has lost. -/
theorem sheds {container : ObjectId} {kept leftovers : List Value} (shed : Sheds container kept leftovers now after) :
    Suspended start source target after :=
  suspended.of_intact shed.later shed.openRequests_eq (fun listed => (shed.noted _ listed).resolve_right nofun)
    fun intact => intact.later shed.later (by rw [shed.heap])

private theorem rebuilding {id : ObjectId} (unvisited : now.visits.get? id = none) :
    Suspended start source target (now.rebuilding id) := by
  have later := now.later_rebuilding unvisited
  refine suspended.of_intact later rfl (fun listed => (List.mem_cons.1 listed).resolve_left nofun) fun intact => ?_
  exact intact.later later (Heap.node_allocate_of_holds (suspended.later.holds suspended.present) _)

/-- An edit that leaves the target alone if that is as it was. -/
theorem edited {id : ObjectId} {change : Edit} (other : ∀ origin, change ≠ .setOrigin origin)
    (spares : id = target → now.heap.node target = start.heap.node target →
      (start.heap.node target).accepts change = false) :
    Suspended start source target (edit id change now).2 := by
  have later := World.Later.edit now id other
  refine suspended.of_intact later rfl (fun listed => (List.mem_cons.1 listed).resolve_left nofun) ?_
  rintro (shares | same)
  · exact .inl (shares.later later)
  · refine .inr ?_
    show (now.heap.edit id change).node target = _
    by_cases here : id = target
    · subst here
      rw [Heap.node_edit_self (suspended.later.holds suspended.present), same,
        Node.edited_of_refused (spares rfl same)]
    · rw [Heap.node_edit_of_ne _ (Ne.symm here), same]

/-- Another object is filled. -/
theorem filled {copy : ObjectId} (new : copy ≠ target) {handler : Handler} {change : Edit}
    (fills : handler.Fills change) : Suspended start source target (edit copy change now).2 :=
  suspended.edited fills.ne_setOrigin fun same => absurd same new

/-- What is written is a bean, and so not the target as it was. -/
theorem written {metadata : Metadata} {id : ObjectId} {property : String} {value : Value} {change : Edit}
    (made : Property.Edits now.heap metadata id property value change) :
    Suspended start source target (edit id change now).2 := by
  refine suspended.edited (fun origin => made.ne_setOrigin origin) fun here same => ?_
  subst here
  have bean := made.isBean
  rw [same, Node.isBean_of_isContainer suspended.container] at bean
  cases bean

/-- A container that is refilled does not wait any more, or is shared. -/
theorem refilled {detached authoritative : ObjectId} {waiting : List Request}
    (level : openRequests now.journal = .ofPair detached authoritative :: waiting)
    (recorded : now.visits.get? detached = some (.object authoritative))
    (first : detached = source → .ofPair source target ∉ waiting) {change : Edit}
    (other : ∀ origin, change ≠ .setOrigin origin) :
    Untouched start source target waiting (edit authoritative change now).2 := by
  have later := World.Later.edit now authoritative other
  by_cases here : authoritative = target
  · subst here
    refine ⟨suspended.present, suspended.container, suspended.later.trans later, fun listed => ?_, fun either => ?_⟩
    · exact suspended.visited ((List.mem_cons.1 listed).resolve_left nofun)
    · by_cases own : detached = source
      · subst own
        rcases either with unvisited | waits
        · cases unvisited.symm.trans recorded
        · exact absurd waits (first rfl)
      · have asked := asked_of_mem_openRequests (level ▸ List.mem_cons_self)
        exact .inl (World.Shares.later ⟨detached, own, recorded, asked⟩ later)
  · have edited : Suspended start source target (edit authoritative change now).2 :=
      suspended.edited other fun same => absurd same here
    exact Untouched.weaken edited (level ▸ List.subset_cons_self _ _)

/-- A request is noted. If it is the one for both, the source gets its counterpart at once. -/
theorem asked {request : Request} (later : now.Later after) (heap : after.heap = now.heap)
    (journal : after.journal = .asked request :: now.journal)
    (first : request = .ofPair source target → now.visits.get? source = none ∧ after.visits.get? source ≠ none) :
    Suspended start source target after where
  present := suspended.present
  container := suspended.container
  later := suspended.later.trans later
  visited := by
    intro listed unvisited
    rw [journal] at listed
    rcases List.mem_cons.1 listed with same | before
    · exact (first (Event.asked.inj same).symm).2 unvisited
    · exact suspended.visited before (later.unvisited unvisited)
  intact := by
    intro either
    have before : now.visits.get? source = none ∨ .ofPair source target ∈ openRequests now.journal := by
      rcases either with unvisited | waits
      · exact .inl (later.unvisited unvisited)
      · rw [journal] at waits
        exact (List.mem_cons.1 waits).imp (fun same => (first same.symm).1) id
    exact (suspended.intact before).later later (by rw [heap])

end Suspended

end Steps

namespace Episode

variable {setting : Setting} {request inner : Request} {phase next : Phase} {start now middle after : World}
  {source target : ObjectId}

/-- How far the target is untouched in a phase of an episode. -/
def Rests (start : World) (source target : ObjectId) (now after : World) : Phase → Prop
  | .opened => True
  | .settled => Untouched start source target (openRequests now.journal) after
  | _ => Suspended start source target after

section Opened

variable (suspended : Suspended start source target now)

include suspended

/-- A request that does not have to wait. -/
theorem untouched_of_opened (opened : Episode setting request .opened now middle)
    (treated : ∀ source target, request = .applyTo (.object source) (.object target) →
      middle.visits.get? source ≠ none) : Untouched start source target (openRequests now.journal) middle where
  present := suspended.present
  container := suspended.container
  later := suspended.later.trans opened.later
  visited := by
    intro listed unvisited
    rw [opened.reaches.journal] at listed
    rcases List.mem_cons.1 listed with same | before
    · exact treated source target (Event.asked.inj same).symm unvisited
    · exact suspended.visited before (opened.later.unvisited unvisited)
  intact either := by
    have before := either.imp_left opened.later.unvisited
    exact (suspended.intact before).later opened.later (by rw [opened.reaches.heap])

private theorem suspended_of_apply (opened : Episode setting request .opened now middle) {value : Value}
    (requested : request = .apply value) : Suspended start source target middle := by
  have untouched : Untouched start source target (openRequests now.journal) middle := by
    refine untouched_of_opened suspended opened ?_
    rintro _ _ rfl
    cases requested
  have level : openRequests middle.journal = request :: openRequests now.journal := opened.level
  rw [Suspended, level]
  refine untouched.cons ?_
  rintro rfl
  cases requested

end Opened

/-- Once a request is treated, fewer wait. -/
theorem untouched_of_suspended (suspended : Suspended start source target middle)
    (level : openRequests middle.journal = request :: openRequests now.journal) :
    Untouched start source target (openRequests now.journal) middle :=
  Untouched.weaken suspended (level ▸ List.subset_cons_self _ _)

/-- The target is not touched by what is done next, unless that ends the treatment of its request. -/
theorem Rests.move (rests : Rests start source target now middle phase) (suspended : Suspended start source target now)
    (reconciling : request.Reconciling) (episode : Episode setting request phase now middle)
    (move : Move setting request now phase middle next after) : Rests start source target now after next := by
  have later := move.later
  have reached := episode.reaches
  have level := episode.level
  cases move with
  | @idle phase middle searching dispatch cache outages registry schema spent =>
    cases phase with
    | opened => trivial
    | paired | busy => exact Suspended.of_same rests later rfl rfl
    | _ => exact searching.elim
  | flushed detaches | allocated detaches | detached detaches => exact absurd detaches reconciling.not_detaches
  | walked | merging => exact Suspended.walked rests _
  | pairing requested unvisited =>
    have paired := (episode.moved (.pairing requested unvisited)).reaches
    refine suspended.asked (episode.later.trans later) paired.heap paired.journal ?_
    intro same
    cases requested.symm.trans same
    exact ⟨paired.unvisited, World.Later.visits_record middle _ _ ▸ Option.some_ne_none _⟩
  | rebuilding alone unvisited =>
    obtain ⟨asked, -⟩ := alone.applied reconciling
    exact (suspended_of_apply suspended episode asked).rebuilding unvisited
  | copied alone unvisited handled plain =>
    obtain ⟨asked, -⟩ := alone.applied reconciling
    have rebuilt := (suspended_of_apply suspended episode asked).rebuilding unvisited
    have new : middle.heap.fresh ≠ target := by
      rintro rfl
      exact middle.heap.not_holds_fresh ((suspended.later.trans episode.later).holds suspended.present)
    exact untouched_of_suspended (rebuilt.filled new (.slots _)) level
  | standing alone unvisited unhandled =>
    obtain ⟨asked, -⟩ := alone.applied reconciling
    exact (suspended_of_apply suspended episode asked).of_same later rfl rfl
  | handled | spared | unchanged => exact rests
  | apart | closed | merged => exact untouched_of_suspended rests level
  | refused => exact rests
  | filled new fills partly supplied =>
    refine Suspended.filled rests ?_ fills
    rintro rfl
    exact new (suspended.later.holds suspended.present)
  | slotted requested handled index supplied =>
    exact Suspended.edited rests nofun fun _ _ => Node.refuses_setSlot suspended.container index _
  | refilled requested handled whole loaded refills elements images made drawn lost =>
    have shed := sheds_of_discardLeftovers lost
    have waiting := shed.openRequests_eq.trans level
    rw [requested] at waiting
    refine (Suspended.sheds rests shed).refilled waiting (shed.later.visits _ _ reached.2) ?_ refills.ne_setOrigin
    rintro rfl
    exact suspended.not_waiting reached.1
  | written changed made => exact Suspended.written rests (.of_write made)
  | passed treated => exact untouched_of_opened suspended episode treated
  | replied yields =>
    have kept := (Episode.moved episode (.replied yields)).level
    have untouched : Untouched start source target (openRequests now.journal) middle := rests
    refine ⟨untouched.present, untouched.container, untouched.later.trans later, fun listed => ?_, fun either => ?_⟩
    · exact untouched.visited ((List.mem_cons.1 listed).resolve_left nofun)
    · exact (untouched.intact (either.imp_right fun waits => kept ▸ waits)).later later rfl
  | missing requested absent => exact suspended_of_apply suspended episode requested
  | @stopped phase middle fragile ending other =>
    cases phase with
    | opened =>
      obtain ⟨id, requested⟩ := fragile
      exact suspended_of_apply suspended episode requested
    | busy | merging | taking => exact rests
    | _ => exact fragile.elim
  | rejected changed made => exact Suspended.written rests made
  | interrupted lost => exact Suspended.sheds rests (sheds_of_discardLeftovers lost)

/-- A request is made when the target is suspended. -/
theorem Rests.called {further : Value → Phase} (rests : Rests start source target now middle phase)
    (suspended : Suspended start source target now) (episode : Episode setting request phase now middle)
    (call : Subrequest setting request now phase middle inner further) : Suspended start source target middle := by
  cases call with
  | part | property => exact rests
  | found requested stored => exact suspended_of_apply suspended episode requested

/-- The target is not touched before its own request is answered. -/
theorem rests (episode : Episode setting request phase now after) (suspended : Suspended start source target now)
    (reconciling : request.Reconciling) : Rests start source target now after phase := by
  induction episode with
  | exhausted => exact suspended
  | asked => trivial
  | moved episode move ih => exact (ih suspended reconciling).move suspended reconciling episode move
  | called episode call answered ih inner =>
    have ahead := inner ((ih suspended reconciling).called suspended episode call) (call.reconciling reconciling)
    cases call with
    | part | property => exact ahead
    | found requested stored => exact untouched_of_suspended ahead (answered.level.trans episode.level)
  | broken episode call failed ih inner =>
    exact inner ((ih suspended reconciling).called suspended episode call) (call.reconciling reconciling)

end Episode

section Outcomes

variable {setting : Setting} {world : World} {outcome : Except Ending Value × World} {source target : ObjectId}

/-- However a run ends, the container is intact as long as its request is open, and nothing is open after an answer. -/
theorem Reconciliation.suspended (run : Reconciliation setting world outcome) (source : ObjectId)
    (held : world.heap.Holds target) (container : (world.heap.node target).isContainer = true) :
    Suspended world.rested source target outcome.2 ∧
      ∀ result, outcome.1 = .ok result → openRequests outcome.2.journal = [] := by
  have start : Suspended world.rested source target world.rested :=
    ⟨held, container, .refl world.rested, nofun, fun _ => .inr rfl⟩
  rcases run.episode with ⟨error, rfl⟩ | ⟨request, reconciling, answers, fails⟩
  · exact ⟨start, nofun⟩
  · refine ⟨?_, fun result answered => (answers result answered).level⟩
    rcases ended : outcome.1 with ending | result
    · exact (fails ending ended).rests start reconciling
    · exact (answers result ended).rests start reconciling

/-- If a list, a set or a map was being brought up to date with a detached object when the run failed, it is what it was
before, unless another object was also brought onto it in that run. -/
theorem Reconciliation.interrupted_untouched (run : Reconciliation setting world outcome)
    (held : world.heap.Holds target) (container : (world.heap.node target).isContainer = true)
    (busy : .ofPair source target ∈ openRequests outcome.2.journal)
    (alone : ∀ other, outcome.2.visits.get? other = some (.object target) →
      .asked (.ofPair other target) ∈ outcome.2.journal → other = source) :
    (∃ ending, outcome.1 = .error ending) ∧ outcome.2.heap.node target = world.heap.node target := by
  obtain ⟨suspended, answered⟩ := run.suspended source held container
  constructor
  · rcases ended : outcome.1 with ending | result
    · exact ⟨ending, rfl⟩
    · rw [answered result ended] at busy
      cases busy
  · rcases suspended.intact (.inr busy) with ⟨other, different, recorded, asked⟩ | same
    · exact absurd (alone other recorded asked) different
    · exact same

end Outcomes

namespace Readings

def schema : Schema := ⟨[{ name := ⟨"Book"⟩, properties := .ofList [("id", .field), ("title", .field)] }]⟩

def book (number : Int64) (title : String) : Node :=
  .bean ⟨"Book"⟩ [("id", .int number), ("title", .text title)]

def entity : Entity := { type := ⟨"Book"⟩, idProperty := "id" }

/-- A list of three stored books, and a detached one with the second of them only, under another title. The second
removal from the store is going to fail. -/
def world : World where
  heap := ⟨#[.list [.object ⟨1⟩, .object ⟨2⟩, .object ⟨3⟩], { book 1 "Emma" with origin := .stored },
    { book 2 "Persuasion" with origin := .stored }, { book 3 "Lady Susan" with origin := .stored },
    .list [.object ⟨5⟩], book 2 "Sanditon"]⟩
  store := { entities := .ofList [(⟨"Book"⟩, entity)], stored := [⟨1⟩, ⟨2⟩, ⟨3⟩] }
  dispatch := .ofRegistry (.withDefaults schema)
  cache := .ofSchema schema
  outages
    | .remove => [none, some (.backend "connection lost")]
    | _ => []

def setting : Setting := { schema, config := { deleteRemoved := true } }

def outcome : Except Ending Value × World := setting.applyTo (.object ⟨4⟩) (.object ⟨0⟩) world.rested

/-- The run fails between two removals. One book has got its new title and another one has left the store by then, but
the list is what it was, and the last book, which it would have lost too, is still stored. -/
theorem list_untouched :
    outcome.1 = .error (.failed (.store (.backend "connection lost"))) ∧
      (outcome.2.heap.node ⟨2⟩).attr "title" = .text "Sanditon" ∧ outcome.2.store.removed = [⟨1⟩] ∧
      outcome.2.store.contains ⟨3⟩ = true ∧
      outcome.2.heap.node ⟨0⟩ = .list [.object ⟨1⟩, .object ⟨2⟩, .object ⟨3⟩] := by
  have run : Reconciliation setting world outcome := .applyTo (.object ⟨4⟩) (.object ⟨0⟩)
  have sole : ∀ entry ∈ outcome.2.visits.log, entry.2 = .object ⟨0⟩ → entry.1 = ⟨4⟩ := by decide +kernel
  have busy : .ofPair ⟨4⟩ ⟨0⟩ ∈ openRequests outcome.2.journal := by decide +kernel
  have kept := run.interrupted_untouched (by decide) (by decide) busy fun other recorded _ =>
    sole _ (Visits.mem_log_of_get? recorded) rfl
  exact ⟨by decide +kernel, by decide +kernel, by decide +kernel, by decide +kernel, kept.2⟩

end Readings

end Reconciler
