import Reconciler.Proofs.Episode.Engine

/-! # The account of an episode

An episode whose request a run has a reason to make carries on the account of that run, and has settled all that it
recorded once it answers.
-/

namespace Reconciler

open Reconciler.Action

/-- The object that is treated, and its counterpart, as long as that is not settled. -/
def Phase.pair? : Phase → Option (ObjectId × Value)
  | paired source counterpart => some (source, counterpart)
  | merging merger _ | taking merger _ _ _ => some (merger.source, .object merger.target)
  | _ => none

/-- A merge in the account of a run, and the properties that have been taken over in it. -/
structure Merger.Told (merger : Merger) (setting : Setting) (root : Request) (start now : World)
    (done : List String) : Prop where
  account : Account setting root start merger.begun
  merging : Merging setting merger.begun merger.source merger.target merger.entity merger.metadata
  taken : ∀ property ∈ done,
    Course.TakenOver setting start now merger.source merger.target merger.metadata property

namespace Merger.Told

variable {merger : Merger} {setting : Setting} {root : Request} {start now after : World} {done : List String}
  {property : String}

private theorem later (told : merger.Told setting root start now done) (later : now.Later after) :
    merger.Told setting root start after done :=
  { told with taken := fun property listed => (told.taken property listed).later later }

/-- One more property has been taken over. -/
theorem append (told : merger.Told setting root start now done)
    (taken : Course.TakenOver setting start now merger.source merger.target merger.metadata property) :
    merger.Told setting root start now (done ++ [property]) where
  account := told.account
  merging := told.merging
  taken other listed := by
    rcases List.mem_append.1 listed with before | last
    · exact told.taken other before
    · exact List.mem_singleton.1 last ▸ taken

end Merger.Told

namespace Episode

variable {setting : Setting} {root request inner : Request} {start now middle after : World} {phase next : Phase}
  {source target : ObjectId} {counterpart : Value}

/-- A run has come to a request that it has a reason to make. -/
structure Due (setting : Setting) (root : Request) (start : World) (request : Request) (now : World) : Prop where
  account : Account setting root start now
  reconciling : request.Reconciling
  sought : ∃ begun, Account setting root start begun ∧ begun.Later now ∧
    Account.Seeks setting root start begun now request

/-- The counterpart of an object has been recorded in the treatment of a request. -/
structure Begun (setting : Setting) (root : Request) (start : World) (request : Request) (now : World)
    (source : ObjectId) (counterpart : Value) (begun : World) : Prop where
  account : Account setting root start begun
  later : now.Later begun
  recorded : begun.visits.get? source = some counterpart
  source_eq : begun.heap.node source = now.heap.node source
  heap_eq : request = .applyTo (.object source) counterpart → begun.heap = now.heap

/-- What the account of a run knows about a phase. -/
def Progress (setting : Setting) (root : Request) (start : World) (request : Request) (now after : World) :
    Phase → Prop
  | .opened | .paired _ _ | .settled | .replied _ => True
  | .busy source counterpart => Course.Settled setting start after source counterpart ∧
      ∃ begun, Begun setting root start request now source counterpart begun ∧ begun.Later after
  | .merging merger done => merger.Told setting root start after done ∧ merger.begun.Later after
  | .taking merger done transfer merged => merger.Told setting root start after done ∧
      merger.begun.Later transfer.earlier ∧ Account setting root start transfer.earlier ∧
      transfer.earlier.Later after ∧ Taking setting transfer.earlier after merger.source merger.target merger.entity
        merger.metadata transfer.property transfer.value transfer.current merged
  | .failed _ => False

/-- All that an episode recorded is settled, except for one pair. -/
def Settles (setting : Setting) (start now after : World) (pair? : Option (ObjectId × Value)) : Prop :=
  ∀ source counterpart, after.visits.get? source = some counterpart →
    now.visits.get? source = some counterpart ∨ Course.Settled setting start after source counterpart ∨
      pair? = some (source, counterpart)

/-- An episode carries on the account of a run. -/
inductive Accounted (setting : Setting) (root : Request) (start : World) (request : Request) (now : World) :
    Phase → World → Prop
  | failed {ending : Ending} {after : World} (fails : Account.Fails setting root start ending after) :
      Accounted setting root start request now (.failed ending) after
  | going {phase : Phase} {after : World} (account : Account setting root start after)
      (progress : Progress setting root start request now after phase)
      (settles : Settles setting start now after phase.pair?) :
      Accounted setting root start request now phase after

private theorem Progress.later (progress : Progress setting root start request now middle phase)
    (later : middle.Later after) : Progress setting root start request now after phase := by
  cases phase with
  | opened | paired | settled | replied => trivial
  | busy source counterpart =>
    obtain ⟨settled, begun, facts, since⟩ := progress
    exact ⟨settled.later later, begun, facts, since.trans later⟩
  | merging merger done => exact ⟨progress.1.later later, progress.2.trans later⟩
  | taking merger done transfer merged =>
    obtain ⟨told, started, second, read, taking⟩ := progress
    exact ⟨told.later later, started, second, read.trans later,
      { taking with answered := later.journal.subset taking.answered }⟩
  | failed ending => exact progress

/-- What was read when a property began to be taken over. -/
theorem Progress.read {merger : Merger} {done : List String} {transfer : Transfer} {merged : Value}
    (progress : Progress setting root start request now after (.taking merger done transfer merged)) :
    Course.Once setting start after (fun earlier =>
      Property.read earlier.heap merger.metadata merger.source transfer.property = .ok transfer.value ∧
        Property.read earlier.heap merger.metadata merger.target transfer.property = .ok transfer.current) := by
  obtain ⟨told, started, second, read, taking⟩ := progress
  exact ⟨transfer.earlier, second.course, read, taking.carried, taking.present⟩

/-- The account goes on when the property that is being taken over is written. -/
private theorem Progress.written {merger : Merger} {done : List String} {transfer : Transfer} {merged : Value}
    {change : Edit} (progress : Progress setting root start request now middle (.taking merger done transfer merged))
    (account : Account setting root start middle) (changed : merged ≠ transfer.current)
    (made : Property.Edits middle.heap merger.metadata merger.target transfer.property merged change) :
    Account setting root start (edit merger.target change middle).2 := by
  obtain ⟨told, started, second, read, taking⟩ := progress
  exact .written told.account second account started read told.merging taking changed made

namespace Settles

variable {pair? : Option (ObjectId × Value)}

private theorem keep (settles : Settles setting start now middle pair?) (later : middle.Later after)
    (same : after.visits = middle.visits) : Settles setting start now after pair? := by
  intro source counterpart known
  rcases settles source counterpart (same ▸ known) with before | settled | paired
  · exact .inl before
  · exact .inr (.inl (settled.later later))
  · exact .inr (.inr paired)

/-- A counterpart that is recorded remains to be settled. -/
theorem record (settles : Settles setting start now middle none) (unvisited : middle.visits.get? source = none)
    (counterpart : Value) :
    Settles setting start now (Action.record source counterpart middle).2 (some (source, counterpart)) := by
  intro other found known
  change (middle.visits.record source counterpart).get? other = some found at known
  rw [Visits.get?_record] at known
  split at known
  · next same => exact .inr (.inr (by rw [same, Option.some.inj known]))
  · rcases settles other found known with before | settled | nothing
    · exact .inl before
    · exact .inr (.inl (settled.later (.record middle unvisited counterpart)))
    · cases nothing

private theorem close (settles : Settles setting start now after (some (source, counterpart)))
    (settled : Course.Settled setting start after source counterpart) : Settles setting start now after none := by
  intro other found known
  rcases settles other found known with before | other | paired
  · exact .inl before
  · exact .inr (.inl other)
  · obtain ⟨rfl, rfl⟩ := Prod.mk.inj (Option.some.inj paired)
    exact .inr (.inl settled)

private theorem trans (settles : Settles setting start now middle pair?) (later : middle.Later after)
    (further : Settles setting start middle after none) : Settles setting start now after pair? := by
  intro source counterpart known
  rcases further source counterpart known with before | settled | nothing
  · rcases settles source counterpart before with earlier | settled | paired
    · exact .inl earlier
    · exact .inr (.inl (settled.later later))
    · exact .inr (.inr paired)
  · exact .inr (.inl settled)
  · cases nothing

end Settles

namespace Begun

variable {begun : World} (facts : Begun setting root start request now source counterpart begun)

include facts

private theorem handler?_eq (requested : request = .applyTo (.object source) counterpart) (id : ObjectId) :
    begun.handler? id = now.handler? id := by
  rw [World.handler?, World.handler?, facts.later.registry, facts.heap_eq requested]

private theorem isUnloadedContainer_eq (requested : request = .applyTo (.object source) counterpart) (id : ObjectId) :
    begun.isUnloadedContainer id = now.isUnloadedContainer id := by
  rw [World.isUnloadedContainer, World.isUnloadedContainer, facts.heap_eq requested]

end Begun

section Moves

/-- The counterpart of a container is made and recorded. -/
theorem Due.rebuilding (due : Due setting root start request now)
    (opened : Episode setting request .opened now middle)
    (account : Account setting root start middle) (settles : Settles setting start now middle none)
    (alone : Alone request source (middle.handler? source ≠ none)) (unvisited : middle.visits.get? source = none) :
    Begun setting root start request now source (.object middle.heap.fresh) (middle.rebuilding source) ∧
      Course.Settled setting start (middle.rebuilding source) source (.object middle.heap.fresh) ∧
        Settles setting start now (middle.rebuilding source) none := by
  have later := middle.later_rebuilding unvisited
  obtain ⟨asked, handled⟩ := alone.applied due.reconciling
  have known := opened.reaches.asked_of_eq asked
  have allocated := account.allocated handled
  have held : (middle.heap.allocate (middle.heap.node source).emptyLike).Holds middle.heap.fresh :=
    Heap.holds_allocate.2 (.inr rfl)
  have recorded := allocated.recorded unvisited (.rebuilt known account.later.not_holds_fresh held)
  have settled : Course.Settled setting start (middle.rebuilding source) source (.object middle.heap.fresh) :=
    .handled ⟨middle, account.course, later, handled⟩
  refine ⟨?_, settled, ?_⟩
  · constructor
    · exact recorded.walked source
    · exact opened.later.trans later
    · exact World.Later.visits_record _ _ _
    · exact (Heap.node_allocate_emptyLike _ _).trans (by rw [opened.reaches.heap])
    · exact fun other => by cases asked.symm.trans other
  · have kept := settles.keep (.allocate middle (middle.heap.node source).emptyLike) rfl
    exact ((kept.record unvisited _).keep (.note _ (.walked source)) rfl).close settled

/-- What is done next belongs to the account as well. -/
theorem Due.move (due : Due setting root start request now)
    (episode : Episode setting request phase now middle)
    (told : Accounted setting root start request now phase middle)
    (move : Move setting request now phase middle next after) :
    Accounted setting root start request now next after := by
  have later := move.later
  have reached := episode.reaches
  have first := due.account.later
  cases told with
  | failed fails =>
    cases move with
    | idle searching => exact searching.elim
    | stopped fragile => exact fragile.elim
  | going account progress settles =>
  cases move with
  | idle searching registry schema spent =>
    exact .going (((account.dispatched registry).cached schema).called spent) (progress.later later)
      (settles.keep later rfl)
  | flushed detaches | allocated detaches | detached detaches =>
    exact absurd detaches due.reconciling.not_detaches
  | walked => exact .going (account.walked _) (progress.later later) (settles.keep later rfl)
  | pairing requested unvisited =>
    exact .going (account.recorded unvisited (.given (reached.asked_of_eq requested))) trivial
      (settles.record unvisited _)
  | rebuilding alone unvisited =>
    obtain ⟨facts, settled, settles⟩ := due.rebuilding episode account settles alone unvisited
    exact .going facts.account ⟨settled, _, facts, .refl _⟩ settles
  | copied alone unvisited handled plain =>
    obtain ⟨facts, settled, settles⟩ := due.rebuilding episode account settles alone unvisited
    have node_eq := facts.source_eq
    rw [← reached.heap] at node_eq
    refine .going ?_ trivial (settles.keep (.edit _ _ nofun) rfl)
    refine .filled facts.account facts.account (.refl _) facts.recorded account.later.not_holds_fresh (.slots _) ?_
    exact fun value slot => .scalar (node_eq ▸ plain) (node_eq ▸ slot)
  | standing alone unvisited unhandled =>
    obtain ⟨asked, unmanaged⟩ := alone.applied due.reconciling
    have recorded := account.recorded unvisited (.itself (reached.asked_of_eq asked) unhandled unmanaged)
    refine .going recorded ⟨.itself, _, ?_, .refl _⟩ ((settles.record unvisited _).close .itself)
    have heap_eq := reached.heap
    exact ⟨recorded, episode.later.trans later, World.Later.visits_record _ _ _, by rw [← heap_eq]; rfl,
      fun _ => heap_eq⟩
  | @handled source counterpart middle handled =>
    have settled : Course.Settled setting start middle source counterpart := .handled (.of_now account.course handled)
    refine .going account ⟨settled, middle, ?_, .refl _⟩ (settles.close settled)
    have heap_eq := reached.heap
    exact ⟨account, episode.later, reached.visits ▸ Visits.get?_record_self .., by rw [heap_eq], fun _ => heap_eq⟩
  | apart unhandled apart =>
    refine .going account trivial (settles.close ?_)
    rcases apart with rfl | unmanaged
    · exact .itself
    · exact .unmanaged (.of_now account.course unmanaged)
  | refused unhandled managed distinct refusal =>
    refine .failed (.stopped account ?_)
    cases refusal <;> nofun
  | merging merging =>
    exact .going (account.walked _) ⟨⟨account, merging, nofun⟩, later⟩ (settles.keep later rfl)
  | filled new fills partly supplied =>
    have onward := progress.later later
    obtain ⟨settled, begun, facts, since⟩ := progress
    refine .going ?_ onward (settles.keep later rfl)
    refine .filled facts.account account since facts.recorded (fun held => new (first.holds held)) fills ?_
    intro value listed
    obtain ⟨inner, answered⟩ := supplied value listed
    exact .answer answered
  | slotted requested handled index supplied =>
    have onward := progress.later later
    obtain ⟨settled, begun, facts, since⟩ := progress
    refine .going ?_ onward (settles.keep later rfl)
    refine .slotted facts.account account since facts.recorded ?_ index ?_
    · exact (facts.handler?_eq requested _).trans handled
    · cases supplied with
      | null => exact .null
      | answer answered => exact .answer answered
      | scalar plain slot => exact .scalar (facts.source_eq ▸ plain) (facts.source_eq ▸ slot)
  | closed kept => exact .going account trivial settles
  | @refilled source target middle after requested handler handled whole loaded change refills trades leftovers
      elements images made drawn lost =>
    obtain ⟨settled, begun, facts, since⟩ := progress
    have shed := sheds_of_discardLeftovers lost
    refine .going ?_ trivial (settles.keep later shed.visits)
    refine .refilled facts.account account since facts.recorded ?_ whole ?_ refills ?_ ?_ lost
    · exact (facts.handler?_eq requested source).trans handled
    · exact (facts.isUnloadedContainer_eq requested target).trans loaded
    · intro value listed
      rw [← images] at listed
      obtain ⟨trade, member, rfl⟩ := List.mem_map.1 listed
      exact ⟨_, made trade member⟩
    · rw [facts.heap_eq requested]
      exact fun value listed => drawn.subset (List.mem_append_right _ listed)
  | spared carried present idle =>
    obtain ⟨told, since⟩ := progress
    refine .going account ⟨told.append ?_, since⟩ settles
    exact ⟨_, _, .of_now account.course ⟨carried, present⟩, idle.imp_right .inl⟩
  | unchanged same =>
    have reading := progress.read
    obtain ⟨told, started, second, read, taking⟩ := progress
    refine .going account ⟨told.append ?_, started.trans read⟩ settles
    exact ⟨_, _, reading, .inr (.inr ⟨_, taking.answered, .inl same⟩)⟩
  | written changed made =>
    have reading := progress.read.later later
    have written := progress.written account changed (.of_write made)
    obtain ⟨told, started, second, read, taking⟩ := progress
    refine .going written ⟨(told.later later).append ?_, (started.trans read).trans later⟩ (settles.keep later rfl)
    refine ⟨_, _, reading, .inr (.inr ⟨_, later.journal.subset taking.answered, .inr ⟨_, ?_, List.mem_cons_self⟩⟩)⟩
    exact Course.Once.later (.of_now account.course made) later
  | merged all =>
    obtain ⟨told, since⟩ := progress
    refine .going account trivial (settles.close (.merged ⟨_, told.account.course, since, told.merging⟩ ?_))
    exact fun property declared unchecked => told.taken property (all property declared unchecked)
  | passed treated => exact .going account trivial settles
  | replied yields =>
    have known : .asked request ∈ middle.journal := episode.asked_of_ongoing.resolve_left (by rintro ⟨_, ⟨⟩⟩)
    exact .going (account.answered known (yields due.reconciling)) trivial (settles.keep later rfl)
  | missing requested absent => exact .failed (.missing account absent)
  | stopped fragile other => exact .failed (.stopped account other)
  | rejected changed made => exact .failed (.stopped (progress.written account changed made) nofun)
  | @interrupted source target middle after kept leftovers ending lost =>
    have shed := (ensures_discardLeftovers_sheds target kept leftovers middle).ended _ _ lost
    exact .failed (.interrupted account shed.2 lost)

/-- A request that is made on the way has its reason in the account. -/
theorem Due.called {further : Value → Phase} (due : Due setting root start request now)
    (episode : Episode setting request phase now middle)
    (told : Accounted setting root start request now phase middle)
    (call : Subrequest setting request now phase middle inner further) : Due setting root start inner middle := by
  cases told with
  | failed fails => cases call
  | going account progress settles =>
  refine ⟨account, call.reconciling due.reconciling, ?_⟩
  cases call with
  | part part =>
    obtain ⟨settled, begun, facts, since⟩ := progress
    refine ⟨begun, facts.account, since, ?_⟩
    cases part with
    | detached detaches => exact absurd detaches due.reconciling.not_detaches
    | applied reconciling carried => exact .part facts.recorded (facts.source_eq ▸ carried)
    | matched requested refers carried held =>
      subst refers
      have same := facts.heap_eq requested
      exact .matched facts.recorded (same ▸ carried) (same ▸ held)
  | found requested stored =>
    exact ⟨middle, account, .refl _, .found (episode.reaches.asked_of_eq requested) stored⟩
  | @property merger done middle property value current reading =>
    obtain ⟨told, since⟩ := progress
    have held : merger.begun.heap.Holds merger.target := by
      refine Decidable.byContradiction fun absent => told.merging.identified ?_
      exact if_pos ((Value.isNull_iff _).2 (Heap.attr_of_not_holds absent _))
    have managed := (since.entity?_eq held).trans told.merging.managed
    have uses : start.Uses setting merger.metadata :=
      ⟨merger.begun, merger.target, merger.entity.type, told.account.later, told.merging.metadata_eq⟩
    exact ⟨middle, account, .refl _,
      .property episode.reaches.2.2 managed uses reading.carried reading.present⟩

end Moves

/-- An answer to a request that was made on the way belongs to the account. -/
theorem Accounted.call {further : Value → Phase} {result : Value}
    (told : Accounted setting root start request now phase middle)
    (call : Subrequest setting request now phase middle inner further)
    (answered : Episode setting inner (.replied result) middle after)
    (reply : Accounted setting root start inner middle (.replied result) after) :
    Accounted setting root start request now (further result) after := by
  have later := answered.later
  cases told with
  | failed fails => cases call
  | going account progress settles =>
  cases reply with
  | going ahead _ resettles =>
  cases call with
  | part part => exact .going ahead (progress.later later) (settles.trans later resettles)
  | found requested stored => exact .going ahead trivial (settles.trans later resettles)
  | property reading =>
    obtain ⟨told, since⟩ := progress
    exact .going ahead ⟨told.later later, since, account, later, { reading with answered := answered.reaches }⟩
      (settles.trans later resettles)

/-- An episode carries on the account of the run that makes its request. -/
theorem accounted (episode : Episode setting request phase now after) (due : Due setting root start request now) :
    Accounted setting root start request now phase after := by
  induction episode with
  | exhausted request now => exact .failed (.stopped due.account nofun)
  | asked request now =>
    obtain ⟨begun, first, later, sought⟩ := due.sought
    exact .going (.asked first due.account later sought) trivial fun _ _ known => .inl known
  | moved episode move ih => exact due.move episode (ih due) move
  | called episode call answered ih inner =>
    have told := ih due
    exact told.call call answered (inner (due.called episode told call))
  | broken episode call failed ih inner =>
    cases inner (due.called episode (ih due) call) with
    | failed fails => exact .failed fails
    | going account progress settles => exact progress.elim

/-- What an episode of its own does is all that the run does. -/
theorem accounted_of_fresh {world : World} (episode : Episode setting request phase world.rested after)
    (reconciling : request.Reconciling) :
    Accounted setting request world.rested request world.rested phase after :=
  episode.accounted ⟨.start, reconciling, _, .start, .refl _, .root⟩

end Episode

/-- A request of its own is answered with an account, or fails with one. -/
theorem Setting.runFresh_account {setting : Setting} {world : World} {request : Request}
    (reconciling : request.Reconciling) :
    (setting.runFresh request).Ensures world (Account.Fails setting request world.rested)
      (fun result after => Account setting request world.rested after ∧
        .answered request result ∈ after.journal) := by
  have ensures := setting.runFresh_episode request world
  constructor
  · intro ending after run
    cases (ensures.ended ending after run).accounted_of_fresh reconciling with
    | failed fails => exact fails
    | going account progress settles => exact progress.elim
  · intro result after run
    have answered := ensures.answered result after run
    cases answered.accounted_of_fresh reconciling with
    | going account progress settles => exact ⟨account, answered.reaches⟩

namespace Reconciliation

variable {setting : Setting} {world : World} {outcome : Except Ending Value × World}
  (run : Reconciliation setting world outcome)

include run

/-- A call that brings a detached value up to date gives account of some request: it answers the request, or fails. -/
theorem account : ∃ root, (∀ result, outcome.1 = .ok result →
        Account setting root world.rested outcome.2 ∧ .answered root result ∈ outcome.2.journal) ∧
      ∀ ending, outcome.1 = .error ending → Account.Fails setting root world.rested ending outcome.2 := by
  rcases run.episode with ⟨error, rfl⟩ | ⟨request, reconciling, answers, fails⟩
  · refine ⟨.apply .null, nofun, ?_⟩
    rintro _ ⟨⟩
    exact .stopped .start nofun
  · refine ⟨request, fun result answered => ?_, fun ending failed => ?_⟩
    · cases (answers result answered).accounted_of_fresh reconciling with
      | going account progress settles => exact ⟨account, (answers result answered).reaches⟩
    · cases (fails ending failed).accounted_of_fresh reconciling with
      | failed fails => exact fails
      | going account progress settles => exact progress.elim

/-- Such a call stays on its course, whether it answers or fails. -/
theorem course : Course setting world.rested outcome.2 := by
  obtain ⟨root, answers, fails⟩ := run.account
  rcases ended : outcome.1 with ending | result
  · exact (fails ending ended).course
  · exact (answers result ended).1.course

/-- A call that answers has settled all counterparts that it recorded. -/
theorem settled {result : Value} (answered : outcome.1 = .ok result) {source : ObjectId} {counterpart : Value}
    (recorded : outcome.2.visits.get? source = some counterpart) :
    Course.Settled setting world.rested outcome.2 source counterpart := by
  rcases run.episode with ⟨error, rfl⟩ | ⟨request, reconciling, answers, fails⟩
  · cases answered
  cases (answers result answered).accounted_of_fresh reconciling with
  | going account progress settles =>
  rcases settles source counterpart recorded with before | settled | nothing
  · cases before
  · exact settled
  · cases nothing

end Reconciliation

end Reconciler
