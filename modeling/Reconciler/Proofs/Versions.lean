import Reconciler.Proofs.Ensures
import Reconciler.Proofs.Identifiers

/-! # Versions during a reconciliation

The journal says what a run was doing when it made an edit: the requests that were asked and not answered yet,
and what every object had become by then. While versions are compared the version of an entity never changes, and
its other attributes only change while an object is being brought onto it that carried the same version. An
object with another version makes the run fail as soon as the versions are compared, before anything else is done.
-/

namespace Reconciler

open Reconciler.Action

/-- The request to bring one object onto another. -/
abbrev Request.ofPair (source target : ObjectId) : Request := .applyTo (.object source) (.object target)

/-- The requests of a journal that are not answered yet, the innermost first. -/
def openRequests : List Event → List Request
  | [] => []
  | .asked request :: earlier => request :: openRequests earlier
  | .answered _ _ :: earlier => (openRequests earlier).tail
  | .walked _ :: earlier => openRequests earlier
  | .edited _ _ :: earlier => openRequests earlier
  | .discarded _ _ :: earlier => openRequests earlier

namespace World

/-- An object after the edits of a journal. -/
def nodeAfter (start : World) (id : ObjectId) : List Event → Node
  | [] => start.heap.node id
  | .edited target change :: earlier =>
      if target = id then (start.nodeAfter id earlier).edited change else start.nodeAfter id earlier
  | .asked _ :: earlier => start.nodeAfter id earlier
  | .answered _ _ :: earlier => start.nodeAfter id earlier
  | .walked _ :: earlier => start.nodeAfter id earlier
  | .discarded _ _ :: earlier => start.nodeAfter id earlier

/-- The attribute is the version of the object, or the object is no entity. -/
def Locks (start : World) (id : ObjectId) (name : String) : Prop :=
  ∀ entity, start.IsEntity id entity → entity.versionProperty? = some name

/-- An edit of the target may follow. What is being done is to bring the source onto it, and when that was asked
for the source carried the target's version, if the target has one. The source still does, unless it is an
entity with another version property. -/
structure Admits (start : World) (earlier begun : List Event) (source target : ObjectId) (version : String) :
    Prop where
  innermost : (openRequests earlier).head? = some (.ofPair source target)
  entered : .walked source :: .asked (.ofPair source target) :: begun <:+ earlier
  agreed : (start.heap.node target).attr version ≠ .null →
    (start.nodeAfter source begun).attr version = (start.heap.node target).attr version
  agrees : (start.heap.node target).attr version ≠ .null → start.Locks source version →
    (start.nodeAfter source earlier).attr version = (start.heap.node target).attr version

/-- The moment at which it was first asked for to bring the source onto the target. -/
structure Begins (journal begun : List Event) (source target : ObjectId) : Prop where
  asked : .asked (.ofPair source target) :: begun <:+ journal
  first : .asked (.ofPair source target) ∉ begun

/-- The source has to be refused: the target is loaded and has an identifier, and it has a version other than the one
that the source carried when it was asked for to bring it onto the target. -/
structure Outdated (start : World) (begun : List Event) (source target : ObjectId) (entity : Entity)
    (version : String) : Prop where
  loaded : (start.heap.node target).origin.isLoaded = true
  identified : (start.nodeAfter target begun).attr entity.idProperty ≠ .null
  versioned : (start.heap.node target).attr version ≠ .null
  differs : (start.nodeAfter source begun).attr version ≠ (start.heap.node target).attr version

/-- The run failed with both versions as soon as they were compared, or with the store when that was asked for the
identifier of the target just before. -/
structure Refuses (start : World) (begun : List Event) (source target : ObjectId) (version : String)
    (ending : Ending) (journal : List Event) : Prop where
  reason : ending = .failed (.versionMismatch (start.heap.node target).type version
      ((start.nodeAfter source begun).attr version) ((start.heap.node target).attr version)) ∨
    ∃ error, start.MayFail .identifier error ∧ ending = .failed (.store error)
  nothing_else : journal = .asked (.ofPair source target) :: begun

/-- If the store can always read identifiers, the run failed with both versions. -/
theorem Refuses.mismatch {start : World} {begun journal : List Event} {source target : ObjectId} {version : String}
    {ending : Ending} (refuses : start.Refuses begun source target version ending journal)
    (readable : ∀ error, ¬ start.MayFail .identifier error) :
    ending = .failed (.versionMismatch (start.heap.node target).type version
      ((start.nodeAfter source begun).attr version) ((start.heap.node target).attr version)) := by
  refine refuses.reason.resolve_right ?_
  rintro ⟨error, fails, -⟩
  exact readable error fails

end World

/-- What is open was asked. -/
theorem asked_of_mem_openRequests {request : Request} {journal : List Event}
    (waiting : request ∈ openRequests journal) :
    .asked request ∈ journal := by
  induction journal with
  | nil => cases waiting
  | cons event earlier ih =>
    cases event with
    | asked other =>
      rcases List.mem_cons.1 waiting with rfl | before
      · exact List.mem_cons_self
      · exact List.mem_cons_of_mem _ (ih before)
    | answered _ _ => exact List.mem_cons_of_mem _ (ih (List.mem_of_mem_tail waiting))
    | walked _ => exact List.mem_cons_of_mem _ (ih waiting)
    | edited _ _ => exact List.mem_cons_of_mem _ (ih waiting)
    | discarded _ _ => exact List.mem_cons_of_mem _ (ih waiting)

/-- No request is opened or answered while a container gives up what it has lost. -/
theorem Sheds.openRequests_eq {container : ObjectId} {kept leftovers : List Value} {now after : World}
    (shed : Sheds container kept leftovers now after) : openRequests after.journal = openRequests now.journal := by
  obtain ⟨events, same, given⟩ := shed.events
  rw [same]
  clear same
  induction events with
  | nil => rfl
  | cons event events ih =>
    obtain ⟨⟨entity, rfl, -⟩, others⟩ := List.forall_mem_cons.1 given
    exact ih others

/-- The requests that are open in the treatment of a request, and those that were open before. -/
def Phase.Level (request : Request) (before after : List Request) : Phase → Prop
  | .replied _ => after = before
  | .failed _ => True
  | _ => after = request :: before

private theorem Phase.Level.move {setting : Setting} {request : Request} {phase next : Phase} {now middle after : World}
    {before : List Request} (level : phase.Level request before (openRequests middle.journal))
    (move : Move setting request now phase middle next after) :
    next.Level request before (openRequests after.journal) := by
  cases move with
  | refilled requested handled whole loaded refills elements images made drawn lost =>
    have shed := sheds_of_discardLeftovers lost
    exact shed.openRequests_eq.trans level
  | replied => exact congrArg List.tail level
  | refused | missing | stopped | rejected | interrupted => trivial
  | _ => exact level

/-- A request is open as long as it is treated. -/
theorem Episode.level {setting : Setting} {request : Request} {phase : Phase} {now after : World}
    (episode : Episode setting request phase now after) :
    phase.Level request (openRequests now.journal) (openRequests after.journal) := by
  induction episode with
  | exhausted | broken => trivial
  | asked => rfl
  | moved episode move ih => exact ih.move move
  | called episode call answered ih inner =>
    cases call with
    | part => exact inner.trans ih
    | found => exact inner.trans ih
    | property => exact inner.trans ih

private theorem List.suffix_append_cases {events journal earlier : List Event}
    (suffix : earlier <:+ events ++ journal) :
    earlier <:+ journal ∨ ∃ rest, rest <:+ events ∧ earlier = rest ++ journal := by
  obtain ⟨front, same⟩ := suffix
  rcases List.append_eq_append_iff.1 same with ⟨rest, split, rfl⟩ | ⟨rest, rfl, split⟩
  · exact .inr ⟨rest, ⟨front, split.symm⟩, rfl⟩
  · exact .inl ⟨rest, split.symm⟩

section Journal

variable {start : World} {id : ObjectId}

private theorem World.nodeAfter_cons_of_ne {event : Event} {earlier : List Event}
    (other : ∀ target change, event ≠ .edited target change) :
    start.nodeAfter id (event :: earlier) = start.nodeAfter id earlier := by
  cases event with
  | edited target change => exact absurd rfl (other target change)
  | _ => rfl

/-- Events that are not edits change no object. -/
theorem World.nodeAfter_append_of_quiet {events earlier : List Event}
    (quiet : ∀ event ∈ events, ∀ target change, event ≠ .edited target change) :
    start.nodeAfter id (events ++ earlier) = start.nodeAfter id earlier := by
  induction events with
  | nil => rfl
  | cons event events ih =>
    obtain ⟨head, tail⟩ := List.forall_mem_cons.1 quiet
    rw [List.cons_append, nodeAfter_cons_of_ne head, ih tail]

private theorem World.isBean_nodeAfter (journal : List Event) :
    (start.nodeAfter id journal).isBean = (start.heap.node id).isBean := by
  induction journal with
  | nil => rfl
  | cons event earlier ih =>
    cases event with
    | edited target change =>
      unfold nodeAfter
      split
      · rw [Node.isBean_edited, ih]
      · exact ih
    | _ => exact ih

/-- A place that was never allocated has no attributes, whatever is edited. -/
theorem World.attr_nodeAfter_of_not_holds (absent : ¬ start.heap.Holds id) (journal : List Event) (name : String) :
    (start.nodeAfter id journal).attr name = .null := by
  apply Node.attr_of_notBean
  rw [isBean_nodeAfter, Heap.node_of_not_holds absent]
  rfl

end Journal

/-- What holds all along a run, also if it fails. -/
structure Locked (start now : World) : Prop where
  later : start.Later now
  nodes : ∀ id, start.heap.Holds id → now.heap.node id = start.nodeAfter id now.journal
  handled : ∀ id, now.heap.Holds id → ¬ start.heap.Holds id → now.handler? id ≠ none
  kept : ∀ id name, start.heap.Holds id → start.Locks id name → ∀ earlier, earlier <:+ now.journal →
    (start.nodeAfter id earlier).attr name = (start.heap.node id).attr name
  admitted : ∀ target change earlier, .edited target change :: earlier <:+ now.journal →
    ∀ entity version name value, start.IsEntity target entity → entity.versionProperty? = some version →
      change.assigns? name = some value → ∃ source begun, start.Admits earlier begun source target version
  visited : ∀ source target, .asked (.ofPair source target) ∈ now.journal → now.visits.get? source ≠ none

/-- All objects that were brought onto versioned entities passed the comparison. -/
structure Guarded (start now : World) : Prop extends Locked start now where
  merges : ∀ source target entity version, start.Merges now source target entity →
    (start.heap.node source).isBean = true → entity.versionProperty? = some version →
    ∃ begun, World.Begins now.journal begun source target ∧ ¬ start.Outdated begun source target entity version

/-- The run has failed, and at once with both versions if an object had to be refused. -/
structure Refused (start : World) (ending : Ending) (after : World) : Prop extends Locked start after where
  refuses : ∀ source target entity version, start.Merges after source target entity →
    (start.heap.node source).isBean = true → entity.versionProperty? = some version →
    ∃ begun, World.Begins after.journal begun source target ∧
      (start.Outdated begun source target entity version →
        start.Refuses begun source target version ending after.journal)

/-- A failure for any other reason. -/
theorem Guarded.refused {start now : World} (guarded : Guarded start now) (ending : Ending) :
    Refused start ending now := by
  constructor
  · exact guarded.toLocked
  · intro source target entity version merges bean versioned
    obtain ⟨begun, begins, passed⟩ := guarded.merges source target entity version merges bean versioned
    exact ⟨begun, begins, fun outdated => absurd outdated passed⟩

private theorem World.Begins.later {now after : World} {begun : List Event} {source target : ObjectId}
    (begins : Begins now.journal begun source target) (later : now.Later after) :
    Begins after.journal begun source target :=
  ⟨begins.asked.trans later.journal, begins.first⟩

/-- The entity of an object is determined by its type. -/
theorem World.IsEntity.unique {start : World} {id : ObjectId} {entity other : Entity}
    (managed : start.IsEntity id entity) (known : start.IsEntity id other) : other = entity :=
  Option.some.inj (known.2.symm.trans managed.2)

theorem World.IsEntity.locks {start : World} {id : ObjectId} {entity : Entity} {version : String}
    (managed : start.IsEntity id entity) (versioned : entity.versionProperty? = some version) :
    start.Locks id version := by
  intro other known
  rw [managed.unique known]
  exact versioned

namespace Locked

variable {start now after : World} (locked : Locked start now)

include locked

/-- An object without a handler has the attributes that the journal says. -/
theorem attr_eq {id : ObjectId} (unhandled : now.handler? id = none) (name : String) :
    (now.heap.node id).attr name = (start.nodeAfter id now.journal).attr name := by
  by_cases old : start.heap.Holds id
  · rw [locked.nodes id old]
  · have absent : ¬ now.heap.Holds id := fun held => locked.handled id held old unhandled
    rw [Heap.attr_of_not_holds absent, World.attr_nodeAfter_of_not_holds old]

/-- No object becomes a bean, or another thing than a bean. -/
theorem isBean_of_start {id : ObjectId} (bean : (start.heap.node id).isBean = true) :
    (now.heap.node id).isBean = true := by
  by_cases held : start.heap.Holds id
  · rw [locked.nodes id held, World.isBean_nodeAfter]
    exact bean
  · rw [Heap.node_of_not_holds held] at bean
    cases bean

/-- A locked attribute is what it was. -/
theorem attr_of_locks {id : ObjectId} {name : String} (held : start.heap.Holds id) (locks : start.Locks id name) :
    (now.heap.node id).attr name = (start.heap.node id).attr name := by
  rw [locked.nodes id held]
  exact locked.kept id name held locks _ (List.suffix_refl _)

/-- A change of neither the heap nor the journal. -/
theorem of_same (later : now.Later after) (heap : after.heap = now.heap) (journal : after.journal = now.journal) :
    Locked start after := by
  constructor
  · exact locked.later.trans later
  · rw [heap, journal]
    exact locked.nodes
  · intro id held new
    have held : now.heap.Holds id := by rwa [heap] at held
    rw [later.handler?_eq held]
    exact locked.handled id held new
  · rw [journal]
    exact locked.kept
  · rw [journal]
    exact locked.admitted
  · intro source target asked
    rw [journal] at asked
    rcases known : now.visits.get? source with _ | counterpart
    · exact absurd known (locked.visited source target asked)
    · rw [later.visits source counterpart known]
      exact Option.some_ne_none _

/-- Whatever is not an edit is noted freely, but a request for an object only if that has got its counterpart. -/
theorem noted {events : List Event} (later : now.Later after) (heap : after.heap = now.heap)
    (journal : after.journal = events ++ now.journal)
    (quiet : ∀ event ∈ events, ∀ target change, event ≠ .edited target change)
    (visited : ∀ source target, .asked (.ofPair source target) ∈ events → after.visits.get? source ≠ none) :
    Locked start after := by
  constructor
  · exact locked.later.trans later
  · intro id held
    rw [heap, journal, World.nodeAfter_append_of_quiet quiet]
    exact locked.nodes id held
  · intro id held new
    have held : now.heap.Holds id := by rwa [heap] at held
    rw [later.handler?_eq held]
    exact locked.handled id held new
  · intro id name held locks earlier suffix
    rw [journal] at suffix
    rcases List.suffix_append_cases suffix with before | ⟨rest, among, rfl⟩
    · exact locked.kept id name held locks earlier before
    · rw [World.nodeAfter_append_of_quiet fun event member => quiet event (among.subset member)]
      exact locked.kept id name held locks _ (List.suffix_refl _)
  · intro target change earlier suffix
    rw [journal] at suffix
    rcases List.suffix_append_cases suffix with before | ⟨rest, among, same⟩
    · exact locked.admitted target change earlier before
    · cases rest with
      | nil => exact locked.admitted target change earlier (same ▸ List.suffix_refl _)
      | cons event rest =>
        exact absurd (List.cons.inj same).1.symm (quiet event (among.subset List.mem_cons_self) target change)
  · intro source target asked
    rw [journal] at asked
    rcases List.mem_append.1 asked with noted | before
    · exact visited source target noted
    · rcases known : now.visits.get? source with _ | counterpart
      · exact absurd known (locked.visited source target before)
      · rw [later.visits source counterpart known]
        exact Option.some_ne_none _

/-- An object is visited for the first time, and only now asked for. -/
theorem record {source : ObjectId} (unvisited : now.visits.get? source = none) (counterpart : Value) :
    Locked start (record source counterpart now).2 :=
  locked.of_same (.record now unvisited counterpart) rfl rfl

/-- A new object is like one that has a handler. -/
theorem allocate {source : ObjectId} (handled : now.handler? source ≠ none) :
    Locked start (allocate (now.heap.node source).emptyLike now).2 := by
  have later := World.Later.allocate now (now.heap.node source).emptyLike
  constructor
  · exact locked.later.trans later
  · intro id held
    have same : (Action.allocate (now.heap.node source).emptyLike now).2.heap.node id = now.heap.node id :=
      Heap.node_allocate_of_holds (locked.later.holds held) _
    rw [same]
    exact locked.nodes id held
  · intro id held new
    rcases Heap.holds_allocate.1 held with before | rfl
    · rw [later.handler?_eq before]
      exact locked.handled id before new
    · rw [now.handler?_fresh source]
      exact handled
  · exact locked.kept
  · exact locked.admitted
  · exact locked.visited

/-- An edit leaves the versions alone, and changes an entity only where that is admitted. -/
theorem edit {target : ObjectId} {change : Edit} (other : ∀ origin, change ≠ .setOrigin origin)
    (spares : start.heap.Holds target → ∀ name, start.Locks target name → change.assigns? name = none)
    (admits : ∀ entity version name value, start.IsEntity target entity → entity.versionProperty? = some version →
      change.assigns? name = some value → ∃ source begun, start.Admits now.journal begun source target version) :
    Locked start (edit target change now).2 := by
  have later := World.Later.edit now target other
  have journal : (Action.edit target change now).2.journal = .edited target change :: now.journal := rfl
  constructor
  · exact locked.later.trans later
  · intro id held
    rw [journal]
    show (now.heap.edit target change).node id = _
    unfold World.nodeAfter
    by_cases here : target = id
    · subst here
      rw [if_pos rfl, Heap.node_edit_self (locked.later.holds held), locked.nodes target held]
    · rw [if_neg here, Heap.node_edit_of_ne _ (Ne.symm here), locked.nodes id held]
  · intro id held new
    have before : now.heap.Holds id := Heap.holds_edit.1 held
    rw [later.handler?_eq before]
    exact locked.handled id before new
  · intro id name held locks earlier suffix
    rcases List.suffix_cons_iff.1 suffix with rfl | before
    · have same := locked.kept id name held locks _ (List.suffix_refl _)
      unfold World.nodeAfter
      split
      · next here =>
        subst here
        rw [Node.attr_edited_of_spared _ (spares held name locks)]
        exact same
      · exact same
    · exact locked.kept id name held locks earlier before
  · intro id other earlier suffix
    rcases List.suffix_cons_iff.1 suffix with same | before
    · obtain ⟨edited, rfl⟩ := List.cons.inj same
      obtain ⟨rfl, rfl⟩ := Event.edited.inj edited
      exact admits
    · exact locked.admitted id other earlier before
  · intro source counterpart asked
    rcases List.mem_cons.1 asked with same | before
    · cases same
    · exact locked.visited source counterpart before

end Locked

namespace Guarded

variable {start now after : World} (guarded : Guarded start now)

include guarded

/-- As long as no pair comes to be merged. -/
theorem of_locked (locked : Locked start after) (later : now.Later after)
    (merges : ∀ source target entity, start.Merges after source target entity →
      start.Merges now source target entity) : Guarded start after := by
  constructor
  · exact locked
  · intro source target entity version known bean versioned
    obtain ⟨begun, begins, passed⟩ :=
      guarded.merges source target entity version (merges source target entity known) bean versioned
    exact ⟨begun, begins.later later, passed⟩

/-- A change of neither the heap, the visits nor the journal. -/
theorem of_same (later : now.Later after) (heap : after.heap = now.heap) (visits : after.visits = now.visits)
    (journal : after.journal = now.journal) : Guarded start after := by
  apply guarded.of_locked (guarded.toLocked.of_same later heap journal) later
  intro source target entity merges
  exact { merges with recorded := by rw [← visits]; exact merges.recorded }

theorem noted {events : List Event} (later : now.Later after) (heap : after.heap = now.heap)
    (visits : after.visits = now.visits) (journal : after.journal = events ++ now.journal)
    (quiet : ∀ event ∈ events, ∀ target change, event ≠ .edited target change)
    (visited : ∀ source target, .asked (.ofPair source target) ∈ events → after.visits.get? source ≠ none) :
    Guarded start after := by
  apply guarded.of_locked (guarded.toLocked.noted later heap journal quiet visited) later
  intro source target entity merges
  exact { merges with recorded := by rw [← visits]; exact merges.recorded }

/-- An event that is neither an edit nor a request. -/
theorem note {event : Event} (edited : ∀ target change, event ≠ .edited target change)
    (asked : ∀ request, event ≠ .asked request) : Guarded start (note event now).2 := by
  apply guarded.noted (.note now event) rfl rfl rfl (List.forall_mem_singleton.2 edited)
  exact fun _ _ member => absurd (List.mem_singleton.1 member).symm (asked _)

/-- A container gives up what it has lost. -/
theorem sheds {container : ObjectId} {kept leftovers : List Value} (shed : Sheds container kept leftovers now after) :
    Guarded start after := by
  obtain ⟨events, journal, given⟩ := shed.events
  refine guarded.noted shed.later shed.heap shed.visits journal ?_ ?_
  · rintro event member target change rfl
    obtain ⟨entity, ⟨⟩, -⟩ := given _ member
  · intro source target member
    obtain ⟨entity, ⟨⟩, -⟩ := given _ member

/-- A first visit that merges nothing. -/
theorem record {source : ObjectId} (unvisited : now.visits.get? source = none) {counterpart : Value}
    (apart : ∀ target entity, counterpart = .object target → start.heap.Holds source →
      start.handler? source = none → start.IsEntity target entity → source = target) :
    Guarded start (record source counterpart now).2 := by
  apply guarded.of_locked (guarded.toLocked.record unvisited counterpart) (.record now unvisited counterpart)
  intro other target entity merges
  have recorded := merges.recorded
  change (now.visits.record source counterpart).get? other = some (.object target) at recorded
  rw [Visits.get?_record] at recorded
  split at recorded
  · next same =>
    subst same
    exact absurd (apart target entity (Option.some.inj recorded) merges.held merges.unhandled merges.managed)
      merges.distinct
  · exact { merges with recorded }

theorem allocate {source : ObjectId} (handled : now.handler? source ≠ none) :
    Guarded start (allocate (now.heap.node source).emptyLike now).2 :=
  guarded.of_locked (guarded.toLocked.allocate handled) (.allocate now _) fun _ _ _ merges => { merges with }

theorem edit {target : ObjectId} {change : Edit} (other : ∀ origin, change ≠ .setOrigin origin)
    (spares : start.heap.Holds target → ∀ name, start.Locks target name → change.assigns? name = none)
    (admits : ∀ entity version name value, start.IsEntity target entity → entity.versionProperty? = some version →
      change.assigns? name = some value → ∃ source begun, start.Admits now.journal begun source target version) :
    Guarded start (edit target change now).2 :=
  guarded.of_locked (guarded.toLocked.edit other spares admits) (.edit now target other)
    fun _ _ _ merges => { merges with }

/-- An edit that assigns no attribute. -/
theorem edit_spared {change : Edit} (target : ObjectId) (other : ∀ origin, change ≠ .setOrigin origin)
    (spares : ∀ name, change.assigns? name = none) : Guarded start (Action.edit target change now).2 := by
  refine guarded.edit other (fun _ name _ => spares name) fun _ _ name _ _ _ assigned => ?_
  cases (spares name).symm.trans assigned

theorem fill {handler : Handler} {change : Edit} (copy : ObjectId) (fills : handler.Fills change) :
    Guarded start (Action.edit copy change now).2 :=
  guarded.edit_spared copy fills.ne_setOrigin fills.assigns?_eq

theorem refill {handler : Handler} {change : Edit} (target : ObjectId) (refills : handler.Refills change) :
    Guarded start (Action.edit target change now).2 :=
  guarded.edit_spared target refills.ne_setOrigin refills.assigns?_eq

end Guarded

/-- An object has just been recorded with its counterpart, and nothing else was done since that was asked for. -/
structure Pending (start : World) (source target : ObjectId) (begun : List Event) (now : World) : Prop
    extends Locked start now where
  journal : now.journal = .asked (.ofPair source target) :: begun
  first : .asked (.ofPair source target) ∉ begun
  recorded : now.visits.get? source = some (.object target)
  others : ∀ other counterpart entity version, other ≠ source → start.Merges now other counterpart entity →
    (start.heap.node other).isBean = true → entity.versionProperty? = some version →
    ∃ begun, World.Begins now.journal begun other counterpart ∧
      ¬ start.Outdated begun other counterpart entity version

namespace Pending

variable {start now : World} {source target : ObjectId} {begun : List Event}

/-- The first visit of an object. -/
theorem of_paired {after : World} (guarded : Guarded start now) (later : now.Later after)
    (paired : Episode.Paired source (.object target) (.ofPair source target) now after) :
    Pending start source target now.journal after := by
  have recorded : after.visits.get? source = some (.object target) :=
    paired.visits ▸ Visits.get?_record_self ..
  constructor
  · refine guarded.toLocked.noted later paired.heap paired.journal (List.forall_mem_singleton.2 fun _ _ => nofun) ?_
    intro other counterpart member
    cases List.mem_singleton.1 member
    exact recorded ▸ Option.some_ne_none _
  · exact paired.journal
  · exact fun asked => guarded.visited source target asked paired.unvisited
  · exact recorded
  · intro other counterpart entity version different merges bean versioned
    have before := merges.recorded
    rw [paired.visits, Visits.get?_record, if_neg (Ne.symm different)] at before
    obtain ⟨begun, begins, passed⟩ :=
      guarded.merges other counterpart entity version { merges with recorded := before } bean versioned
    exact ⟨begun, begins.later later, passed⟩

variable (pending : Pending start source target begun now)

include pending

theorem of_same {after : World} (later : now.Later after) (heap : after.heap = now.heap)
    (visits : after.visits = now.visits) (journal : after.journal = now.journal) :
    Pending start source target begun after := by
  constructor
  · exact pending.toLocked.of_same later heap journal
  · exact journal.trans pending.journal
  · exact pending.first
  · rw [visits]
    exact pending.recorded
  · intro other counterpart entity version different merges
    rw [journal]
    apply pending.others other counterpart entity version different
    exact { merges with recorded := by rw [← visits]; exact merges.recorded }

private theorem begins : World.Begins now.journal begun source target where
  asked := pending.journal ▸ List.suffix_refl _
  first := pending.first

private theorem target_eq {counterpart : ObjectId} {entity : Entity}
    (merges : start.Merges now source counterpart entity) : counterpart = target := by
  have same := pending.recorded.symm.trans merges.recorded
  cases same
  rfl

/-- The comparison is passed, or there is nothing to compare. -/
theorem guarded (passed : ∀ entity version, start.Merges now source target entity →
    (start.heap.node source).isBean = true → entity.versionProperty? = some version →
    ¬ start.Outdated begun source target entity version) : Guarded start now := by
  constructor
  · exact pending.toLocked
  · intro other counterpart entity version merges bean versioned
    by_cases same : other = source
    · subst same
      obtain rfl := pending.target_eq merges
      exact ⟨begun, pending.begins, passed entity version merges bean versioned⟩
    · exact pending.others other counterpart entity version same merges bean versioned

/-- The run fails, and with both versions if it has to. -/
theorem refused {ending : Ending} (mismatch : ∀ entity version, start.Merges now source target entity →
    (start.heap.node source).isBean = true → entity.versionProperty? = some version →
    start.Outdated begun source target entity version →
      start.Refuses begun source target version ending now.journal) : Refused start ending now := by
  constructor
  · exact pending.toLocked
  · intro other counterpart entity version merges bean versioned
    by_cases same : other = source
    · subst same
      obtain rfl := pending.target_eq merges
      exact ⟨begun, pending.begins, mismatch entity version merges bean versioned⟩
    · obtain ⟨begun, begins, passed⟩ := pending.others other counterpart entity version same merges bean versioned
      exact ⟨begun, begins, fun outdated => absurd outdated passed⟩

/-- What the source carries is what it carried when the request was made. -/
theorem attr_source (unhandled : now.handler? source = none) (name : String) :
    (now.heap.node source).attr name = (start.nodeAfter source begun).attr name := by
  rw [pending.attr_eq unhandled, pending.journal]
  rfl

theorem attr_target (held : start.heap.Holds target) (name : String) :
    (now.heap.node target).attr name = (start.nodeAfter target begun).attr name := by
  rw [pending.nodes target held, pending.journal]
  rfl

end Pending

end Reconciler
