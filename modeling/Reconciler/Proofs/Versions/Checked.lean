import Mathlib.Data.List.Infix
import Reconciler.Proofs.Versions

/-! # No version is bypassed

Containers are refilled by edits that assign no attribute, so all that matters is how properties are merged: right after
an object was recorded with its counterpart their versions are compared, and only then is a property written. What
is asked for in between may bring other objects onto other entities, but the request that is being answered is the
same again whenever a property is written.
-/

namespace Reconciler

open Reconciler.Action

/-- Raw attributes are read as versions as they are. -/
theorem World.version_of_allFields {world : World} {metadata : Metadata} (fields : metadata.AllFields) {id : ObjectId}
    {property : String} {value : Value} (read : world.version metadata id property = .ok value) :
    value = (world.heap.node id).attr property := by
  unfold version at read
  split at read
  · next declared =>
    obtain ⟨access, known⟩ := Option.isSome_iff_exists.1 declared
    obtain rfl := fields.access?_eq known
    exact Property.read_of_field known read
  · exact (Except.ok.inj read).symm

/-- Beans have versions that can be read. -/
theorem World.version_ne_error {world : World} {metadata : Metadata} (fields : metadata.AllFields) {id : ObjectId}
    (bean : (world.heap.node id).isBean = true) {property : String} (error : PropertyError) :
    world.version metadata id property ≠ .error error := by
  unfold version
  split
  · next declared =>
    obtain ⟨access, known⟩ := Option.isSome_iff_exists.1 declared
    obtain rfl := fields.access?_eq known
    rw [Property.read_field known bean]
    nofun
  · nofun

/-- The source carried the version of the target, if that has one. -/
def World.Agree (start : World) (begun : List Event) (source target : ObjectId) (version : String) : Prop :=
  start.heap.Holds target → (start.heap.node target).attr version ≠ .null →
    (start.nodeAfter source begun).attr version = (start.heap.node target).attr version

private theorem World.MayFail.earlier {start now : World} {operation : StoreOperation} {error : StoreError}
    (fails : now.MayFail operation error) (later : start.Later now) : start.MayFail operation error :=
  fails.imp (fun fault => later.store.faults ▸ fault) (later.outages.suffix operation).mem

section Comparison

variable {setting : Setting} {start now middle : World} {source target : ObjectId} {begun : List Event}
  {entity : Entity}

/-- All properties of the objects that there are are raw attributes. -/
def World.Raw (start : World) (setting : Setting) : Prop :=
  ∀ id, start.heap.Holds id → ∀ metadata, start.metadata? setting id = some metadata → metadata.AllFields

private theorem World.Raw.metadataFor (raw : start.Raw setting) (later : start.Later now)
    (held : start.heap.Holds target) :
    (now.metadataFor setting target entity).AllFields := by
  rcases known : now.metadata? setting target with _ | metadata
  · rw [World.metadataFor, known]
    exact fun _ => nofun
  · rw [World.metadataFor, known]
    rcases later.metadata?_cases held known with declared | rfl
    · exact raw target held metadata declared
    · exact Metadata.allFields_introspect _

namespace Pending

variable (pending : Pending start source target begun middle)

include pending

/-- What is merged is merged into the entity that the target was from the start. -/
theorem isEntity (managed : middle.store.entity? (middle.heap.node target).type = some entity)
    (held : start.heap.Holds target) : start.IsEntity target entity := by
  rw [pending.later.entity?_eq held] at managed
  exact ⟨held, managed⟩

variable (managed : middle.store.entity? (middle.heap.node target).type = some entity)

include managed

/-- A failure has to be the mismatch only if the object is outdated. -/
theorem refused_of_outdated {ending : Ending} (mismatch : ∀ version, entity.versionProperty? = some version →
    start.heap.Holds target → (start.heap.node source).isBean = true →
      start.Outdated begun source target entity version →
        start.Refuses begun source target version ending middle.journal) : Refused start ending middle := by
  apply pending.refused
  intro other version merges bean versioned outdated
  obtain rfl := (pending.isEntity managed merges.managed.1).unique merges.managed
  exact mismatch version versioned merges.managed.1 bean outdated

variable (checks : setting.config.checkVersion = true) (raw : start.Raw setting)
  (unhandled : middle.handler? source = none)

include checks raw unhandled

/-- An object that is refused is refused with both versions, unless another reason comes first, and none of these
applies to one that has to be refused. -/
theorem refused_of_refusal (since : start.Later now) {ending : Ending}
    (refusal : Refusal setting now middle source target entity ending) : Refused start ending middle := by
  have checked_eq : checkedVersion? setting entity = entity.versionProperty? := if_pos checks
  apply pending.refused_of_outdated managed
  intro version versioned held bean outdated
  have fields : (middle.metadataFor setting target entity).AllFields := raw.metadataFor pending.later held
  have present : (middle.heap.node target).attr version = (start.heap.node target).attr version :=
    pending.attr_of_locks held ((pending.isEntity managed held).locks versioned)
  cases refusal with
  | unavailable fails => exact ⟨.inr ⟨_, fails.earlier since, rfl⟩, pending.journal⟩
  | unidentified null =>
    have null : (middle.heap.node target).attr entity.idProperty = .null :=
      (Value.isNull_iff _).1 (by simpa [Entity.identifier?] using null)
    rw [pending.attr_target held] at null
    exact absurd null outdated.identified
  | unloaded unloaded =>
    rw [pending.later.heap.origin_eq target held nofun, outdated.loaded] at unloaded
    cases unloaded
  | unreadable checked either unread =>
    refine absurd unread (World.version_ne_error fields ?_ _)
    rcases either with rfl | rfl
    · rcases other : (middle.heap.node _).isBean with _ | _
      · obtain rfl := Option.some.inj (versioned.symm.trans (checked_eq.symm.trans checked))
        exact absurd (present.symm.trans (Node.attr_of_notBean other version)) outdated.versioned
      · rfl
    · exact pending.isBean_of_start bean
  | outdated checked read brought significant differs =>
    obtain rfl := Option.some.inj (versioned.symm.trans (checked_eq.symm.trans checked))
    refine ⟨.inl ?_, pending.journal⟩
    rw [(World.version_of_allFields fields read).trans present, pending.later.heap.type_eq target held,
      (World.version_of_allFields fields brought).trans (pending.attr_source unhandled version)]

omit unhandled in
/-- Objects that are merged agree in their versions. -/
theorem agree {metadata : Metadata} (merging : Merging setting middle source target entity metadata) (version : String)
    (versioned : entity.versionProperty? = some version) : start.Agree begun source target version := by
  intro held significant
  have checked : checkedVersion? setting entity = some version := (if_pos checks).trans versioned
  obtain ⟨current, carried, read, brought, fits⟩ := merging.version version checked
  have fields : metadata.AllFields := merging.metadata_eq ▸ raw.metadataFor pending.later held
  have present := pending.attr_of_locks held ((pending.isEntity managed held).locks versioned)
  rw [← (World.version_of_allFields fields read).trans present] at significant ⊢
  rw [fits significant, World.version_of_allFields fields brought, pending.attr_source merging.unhandled]

end Pending

end Comparison

/-- Properties are merged after the comparison of versions, right after that was asked for. -/
structure Merger.Admits (merger : Merger) (start : World) (begun : List Event) (middle : World) : Prop where
  entered : .walked merger.source :: .asked (.ofPair merger.source merger.target) :: begun <:+ middle.journal
  isEntity : start.heap.Holds merger.target → start.IsEntity merger.target merger.entity
  fields : start.heap.Holds merger.target → merger.metadata.AllFields
  agree : ∀ version, merger.entity.versionProperty? = some version →
    start.Agree begun merger.source merger.target version

namespace Merger.Admits

variable {merger : Merger} {start middle after : World} {begun : List Event}
  (admits : merger.Admits start begun middle)

include admits

private theorem later (later : middle.Later after) : merger.Admits start begun after :=
  { admits with entered := admits.entered.trans later.journal }

variable (guarded : Guarded start middle)
  (level : openRequests middle.journal = .ofPair merger.source merger.target :: openRequests begun)

include guarded level

/-- An edit of the target may follow. -/
theorem admits_edit {version : String} (held : start.heap.Holds merger.target)
    (versioned : merger.entity.versionProperty? = some version) :
    start.Admits middle.journal begun merger.source merger.target version := by
  have agreed := admits.agree version versioned held
  have before : begun <:+ middle.journal :=
    ((List.suffix_cons _ _).trans (List.suffix_cons _ _)).trans admits.entered
  constructor
  · rw [level]
    rfl
  · exact admits.entered
  · exact agreed
  · intro significant locks
    by_cases held : start.heap.Holds merger.source
    · have kept := guarded.kept merger.source version held locks
      rw [kept _ (List.suffix_refl _), ← kept begun before]
      exact agreed significant
    · have null := World.attr_nodeAfter_of_not_holds held begun version
      exact absurd ((agreed significant).symm.trans null) significant

/-- A property other than the version is written. -/
theorem write {property : String} (unchecked : merger.entity.versionProperty? ≠ some property) {value : Value}
    {change : Edit} (made : Property.Edits middle.heap merger.metadata merger.target property value change) :
    Guarded start (edit merger.target change middle).2 := by
  have raw_change : start.heap.Holds merger.target → change = .setAttribute property value := by
    intro held
    rcases made.cases.2 with ⟨-, same⟩ | ⟨_, _, declared, -⟩
    · exact same
    · cases (admits.fields held).access?_eq declared
  apply guarded.edit fun origin => made.ne_setOrigin origin
  · intro held name locks
    rw [raw_change held, Edit.assigns?]
    apply if_neg
    rintro rfl
    exact unchecked (locks merger.entity (admits.isEntity held))
  · intro own version name _ known versioned _
    obtain rfl := (admits.isEntity known.1).unique known
    exact ⟨merger.source, begun, admits.admits_edit guarded level known.1 versioned⟩

end Merger.Admits

namespace Episode

variable {setting : Setting} {request inner : Request} {phase next : Phase} {start now middle after : World}
  {source : ObjectId}

/-- What is known of versions in a phase of an episode that begins when no version has been bypassed. -/
def Watched (setting : Setting) (start now after : World) : Phase → Prop
  | .opened => True
  | .paired source counterpart =>
      (∃ target, counterpart = .object target ∧ Pending start source target now.journal after) ∨
        (∀ target, counterpart ≠ .object target) ∧ Guarded start after
  | .busy _ _ | .settled | .replied _ => Guarded start after
  | .merging merger _ => Guarded start after ∧ merger.Admits start now.journal after
  | .taking merger _ transfer _ => Guarded start after ∧ merger.Admits start now.journal after ∧
      checkedVersion? setting merger.entity ≠ some transfer.property
  | .failed ending => Refused start ending after

section Opened

variable (guarded : Guarded start now)

include guarded

/-- A request that is no longer about an object without a counterpart. -/
theorem guarded_of_opened (opened : Episode setting request .opened now middle)
    (treated : ∀ source target, request = .applyTo (.object source) (.object target) →
      middle.visits.get? source ≠ none) : Guarded start middle := by
  have fresh := opened.reaches
  have journal : middle.journal = [.asked request] ++ now.journal := fresh.journal
  apply guarded.noted opened.later fresh.heap fresh.visits journal
  · exact List.forall_mem_singleton.2 fun _ _ => nofun
  · intro source target member
    exact treated source target (Event.asked.inj (List.mem_singleton.1 member)).symm

private theorem guarded_of_apply (opened : Episode setting request .opened now middle) {value : Value}
    (requested : request = .apply value) : Guarded start middle := by
  refine guarded_of_opened guarded opened ?_
  rintro source target rfl
  cases requested

private theorem guarded_of_fragile (opened : Episode setting request .opened now middle)
    (fragile : Phase.opened.Fragile request) : Guarded start middle := by
  obtain ⟨source, requested⟩ := fragile
  exact guarded_of_apply guarded opened requested

end Opened

/-- What has a handler gets a copy, and is not merged. -/
theorem guarded_rebuilding (guarded : Guarded start middle) (handled : middle.handler? source ≠ none)
    (unvisited : middle.visits.get? source = none) : Guarded start (middle.rebuilding source) := by
  have before : start.heap.Holds source → start.handler? source ≠ none := by
    intro held
    rw [← guarded.later.handler?_eq held]
    exact handled
  have recorded : Guarded start (record source (.object middle.heap.fresh)
      (allocate (middle.heap.node source).emptyLike middle).2).2 :=
    (guarded.allocate handled).record unvisited fun _ _ _ held unhandled _ => absurd unhandled (before held)
  exact recorded.note (fun _ _ => nofun) fun _ => nofun

/-- The comparison is passed if there is nothing to merge. -/
theorem guarded_of_paired {counterpart : Value}
    (watched : Watched setting start now middle (.paired source counterpart))
    (idle : ∀ target entity, counterpart = .object target → start.Merges middle source target entity → False) :
    Guarded start middle := by
  rcases watched with ⟨target, rfl, pending⟩ | ⟨-, guarded⟩
  · exact pending.guarded fun entity version merges _ _ _ => idle target entity rfl merges
  · exact guarded

section Moves

variable (checks : setting.config.checkVersion = true)

include checks

/-- A property is written that is being taken over. -/
private theorem Watched.write {merger : Merger} {done : List String} {transfer : Transfer} {merged value : Value}
    {change : Edit} (watched : Watched setting start now middle (.taking merger done transfer merged))
    (episode : Episode setting request (.taking merger done transfer merged) now middle)
    (made : Property.Edits middle.heap merger.metadata merger.target transfer.property value change) :
    Guarded start (edit merger.target change middle).2 := by
  obtain ⟨guarded, admits, unchecked⟩ := watched
  rw [checkedVersion?, if_pos checks] at unchecked
  have level := Eq.trans episode.level (congrArg (· :: openRequests now.journal) episode.reaches.1)
  exact admits.write guarded level unchecked made

variable (raw : start.Raw setting)

include raw

/-- What is done next bypasses no version. -/
theorem Watched.move (watched : Watched setting start now middle phase) (guarded : Guarded start now)
    (reconciling : request.Reconciling) (episode : Episode setting request phase now middle)
    (move : Move setting request now phase middle next after) : Watched setting start now after next := by
  have later := move.later
  have reached := episode.reaches
  cases move with
  | @idle phase middle searching dispatch cache outages registry schema spent =>
    cases phase with
    | opened => trivial
    | paired source counterpart =>
      rcases watched with ⟨target, refers, pending⟩ | ⟨other, guarded⟩
      · exact .inl ⟨target, refers, pending.of_same later rfl rfl rfl⟩
      · exact .inr ⟨other, guarded.of_same later rfl rfl rfl⟩
    | busy => exact Guarded.of_same watched later rfl rfl rfl
    | _ => exact searching.elim
  | flushed detaches | allocated detaches | detached detaches => exact absurd detaches reconciling.not_detaches
  | walked => exact Guarded.note watched (fun _ _ => nofun) fun _ => nofun
  | @pairing source counterpart middle requested unvisited =>
    have paired := episode.moved (.pairing requested unvisited)
    by_cases refers : ∃ target, counterpart = .object target
    · obtain ⟨target, rfl⟩ := refers
      subst requested
      exact .inl ⟨target, rfl, .of_paired guarded paired.later paired.reaches⟩
    · have other : ∀ target, counterpart ≠ .object target := fun target same => refers ⟨target, same⟩
      have opened : Guarded start middle := by
        apply guarded_of_opened guarded episode
        intro _ target same
        cases requested.symm.trans same
        exact absurd rfl (other target)
      exact .inr ⟨other, opened.record unvisited fun target _ same => absurd same (other target)⟩
  | rebuilding alone unvisited =>
    obtain ⟨asked, handled⟩ := alone.applied reconciling
    exact guarded_rebuilding (guarded_of_apply guarded episode asked) handled unvisited
  | copied alone unvisited handled plain =>
    obtain ⟨asked, handled⟩ := alone.applied reconciling
    have rebuilt := guarded_rebuilding (guarded_of_apply guarded episode asked) handled unvisited
    exact rebuilt.fill _ (.slots _)
  | standing alone unvisited unhandled =>
    obtain ⟨asked, unmanaged⟩ := alone.applied reconciling
    refine (guarded_of_apply guarded episode asked).record unvisited ?_
    rintro target entity ⟨⟩ - - -
    rfl
  | handled handled =>
    refine guarded_of_paired watched fun target entity _ merges => handled ?_
    exact ((guarded.later.trans episode.later).handler?_eq merges.held).trans merges.unhandled
  | apart unhandled apart =>
    refine guarded_of_paired watched fun target entity refers merges => ?_
    rcases apart with rfl | unmanaged
    · exact merges.distinct (Value.object.inj refers)
    · have missing := unmanaged target refers
      rw [(guarded.later.trans episode.later).entity?_eq merges.managed.1, merges.managed.2] at missing
      cases missing
  | refused unhandled managed distinct refusal =>
    rcases watched with ⟨target, refers, pending⟩ | ⟨other, -⟩
    · cases refers
      exact pending.refused_of_refusal managed checks raw unhandled guarded.later refusal
    · exact absurd rfl (other _)
  | @merging source target middle entity metadata merging =>
    rcases watched with ⟨target, refers, pending⟩ | ⟨other, -⟩
    · cases refers
      have entity_eq := pending.isEntity merging.managed
      have agree := pending.agree merging.managed checks raw merging
      have passed : Guarded start middle := by
        apply pending.guarded
        intro other version merges _ versioned outdated
        obtain rfl := (entity_eq merges.managed.1).unique merges.managed
        exact outdated.differs (agree version versioned merges.managed.1 outdated.versioned)
      refine ⟨passed.note (fun _ _ => nofun) fun _ => nofun, ?_⟩
      constructor
      · exact pending.journal ▸ List.suffix_refl _
      · exact entity_eq
      · exact fun held => merging.metadata_eq ▸ raw.metadataFor pending.later held
      · exact agree
    · exact absurd rfl (other _)
  | filled new fills partly supplied => exact Guarded.fill watched _ fills
  | slotted requested handled index supplied => exact Guarded.refill watched _ (.slot index _)
  | closed kept => exact watched
  | refilled requested handled whole loaded refills elements images made drawn lost =>
    have shed := sheds_of_discardLeftovers lost
    exact (Guarded.sheds watched shed).refill _ refills
  | spared carried present idle => exact watched
  | unchanged same => exact ⟨watched.1, watched.2.1⟩
  | written changed made => exact ⟨watched.write checks episode (.of_write made), watched.2.1.later later⟩
  | merged all => exact watched.1
  | passed treated => exact guarded_of_opened guarded episode treated
  | replied yields => exact Guarded.note watched (fun _ _ => nofun) fun _ => nofun
  | missing requested absent => exact (guarded_of_apply guarded episode requested).refused _
  | @stopped phase middle fragile ending other =>
    cases phase with
    | opened => exact (guarded_of_fragile guarded episode fragile).refused _
    | busy => exact Guarded.refused watched _
    | merging | taking => exact watched.1.refused _
    | _ => exact fragile.elim
  | rejected changed made => exact (watched.write checks episode made).refused _
  | interrupted lost => exact (Guarded.sheds watched (sheds_of_discardLeftovers lost)).refused _

omit checks raw in
/-- A request is made when no version has been bypassed. -/
theorem Watched.called {further : Value → Phase} (watched : Watched setting start now middle phase)
    (guarded : Guarded start now) (episode : Episode setting request phase now middle)
    (call : Subrequest setting request now phase middle inner further) : Guarded start middle := by
  cases call with
  | part => exact watched
  | found requested stored => exact guarded_of_apply guarded episode requested
  | property => exact watched.1

/-- An episode bypasses no version. -/
theorem watched (episode : Episode setting request phase now after) (guarded : Guarded start now)
    (reconciling : request.Reconciling) : Watched setting start now after phase := by
  induction episode with
  | exhausted => exact guarded.refused _
  | asked => trivial
  | moved episode move ih => exact (ih guarded reconciling).move checks raw guarded reconciling episode move
  | called episode call answered ih inner =>
    have watched := ih guarded reconciling
    have ahead := inner (watched.called guarded episode call) (call.reconciling reconciling)
    cases call with
    | part => exact ahead
    | found => exact ahead
    | property reading =>
      rename_i merger done _ property value current
      exact ⟨ahead, watched.2.later answered.later, reading.unchecked⟩
  | broken episode call failed ih inner =>
    exact inner ((ih guarded reconciling).called guarded episode call) (call.reconciling reconciling)

end Moves

end Episode

/-- Nothing has been done before a run. -/
theorem Guarded.rested (world : World) : Guarded world.rested world.rested := by
  constructor
  · constructor
    · exact .refl world.rested
    · exact fun _ _ => rfl
    · exact fun id held new => absurd held new
    · intro id name _ _ earlier before
      rw [List.suffix_nil.1 before]
      rfl
    · intro target change earlier edited
      cases List.suffix_nil.1 edited
    · exact fun _ _ => nofun
  · intro source target entity version merges
    cases merges.recorded

section Outcomes

variable {setting : Setting} {world : World} {outcome : Except Ending Value × World}

/-- A run bypasses no version, whether it answers or fails. -/
theorem Reconciliation.guarded (run : Reconciliation setting world outcome)
    (checks : setting.config.checkVersion = true) (raw : world.Raw setting) :
    (∀ result, outcome.1 = .ok result → Guarded world.rested outcome.2) ∧
      ∀ ending, outcome.1 = .error ending → Refused world.rested ending outcome.2 := by
  have start := Guarded.rested world
  have raw : world.rested.Raw setting := raw
  rcases run.episode with ⟨error, rfl⟩ | ⟨request, reconciling, answers, fails⟩
  · exact ⟨nofun, fun ending _ => start.refused ending⟩
  · exact ⟨fun result answered => (answers result answered).watched checks raw start reconciling,
      fun ending failed => (fails ending failed).watched checks raw start reconciling⟩

/-- What a run that compares versions does to an entity that has one. -/
structure World.ChecksVersion (start : World) (outcome : Except Ending Value × World) (target : ObjectId)
    (entity : Entity) (version : String) : Prop where
  /-- The version is the same after the run. -/
  kept : (outcome.2.heap.node target).attr version = (start.heap.node target).attr version
  /-- The journal tells what the objects have become. -/
  told : ∀ id, start.heap.Holds id → outcome.2.heap.node id = start.nodeAfter id outcome.2.journal
  /-- The version is the same all along the run. -/
  constant : ∀ earlier, earlier <:+ outcome.2.journal →
    (start.nodeAfter target earlier).attr version = (start.heap.node target).attr version
  /-- An attribute is only written while an object of the same version is brought onto the entity. -/
  admitted : ∀ change earlier name value, .edited target change :: earlier <:+ outcome.2.journal →
    change.assigns? name = some value → ∃ source begun, start.Admits earlier begun source target version
  /-- An object of another version makes the run fail before anything is written from it. -/
  refused : ∀ source, start.Merges outcome.2 source target entity → (start.heap.node source).isBean = true →
    ∃ begun, Begins outcome.2.journal begun source target ∧
      (start.Outdated begun source target entity version →
        (∃ ending, outcome.1 = .error ending ∧
          start.Refuses begun source target version ending outcome.2.journal) ∧
        ∀ change earlier, .edited target change :: earlier <:+ outcome.2.journal →
          .ofPair source target ∉ openRequests earlier)

/-- No run bypasses the version of an entity. -/
theorem Reconciliation.versions_checked (run : Reconciliation setting world outcome)
    (checks : setting.config.checkVersion = true)
    (fields : ∀ id, world.heap.Holds id → ∀ metadata, world.metadata? setting id = some metadata →
      metadata.AllFields)
    {target : ObjectId} {entity : Entity} {version : String} (managed : world.rested.IsEntity target entity)
    (versioned : entity.versionProperty? = some version) :
    world.rested.ChecksVersion outcome target entity version := by
  obtain ⟨passed, failed⟩ := run.guarded checks fields
  have locked : Locked world.rested outcome.2 := by
    rcases ended : outcome.1 with ending | result
    · exact (failed ending ended).toLocked
    · exact (passed result ended).toLocked
  have locks := managed.locks versioned
  constructor
  · exact locked.attr_of_locks managed.1 locks
  · exact locked.nodes
  · exact locked.kept target version managed.1 locks
  · intro change earlier name value edited assigned
    exact locked.admitted target change earlier edited entity version name value managed versioned assigned
  · intro source merges bean
    rcases ended : outcome.1 with ending | result
    · obtain ⟨begun, begins, refuses⟩ :=
        (failed ending ended).refuses source target entity version merges bean versioned
      refine ⟨begun, begins, fun outdated => ⟨⟨ending, rfl, refuses outdated⟩, ?_⟩⟩
      intro change earlier edited waiting
      -- An edit comes before the request was made, and that was made once.
      rw [(refuses outdated).nothing_else] at edited
      have before := (List.suffix_cons_iff.1 edited).resolve_left nofun
      exact begins.first (before.mem (List.mem_cons_of_mem _ (asked_of_mem_openRequests waiting)))
    · obtain ⟨begun, begins, passes⟩ := (passed result ended).merges source target entity version merges bean versioned
      exact ⟨begun, begins, fun outdated => absurd outdated passes⟩

end Outcomes

namespace Ledgers

def schema : Schema :=
  ⟨[{ name := ⟨"Account"⟩, properties := .ofList [("id", .field), ("version", .field), ("owner", .field)] }]⟩

def account (version : Int64) (owner : String) : Node :=
  .bean ⟨"Account"⟩ [("id", .int 1), ("version", .int version), ("owner", .text owner)]

private theorem schema_allFields : schema.AllFields := by
  intro decl declared
  obtain rfl := List.mem_singleton.1 declared
  exact OrderedMap.forall_ofList (fun access : Access => access = .field) (by simp)

def entity : Entity := { type := ⟨"Account"⟩, idProperty := "id", versionProperty? := some "version" }

/-- A stored account of version 3, and a list with a copy of that version and one of version 2. -/
def world : World where
  heap := ⟨#[{ account 3 "Ada" with origin := .stored }, .list [.object ⟨2⟩, .object ⟨3⟩],
    account 3 "Grace", account 2 "Eve"]⟩
  store := { entities := .ofList [(⟨"Account"⟩, entity)], stored := [⟨0⟩] }
  dispatch := .ofRegistry (.withDefaults schema)
  cache := .ofSchema schema

def setting : Setting := { schema }

def outcome : Except Ending Value × World := setting.apply (.object ⟨1⟩) world.rested

/-- The first copy is taken over, and the second one makes the run fail. -/
theorem stale_copy_refused :
    setting.config.checkVersion = true ∧ world.rested.IsEntity ⟨0⟩ entity ∧
      world.rested.ChecksVersion outcome ⟨0⟩ entity "version" ∧
      (outcome.2.heap.node ⟨0⟩).attr "owner" = .text "Grace" ∧
      outcome.1 = .error (.failed (.versionMismatch ⟨"Account"⟩ "version" (.int 2) (.int 3))) := by
  have run : Reconciliation setting world outcome := .apply (.object ⟨1⟩)
  have managed : world.rested.IsEntity ⟨0⟩ entity := ⟨by decide, by decide +kernel⟩
  have checked : world.rested.ChecksVersion outcome ⟨0⟩ entity "version" := by
    apply run.versions_checked rfl _ managed rfl
    exact fun id _ metadata known => World.allFields_of_metadata? rfl schema_allFields known
  have merges : world.rested.Merges outcome.2 ⟨3⟩ ⟨0⟩ entity :=
    ⟨by decide +kernel, by decide, by decide, by decide +kernel, managed⟩
  obtain ⟨begun, begins, refused⟩ := checked.refused ⟨3⟩ merges rfl
  -- The copy carries version 2 at any time.
  have always : ∀ earlier ∈ outcome.2.journal.tails, (world.rested.nodeAfter ⟨0⟩ earlier).attr "id" ≠ .null ∧
      (world.rested.nodeAfter ⟨3⟩ earlier).attr "version" = .int 2 := by
    decide +kernel
  obtain ⟨identified, carried⟩ := always begun ((List.mem_tails _ _).2 ((List.suffix_cons _ _).trans begins.asked))
  have differs : (world.rested.nodeAfter ⟨3⟩ begun).attr "version" ≠ (world.rested.heap.node ⟨0⟩).attr "version" := by
    rw [carried]
    decide +kernel
  obtain ⟨⟨ending, ended, refuses⟩, -⟩ :=
    refused ⟨by decide +kernel, identified, by decide +kernel, differs⟩
  have mismatch := refuses.mismatch (by rintro error (never | never) <;> cases never)
  refine ⟨rfl, managed, checked, by decide +kernel, ?_⟩
  rw [ended, mismatch, carried]
  rfl

end Ledgers

end Reconciler
