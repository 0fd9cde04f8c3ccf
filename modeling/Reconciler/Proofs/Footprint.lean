import Reconciler.Proofs.Clone
import Reconciler.Proofs.Identifiers
import Reconciler.Proofs.References

/-! # What a reconciliation may touch

An object that was there before changes in two ways only: as the counterpart of an object with a handler it is
refilled, and as an entity it gets a property. So a bean that is no entity stays as it is, an entity keeps what its
metadata does not list, and a container stays as it is unless the run was asked to bring something onto it. A run
that fails has done no more than that.
-/

namespace Reconciler

open Reconciler.Action

/-- A raw attribute, if the object has one of that name. -/
def Node.attribute? (node : Node) (name : String) : Option Value :=
  node.attributes?.bind (·.get? name)

/-- Setting an attribute sets no other one. -/
theorem Node.attribute?_setAttribute (node : Node) {property name : String} (other : property ≠ name) (value : Value) :
    (node.edited (.setAttribute property value)).attribute? name = node.attribute? name := by
  rcases node with ⟨type, origin, content⟩
  cases content with
  | bean attributes => exact (OrderedMap.get?_insert attributes property name value).trans (if_neg other)
  | _ => rfl

/-- A key is found exactly if it is listed. -/
theorem OrderedMap.get?_ne_none_iff {κ ν : Type} [DecidableEq κ] {map : OrderedMap κ ν} {key : κ} :
    map.get? key ≠ none ↔ key ∈ map.keys := by
  rw [get?, Ne, Option.map_eq_none_iff, List.find?_eq_none]
  simp [keys]

/-- Introspection lists the attributes that an object has. -/
theorem Metadata.mem_names_introspect {node : Node} {name : String} :
    name ∈ (Metadata.introspect node).names ↔ node.attribute? name ≠ none := by
  have names : (Metadata.introspect node).names = (node.attributes?.map OrderedMap.keys).getD [] := by
    simp [Metadata.names, introspect, OrderedMap.keys, Function.comp_def]
  rw [names, Node.attribute?]
  rcases node.attributes? with _ | attributes
  · simp
  · exact OrderedMap.get?_ne_none_iff.symm

/-- If an object has kept all other attributes, a run uses no properties of it but those that it listed before. -/
theorem World.Later.mem_names {setting : Setting} {start now : World} (later : start.Later now) {id : ObjectId}
    (held : start.heap.Holds id) (bean : (start.heap.node id).isBean = true)
    (kept : ∀ name ∉ start.names setting id, (now.heap.node id).attribute? name = (start.heap.node id).attribute? name)
    {property : String} (listed : property ∈ now.names setting id) : property ∈ start.names setting id := by
  by_contra absent
  have type := later.heap.type_eq id held
  simp only [names, metadata?, type, later.schema] at listed absent kept
  rcases declared : (setting.overrides.get? (start.heap.node id).type).or
      (start.cache.schema.metadata? (start.heap.node id).type) with _ | metadata
  · simp only [← Option.or_assoc, declared, Option.none_or, if_pos bean] at listed absent kept
    split at listed
    · have had := Metadata.mem_names_introspect.1 listed
      rw [kept property absent] at had
      exact absent (Metadata.mem_names_introspect.2 had)
    · cases listed
  · simp only [← Option.or_assoc, declared, Option.some_or] at listed absent
    exact absent listed

namespace Account

variable {setting : Setting} {root : Request} {start now : World}

/-- Every counterpart was recorded for a reason. -/
theorem pairs (account : Account setting root start now) (unvisited : ∀ source, start.visits.get? source = none)
    {source : ObjectId} {counterpart : Value} (known : now.visits.get? source = some counterpart) :
    ∃ earlier, Account setting root start earlier ∧ earlier.Later now ∧ Pairs start earlier source counterpart := by
  have onward : ∀ {before after : World}, before.Later after →
      (∃ earlier, Account setting root start earlier ∧ earlier.Later before ∧ Pairs start earlier source counterpart) →
      ∃ earlier, Account setting root start earlier ∧ earlier.Later after ∧ Pairs start earlier source counterpart :=
    fun later ⟨earlier, account, before, paired⟩ => ⟨earlier, account, before.trans later, paired⟩
  induction account with
  | start =>
    rw [unvisited] at known
    cases known
  | asked first account started sought _ ih => exact onward (.note _ _) (ih known)
  | answered account asked yields ih => exact onward (.note _ _) (ih known)
  | walked account source ih => exact onward (.note _ _) (ih known)
  | dispatched account same ih => exact onward (.dispatch _ same) (ih known)
  | cached account same ih => exact onward (.cache _ same) (ih known)
  | called account spent ih => exact onward (.called _ spent) (ih known)
  | @recorded before account other new target paired ih =>
    have later := World.Later.record before new target
    change (before.visits.record other target).get? source = some counterpart at known
    rw [Visits.get?_record] at known
    split at known
    · next same =>
      cases known
      exact ⟨before, account, later, same ▸ paired⟩
    · exact onward later (ih known)
  | allocated account handled ih => exact onward (.allocate _ _) (ih known)
  | filled first account started recorded new fills supplied _ ih =>
    exact onward (.edit _ _ fills.ne_setOrigin) (ih known)
  | slotted first account started recorded handled index supplied _ ih =>
    exact onward (.edit _ _ (Handler.Refills.slot index _).ne_setOrigin) (ih known)
  | @refilled begun before after first account started source target recorded handler handled whole loaded change
      refills supplied leftovers drawn lost _ ih =>
    have shed := sheds_of_discardLeftovers lost
    change after.visits.get? _ = _ at known
    rw [shed.visits] at known
    exact onward (shed.later.trans (.edit _ _ refills.ne_setOrigin)) (ih known)
  | written first second account started read merging taking changed made _ _ ih =>
    exact onward (.edit _ _ made.ne_setOrigin) (ih known)

/-- What holds of an object that was there before, and survives that it is refilled as a counterpart and that one of
its properties is written, holds of it all along the run. -/
theorem node_induction (holds : Node → Prop) {id : ObjectId} {final : World} (held : start.heap.Holds id)
    (initially : holds (start.heap.node id))
    (refilled : ∀ begun, Account setting root start begun → begun.Later final →
      ∀ source, begun.visits.get? source = some (.object id) →
      ∀ handler, begun.handler? source = some handler → ∀ change, handler.Refills change →
      ∀ node, holds node → holds (node.edited change))
    (written : ∀ begun, Account setting root start begun → holds (begun.heap.node id) →
      ∀ source entity metadata, Merging setting begun source id entity metadata →
      ∀ heap property value change, property ∈ metadata.names → Property.Edits heap metadata id property value change →
      holds (heap.node id) → holds ((heap.node id).edited change))
    (account : Account setting root start now) (onward : now.Later final) : holds (now.heap.node id) := by
  have edited : ∀ {before : World}, Account setting root start before → ∀ {target : ObjectId} {change : Edit},
      (id = target → holds ((before.heap.node id).edited change)) → holds (before.heap.node id) →
      holds ((before.heap.edit target change).node id) := by
    intro before account target change here kept
    rw [Heap.node_edit]
    split
    · next both => exact here both.1
    · exact kept
  induction account with
  | start => exact initially
  | asked first account started sought _ ih => exact ih ((World.Later.note _ _).trans onward)
  | answered account asked yields ih => exact ih ((World.Later.note _ _).trans onward)
  | walked account source ih => exact ih ((World.Later.note _ _).trans onward)
  | dispatched account same ih => exact ih ((World.Later.dispatch _ same).trans onward)
  | cached account same ih => exact ih ((World.Later.cache _ same).trans onward)
  | called account spent ih => exact ih ((World.Later.called _ spent).trans onward)
  | recorded account new paired ih => exact ih ((World.Later.record _ new _).trans onward)
  | @allocated before account source handled ih =>
    show holds ((before.heap.allocate _).node id)
    rw [Heap.node_allocate_of_holds (account.later.holds held)]
    exact ih ((World.Later.allocate _ _).trans onward)
  | filled first account started recorded new fills supplied _ ih =>
    refine edited account (fun here => ?_) (ih ((World.Later.edit _ _ fills.ne_setOrigin).trans onward))
    exact absurd (here ▸ held) new
  | slotted first account started recorded handled index supplied _ ih =>
    have refills := Handler.Refills.slot index
    have rest := (World.Later.edit _ _ (refills _).ne_setOrigin).trans onward
    refine edited account (fun here => ?_) (ih rest)
    subst here
    exact refilled _ first (started.trans rest) _ recorded _ handled _ (refills _) _ (ih rest)
  | @refilled begun before after first account started source target recorded handler handled whole loaded change
      refills supplied leftovers drawn lost _ ih =>
    have shed := sheds_of_discardLeftovers lost
    have rest := (shed.later.trans (.edit _ _ refills.ne_setOrigin)).trans onward
    show holds ((after.heap.edit target change).node id)
    rw [shed.heap]
    refine edited account (fun here => ?_) (ih rest)
    subst here
    exact refilled begun first (started.trans rest) source recorded handler handled change refills _ (ih rest)
  | @written begun earlier before first second account started read source target entity metadata property value
      current merged change merging taking changed made first_ih _ ih =>
    have rest := (World.Later.edit _ _ made.ne_setOrigin).trans onward
    refine edited account (fun here => ?_) (ih rest)
    subst here
    exact written begun first (first_ih ((started.trans read).trans rest)) source entity metadata merging before.heap
      property merged change taking.declared made (ih rest)

/-- A bean that is no entity stays as it is. -/
theorem node_of_unmanaged (account : Account setting root start now) {id : ObjectId} (held : start.heap.Holds id)
    (bean : (start.heap.node id).isBean = true) (unmanaged : start.store.entity? (start.heap.node id).type = none) :
    now.heap.node id = start.heap.node id := by
  refine account.node_induction (· = start.heap.node id) held rfl ?_ ?_ (.refl now)
  · rintro begun - - source - handler - change refills _ rfl
    exact Node.edited_of_shapeless (Node.shape?_of_isBean bean) refills
  · intro begun first _ source entity metadata merging
    have managed := merging.managed
    rw [first.later.entity?_eq held, unmanaged] at managed
    cases managed

/-- A bean with raw properties keeps all attributes that are not among them. -/
theorem attribute?_of_unlisted (account : Account setting root start now) {id : ObjectId}
    (held : start.heap.Holds id) (bean : (start.heap.node id).isBean = true)
    (fields : ∀ metadata, start.metadata? setting id = some metadata → metadata.AllFields) {name : String}
    (unlisted : name ∉ start.names setting id) :
    (now.heap.node id).attribute? name = (start.heap.node id).attribute? name := by
  have kept := account.node_induction (fun node => node.shape? = none ∧
    ∀ name ∉ start.names setting id, node.attribute? name = (start.heap.node id).attribute? name) held
    ⟨Node.shape?_of_isBean bean, fun _ _ => rfl⟩ ?_ ?_ (.refl now)
  · exact kept.2 name unlisted
  · intro begun _ _ source _ handler _ change refills node kept
    rw [Node.edited_of_shapeless kept.1 refills]
    exact kept
  · rintro begun first ⟨-, before⟩ source entity metadata merging heap property value change listed made
      ⟨shapeless, kept⟩
    rcases known : begun.metadata? setting id with _ | used
    · rw [merging.metadata_eq, known] at listed
      cases listed
    obtain rfl : metadata = used := by rw [merging.metadata_eq, known, Option.getD_some]
    have raw : metadata.AllFields := by
      rcases first.later.metadata?_cases held known with same | rfl
      · exact fields metadata same
      · exact Metadata.allFields_introspect _
    have inside : property ∈ begun.names setting id := by
      rw [World.names, known]
      exact listed
    have before := first.later.mem_names held bean before inside
    obtain ⟨access, declared⟩ := Metadata.access?_of_mem_names listed
    obtain rfl := made.eq_of_field (raw.access?_eq declared ▸ declared)
    refine ⟨(Node.shape?_edited _ _).trans shapeless, fun name unlisted => ?_⟩
    have other : property ≠ name := by
      rintro rfl
      exact unlisted before
    rw [Node.attribute?_setAttribute _ other]
    exact kept name unlisted

/-- A container stays as it is if nothing was to be brought onto it. -/
theorem node_of_unasked (account : Account setting root start now)
    (unvisited : ∀ source, start.visits.get? source = none)
    {id : ObjectId} (held : start.heap.Holds id) (container : (start.heap.node id).shape? ≠ none)
    (unasked : ∀ detached, .asked (.applyTo detached (.object id)) ∉ now.journal) :
    now.heap.node id = start.heap.node id := by
  refine account.node_induction (· = start.heap.node id) held rfl ?_ ?_ (.refl now)
  · rintro begun first onward source recorded handler handled change refills _ rfl
    obtain ⟨earlier, account, before, paired⟩ := first.pairs unvisited recorded
    exfalso
    cases paired with
    | given asked => exact unasked _ ((before.trans onward).journal.subset asked)
    | itself asked unhandled =>
      rw [before.handler?_eq (account.later.holds held), unhandled] at handled
      cases handled
    | rebuilt asked new => exact new held
  · rintro begun - - source entity metadata - heap property value change - made same
    have bean := made.isBean
    rw [same] at bean
    exact absurd (Node.shape?_of_isBean bean) container

end Account

/-- A call that brings a detached value up to date leaves what the last world of an account holds. -/
theorem Reconciliation.last {setting : Setting} {world : World} {outcome : Except Ending Value × World}
    (run : Reconciliation setting world outcome) :
    ∃ root last, Account setting root world.rested last ∧ outcome.2.heap = last.heap ∧ last.Later outcome.2 := by
  obtain ⟨root, answers, fails⟩ := run.account
  rcases outcome with ⟨ending | result, after⟩
  · cases fails ending rfl with
    | missing reached absent => exact ⟨root, after, reached, rfl, .refl after⟩
    | stopped reached other => exact ⟨root, after, reached, rfl, .refl after⟩
    | @interrupted last _ reached _ other container kept leftovers lost =>
      have shed := sheds_of_discardLeftovers lost
      exact ⟨root, last, reached, shed.heap, shed.later⟩
  · exact ⟨root, after, (answers result rfl).1, rfl, .refl after⟩

/-- Whether it answers or fails, a call leaves three things alone: a bean that is no entity, the attributes of a bean
with raw properties that are not among them, and a container that nothing was to be brought onto. -/
theorem Reconciliation.touches_only {setting : Setting} {world : World} {outcome : Except Ending Value × World}
    (run : Reconciliation setting world outcome) {id : ObjectId} (held : world.heap.Holds id)
    (fields : ∀ metadata, world.metadata? setting id = some metadata → metadata.AllFields) :
    ((world.heap.node id).isBean = true → world.store.entity? (world.heap.node id).type = none →
      outcome.2.heap.node id = world.heap.node id) ∧
    ((world.heap.node id).isBean = true → ∀ name ∉ world.names setting id,
      (outcome.2.heap.node id).attribute? name = (world.heap.node id).attribute? name) ∧
    ((world.heap.node id).shape? ≠ none →
      (∀ detached, .asked (.applyTo detached (.object id)) ∉ outcome.2.journal) →
      outcome.2.heap.node id = world.heap.node id) := by
  obtain ⟨root, last, account, heap, later⟩ := run.last
  rw [heap]
  refine ⟨fun bean => ?_, fun bean name => ?_, fun container unasked => ?_⟩
  · exact account.node_of_unmanaged held bean
  · exact account.attribute?_of_unlisted held bean fields
  · exact account.node_of_unasked (fun _ => rfl) held container
      fun detached asked => unasked detached (later.journal.subset asked)

namespace Studios

def schema : Schema :=
  ⟨[{ name := ⟨"Person"⟩
      properties := .ofList [("id", .field), ("name", .field), ("note", .field), ("tags", .field)] }]⟩

def setting : Setting := { schema }

def person (name : String) (note tags : Value) (mood : String) : Node :=
  .bean ⟨"Person"⟩ [("id", .int 1), ("name", .text name), ("note", note), ("tags", tags), ("mood", .text mood)]

def note (text : String) : Node := .bean ⟨"Note"⟩ [("text", .text text)]

/-- A stored person with a note and tags, and a detached copy with another name and another note and without tags. The
mood of a person is no property, and notes are no entities. -/
def world : World where
  heap := ⟨#[{ person "Ann" (.object ⟨1⟩) (.object ⟨2⟩) "calm" with origin := .stored }, note "old",
    .list [.text "tall"], note "new", person "Anna" (.object ⟨3⟩) .null "cross"]⟩
  store :=
    { entities := .ofList [(⟨"Person"⟩, { type := ⟨"Person"⟩, idProperty := "id" })]
      stored := [⟨0⟩] }
  dispatch := .ofRegistry (.withDefaults schema)
  cache := .ofSchema schema

def correction : Except Ending Value × World := setting.apply (.object ⟨4⟩) world.rested

private theorem schema_allFields : schema.AllFields := by
  intro decl declared
  obtain rfl := List.mem_singleton.1 declared
  exact OrderedMap.forall_ofList (fun access : Access => access = .field) (by simp)

/-- The person gets the new name and the new note and keeps the mood. The old note and the tags stay as they are. -/
theorem correction_touches_only :
    (correction.2.heap.node ⟨0⟩).attribute? "name" = some (.text "Anna") ∧
      (correction.2.heap.node ⟨0⟩).attribute? "note" = some (.object ⟨3⟩) ∧
      (correction.2.heap.node ⟨0⟩).attribute? "mood" = some (.text "calm") ∧
      correction.2.heap.node ⟨1⟩ = world.heap.node ⟨1⟩ ∧ correction.2.heap.node ⟨2⟩ = world.heap.node ⟨2⟩ := by
  have run : Reconciliation setting world correction := .apply _
  have fields : ∀ id metadata, world.metadata? setting id = some metadata → metadata.AllFields :=
    fun _ _ => World.allFields_of_metadata? rfl schema_allFields
  have touched := run.touches_only (show world.heap.Holds ⟨0⟩ by decide) (fields _)
  have mood := touched.2.1 (by decide +kernel) "mood" (by decide +kernel)
  have quiet : correction.2.journal.all (fun event => match event with
      | .asked request => decide (request.authoritative ≠ .object ⟨2⟩)
      | _ => true) = true := by
    decide +kernel
  refine ⟨by decide +kernel, by decide +kernel, mood.trans (by decide +kernel), ?_, ?_⟩
  · exact (run.touches_only (show world.heap.Holds ⟨1⟩ by decide) (fields _)).1 (by decide) (by decide +kernel)
  · refine (run.touches_only (show world.heap.Holds ⟨2⟩ by decide) (fields _)).2.2 (by decide) fun detached asked => ?_
    have other := List.all_eq_true.1 quiet _ asked
    exact of_decide_eq_true other rfl

end Studios

end Reconciler
