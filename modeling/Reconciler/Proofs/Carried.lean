import Mathlib.Data.List.Forall2
import Mathlib.Tactic.ByContra
import Reconciler.Proofs.Identifiers
import Reconciler.Proofs.Passage.Refilled

/-! # What becomes of an edited container

A detached container is brought onto whatever stood in its place, and the property then holds that. If this is a
container of the same kind, it holds the images of the detached elements afterwards. If it is anything else, the
refill does not fit it and is dropped: a map stays the map that it was under a detached list, and a list under a
detached map. An array takes the elements and stays an array.
-/

namespace Reconciler

open Reconciler.Action

/-- A request of the run made the image of an element. -/
def World.Images (now : World) (element image : Value) : Prop :=
  ∃ counterpart?, .answered (.matched element counterpart?) image ∈ now.journal

/-- The object is a list or set of the images of the elements, in their order, or a map of the images of the
entries. A set keeps the first of equal elements, and a map the last of the values under equal keys. -/
def World.Carries (before after : World) (source target : ObjectId) : Prop :=
  match (before.heap.node source).content with
  | .collection _ elements => ∃ kind images, List.Forall₂ after.Images elements images ∧
      (after.heap.node target).content = .collection kind (Content.collected kind images)
  | .map bindings => ∃ images, List.Forall₂ (fun entry image =>
      after.Images entry.1 image.1 ∧ after.Images entry.2 image.2) bindings.entries images ∧
      (after.heap.node target).content = .map (.ofList images)
  | _ => False

namespace Course

variable {setting : Setting} {start now final : World} {source target inner : ObjectId}

/-- Wherever a container is reconciled, what comes of it is recorded as its counterpart. -/
theorem recorded_of_reconciled (course : Course setting start now) (quiet : start.journal = [])
    (onward : now.Later final) (held : start.heap.Holds inner) {handler : Handler}
    (handled : start.handler? inner = some handler)
    (busy : handler ∉ [.basic, .null, .frozen]) {current merged : Value}
    (answered : .answered (.reconcile (.object inner) current) merged ∈ now.journal) :
    final.visits.get? inner = some merged := by
  obtain ⟨earlier, first, before, resolved⟩ := course.answered_once quiet answered
  have resolves : Resolves earlier inner merged := resolved _ (Request.reconciled?_reconcile _ _) nofun
  have same := (first.later.handler?_eq held).trans handled
  cases resolves with
  | recorded recorded => exact onward.visits _ _ (before.visits _ _ recorded)
  | inert other idle => exact absurd (Option.some.inj (same.symm.trans other) ▸ idle) busy
  | unmanaged recorded unhandled other => exact absurd (same.symm.trans unhandled) nofun

/-- An object that is nobody's counterpart keeps its attributes. -/
theorem attr_of_unpaired (course : Course setting start now) (onward : now.Later final)
    (unpaired : ∀ other, final.visits.get? other ≠ some (.object source)) (name : String) :
    (now.heap.node source).attr name = (start.heap.node source).attr name := by
  refine (course.attr_cases source name).resolve_right fun assigned => ?_
  obtain ⟨other, entity, metadata, begun, first, before, merging⟩ := assigned.merged
  exact unpaired other ((before.trans onward).visits _ _ merging.recorded)

/-- A property of an entity is about to be written, and this is why. -/
inductive Due (setting : Setting) (start now : World) (target : ObjectId) (change : Edit) : Prop
  | intro {begun earlier : World} (first : Course setting start begun) (second : Course setting start earlier)
      (started : begun.Later earlier) (read : earlier.Later now) {source : ObjectId} {entity : Entity}
      {metadata : Metadata} {property : String} {value current merged : Value}
      (merging : Merging setting begun source target entity metadata)
      (taking : Taking setting earlier now source target entity metadata property value current merged)
      (made : Property.Edits now.heap metadata target property merged change)

/-- What holds of an attribute after every write of it holds of it once it was written. -/
theorem attr_of_edited (course : Course setting start now) (quiet : start.journal = []) (onward : now.Later final)
    {name : String} (holds : Value → Prop)
    (writes : ∀ before, Course setting start before → before.Later final → ∀ change,
      Due setting start before target change → change.assigns? name ≠ none →
        holds (((before.heap.edit target change).node target).attr name))
    {change : Edit} (edited : .edited target change ∈ now.journal) (assigns : change.assigns? name ≠ none) :
    holds ((now.heap.node target).attr name) := by
  -- No other change of a course assigns an attribute.
  have spared : ∀ {before : World} {other : ObjectId} {next : Edit}, next.assigns? name = none →
      .edited target change ∈ (edit other next before).2.journal → .edited target change ∈ before.journal := by
    intro before other next spared member
    refine (List.mem_cons.1 member).resolve_left fun same => assigns ?_
    rw [(Event.edited.inj same).2, spared]
  induction course with
  | start => simp [quiet] at edited
  | asked course request ih =>
    exact ih ((World.Later.note _ _).trans onward) ((List.mem_cons.1 edited).resolve_left nofun)
  | answered course resolved ih =>
    exact ih ((World.Later.note _ _).trans onward) ((List.mem_cons.1 edited).resolve_left nofun)
  | walked course source ih =>
    exact ih ((World.Later.note _ _).trans onward) ((List.mem_cons.1 edited).resolve_left nofun)
  | dispatched course same ih => exact ih ((World.Later.dispatch _ same).trans onward) edited
  | cached course same ih => exact ih ((World.Later.cache _ same).trans onward) edited
  | called course spent ih => exact ih ((World.Later.called _ spent).trans onward) edited
  | recorded course unvisited counterpart ih => exact ih ((World.Later.record _ unvisited _).trans onward) edited
  | allocated course handled ih =>
    exact (Heap.attr_allocate _ _ _ _).symm ▸ ih ((World.Later.allocate _ _).trans onward) edited
  | @filled before course copy new handler next fills ih =>
    have later := (World.Later.edit before copy fills.ne_setOrigin).trans onward
    have same := Heap.attr_edit_of_spared before.heap copy (fills.assigns?_eq name) target
    exact same.symm ▸ ih later (spared (fills.assigns?_eq name) edited)
  | @refilled begun before first course started source other recorded handler handled loaded next refills _ ih =>
    have later := (World.Later.edit before other refills.ne_setOrigin).trans onward
    have same := Heap.attr_edit_of_spared before.heap other (refills.assigns?_eq name) target
    exact same.symm ▸ ih later (spared (refills.assigns?_eq name) edited)
  | discarding course container entity managed enabled ih =>
    exact ih ((World.Later.note _ _).trans onward) ((List.mem_cons.1 edited).resolve_left nofun)
  | removed course removal ih =>
    exact ih ((World.Later.removed _ removal).trans onward) edited
  | @written begun earlier before first second course started read source other entity metadata property value
      current merged next merging taking changed made _ _ ih =>
    have later := (World.Later.edit before other made.ne_setOrigin).trans onward
    by_cases here : other = target ∧ next.assigns? name ≠ none
    · obtain ⟨rfl, assigning⟩ := here
      exact writes before course later next (.intro first second started read merging taking made) assigning
    · have elsewhere : .edited target change ∈ before.journal := by
        refine (List.mem_cons.1 edited).resolve_left fun same => here ?_
        obtain ⟨rfl, rfl⟩ := Event.edited.inj same
        exact ⟨rfl, assigns⟩
      have kept : ((before.heap.edit other next).node target).attr name = (before.heap.node target).attr name := by
        rcases Heap.attr_edit before.heap other next target name with same | ⟨rfl, assigning⟩
        · exact same
        · exact absurd ⟨rfl, by rw [assigning]; exact Option.some_ne_none _⟩ here
      exact kept.symm ▸ ih later elsewhere

end Course

/-- Metadata that a type declares do not depend on how far a run has come. -/
theorem World.Later.metadata?_of_declared {setting : Setting} {start now : World} (later : start.Later now)
    {id : ObjectId} (held : start.heap.Holds id) {metadata : Metadata}
    (declared : (setting.overrides.get? (start.heap.node id).type).or
      (start.cache.schema.metadata? (start.heap.node id).type) = some metadata) :
    now.metadata? setting id = some metadata := by
  rw [World.metadata?, later.heap.type_eq id held, later.schema, ← Option.or_assoc, declared, Option.some_or]

/-- An entity was merged into another one, and has a container of its own under a property that is taken over. -/
structure World.Brings (setting : Setting) (before after : World) (source target : ObjectId) (property : String)
    (inner : ObjectId) : Prop where
  pair : before.SolePair after source target
  unhandled : before.handler? source = none
  managed : ∃ entity, before.store.entity? (before.heap.node target).type = some entity ∧
    checkedVersion? setting entity ≠ some property
  declared : ∃ metadata, (setting.overrides.get? (before.heap.node target).type).or
    (before.cache.schema.metadata? (before.heap.node target).type) = some metadata ∧ metadata.AllFields ∧
    property ∈ metadata.names
  carried : (before.heap.node source).attr property = .object inner
  apart : (before.heap.node target).attr property ≠ .object inner
  held : before.heap.Holds inner
  lone : ∀ other, after.visits.get? other ≠ some (.object inner)
  handled : before.handler? inner = (before.heap.node inner).content.handler?
  container : (before.heap.node inner).isContainer = true

namespace World.Brings

variable {setting : Setting} {start now final : World} {source target inner : ObjectId} {property : String}
  (brings : start.Brings setting final source target property inner)
  (unvisited : ∀ other, start.visits.get? other = none)

include brings

/-- The container has the handler of its shape. -/
theorem busy : ∃ handler ∈ [Handler.collection, .map], start.handler? inner = some handler := by
  have container := brings.container
  have handled := brings.handled
  rcases node : start.heap.node inner with ⟨type, origin, content⟩
  rw [node] at container handled
  cases content with
  | collection => exact ⟨.collection, by decide, handled⟩
  | map => exact ⟨.map, by decide, handled⟩
  | _ => cases container

/-- Wherever the container is reconciled, what comes of it is recorded. -/
theorem recorded_of_reconciled (quiet : start.journal = []) (course : Course setting start now)
    (onward : now.Later final) {current merged : Value}
    (answered : .answered (.reconcile (.object inner) current) merged ∈ now.journal) :
    final.visits.get? inner = some merged := by
  obtain ⟨handler, container, handled⟩ := brings.busy
  have busy : handler ∉ [.basic, .null, .frozen] := by
    revert container
    cases handler <;> decide
  exact course.recorded_of_reconciled quiet onward brings.held handled busy answered

include unvisited

/-- The entity that the container comes from holds it all along. -/
theorem carried_eq (course : Course setting start now) (onward : now.Later final) :
    (now.heap.node source).attr property = .object inner :=
  (course.attr_of_unpaired onward (fun other => brings.pair.unpaired other (unvisited other)) property).trans
    brings.carried

/-- Nothing but the counterpart of the container is ever written to the property. -/
theorem recorded_of_edited (quiet : start.journal = []) (course : Course setting start now)
    (onward : now.Later final) {change : Edit} (edited : .edited target change ∈ now.journal)
    (assigns : change.assigns? property ≠ none) :
    final.visits.get? inner = some ((now.heap.node target).attr property) := by
  refine course.attr_of_edited quiet onward (final.visits.get? inner = some ·)
    (fun before course onward change due assigning => ?_) edited assigns
  obtain ⟨metadata, declared, fields, listed⟩ := brings.declared
  rcases due with @⟨begun, earlier, first, second, started, read, other, entity, used, written, value, current, merged,
    merging, taking, made⟩
  obtain rfl : other = source :=
    brings.pair.sole other (unvisited other) (((started.trans read).trans onward).visits _ _ merging.recorded)
  obtain rfl : used = metadata := by
    rw [merging.metadata_eq, first.later.metadata?_of_declared brings.pair.present declared, Option.getD_some]
  obtain ⟨access, accessed⟩ := Metadata.access?_of_mem_names taking.declared
  have field : used.access? written = some .field := fields.access?_eq accessed ▸ accessed
  obtain rfl := made.eq_of_field field
  obtain rfl : written = property := by
    by_contra different
    exact assigning (if_neg different)
  have carried := (Property.read_of_field field taking.carried).trans
    (brings.carried_eq unvisited second (read.trans onward))
  rw [Heap.attr_edit_setAttribute (course.later.holds brings.pair.present) made.isBean, if_pos rfl]
  exact brings.recorded_of_reconciled quiet course onward (carried ▸ taking.answered)

/-- When the run is over, the property holds the counterpart of the container. -/
theorem recorded_eq_attr (quiet : start.journal = []) (course : Course setting start final)
    (settled : Course.Settled setting start final source (.object target)) :
    final.visits.get? inner = some ((final.heap.node target).attr property) := by
  obtain ⟨metadata, declared, fields, listed⟩ := brings.declared
  obtain ⟨entity, managed, unchecked⟩ := brings.managed
  -- A value that the property has on the way is the one that it had, or the one that it is to have.
  have cases : ∀ {now}, Course setting start now → now.Later final →
      (now.heap.node target).attr property = (start.heap.node target).attr property ∨
        final.visits.get? inner = some ((now.heap.node target).attr property) ∧
          final.visits.get? inner = some ((final.heap.node target).attr property) := by
    intro now reached onward
    refine (reached.attr_cases target property).imp_right fun assigned => ?_
    obtain ⟨change, edited, assigns⟩ := assigned.edited
    have assigning : change.assigns? property ≠ none := by
      rw [assigns]
      exact Option.some_ne_none _
    exact ⟨brings.recorded_of_edited unvisited quiet reached onward edited assigning,
      brings.recorded_of_edited unvisited quiet course (.refl final) (onward.journal.subset edited) assigning⟩
  cases settled with
  | handled once =>
    obtain ⟨earlier, reached, onward, handled⟩ := once
    exact absurd ((reached.later.handler?_eq brings.pair.held).trans brings.unhandled) handled
  | unmanaged once =>
    obtain ⟨earlier, reached, onward, absent⟩ := once
    have unmanaged := (reached.later.entity?_eq brings.pair.present).symm.trans (absent target rfl)
    exact absurd (managed.symm.trans unmanaged) nofun
  | itself => exact absurd brings.pair.recorded (brings.pair.unpaired _ (unvisited _))
  | @merged _ merged used once taken =>
    obtain ⟨begun, first, before, merging⟩ := once
    obtain rfl : used = metadata := by
      rw [merging.metadata_eq, first.later.metadata?_of_declared brings.pair.present declared, Option.getD_some]
    obtain rfl : merged = entity := by
      have same := merging.managed
      rw [first.later.entity?_eq brings.pair.present, managed] at same
      exact (Option.some.inj same).symm
    obtain ⟨access, accessed⟩ := Metadata.access?_of_mem_names listed
    have field : used.access? property = some .field := fields.access?_eq accessed ▸ accessed
    obtain ⟨value, current, ⟨earlier, reached, onward, carried, present⟩, outcome⟩ := taken property listed unchecked
    obtain rfl : value = .object inner :=
      (Property.read_of_field field carried).trans (brings.carried_eq unvisited reached onward)
    obtain rfl := Property.read_of_field field present
    rcases outcome with null | same | ⟨result, answered, rfl | ⟨change, ⟨written, _, _, made⟩, edited⟩⟩
    · cases null
    · rcases cases reached onward with was | ⟨became, -⟩
      · exact absurd (same.trans was).symm brings.apart
      · exact absurd (same ▸ became) (brings.lone inner)
    · have became := brings.recorded_of_reconciled quiet course (.refl final) answered
      rcases cases reached onward with was | ⟨-, final⟩
      · rcases cases course (.refl _) with still | ⟨final, -⟩
        · exact still ▸ was ▸ became
        · exact final
      · exact final
    · obtain rfl := (Property.Edits.of_write made).eq_of_field field
      refine brings.recorded_of_edited unvisited quiet course (.refl final) edited ?_
      rw [Edit.assigns?, if_pos rfl]
      exact Option.some_ne_none _

end World.Brings

/-- No edit changes which handler an object asks for. -/
theorem Node.handler?_edited (node : Node) (change : Edit) :
    (node.edited change).content.handler? = node.content.handler? := by
  rcases fits : node.content.edited? change with _ | content
  · rw [Node.edited, fits]
  · rw [Node.content_edited fits]
    rcases node with ⟨type, origin, before⟩
    cases before <;> cases change <;> simp_all [Content.edited?] <;> obtain ⟨_, rfl⟩ := fits <;> rfl

/-- Two lists of entries correspond if their keys and values do. -/
theorem List.forall₂_entries {R : Value → Value → Prop} {entries images : List (Value × Value)}
    (related : List.Forall₂ R (entries.flatMap fun entry => [entry.1, entry.2])
      (images.flatMap fun entry => [entry.1, entry.2])) :
    List.Forall₂ (fun entry image => R entry.1 image.1 ∧ R entry.2 image.2) entries images := by
  induction entries generalizing images with
  | nil =>
    cases images with
    | nil => exact .nil
    | cons => cases related
  | cons entry rest ih =>
    cases images with
    | nil => cases related
    | cons image others =>
      obtain ⟨key, value, rest⟩ : R entry.1 image.1 ∧ R entry.2 image.2 ∧ _ := by simpa using related
      exact .cons ⟨key, value⟩ (ih rest)

/-- The images of trades are images of their elements. -/
theorem Trade.forall₂_images {trades : List Trade} {now : World} (made : ∀ trade ∈ trades, trade.Made now) :
    List.Forall₂ now.Images (trades.map Trade.element) (trades.map Trade.image) := by
  rw [List.forall₂_map_left_iff, List.forall₂_map_right_iff, List.forall₂_same]
  exact fun trade member => ⟨trade.counterpart?, made trade member⟩

namespace World.Refills

variable {setting : Setting} {start after : World} {inner outer : ObjectId} {handler : Handler} {change : Edit}
  {trades : List Trade} {leftovers : List Value}
  (refills : World.Refills setting start after inner outer handler change trades leftovers)

include refills

/-- A refill changes nothing about the kind of a container. -/
theorem handler?_eq : (after.heap.node outer).content.handler? = (start.heap.node outer).content.handler? := by
  rw [refills.node_eq, Node.handler?_edited]

/-- What the container is refilled with are images of what the other one holds. -/
theorem forall₂_images : List.Forall₂ after.Images (handler.candidates (start.heap.node inner)) change.values := by
  rw [← refills.elements, ← refills.images]
  exact Trade.forall₂_images refills.made

/-- What one container holds is carried by another one exactly if both are of the same kind. -/
theorem carries_iff (container : handler ∈ [.collection, .map])
    (asked : (start.heap.node inner).content.handler? = some handler) :
    start.Carries after inner outer ↔ (start.heap.node outer).content.handler? = some handler := by
  have related := refills.forall₂_images
  have edited := refills.node_eq
  rw [← refills.handler?_eq]
  unfold World.Carries
  rcases content : (start.heap.node inner).content with _ | _ | ⟨kind, elements⟩ | bindings | _ <;>
    rw [content] at asked <;> cases asked
  case array => exact absurd container (by decide)
  case collection =>
    rcases refills.refills with ⟨values⟩
    replace related : List.Forall₂ after.Images (start.heap.node inner).items values := related
    rw [Node.items_of_collection content] at related
    constructor
    · rintro ⟨kind, images, -, after⟩
      rw [after]
      rfl
    · rw [refills.handler?_eq]
      intro matching
      rcases node : start.heap.node outer with ⟨type, origin, before⟩
      rw [node] at matching edited
      cases before with
      | collection other old => exact ⟨other, values, related, by rw [edited]; rfl⟩
      | _ => cases matching
  case map =>
    rcases refills.refills with _ | ⟨entries⟩
    rw [Handler.candidates, Node.bindings_of_map content] at related
    constructor
    · rintro ⟨images, -, after⟩
      rw [after]
      rfl
    · rw [refills.handler?_eq]
      intro matching
      rcases node : start.heap.node outer with ⟨type, origin, before⟩
      rw [node] at matching edited
      cases before with
      | map old => exact ⟨entries, List.forall₂_entries related, by rw [edited]; rfl⟩
      | _ => cases matching

/-- An object of another kind refuses the refill, unless it is an array. -/
theorem node_of_unfit (whole : handler ∈ [.collection, .map])
    (unfit : (start.heap.node outer).content.handler? ∉ [some handler, some .array]) :
    after.heap.node outer = start.heap.node outer := by
  rw [refills.node_eq]
  apply Node.edited_of_refused
  rcases node : start.heap.node outer with ⟨type, origin, content⟩
  rw [node] at unfit
  rcases refills.refills with _ | _ | _
  · cases content <;> first | rfl | exact absurd (by simp [Content.handler?]) unfit
  · cases content <;> first | rfl | exact absurd (by simp [Content.handler?]) unfit
  · exact absurd whole (by decide)

end World.Refills

/-- What becomes of a container under a property of an entity that is merged into another one: the property holds what
the container was paired with. That one is refilled with the images of what the container holds exactly if it is
of the same kind, and stays as it was if it is of another kind and no array. -/
theorem Reconciliation.edits_carried {setting : Setting} {world : World} {outcome : Except Ending Value × World}
    (run : Reconciliation setting world outcome) {result : Value} (answered : outcome.1 = .ok result)
    {source target inner : ObjectId} {property : String}
    (brings : world.rested.Brings setting outcome.2 source target property inner) :
    outcome.2.visits.get? inner = some ((outcome.2.heap.node target).attr property) ∧
      ∀ outer, (outcome.2.heap.node target).attr property = .object outer → world.heap.Holds outer →
        world.isUnloadedContainer outer = false →
        (∀ other, outcome.2.visits.get? other = some (.object outer) → other = inner) →
        (world.rested.Carries outcome.2 inner outer ↔
          (world.heap.node outer).content.handler? = (world.heap.node inner).content.handler?) ∧
        ((world.heap.node outer).content.handler? ∉ [(world.heap.node inner).content.handler?, some .array] →
          outcome.2.heap.node outer = world.heap.node outer) := by
  have settled := run.settled answered brings.pair.recorded
  have recorded := brings.recorded_eq_attr (fun _ => rfl) rfl run.course settled
  refine ⟨recorded, fun outer holds present loaded sole => ?_⟩
  obtain ⟨handler, container, handled⟩ := brings.busy
  have asked := brings.handled.symm.trans handled
  have pair : world.rested.SolePair outcome.2 inner outer :=
    { held := brings.held
      present := present
      unvisited := rfl
      recorded := holds ▸ recorded
      sole := fun other _ known => sole other known
      unpaired := fun other _ => brings.lone other }
  obtain ⟨change, trades, leftovers, refills⟩ :=
    (run.passage.1 result answered).refills nofun pair nofun handled container loaded
  rw [show (world.heap.node inner).content.handler? = some handler from asked]
  exact ⟨refills.carries_iff container asked, refills.node_of_unfit container⟩

namespace Cabinets

def schema : Schema := ⟨[{ name := ⟨"Cabinet"⟩, properties := .ofList [("id", .field), ("files", .field)] }]⟩

def setting : Setting := { schema }

def cabinet (files : ObjectId) : Node := .bean ⟨"Cabinet"⟩ [("id", .int 1), ("files", .object files)]

/-- A stored cabinet with the given files, and a detached copy with a list of one file. -/
def world (files : Node) : World where
  heap := ⟨#[{ cabinet ⟨1⟩ with origin := .stored }, files, cabinet ⟨3⟩, .list [.int 7]]⟩
  store :=
    { entities := .ofList [(⟨"Cabinet"⟩, { type := ⟨"Cabinet"⟩, idProperty := "id" })]
      stored := [⟨0⟩] }
  dispatch := .ofRegistry (.withDefaults schema)
  cache := .ofSchema schema

def delivery (files : Node) : Except Ending Value × World := setting.apply (.object ⟨2⟩) (world files).rested

/-- A list of one other file, and a map that files it under a name. -/
def filings : List Node := [.list [.int 5], .map [(.text "k", .int 5)]]

private theorem visits_log {files : Node} (listed : files ∈ filings) :
    (delivery files).2.visits.log = [(⟨3⟩, .object ⟨1⟩), (⟨2⟩, .object ⟨0⟩)] := by
  revert files
  decide +kernel

private theorem brings {files : Node} (listed : files ∈ filings) :
    (world files).rested.Brings setting (delivery files).2 ⟨2⟩ ⟨0⟩ "files" ⟨3⟩ := by
  have known : ∀ {source counterpart}, (delivery files).2.visits.get? source = some counterpart →
      (source, counterpart) ∈ [(⟨3⟩, .object ⟨1⟩), (⟨2⟩, .object ⟨0⟩)] :=
    fun known => visits_log listed ▸ Visits.mem_log_of_get? known
  have fields : schema.AllFields := by
    intro decl declared
    obtain rfl := List.mem_singleton.1 declared
    exact OrderedMap.forall_ofList (fun access : Access => access = .field) (by simp)
  have declared : (schema.metadata? ⟨"Cabinet"⟩).map Metadata.names = some ["id", "files"] := by decide +kernel
  obtain ⟨metadata, found, names⟩ := Option.map_eq_some_iff.1 declared
  have handlers : ∀ files ∈ filings, (world files).rested.handler? ⟨2⟩ = none ∧
      (world files).rested.handler? ⟨3⟩ = some .collection := by
    decide +kernel
  have held : ∀ id : ObjectId, id.index < 4 → (world files).rested.heap.Holds id := fun _ bound => bound
  exact {
    pair := by
      refine .of_log (visits_log listed) (held ⟨2⟩ (by decide)) (held ⟨0⟩ (by decide)) rfl ?_ (by decide) (by decide)
      rw [Visits.get?, visits_log listed]
      rfl
    unhandled := (handlers files listed).1
    managed := ⟨{ type := ⟨"Cabinet"⟩, idProperty := "id" }, rfl, nofun⟩
    declared := ⟨metadata, found, fields.metadata? found, by simp [names]⟩
    carried := rfl
    apart := nofun
    held := held ⟨3⟩ (by decide)
    lone := fun other recorded => by simpa using known recorded
    handled := (handlers files listed).2
    container := rfl }

/-- The stored list of files becomes that of the copy. -/
theorem list_delivered :
    ((delivery (.list [.int 5])).2.heap.node ⟨0⟩).attr "files" = .object ⟨1⟩ ∧
      (world (.list [.int 5])).rested.Carries (delivery (.list [.int 5])).2 ⟨3⟩ ⟨1⟩ := by
  have run : Reconciliation setting (world (.list [.int 5])) (delivery (.list [.int 5])) := .apply _
  have answered : (delivery (.list [.int 5])).1 = .ok (.object ⟨0⟩) := by decide +kernel
  have listed : Node.list [.int 5] ∈ filings := List.mem_cons_self
  have holds : ((delivery (.list [.int 5])).2.heap.node ⟨0⟩).attr "files" = .object ⟨1⟩ := by decide +kernel
  have sole : ∀ other, (delivery (.list [.int 5])).2.visits.get? other = some (.object ⟨1⟩) → other = ⟨3⟩ := by
    intro other known
    simpa [visits_log listed] using Visits.mem_log_of_get? known
  obtain ⟨-, carries⟩ := run.edits_carried answered (brings listed)
  exact ⟨holds, (carries ⟨1⟩ holds (by decide) rfl sole).1.2 rfl⟩

/-- A stored map of files stays as it is, and the file in the list gets lost. -/
theorem map_undelivered :
    (world (.map [(.text "k", .int 5)])).rested.Brings setting (delivery (.map [(.text "k", .int 5)])).2
        ⟨2⟩ ⟨0⟩ "files" ⟨3⟩ ∧
      (delivery (.map [(.text "k", .int 5)])).1 = .ok (.object ⟨0⟩) ∧
      ((delivery (.map [(.text "k", .int 5)])).2.heap.node ⟨0⟩).attr "files" = .object ⟨1⟩ ∧
      (delivery (.map [(.text "k", .int 5)])).2.heap.node ⟨1⟩ = .map [(.text "k", .int 5)] ∧
      ¬ (world (.map [(.text "k", .int 5)])).rested.Carries (delivery (.map [(.text "k", .int 5)])).2 ⟨3⟩ ⟨1⟩ := by
  have kept : (delivery (.map [(.text "k", .int 5)])).2.heap.node ⟨1⟩ = .map [(.text "k", .int 5)] := by
    decide +kernel
  refine ⟨brings (by decide), by decide +kernel, by decide +kernel, kept, ?_⟩
  rintro ⟨kind, images, -, content⟩
  rw [kept] at content
  cases content

end Cabinets

end Reconciler
