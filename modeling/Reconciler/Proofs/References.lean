import Reconciler.BreadthFirst.Reachability
import Reconciler.Proofs.Episode.Account
import Reconciler.Proofs.Termination.Inside

/-! # References to entities

A detached entity stands for the stored one, so a run is to put the stored one wherever it finds a reference. It
does so as long as the other side offers it nothing, or an entity. A detached entity that is paired with anything
else, such as a scalar or a list that was there before, is passed through and ends up in the authoritative
graph. No other object of an entity type gets there.
-/

namespace Reconciler

open Reconciler.Action

/-- The value that a request takes its values from. -/
def Request.detached : Request → Value
  | .disconnect value => value
  | .apply detached => detached
  | .applyTo detached _ => detached

/-- The value that a request was given to bring up to date, or null. -/
def Request.authoritative : Request → Value
  | .disconnect _ => .null
  | .apply _ => .null
  | .applyTo _ authoritative => authoritative

/-- The detached objects of a call. -/
def World.detachedSide (world : World) (request : Request) : List ObjectId :=
  world.heap.reachable request.detached.object?.toList

/-- The authoritative objects of a call: those that are stored, the one that is given, and all that they lead to. -/
def World.authoritativeSide (world : World) (request : Request) : List ObjectId :=
  world.heap.reachable (world.store.stored ++ request.authoritative.object?.toList)

/-- A call between two sides that share no object, under the default handlers. Accessors hand on what they
are given, arrays of scalars hold scalars, and what is passed through as a scalar is no container and of no
entity type. -/
structure World.Apart (setting : Setting) (world : World) (request : Request) : Prop where
  defaults : ∃ schema, world.dispatch.registry = .withDefaults schema
  transparent : setting.Transparent world.cache.schema
  closed : world.heap.Closed
  stored : ∀ id ∈ world.store.stored, world.heap.Holds id
  detached : ∀ id, request.detached = .object id → world.heap.Holds id
  authoritative : ∀ id, request.authoritative = .object id → world.heap.Holds id
  apart : ∀ id ∈ world.detachedSide request, id ∉ world.authoritativeSide request
  scalars : ∀ id ∈ world.detachedSide request, (world.heap.node id).hasScalarSlots = true →
    ∀ item ∈ (world.heap.node id).items, item.object? = none
  passed : ∀ id ∈ world.detachedSide request, world.handler? id = some .basic →
    (world.heap.node id).shape? = none ∧ world.store.entity? (world.heap.node id).type = none

/-- Wherever an object of an entity type without handler has a recorded counterpart, that is of an entity type
as well. -/
def World.PairsEntities (now : World) : Prop :=
  ∀ source counterpart, now.visits.get? source = some counterpart → now.handler? source = none →
    now.store.entity? (now.heap.node source).type ≠ none →
      ∃ target, counterpart = .object target ∧ now.store.entity? (now.heap.node target).type ≠ none

/-- What holds of the roots, and of all that an object refers to of which it holds, holds of all reachable objects. -/
theorem Heap.forall_reachable {heap : Heap} {roots : List ObjectId} {inside : ObjectId → Prop}
    (start : ∀ root ∈ roots, inside root)
    (step : ∀ id, inside id → ∀ part ∈ heap.referents id, inside part) :
    ∀ id ∈ heap.reachable roots, inside id := by
  intro id reached
  obtain ⟨root, listed, leads⟩ := FiniteGraph.mem_breadthFirst.1 reached
  have here := start root listed
  clear listed reached
  induction leads with
  | refl => exact here
  | step link _ ih => exact ih (step _ here _ link)

private theorem Heap.mem_referents {heap : Heap} {id part : ObjectId} :
    part ∈ heap.referents id ↔ .object part ∈ (heap.node id).parts := by
  simp [referents, Value.object?_eq_some_iff]

/-- What a reachable object holds is reachable. -/
theorem Heap.mem_reachable_of_part {heap : Heap} {roots : List ObjectId} {id part : ObjectId}
    (reached : id ∈ heap.reachable roots) (held : .object part ∈ (heap.node id).parts) :
    part ∈ heap.reachable roots := by
  obtain ⟨root, listed, leads⟩ := FiniteGraph.mem_breadthFirst.1 reached
  have link : part ∈ heap.references.next id := mem_referents.2 held
  exact FiniteGraph.mem_breadthFirst.2 ⟨root, listed, leads.trans (.step link (.refl part))⟩

/-- Something without a shape cannot be refilled. -/
theorem Node.edited_of_shapeless {node : Node} (shapeless : node.shape? = none) {handler : Handler} {change : Edit}
    (refills : handler.Refills change) : node.edited change = node := by
  rcases node with ⟨type, origin, content⟩
  cases content with
  | array | collection | map => cases shapeless
  | bean | sealed => cases refills <;> rfl

/-- Metadata that a run can use is transparent. -/
theorem World.Uses.transparent {setting : Setting} {start : World} {metadata : Metadata}
    (uses : start.Uses setting metadata) (transparent : setting.Transparent start.cache.schema) :
    metadata.Transparent := by
  obtain ⟨begun, target, type, later, rfl⟩ := uses
  rcases known : begun.metadata? setting target with _ | metadata
  · intro property access found
    cases found
  · rw [← later.schema] at transparent
    exact transparent.metadata? known

section Sides

variable {setting : Setting} {root : Request} {start now : World}

/-- A value that is no object, or one of the detached side. -/
def World.Offers (start : World) (root : Request) (value : Value) : Prop :=
  ∀ id, value = .object id → id ∈ start.detachedSide root

/-- A value that is no object, or one that may stand on the authoritative side: it belongs there, or is a new
container, or a detached object that is neither a container nor an entity. -/
def World.Allows (start : World) (root : Request) (now : World) (value : Value) : Prop :=
  ∀ id, value = .object id → now.heap.Holds id ∧
    (id ∈ start.authoritativeSide root ∨ ¬ start.heap.Holds id ∨
      id ∈ start.detachedSide root ∧ (start.heap.node id).shape? = none ∧
        start.store.entity? (start.heap.node id).type = none)

private theorem World.Allows.later {after : World} {value : Value} (allows : start.Allows root now value)
    (later : now.Later after) : start.Allows root after value := fun id same =>
  ⟨later.holds (allows id same).1, (allows id same).2⟩

private theorem World.allows_of_scalar {value : Value} (scalar : value.object? = none) :
    start.Allows root now value := by
  rintro id rfl
  cases scalar

/-- What an event says of the values that it carries. -/
def World.Sound (start : World) (root : Request) (now : World) : Event → Prop
  | .asked request => start.Offers root request.detached ∧ start.Allows root now request.authoritative
  | .answered _ result => start.Allows root now result
  | .edited _ change => ∀ value ∈ change.values, start.Allows root now value
  | .walked _ => True
  | .discarded _ _ => True

private theorem World.Sound.later {after : World} {event : Event} (sound : start.Sound root now event)
    (later : now.Later after) : start.Sound root after event := by
  cases event with
  | asked request => exact ⟨sound.1, sound.2.later later⟩
  | answered request result => exact World.Allows.later sound later
  | edited target change => exact fun value carried => (sound value carried).later later
  | walked | discarded => trivial

namespace World.Apart

private theorem rested {world : World} (sides : world.Apart setting root) : world.rested.Apart setting root :=
  ⟨sides.defaults, sides.transparent, sides.closed, sides.stored, sides.detached, sides.authoritative, sides.apart,
    sides.scalars, sides.passed⟩

variable (sides : World.Apart setting start root)

include sides

private theorem holds_of_detached : ∀ id ∈ start.detachedSide root, start.heap.Holds id := by
  refine Heap.forall_reachable (fun given listed => ?_) fun id _ part held => ?_
  · exact sides.detached given ((Value.object?_eq_some_iff _ _).1 (Option.mem_toList.1 listed))
  · exact sides.closed id part (Heap.mem_referents.1 held)

end World.Apart

/-- What holds all along a call between two sides: the detached side stays as it is, and what the
authoritative side and the new objects hold may stand on the authoritative side. -/
structure Resolving (root : Request) (start now : World) : Prop where
  unchanged : ∀ id ∈ start.detachedSide root, now.heap.node id = start.heap.node id
  parts : ∀ id, id ∈ start.authoritativeSide root ∨ ¬ start.heap.Holds id →
    ∀ part ∈ (now.heap.node id).parts, start.Allows root now part
  visits : ∀ source counterpart, now.visits.get? source = some counterpart →
    source ∈ start.detachedSide root ∧ start.Allows root now counterpart
  stored : now.store.stored ⊆ start.store.stored
  sound : ∀ event ∈ now.journal, start.Sound root now event
  handled : ∀ id, ¬ start.heap.Holds id → now.heap.Holds id → now.handler? id ≠ none

namespace Resolving

private theorem initially (sides : World.Apart setting start root) (quiet : start.journal = [])
    (unvisited : ∀ source, start.visits.get? source = none) : Resolving root start start where
  unchanged _ _ := rfl
  parts id side part listed := by
    rcases side with member | absent
    · rintro held rfl
      exact ⟨sides.closed id held listed, .inl (Heap.mem_reachable_of_part member listed)⟩
    · rw [Heap.parts_of_not_holds absent] at listed
      cases listed
  visits source counterpart known := by
    rw [unvisited] at known
    cases known
  stored := List.Subset.refl _
  sound := by simp [quiet]
  handled _ absent held := absurd held absent

/-- A change that leaves objects and counterparts alone. -/
theorem of_same {after : World} (resolving : Resolving root start now) (later : now.Later after)
    (heap : after.heap = now.heap) (visits : after.visits = now.visits)
    (stored : after.store.stored ⊆ now.store.stored)
    (new : ∀ event ∈ after.journal, event ∈ now.journal ∨ start.Sound root after event) :
    Resolving root start after := by
  constructor
  · rw [heap]
    exact resolving.unchanged
  · rw [heap]
    exact fun id side part listed => (resolving.parts id side part listed).later later
  · rw [visits]
    exact fun source counterpart known => (resolving.visits source counterpart known).imp_right (·.later later)
  · exact List.Subset.trans stored resolving.stored
  · exact fun event member => (new event member).elim (fun old => (resolving.sound event old).later later) id
  · intro id absent held
    rw [heap] at held
    rw [later.handler?_eq held]
    exact resolving.handled id absent held

private theorem note (resolving : Resolving root start now) {event : Event} (sound : start.Sound root now event) :
    Resolving root start (Action.note event now).2 := by
  refine resolving.of_same (.note now event) rfl rfl (List.Subset.refl _) fun other member => ?_
  rcases List.mem_cons.1 member with rfl | old
  · exact .inr (sound.later (.note now _))
  · exact .inl old

private theorem record (resolving : Resolving root start now) {source : ObjectId} {counterpart : Value}
    (unvisited : now.visits.get? source = none) (detached : source ∈ start.detachedSide root)
    (allows : start.Allows root now counterpart) :
    Resolving root start (Action.record source counterpart now).2 := by
  have later := World.Later.record now unvisited counterpart
  constructor
  · exact resolving.unchanged
  · exact resolving.parts
  · intro other target known
    change (now.visits.record source counterpart).get? other = some target at known
    rw [Visits.get?_record] at known
    split at known
    · next same =>
      cases known
      exact ⟨same ▸ detached, allows⟩
    · exact resolving.visits other target known
  · exact resolving.stored
  · exact fun event member => (resolving.sound event member).later later
  · exact resolving.handled

private theorem allocate (resolving : Resolving root start now) (sides : World.Apart setting start root)
    (since : start.Later now) {source : ObjectId} (handled : now.handler? source ≠ none) :
    Resolving root start (Action.allocate (now.heap.node source).emptyLike now).2 := by
  have later := World.Later.allocate now (now.heap.node source).emptyLike
  constructor
  · intro id member
    exact (Heap.node_allocate_of_holds (since.holds (sides.holds_of_detached _ member)) _).trans
      (resolving.unchanged id member)
  · intro id side part listed
    rcases Heap.mem_parts_allocate listed with old | rfl
    · exact (resolving.parts id side part old).later later
    · exact World.allows_of_scalar rfl
  · exact fun source counterpart known => (resolving.visits source counterpart known).imp_right (·.later later)
  · exact resolving.stored
  · exact fun event member => (resolving.sound event member).later later
  · intro id absent held
    rcases Heap.holds_allocate.1 held with old | rfl
    · rw [later.handler?_eq old]
      exact resolving.handled id absent old
    · rw [World.handler?_fresh]
      exact handled

/-- An edit that does nothing to detached objects. -/
theorem edit (resolving : Resolving root start now) {target : ObjectId} {change : Edit}
    (other : ∀ origin, change ≠ .setOrigin origin)
    (idle : target ∈ start.detachedSide root → (now.heap.node target).edited change = now.heap.node target)
    (carried : ∀ value ∈ change.values, start.Allows root now value) :
    Resolving root start (Action.edit target change now).2 := by
  have later := World.Later.edit now target other
  constructor
  · intro id member
    refine .trans ?_ (resolving.unchanged id member)
    change (now.heap.edit target change).node id = _
    rw [Heap.node_edit]
    split
    · next here =>
      obtain ⟨rfl, -⟩ := here
      exact idle member
    · rfl
  · intro id side part listed
    rcases Heap.mem_parts_edit listed with old | ⟨-, new⟩
    · exact (resolving.parts id side part old).later later
    · exact (carried part new).later later
  · exact fun source counterpart known => (resolving.visits source counterpart known).imp_right (·.later later)
  · exact resolving.stored
  · intro event member
    rcases List.mem_cons.1 member with rfl | old
    · exact fun value listed => (carried value listed).later later
    · exact (resolving.sound event old).later later
  · intro id absent held
    have before : now.heap.Holds id := by
      change id.index < (now.heap.edit target change).size at held
      rwa [Heap.size_edit] at held
    rw [later.handler?_eq before]
    exact resolving.handled id absent before

/-- What a detached object holds is detached. -/
theorem offers_of_part (resolving : Resolving root start now) {source : ObjectId}
    (detached : source ∈ start.detachedSide root) {part : Value} (held : part ∈ (now.heap.node source).parts) :
    start.Offers root part := by
  rintro id rfl
  rw [resolving.unchanged source detached] at held
  exact Heap.mem_reachable_of_part detached held

variable (sides : World.Apart setting start root) (since : start.Later now)

/-- A detached object that may stand on the authoritative side was passed through. -/
theorem passed_of_detached (sides : World.Apart setting start root) {target : ObjectId}
    (allows : start.Allows root now (.object target)) (detached : target ∈ start.detachedSide root) :
    (start.heap.node target).shape? = none ∧ start.store.entity? (start.heap.node target).type = none := by
  rcases (allows target rfl).2 with known | new | ⟨-, passed⟩
  · exact absurd known (sides.apart target detached)
  · exact absurd (sides.holds_of_detached _ detached) new
  · exact passed

/-- What was passed through cannot be refilled. -/
theorem idle_of_refills (resolving : Resolving root start now) (sides : World.Apart setting start root)
    {target : ObjectId} (allows : start.Allows root now (.object target)) {handler : Handler} {change : Edit}
    (refills : handler.Refills change) (detached : target ∈ start.detachedSide root) :
    (now.heap.node target).edited change = now.heap.node target := by
  rw [resolving.unchanged target detached]
  exact Node.edited_of_shapeless (passed_of_detached sides allows detached).1 refills

include sides since

/-- An object of an entity type that may stand on the authoritative side holds what may stand there. -/
theorem allows_of_managed (resolving : Resolving root start now) {target : ObjectId}
    (allows : start.Allows root now (.object target))
    (managed : now.store.entity? (now.heap.node target).type ≠ none) {part : Value}
    (held : part ∈ (now.heap.node target).parts) : start.Allows root now part := by
  rcases (allows target rfl).2 with known | new | ⟨detached, -, unmanaged⟩
  · exact resolving.parts target (.inl known) part held
  · exact resolving.parts target (.inr new) part held
  · rw [since.entity?_eq (sides.holds_of_detached _ detached)] at managed
    exact absurd unmanaged managed

omit sides since in
/-- So does a container. -/
theorem allows_of_members (resolving : Resolving root start now) {target : ObjectId}
    (allows : start.Allows root now (.object target)) {part : Value}
    (held : part ∈ (now.heap.node target).members) : start.Allows root now part := by
  have listed := Node.mem_parts_of_members held
  rcases (allows target rfl).2 with known | new | ⟨detached, shapeless, -⟩
  · exact resolving.parts target (.inl known) part listed
  · exact resolving.parts target (.inr new) part listed
  · rw [← resolving.unchanged target detached] at shapeless
    rw [Node.members_of_shapeless shapeless] at held
    cases held

/-- A detached object that is passed through may stand on the authoritative side. -/
theorem allows_of_passed {source : ObjectId} (detached : source ∈ start.detachedSide root)
    (shapeless : (start.heap.node source).shape? = none)
    (unmanaged : start.store.entity? (start.heap.node source).type = none) :
    start.Allows root now (.object source) := by
  rintro id same
  obtain rfl := Value.object.inj same
  exact ⟨since.holds (sides.holds_of_detached _ detached), .inr (.inr ⟨detached, shapeless, unmanaged⟩)⟩

/-- Under the default handlers an object without one has no shape. -/
theorem shapeless_of_unhandled {source : ObjectId} (detached : source ∈ start.detachedSide root)
    (unhandled : now.handler? source = none) : (start.heap.node source).shape? = none := by
  rw [since.handler?_eq (sides.holds_of_detached _ detached), World.handler?] at unhandled
  obtain ⟨schema, defaults⟩ := sides.defaults
  rw [defaults] at unhandled
  exact Handler.Registry.shape?_of_unhandled unhandled

/-- Whatever a detached object resolves to may stand on the authoritative side, if entities are paired with
entities. -/
theorem allows_of_resolves (resolving : Resolving root start now) {final : World} (onward : now.Later final)
    (paired : final.PairsEntities) {source : ObjectId} (detached : source ∈ start.detachedSide root) {result : Value}
    (resolves : Resolves now source result) : start.Allows root now result := by
  have held := sides.holds_of_detached _ detached
  have there := since.holds held
  obtain ⟨schema, defaults⟩ := sides.defaults
  cases resolves with
  | recorded known => exact (resolving.visits _ _ known).2
  | @inert handler known idle =>
    rw [World.standIn, known]
    split
    · exact World.allows_of_scalar rfl
    · next present =>
      rw [since.handler?_eq held] at known
      have basic : handler = .basic := by
        simp only [List.mem_cons, List.not_mem_nil, or_false] at idle
        rcases idle with rfl | rfl | rfl
        · rfl
        · exact absurd rfl present
        · rw [World.handler?, defaults] at known
          exact absurd known (Handler.Registry.ofValue_ne_frozen schema _ _)
      obtain ⟨shapeless, unmanaged⟩ := sides.passed source detached (basic ▸ known)
      exact allows_of_passed sides since detached shapeless unmanaged
  | @unmanaged counterpart known unhandled other =>
    rw [World.standIn_of_unhandled unhandled]
    refine allows_of_passed sides since detached (shapeless_of_unhandled sides since detached unhandled) ?_
    refine Decidable.byContradiction fun managed => ?_
    rw [← since.entity?_eq held, ← onward.entity?_eq there] at managed
    obtain ⟨target, rfl, entity⟩ :=
      paired source counterpart (onward.visits _ _ known) ((onward.handler?_eq there).trans unhandled) managed
    have present := ((resolving.visits source _ known).2 target rfl).1
    rw [onward.entity?_eq present] at entity
    exact entity (other target rfl)

/-- Whatever a detached value resolves to may stand on the authoritative side, if entities are paired with
entities. -/
theorem allows_of_resolved (resolving : Resolving root start now) {final : World} (onward : now.Later final)
    (paired : final.PairsEntities) {detached result : Value} (offers : start.Offers root detached)
    (resolved : Resolved now detached result) : start.Allows root now result := by
  rcases scalar : detached.object? with _ | source
  · have direct : now.dispatch.registry.ofValue now.heap detached ∈ [none, some .basic] := by
      obtain ⟨schema, defaults⟩ := sides.defaults
      rw [since.registry, defaults]
      rcases handled : (Handler.Registry.withDefaults schema).ofValue now.heap detached with _ | handler
      · exact List.mem_cons_self
      · rw [Handler.Registry.ofValue_scalar schema now.heap scalar handled]
        exact List.mem_cons_of_mem _ List.mem_cons_self
    have same : result = detached := by
      cases detached with
      | object => cases scalar
      | _ => exact resolved direct
    exact World.allows_of_scalar (same ▸ scalar)
  · obtain rfl := (Value.object?_eq_some_iff _ _).1 scalar
    exact resolving.allows_of_resolves sides since onward paired (offers source rfl) resolved

/-- What a run asks for is detached on the one hand, and may stand on the authoritative side on the other. -/
theorem sound_of_seeks {begun : World} (first : Resolving root start begun) (resolving : Resolving root start now)
    (started : begun.Later now) {request : Request} (sought : Account.Seeks setting root start begun now request)
    (before : start.Later begun) : start.Sound root now (.asked request) := by
  cases sought with
  | root =>
    constructor
    · rintro id given
      rw [World.detachedSide, given]
      exact FiniteGraph.mem_breadthFirst.2 ⟨id, List.mem_cons_self, .refl id⟩
    · rintro id given
      refine ⟨since.holds (sides.authoritative id given), .inl (FiniteGraph.mem_breadthFirst.2 ⟨id, ?_, .refl id⟩)⟩
      rw [given]
      exact List.mem_append_right _ List.mem_cons_self
  | part recorded carried =>
    have detached := (first.visits _ _ recorded).1
    exact ⟨first.offers_of_part detached (Node.mem_parts_of_members carried), World.allows_of_scalar rfl⟩
  | matched recorded carried present =>
    obtain ⟨detached, allows⟩ := first.visits _ _ recorded
    exact ⟨first.offers_of_part detached (Node.mem_parts_of_members carried),
      (first.allows_of_members allows present).later started⟩
  | @property source target entity metadata property value current recorded managed uses carried present =>
    obtain ⟨detached, allows⟩ := first.visits _ _ recorded
    have transparent := uses.transparent sides.transparent
    have offers : start.Offers root value := by
      rcases transparent.read carried with scalar | part
      · rintro id rfl
        cases scalar
      · exact first.offers_of_part detached part
    have known : start.Allows root now current := by
      rcases transparent.read present with scalar | part
      · exact World.allows_of_scalar scalar
      · exact (first.allows_of_managed sides before allows (managed ▸ Option.some_ne_none _) part).later started
    unfold Request.reconcile
    split
    · exact ⟨offers, World.allows_of_scalar rfl⟩
    · exact ⟨offers, known⟩
  | @found source target identifier asked stored =>
    refine ⟨(resolving.sound _ asked).1, ?_⟩
    intro id same
    obtain rfl := Value.object.inj same
    have member := resolving.stored (EntityStore.mem_stored_of_find stored)
    exact ⟨since.holds (sides.stored _ member),
      .inl (FiniteGraph.mem_breadthFirst.2 ⟨_, List.mem_append_left _ member, .refl _⟩)⟩

/-- What a request is answered with may stand on the authoritative side. -/
theorem allows_of_yields (resolving : Resolving root start now) {final : World} (onward : now.Later final)
    (paired : final.PairsEntities) {request : Request} {result : Value} (asked : .asked request ∈ now.journal)
    (yields : now.Yields result request) : start.Allows root now result := by
  obtain ⟨offers, allows⟩ := resolving.sound _ asked
  cases request with
  | disconnect value => exact yields.elim
  | apply detached =>
    simp only [World.Yields] at yields
    split at yields
    · exact World.allows_of_scalar (yields ▸ rfl)
    · exact resolving.allows_of_resolved sides since onward paired offers yields
  | applyTo detached authoritative =>
    simp only [World.Yields] at yields
    split at yields
    · exact yields ▸ allows
    · exact resolving.allows_of_resolved sides since onward paired offers yields

/-- A recorded counterpart may stand on the authoritative side. -/
theorem allows_of_pairs (resolving : Resolving root start now) {source : ObjectId} {counterpart : Value}
    (paired : Account.Pairs start now source counterpart) :
    source ∈ start.detachedSide root ∧ start.Allows root now counterpart := by
  cases paired with
  | given asked =>
    obtain ⟨offers, allows⟩ := resolving.sound _ asked
    exact ⟨offers source rfl, allows⟩
  | itself asked unhandled unmanaged =>
    have detached := (resolving.sound _ asked).1 source rfl
    rw [since.entity?_eq (sides.holds_of_detached _ detached)] at unmanaged
    have shapeless := shapeless_of_unhandled sides since detached unhandled
    exact ⟨detached, allows_of_passed sides since detached shapeless unmanaged⟩
  | rebuilt asked new held =>
    refine ⟨(resolving.sound _ asked).1 source rfl, ?_⟩
    intro id same
    obtain rfl := Value.object.inj same
    exact ⟨held, .inr (.inl new)⟩

omit since in
/-- What a container is supplied with may stand on the authoritative side. -/
theorem allows_of_supplies {begun : World} (first : Resolving root start begun)
    (resolving : Resolving root start now) {source : ObjectId} (detached : source ∈ start.detachedSide root)
    {value : Value} (supplied : Account.Supplies begun now source value) : start.Allows root now value := by
  cases supplied with
  | null => exact World.allows_of_scalar rfl
  | answer answered => exact resolving.sound _ answered
  | scalar plain slot =>
    rw [first.unchanged source detached] at plain slot
    exact World.allows_of_scalar (sides.scalars source detached plain value slot)

omit sides since in
/-- Giving up leftovers puts nothing anywhere. -/
theorem of_sheds {after : World} {container : ObjectId} {kept leftovers : List Value}
    (resolving : Resolving root start now) (shed : Sheds container kept leftovers now after) :
    Resolving root start after := by
  refine resolving.of_same shed.later shed.heap shed.visits shed.stored_subset fun event member => ?_
  rcases shed.noted event member with before | ⟨entity, rfl, -⟩
  · exact .inl before
  · exact .inr trivial

omit since in
/-- A container is refilled with what may stand on the authoritative side. -/
theorem refill (resolving : Resolving root start now) {target : ObjectId}
    (allows : start.Allows root now (.object target)) {handler : Handler} {change : Edit}
    (refills : handler.Refills change) (carried : ∀ value ∈ change.values, start.Allows root now value) :
    Resolving root start (Action.edit target change now).2 :=
  resolving.edit refills.ne_setOrigin (resolving.idle_of_refills sides allows refills) carried

/-- What is written into an entity may stand on the authoritative side. -/
theorem write (resolving : Resolving root start now) {target : ObjectId}
    (allows : start.Allows root now (.object target))
    (managed : now.store.entity? (now.heap.node target).type ≠ none) {metadata : Metadata}
    (transparent : metadata.Transparent) {property : String} {merged : Value}
    (taken : start.Allows root now merged) {change : Edit}
    (made : Property.Edits now.heap metadata target property merged change) :
    Resolving root start (Action.edit target change now).2 := by
  refine resolving.edit made.ne_setOrigin (fun detached => ?_) fun part carried => ?_
  · rw [since.entity?_eq (sides.holds_of_detached _ detached)] at managed
    exact absurd (passed_of_detached sides allows detached).2 managed
  · rcases transparent.write made part carried with scalar | rfl | old
    · exact World.allows_of_scalar scalar
    · exact taken
    · exact resolving.allows_of_managed sides since allows managed old

end Resolving

/-- Along a run that pairs entities with entities, only what may stand on the authoritative side is put there. -/
theorem Account.resolving (account : Account setting root start now) (sides : World.Apart setting start root)
    (quiet : start.journal = []) (unvisited : ∀ source, start.visits.get? source = none) {final : World}
    (onward : now.Later final) (paired : final.PairsEntities) : Resolving root start now := by
  induction account with
  | start => exact .initially sides quiet unvisited
  | asked first account started sought first_ih ih =>
    have rest := (World.Later.note _ _).trans onward
    have resolving := ih rest
    exact resolving.note
      ((first_ih (started.trans rest)).sound_of_seeks sides account.later resolving started sought first.later)
  | answered account asked yields ih =>
    have rest := (World.Later.note _ _).trans onward
    exact (ih rest).note ((ih rest).allows_of_yields sides account.later rest paired asked yields)
  | walked account source ih => exact (ih ((World.Later.note _ _).trans onward)).note trivial
  | dispatched account same ih =>
    have later := World.Later.dispatch _ same
    exact (ih (later.trans onward)).of_same later rfl rfl (List.Subset.refl _) fun _ old => .inl old
  | cached account same ih =>
    have later := World.Later.cache _ same
    exact (ih (later.trans onward)).of_same later rfl rfl (List.Subset.refl _) fun _ old => .inl old
  | called account spent ih =>
    have later := World.Later.called _ spent
    exact (ih (later.trans onward)).of_same later rfl rfl (List.Subset.refl _) fun _ old => .inl old
  | recorded account new pairs ih =>
    have resolving := ih ((World.Later.record _ new _).trans onward)
    obtain ⟨detached, allows⟩ := resolving.allows_of_pairs sides account.later pairs
    exact resolving.record new detached allows
  | allocated account handled ih =>
    exact (ih ((World.Later.allocate _ _).trans onward)).allocate sides account.later handled
  | filled first account started recorded new fills supplied first_ih ih =>
    have rest := (World.Later.edit _ _ fills.ne_setOrigin).trans onward
    have begun := first_ih (started.trans rest)
    refine (ih rest).edit fills.ne_setOrigin (fun detached => ?_) fun value carried => ?_
    · exact absurd (sides.holds_of_detached _ detached) new
    · exact begun.allows_of_supplies sides (ih rest) (begun.visits _ _ recorded).1 (supplied value carried)
  | @slotted begun now first account started source target recorded handled index value supplied first_ih ih =>
    have refills := Handler.Refills.slot index value
    have rest := (World.Later.edit now target refills.ne_setOrigin).trans onward
    have begun := first_ih (started.trans rest)
    obtain ⟨detached, allows⟩ := begun.visits _ _ recorded
    refine (ih rest).refill sides (allows.later started) refills fun value carried => ?_
    obtain rfl := List.mem_singleton.1 carried
    exact begun.allows_of_supplies sides (ih rest) detached supplied
  | @refilled begun now after first account started source target recorded handler handled whole loaded change
      refills supplied leftovers drawn lost first_ih ih =>
    have shed := sheds_of_discardLeftovers lost
    have rest := (shed.later.trans (.edit after target refills.ne_setOrigin)).trans onward
    have resolving := ih rest
    have allows := ((first_ih (started.trans rest)).visits _ _ recorded).2.later (started.trans shed.later)
    refine (resolving.of_sheds shed).refill sides allows refills fun value carried => ?_
    obtain ⟨request, answered⟩ := supplied value carried
    exact World.Allows.later (resolving.sound _ answered) shed.later
  | @written begun earlier now first second account started read source target entity metadata property value
      current merged change merging taking changed made first_ih second_ih ih =>
    have rest := (World.Later.edit now target made.ne_setOrigin).trans onward
    have since := started.trans read
    have resolving := ih rest
    have allows := ((first_ih (since.trans rest)).visits _ _ merging.recorded).2
    have managed : now.store.entity? (now.heap.node target).type ≠ none := by
      rw [since.entity?_eq (allows target rfl).1, merging.managed]
      exact Option.some_ne_none _
    have uses : start.Uses setting metadata := ⟨begun, target, entity.type, first.later, merging.metadata_eq⟩
    exact resolving.write sides account.later (allows.later since) managed (uses.transparent sides.transparent)
      (resolving.sound _ taking.answered) made

end Sides

/-- Every object of an entity type without handler that a run puts anywhere is an authoritative one, if the run
paired entities with entities only. -/
theorem Setting.references_resolved {setting : Setting} {world : World} {request : Request}
    (reconciles : ∀ value, request ≠ .disconnect value) (sides : world.Apart setting request) {result : Value}
    {after : World} (run : setting.runFresh request world = (.ok result, after)) (paired : after.PairsEntities)
    {target entity : ObjectId} {change : Edit} (edited : .edited target change ∈ after.journal)
    (carried : .object entity ∈ change.values)
    (managed : after.store.entity? (after.heap.node entity).type ≠ none)
    (unhandled : after.handler? entity = none) : entity ∈ world.authoritativeSide request := by
  have ensures : (setting.runFresh request).Ensures world _ _ := setting.runFresh_account reconciles
  have account := (ensures.answered result after run).1
  have resolving := account.resolving sides.rested rfl (fun _ => rfl) (.refl after) paired
  obtain ⟨held, known | new | ⟨detached, -, unmanaged⟩⟩ := resolving.sound _ edited _ carried entity rfl
  · exact known
  · exact absurd unhandled (resolving.handled entity new held)
  · rw [account.later.entity?_eq (sides.rested.holds_of_detached _ detached)] at managed
    exact absurd unmanaged managed

namespace Managers

def schema : Schema := ⟨[{ name := ⟨"Person"⟩, properties := .ofList [("id", .field), ("boss", .field)] }]⟩

def setting : Setting := { schema }

def person (number : Int64) (boss : Value) : Node := .bean ⟨"Person"⟩ [("id", .int number), ("boss", boss)]

/-- Two stored persons, the second one with the given boss, and detached copies of them. The copy of the second
has the copy of the first as its boss. -/
def world (boss : Value) : World where
  heap := ⟨#[{ person 2 .null with origin := .stored }, { person 3 boss with origin := .stored },
    person 2 .null, person 3 (.object ⟨2⟩)]⟩
  store :=
    { entities := .ofList [(⟨"Person"⟩, { type := ⟨"Person"⟩, idProperty := "id" })]
      stored := [⟨0⟩, ⟨1⟩] }
  dispatch := .ofRegistry (.withDefaults schema)
  cache := .ofSchema schema

def request : Request := .apply (.object ⟨3⟩)

private theorem setting_transparent : setting.Transparent schema := by
  have fields : schema.AllFields := by
    intro decl declared
    obtain rfl := List.mem_singleton.1 declared
    exact OrderedMap.forall_ofList (fun access : Access => access = .field) (by simp)
  intro type metadata known property access found
  obtain rfl := (fields.metadata? known).access?_eq found
  trivial

/-- No boss, and a name in place of one. -/
def vacancies : List Value := [.null, .text "nobody"]

private theorem mem_detachedSide {boss : Value} (listed : boss ∈ vacancies) :
    ∀ id ∈ (world boss).detachedSide request, id ∈ [⟨2⟩, ⟨3⟩] := by
  refine Heap.forall_reachable (by decide) ?_
  revert boss
  decide +kernel

private theorem mem_authoritativeSide {boss : Value} (listed : boss ∈ vacancies) :
    ∀ id ∈ (world boss).authoritativeSide request, id ∈ [⟨0⟩, ⟨1⟩] := by
  refine Heap.forall_reachable ?_ ?_ <;> revert boss <;> decide +kernel

private theorem apart {boss : Value} (listed : boss ∈ vacancies) : (world boss).Apart setting request where
  defaults := ⟨schema, rfl⟩
  transparent := setting_transparent
  closed := by
    revert boss
    decide +kernel
  stored := by
    revert boss
    decide +kernel
  detached := by
    rintro _ ⟨⟩
    revert boss
    decide +kernel
  authoritative := by rintro _ ⟨⟩
  apart id detached authoritative := by
    have other : ∀ id ∈ [(⟨2⟩ : ObjectId), ⟨3⟩], id ∉ [(⟨0⟩ : ObjectId), ⟨1⟩] := by decide
    exact other id (mem_detachedSide listed id detached) (mem_authoritativeSide listed id authoritative)
  scalars := by
    intro id detached
    have inside := mem_detachedSide listed id detached
    clear detached
    revert id
    revert boss
    decide +kernel
  passed := by
    intro id detached
    have inside := mem_detachedSide listed id detached
    clear detached
    revert id
    revert boss
    decide +kernel

def appointment (boss : Value) : Except Ending Value × World := setting.runFresh request (world boss)

/-- A person without a boss gets the stored one. -/
theorem vacancy_resolved :
    (appointment .null).1 = .ok (.object ⟨1⟩) ∧
      .edited ⟨1⟩ (.setAttribute "boss" (.object ⟨0⟩)) ∈ (appointment .null).2.journal ∧
      ⟨0⟩ ∈ (world .null).authoritativeSide request := by
  have run : appointment .null = (.ok (.object ⟨1⟩), (appointment .null).2) := Prod.ext (by decide +kernel) rfl
  have edited : .edited ⟨1⟩ (.setAttribute "boss" (.object ⟨0⟩)) ∈ (appointment .null).2.journal := by decide +kernel
  have paired : (appointment .null).2.PairsEntities := by
    have visits : (appointment .null).2.visits.log = [(⟨2⟩, .object ⟨0⟩), (⟨3⟩, .object ⟨1⟩)] := by decide +kernel
    intro source counterpart known _ _
    have listed := Visits.mem_log_of_get? known
    simp only [visits, List.mem_cons, Prod.mk.injEq, List.not_mem_nil, or_false] at listed
    rcases listed with ⟨-, rfl⟩ | ⟨-, rfl⟩
    · exact ⟨⟨0⟩, rfl, by decide +kernel⟩
    · exact ⟨⟨1⟩, rfl, by decide +kernel⟩
  have reconciles : ∀ value, request ≠ .disconnect value := nofun
  refine ⟨by decide +kernel, edited, ?_⟩
  exact Setting.references_resolved reconciles (apart (by decide)) run paired edited List.mem_cons_self
    (by decide +kernel) (by decide +kernel)

/-- In place of a name the detached boss is put into the stored person. -/
theorem detached_boss_kept :
    (world (.text "nobody")).Apart setting request ∧ (appointment (.text "nobody")).1 = .ok (.object ⟨1⟩) ∧
      .edited ⟨1⟩ (.setAttribute "boss" (.object ⟨2⟩)) ∈ (appointment (.text "nobody")).2.journal ∧
      (appointment (.text "nobody")).2.store.entity? ((appointment (.text "nobody")).2.heap.node ⟨2⟩).type ≠ none ∧
      ⟨2⟩ ∉ (world (.text "nobody")).authoritativeSide request := by
  refine ⟨apart (by decide), by decide +kernel, by decide +kernel, by decide +kernel, fun member => ?_⟩
  have inside := mem_authoritativeSide (by decide) _ member
  revert inside
  decide

end Managers

end Reconciler
