import Mathlib.Data.List.Pairwise
import Reconciler.Proofs.Loan.Containers
import Reconciler.Proofs.Passage.Refilled
import Reconciler.Proofs.Roster

/-! # The engine refills a collection of entities

The elements are merged one after the other. No merge changes an identifier, so whom an element stands for is the
same whenever it is looked up, and as no two elements stand for one entity, the candidate that one takes is missed by
no other. What is left over in the end are the candidates that no element stands for.

Whom the elements stand for and what one merge changes says nothing about the container itself, so the same serves
for the values of a map.
-/

namespace Reconciler

open Reconciler.Action

/-- The entity that an element of a detached collection stands for: one of the candidates, or else a stored one. -/
def World.partner? (world : World) (candidates : List ObjectId) (element : ObjectId) : Option ObjectId :=
  (candidates ++ world.store.stored).find? (world.sameEntity element)

/-- A detached collection and an authoritative one, what they hold, and the entities that the detached elements
stand for. -/
structure Roster where
  detached : ObjectId
  authoritative : ObjectId
  kind : CollectionKind
  elements : List ObjectId
  candidates : List ObjectId
  partner : ObjectId → ObjectId

namespace EntityStore

/-- The store after it gave up some objects, in this order. -/
def without (store : EntityStore) (given : List ObjectId) : EntityStore :=
  { store with
    stored := store.stored.filter (fun id => decide (id ∉ given))
    removed := store.removed ++ given }

theorem without_nil (store : EntityStore) : store.without [] = store := by
  have all : store.stored.filter (fun id => decide (id ∉ ([] : List ObjectId))) = store.stored := by simp
  rw [without, all, List.append_nil]

/-- The store gives up one object more. -/
private theorem remove_without {store : EntityStore} (sound : store.faults.get? .remove = none) {heap : Heap}
    {id : ObjectId}
    (managed : store.manages (heap.node id).type = true) (given : List ObjectId) :
    (store.without given).remove heap id = .ok (store.without (given ++ [id])) := by
  have stored : (store.stored.filter (fun other => decide (other ∉ given))).filter (fun other => decide (other ≠ id)) =
      store.stored.filter (fun other => decide (other ∉ given ++ [id])) := by
    rw [List.filter_filter]
    exact List.filter_congr fun other _ => by simp [and_comm]
  have removes : (store.without given).faults.get? .remove = none := sound
  have run := remove_of_sound removes managed
  simpa only [without, stored, List.append_assoc] using run

end EntityStore

/-- A container whose content is there is brought up to date. -/
theorem answers_keepUnloaded_of_loaded {now : World} (detached : ObjectId) {authoritative : ObjectId}
    (loaded : (now.heap.node authoritative).origin.isLoaded = true) :
    (keepUnloaded detached authoritative).Answers now (fun kept after => kept = false ∧ now = after) := by
  apply answers_look_bind
  rw [Value.isLoaded, loaded, Bool.not_true, Bool.and_false, if_neg Bool.false_ne_true]
  exact answers_pure ⟨rfl, rfl⟩

private theorem World.lost_append (setting : Setting) (world : World) (kept first second : List Value) :
    world.lost setting kept (first ++ second) = world.lost setting kept first ++ world.lost setting kept second := by
  unfold World.lost
  split
  · rw [List.filterMap_append, List.filter_append]
  · rfl

section Leftovers

variable {setting : Setting} {world now : World} (enabled : setting.config.deleteRemoved = true)
  (sound : world.Serves .remove) (container : ObjectId) (kept : List Value)

include enabled sound

/-- One leftover is given up, if it is an entity that was not kept. -/
private theorem answers_discardUnless {done : List Value} (heap : now.heap = world.heap)
    (given : now.store = world.store.without (world.lost setting kept done)) (quiet : now.outages = world.outages)
    (leftover : Value) : (discardUnless container kept leftover).Answers now (fun _ after =>
      after.heap = world.heap ∧ after.store = world.store.without (world.lost setting kept (done ++ [leftover])) ∧
        after.outages = world.outages) := by
  rw [World.lost_append]
  unfold discardUnless
  split
  · next id =>
    have managed : now.store.manages (now.heap.node id).type = world.store.manages (world.heap.node id).type := by
      rw [given, heap]
      rfl
    have last : world.lost setting kept [.object id] =
        if !kept.contains (.object id) && world.store.manages (world.heap.node id).type then [id] else [] := by
      rw [World.lost, if_pos enabled]
      exact List.filter_cons
    apply answers_look_bind
    rw [managed, last]
    split
    · next lost =>
      have manages := (Bool.and_eq_true_iff.1 lost).2
      rw [← heap] at manages
      have run := EntityStore.remove_without sound.faults manages (world.lost setting kept done)
      rw [← given] at run
      have silent : now.outages .remove = [] := by rw [quiet, sound.outages]
      exact answers_bind_of_eq rfl ⟨(), _, changeStore_of_ok silent run, heap, rfl, quiet⟩
    · rw [List.append_nil]
      exact answers_pure ⟨heap, given, quiet⟩
  · next other =>
    have scalar : leftover.object? = none := by
      cases leftover with
      | object id => exact absurd rfl (other id)
      | _ => rfl
    have last : world.lost setting kept [leftover] = [] := by
      rw [World.lost, if_pos enabled, List.filterMap_cons_none scalar]
      rfl
    rw [last, List.append_nil]
    exact answers_pure ⟨heap, given, quiet⟩

omit enabled in
/-- The entities among the leftovers that were not kept are given up, if the configuration says so. -/
theorem answers_discardLeftovers (leftovers : List Value) :
    (discardLeftovers setting container kept leftovers).Answers world (fun _ after => after.heap = world.heap ∧
      after.store = world.store.without (world.lost setting kept leftovers) ∧ after.outages = world.outages) := by
  unfold discardLeftovers
  split
  · next enabled =>
    apply answers_forM (fun done after => after.heap = world.heap ∧
      after.store = world.store.without (world.lost setting kept done) ∧ after.outages = world.outages)
    · have none : world.lost setting kept [] = [] := by
        rw [World.lost, if_pos enabled]
        rfl
      rw [none]
      exact ⟨rfl, (EntityStore.without_nil _).symm, rfl⟩
    · rintro done leftover rest - middle ⟨heap, given, quiet⟩
      exact answers_discardUnless enabled sound container kept heap given quiet leftover
  · next disabled =>
    rw [World.lost, if_neg disabled, EntityStore.without_nil]
    exact answers_pure ⟨rfl, rfl, rfl⟩

end Leftovers

namespace Roster

def partners (roster : Roster) : List ObjectId := roster.elements.map roster.partner

/-- The authoritative elements that no detached one stands for. -/
def leftovers (roster : Roster) : List ObjectId :=
  roster.candidates.filter (fun candidate => decide (candidate ∉ roster.partners))

/-- The collections of a world without failures of the store. No two detached elements stand for one entity, and each
stands for one that it can be merged into. -/
structure Fits (roster : Roster) (setting : Setting) (world : World) : Prop where
  carries : ∃ kind, (world.heap.node roster.detached).content = .collection kind (roster.elements.map .object)
  holds : (world.heap.node roster.authoritative).content =
    .collection roster.kind (roster.candidates.map .object)
  handled : world.handler? roster.detached = some .collection
  loaded : (world.heap.node roster.authoritative).origin.isLoaded = true
  passes : world.PassesScalars
  sound : ∀ operation, world.Serves operation
  apart : ∀ element ∈ roster.elements, element ∉ roster.candidates
  managed : ∀ candidate ∈ roster.candidates, world.store.manages (world.heap.node candidate).type = true
  distinct : roster.elements.Pairwise (fun first second => world.sameEntity first second = false)
  partner : ∀ element ∈ roster.elements,
    world.partner? roster.candidates element = some (roster.partner element)
  enrolled : ∀ element ∈ roster.elements, ∃ entity metadata,
    Enrolled setting world entity metadata element (roster.partner element)

/-- What is true of the elements and their partners, whatever it is that holds them. -/
structure Matches (roster : Roster) (setting : Setting) (world : World) : Prop where
  passes : world.PassesScalars
  sound : ∀ operation, world.Serves operation
  apart : ∀ element ∈ roster.elements, element ∉ roster.candidates
  managed : ∀ candidate ∈ roster.candidates, world.store.manages (world.heap.node candidate).type = true
  distinct : roster.elements.Pairwise (fun first second => world.sameEntity first second = false)
  partner : ∀ element ∈ roster.elements,
    world.partner? roster.candidates element = some (roster.partner element)
  enrolled : ∀ element ∈ roster.elements, ∃ entity metadata,
    Enrolled setting world entity metadata element (roster.partner element)

private theorem Fits.matches {roster : Roster} {setting : Setting} {world : World} (fits : roster.Fits setting world) :
    roster.Matches setting world :=
  { fits with }

/-- A partner has taken over what its element carries. -/
structure Merged (setting : Setting) (world : World) (element partner : ObjectId) (after : World) : Prop where
  retained : (world.heap.node partner).Retained (after.heap.node partner)
  attr_eq : ∀ name, (after.heap.node partner).attr name =
    world.heap.takenOver (setting.merges world element) element partner name

theorem Merged.of_node {setting : Setting} {world now after : World} {element partner : ObjectId}
    (merged : Merged setting world element partner now)
    (kept : after.heap.node partner = now.heap.node partner) : Merged setting world element partner after :=
  ⟨kept ▸ merged.retained, kept ▸ merged.attr_eq⟩

/-- The partners of the elements that are done are merged, and everything else is as it was. -/
structure Enrolling (roster : Roster) (setting : Setting) (world : World) (done : List ObjectId) (now : World) :
    Prop where
  size_eq : now.heap.size = world.heap.size
  merged : ∀ element ∈ done, Merged setting world element (roster.partner element) now
  others : ∀ id, id ∉ done.map roster.partner → now.heap.node id = world.heap.node id
  unvisited : ∀ element ∈ roster.elements, element ∉ done → now.visits.get? element = none
  store : now.store = world.store
  registry : now.dispatch.registry = world.dispatch.registry
  schema : now.cache.schema = world.cache.schema
  outages : now.outages = world.outages

/-- The authoritative collection holds the partners in the order of the elements. Every partner is merged, and no
other object has changed. The store has given up the leftovers if the configuration says so, and nothing else. -/
structure Updated (roster : Roster) (setting : Setting) (world after : World) : Prop where
  size_eq : after.heap.size = world.heap.size
  refilled : after.heap.node roster.authoritative =
    { world.heap.node roster.authoritative with
      content := .collection roster.kind (roster.partners.map .object) }
  merged : ∀ element ∈ roster.elements, Merged setting world element (roster.partner element) after
  others : ∀ id, id ≠ roster.authoritative → id ∉ roster.partners → after.heap.node id = world.heap.node id
  store : after.store =
    if setting.config.deleteRemoved then world.store.without roster.leftovers else world.store

private theorem Updated.of_unmoved {roster : Roster} {setting : Setting} {world now after : World}
    (updated : roster.Updated setting world now) (unmoved : now.Unmoved after) :
    roster.Updated setting world after where
  size_eq := by rw [unmoved.heap, updated.size_eq]
  refilled := by rw [unmoved.heap, updated.refilled]
  merged element listed := (updated.merged element listed).of_node (by rw [unmoved.heap])
  others := unmoved.heap ▸ updated.others
  store := unmoved.store.trans updated.store

section

variable {roster : Roster} {setting : Setting} {world now after : World} {done : List ObjectId}
  {element other : ObjectId}

namespace Matches

variable (pairs : roster.Matches setting world) (listed : element ∈ roster.elements)

include pairs listed

theorem sameEntity_partner : world.sameEntity element (roster.partner element) = true :=
  List.find?_some (pairs.partner element listed)

/-- Elements that stand for one entity are one element. -/
theorem eq_of_sameEntity (listed' : other ∈ roster.elements) (same : world.sameEntity element other = true) :
    element = other := by
  have symm : Std.Symm (fun first second => world.sameEntity first second = false) :=
    ⟨fun _ _ apart => Bool.eq_false_iff.2 fun same => Bool.eq_false_iff.1 apart (World.sameEntity_symm same)⟩
  by_contra different
  exact Bool.eq_false_iff.1 (pairs.distinct.forall listed listed' different) same

omit listed in
/-- No element is listed twice. -/
theorem nodup : roster.elements.Nodup := by
  refine pairs.distinct.imp_of_mem fun {first second} member _ apart => ?_
  rintro rfl
  obtain ⟨entity, _, enrolled⟩ := pairs.enrolled first member
  exact Bool.eq_false_iff.1 apart (World.sameEntity_iff.2 ⟨entity, enrolled.managed, rfl, rfl⟩)

/-- No element is a partner. -/
private theorem not_mem_partners : element ∉ roster.partners := by
  intro member
  obtain ⟨other, listed', partner⟩ := List.mem_map.1 member
  have same := pairs.sameEntity_partner listed'
  rw [partner] at same
  obtain rfl := pairs.eq_of_sameEntity listed' listed same
  obtain ⟨_, _, enrolled⟩ := pairs.enrolled other listed
  exact enrolled.different partner.symm

/-- Different elements have different partners. -/
theorem eq_of_partner_eq (listed' : other ∈ roster.elements) (same : roster.partner element = roster.partner other) :
    element = other := by
  have one := pairs.sameEntity_partner listed
  rw [same] at one
  exact pairs.eq_of_sameEntity listed listed' (World.sameEntity_of_shared one (pairs.sameEntity_partner listed'))

end Matches

namespace Enrolling

variable (enrolling : roster.Enrolling setting world done now)

include enrolling

/-- An object is changed as the partner of an element, or not at all. -/
private theorem cases_node (id : ObjectId) :
    (∃ element ∈ done, roster.partner element = id ∧ Merged setting world element id now) ∨
      now.heap.node id = world.heap.node id := by
  by_cases member : id ∈ done.map roster.partner
  · obtain ⟨element, earlier, rfl⟩ := List.mem_map.1 member
    exact .inl ⟨element, earlier, rfl, enrolling.merged element earlier⟩
  · exact .inr (enrolling.others id member)

/-- No object gets another type. -/
private theorem type_eq (id : ObjectId) : (now.heap.node id).type = (world.heap.node id).type := by
  rcases enrolling.cases_node id with ⟨_, -, -, merged⟩ | same
  · exact merged.retained.type_eq
  · rw [same]

theorem of_unmoved (unmoved : now.Unmoved after) : roster.Enrolling setting world done after where
  size_eq := by rw [unmoved.heap, enrolling.size_eq]
  merged element earlier := (enrolling.merged element earlier).of_node (by rw [unmoved.heap])
  others := unmoved.heap ▸ enrolling.others
  unvisited := unmoved.visits ▸ enrolling.unvisited
  store := unmoved.store.trans enrolling.store
  registry := unmoved.registry.trans enrolling.registry
  schema := unmoved.schema.trans enrolling.schema
  outages := unmoved.outages.trans enrolling.outages

/-- What would be given up does not depend on what has been merged. -/
theorem lost_eq (kept leftovers : List Value) :
    now.lost setting kept leftovers = world.lost setting kept leftovers := by
  simp only [World.lost, enrolling.store, enrolling.type_eq]

theorem passes (pairs : roster.Matches setting world) : now.PassesScalars := by
  intro value plain handler found
  rw [enrolling.registry, Handler.Registry.ofValue_of_scalar _ plain _ world.heap] at found
  exact pairs.passes value plain handler found

theorem sound (pairs : roster.Matches setting world) (operation : StoreOperation) : now.Serves operation :=
  (pairs.sound operation).of_same (by rw [enrolling.store]) enrolling.outages

variable (pairs : roster.Matches setting world) (within : ∀ element ∈ done, element ∈ roster.elements)

include pairs within

/-- No element is changed. -/
theorem node_element (listed : element ∈ roster.elements) : now.heap.node element = world.heap.node element := by
  apply enrolling.others
  intro member
  obtain ⟨other, earlier, partner⟩ := List.mem_map.1 member
  exact pairs.not_mem_partners listed (List.mem_map.2 ⟨other, within other earlier, partner⟩)

/-- A partner is not changed before its element is merged. -/
private theorem node_partner (listed : element ∈ roster.elements) (new : element ∉ done) :
    now.heap.node (roster.partner element) = world.heap.node (roster.partner element) := by
  apply enrolling.others
  intro member
  obtain ⟨other, earlier, partner⟩ := List.mem_map.1 member
  exact new (pairs.eq_of_partner_eq (within other earlier) listed partner ▸ earlier)

/-- No object gets another identifier: an entity takes over the identifier of an element that is the same entity. -/
private theorem identifier_eq {entity : Entity} {id : ObjectId}
    (managed : world.store.entity? (world.heap.node id).type = some entity) :
    (now.heap.node id).attr entity.idProperty = (world.heap.node id).attr entity.idProperty := by
  rcases enrolling.cases_node id with ⟨element, earlier, rfl, merged⟩ | same
  · have same := pairs.sameEntity_partner (within element earlier)
    rw [World.type_of_sameEntity same] at managed
    rw [merged.attr_eq, Heap.takenOver]
    split
    · exact (World.attr_of_sameEntity managed same).symm
    · rfl
  · rw [same]

/-- Whom an object stands for does not change. -/
theorem sameEntity_eq (left : ObjectId) : now.sameEntity left = world.sameEntity left := by
  funext right
  refine World.sameEntity_eq_of_same enrolling.store enrolling.type_eq ?_
  intro entity managed id _ type
  exact enrolling.identifier_eq pairs within (type ▸ managed)

/-- Who was ready to be merged is still ready. -/
theorem enrolled (listed : element ∈ roster.elements) (new : element ∉ done) {entity : Entity}
    {metadata : Metadata} (enrolled : Enrolled setting world entity metadata element (roster.partner element)) :
    Enrolled setting now entity metadata element (roster.partner element) :=
  enrolled.of_same (enrolling.node_element pairs within listed) (enrolling.node_partner pairs within listed new)
    enrolling.store enrolling.registry enrolling.schema

/-- One element more is done. -/
private theorem go (listed : element ∈ roster.elements) (new : element ∉ done) {target : Value}
    (amended : (record element target now).2.Amended (roster.partner element)
      (now.heap.takenOver (setting.merges now element) element (roster.partner element)) after) :
    roster.Enrolling setting world (done ++ [element]) after where
  size_eq := amended.size_eq.trans enrolling.size_eq
  merged other among := by
    rcases List.mem_append.1 among with earlier | last
    · have apart : roster.partner other ≠ roster.partner element := fun same =>
        new (pairs.eq_of_partner_eq (within other earlier) listed same ▸ earlier)
      exact (enrolling.merged other earlier).of_node (amended.others _ apart)
    · obtain rfl := List.mem_singleton.1 last
      obtain ⟨entity, metadata, enrolled⟩ := pairs.enrolled other listed
      have carrier := enrolling.node_element pairs within listed
      have partner := enrolling.node_partner pairs within listed new
      have merges : setting.merges now other = setting.merges world other := by
        rw [enrolled.merges_eq, (enrolling.enrolled pairs within listed new enrolled).merges_eq]
      refine ⟨partner ▸ amended.retained, fun name => ?_⟩
      rw [amended.attr_eq, merges, Heap.takenOver, carrier, partner, Heap.takenOver]
  others id apart := by
    rw [List.map_append, List.mem_append, not_or] at apart
    have different : id ≠ roster.partner element := fun same => apart.2 (List.mem_singleton.2 same)
    exact (amended.others id different).trans (enrolling.others id apart.1)
  unvisited other listed' apart := by
    rw [List.mem_append, not_or, List.mem_singleton] at apart
    rw [amended.visits]
    show (now.visits.record element target).get? other = none
    rw [Visits.get?_record, if_neg (Ne.symm apart.2)]
    exact enrolling.unvisited other listed' apart.1
  store := amended.store.trans enrolling.store
  registry := amended.registry.trans enrolling.registry
  schema := amended.schema.trans enrolling.schema
  outages := amended.outages.trans enrolling.outages

end Enrolling

/-- Who is missed by one test is no loss to another. -/
private theorem find?_eraseP {α : Type} {taken wanted : α → Bool}
    (disjoint : ∀ item, taken item = true → wanted item = false)
    (items : List α) : (items.eraseP taken).find? wanted = items.find? wanted := by
  induction items with
  | nil => rfl
  | cons head rest ih =>
    by_cases here : taken head = true
    · rw [List.eraseP_cons_of_pos here, List.find?_cons_of_neg (by simp [disjoint head here])]
    · rw [List.eraseP_cons_of_neg here, List.find?_cons, List.find?_cons, ih]

/-- A filter does not miss what it drops. -/
private theorem filter_eraseP {α : Type} {taken keep : α → Bool} {items : List α}
    (dropped : ∀ item, items.find? taken = some item → keep item = false) :
    (items.eraseP taken).filter keep = items.filter keep := by
  induction items with
  | nil => rfl
  | cons head rest ih =>
    by_cases here : taken head = true
    · rw [List.find?_cons_of_pos here] at dropped
      rw [List.eraseP_cons_of_pos here, List.filter_cons_of_neg (by simp [dropped head rfl])]
    · rw [List.find?_cons_of_neg here] at dropped
      rw [List.eraseP_cons_of_neg here, List.filter_cons, List.filter_cons, ih dropped]

section Enrolled

variable {entity : Entity} {metadata : Metadata} {partner : ObjectId}
  (enrolled : Enrolled setting now entity metadata element partner)

include enrolled

private theorem sameEntity_eq_decide : now.sameEntity element = fun other =>
    decide ((now.heap.node other).type = (now.heap.node element).type ∧
      (now.heap.node other).attr entity.idProperty = (now.heap.node element).attr entity.idProperty) := by
  funext other
  rw [World.sameEntity, enrolled.managed, Option.any_some]

private theorem identifier?_eq :
    entity.identifier? now.heap element = some ((now.heap.node element).attr entity.idProperty) := by
  rw [Entity.identifier?, enrolled.known]
  rfl

/-- The store finds a stored object that is the same entity. -/
private theorem find_eq (sound : now.Serves .find) :
    now.store.find now.heap (now.heap.node element).type ((now.heap.node element).attr entity.idProperty) =
      .ok (now.store.stored.find? (now.sameEntity element)) := by
  rw [EntityStore.find_of_sound sound.faults enrolled.managed, sameEntity_eq_decide enrolled]

/-- An element that is no candidate itself takes the first that is the same entity. -/
theorem take_of_enrolled (sound : now.Serves .identifier) {values : List Value} (absent : .object element ∉ values) :
    Counterpart.take setting.schema now.store now.heap (.object element) values now.outages =
      (.ok (Counterpart.takeFirst (·.object?.any (now.sameEntity element)) values), now.outages) := by
  have test : Counterpart.isSameEntity now.heap entity (now.heap.node element).type
      ((now.heap.node element).attr entity.idProperty) = (·.object?.any (now.sameEntity element)) := by
    rw [sameEntity_eq_decide enrolled]
    funext candidate
    simp only [Counterpart.isSameEntity, Entity.identifier?]
    congr 1
    funext other
    refine decide_eq_decide.2 (and_congr_right fun _ => ?_)
    split
    · next null =>
      refine ⟨fun same => absurd same (Option.some_ne_none _).symm, fun same => ?_⟩
      rw [same, enrolled.known] at null
      cases null
    · exact Option.some_inj
  rw [← test]
  exact Counterpart.take_of_identified sound.faults sound.outages absent enrolled.unequal enrolled.managed
    (identifier?_eq enrolled)

/-- So it does among nothing but objects. -/
private theorem take_eq (sound : now.Serves .identifier) {left : List ObjectId} (absent : element ∉ left) :
    Counterpart.take setting.schema now.store now.heap (.object element) (left.map .object) now.outages =
      (.ok ((left.find? (now.sameEntity element)).map .object,
        (left.eraseP (now.sameEntity element)).map .object), now.outages) := by
  have unlisted : Value.object element ∉ left.map Value.object := by simpa using absent
  rw [take_of_enrolled enrolled sound unlisted, Counterpart.takeFirst, List.find?_map, List.eraseP_map]
  rfl

end Enrolled

/-- The candidates that are left for some elements. -/
structure Left (roster : Roster) (world : World) (elements left : List ObjectId) : Prop where
  subset : left ⊆ roster.candidates
  first : ∀ element ∈ elements,
    left.find? (world.sameEntity element) = roster.candidates.find? (world.sameEntity element)
  missed : left.filter (fun candidate => decide (candidate ∉ roster.partners)) = roster.leftovers

private theorem Left.start (roster : Roster) (world : World) : roster.Left world roster.elements roster.candidates :=
  ⟨List.Subset.refl _, fun _ _ => rfl, rfl⟩

/-- What one element takes is neither a counterpart of another one nor a leftover. -/
private theorem Left.take (pairs : roster.Matches setting world) {rest left : List ObjectId}
    (available : roster.Left world (element :: rest) left) (listed : element ∈ roster.elements)
    (others : ∀ other ∈ rest, other ∈ roster.elements ∧ element ≠ other) :
    roster.Left world rest (left.eraseP (world.sameEntity element)) where
  subset := List.Subset.trans List.eraseP_subset available.subset
  first other later := by
    obtain ⟨listed', different⟩ := others other later
    rw [find?_eraseP, available.first other (List.mem_cons_of_mem _ later)]
    intro candidate taken
    refine Bool.eq_false_iff.2 fun wanted => different ?_
    exact pairs.eq_of_sameEntity listed listed' (World.sameEntity_of_shared taken wanted)
  missed := by
    rw [filter_eraseP, available.missed]
    intro candidate found
    rw [available.first element List.mem_cons_self] at found
    have partner := pairs.partner element listed
    rw [World.partner?, List.find?_append, found, Option.some_or] at partner
    obtain rfl := Option.some.inj partner
    simpa [partners] using ⟨element, listed, rfl⟩

/-- A request is answered as its step is. -/
private theorem Enrolling.answers_answer (enrolling : roster.Enrolling setting world done now) {later : List ObjectId}
    {fuel : Nat} {request : Request} {expected : Value}
    (steps : ∀ now, roster.Enrolling setting world done now →
      (step setting (answer setting fuel) request).Answers now (fun result after =>
        result = expected ∧ roster.Enrolling setting world later after)) :
    (answer setting (fuel + 1) request).Answers now (fun result after =>
      result = expected ∧ roster.Enrolling setting world later after) :=
  Reconciler.answers_answer (steps _ (enrolling.of_unmoved ⟨rfl, rfl, rfl, rfl, rfl, rfl⟩)) fun _ _ holds =>
    ⟨holds.1, holds.2.of_unmoved ⟨rfl, rfl, rfl, rfl, rfl, rfl⟩⟩

section Elements

variable (pairs : roster.Matches setting world) (enrolling : roster.Enrolling setting world done now)
  (within : ∀ element ∈ done, element ∈ roster.elements) (listed : element ∈ roster.elements) (new : element ∉ done)
  {fuel : Nat}

include pairs enrolling within listed new

/-- An element is brought onto its partner. -/
private theorem Enrolling.answers_applyTo :
    (answer setting (fuel + 2) (.applyTo (.object element) (.object (roster.partner element)))).Answers now
      (fun result after => result = .object (roster.partner element) ∧
        roster.Enrolling setting world (done ++ [element]) after) := by
  refine enrolling.answers_answer fun now enrolling => ?_
  obtain ⟨entity, metadata, enrolled⟩ := pairs.enrolled element listed
  have enrolled := enrolling.enrolled pairs within listed new enrolled
  have same : now.sameEntity element (roster.partner element) = true := by
    rw [enrolling.sameEntity_eq pairs within]
    exact pairs.sameEntity_partner listed
  have unvisited : Option.bind (Value.object element).object? now.visits.get? = none :=
    enrolling.unvisited element listed new
  apply answers_look_bind
  rw [unvisited]
  apply answers_bind_of_eq rfl
  apply (answers_handlerOf (.object element)).bind
  rintro _ _ ⟨rfl, dispatch, registry, rfl⟩
  have walked : now.dispatch.registry.ofValue now.heap (.object element) = none := enrolled.walked
  rw [walked]
  -- The element counts as visited from here on.
  have serves : (record element (.object (roster.partner element)) now).2.Serves .identifier :=
    (enrolling.sound pairs .identifier).of_same rfl rfl
  have recorded : Enrolled setting (record element (.object (roster.partner element)) now).2 entity metadata element
      (roster.partner element) := enrolled.of_same rfl rfl rfl rfl rfl
  have unmoved : (record element (.object (roster.partner element)) now).2.Unmoved
      { now with visits := now.visits.record element (.object (roster.partner element)), dispatch } :=
    ⟨rfl, rfl, rfl, registry, rfl, rfl⟩
  apply (recorded.answers_mergeObject (enrolling.passes pairs) same serves unmoved).weaken
  rintro _ after ⟨rfl, amended⟩
  exact ⟨rfl, enrolling.go pairs within listed new amended⟩

/-- An element that stands for no candidate is brought onto the entity that the store finds. -/
private theorem Enrolling.answers_apply (missing : roster.candidates.find? (world.sameEntity element) = none) :
    (answer setting (fuel + 3) (.apply (.object element))).Answers now
      (fun result after => result = .object (roster.partner element) ∧
        roster.Enrolling setting world (done ++ [element]) after) := by
  refine enrolling.answers_answer fun now enrolling => ?_
  obtain ⟨entity, metadata, enrolled⟩ := pairs.enrolled element listed
  have enrolled := enrolling.enrolled pairs within listed new enrolled
  have found : now.store.find now.heap (now.heap.node element).type
      ((now.heap.node element).attr entity.idProperty) = .ok (some (roster.partner element)) := by
    have partner := pairs.partner element listed
    rw [World.partner?, List.find?_append, missing, Option.none_or] at partner
    rw [find_eq enrolled (enrolling.sound pairs .find), enrolling.sameEntity_eq pairs within, enrolling.store, partner]
  have identifier := EntityStore.identifier_of_sound (enrolling.sound pairs .identifier).faults now.heap entity element
  rw [identifier?_eq enrolled] at identifier
  have unvisited : Option.bind (Value.object element).object? now.visits.get? = none :=
    enrolling.unvisited element listed new
  apply answers_look_bind
  rw [unvisited]
  apply (answers_handlerOf (.object element)).bind
  rintro _ _ ⟨rfl, dispatch, registry, rfl⟩
  have walked : now.dispatch.registry.ofValue now.heap (.object element) = none := enrolled.walked
  rw [walked]
  have enrolling : roster.Enrolling setting world done { now with dispatch } :=
    enrolling.of_unmoved ⟨rfl, rfl, rfl, registry, rfl, rfl⟩
  apply answers_look_bind
  apply answers_look_bind
  simp only [enrolled.managed]
  apply answers_bind_of_eq (callStore_of_ok (enrolling.sound pairs .identifier).outages identifier)
  apply answers_bind_of_eq (callStore_of_ok (enrolling.sound pairs .find).outages found)
  exact enrolling.answers_applyTo pairs within listed new

/-- An element is brought onto its counterpart among the candidates, or applied on its own if it has none. -/
theorem Enrolling.answers_matched :
    (answer setting (fuel + 3) (.matched (.object element)
        ((roster.candidates.find? (world.sameEntity element)).map .object))).Answers now
      (fun result after => result = .object (roster.partner element) ∧
        roster.Enrolling setting world (done ++ [element]) after) := by
  rcases found : roster.candidates.find? (world.sameEntity element) with _ | partner
  · exact enrolling.answers_apply pairs within listed new found
  · have same := pairs.partner element listed
    rw [World.partner?, List.find?_append, found, Option.some_or] at same
    obtain rfl := Option.some.inj same
    exact enrolling.answers_applyTo pairs within listed new

/-- An element is matched and merged. -/
private theorem Enrolling.answers_mergeItem {rest left : List ObjectId}
    (available : roster.Left world (element :: rest) left) :
    (mergeItem setting (answer setting (fuel + 3)) (.object element) (left.map .object)).Answers now
      (fun outcome after =>
        outcome = (.object (roster.partner element), (left.eraseP (world.sameEntity element)).map .object) ∧
        roster.Enrolling setting world (done ++ [element]) after) := by
  obtain ⟨entity, metadata, enrolled⟩ := pairs.enrolled element listed
  have enrolled := enrolling.enrolled pairs within listed new enrolled
  have taken := take_eq enrolled (enrolling.sound pairs .identifier)
    (fun member => pairs.apart element listed (available.subset member))
  rw [enrolling.sameEntity_eq pairs within, available.first element List.mem_cons_self] at taken
  apply answers_bind_of_eq (askStore_of_ok taken)
  apply (enrolling.answers_matched pairs within listed new).bind
  rintro _ after ⟨rfl, enrolling⟩
  exact answers_pure ⟨rfl, enrolling⟩

end Elements

/-- All elements are matched and merged, and what is left over are the leftovers. -/
private theorem Enrolling.answers_mergeItems (pairs : roster.Matches setting world) {fuel : Nat}
    {rest left : List ObjectId}
    (split : roster.elements = done ++ rest) (enrolling : roster.Enrolling setting world done now)
    (available : roster.Left world rest left) :
    (mergeItems setting (answer setting (fuel + 3)) (rest.map .object) (left.map .object)).Answers now
      (fun outcome after => outcome.1 = rest.map (fun element => .object (roster.partner element)) ∧
        (∃ left, outcome.2 = left.map .object ∧ roster.Left world [] left) ∧
        roster.Enrolling setting world roster.elements after) := by
  induction rest generalizing done now left with
  | nil =>
    rw [List.append_nil] at split
    exact answers_pure ⟨rfl, ⟨left, rfl, available⟩, split ▸ enrolling⟩
  | cons element rest ih =>
    have within : ∀ other ∈ done, other ∈ roster.elements := fun other earlier =>
      split ▸ List.mem_append_left _ earlier
    have listed : element ∈ roster.elements := split ▸ List.mem_append_cons_self
    have unique := pairs.nodup
    rw [split] at unique
    obtain ⟨-, distinct, disjoint⟩ := List.nodup_append.1 unique
    have new : element ∉ done := fun earlier => disjoint element earlier element List.mem_cons_self rfl
    have others : ∀ other ∈ rest, other ∈ roster.elements ∧ element ≠ other := fun other later =>
      ⟨split ▸ List.mem_append_right _ (List.mem_cons_of_mem _ later),
        fun same => (List.nodup_cons.1 distinct).1 (same ▸ later)⟩
    apply (enrolling.answers_mergeItem pairs within listed new available).bind
    rintro _ after ⟨rfl, enrolling⟩
    have split : roster.elements = (done ++ [element]) ++ rest := by
      rw [split, List.append_assoc, List.singleton_append]
    apply (ih split enrolling (available.take pairs listed others)).bind
    rintro ⟨_, _⟩ final ⟨rfl, ⟨left, rfl, missed⟩, enrolling⟩
    exact answers_pure ⟨rfl, ⟨left, rfl, missed⟩, enrolling⟩

/-- An object with a handler of its own was allocated. -/
theorem holds_of_handler? {heap : Heap} {id : ObjectId} {handler : Handler}
    (handled : (heap.node id).content.handler? = some handler) : heap.Holds id := by
  by_contra absent
  rw [Heap.node_of_not_holds absent] at handled
  cases handled

/-- A container that is refilled when all elements are merged is the only other object that changes. -/
theorem Enrolling.refilled (enrolling : roster.Enrolling setting world roster.elements now) {container : ObjectId}
    (apart : container ∉ roster.partners) (held : world.heap.Holds container) {change : Edit}
    (heap : after.heap = now.heap.edit container change) :
    after.heap.size = world.heap.size ∧
      after.heap.node container = (world.heap.node container).edited change ∧
      (∀ element ∈ roster.elements, Merged setting world element (roster.partner element) after) ∧
      ∀ id, id ≠ container → id ∉ roster.partners → after.heap.node id = world.heap.node id := by
  have same := enrolling.others container apart
  have size : now.heap.size = world.heap.size := enrolling.size_eq
  refine ⟨?_, ?_, fun element listed => ?_, fun id other unpaired => ?_⟩
  · rw [heap, Heap.size_edit, size]
  · have held : now.heap.Holds container := by
      rw [Heap.Holds, size]
      exact held
    rw [heap, Heap.node_edit_self held, same]
  · have other : roster.partner element ≠ container := fun same => apart (same ▸ List.mem_map_of_mem listed)
    exact (enrolling.merged element listed).of_node (by rw [heap, Heap.node_edit_of_ne _ other])
  · rw [heap, Heap.node_edit_of_ne _ other]
    exact enrolling.others id unpaired

namespace Matches

variable (pairs : roster.Matches setting world)

include pairs

/-- An object with a handler of its own is no element and no partner. -/
theorem not_mem_of_handler? {id : ObjectId} {handler : Handler}
    (handled : (world.heap.node id).content.handler? = some handler) :
    id ∉ roster.elements ∧ id ∉ roster.partners := by
  have other := Node.notBean_of_handler? handled
  constructor
  · intro listed
    obtain ⟨_, _, enrolled⟩ := pairs.enrolled id listed
    cases enrolled.carrier.symm.trans other
  · intro member
    obtain ⟨element, listed, rfl⟩ := List.mem_map.1 member
    obtain ⟨_, _, enrolled⟩ := pairs.enrolled element listed
    cases enrolled.bean.symm.trans other

/-- No entity is listed twice. -/
private theorem nodup_partners : roster.partners.Nodup :=
  List.Nodup.map_on (fun _ one _ two same => pairs.eq_of_partner_eq one two same) pairs.nodup

omit pairs in
/-- Nobody is merged at the start. -/
theorem start {now : World} (heap : now.heap = world.heap) (store : now.store = world.store)
    (unvisited : ∀ element ∈ roster.elements, now.visits.get? element = none)
    (registry : now.dispatch.registry = world.dispatch.registry) (schema : now.cache.schema = world.cache.schema)
    (outages : now.outages = world.outages) : roster.Enrolling setting world [] now where
  size_eq := by rw [heap]
  merged _ none := absurd none List.not_mem_nil
  others _ _ := by rw [heap]
  unvisited element listed _ := unvisited element listed
  store := store
  registry := registry
  schema := schema
  outages := outages

/-- What is given up are the candidates that are left over and no partners. -/
theorem lost_eq {left : List ObjectId} {kept leftovers : List Value} (subset : left ⊆ roster.candidates)
    (objects : leftovers.filterMap Value.object? = left) (partners : ∀ id, .object id ∈ kept ↔ id ∈ roster.partners) :
    world.lost setting kept leftovers = if setting.config.deleteRemoved then
      left.filter (fun candidate => decide (candidate ∉ roster.partners)) else [] := by
  unfold World.lost
  split
  · rw [objects]
    refine List.filter_congr fun id member => ?_
    rw [pairs.managed id (subset member), Bool.and_true, List.contains_eq_mem, decide_not]
    exact congrArg (!·) (decide_eq_decide.2 (partners id))
  · rfl

end Matches

namespace Fits

variable (fits : roster.Fits setting world)

include fits

private theorem asked : (world.heap.node roster.authoritative).content.handler? = some .collection := by
  rw [fits.holds]
  rfl

private theorem authoritative_not_mem : roster.authoritative ∉ roster.partners :=
  (fits.matches.not_mem_of_handler? fits.asked).2

private theorem detached_not_mem : roster.detached ∉ roster.elements := by
  obtain ⟨kind, carries⟩ := fits.carries
  have asked : (world.heap.node roster.detached).content.handler? = some .collection := by
    rw [carries]
    rfl
  exact (fits.matches.not_mem_of_handler? asked).1

/-- Nobody is merged at the start. -/
private theorem start {now : World} (heap : now.heap = world.heap) (store : now.store = world.store)
    (visits : ∀ id, id ≠ roster.detached → now.visits.get? id = none)
    (registry : now.dispatch.registry = world.dispatch.registry) (schema : now.cache.schema = world.cache.schema)
    (outages : now.outages = world.outages) : roster.Enrolling setting world [] now :=
  Matches.start heap store (fun element listed => visits element fun same => fits.detached_not_mem (same ▸ listed))
    registry schema outages

/-- Once all elements are merged the collection is refilled. -/
private theorem updated (enrolling : roster.Enrolling setting world roster.elements now)
    (heap : after.heap = now.heap.edit roster.authoritative (.setItems (roster.partners.map .object)))
    (store : after.store =
      if setting.config.deleteRemoved then world.store.without roster.leftovers else world.store) :
    roster.Updated setting world after := by
  obtain ⟨size_eq, refilled, merged, others⟩ :=
    enrolling.refilled fits.authoritative_not_mem (holds_of_handler? fits.asked) heap
  refine ⟨size_eq, refilled.trans ?_, merged, others, store⟩
  have distinct : (roster.partners.map Value.object).Nodup :=
    fits.matches.nodup_partners.map fun _ _ same => Value.object.inj same
  have content := fits.holds
  generalize world.heap.node roster.authoritative = node at content ⊢
  obtain ⟨type, origin, _⟩ := node
  subst content
  exact congrArg (fun items => Node.mk type origin (.collection roster.kind items))
    (Content.collected_eq fun _ => distinct)

/-- The authoritative collection is brought up to date. -/
private theorem answers_mergeCollection (enrolling : roster.Enrolling setting world [] now) (fuel : Nat) :
    (mergeCollection setting (answer setting (fuel + 3)) roster.detached roster.authoritative).Answers now
      (fun result after => result = .object roster.authoritative ∧ roster.Updated setting world after) := by
  have node : ∀ id, now.heap.node id = world.heap.node id := fun id => enrolling.others id List.not_mem_nil
  obtain ⟨kind, carries⟩ := fits.carries
  have elements : (now.heap.node roster.detached).items = roster.elements.map .object := by
    rw [node, Node.items_of_collection carries]
  have candidates : (now.heap.node roster.authoritative).items = roster.candidates.map .object := by
    rw [node, Node.items_of_collection fits.holds]
  have loaded := (congrArg (·.origin.isLoaded) (node roster.authoritative)).trans fits.loaded
  apply (answers_keepUnloaded_of_loaded roster.detached loaded).bind
  rintro _ _ ⟨rfl, rfl⟩
  rw [if_neg Bool.false_ne_true]
  apply answers_bind_of_eq rfl
  apply answers_look_bind
  apply answers_look_bind
  have noted : roster.Enrolling setting world [] { now with journal := .walked roster.detached :: now.journal } :=
    enrolling.of_unmoved ⟨rfl, rfl, rfl, rfl, rfl, rfl⟩
  have merging : (mergeItems setting (answer setting (fuel + 3)) _ _).Answers _ _ :=
    noted.answers_mergeItems fits.matches (List.nil_append _).symm (.start roster world)
  rw [← elements, ← candidates] at merging
  apply merging.bind
  rintro ⟨_, _⟩ middle ⟨rfl, ⟨left, rfl, available⟩, enrolling⟩
  have partners : roster.elements.map (fun element => Value.object (roster.partner element)) =
      roster.partners.map .object := (List.map_map ..).symm
  rw [partners]
  apply (answers_discardLeftovers (enrolling.sound fits.matches .remove) _ _ _).bind
  rintro _ final ⟨heap, store, -⟩
  have given : final.store =
      if setting.config.deleteRemoved then world.store.without roster.leftovers else world.store := by
    have objects : (left.map Value.object).filterMap Value.object? = left := by
      rw [List.filterMap_map]
      exact List.filterMap_some
    rw [store, enrolling.store, enrolling.lost_eq, fits.matches.lost_eq available.subset objects (by simp),
      available.missed]
    split
    · rfl
    · exact EntityStore.without_nil _
  apply answers_bind_of_eq rfl
  refine answers_pure ⟨rfl, fits.updated enrolling ?_ given⟩
  exact congrArg (Heap.edit · _ _) heap

end Fits

end

end Roster

/-- A run is long enough for a collection of beans with scalars. -/
theorem World.four_le_fuel (setting : Setting) (world : World) : 4 ≤ world.fuel setting := by
  have bound : 1 ≤ world.propertyBound setting := by
    rw [propertyBound]
    omega
  have reads : 4 ≤ 16 * (world.heap.size + 1) * world.propertyBound setting :=
    Nat.le_trans (by omega) (Nat.le_mul_of_pos_right _ bound)
  exact reads.trans (Nat.le_mul_self _)

/-- Bringing a detached collection of beans with scalars onto an authoritative one refills it with the entities that
the detached elements stand for, each merged with its element. -/
theorem Setting.applyTo_collection {setting : Setting} {world : World} {roster : Roster}
    (fits : roster.Fits setting world) :
    ∃ after, setting.applyTo (.object roster.detached) (.object roster.authoritative) world =
        (.ok (.object roster.authoritative), after) ∧
      roster.Updated setting world after := by
  obtain ⟨fuel, spent⟩ := Nat.exists_eq_add_of_le' (world.rested.four_le_fuel setting)
  have answers : (answer setting (fuel + 4) (.applyTo (.object roster.detached) (.object roster.authoritative))).Answers
      world.rested
      (fun result after => result = .object roster.authoritative ∧ roster.Updated setting world after) := by
    refine answers_answer ?_ ?_
    · apply answers_look_bind
      apply answers_bind_of_eq rfl
      apply (answers_handlerOf (.object roster.detached)).bind
      rintro handler? _ ⟨found, dispatch, registry, rfl⟩
      obtain rfl : handler? = some .collection := found.trans fits.handled
      apply fits.answers_mergeCollection
      refine fits.start rfl rfl ?_ registry rfl rfl
      intro id other
      exact (Visits.get?_record ..).trans (if_neg (Ne.symm other))
    · rintro _ after ⟨rfl, updated⟩
      exact ⟨rfl, updated.of_unmoved ⟨rfl, rfl, rfl, rfl, rfl, rfl⟩⟩
  obtain ⟨_, after, run, rfl, updated⟩ := answers
  rw [← spent] at run
  exact ⟨after, run, updated⟩

namespace Eleven

def schema : Schema :=
  ⟨[{ name := ⟨"Player"⟩, properties := .ofList [("id", .field), ("version", .field), ("name", .field)] }]⟩

def player : Entity := { type := ⟨"Player"⟩, idProperty := "id", versionProperty? := some "version" }

/-- A list of two stored players. The detached list has the first of them under a new name and, before that, a
stored player who was not listed. -/
def world : World where
  heap := ⟨#[.list [.object ⟨1⟩, .object ⟨2⟩],
    { Node.bean ⟨"Player"⟩ [("id", .int 1), ("version", .int 4), ("name", .text "Ann")] with origin := .stored },
    { Node.bean ⟨"Player"⟩ [("id", .int 2), ("version", .int 1), ("name", .text "Bob")] with origin := .stored },
    { Node.bean ⟨"Player"⟩ [("id", .int 3), ("name", .text "Cyd")] with origin := .stored },
    .list [.object ⟨5⟩, .object ⟨6⟩], .bean ⟨"Player"⟩ [("id", .int 3), ("version", .int 9)],
    .bean ⟨"Player"⟩ [("id", .int 1), ("version", .int 4), ("name", .text "Anna")]]⟩
  store := { entities := .ofList [(⟨"Player"⟩, player)], stored := [⟨1⟩, ⟨2⟩, ⟨3⟩] }
  dispatch := .ofRegistry (.withDefaults schema)
  cache := .ofSchema schema

def setting : Setting := { schema, config := { deleteRemoved := true } }

def roster : Roster where
  detached := ⟨4⟩
  authoritative := ⟨0⟩
  kind := .list
  elements := [⟨5⟩, ⟨6⟩]
  candidates := [⟨1⟩, ⟨2⟩]
  partner id := if id = ⟨5⟩ then ⟨3⟩ else ⟨1⟩

/-- What is to be checked of a detached player and of the one that it stands for. -/
def ready (world : World) (element partner : ObjectId) : Bool :=
  decide ((world.heap.node element).type = ⟨"Player"⟩ ∧
    world.store.entity? (world.heap.node element).type = some player ∧ world.handler? element = none ∧
    (setting.schema.equality? (world.heap.node element).type).isNone = true ∧
    (world.heap.node element).isBean = true ∧
    (∀ name ∈ (schema.properties ⟨"Player"⟩).keys, ((world.heap.node element).attr name).object? = none) ∧
    ((world.heap.node element).attr "id").isNull = false ∧ element ≠ partner ∧
    (world.heap.node partner).isBean = true ∧ (world.heap.node partner).origin.isLoaded = true ∧
    (((world.heap.node partner).attr "version").isNull = true ∨
      (world.heap.node partner).attr "version" = (world.heap.node element).attr "version"))

theorem enrolled_of_ready {world : World} (same : world.cache.schema = schema) {element partner : ObjectId}
    (checked : ready world element partner = true) : Enrolled setting world player
      { type := ⟨"Player"⟩, properties := schema.properties ⟨"Player"⟩ } element partner := by
  obtain ⟨type, managed, walked, unequal, carrier, scalar, known, different, bean, loaded, version⟩ :=
    of_decide_eq_true checked
  have declared : schema.metadata? ⟨"Player"⟩ =
      some { type := ⟨"Player"⟩, properties := schema.properties ⟨"Player"⟩ } := rfl
  have fields : schema.AllFields := by
    intro decl member
    obtain rfl := List.mem_singleton.1 member
    exact OrderedMap.forall_ofList (fun access : Access => access = .field) (by simp)
  refine ⟨managed, by rw [type, same]; rfl, fields.metadata? declared, walked, Option.isNone_iff_eq_none.1 unequal,
    carrier, scalar, known, different, bean, loaded, ?_⟩
  rintro _ ⟨⟩
  exact version

private theorem enrolled : ∀ element ∈ roster.elements, Enrolled setting world player
    { type := ⟨"Player"⟩, properties := schema.properties ⟨"Player"⟩ } element (roster.partner element) := by
  have checked : ∀ element ∈ roster.elements, ready world element (roster.partner element) = true := by
    decide +kernel
  exact fun element listed => enrolled_of_ready rfl (checked element listed)

private theorem fits : roster.Fits setting world where
  carries := ⟨.list, rfl⟩
  holds := rfl
  handled := by decide +kernel
  loaded := rfl
  passes _ plain _ found := Handler.Registry.ofValue_scalar schema _ plain found
  sound _ := ⟨rfl, rfl⟩
  apart := by decide
  managed := by decide +kernel
  distinct := by decide +kernel
  partner := by decide +kernel
  enrolled element listed := ⟨_, _, enrolled element listed⟩

/-- The list holds the third player and the first one under the new name; the second one is given up. -/
theorem team_updated : roster.Fits setting world ∧
    ∃ after, setting.applyTo (.object ⟨4⟩) (.object ⟨0⟩) world = (.ok (.object ⟨0⟩), after) ∧
      (after.heap.node ⟨0⟩).items = [.object ⟨3⟩, .object ⟨1⟩] ∧
      (after.heap.node ⟨1⟩).attr "name" = .text "Anna" ∧ (after.heap.node ⟨3⟩).attr "name" = .text "Cyd" ∧
      after.heap.node ⟨2⟩ = world.heap.node ⟨2⟩ ∧ after.store.stored = [⟨1⟩, ⟨3⟩] ∧ after.store.removed = [⟨2⟩] := by
  obtain ⟨after, run, updated⟩ := Setting.applyTo_collection fits
  refine ⟨fits, after, run, ?_, ?_, ?_, updated.others ⟨2⟩ (by decide) (by decide), ?_, ?_⟩
  · exact (congrArg Node.items updated.refilled).trans rfl
  · exact ((updated.merged ⟨6⟩ (by decide)).attr_eq "name").trans (by decide +kernel)
  · exact ((updated.merged ⟨5⟩ (by decide)).attr_eq "name").trans (by decide +kernel)
  · exact (congrArg EntityStore.stored updated.store).trans (by decide +kernel)
  · exact (congrArg EntityStore.removed updated.store).trans (by decide +kernel)

end Eleven

end Reconciler
