import Mathlib.Data.List.Nodup
import Reconciler.Proofs.Discards
import Reconciler.Proofs.Passage.Refilled

/-! # What a refilled container gives up

A container that is refilled gives up the candidates that are left over when all elements of the detached container
were matched, except those that came of an element nevertheless. So it never gives up an entity that it still holds.
But not everything that it has dropped is left over: an entity may have been matched and yet not have come back, since
the element had another image already, or since two keys became one.
-/

namespace Reconciler

/-- An entity that the container held before and does not hold afterwards. -/
def World.Dropped (before after : World) (container entity : ObjectId) : Prop :=
  before.store.manages (before.heap.node entity).type = true ∧
    .object entity ∈ (before.heap.node container).members ∧ .object entity ∉ (after.heap.node container).members

instance (before after : World) (container entity : ObjectId) : Decidable (before.Dropped after container entity) :=
  inferInstanceAs (Decidable (_ ∧ _ ∧ _))

/-- What is matched is held. -/
theorem Handler.candidates_subset (handler : Handler) (node : Node) : handler.candidates node ⊆ node.members := by
  cases handler with
  | map => exact List.subset_append_right _ _
  | _ => exact List.subset_append_left _ _

namespace World

variable {setting : Setting} {world : World} {kept leftovers : List Value} {id : ObjectId}

private theorem mem_lost_iff (enabled : setting.config.deleteRemoved = true) :
    id ∈ world.lost setting kept leftovers ↔ .object id ∈ leftovers ∧ .object id ∉ kept ∧
      world.store.manages (world.heap.node id).type = true := by
  rw [lost, if_pos enabled, List.mem_filter, List.mem_filterMap]
  simp only [Value.object?_eq_some_iff, exists_eq_right, Bool.and_eq_true, Bool.not_eq_true',
    List.contains_eq_mem, decide_eq_false_iff_not]

private theorem count_filterMap_object? (values : List Value) (id : ObjectId) :
    (values.filterMap Value.object?).count id = values.count (.object id) := by
  induction values with
  | nil => rfl
  | cons head rest ih =>
    rcases object : head.object? with _ | other
    · have different : head ≠ .object id := by
        rintro rfl
        cases object
      rw [List.filterMap_cons_none object, ih, List.count_cons_of_ne different]
    · obtain rfl := (Value.object?_eq_some_iff _ _).1 object
      rw [List.filterMap_cons_some object, List.count_cons, List.count_cons, ih]
      simp

/-- No entity is lost more often than it is left over. -/
theorem count_lost_le (id : ObjectId) :
    (world.lost setting kept leftovers).count id ≤ leftovers.count (.object id) := by
  unfold World.lost
  split
  · rw [← count_filterMap_object?]
    exact List.filter_sublist.count_le id
  · exact Nat.zero_le _

end World

namespace World.Refills

variable {setting : Setting} {world after : World} {source container entity : ObjectId} {handler : Handler}
  {change : Edit} {trades : List Trade} {leftovers : List Value}
  (refills : World.Refills setting world after source container handler change trades leftovers)
  (whole : handler ≠ .array) (enabled : setting.config.deleteRemoved = true)

include refills whole

/-- A refilled container that had anything to be matched holds nothing but what came of the elements. -/
theorem members_subset (matched : handler.candidates (world.heap.node container) ≠ []) :
    ∀ value ∈ (after.heap.node container).members, value ∈ change.values := by
  intro value member
  rw [refills.node_eq] at member
  exact Node.parts_refilled refills.refills whole rfl matched value (Node.mem_parts_of_members member)

include enabled

/-- What is lost was held before and is not held afterwards. -/
theorem dropped_of_lost (lost : entity ∈ world.lost setting change.values leftovers) :
    world.Dropped after container entity := by
  obtain ⟨left, unkept, managed⟩ := (World.mem_lost_iff enabled).1 lost
  have candidate := refills.drawn.subset (List.mem_append_right _ left)
  refine ⟨managed, handler.candidates_subset _ candidate, fun member => unkept ?_⟩
  exact refills.members_subset whole (List.ne_nil_of_mem candidate) _ member

/-- What was dropped is lost just if it was left over and came of no element. -/
theorem mem_lost_iff_dropped : entity ∈ world.lost setting change.values leftovers ↔
    world.Dropped after container entity ∧ .object entity ∉ change.values ∧ .object entity ∈ leftovers := by
  constructor
  · intro lost
    obtain ⟨left, unkept, -⟩ := (World.mem_lost_iff enabled).1 lost
    exact ⟨refills.dropped_of_lost whole enabled lost, unkept, left⟩
  · rintro ⟨dropped, unkept, left⟩
    exact (World.mem_lost_iff enabled).2 ⟨left, unkept, dropped.1⟩

end World.Refills

namespace Cuts

/-- Players of the same rank are equal. -/
def schema : Schema := ⟨[{
  name := ⟨"Player"⟩
  properties := .ofList [("id", .field), ("rank", .field), ("peers", .field)]
  equality? := some (.onAttributes ["rank"]) }]⟩

def setting : Setting := { schema, config := { deleteRemoved := true } }

def player (number : Int64) (peers : Value) : Node :=
  .bean ⟨"Player"⟩ [("id", .int number), ("rank", .int 5), ("peers", peers)]

/-- Two stored players of one rank, and the squad that they are in. Then a copy of the first player with lists that
have it once and twice, and another copy whose peers are an empty list, with a list that has it. -/
def world : World where
  heap := ⟨#[{ player 1 (.object ⟨2⟩) with origin := .stored }, { player 2 .null with origin := .stored },
    .list [.object ⟨0⟩, .object ⟨1⟩],
    player 1 .null, .list [.object ⟨3⟩], .list [.object ⟨3⟩, .object ⟨3⟩],
    player 1 (.object ⟨7⟩), .list [], .list [.object ⟨6⟩]]⟩
  store := {
    entities := .ofList [(⟨"Player"⟩, { type := ⟨"Player"⟩, idProperty := "id" })]
    stored := [⟨0⟩, ⟨1⟩] }
  dispatch := .ofRegistry (.withDefaults schema)
  cache := .ofSchema schema

/-- What becomes of the squad when another list is brought onto it. -/
def outcome (source : ObjectId) : Except Ending Value × World :=
  setting.applyTo (.object source) (.object ⟨2⟩) world.rested

private theorem pair : world.rested.SolePair (outcome ⟨4⟩).2 ⟨4⟩ ⟨2⟩ := by
  have visits : (outcome ⟨4⟩).2.visits.log = [(⟨3⟩, .object ⟨0⟩), (⟨4⟩, .object ⟨2⟩)] := by
    decide +kernel
  exact .of_log visits (by decide) (by decide) rfl (by decide +kernel) (by decide) (by decide)

end Cuts

end Reconciler
