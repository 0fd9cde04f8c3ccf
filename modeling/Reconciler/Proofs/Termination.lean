import Mathlib.Tactic.Linarith
import Reconciler.Accessors
import Reconciler.Proofs.Termination.Disconnect
import Reconciler.Proofs.Termination.Reconcile

/-! # Every run ends

The depth to which requests nest is bounded by a polynomial in the number of objects, whatever the configuration
and whatever the graphs look like. So no run exhausts its fuel, which is more than that: it answers, or fails for
a reason. All along the run, and also if it fails, no object is recorded twice and no object's parts are read
twice. A detachment that answers has flushed the store once for each object that it walked without a handler.
-/

namespace Reconciler

open Reconciler.Action

/-- The values that a request is about. -/
def Request.values : Request → List Value
  | .disconnect value => [value]
  | .apply detached => [detached]
  | .applyTo detached authoritative => [detached, authoritative]

/-- More than the requests of a run nest. -/
def World.nestingBound (world : World) : Nat :=
  2 * (world.heap.size * 2 * (3 * world.heap.size + 2) + world.heap.size + 1) + 2

private theorem World.room_le_size (world : World) (mode : Mode) : world.room mode [] ≤ 3 * world.heap.size := by
  have queue : world.queue mode [] ≤ world.heap.size := world.queue_le_size
  have credit := world.credit_le_size mode
  cases mode with
  | cloning => exact Nat.zero_le _
  | _ =>
    simp only [room]
    omega

private theorem World.weigh_lt_nestingBound (world : World) (mode : Mode) (value : Value) :
    2 * world.weigh mode (3 * world.heap.size) value + 1 < world.nestingBound := by
  have credit := Nat.mul_le_mul_right (3 * world.heap.size + 2) (world.credit_le_size mode)
  have ahead := world.ahead_le_size mode value
  unfold weigh nestingBound
  split <;> omega

/-- The fuel of a run is enough. -/
theorem World.nestingBound_le_fuel (setting : Setting) (world : World) :
    world.nestingBound ≤ world.fuel setting := by
  have reads : 16 * (world.heap.size + 1) ≤ 16 * (world.heap.size + 1) * world.propertyBound setting := by
    apply Nat.le_mul_of_pos_right
    unfold propertyBound
    omega
  have enough : world.nestingBound ≤ 16 * (world.heap.size + 1) * (16 * (world.heap.size + 1)) := by
    unfold nestingBound
    nlinarith
  exact enough.trans (Nat.mul_le_mul reads reads)

/-- A run begins with nothing visited and nothing walked. -/
theorem Orderly.start {setting : Setting} {schema : Schema} {world : World}
    (defaults : world.dispatch.registry = .withDefaults schema)
    (transparent : setting.Transparent world.cache.schema) (closed : world.heap.Closed)
    (stored : ∀ id ∈ world.store.stored, world.heap.Holds id) : Orderly setting world.rested := by
  constructor
  · exact ⟨schema, defaults⟩
  · exact transparent
  · exact closed
  · exact stored
  · exact nofun
  · exact List.nodup_nil
  · exact nofun
  · exact List.nodup_nil

/-- How a request is answered if there is fuel enough. -/
private theorem Orderly.ensures_answer {setting : Setting} {world : World} (orderly : Orderly setting world.rested)
    {request : Request} (held : world.heap.HoldsAll request.values) {fuel : Nat}
    (enough : world.nestingBound ≤ fuel) :
    (answer setting fuel request).Ensures world.rested (Stopped setting) (fun result after =>
      Orderly setting after ∧ ∀ value, request = .disconnect value →
        Concluded setting.detaching setting world.rested result after) := by
  cases request with
  | disconnect value =>
    have light := world.rested.weigh_lt_nestingBound setting.detaching value
    apply (nests_disconnect setting (3 * world.heap.size) fuel world.rested value orderly
      (fun _ same => held.holds_of_eq same) (world.rested.room_le_size _) _).weaken
    · exact fun _ _ concluded => ⟨concluded.orderly, fun _ _ => concluded⟩
    · have size : world.rested.nestingBound = world.nestingBound := rfl
      have same : world.rested.heap.size = world.heap.size := rfl
      rw [same] at light
      omega
  | apply detached =>
    have light := world.rested.weigh_lt_nestingBound .reconciling detached
    apply (settles_answer setting (3 * world.heap.size) fuel world.rested (.apply detached) orderly held
      (world.rested.room_le_size _) (Nat.lt_of_lt_of_le light enough)).weaken
    exact fun _ _ concluded => ⟨concluded.orderly, nofun⟩
  | applyTo detached authoritative =>
    have light := world.rested.weigh_lt_nestingBound .reconciling detached
    apply (settles_answer setting (3 * world.heap.size) fuel world.rested (.applyTo detached authoritative) orderly
      held (world.rested.room_le_size _) (Nat.lt_of_lt_of_le (Nat.lt_of_succ_lt light) enough)).weaken
    exact fun _ _ concluded => ⟨concluded.orderly, nofun⟩

/-- A run of its own has fuel enough. -/
theorem Orderly.runFresh_ne_exhausted {setting : Setting} {world : World} (orderly : Orderly setting world.rested)
    {request : Request} (held : world.heap.HoldsAll request.values) :
    (setting.runFresh request world).1 ≠ .error .exhausted := by
  intro exhausted
  have ensures := orderly.ensures_answer held (world.rested.nestingBound_le_fuel setting)
  exact (ensures.ended .exhausted _ (Prod.ext exhausted rfl)).1 rfl

/-- A run ends, however deep its requests may nest, and neither records nor walks an object twice. A detachment
flushes once for each object that it walks without a handler, if it flushes at all. -/
theorem Setting.runFresh_ends {setting : Setting} {schema : Schema} {world : World} {request : Request}
    (defaults : world.dispatch.registry = .withDefaults schema)
    (transparent : setting.Transparent world.cache.schema) (closed : world.heap.Closed)
    (stored : ∀ id ∈ world.store.stored, world.heap.Holds id)
    (held : world.heap.HoldsAll request.values) :
    (∀ fuel, world.nestingBound ≤ fuel → (answer setting fuel request world.rested).1 ≠ .error .exhausted) ∧
    (setting.runFresh request world).1 ≠ .error .exhausted ∧
    ((setting.runFresh request world).2.visits.log.map Prod.fst).Nodup ∧
    (setting.runFresh request world).2.walks.Nodup ∧
    ∀ value result, request = .disconnect value → setting.config.flushAutomatically = true →
      (setting.runFresh request world).1 = .ok result →
      (setting.runFresh request world).2.store.flushes =
        world.store.flushes + (setting.runFresh request world).2.unhandledWalks := by
  have orderly := Orderly.start defaults transparent closed stored
  have ends : ∀ fuel, world.nestingBound ≤ fuel → _ := fun fuel enough => orderly.ensures_answer held enough
  have ensures := ends _ (world.rested.nestingBound_le_fuel setting)
  have last : (setting.runFresh request world).1 ≠ .error .exhausted ∧
      Orderly setting (setting.runFresh request world).2 := by
    rcases run : setting.runFresh request world with ⟨ending | result, after⟩
    · obtain ⟨reason, left⟩ := ensures.ended ending after run
      exact ⟨fun same => reason (Except.error.inj same), left⟩
    · exact ⟨nofun, (ensures.answered result after run).1⟩
  refine ⟨?_, last.1, last.2.once, last.2.walks, ?_⟩
  · intro fuel enough exhausted
    exact ((ends fuel enough).ended .exhausted _ (Prod.ext exhausted rfl)).1 rfl
  · intro value result detaches automatic answered
    have concluded := (ensures.answered result _ (Prod.ext answered rfl)).2 value detaches
    have flushed := concluded.flushed setting.detaching_ne automatic
    have before : world.rested.unhandledWalks = 0 := rfl
    rw [before] at flushed
    exact flushed

/-- An accessor to an attribute hides nothing. -/
theorem Access.transparent_attribute (name : String) :
    (accessor (some (Getter.ofAttribute name)) (some (Setter.toAttribute name))).Transparent := by
  constructor
  · rintro _ ⟨⟩ node -
    exact (Node.attr_null_or_mem_parts node name).imp_left fun null => congrArg Value.object? null
  · rintro _ ⟨⟩ node value bean part carried
    obtain ⟨entry, member, rfl⟩ := List.mem_map.1 carried
    rcases OrderedMap.mem_put member with rfl | before
    · exact .inr (.inl rfl)
    · rw [Node.parts_of_isBean bean]
      exact .inr (.inr (List.mem_map.2 ⟨entry, before, rfl⟩))

namespace Clubs

def schema : Schema := ⟨[
  { name := ⟨"Club"⟩, properties := .ofList [("head", .field),
    ("members", .accessor (some (Getter.ofAttribute "members")) (some (Setter.toAttribute "members")))] }]⟩

/-- A club that heads itself, with a list of members that holds the club and itself. -/
def world : World where
  heap := ⟨#[.bean ⟨"Club"⟩ [("head", .object ⟨0⟩), ("members", .object ⟨1⟩)],
    .list [.object ⟨0⟩, .object ⟨1⟩, .object ⟨1⟩]]⟩
  store := { stored := [⟨0⟩] }
  dispatch := .ofRegistry (.withDefaults schema)
  cache := .ofSchema schema

def setting : Setting := { schema, config := { flushAutomatically := true } }

private theorem setting_transparent : setting.Transparent schema := by
  intro type metadata known
  have declared : ∀ decl ∈ schema.types, ∀ entry ∈ decl.properties.entries, entry.2.Transparent := by
    intro decl listed entry member
    obtain rfl := List.mem_singleton.1 listed
    have either : entry = ("head", .field) ∨ entry = ("members",
        .accessor (some (Getter.ofAttribute "members")) (some (Setter.toAttribute "members"))) := by
      simpa [OrderedMap.ofList, OrderedMap.insertAll, OrderedMap.insert, OrderedMap.put, OrderedMap.empty]
        using member
    rcases either with rfl | rfl
    · trivial
    · exact Access.transparent_attribute "members"
  intro property access found
  exact Schema.forall_access Access.Transparent declared known _ (OrderedMap.mem_of_get? found)

/-- The club is detached in place with one flush, and its list is rebuilt. -/
theorem club_detached :
    (setting.runFresh (.disconnect (.object ⟨0⟩)) world).1 = .ok (.object ⟨0⟩) ∧
    (setting.runFresh (.disconnect (.object ⟨0⟩)) world).2.walks = [⟨1⟩, ⟨0⟩] ∧
    (∀ fuel, world.nestingBound ≤ fuel →
      (answer setting fuel (.disconnect (.object ⟨0⟩)) world.rested).1 ≠ .error .exhausted) ∧
    (setting.runFresh (.disconnect (.object ⟨0⟩)) world).1 ≠ .error .exhausted ∧
    ((setting.runFresh (.disconnect (.object ⟨0⟩)) world).2.visits.log.map Prod.fst).Nodup ∧
    (setting.runFresh (.disconnect (.object ⟨0⟩)) world).2.walks.Nodup ∧
    (setting.runFresh (.disconnect (.object ⟨0⟩)) world).2.store.flushes = 1 := by
  have answered : (setting.runFresh (.disconnect (.object ⟨0⟩)) world).1 = .ok (.object ⟨0⟩) := by decide +kernel
  have unhandled : (setting.runFresh (.disconnect (.object ⟨0⟩)) world).2.unhandledWalks = 1 := by decide +kernel
  have held : world.heap.HoldsAll (Request.disconnect (.object ⟨0⟩)).values := by
    intro id listed
    obtain ⟨⟩ := List.mem_singleton.1 listed
    decide +kernel
  obtain ⟨deep, ends, once, walks, flushed⟩ :=
    Setting.runFresh_ends (by rfl) setting_transparent (by decide +kernel) (by decide +kernel) held
  have flushes := flushed _ _ rfl rfl answered
  rw [unhandled] at flushes
  exact ⟨answered, by decide +kernel, deep, ends, once, walks, flushes⟩

end Clubs

end Reconciler
