import Reconciler.Proofs.Ensures
import Reconciler.Proofs.Severed
import Reconciler.Proofs.Termination.Measure

/-! # Inside a visit

What every part of a run keeps, whether it answers or fails: no object is visited or walked a second time, and all
that is recorded, stored or referred to is there. What a part that answers does to the measure: it adds
neither credit nor room, and as long as it uses up no credit it leaves what it found as it was. Between the visit of
an object and the end of that visit the counterpart may be filled; it counts as queued all the while.
-/

namespace Reconciler

open Reconciler.Action

/-- Getters return attributes or scalars, and setters store what they are given, or scalars. -/
def Access.Transparent : Access → Prop
  | field => True
  | accessor getter? setter? =>
      (∀ getter, getter? = some getter → ∀ node : Node, node.isBean = true →
        (getter node).object? = none ∨ getter node ∈ node.parts) ∧
      (∀ setter, setter? = some setter → ∀ (node : Node) value, node.isBean = true →
        ∀ part ∈ (setter node value).attributes.values, part.object? = none ∨ part = value ∨ part ∈ node.parts)

def Metadata.Transparent (metadata : Metadata) : Prop :=
  ∀ property access, metadata.access? property = some access → access.Transparent

/-- The declared metadata that a run uses is transparent. -/
def Setting.Transparent (setting : Setting) (schema : Schema) : Prop :=
  ∀ type metadata, (setting.overrides.get? type).or (schema.metadata? type) = some metadata →
    metadata.Transparent

/-- The object whose parts were about to be read. -/
def Event.walked? : Event → Option ObjectId
  | walked source => some source
  | _ => none

/-- The objects whose parts were read, the last one first. -/
def World.walks (now : World) : List ObjectId := now.journal.filterMap Event.walked?

/-- The number of walks of objects without a handler. -/
def World.unhandledWalks (now : World) : Nat := (now.walks.filter (fun id => !now.isHandled id)).length

/-- What holds all along a run: everything is there, and nothing is visited or walked twice. -/
structure Orderly (setting : Setting) (now : World) : Prop where
  defaults : ∃ schema, now.dispatch.registry = .withDefaults schema
  transparent : setting.Transparent now.cache.schema
  closed : now.heap.Closed
  stored : ∀ id ∈ now.store.stored, now.heap.Holds id
  counterpart : ∀ source target, now.visits.get? source = some target →
    now.heap.Holds source ∧ ∀ id, target = .object id → now.heap.Holds id
  once : (now.visits.log.map Prod.fst).Nodup
  walked : ∀ source ∈ now.walks, now.visits.get? source ≠ none
  walks : now.walks.Nodup

/-- A detachment has flushed the store once for each object that it walked without a handler. -/
def Flushed (mode : Mode) (setting : Setting) (now after : World) : Prop :=
  mode ≠ .reconciling → setting.config.flushAutomatically = true →
    after.store.flushes + now.unhandledWalks = now.store.flushes + after.unhandledWalks

/-- What a part of a run does to the measure. -/
structure Went (mode : Mode) (now after : World) : Prop where
  later : now.Later after
  credit_le : after.credit mode ≤ now.credit mode
  room_le : ∀ opened, (∀ id ∈ opened, now.heap.Holds id) → after.room mode opened ≤ now.room mode opened
  frozen : after.credit mode = now.credit mode → ∀ id, now.heap.Holds id →
    after.heap.node id = now.heap.node id

/-- A part of a run has answered. -/
structure Concluded (mode : Mode) (setting : Setting) (now : World) (result : Value) (after : World) : Prop where
  orderly : Orderly setting after
  went : Went mode now after
  held : ∀ id, result = .object id → after.heap.Holds id
  flushed : Flushed mode setting now after

/-- A part of a run has failed, but not for want of fuel. -/
def Stopped (setting : Setting) (ending : Ending) (after : World) : Prop :=
  ending ≠ .exhausted ∧ Orderly setting after

theorem Setting.Transparent.metadata? {setting : Setting} {now : World}
    (transparent : setting.Transparent now.cache.schema)
    {id : ObjectId} {metadata : Metadata} (known : now.metadata? setting id = some metadata) :
    metadata.Transparent := by
  rw [World.metadata?, ← Option.or_assoc] at known
  rcases Option.or_eq_some_iff.1 known with declared | ⟨-, introspected⟩
  · exact transparent _ metadata declared
  · obtain rfl := Option.some.inj (Option.ite_none_right_eq_some.1 introspected).2
    intro property access found
    obtain rfl := (Metadata.allFields_introspect _).access?_eq found
    trivial

theorem Node.parts_of_isBean {node : Node} (bean : node.isBean = true) : node.parts = node.attributes.values := by
  rcases node with ⟨type, origin, content⟩
  cases content with
  | bean all => rfl
  | _ => cases bean

/-- What is read of an object is a part of it or no object. -/
theorem Metadata.Transparent.read {metadata : Metadata} (transparent : metadata.Transparent) {heap : Heap}
    {target : ObjectId} {property : String} {value : Value}
    (found : Property.read heap metadata target property = .ok value) :
    value.object? = none ∨ value ∈ (heap.node target).parts := by
  obtain ⟨bean, ⟨-, rfl⟩ | ⟨getter, setter?, declared, rfl⟩⟩ := Property.read_cases found
  · rcases Node.attr_null_or_mem_parts (heap.node target) property with null | part
    · left
      rw [null]
      rfl
    · exact .inr part
  · exact (transparent property _ declared).1 getter rfl _ bean

/-- What is written to an object was a part of it, or is the given value or no object. -/
theorem Metadata.Transparent.write {metadata : Metadata} (transparent : metadata.Transparent) {heap : Heap}
    {target : ObjectId} {property : String} {value : Value} {change : Edit}
    (made : Property.Edits heap metadata target property value change) :
    ∀ part ∈ change.values, part.object? = none ∨ part = value ∨ part ∈ (heap.node target).parts := by
  intro part carried
  obtain ⟨bean, ⟨-, rfl⟩ | ⟨getter?, setter, declared, rfl⟩⟩ := made.cases
  · exact .inr (.inl (List.mem_singleton.1 carried))
  · exact (transparent property _ declared).2 setter rfl _ value bean part carried

namespace Orderly

variable {setting : Setting} {now : World} (orderly : Orderly setting now)

include orderly

/-- A change of neither the heap nor the visits. -/
theorem of_same {after : World} (later : now.Later after) (heap : after.heap = now.heap)
    (visits : after.visits = now.visits) (stored : after.store.stored ⊆ now.store.stored)
    (walks : after.walks = now.walks) : Orderly setting after := by
  constructor
  · rw [later.registry]
    exact orderly.defaults
  · rw [later.schema]
    exact orderly.transparent
  · rw [heap]
    exact orderly.closed
  · rw [heap]
    exact fun id member => orderly.stored id (stored member)
  · rw [heap, visits]
    exact orderly.counterpart
  · rw [visits]
    exact orderly.once
  · rw [walks, visits]
    exact orderly.walked
  · rw [walks]
    exact orderly.walks

theorem called {outages : Outages} (spent : now.outages.Spends outages) : Orderly setting { now with outages } :=
  orderly.of_same (.called now spent) rfl rfl (List.Subset.refl _) rfl

private theorem held_of_walked {source : ObjectId} (walked : source ∈ now.walks) : now.heap.Holds source := by
  rcases known : now.visits.get? source with _ | target
  · exact absurd known (orderly.walked source walked)
  · exact (orderly.counterpart source target known).1

theorem unvisited_fresh : now.visits.get? now.heap.fresh = none := by
  rcases known : now.visits.get? now.heap.fresh with _ | target
  · rfl
  · exact absurd (orderly.counterpart _ target known).1 now.heap.not_holds_fresh

theorem allocate (node : Node) : Orderly setting (allocate node.emptyLike now).2 := by
  have later := World.Later.allocate now node.emptyLike
  constructor
  · exact orderly.defaults
  · exact orderly.transparent
  · exact orderly.closed.allocate node
  · exact fun id member => later.holds (orderly.stored id member)
  · intro source target known
    obtain ⟨held, target_held⟩ := orderly.counterpart source target known
    exact ⟨later.holds held, fun id same => later.holds (target_held id same)⟩
  · exact orderly.once
  · exact orderly.walked
  · exact orderly.walks

/-- A first visit. -/
theorem record {source : ObjectId} (unvisited : now.visits.get? source = none) (held : now.heap.Holds source)
    {target : Value} (present : ∀ id, target = .object id → now.heap.Holds id) :
    Orderly setting (record source target now).2 := by
  have later := World.Later.record now unvisited target
  have here := World.Later.visits_record now source target
  have others : ∀ id, source ≠ id → (Action.record source target now).2.visits.get? id = now.visits.get? id :=
    fun id other => Visits.get?_record_of_ne _ other _
  constructor
  · exact orderly.defaults
  · exact orderly.transparent
  · exact orderly.closed
  · exact orderly.stored
  · intro id counterpart known
    by_cases same : source = id
    · subst same
      cases here.symm.trans known
      exact ⟨held, present⟩
    · rw [others id same] at known
      exact orderly.counterpart id counterpart known
  · refine List.nodup_cons.2 ⟨?_, orderly.once⟩
    intro member
    obtain ⟨entry, listed, rfl⟩ := List.mem_map.1 member
    rw [Visits.get?, Option.map_eq_none_iff, List.find?_eq_none] at unvisited
    exact unvisited entry listed (decide_eq_true rfl)
  · intro id walked
    rcases known : now.visits.get? id with _ | counterpart
    · exact absurd known (orderly.walked id walked)
    · rw [later.visits id counterpart known]
      exact Option.some_ne_none _
  · exact orderly.walks

/-- A visited object is walked for the first time. -/
theorem walk {source : ObjectId} (visited : now.visits.get? source ≠ none) (new : source ∉ now.walks) :
    Orderly setting (note (.walked source) now).2 := by
  have walks : (note (.walked source) now).2.walks = source :: now.walks := rfl
  constructor
  · exact orderly.defaults
  · exact orderly.transparent
  · exact orderly.closed
  · exact orderly.stored
  · exact orderly.counterpart
  · exact orderly.once
  · rw [walks]
    exact List.forall_mem_cons.2 ⟨visited, orderly.walked⟩
  · rw [walks]
    exact List.nodup_cons.2 ⟨new, orderly.walks⟩

private theorem edit {target : ObjectId} {change : Edit} (other : ∀ origin, change ≠ .setOrigin origin)
    (carried : ∀ part, .object part ∈ change.values → now.heap.Holds part) :
    Orderly setting (edit target change now).2 := by
  have later := World.Later.edit now target other
  constructor
  · exact orderly.defaults
  · exact orderly.transparent
  · exact orderly.closed.edit target carried
  · exact fun id member => later.holds (orderly.stored id member)
  · intro source counterpart known
    obtain ⟨held, present⟩ := orderly.counterpart source counterpart known
    exact ⟨later.holds held, fun id same => later.holds (present id same)⟩
  · exact orderly.once
  · exact orderly.walked
  · exact orderly.walks

/-- Objects that were walked keep their handlers. -/
theorem unhandledWalks_eq {after : World} (later : now.Later after) (walks : after.walks = now.walks) :
    after.unhandledWalks = now.unhandledWalks := by
  unfold World.unhandledWalks
  rw [walks]
  congr 1
  apply List.filter_congr
  intro id member
  rw [later.isHandled_eq (orderly.held_of_walked member)]

end Orderly

theorem Flushed.of_same {mode : Mode} {setting : Setting} {now after : World} (orderly : Orderly setting now)
    (later : now.Later after) (walks : after.walks = now.walks)
    (flushes : after.store.flushes = now.store.flushes) : Flushed mode setting now after := by
  intro _ _
  rw [orderly.unhandledWalks_eq later walks, flushes]

private theorem Flushed.trans {mode : Mode} {setting : Setting} {now middle after : World}
    (first : Flushed mode setting now middle) (second : Flushed mode setting middle after) :
    Flushed mode setting now after := by
  intro detaches automatic
  have one := first detaches automatic
  have two := second detaches automatic
  omega

/-- Room is made of the queue and the credit. -/
theorem World.room_le {mode : Mode} {opened opened' : List ObjectId} {now after : World}
    (total : after.queue mode opened' + after.credit mode ≤ now.queue mode opened + now.credit mode) :
    after.room mode opened' ≤ now.room mode opened := by
  cases mode with
  | cloning => exact Nat.le_refl 0
  | _ => exact total

namespace Went

variable {mode : Mode} {now after : World}

private theorem of_same (later : now.Later after) (heap : after.heap = now.heap) (visits : after.visits = now.visits) :
    Went mode now after where
  later := later
  credit_le := (World.credit_of_same mode later (by rw [heap]) visits).le
  room_le opened _ := by
    have queue : after.queue mode opened ≤ now.queue mode opened := by
      apply World.queue_le
      rintro id ⟨held, unvisited, counts, parts⟩
      rw [heap] at held parts
      rw [later.isHandled_eq held] at counts
      exact ⟨held, later.unvisited unvisited, counts, parts⟩
    have credit := World.credit_of_same mode later (by rw [heap]) visits
    apply World.room_le
    omega
  frozen _ id _ := by rw [heap]

private theorem refl (now : World) : Went mode now now :=
  of_same (.refl now) rfl rfl

private theorem trans {middle : World} (first : Went mode now middle) (second : Went mode middle after) :
    Went mode now after where
  later := first.later.trans second.later
  credit_le := second.credit_le.trans first.credit_le
  room_le opened held :=
    (second.room_le opened fun id member => first.later.holds (held id member)).trans (first.room_le opened held)
  frozen same id held := by
    have less := first.credit_le
    have least := second.credit_le
    have node := second.frozen (by omega) id (first.later.holds held)
    exact node.trans (first.frozen (by omega) id held)

end Went

namespace Concluded

variable {mode : Mode} {setting : Setting} {now after : World} {result : Value}

/-- An answer without any change. -/
theorem here (orderly : Orderly setting now) (held : ∀ id, result = .object id → now.heap.Holds id) :
    Concluded mode setting now result now :=
  ⟨orderly, .refl now, held, .of_same orderly (.refl now) rfl rfl⟩

/-- An answer after a look. -/
theorem of_same (orderly : Orderly setting now) (later : now.Later after) (heap : after.heap = now.heap)
    (visits : after.visits = now.visits) (store : after.store = now.store) (walks : after.walks = now.walks)
    (held : ∀ id, result = .object id → now.heap.Holds id) : Concluded mode setting now result after := by
  constructor
  · exact orderly.of_same later heap visits (by rw [store]; exact List.Subset.refl _) walks
  · exact .of_same later heap visits
  · rw [heap]
    exact held
  · exact .of_same orderly later walks (by rw [store])

/-- What was done before may be counted in. -/
theorem since {middle : World} (concluded : Concluded mode setting middle result after)
    (went : Went mode now middle) (flushed : Flushed mode setting now middle) :
    Concluded mode setting now result after :=
  ⟨concluded.orderly, went.trans concluded.went, concluded.held, flushed.trans concluded.flushed⟩

/-- The store was called first. -/
theorem since_called {outages : Outages} (orderly : Orderly setting now) (spent : now.outages.Spends outages)
    (concluded : Concluded mode setting { now with outages } result after) : Concluded mode setting now result after :=
  concluded.since (.of_same (.called now spent) rfl rfl) (.of_same orderly (.called now spent) rfl rfl)

end Concluded

/-- Requests about values are answered or fail for a reason, if they weigh less than the limit. -/
def Nests (mode : Mode) (setting : Setting) (bound limit : Nat) (ask : Value → Action Value) : Prop :=
  ∀ now value, Orderly setting now → (∀ id, value = .object id → now.heap.Holds id) →
    now.room mode [] ≤ bound → now.weigh mode bound value < limit →
    (ask value).Ensures now (Stopped setting) (Concluded mode setting now)

/-- An object has been visited and its counterpart may be filled, if it is kept in the queue. Either credit was
used up, or the counterpart is new and what was there before is as it was. -/
structure Inside (mode : Mode) (setting : Setting) (now : World) (source target : ObjectId)
    (kept : List ObjectId) (middle : World) : Prop where
  begun : Orderly setting now
  present : now.heap.Holds source
  unvisited : now.visits.get? source = none
  orderly : Orderly setting middle
  later : now.Later middle
  visited : middle.visits.get? source ≠ none
  held : middle.heap.Holds target
  there : ∀ id ∈ kept, middle.heap.Holds id
  room_le : ∀ opened, (∀ id ∈ opened, now.heap.Holds id) →
    middle.room mode (kept ++ opened) ≤ now.room mode opened
  progress : middle.credit mode < now.credit mode ∨
    middle.credit mode = now.credit mode ∧ mode.counts (now.isHandled source) = true ∧
      ¬ now.heap.Holds target ∧ ∀ id, now.heap.Holds id → middle.heap.node id = now.heap.node id
  flushed : Flushed mode setting now middle

/-- An edit queues no object anew, unless the one that it gives parts was counted as queued. -/
theorem World.queue_edit (mode : Mode) (now : World) {target : ObjectId} {change : Edit} {opened : List ObjectId}
    (other : ∀ origin, change ≠ .setOrigin origin) (queued : target ∈ opened ∨ change.values = []) :
    (edit target change now).2.queue mode opened ≤ now.queue mode opened := by
  apply World.queue_le
  rintro id ⟨present, unvisited, counts, either⟩
  have before : now.heap.Holds id := Heap.holds_edit.1 present
  rw [(World.Later.edit now target other).isHandled_eq before] at counts
  refine ⟨before, unvisited, counts, ?_⟩
  by_cases same : id = target
  · subst same
    refine queued.elim .inl fun nothing => either.imp_right fun parts => ?_
    obtain ⟨part, listed⟩ := List.exists_mem_of_ne_nil _ parts
    rcases Heap.mem_parts_edit listed with known | ⟨-, carried⟩
    · exact List.ne_nil_of_mem known
    · rw [nothing] at carried
      cases carried
  · have elsewhere : (Action.edit target change now).2.heap.node id = now.heap.node id :=
      Heap.node_edit_of_ne _ same change
    rwa [elsewhere] at either

namespace Inside

variable {mode : Mode} {setting : Setting} {now : World} {source target : ObjectId} {kept : List ObjectId}
  {middle : World}
  (inside : Inside mode setting now source target kept middle)

include inside

private theorem held_append {opened : List ObjectId} (held : ∀ id ∈ opened, now.heap.Holds id) :
    ∀ id ∈ kept ++ opened, middle.heap.Holds id := by
  intro id member
  rcases List.mem_append.1 member with own | other
  · exact inside.there id own
  · exact inside.later.holds (held id other)

/-- A part of the run stays inside the visit. -/
theorem go {result : Value} {after : World} (concluded : Concluded mode setting middle result after) :
    Inside mode setting now source target kept after := by
  have later := inside.later.trans concluded.went.later
  have less := concluded.went.credit_le
  constructor
  · exact inside.begun
  · exact inside.present
  · exact inside.unvisited
  · exact concluded.orderly
  · exact later
  · intro unvisited
    exact inside.visited (concluded.went.later.unvisited unvisited)
  · exact concluded.went.later.holds inside.held
  · exact fun id member => concluded.went.later.holds (inside.there id member)
  · intro opened held
    exact (concluded.went.room_le _ (inside.held_append held)).trans (inside.room_le opened held)
  · rcases inside.progress with used | ⟨same, counts, new, frozen⟩
    · exact .inl (Nat.lt_of_le_of_lt less used)
    · rcases Nat.lt_or_eq_of_le less with used | unused
      · exact .inl (by omega)
      · refine .inr ⟨unused.trans same, counts, new, fun id held => ?_⟩
        exact (concluded.went.frozen unused id (inside.later.holds held)).trans (frozen id held)
  · exact inside.flushed.trans concluded.flushed

/-- A change of neither the heap nor the visits. -/
theorem of_same {after : World} (later : middle.Later after) (heap : after.heap = middle.heap)
    (visits : after.visits = middle.visits) (orderly : Orderly setting after)
    (flushed : Flushed mode setting now after) : Inside mode setting now source target kept after := by
  have credit := World.credit_of_same mode later (by rw [heap]) visits
  constructor
  · exact inside.begun
  · exact inside.present
  · exact inside.unvisited
  · exact orderly
  · exact inside.later.trans later
  · rw [visits]
    exact inside.visited
  · exact later.holds inside.held
  · exact fun id member => later.holds (inside.there id member)
  · intro opened held
    exact ((Went.of_same later heap visits).room_le _ (inside.held_append held)).trans (inside.room_le opened held)
  · rw [credit, heap]
    exact inside.progress
  · exact flushed

/-- The counterpart is filled. -/
theorem edit {change : Edit} (other : ∀ origin, change ≠ .setOrigin origin)
    (carried : ∀ part, .object part ∈ change.values → middle.heap.Holds part)
    (queued : target ∈ kept ∨ change.values = []) :
    Inside mode setting now source target kept (edit target change middle).2 := by
  have later := World.Later.edit middle target other
  have size : (Action.edit target change middle).2.heap.size = middle.heap.size := Heap.size_edit ..
  have credit := World.credit_of_same mode later size rfl
  have elsewhere : ∀ id, id ≠ target →
      (Action.edit target change middle).2.heap.node id = middle.heap.node id :=
    fun id different => Heap.node_edit_of_ne _ different change
  constructor
  · exact inside.begun
  · exact inside.present
  · exact inside.unvisited
  · exact inside.orderly.edit other carried
  · exact inside.later.trans later
  · exact inside.visited
  · exact later.holds inside.held
  · exact fun id member => later.holds (inside.there id member)
  · intro opened held
    refine Nat.le_trans (World.room_le ?_) (inside.room_le opened held)
    have queue := World.queue_edit mode middle other (queued.imp_left (List.mem_append_left opened))
    omega
  · rw [credit]
    refine inside.progress.imp_right ?_
    rintro ⟨same, counts, new, frozen⟩
    refine ⟨same, counts, new, fun id held => ?_⟩
    have different : id ≠ target := by
      rintro rfl
      exact new held
    exact (elsewhere id different).trans (frozen id held)
  · exact inside.flushed.trans (.of_same inside.orderly later rfl rfl)

/-- At the end of the visit the counterpart is queued only if it has parts. -/
theorem went : Went mode now middle where
  later := inside.later
  credit_le := by
    rcases inside.progress with used | ⟨same, -⟩
    · exact used.le
    · exact same.le
  room_le opened known := by
    refine Nat.le_trans (World.room_le ?_) (inside.room_le opened known)
    have queue : middle.queue mode opened ≤ middle.queue mode (kept ++ opened) := by
      apply World.queue_le
      rintro id ⟨present, unvisited, counts, either⟩
      exact ⟨present, unvisited, counts, either.imp_left (List.mem_append_right kept)⟩
    omega
  frozen same id known := by
    rcases inside.progress with used | ⟨-, -, -, frozen⟩
    · omega
    · exact frozen id known

theorem concludes {result : Value} (held : ∀ id, result = .object id → middle.heap.Holds id) :
    Concluded mode setting now result middle :=
  ⟨inside.orderly, inside.went, held, inside.flushed⟩

/-- A request about a part weighs less than the object. -/
theorem weigh_lt {bound : Nat} (within : now.room mode [] ≤ bound) {part : Value}
    (listed : middle.credit mode = now.credit mode →
      part.object? = none ∨ part ∈ (now.heap.node source).parts) :
    middle.weigh mode bound part < now.weigh mode bound (.object source) := by
  rcases inside.progress with used | ⟨same, counts, -, frozen⟩
  · have room := (inside.went.room_le [] nofun).trans within
    have queue : middle.queue mode [] ≤ middle.room mode [] := by
      cases mode with
      | cloning =>
        have free : ∀ world : World, world.credit .cloning = 0 := fun world => Finset.sum_eq_zero fun _ _ => rfl
        rw [free, free] at used
        omega
      | _ => exact Nat.le_add_right _ _
    apply World.weigh_lt_of_credit used
    omega
  · exact World.weigh_lt_of_frozen inside.later inside.begun.closed same frozen inside.present inside.unvisited
      counts inside.visited (listed same)

/-- A request about a part can be made. -/
theorem ensures_ask {bound limit : Nat} {ask : Value → Action Value}
    (asks : Nests mode setting bound limit ask) (within : now.room mode [] ≤ bound)
    (light : now.weigh mode bound (.object source) ≤ limit) {part : Value}
    (known : ∀ id, part = .object id → middle.heap.Holds id)
    (listed : middle.credit mode = now.credit mode →
      part.object? = none ∨ part ∈ (now.heap.node source).parts) :
    (ask part).Ensures middle (Stopped setting) (fun result after =>
      Inside mode setting now source target kept after ∧ Concluded mode setting middle result after) := by
  have room : middle.room mode [] ≤ bound := (inside.went.room_le [] nofun).trans within
  apply (asks middle part inside.orderly known room
    (Nat.lt_of_lt_of_le (inside.weigh_lt within listed) light)).weaken
  intro result after concluded
  exact ⟨inside.go concluded, concluded⟩

end Inside

end Reconciler
