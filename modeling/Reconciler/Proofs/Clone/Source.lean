import Reconciler.Accessors
import Reconciler.Proofs.Clone
import Reconciler.Proofs.Ensures

/-! # A clone leaves its source alone

While a graph is cloned every edit goes to an object that was allocated after the call began: to the copy of
a bean, or to a container that is being rebuilt. So all objects that were there before stay as they are, and
the store at most counts flushes. The invariant is carried through every ending, so it does not
matter whether the call answers, or at which depth it fails, and no assumption about the heap, the handlers
or the accessors is needed: an accessor sees the attributes of one bean and nothing else.
-/

namespace Reconciler

open Reconciler.Action

/-- A world that a clone which began in `start` can be in. -/
structure Spared (start now : World) : Prop where
  size_le : start.heap.size ≤ now.heap.size
  node_eq : ∀ id, start.heap.Holds id → now.heap.node id = start.heap.node id
  store_eq : now.store = { start.store with flushes := now.store.flushes }
  flushes_le : start.store.flushes ≤ now.store.flushes

namespace Spared

variable {start now : World}

private theorem refl (world : World) : Spared world world :=
  ⟨Nat.le_refl _, fun _ _ => rfl, rfl, Nat.le_refl _⟩

/-- Only the heap and the store matter. -/
theorem of_same {after : World} (spared : Spared start now) (heap : after.heap = now.heap)
    (store : after.store = now.store) : Spared start after := by
  rcases spared with ⟨size_le, node_eq, store_eq, flushes_le⟩
  rw [← heap] at size_le node_eq
  rw [← store] at store_eq flushes_le
  exact ⟨size_le, node_eq, store_eq, flushes_le⟩

private theorem allocate (spared : Spared start now) (node : Node) :
    Spared start { now with heap := now.heap.allocate node } :=
  { spared with
    size_le := by
      have bound := spared.size_le
      simp only [Heap.size_allocate]
      omega
    node_eq := by
      intro id held
      have kept : now.heap.Holds id := Nat.lt_of_lt_of_le held spared.size_le
      exact (Heap.node_allocate_of_holds kept node).trans (spared.node_eq id held) }

/-- What is allocated is none of the old objects. -/
theorem new_fresh (spared : Spared start now) : ¬ start.heap.Holds now.heap.fresh :=
  Nat.not_lt.2 spared.size_le

/-- An edit of a new object leaves the old ones alone. -/
theorem edit (spared : Spared start now) {target : ObjectId} (new : ¬ start.heap.Holds target)
    (change : Edit) : Spared start (Action.edit target change now).2 where
  size_le := (Heap.size_edit now.heap target change).symm ▸ spared.size_le
  node_eq := by
    intro id held
    have different : id ≠ target := by
      rintro rfl
      exact new held
    exact (Heap.node_edit_of_ne now.heap different change).trans (spared.node_eq id held)
  store_eq := spared.store_eq
  flushes_le := spared.flushes_le

private theorem flush (spared : Spared start now) {store : EntityStore} (flushed : now.store.flush = .ok store)
    (outages : Outages) : Spared start { now with store, outages } := by
  obtain rfl := EntityStore.flush_eq flushed
  constructor
  · exact spared.size_le
  · exact spared.node_eq
  · rw [spared.store_eq]
  · have bound := spared.flushes_le
    show start.store.flushes ≤ now.store.flushes + 1
    omega

end Spared

/-- However the action comes out, it leaves the old objects alone. -/
def Spares (start : World) {α : Type} (action : Action α) : Prop :=
  ∀ now, Spared start now →
    action.Ensures now (fun _ after => Spared start after) (fun _ after => Spared start after)

namespace Spares

variable {start : World} {α β : Type}

private theorem pure (answer : α) : Spares start (Pure.pure answer : Action α) :=
  fun _ spared => ensures_pure spared

private theorem bind {first : Action α} {next : α → Action β} (one : Spares start first)
    (two : ∀ answer, Spares start (next answer)) : Spares start (first >>= next) :=
  fun now spared => (one now spared).bind fun answer after kept => two answer after kept

private theorem look_bind {view : World → α} {next : α → Action β} (rest : ∀ seen, Spares start (next seen)) :
    Spares start (look view >>= next) :=
  fun now spared => ensures_look_bind (rest _ now spared)

private theorem forM {items : List α} {body : α → Action PUnit} (each : ∀ item, Spares start (body item)) :
    Spares start (items.forM body) :=
  fun _ spared => ensures_forM (fun _ => Spared start) spared fun _ item _ _ middle kept =>
    each item middle kept

private theorem note (event : Event) : Spares start (Action.note event) :=
  fun _ spared => ensures_of_ok rfl (spared.of_same rfl rfl)

private theorem record (source : ObjectId) (target : Value) : Spares start (Action.record source target) :=
  fun _ spared => ensures_of_ok rfl (spared.of_same rfl rfl)

private theorem edit {target : ObjectId} (new : ¬ start.heap.Holds target) (change : Edit) :
    Spares start (Action.edit target change) :=
  fun _ spared => ensures_of_ok rfl (spared.edit new change)

/-- What follows an allocation may edit the new object. -/
theorem allocate_bind (node : Node) {next : ObjectId → Action α}
    (rest : ∀ copy, ¬ start.heap.Holds copy → Spares start (next copy)) :
    Spares start (allocate node >>= next) :=
  fun _ spared => ensures_bind_of_eq rfl (rest _ spared.new_fresh _ (spared.allocate node))

private theorem handlerOf (value : Value) : Spares start (Action.handlerOf value) := by
  intro now spared
  apply Answers.ensures
  apply (answers_handlerOf value).weaken
  rintro handler? _ ⟨-, dispatch, -, rfl⟩
  exact spared.of_same rfl rfl

private theorem metadataOf (setting : Setting) (id : ObjectId) : Spares start (Action.metadataOf setting id) := by
  intro now spared
  apply Answers.ensures
  apply (answers_metadataOf setting id).weaken
  rintro metadata? _ ⟨-, cache, -, rfl⟩
  exact spared.of_same rfl rfl

private theorem readProperty (metadata : Metadata) (id : ObjectId) (property : String) :
    Spares start (Action.readProperty metadata id property) := by
  intro now spared
  apply (ensures_readProperty fun _ => spared).weaken
  rintro value _ ⟨rfl, -⟩
  exact spared

/-- A setter may refuse the value, and it changes nothing but its own bean. -/
theorem writeProperty (metadata : Metadata) {target : ObjectId} (new : ¬ start.heap.Holds target)
    (property : String) (value : Value) : Spares start (Action.writeProperty metadata target property value) :=
  fun now spared => ensures_writeProperty (fun _ => spared) fun change _ =>
    have kept := (edit new change now spared).answered () _ rfl
    ⟨fun _ => kept, fun _ => kept⟩

private theorem flushFirst (setting : Setting) : Spares start (flushFirst setting) := by
  unfold Reconciler.flushFirst
  split
  · exact fun _ spared => ensures_changeStore (fun _ _ _ => spared.of_same rfl rfl)
      (fun _ outages _ flushed => spared.flush flushed outages)
  · exact pure ()

/-- A container that is rebuilt is filled in place of its source. -/
theorem rebuild {fill : Node → ObjectId → Action Unit}
    (fills : ∀ node copy, ¬ start.heap.Holds copy → Spares start (fill node copy)) (source : ObjectId) :
    Spares start (rebuild fill source) := by
  apply look_bind
  intro node
  apply allocate_bind
  intro copy new
  apply (record source (.object copy)).bind
  intro _
  apply (note (.walked source)).bind
  intro _
  apply (fills node copy new).bind
  intro _
  exact pure _

section Asking

variable {ask : Value → Action Value} (asks : ∀ part, Spares start (ask part))

include asks

private theorem fillCollection (node : Node) {copy : ObjectId} (new : ¬ start.heap.Holds copy) :
    Spares start (fillCollection ask node copy) := by
  apply forM
  intro item
  exact (asks item).bind fun image => edit new (.append image)

private theorem fillMap (node : Node) {copy : ObjectId} (new : ¬ start.heap.Holds copy) :
    Spares start (fillMap ask node copy) := by
  apply forM
  rintro ⟨key, value⟩
  apply (asks key).bind
  intro image
  exact (asks value).bind fun bound => edit new (.bind image bound)

private theorem fillArray (node : Node) {copy : ObjectId} (new : ¬ start.heap.Holds copy) :
    Spares start (fillArray ask node copy) := by
  unfold Reconciler.fillArray
  split
  · exact edit new _
  · apply forM
    rintro ⟨item, index⟩
    exact (asks item).bind fun image => edit new (.setSlot index image)

private theorem rebuildValue (handler : Handler) (value : Value) : Spares start (handler.rebuildValue ask value) := by
  unfold Handler.rebuildValue
  split
  · exact pure _
  · exact rebuild (fun node _ new => fillCollection asks node new) _
  · exact rebuild (fun node _ new => fillMap asks node new) _
  · exact rebuild (fun node _ new => fillArray asks node new) _
  · exact pure _

private theorem detachedPart (setting : Setting) (value : Value) : Spares start (detachedPart setting ask value) := by
  unfold Reconciler.detachedPart
  split
  · exact pure _
  apply look_bind
  intro loaded
  split
  · exact asks value
  unfold unloadedPart
  split
  · apply look_bind
    intro node
    split
    · exact allocate_bind _ fun _ _ => pure _
    · exact pure _
  · exact pure _

/-- A bean is taken apart into a new one, and never in place. -/
theorem disconnectObject {setting : Setting} (clones : setting.config.cloneObjects = true) (source : ObjectId) :
    Spares start (disconnectObject setting ask source) := by
  intro now spared
  have allocates : targetOf setting source now =
      allocate (now.heap.node source).emptyLike now := by
    simp only [targetOf, nodeOf, bind_apply, look, clones, Bool.true_or, if_true]
  refine ensures_bind_of_eq allocates ?_
  have new := spared.new_fresh
  refine (?_ : Spares start _) _ (spared.allocate _)
  apply (record source _).bind
  intro _
  apply (note (.walked source)).bind
  intro _
  apply (flushFirst setting).bind
  intro _
  apply (metadataOf setting source).bind
  intro metadata?
  split
  · exact pure _
  · next metadata =>
    apply Spares.bind (forM fun property => ?_) fun _ => pure _
    apply (readProperty metadata source property).bind
    intro value
    apply (detachedPart asks setting value).bind
    intro detached
    exact writeProperty metadata new property detached

private theorem disconnectValue {setting : Setting} (clones : setting.config.cloneObjects = true) (value : Value) :
    Spares start (disconnectValue setting ask value) := by
  unfold Reconciler.disconnectValue
  split
  · exact pure _
  apply look_bind
  intro counterpart?
  split
  · exact pure _
  apply (handlerOf value).bind
  intro handler?
  split
  · exact rebuildValue asks _ _
  split
  · exact disconnectObject asks clones _
  · exact pure _

end Asking

/-- Requests for copies leave the old objects alone, however much fuel there is. -/
theorem answer {setting : Setting} (clones : setting.config.cloneObjects = true) (fuel : Nat) (value : Value) :
    Spares start (answer setting fuel (.disconnect value)) := by
  induction fuel generalizing value with
  | zero => exact fun _ spared => ensures_stop spared
  | succ fuel ih =>
    apply (note _).bind
    intro _
    apply (disconnectValue ih clones value).bind
    intro result
    apply (note _).bind
    intro _
    exact pure result

end Spares

/-- Cloning a graph changes no object that was there before, and nothing of the store but the number of
flushes, whether the call answers or fails. -/
theorem Setting.disconnect_leaves_source (setting : Setting) (clones : setting.config.cloneObjects = true)
    (world : World) (value : Value) :
    let after := (setting.disconnect value world).2
    (∀ id, world.heap.Holds id → after.heap.Holds id ∧ after.heap.node id = world.heap.node id) ∧
      after.store = { world.store with flushes := after.store.flushes } ∧
      world.store.flushes ≤ after.store.flushes := by
  intro after
  have ensures := Spares.answer clones (world.rested.fuel setting) value world.rested (.refl world.rested)
  have spared : Spared world.rested after := by
    rcases run : setting.disconnect value world with ⟨ending | result, left⟩
    · have here : after = left := congrArg Prod.snd run
      exact here ▸ ensures.ended ending left run
    · have here : after = left := congrArg Prod.snd run
      exact here ▸ ensures.answered result left run
  constructor
  · intro id held
    exact ⟨Nat.lt_of_lt_of_le held spared.size_le, spared.node_eq id held⟩
  · exact ⟨spared.store_eq, spared.flushes_le⟩

namespace Accounts

def schema : Schema := ⟨[
  { name := ⟨"Account"⟩, properties := .ofList [("holders", .field), ("owner", .field)] },
  { name := ⟨"Person"⟩, properties := .ofList
      [("email", .accessor (some (Getter.ofAttribute "email")) (some (Setter.email "email")))] }]⟩

/-- A stored account among its own holders. The email address of its owner was never checked. -/
def world : World where
  heap := ⟨#[{ Node.bean ⟨"Account"⟩ [("holders", .object ⟨1⟩), ("owner", .object ⟨2⟩)] with origin := .stored },
    .set [.object ⟨0⟩], .bean ⟨"Person"⟩ [("email", .text "nobody")]]⟩
  store := { stored := [⟨0⟩] }
  dispatch := .ofRegistry (.withDefaults schema)
  cache := .ofSchema schema

def setting : Setting := { schema, config := { cloneObjects := true, flushAutomatically := true } }

/-- The setter of the copied owner refuses the address, after two flushes and three new objects. -/
theorem refused_clone_leaves_source :
    let after := (setting.disconnect (.object ⟨0⟩) world).2
    ((setting.disconnect (.object ⟨0⟩) world).1 = .error (.failed (.access
        (.rejected ⟨"Person"⟩ "email" ⟨"invalid email address", some (.text "nobody")⟩ ⟨5⟩))) ∧
      after.heap.size = 6 ∧ after.store.flushes = 2) ∧
    (∀ id, world.heap.Holds id → after.heap.Holds id ∧ after.heap.node id = world.heap.node id) ∧
      after.store = { world.store with flushes := after.store.flushes } ∧
      world.store.flushes ≤ after.store.flushes :=
  ⟨⟨by decide +kernel, by decide +kernel, by decide +kernel⟩,
    Setting.disconnect_leaves_source setting (by rfl) world (.object ⟨0⟩)⟩

end Accounts

end Reconciler
