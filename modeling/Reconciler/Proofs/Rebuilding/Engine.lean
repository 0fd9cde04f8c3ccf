import Reconciler.Proofs.Rebuilding

/-! # The engine rebuilds

One lemma for each function of the engine says that it answers, and that the answer is the counterpart of the value
it was asked about. The fuel lasts because every request for a part comes from a container that was visited for the
first time.
-/

namespace Reconciler

open Reconciler.Action

/-- A part of the run that leaves nothing open has answered for a value with its counterpart. -/
structure Returns (setting : Setting) (source : World) (member : ObjectId → Prop) (now : World)
    (value image : Value) (after : World) : Prop where
  rebuilding : Rebuilding source member after
  rebuilds : Rebuilds setting source (fun _ => False) now after
  copied : Copied after value image

/-- What was done before leaves a counterpart a counterpart. -/
private theorem Returns.since {setting : Setting} {source now middle after : World} {member : ObjectId → Prop}
    {value image : Value} (returns : Returns setting source member middle value image after)
    (rebuilding : Rebuilding source member middle)
    (first : Rebuilds setting source (fun _ => False) now middle) :
    Returns setting source member now value image after :=
  { returns with rebuilds := first.trans_of_held (fun _ _ => rebuilding.held_of_visited) returns.rebuilds }

/-- Requests to apply a value are answered with its counterpart, as long as there is fuel for the unvisited
objects. -/
def Serves (setting : Setting) (source : World) (member : ObjectId → Prop) (fuel : Nat)
    (ask : Request → Action Value) : Prop :=
  ∀ now value, Rebuilding source member now → source.unvisited now < fuel →
    (∀ object, value = .object object → member object) →
    (ask (.apply value)).Answers now (Returns setting source member now value)

section Asking

variable {setting : Setting} {source now : World} {member : ObjectId → Prop} {fuel : Nat}
  {ask : Request → Action Value} {object : ObjectId}

/-- The copy of a container can be filled, because no two values have the same counterpart. -/
private theorem Rebuildable.fillable (rebuildable : Rebuildable source member)
    (asks : Serves setting source member fuel ask)
    (bound : source.unvisited now ≤ fuel) (mem : member object) (container : ¬ source.Inert object)
    (copy : ObjectId) : Fillable (fun part => ask (.apply part)) (source.heap.node object) copy
      (Unfinished setting source member now object copy) where
  distinct := rebuildable.distinct object mem
  scalars := rebuildable.scalars object mem
  held := fun _ unfinished => unfinished.held
  injective := fun _ _ _ _ unfinished => unfinished.rebuilding.copied_injective
  asks := by
    intro middle unfinished value listed
    have fewer := unfinished.fewer (rebuildable.held object mem)
    have part : ∀ part, value = .object part → member part := by
      rintro part rfl
      exact rebuildable.closed object mem part listed
    apply (asks middle value unfinished.rebuilding (by omega) part).weaken
    intro image after returns
    exact ⟨unfinished.go returns.rebuilding returns.rebuilds, returns.rebuilds.kept copy unfinished.held,
      returns.rebuilds.visits, returns.copied⟩
  edits := fun _ _ unfinished _ other => unfinished.edit container other _

/-- A container is rebuilt by the handler that its content asks for. -/
private theorem Serves.answers_rebuildValue (asks : Serves setting source member fuel ask)
    (rebuildable : Rebuildable source member) (rebuilding : Rebuilding source member now) (mem : member object)
    (unvisited : now.visits.get? object = none) (bound : source.unvisited now ≤ fuel) {handler : Handler}
    (handled : (source.heap.node object).content.handler? = some handler) :
    (handler.rebuildValue (fun part => ask (.apply part)) (.object object)).Answers now
      (Returns setting source member now (.object object)) := by
  have kept := rebuilding.kept object (rebuildable.held object mem)
  have container : ¬ source.Inert object := fun inert => Option.some_ne_none _ (handled.symm.trans inert)
  have fillable := rebuildable.fillable asks bound mem container now.heap.fresh
  have begun : Unfinished setting source member now object _ _ :=
    .start rebuilding mem unvisited container (.walked object :: now.journal)
  rw [← kept] at fillable handled begun
  apply (fillable.answers_rebuildValue (source.names setting object) id source begun handled).weaken
  rintro _ after ⟨rfl, unfinished, imitates⟩
  rw [kept] at imitates
  exact ⟨unfinished.rebuilding, unfinished.close imitates, .object unfinished.visited⟩

/-- What is no entity stands for itself. -/
private theorem answers_applyObject (rebuildable : Rebuildable source member)
    (rebuilding : Rebuilding source member now)
    (mem : member object) (inert : source.Inert object) (unvisited : now.visits.get? object = none) :
    (applyObject ask object).Answers now (Returns setting source member now (.object object)) := by
  have held := rebuildable.held object mem
  have undescribed := rebuildable.undescribed object mem inert
  obtain ⟨passed, rebuilds⟩ : _ ∧ Rebuilds setting source (fun _ => False) now _ :=
    rebuilding.pass mem held inert unvisited
  apply answers_look_bind
  apply answers_look_bind
  rw [rebuilding.kept object held, rebuilding.store, undescribed]
  exact answers_bind_of_eq rfl (answers_pure ⟨passed, rebuilds, .object (now.visits.get?_record_self ..)⟩)

/-- The look-up of a handler changes no object. -/
private theorem Rebuilding.answers_handlerOf (rebuilding : Rebuilding source member now) (value : Value) :
    (handlerOf value).Answers now (fun handler? after =>
      handler? = source.dispatch.registry.ofValue now.heap value ∧ Rebuilding source member after ∧
      after.heap = now.heap ∧ after.visits = now.visits) := by
  apply (Action.answers_handlerOf value).weaken
  rintro handler? _ ⟨rfl, dispatch, registry, rfl⟩
  exact ⟨by rw [rebuilding.registry], rebuilding.of_same rfl rfl registry rfl, rfl, rfl⟩

/-- A value gets the counterpart that it has, or a new one. -/
private theorem Serves.answers_applyValue (asks : Serves setting source member fuel ask)
    (rebuildable : Rebuildable source member) (rebuilding : Rebuilding source member now)
    (bound : source.unvisited now ≤ fuel) {value : Value} (part : ∀ object, value = .object object → member object) :
    (applyValue ask value).Answers now (Returns setting source member now value) := by
  have stays : ∀ image, Copied now value image → (pure image : Action Value).Answers now
      (Returns setting source member now value) :=
    fun image copied => answers_pure ⟨rebuilding, .refl now id, copied⟩
  unfold applyValue
  split
  · next null =>
    obtain rfl := (Value.isNull_iff value).1 null
    exact stays .null (.scalar rfl)
  apply answers_look_bind
  rcases scalar : value.object? with _ | object
  · -- Scalars are not visited, and the only handler that they have passes them through.
    apply (rebuilding.answers_handlerOf value).bind
    rintro handler? after ⟨answer, rebuilding, heap, visits⟩
    rw [Handler.Registry.ofValue_of_scalar _ scalar _ source.heap] at answer
    refine ⟨value, after, ?_, rebuilding, .of_same heap visits, .scalar scalar⟩
    rcases handler? with _ | handler
    · cases value with
      | object id => cases scalar
      | _ => rfl
    · obtain rfl := rebuildable.scalar value scalar handler answer.symm
      rfl
  · obtain rfl := (Value.object?_eq_some_iff value object).1 scalar
    have mem := part object rfl
    rw [Option.bind_some]
    rcases visited : now.visits.get? object with _ | target
    · apply (rebuilding.answers_handlerOf (.object object)).bind
      rintro handler? middle ⟨answer, rebuilding', heap, visits⟩
      have handler : handler? = (source.heap.node object).content.handler? := by
        have same := rebuilding.handler?_eq (rebuildable.held object mem)
        rw [answer, ← rebuildable.handler?_eq object mem, ← same, World.handler?, rebuilding.registry]
      have unvisited : middle.visits.get? object = none := by simp [visits, visited]
      have bound : source.unvisited middle ≤ fuel := by rwa [World.unvisited, visits]
      have looked : Rebuilds setting source (fun _ => False) now middle := .of_same heap visits
      rcases handler? with _ | found
      · apply (answers_applyObject rebuildable rebuilding' mem handler.symm unvisited).weaken
        exact fun image after returns => returns.since rebuilding' looked
      · apply (asks.answers_rebuildValue rebuildable rebuilding' mem unvisited bound handler.symm).weaken
        exact fun image after returns => returns.since rebuilding' looked
    · obtain ⟨-, copy, rfl, -⟩ := rebuilding.visited object target visited
      exact stays (.object copy) (.object visited)

end Asking

/-- A run answers for any value whose parts belong to the set. -/
private theorem serves_answer {setting : Setting} {source : World} {member : ObjectId → Prop}
    (rebuildable : Rebuildable source member) (fuel : Nat) :
    Serves setting source member fuel (answer setting fuel) := by
  induction fuel with
  | zero => exact fun now value rebuilding bound => absurd bound (Nat.not_lt_zero _)
  | succ fuel ih =>
    intro now value rebuilding bound part
    have asked : Rebuilding source member { now with journal := .asked (.apply value) :: now.journal } :=
      rebuilding.of_same rfl rfl rfl rfl
    apply answers_bind_of_eq rfl
    apply (ih.answers_applyValue rebuildable asked (Nat.le_of_lt_succ bound) part).bind
    intro image after returns
    have begun : Rebuilds setting source (fun _ => False) now
        { now with journal := .asked (.apply value) :: now.journal } := .of_same rfl rfl
    have ended : Rebuilds setting source (fun _ => False) after
        { after with journal := .answered (.apply value) image :: after.journal } := .of_same rfl rfl
    have since := returns.since asked begun
    refine answers_bind_of_eq rfl (answers_pure ⟨since.rebuilding.of_same rfl rfl rfl rfl, ?_, ?_⟩)
    · exact since.rebuilds.trans_of_held (fun _ _ => since.rebuilding.held_of_visited) ended
    · exact since.copied.later ended.toGrows

/-- Applying a value rebuilds the containers of a set that it belongs to. Every one that it visited is mirrored when
it is done. -/
theorem Setting.exists_apply {setting : Setting} {world : World} {member : ObjectId → Prop} {value : Value}
    (rebuildable : Rebuildable world.rested member) (part : ∀ object, value = .object object → member object) :
    ∃ result after, setting.apply value world = (.ok result, after) ∧
      Returns setting world.rested member world.rested value result after := by
  have bound : world.rested.unvisited world.rested < world.rested.fuel setting :=
    Nat.lt_of_le_of_lt (World.unvisited_le _ _) (Nat.lt_of_succ_lt (World.size_lt_fuel setting _))
  exact serves_answer rebuildable (world.rested.fuel setting) world.rested value (.start rfl) bound part

end Reconciler
