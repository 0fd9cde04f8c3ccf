import Reconciler.Proofs.Answers
import Reconciler.Traversal.Disconnect

/-! # What an action ensures

An action answers or ends without an answer, and what it did before it ended stays done. `Ensures` speaks of
both outcomes: of the answer and the world after it, and of the ending and the world that it leaves. An
invariant of a run that may fail at any depth is carried by both of them. The rules are those of
`Answers`, except that what reaches the store or a property may fail.
-/

namespace Reconciler.Action

variable {α β : Type}

/-- Answers can be compared with answers, and endings with endings. -/
instance [DecidableEq α] : DecidableEq (Except Ending α)
  | .ok left, .ok right => decidable_of_iff (left = right) ⟨congrArg Except.ok, Except.ok.inj⟩
  | .error left, .error right => decidable_of_iff (left = right) ⟨congrArg Except.error, Except.error.inj⟩
  | .ok _, .error _ => isFalse nofun
  | .error _, .ok _ => isFalse nofun

/-- What holds of the world that an action leaves: `post` if it answers, and else `failed`. -/
structure Ensures (action : Action α) (world : World) (failed : Ending → World → Prop)
    (post : α → World → Prop) : Prop where
  ended : ∀ ending after, action world = (.error ending, after) → failed ending after
  answered : ∀ answer after, action world = (.ok answer, after) → post answer after

variable {world : World} {failed : Ending → World → Prop} {post : α → World → Prop}

/-- The only outcome is an answer. -/
theorem ensures_of_ok {action : Action α} {answer : α} {after : World}
    (run : action world = (.ok answer, after)) (holds : post answer after) :
    action.Ensures world failed post := by
  constructor
  · intro ending left other
    cases run.symm.trans other
  · intro result left same
    cases run.symm.trans same
    exact holds

/-- The only outcome is an ending. -/
theorem ensures_of_error {action : Action α} {ending : Ending} {after : World}
    (run : action world = (.error ending, after)) (holds : failed ending after) :
    action.Ensures world failed post := by
  constructor
  · intro other left same
    cases run.symm.trans same
    exact holds
  · intro result left other
    cases run.symm.trans other

theorem ensures_pure {answer : α} (holds : post answer world) :
    (pure answer : Action α).Ensures world failed post :=
  ensures_of_ok rfl holds

theorem ensures_stop {ending : Ending} (holds : failed ending world) :
    (stop ending : Action α).Ensures world failed post :=
  ensures_of_error rfl holds

theorem Answers.ensures {action : Action α} (answers : action.Answers world post) :
    action.Ensures world failed post := by
  obtain ⟨answer, after, run, holds⟩ := answers
  exact ensures_of_ok run holds

theorem Ensures.weaken {action : Action α} (ensures : action.Ensures world failed post)
    {weaker : α → World → Prop} (weaken : ∀ answer after, post answer after → weaker answer after) :
    action.Ensures world failed weaker where
  ended := ensures.ended
  answered answer after run := weaken answer after (ensures.answered answer after run)

/-- An action whose outcome is known, and what follows it. -/
theorem ensures_bind_of_eq {first : Action β} {next : β → Action α} {answer : β} {middle : World}
    (run : first world = (.ok answer, middle)) (rest : (next answer).Ensures middle failed post) :
    (first >>= next).Ensures world failed post := by
  constructor
  · intro ending after whole
    rw [bind_of_ok run] at whole
    exact rest.ended ending after whole
  · intro result after whole
    rw [bind_of_ok run] at whole
    exact rest.answered result after whole

theorem Ensures.bind {first : Action α} {next : α → Action β} {goal : β → World → Prop}
    (ensures : first.Ensures world failed post)
    (rest : ∀ answer after, post answer after → (next answer).Ensures after failed goal) :
    (first >>= next).Ensures world failed goal := by
  rcases run : first world with ⟨ending | answer, middle⟩
  · exact ensures_of_error (bind_of_error run) (ensures.ended ending middle run)
  · exact ensures_bind_of_eq run (rest answer middle (ensures.answered answer middle run))

theorem ensures_look_bind {view : World → β} {next : β → Action α}
    (rest : (next (view world)).Ensures world failed post) :
    (look view >>= next).Ensures world failed post :=
  ensures_bind_of_eq rfl rest

/-- A loop keeps an invariant of the items that are done. -/
theorem ensures_forM {items : List α} {body : α → Action PUnit} (invariant : List α → World → Prop)
    (start : invariant [] world)
    (step : ∀ done item rest, items = done ++ item :: rest → ∀ middle, invariant done middle →
      (body item).Ensures middle failed (fun _ after => invariant (done ++ [item]) after)) :
    (items.forM body).Ensures world failed (fun _ after => invariant items after) := by
  have tail : ∀ rest done middle, items = done ++ rest → invariant done middle →
      (rest.forM body).Ensures middle failed (fun _ after => invariant items after) := by
    intro rest
    induction rest with
    | nil =>
      intro done middle split holds
      rw [List.append_nil] at split
      exact ensures_pure (split ▸ holds)
    | cons item rest ih =>
      intro done middle split holds
      apply (step done item rest split middle holds).bind
      intro _ after kept
      exact ih (done ++ [item]) after (by rw [split, List.append_assoc, List.singleton_append]) kept
  exact tail items [] world rfl start

/-- The store answers a query or fails, and nothing changes but the calls that are still to fail. -/
theorem ensures_askStore {query : EntityStore → Heap → Outages → Except StoreError α × Outages}
    (spends : world.outages.Spends (query world.store world.heap world.outages).2)
    (fails : ∀ error outages, world.outages.Spends outages →
      query world.store world.heap world.outages = (.error error, outages) →
        failed (.failed (.store error)) { world with outages }) :
    (askStore query).Ensures world failed (fun answer after => ∃ outages, world.outages.Spends outages ∧
      after = { world with outages } ∧ query world.store world.heap world.outages = (.ok answer, outages)) := by
  rcases asked : query world.store world.heap world.outages with ⟨error | answer, outages⟩
  · rw [asked] at spends
    exact ensures_of_error (by rw [askStore, asked]) (fails error outages spends asked)
  · rw [asked] at spends
    exact ensures_of_ok (by rw [askStore, asked]) ⟨outages, spends, rfl, rfl⟩

/-- A call that answers has the outcome of its operation. -/
theorem ensures_callStore {operation : StoreOperation} {outcome : EntityStore → Heap → Except StoreError α}
    (fails : ∀ error outages, world.outages.Spends outages →
      outcome world.store world.heap = .error error ∨ some error ∈ world.outages operation →
        failed (.failed (.store error)) { world with outages }) :
    (callStore operation outcome).Ensures world failed (fun answer after => ∃ outages, world.outages.Spends outages ∧
      after = { world with outages } ∧ outcome world.store world.heap = .ok answer) := by
  have spends := EntityStore.spends_call operation (outcome world.store world.heap) world.outages
  apply (ensures_askStore spends ?_).weaken
  · rintro answer after ⟨outages, spent, same, called⟩
    exact ⟨outages, spent, same, EntityStore.eq_ok_of_call called⟩
  · intro error outages spent failing
    exact fails error outages spent (EntityStore.error_of_call failing)

/-- The store changes as it was asked to, or fails and stays what it is. -/
theorem ensures_changeStore {post : Unit → World → Prop} {operation : StoreOperation}
    {update : EntityStore → Heap → Except StoreError EntityStore}
    (fails : ∀ error outages, world.outages.Spends outages → failed (.failed (.store error)) { world with outages })
    (holds : ∀ store outages, world.outages.Spends outages → update world.store world.heap = .ok store →
      post () { world with store, outages }) :
    (changeStore operation update).Ensures world failed post := by
  apply (ensures_callStore fun error outages spent _ => fails error outages spent).bind
  rintro store _ ⟨outages, spent, rfl, updated⟩
  exact ensures_of_ok rfl (holds store outages spent updated)

/-- A flush matters neither to the objects nor to the visits. -/
theorem ensures_flushFirst {setting : Setting}
    (fails : ∀ error outages, world.outages.Spends outages → failed (.failed (.store error)) { world with outages }) :
    (flushFirst setting).Ensures world failed (fun _ after => ∃ store outages,
      world.store.Kept store ∧ world.outages.Spends outages ∧ after = { world with store, outages }) := by
  unfold flushFirst
  split
  · exact ensures_changeStore fails fun store outages spent flushed => ⟨store, outages, .flush flushed, spent, rfl⟩
  · exact ensures_pure ⟨world.store, world.outages, .refl _, .refl _, rfl⟩

/-- A property is read without a change. -/
theorem ensures_readProperty {metadata : Metadata} {id : ObjectId} {property : String}
    (fails : ∀ error, failed (.failed (.access error)) world) :
    (readProperty metadata id property).Ensures world failed
      (fun value after => world = after ∧ Property.read world.heap metadata id property = .ok value) := by
  rcases found : Property.read world.heap metadata id property with error | value
  · exact ensures_of_error (by rw [readProperty, found]) (fails error)
  · exact ensures_of_ok (by rw [readProperty, found]) ⟨rfl, rfl⟩

/-- A property is written by one edit of the bean, after which the value may still be refused, or not at all. -/
theorem ensures_writeProperty {post : Unit → World → Prop} {metadata : Metadata} {id : ObjectId}
    {property : String} {value : Value} (fails : ∀ error, failed (.failed (.access error)) world)
    (edits : ∀ change, Property.Edits world.heap metadata id property value change →
      (∀ error, failed (.failed (.access error)) (edit id change world).2) ∧
        (Property.write world.heap metadata id property value = .ok change → post () (edit id change world).2)) :
    (writeProperty metadata id property value).Ensures world failed post := by
  apply ensures_look_bind
  rcases made : Property.attempt world.heap metadata id property value with error | ⟨change, _ | error⟩
  · exact ensures_stop (fails error)
  · have answered := (edits change ⟨none, made⟩).2 (Property.write_eq_ok_iff.2 made)
    exact ensures_bind_of_eq rfl (ensures_pure answered)
  · have refused := (edits change ⟨some error, made⟩).1 error
    exact ensures_bind_of_eq rfl (ensures_stop refused)

end Reconciler.Action
