import Reconciler.Proofs.Account
import Reconciler.Proofs.Loan.Containers

/-! # A value that is brought onto itself

Whoever brings a value onto itself asks for nothing. Every element of a container finds itself among the candidates,
every entry its own key and value, so the container is refilled with what it holds and nobody is given up. The store
is not even asked, so it does not matter what it would answer. Only a lazy handle does not stand for itself.
-/

namespace Reconciler

open Reconciler.Action

/-- A value comprises the object that it is, and what the containers among the comprised objects hold. -/
inductive Heap.Comprises (heap : Heap) (value : Value) : ObjectId → Prop
  | root {id : ObjectId} (same : value = .object id) : Comprises heap value id
  | member {id part : ObjectId} (inside : Comprises heap value id)
      (held : .object part ∈ (heap.node id).members) : Comprises heap value part

/-- A set of objects that stand for themselves: none of them is a lazy handle, none repeats what it holds, and
they hold each other only. -/
structure Reflexive (start : World) (inside : ObjectId → Prop) : Prop where
  defaults : ∃ schema, start.dispatch.registry = .withDefaults schema
  resolved : ∀ id, inside id → start.handler? id ≠ some .null
  distinct : ∀ id, inside id → (start.heap.node id).Distinct
  closed : ∀ id, inside id → ∀ part, .object part ∈ (start.heap.node id).members → inside part

/-- A run that has not changed anything. What it has visited stands for itself, and nothing was given up. -/
structure Still (start now : World) : Prop where
  heap : now.heap = start.heap
  store : now.store = start.store
  registry : now.dispatch.registry = start.dispatch.registry
  visits : ∀ source target, now.visits.get? source = some target → target = .object source
  kept : ∀ container entity, .discarded container entity ∉ now.journal

/-- A part of a run that changes nothing. -/
structure Rests (start now after : World) : Prop where
  still : Still start after
  visits : ∀ source target, now.visits.get? source = some target → after.visits.get? source = some target

/-- Requests to bring a value onto itself are answered with the value, as long as there is fuel for the unvisited
objects. -/
def Echoes (start : World) (inside : ObjectId → Prop) (fuel : Nat) (ask : Request → Action Value) : Prop :=
  ∀ now value, Still start now → start.unvisited now < fuel → (∀ id, value = .object id → inside id) →
    (ask (.reconcile value value)).Answers now (fun result after => result = value ∧ Rests start now after)

namespace Node

private theorem edited_setItems_self {node : Node} (distinct : node.Distinct) :
    node.edited (.setItems node.items) = node := by
  rcases node with ⟨type, origin, content⟩
  cases content with
  | collection kind elements =>
    refine Loan.edited_eq (by simp) ?_
    have unique : kind = .set → elements.Nodup := by
      rintro rfl
      exact distinct
    exact congrArg (some <| Content.collection kind ·) (Content.collected_eq unique)
  | _ => rfl

private theorem edited_setBindings_self {node : Node} (distinct : node.Distinct) :
    node.edited (.setBindings node.bindings) = node := by
  rcases node with ⟨type, origin, content⟩
  cases content with
  | map bindings =>
    exact Loan.edited_eq (by simp) (congrArg (some <| Content.map ·) (OrderedMap.ofList_of_nodup distinct))
  | _ => rfl

private theorem edited_setSlot_self {node : Node} {index : Nat} {item : Value} (here : node.items[index]? = some item) :
    node.edited (.setSlot index item) = node := by
  rcases node with ⟨type, origin, content⟩
  cases content with
  | array component slots =>
    have slot : slots[index]? = some item := here
    obtain ⟨inside, same⟩ := List.getElem?_eq_some_iff.1 slot
    refine Loan.edited_eq (by simp) ((if_pos inside).trans ?_)
    rw [← same, List.set_getElem_self]
  | _ => rfl

/-- The keys of a map are different. -/
theorem nodup_keys_of_distinct {node : Node} (distinct : node.Distinct) : (node.bindings.map Prod.fst).Nodup := by
  rcases node with ⟨type, origin, content⟩
  cases content with
  | map bindings => exact distinct
  | _ => exact List.nodup_nil

end Node

/-- An edit that leaves its target as it is changes nothing. -/
theorem Heap.edit_of_same {heap : Heap} {id : ObjectId} {change : Edit}
    (same : (heap.node id).edited change = heap.node id) : heap.edit id change = heap := by
  rcases heap with ⟨nodes⟩
  refine congrArg Heap.mk (Array.ext (Array.size_modify ..) fun index _ bound => ?_)
  rw [Array.getElem_modify]
  split
  · next here =>
    subst here
    simpa [Heap.node, node?, bound] using same
  · rfl

/-- A value is brought onto itself, unless there is nothing to be brought. -/
theorem Request.matched_self (value : Value) : Request.matched value
    (Loan.counterpart? value) = .reconcile value value := by
  unfold Loan.counterpart? reconcile
  cases value.isNull <;> rfl

/-- The key and the value of an entry find themselves, the value because it is stored under the key. -/
theorem Counterpart.takeEntry_self {schema : Schema} {store : EntityStore} {heap : Heap}
    {entries : List (Value × Value)} {key value : Value}
    (found : entries.find? (fun entry => decide (entry.1 = key)) = some (key, value))
    {keyNulls valueNulls : List Value} (keyEmpty : ∀ other ∈ keyNulls, other = .null)
    (valueEmpty : ∀ other ∈ valueNulls, other = .null) (keys values : List Value) (outages : Outages) :
    takeEntry schema store heap entries key value ⟨keyNulls ++ key :: keys, valueNulls ++ value :: values⟩ outages =
      (.ok ((Loan.counterpart? key, Loan.counterpart? value),
        ⟨Loan.spared keyNulls key ++ keys, Loan.spared valueNulls value ++ values⟩), outages) := by
  have keyTaken := Loan.take_self schema store heap key keyEmpty keys outages
  have valueTaken := Loan.take_self schema store heap value valueEmpty values outages
  have listed : value ∈ valueNulls ++ value :: values := by simp
  have preferred := Loan.preferred?_eq found listed
  by_cases alone : key.isNull = true ∨ value.isNull = true
  · have none : (if key.isNull then none else Loan.counterpart? value) = none := by
      unfold Loan.counterpart?
      rcases alone with null | null
      · rw [null]
        rfl
      · rw [null]
        exact ite_self _
    rw [none] at preferred
    rw [takeEntry_of_taken keyTaken preferred valueTaken]
    cases Loan.counterpart? value <;> rfl
  · -- The value is put in front of the candidates, and found there.
    rw [not_or, Bool.not_eq_true, Bool.not_eq_true] at alone
    obtain ⟨named, known⟩ := alone
    have absent : value ∉ valueNulls := by
      intro null
      rw [valueEmpty value null] at known
      cases known
    have counterpart : Loan.counterpart? value = some value := by
      rw [Loan.counterpart?, known]
      rfl
    have kept : ∀ nulls, Loan.spared nulls value = nulls := by
      intro nulls
      rw [Loan.spared, known]
      rfl
    have erased : (valueNulls ++ value :: values).erase value = valueNulls ++ values := by
      simp [List.erase_append_right _ absent, List.erase_cons_head]
    have first := Loan.take_self schema store heap value
      (List.forall_mem_nil _) (valueNulls ++ values) outages
    rw [List.nil_append, counterpart, kept, List.nil_append, ← erased] at first
    rw [named, if_neg Bool.false_ne_true, counterpart] at preferred
    rw [takeEntry_of_taken keyTaken preferred first, counterpart, kept, erased]
    rfl

section Still

variable {start now middle after : World}

private theorem Rests.trans (first : Rests start now middle) (second : Rests start middle after) :
    Rests start now after :=
  ⟨second.still, fun source target known => second.visits source target (first.visits source target known)⟩

private theorem Rests.unvisited_le (rests : Rests start now after) : start.unvisited after ≤ start.unvisited now :=
  World.unvisited_mono rests.visits

namespace Still

private theorem refl (still : Still start now) : Rests start now now :=
  ⟨still, fun _ _ known => known⟩

private theorem note (still : Still start now) (event : Event)
    (other : ∀ container entity, event ≠ .discarded container entity) :
    Rests start now (Action.note event now).2 where
  still :=
    { still with
      kept := fun container entity member =>
        (List.mem_cons.1 member).elim (fun same => other container entity same.symm) (still.kept container entity) }
  visits _ _ known := known

private theorem dispatch (still : Still start now) {dispatch : Handler.Dispatch}
    (same : dispatch.registry = now.dispatch.registry) : Rests start now { now with dispatch } where
  still := { still with registry := same.trans still.registry }
  visits _ _ known := known

/-- An object is recorded as its own counterpart. -/
theorem record (still : Still start now) {source : ObjectId} (unvisited : now.visits.get? source = none) :
    Rests start now (Action.record source (.object source) now).2 where
  still :=
    { still with
      visits := by
        intro other target known
        change (now.visits.record source (.object source)).get? other = some target at known
        rw [Visits.get?_record] at known
        split at known
        · next same =>
          cases known
          rw [same]
        · exact still.visits other target known }
  visits := (World.Later.record now unvisited _).visits

/-- The run sees every object as it was. -/
theorem look_node (still : Still start now) {α : Type} (id : ObjectId) (view : Node → α) :
    look (fun world => view (world.heap.node id)) now = (.ok (view (start.heap.node id)), now) := by
  rw [← still.heap]
  rfl

private theorem answers_edit (still : Still start now) {id : ObjectId} {change : Edit}
    (same : (start.heap.node id).edited change = start.heap.node id) :
    (edit id change).Answers now (fun _ after => Rests start now after) := by
  refine ⟨(), _, rfl, ?_, fun _ _ known => known⟩
  have heap : now.heap.edit id change = start.heap := by
    rw [still.heap]
    exact Heap.edit_of_same same
  have noted := still.note (.edited id change) nofun
  exact { noted.still with heap }

end Still

end Still

section Containers

variable {setting : Setting} {start now : World} {inside : ObjectId → Prop} {fuel : Nat}
  {ask : Request → Action Value} (reflexive : Reflexive start inside) (asks : Echoes start inside fuel ask)

private theorem answers_keepUnloaded_self (id : ObjectId) :
    (keepUnloaded id id).Answers now (fun _ after => now = after) := by
  apply answers_look_bind
  split
  · apply answers_look_bind
    rw [if_neg fun other => other.1 rfl]
    exact answers_pure rfl
  · exact answers_pure rfl

/-- A container is refilled with what it holds, and nothing but nulls is given up. -/
private theorem Still.answers_refill (still : Still start now) {id : ObjectId} {merged leftovers : List Value}
    (empty : ∀ value ∈ leftovers, value = .null) {change : Edit}
    (same : (start.heap.node id).edited change = start.heap.node id) :
    (do discardLeftovers setting id merged leftovers
        edit id change
        return Value.object id : Action Value).Answers now
      (fun result after => result = .object id ∧ Rests start now after) := by
  apply (Loan.answers_discardLeftovers empty).bind
  rintro _ _ rfl
  apply (still.answers_edit same).bind
  intro _ after rests
  exact answers_pure ⟨rfl, rests⟩

include asks

/-- An element is matched with itself and brought onto itself. -/
private theorem Echoes.answers_mergeItem {element : Value} {nulls : List Value} (empty : ∀ value ∈ nulls, value = .null)
    (within : ∀ id, element = .object id → inside id) (still : Still start now)
    (bound : start.unvisited now < fuel) (elements : List Value) :
    (mergeItem setting ask element (nulls ++ element :: elements)).Answers now (fun outcome after =>
      outcome = (element, Loan.spared nulls element ++ elements) ∧ Rests start now after) := by
  refine answers_bind_of_eq (askStore_of_ok (Loan.take_self _ _ _ element empty elements _)) ?_
  simp only [Request.matched_self]
  apply (asks now element still bound within).bind
  rintro _ after ⟨rfl, rests⟩
  exact answers_pure ⟨rfl, rests⟩

/-- The elements are brought onto themselves in order, and nothing but nulls is left over. -/
private theorem Echoes.answers_mergeItems {elements nulls : List Value} (empty : ∀ value ∈ nulls, value = .null)
    (within : ∀ id, .object id ∈ elements → inside id) (still : Still start now)
    (bound : elements ≠ [] → start.unvisited now < fuel) :
    (mergeItems setting ask elements (nulls ++ elements)).Answers now (fun outcome after =>
      outcome.1 = elements ∧ (∀ value ∈ outcome.2, value = .null) ∧ Rests start now after) := by
  induction elements generalizing now nulls with
  | nil =>
    rw [List.append_nil]
    exact answers_pure ⟨rfl, empty, still.refl⟩
  | cons element elements ih =>
    have enough := bound (List.cons_ne_nil _ _)
    have here : ∀ id, element = .object id → inside id := fun id same => within id (same ▸ List.mem_cons_self)
    apply (asks.answers_mergeItem empty here still enough elements).bind
    rintro _ middle ⟨rfl, first⟩
    apply (ih (Loan.spared_null empty element) (fun id listed => within id (List.mem_cons_of_mem _ listed))
      first.still fun _ => Nat.lt_of_le_of_lt first.unvisited_le enough).bind
    rintro ⟨merged, leftovers⟩ after ⟨rfl, left, rest⟩
    exact answers_pure ⟨rfl, left, first.trans rest⟩

/-- An entry is matched with itself, and its key and its value are brought onto themselves. -/
private theorem Echoes.answers_mergeBinding {all : List (Value × Value)} {key value : Value}
    (found : all.find? (fun other => decide (other.1 = key)) = some (key, value))
    {keyNulls valueNulls : List Value} (keyEmpty : ∀ value ∈ keyNulls, value = .null)
    (valueEmpty : ∀ value ∈ valueNulls, value = .null)
    (within : ∀ id, .object id ∈ [key, value] → inside id) (still : Still start now)
    (bound : start.unvisited now < fuel) (keys values : List Value) :
    (mergeBinding setting ask all key value ⟨keyNulls ++ key :: keys, valueNulls ++ value :: values⟩).Answers now
      (fun outcome after => outcome = ((key, value),
        ⟨Loan.spared keyNulls key ++ keys, Loan.spared valueNulls value ++ values⟩) ∧ Rests start now after) := by
  refine answers_bind_of_eq
    (askStore_of_ok (Counterpart.takeEntry_self found keyEmpty valueEmpty keys values _)) ?_
  simp only [Request.matched_self]
  apply (asks now key still bound fun id same => within id (by simp [same])).bind
  rintro _ middle ⟨rfl, first⟩
  apply (asks middle value first.still (Nat.lt_of_le_of_lt first.unvisited_le bound)
    fun id same => within id (by simp [same])).bind
  rintro _ after ⟨rfl, second⟩
  exact answers_pure ⟨rfl, first.trans second⟩

/-- The entries are brought onto themselves in order, and nothing but nulls is left over. -/
private theorem Echoes.answers_mergeBindings {all entries : List (Value × Value)}
    (found : ∀ entry ∈ entries, all.find? (fun other => decide (other.1 = entry.1)) = some entry)
    {keyNulls valueNulls : List Value} (keyEmpty : ∀ value ∈ keyNulls, value = .null)
    (valueEmpty : ∀ value ∈ valueNulls, value = .null)
    (within : ∀ entry ∈ entries, ∀ id, .object id ∈ [entry.1, entry.2] → inside id) (still : Still start now)
    (bound : entries ≠ [] → start.unvisited now < fuel) :
    (mergeBindings setting ask all entries
      ⟨keyNulls ++ entries.map Prod.fst, valueNulls ++ entries.map Prod.snd⟩).Answers now (fun outcome after =>
      outcome.1 = entries ∧ (∀ value ∈ outcome.2.keys ++ outcome.2.values, value = .null) ∧
        Rests start now after) := by
  induction entries generalizing now keyNulls valueNulls with
  | nil =>
    refine answers_pure ⟨rfl, ?_, still.refl⟩
    simpa [or_imp, forall_and] using ⟨keyEmpty, valueEmpty⟩
  | cons entry entries ih =>
    obtain ⟨key, value⟩ := entry
    have enough := bound (List.cons_ne_nil _ _)
    apply (asks.answers_mergeBinding (found _ List.mem_cons_self) keyEmpty valueEmpty
      (within _ List.mem_cons_self) still enough _ _).bind
    rintro _ middle ⟨rfl, first⟩
    apply (ih (fun entry listed => found entry (List.mem_cons_of_mem _ listed)) (Loan.spared_null keyEmpty key)
      (Loan.spared_null valueEmpty value) (fun entry listed => within entry (List.mem_cons_of_mem _ listed))
      first.still fun _ => Nat.lt_of_le_of_lt first.unvisited_le enough).bind
    rintro ⟨merged, leftovers⟩ after ⟨rfl, left, rest⟩
    exact answers_pure ⟨rfl, left, first.trans rest⟩

variable {id : ObjectId}

include reflexive asks

private theorem Echoes.answers_mergeCollection (member : inside id) (still : Still start now)
    (bound : (start.heap.node id).members ≠ [] → start.unvisited now < fuel) :
    (mergeCollection setting ask id id).Answers now
      (fun result after => result = .object id ∧ Rests start now after) := by
  apply (answers_keepUnloaded_self id).bind
  rintro kept _ rfl
  split
  · exact answers_pure ⟨rfl, still.refl⟩
  have noted := still.note (.walked id) nofun
  have items := noted.still.look_node id Node.items
  refine answers_bind_of_eq rfl (answers_bind_of_eq items (answers_bind_of_eq items ?_))
  apply (asks.answers_mergeItems (List.forall_mem_nil _)
    (fun part listed => reflexive.closed id member part (Node.mem_members_of_items listed)) noted.still
    fun some => bound (List.append_ne_nil_of_left_ne_nil some _)).bind
  rintro ⟨merged, leftovers⟩ middle ⟨same, empty, merging⟩
  have refilled := Node.edited_setItems_self (reflexive.distinct id member)
  rw [← same] at refilled
  apply (merging.still.answers_refill empty refilled).weaken
  rintro _ after ⟨rfl, rests⟩
  exact ⟨rfl, noted.trans (merging.trans rests)⟩

private theorem Echoes.answers_mergeMap (member : inside id) (still : Still start now)
    (bound : (start.heap.node id).members ≠ [] → start.unvisited now < fuel) :
    (mergeMap setting ask id id).Answers now
      (fun result after => result = .object id ∧ Rests start now after) := by
  apply (answers_keepUnloaded_self id).bind
  rintro kept _ rfl
  split
  · exact answers_pure ⟨rfl, still.refl⟩
  have noted := still.note (.walked id) nofun
  have distinct := reflexive.distinct id member
  have within : ∀ entry ∈ (start.heap.node id).bindings, ∀ part, .object part ∈ [entry.1, entry.2] → inside part := by
    intro entry listed part either
    have held := Node.mem_members_of_bindings listed
    rcases List.mem_pair.1 either with same | same
    · exact reflexive.closed id member part (same ▸ held.1)
    · exact reflexive.closed id member part (same ▸ held.2)
  have enough : (start.heap.node id).bindings ≠ [] → start.unvisited now < fuel := by
    intro some
    obtain ⟨entry, listed⟩ := List.exists_mem_of_ne_nil _ some
    exact bound (List.ne_nil_of_mem (Node.mem_members_of_bindings listed).1)
  have bindings := noted.still.look_node id Node.bindings
  refine answers_bind_of_eq rfl (answers_bind_of_eq bindings (answers_bind_of_eq bindings ?_))
  apply (asks.answers_mergeBindings (OrderedMap.find?_of_mem (Node.nodup_keys_of_distinct distinct))
    (List.forall_mem_nil _) (List.forall_mem_nil _) within noted.still enough).bind
  rintro ⟨merged, leftovers⟩ middle ⟨same, empty, merging⟩
  have refilled := Node.edited_setBindings_self distinct
  rw [← same] at refilled
  apply (merging.still.answers_refill empty refilled).weaken
  rintro _ after ⟨rfl, rests⟩
  exact ⟨rfl, noted.trans (merging.trans rests)⟩

private theorem Echoes.answers_mergeArray (member : inside id) (still : Still start now)
    (bound : (start.heap.node id).members ≠ [] → start.unvisited now < fuel) :
    (mergeArray ask id id).Answers now
      (fun result after => result = .object id ∧ Rests start now after) := by
  have noted := still.note (.walked id) nofun
  refine answers_bind_of_eq rfl (answers_bind_of_eq (noted.still.look_node id fun node => node)
    (answers_bind_of_eq (noted.still.look_node id Node.items) ?_))
  refine Answers.bind (answers_forM (fun _ after => Rests start now after) noted ?_) ?_
  · rintro done ⟨⟨item, counterpart⟩, index⟩ rest split middle rests
    obtain ⟨rfl, pair, -⟩ := zipIdx_eq_append split
    obtain ⟨here, there⟩ := List.getElem?_zip_eq_some.1 pair
    obtain rfl : item = counterpart := Option.some.inj (here.symm.trans there)
    have listed := Node.mem_members_of_items (List.mem_of_getElem? here)
    have merges : (mergeSlot ask (start.heap.node id) item item).Answers middle
        (fun merged after => merged = item ∧ Rests start middle after) := by
      unfold mergeSlot
      split
      · exact answers_pure ⟨rfl, rests.still.refl⟩
      · refine asks middle item rests.still ?_ fun part same => reflexive.closed id member part (same ▸ listed)
        exact Nat.lt_of_le_of_lt rests.unvisited_le (bound (List.ne_nil_of_mem listed))
    apply merges.bind
    rintro _ later ⟨rfl, merging⟩
    apply (merging.still.answers_edit (Node.edited_setSlot_self here)).weaken
    intro _ after edited
    exact rests.trans (merging.trans edited)
  · intro _ after rests
    exact answers_pure ⟨rfl, rests⟩

/-- Whatever handler an object has, it comes back as it is, unless it is taken for a lazy handle. -/
private theorem Echoes.answers_mergeValue (member : inside id) (still : Still start now)
    (bound : (start.heap.node id).members ≠ [] → start.unvisited now < fuel) {handler : Handler}
    (other : handler ≠ .null) :
    (handler.mergeValue setting ask (.object id) (.object id)).Answers now
      (fun result after => result = .object id ∧ Rests start now after) := by
  cases handler with
  | collection => exact asks.answers_mergeCollection reflexive member still bound
  | map => exact asks.answers_mergeMap reflexive member still bound
  | array => exact asks.answers_mergeArray reflexive member still bound
  | null => exact absurd rfl other
  | basic | frozen => exact answers_pure ⟨rfl, still.refl⟩

end Containers

section Running

variable {setting : Setting} {start now : World} {inside : ObjectId → Prop} {fuel : Nat}
  {ask : Request → Action Value}

/-- Nobody merges an object into itself. -/
private theorem Still.answers_mergeObject (still : Still start now) (id : ObjectId) :
    (mergeObject setting ask id id).Answers now (fun result after => result = .object id ∧ Rests start now after) := by
  refine answers_look_bind (answers_look_bind ?_)
  split
  · exact answers_pure ⟨rfl, still.refl⟩
  · rw [if_pos rfl]
    exact answers_pure ⟨rfl, still.refl⟩

variable (reflexive : Reflexive start inside)

include reflexive

/-- With the default handlers a scalar is what it is reconciled to. -/
private theorem Still.answers_scalar (still : Still start now) {value : Value} (plain : value.object? = none) :
    (applyValueTo setting ask value value).Answers now
    (fun result after => result = value ∧ Rests start now after) := by
  obtain ⟨schema, defaults⟩ := reflexive.defaults
  unfold applyValueTo
  split
  · exact answers_pure ⟨rfl, still.refl⟩
  have basic : ∀ handler, now.dispatch.registry.ofValue now.heap value = some handler → handler = .basic := by
    intro handler found
    rw [still.registry, defaults] at found
    exact Handler.Registry.ofValue_scalar schema _ plain found
  cases value with
  | object id => cases plain
  | _ =>
    refine answers_look_bind (answers_bind_of_eq rfl ?_)
    apply (answers_handlerOf _).bind
    rintro handler? _ ⟨looked, dispatch, same, rfl⟩
    cases handler? with
    | none => exact answers_pure ⟨rfl, still.dispatch same⟩
    | some handler =>
      obtain rfl := basic handler looked.symm
      exact answers_pure ⟨rfl, still.dispatch same⟩

/-- An object that was not visited yet is brought onto itself by its handler. -/
private theorem Echoes.answers_object (asks : Echoes start inside fuel ask) {id : ObjectId} (member : inside id)
    (still : Still start now) (bound : start.unvisited now ≤ fuel) :
    (applyValueTo setting ask (.object id) (.object id)).Answers now
      (fun result after => result = .object id ∧ Rests start now after) := by
  apply answers_look_bind
  rcases visited : now.visits.get? id with _ | counterpart
  · have recorded := still.record visited
    -- An object that holds anything was there before, so its first visit counts.
    have enough : (start.heap.node id).members ≠ [] →
        start.unvisited (record id (.object id) now).2 < fuel := by
      intro some
      obtain ⟨part, listed⟩ := List.exists_mem_of_ne_nil _ some
      have held : start.heap.Holds id := by
        by_contra absent
        have parts := Node.mem_parts_of_members listed
        rw [Heap.parts_of_not_holds absent] at parts
        cases parts
      refine Nat.lt_of_lt_of_le (World.unvisited_lt recorded.visits held visited ?_) bound
      rw [World.Later.visits_record]
      exact Option.some_ne_none _
    simp only [Value.object?, Option.bind_some, visited]
    refine answers_bind_of_eq rfl ?_
    apply (answers_handlerOf _).bind
    rintro handler? _ ⟨looked, dispatch, same, rfl⟩
    have dispatched := recorded.still.dispatch same
    have resting : ∀ (result : Value) (after : World),
        result = .object id ∧ Rests start { (record id (.object id) now).2 with dispatch } after →
          result = .object id ∧ Rests start now after :=
      fun _ after answered => ⟨answered.1, recorded.trans (dispatched.trans answered.2)⟩
    cases handler? with
    | none => exact (dispatched.still.answers_mergeObject id).weaken resting
    | some handler =>
      have other : handler ≠ .null := by
        rintro rfl
        apply reflexive.resolved id member
        rw [World.handler?, ← still.registry, ← still.heap]
        exact looked.symm
      exact (asks.answers_mergeValue reflexive member dispatched.still enough other).weaken resting
  · simp only [Value.object?, Option.bind_some, visited]
    obtain rfl := still.visits id counterpart visited
    exact answers_pure ⟨rfl, still.refl⟩

private theorem Echoes.answers_applyValueTo (asks : Echoes start inside fuel ask) {value : Value}
    (within : ∀ id, value = .object id → inside id) (still : Still start now) (bound : start.unvisited now ≤ fuel) :
    (applyValueTo setting ask value value).Answers now
      (fun result after => result = value ∧ Rests start now after) := by
  cases value with
  | object id => exact asks.answers_object reflexive (within id rfl) still bound
  | _ => exact still.answers_scalar reflexive rfl

/-- A value is brought onto itself, whatever it leads to. -/
private theorem answers_answer_self (fuel : Nat) (value : Value) (asks : Echoes start inside fuel (answer setting fuel))
    (within : ∀ id, value = .object id → inside id) (still : Still start now) (bound : start.unvisited now ≤ fuel) :
    (answer setting (fuel + 1) (.applyTo value value)).Answers now
      (fun result after => result = value ∧ Rests start now after) := by
  have asked := still.note (.asked (.applyTo value value)) nofun
  refine answers_bind_of_eq rfl ?_
  apply (asks.answers_applyValueTo reflexive within asked.still bound).bind
  rintro _ middle ⟨rfl, rests⟩
  refine answers_bind_of_eq rfl (answers_pure ⟨rfl, ?_⟩)
  exact asked.trans (rests.trans (rests.still.note _ nofun))

private theorem echoes_answer (fuel : Nat) : Echoes start inside fuel (answer setting fuel) := by
  induction fuel with
  | zero => exact fun now value still bound => absurd bound (Nat.not_lt_zero _)
  | succ fuel ih =>
    intro now value still bound within
    rw [Request.reconcile]
    split
    · next null =>
      obtain rfl := (Value.isNull_iff value).1 null
      have asked := still.note (.asked (.apply .null)) (by simp)
      refine answers_bind_of_eq rfl (answers_bind_of_eq rfl (answers_bind_of_eq rfl (answers_pure ⟨rfl, ?_⟩)))
      exact asked.trans (asked.still.note _ (by simp))
    · exact answers_answer_self reflexive fuel value ih within still (Nat.le_of_lt_succ bound)

end Running

/-- With the default handlers, only an object whose type says so is taken for a lazy handle. -/
theorem Handler.Registry.ofValue_ne_null (schema : Schema) {heap : Heap} {id : ObjectId}
    (wellFormed : (heap.node id).WellFormed)
    (resolved : (withDefaults schema).resolve (heap.node id).type ≠ some .null) :
    (withDefaults schema).ofValue heap (.object id) ≠ some .null := by
  rcases own : (withDefaults schema).resolve (heap.node id).type with _ | handler
  · rw [ofValue_object schema wellFormed fun handler found => by cases own.symm.trans found]
    cases (heap.node id).content <;> simp [Content.handler?]
  · rw [ofValue, Value.typeName?, Option.bind_some, own, Option.some_or, ← own]
    exact resolved

/-- A value that comprises no lazy handle is brought onto itself without any change, whatever the configuration
says and whatever the store would answer. -/
theorem Setting.applyTo_self {setting : Setting} {schema : Schema} {world : World} {value : Value}
    (defaults : world.dispatch.registry = .withDefaults schema)
    (wellFormed : ∀ id, world.heap.Comprises value id → (world.heap.node id).WellFormed)
    (resolved : ∀ id, world.heap.Comprises value id →
      world.dispatch.registry.resolve (world.heap.node id).type ≠ some .null) :
    let outcome := setting.applyTo value value world
    outcome.1 = .ok value ∧ outcome.2.heap = world.heap ∧ outcome.2.store = world.store ∧
      ∀ container entity, .discarded container entity ∉ outcome.2.journal := by
  have reflexive : Reflexive world.rested (world.heap.Comprises value) := by
    constructor
    · exact ⟨schema, defaults⟩
    · intro id inside
      have named := resolved id inside
      rw [defaults] at named
      show world.dispatch.registry.ofValue _ _ ≠ _
      rw [defaults]
      exact Handler.Registry.ofValue_ne_null schema (wellFormed id inside) named
    · exact fun id inside => (wellFormed id inside).1
    · exact fun id inside part held => .member inside held
  have still : Still world.rested world.rested := ⟨rfl, rfl, rfl, nofun, nofun⟩
  have enough := world.rested.size_lt_fuel setting
  obtain ⟨fuel, spent⟩ := Nat.exists_eq_add_one.2 (Nat.zero_lt_of_lt enough)
  rw [spent] at enough
  have bound : world.rested.unvisited world.rested ≤ fuel :=
    (World.unvisited_le _ _).trans (Nat.le_of_lt (Nat.lt_of_succ_lt_succ enough))
  have echoes : Echoes world.rested (world.heap.Comprises value) fuel (answer setting fuel) :=
    echoes_answer reflexive fuel
  obtain ⟨result, after, run, rfl, rests⟩ :=
    answers_answer_self reflexive fuel value echoes (fun _ same => .root same) still bound
  rw [← spent] at run
  have outcome : setting.applyTo result result world = (.ok result, after) := run
  intro ended
  rw [show ended = (.ok result, after) from outcome]
  exact ⟨rfl, rests.still.heap, rests.still.store, rests.still.kept⟩

namespace Choirs

def schema : Schema := ⟨[{ name := ⟨"Singer"⟩, properties := .ofList [("id", .field)] }]⟩

/-- A list of parts that holds a singer twice, nothing, itself, an unloaded set and a map in which the singer is
a key and a value. -/
def heap : Heap := ⟨#[
  .list [.object ⟨1⟩, .null, .object ⟨1⟩, .object ⟨0⟩, .object ⟨2⟩, .object ⟨3⟩],
  { Node.bean ⟨"Singer"⟩ [("id", .int 1)] with origin := .stored },
  .lazyCollection .set,
  .map [(.object ⟨1⟩, .object ⟨0⟩), (.null, .object ⟨1⟩), (.int 4, .null)]]⟩

/-- No operation of the store works. -/
def world : World where
  heap
  store :=
    { entities := .ofList [(⟨"Singer"⟩, { type := ⟨"Singer"⟩, idProperty := "id" })]
      stored := [⟨1⟩]
      faults := .ofList ([StoreOperation.find, .identifier, .flush, .remove].map fun operation =>
        (operation, .backend "offline")) }
  dispatch := .ofRegistry (.withDefaults schema)
  cache := .ofSchema schema

def setting : Setting := { schema, config := { deleteRemoved := true, flushAutomatically := true } }

private theorem comprises {id : ObjectId} (inside : world.heap.Comprises (.object ⟨0⟩) id) :
    id ∈ [(⟨0⟩ : ObjectId), ⟨1⟩, ⟨2⟩, ⟨3⟩] := by
  have closed : ∀ id ∈ [(⟨0⟩ : ObjectId), ⟨1⟩, ⟨2⟩, ⟨3⟩], ∀ value ∈ (world.heap.node id).members,
      ∀ part, value.object? = some part → part ∈ [(⟨0⟩ : ObjectId), ⟨1⟩, ⟨2⟩, ⟨3⟩] := by
    decide +kernel
  induction inside with
  | root same =>
    cases same
    decide
  | member _ held ih => exact closed _ ih _ held _ rfl

private theorem wellFormed {id : ObjectId} (inside : world.heap.Comprises (.object ⟨0⟩) id) :
    (world.heap.node id).WellFormed := by
  have listed := comprises inside
  simp only [List.mem_cons, List.not_mem_nil, or_false] at listed
  rcases listed with rfl | rfl | rfl | rfl
  · exact ⟨trivial, fun _ _ same => by cases same⟩
  · exact ⟨trivial, fun _ _ same => by cases same⟩
  · exact ⟨List.nodup_nil, fun _ _ same => by cases same⟩
  · exact ⟨by show List.Nodup _; decide +kernel, fun _ _ same => by cases same⟩

/-- The list comes back as it is, and nobody is removed. -/
theorem choir_kept :
    let outcome := setting.applyTo (.object ⟨0⟩) (.object ⟨0⟩) world
    outcome.1 = .ok (.object ⟨0⟩) ∧ outcome.2.heap = world.heap ∧ outcome.2.store = world.store ∧
      ∀ container entity, .discarded container entity ∉ outcome.2.journal := by
  have named : ∀ id ∈ [(⟨0⟩ : ObjectId), ⟨1⟩, ⟨2⟩, ⟨3⟩],
      world.dispatch.registry.resolve (world.heap.node id).type ≠ some .null := by
    decide +kernel
  exact Setting.applyTo_self (by rfl) (fun _ => wellFormed) fun id inside => named id (comprises inside)

end Choirs

end Reconciler
