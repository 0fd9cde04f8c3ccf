import Reconciler.Proofs.Loan.Matching
import Reconciler.Proofs.Parts

/-! # Containers of a clone

A request of a run that takes a clone back is answered with the original, and the object that it is for is
brought back. A container is refilled with the parts that it has.
-/

namespace Reconciler

open Reconciler.Action

namespace Loan

variable {setting : Setting} (loan : Loan setting)

/-- The requests of a run that takes a clone back, and their answers. -/
inductive Expected : (request : Request) → (answer : Value) → Prop
  | pair {detached authoritative : ObjectId} (paired : loan.Paired detached authoritative) :
      Expected (.applyTo (.object detached) (.object authoritative)) (.object authoritative)
  | scalar {value other : Value} (plain : value.object? = none) (present : value.isNull = false)
      (known : other.isNull = false) : Expected (.applyTo value other) value
  | alone {value : Value} (plain : value.object? = none) : Expected (.apply value) value

/-- A part of the run that leaves nothing open. -/
structure Advances (now after : World) : Prop where
  returning : loan.Returning after
  progress : loan.Progress (fun _ => False) now after

/-- A request was answered as expected, and if it was for an object the object was brought back. -/
structure Brought (now : World) (request : Request) (expected result : Value) (after : World) : Prop where
  result_eq : result = expected
  advances : loan.Advances now after
  visited : ∀ detached authoritative, request = .applyTo (.object detached) (.object authoritative) →
    after.visits.get? detached = some (.object authoritative)

/-- Requests are answered as expected, as long as there is fuel for the unvisited objects. -/
def Merges (fuel : Nat) (ask : Request → Action Value) : Prop :=
  ∀ now request expected, loan.Returning now → loan.start.unvisited now < fuel →
    loan.Expected request expected → (ask request).Answers now (loan.Brought now request expected)

variable {loan} {now middle after : World}

theorem Advances.trans (first : loan.Advances now middle) (second : loan.Advances middle after) :
    loan.Advances now after :=
  ⟨second.returning, first.progress.trans second.progress⟩

theorem Returning.refl (returning : loan.Returning now) : loan.Advances now now :=
  ⟨returning, .of_same (fun _ => rfl) rfl⟩

theorem Advances.unvisited_le (advances : loan.Advances now after) :
    loan.start.unvisited after ≤ loan.start.unvisited now :=
  World.unvisited_mono advances.progress.visits

section Requests

variable {original image : Value} (copied : Copied loan.cloned original image)

include copied

private theorem isNull_copied : image.isNull = original.isNull := by
  cases copied <;> rfl

private theorem expected_matched : loan.Expected (.matched image (counterpart? original)) original := by
  cases copied with
  | scalar plain =>
    rcases null : original.isNull with _ | _
    · rw [counterpart?, null]
      exact .scalar plain null null
    · rw [counterpart?, null]
      exact .alone plain
  | object visited => exact .pair (.copy visited)

private theorem expected_reconcile (present : image.isNull = false) :
    loan.Expected (.reconcile image original) original := by
  rw [Request.reconcile, ← isNull_copied copied, present]
  cases copied with
  | scalar plain => exact .scalar plain present present
  | object visited => exact .pair (.copy visited)

private theorem Brought.followed {result : Value} {request : Request}
    (brought : loan.Brought now request original result after)
    (asked : ∀ id, original = .object id → request = .applyTo image original) : loan.Followed after original := by
  intro id copy same loaded lent
  subst same
  cases copied with
  | scalar plain => cases plain
  | object visited =>
    cases lent.symm.trans visited
    exact brought.visited _ _ (asked id rfl)

end Requests

/-- An edit that leaves the content as it is leaves the node as it is. -/
theorem edited_eq {node : Node} {change : Edit} (other : ∀ origin, change ≠ .setOrigin origin)
    (same : node.content.edited? change = some node.content) : node.edited change = node := by
  unfold Node.edited
  rw [same]
  cases change with
  | setOrigin origin => exact absurd rfl (other origin)
  | _ => rfl

/-- An edit that leaves its target as it is. -/
private theorem Returning.answers_edit (returning : loan.Returning now) {id : ObjectId} {change : Edit}
    (same : (now.heap.node id).edited change = now.heap.node id) :
    (edit id change).Answers now (fun _ after => loan.Advances now after) := by
  have nodes : ∀ other, (now.heap.edit id change).node other = now.heap.node other := by
    intro other
    rw [Heap.node_edit]
    split
    · next here => rw [here.1, same]
    · rfl
  refine ⟨(), _, rfl, returning.of_same (Heap.size_edit ..) nodes rfl rfl rfl rfl rfl, ?_⟩
  exact .of_same nodes rfl

/-- Nothing is discarded if nothing but nulls is left over. -/
theorem answers_discardLeftovers {container : ObjectId} {merged leftovers : List Value}
    (empty : ∀ value ∈ leftovers, value = .null) :
    (discardLeftovers setting container merged leftovers).Answers now (fun _ after => now = after) := by
  unfold discardLeftovers
  split
  · apply answers_forM (fun _ after => now = after) rfl
    rintro done item rest split _ rfl
    rw [empty item (by simp [split])]
    exact answers_pure rfl
  · exact answers_pure rfl

/-- Notes change nothing. -/
theorem Returning.noted (returning : loan.Returning now) (journal : List Event) :
    loan.Advances now { now with journal } :=
  ⟨returning.of_same rfl (fun _ => rfl) rfl rfl rfl rfl rfl, .of_same (fun _ => rfl) rfl⟩

/-- A container that is edited as it is, with nothing but nulls left over. -/
private theorem Returning.answers_refill (returning : loan.Returning now) {id : ObjectId}
    {merged leftovers : List Value}
    (empty : ∀ value ∈ leftovers, value = .null) {change : Edit}
    (same : (now.heap.node id).edited change = now.heap.node id) :
    (do discardLeftovers setting id merged leftovers
        edit id change
        return Value.object id : Action Value).Answers now
      (fun merged after => merged = .object id ∧ loan.Advances now after) := by
  apply (answers_discardLeftovers empty).bind
  rintro _ _ rfl
  refine (returning.answers_edit same).bind fun _ after advances => ?_
  exact answers_pure ⟨rfl, advances⟩

/-- What was loaded when it was lent is not kept from the run. -/
private theorem Returning.answers_keepUnloaded (returning : loan.Returning now) {id copy : ObjectId}
    (lent : loan.cloned.visits.get? id = some (.object copy))
    (loaded : (loan.source.heap.node id).origin.isLoaded = true) :
    (keepUnloaded copy id).Answers now (fun kept after => kept = false ∧ now = after) := by
  apply answers_look_bind
  rw [Value.isLoaded, returning.loaded_original lent loaded, Bool.not_true, Bool.and_false, if_neg Bool.false_ne_true]
  exact answers_pure ⟨rfl, rfl⟩

/-- The parts of a container were there before. -/
theorem holds_of_parts {id copy : ObjectId} (lent : loan.cloned.visits.get? id = some (.object copy))
    (other : (loan.source.heap.node id).isBean = false) {part : ObjectId}
    (listed : .object part ∈ (loan.source.heap.node id).parts) : loan.source.heap.Holds part :=
  (loan.cloneable.copyable part (loan.cloneable.member_of_parts (member_of_lent lent) other listed)).held

section Containers

variable {fuel : Nat} {ask : Request → Action Value} (asks : loan.Merges fuel ask)

include asks

/-- A part that was matched is brought onto its original. -/
private theorem answers_matched (returning : loan.Returning now) (bound : loan.start.unvisited now < fuel)
    {original image : Value} (copied : Copied loan.cloned original image) :
    (ask (.matched image (counterpart? original))).Answers now (fun merged after =>
      merged = original ∧ loan.Advances now after ∧ loan.Followed after original) := by
  refine (asks now _ original returning bound (expected_matched copied)).weaken fun merged after brought => ?_
  refine ⟨brought.result_eq, brought.advances, brought.followed copied ?_⟩
  rintro id rfl
  rfl

/-- The elements are brought back in order, and nothing but nulls is left over. -/
private theorem answers_mergeItems {originals images : List Value}
    (copies : List.Forall₂ (Copied loan.cloned) originals images)
    (entities : ∀ original ∈ originals, ∀ part, original = .object part →
      (loan.source.heap.node part).isBean = true ∧ Matchable setting loan.source part)
    (old : ∀ part, .object part ∈ originals → loan.source.heap.Holds part) :
    ∀ {nulls : List Value} {now : World}, (∀ value ∈ nulls, value = .null) → loan.Returning now →
      loan.start.unvisited now < fuel →
      (mergeItems setting ask images (nulls ++ originals)).Answers now (fun result after =>
        result.1 = originals ∧ (∀ value ∈ result.2, value = .null) ∧ loan.Advances now after ∧
          ∀ original ∈ originals, loan.Followed after original) := by
  induction copies with
  | nil =>
    intro nulls now empty returning bound
    refine answers_pure ⟨rfl, ?_, returning.refl, fun _ listed => by cases listed⟩
    rw [List.append_nil]
    exact empty
  | cons copied _ ih =>
    rename_i original image originals images _
    intro nulls now empty returning bound
    have taken := returning.take_copied copied (entities original List.mem_cons_self) empty
      (fun part listed => old part (List.mem_cons_of_mem _ listed))
    have item : (mergeItem setting ask image (nulls ++ original :: originals)).Answers now
        (fun result after => result = (original, spared nulls original ++ originals) ∧
          loan.Advances now after ∧ loan.Followed after original) := by
      have looked : (askStore (fun store heap =>
          Counterpart.take setting.schema store heap image (nulls ++ original :: originals))).Answers now
            (fun found after => found = (counterpart? original, spared nulls original ++ originals) ∧
              after = now) := answers_askStore taken ⟨rfl, rfl⟩
      apply looked.bind
      rintro _ _ ⟨rfl, rfl⟩
      apply (answers_matched asks returning bound copied).bind
      rintro _ after ⟨rfl, advances, followed⟩
      exact answers_pure ⟨rfl, advances, followed⟩
    apply item.bind
    rintro _ middle ⟨rfl, advances, followed⟩
    refine (ih (fun other listed => entities other (List.mem_cons_of_mem _ listed))
      (fun part listed => old part (List.mem_cons_of_mem _ listed)) (spared_null empty original)
      advances.returning (Nat.lt_of_le_of_lt advances.unvisited_le bound)).bind ?_
    rintro ⟨merged, leftovers⟩ after ⟨rfl, null, later, others⟩
    refine answers_pure ⟨rfl, null, advances.trans later, ?_⟩
    exact List.forall_mem_cons.2 ⟨followed.later later.progress, others⟩

/-- The entries are brought back in order, and nothing but nulls is left over. -/
private theorem answers_mergeBindings {current originals images : List (Value × Value)}
    (copies : List.Forall₂ (fun entry image => Copied loan.cloned entry.1 image.1 ∧
      Copied loan.cloned entry.2 image.2) originals images)
    (keys : ∀ entry ∈ originals, ∀ part, entry.1 = .object part →
      (loan.source.heap.node part).isBean = true ∧ Matchable setting loan.source part)
    (values : ∀ entry ∈ originals, ∀ part, entry.2 = .object part →
      Matchable setting loan.source part ∧ (entry.1 = .null → (loan.source.heap.node part).isBean = true))
    (found : ∀ entry ∈ originals, current.find? (fun other => decide (other.1 = entry.1)) = some entry)
    (oldKeys : ∀ part, .object part ∈ originals.map Prod.fst → loan.source.heap.Holds part)
    (oldValues : ∀ part, .object part ∈ originals.map Prod.snd → loan.source.heap.Holds part) :
    ∀ {keyNulls valueNulls : List Value} {now : World}, (∀ value ∈ keyNulls, value = .null) →
      (∀ value ∈ valueNulls, value = .null) → loan.Returning now → loan.start.unvisited now < fuel →
      (mergeBindings setting ask current images
          ⟨keyNulls ++ originals.map Prod.fst, valueNulls ++ originals.map Prod.snd⟩).Answers now
        (fun result after => result.1 = originals ∧ (∀ value ∈ result.2.keys ++ result.2.values, value = .null) ∧
          loan.Advances now after ∧
          ∀ entry ∈ originals, loan.Followed after entry.1 ∧ loan.Followed after entry.2) := by
  induction copies with
  | nil =>
    intro keyNulls valueNulls now emptyKeys emptyValues returning bound
    refine answers_pure ⟨rfl, ?_, returning.refl, fun _ listed => by cases listed⟩
    rw [List.map_nil, List.map_nil, List.append_nil, List.append_nil]
    exact fun value listed => (List.mem_append.1 listed).elim (emptyKeys value) (emptyValues value)
  | cons copied _ ih =>
    rename_i original image originals images _
    obtain ⟨key, value⟩ := original
    obtain ⟨keyImage, valueImage⟩ := image
    intro keyNulls valueNulls now emptyKeys emptyValues returning bound
    rw [List.map_cons, List.map_cons] at *
    rw [List.forall_mem_cons] at keys values found
    have oldKeys : ∀ part, .object part ∈ originals.map Prod.fst → loan.source.heap.Holds part :=
      fun part listed => oldKeys part (List.mem_cons_of_mem _ listed)
    have oldValues : ∀ part, .object part ∈ originals.map Prod.snd → loan.source.heap.Holds part :=
      fun part listed => oldValues part (List.mem_cons_of_mem _ listed)
    have taken := returning.takeEntry_copied copied.2 (fun part same => (values.1 part same).1) copied.1 keys.1
      (fun null part same => (values.1 part same).2 null) emptyKeys emptyValues oldKeys oldValues found.1
    have binding : (mergeBinding setting ask current keyImage valueImage
        ⟨keyNulls ++ key :: originals.map Prod.fst, valueNulls ++ value :: originals.map Prod.snd⟩).Answers now
        (fun result after => result = ((key, value), ⟨spared keyNulls key ++ originals.map Prod.fst,
            spared valueNulls value ++ originals.map Prod.snd⟩) ∧
          loan.Advances now after ∧ loan.Followed after key ∧ loan.Followed after value) := by
      have looked : (askStore (fun store heap => Counterpart.takeEntry setting.schema store heap current
          keyImage valueImage ⟨keyNulls ++ key :: originals.map Prod.fst,
            valueNulls ++ value :: originals.map Prod.snd⟩)).Answers now (fun found after =>
              found = ((counterpart? key, counterpart? value), ⟨spared keyNulls key ++ originals.map Prod.fst,
                spared valueNulls value ++ originals.map Prod.snd⟩) ∧ after = now) :=
        answers_askStore taken ⟨rfl, rfl⟩
      apply looked.bind
      rintro _ _ ⟨rfl, rfl⟩
      apply (answers_matched asks returning bound copied.1).bind
      rintro _ middle ⟨rfl, first, keyFollowed⟩
      apply (answers_matched asks first.returning (Nat.lt_of_le_of_lt first.unvisited_le bound) copied.2).bind
      rintro _ after ⟨rfl, second, valueFollowed⟩
      exact answers_pure ⟨rfl, first.trans second, keyFollowed.later second.progress, valueFollowed⟩
    apply binding.bind
    rintro _ middle ⟨rfl, advances, followed⟩
    refine (ih keys.2 values.2 found.2 oldKeys oldValues (spared_null emptyKeys key)
      (spared_null emptyValues value) advances.returning
      (Nat.lt_of_le_of_lt advances.unvisited_le bound)).bind ?_
    rintro ⟨merged, leftovers⟩ after ⟨rfl, null, later, others⟩
    refine answers_pure ⟨rfl, null, advances.trans later, List.forall_mem_cons.2 ⟨?_, others⟩⟩
    exact ⟨followed.1.later later.progress, followed.2.later later.progress⟩

/-- The slot of an array gets the original. -/
private theorem answers_mergeSlot (returning : loan.Returning now) (bound : loan.start.unvisited now < fuel)
    {source : Node} {item counterpart : Value} (copied : Copied loan.cloned counterpart item)
    (scalar : source.hasScalarSlots = true → counterpart.object? = none) :
    (mergeSlot ask source item counterpart).Answers now (fun merged after =>
      merged = counterpart ∧ loan.Advances now after ∧ loan.Followed after counterpart) := by
  unfold mergeSlot
  split
  · next kept =>
    cases copied with
    | scalar plain =>
      refine answers_pure ⟨rfl, returning.refl, fun id copy same _ => ?_⟩
      subst same
      cases plain
    | object lent =>
      rw [Bool.or_eq_true] at kept
      cases scalar (kept.resolve_left Bool.false_ne_true)
  · next asked =>
    rw [Bool.or_eq_true, not_or, Bool.not_eq_true] at asked
    apply (asks now _ counterpart returning bound (expected_reconcile copied asked.1)).weaken
    intro merged after brought
    refine ⟨brought.result_eq, brought.advances, brought.followed copied fun id same => ?_⟩
    subst same
    rfl

variable {id copy : ObjectId} (lent : loan.cloned.visits.get? id = some (.object copy))

include lent

/-- A collection is refilled with its own elements. -/
theorem answers_mergeCollection (returning : loan.Returning now) (bound : loan.start.unvisited now < fuel)
    (loaded : (loan.source.heap.node id).origin.isLoaded = true)
    {kind : CollectionKind} {elements : List Value}
    (original : (loan.source.heap.node id).content = .collection kind elements) :
    (mergeCollection setting ask copy id).Answers now (fun merged after => merged = .object id ∧
      loan.Advances now after ∧ ∀ part ∈ (loan.source.heap.node id).parts, loan.Followed after part) := by
  have other : (loan.source.heap.node id).isBean = false := Node.notBean_of_handler? (by rw [original]; rfl)
  have parts : (loan.source.heap.node id).parts = elements := by simp [Node.parts, original]
  have content : ∀ now, loan.Returning now → (now.heap.node id).content = .collection kind elements :=
    fun now returning => (returning.content_original lent other).trans original
  have distinct : kind = .set → elements.Nodup := by
    rintro rfl
    have distinct := (loan.cloneable.copyable id (member_of_lent lent)).distinct
    rwa [Node.Distinct, original] at distinct
  have entities := (loan.traceable id (member_of_lent lent)).elements kind elements original
  obtain ⟨images, copied, copies⟩ := collection_copied lent original
  rw [← returning.fresh copy (Paired.copy lent).new] at copied
  apply (returning.answers_keepUnloaded lent loaded).bind
  rintro _ _ ⟨rfl, rfl⟩
  have noted := returning.noted (.walked copy :: now.journal)
  refine answers_bind_of_eq rfl (answers_look_bind (answers_look_bind ?_))
  simp only [Node.items_of_collection (content now returning), Node.items_of_collection copied]
  refine (answers_mergeItems asks copies (fun part listed other same => entities other (same ▸ listed))
    (fun part listed => holds_of_parts lent other (parts ▸ listed)) (List.forall_mem_nil _) noted.returning
    bound).bind ?_
  rintro ⟨merged, leftovers⟩ middle ⟨rfl, empty, advances, followed⟩
  refine (advances.returning.answers_refill empty (edited_eq (by simp) ?_)).weaken ?_
  · simp [content _ advances.returning, Content.edited?, Content.collected_eq distinct]
  · rintro _ after ⟨rfl, refilled⟩
    refine ⟨rfl, noted.trans (advances.trans refilled), fun part listed => ?_⟩
    exact (followed part (parts ▸ listed)).later refilled.progress

/-- A map is refilled with its own entries. -/
theorem answers_mergeMap (returning : loan.Returning now) (bound : loan.start.unvisited now < fuel)
    (loaded : (loan.source.heap.node id).origin.isLoaded = true)
    {bindings : OrderedMap Value Value} (original : (loan.source.heap.node id).content = .map bindings) :
    (mergeMap setting ask copy id).Answers now (fun merged after => merged = .object id ∧
      loan.Advances now after ∧ ∀ part ∈ (loan.source.heap.node id).parts, loan.Followed after part) := by
  have traceable := loan.traceable id (member_of_lent lent)
  have other : (loan.source.heap.node id).isBean = false := Node.notBean_of_handler? (by rw [original]; rfl)
  have parts : (loan.source.heap.node id).parts =
      bindings.entries.flatMap (fun entry => [entry.1, entry.2]) := by
    simp [Node.parts, original]
  have content : ∀ now, loan.Returning now → (now.heap.node id).content = .map bindings :=
    fun now returning => (returning.content_original lent other).trans original
  have distinct : (bindings.entries.map Prod.fst).Nodup := by
    have distinct := (loan.cloneable.copyable id (member_of_lent lent)).distinct
    rwa [Node.Distinct, original] at distinct
  have held : ∀ entry ∈ bindings.entries, ∀ part, .object part ∈ [entry.1, entry.2] →
      loan.source.heap.Holds part := by
    intro entry listed part either
    apply holds_of_parts lent other
    rw [parts]
    exact List.mem_flatMap.2 ⟨entry, listed, either⟩
  have heldKeys : ∀ part, .object part ∈ bindings.entries.map Prod.fst → loan.source.heap.Holds part := by
    intro part listed
    obtain ⟨entry, listed, same⟩ := List.mem_map.1 listed
    exact held entry listed part (by simp [same])
  have heldValues : ∀ part, .object part ∈ bindings.entries.map Prod.snd → loan.source.heap.Holds part := by
    intro part listed
    obtain ⟨entry, listed, same⟩ := List.mem_map.1 listed
    exact held entry listed part (by simp [same])
  obtain ⟨images, copied, copies⟩ := map_copied lent original
  rw [← returning.fresh copy (Paired.copy lent).new] at copied
  apply (returning.answers_keepUnloaded lent loaded).bind
  rintro _ _ ⟨rfl, rfl⟩
  have noted := returning.noted (.walked copy :: now.journal)
  refine answers_bind_of_eq rfl (answers_look_bind (answers_look_bind ?_))
  simp only [Node.bindings_of_map (content now returning), Node.bindings_of_map copied]
  refine (answers_mergeBindings asks copies (traceable.keys bindings original)
    (traceable.values bindings original) (OrderedMap.find?_of_mem distinct) heldKeys heldValues
    (List.forall_mem_nil _) (List.forall_mem_nil _) noted.returning bound).bind ?_
  rintro ⟨merged, leftovers⟩ middle ⟨rfl, empty, advances, followed⟩
  refine (advances.returning.answers_refill empty (edited_eq (by simp) ?_)).weaken ?_
  · simp [content _ advances.returning, Content.edited?, OrderedMap.ofList_of_nodup distinct]
  · rintro _ after ⟨rfl, refilled⟩
    refine ⟨rfl, noted.trans (advances.trans refilled), fun part listed => ?_⟩
    rw [parts] at listed
    obtain ⟨entry, known, either⟩ := List.mem_flatMap.1 listed
    have followed := followed entry known
    rcases List.mem_pair.1 either with rfl | rfl
    · exact followed.1.later refilled.progress
    · exact followed.2.later refilled.progress

/-- An array gets the slots that it has. -/
theorem answers_mergeArray (returning : loan.Returning now) (bound : loan.start.unvisited now < fuel)
    {component : TypeName} {slots : List Value}
    (original : (loan.source.heap.node id).content = .array component slots) :
    (mergeArray ask copy id).Answers now (fun merged after => merged = .object id ∧
      loan.Advances now after ∧ ∀ part ∈ (loan.source.heap.node id).parts, loan.Followed after part) := by
  have other : (loan.source.heap.node id).isBean = false := Node.notBean_of_handler? (by rw [original]; rfl)
  have parts : (loan.source.heap.node id).parts = slots := by simp [Node.parts, original]
  have content : ∀ now, loan.Returning now → (now.heap.node id).content = .array component slots :=
    fun now returning => (returning.content_original lent other).trans original
  obtain ⟨images, copied, copies⟩ := array_copied lent original
  have scalars : (loan.start.heap.node copy).hasScalarSlots = true → ∀ item ∈ slots, item.object? = none := by
    have scalars := (loan.cloneable.copyable id (member_of_lent lent)).scalars
    rw [Node.hasScalarSlots, Node.items_of_array original, original] at scalars
    rw [Node.hasScalarSlots, copied]
    exact scalars
  have noted := returning.noted (.walked copy :: now.journal)
  refine answers_bind_of_eq rfl (answers_look_bind (answers_look_bind ?_))
  simp only [Node.items_of_array (content now returning), returning.fresh copy (Paired.copy lent).new,
    Node.items_of_array copied]
  refine (answers_forM (fun done after => loan.Advances now after ∧
    ∀ slot ∈ done, loan.Followed after slot.1.2) ⟨noted, by simp⟩ ?_).bind ?_
  · rintro done ⟨⟨item, counterpart⟩, index⟩ rest split middle ⟨advances, followed⟩
    obtain ⟨rfl, known, -⟩ := zipIdx_eq_append split
    have slot : slots[done.length]? = some counterpart := (List.getElem?_zip_eq_some.1 known).2
    obtain ⟨inside, same⟩ := List.getElem?_eq_some_iff.1 slot
    have unchanged : slots.set done.length counterpart = slots := by rw [← same, List.set_getElem_self]
    have pair : Copied loan.cloned counterpart item := List.forall₂_zip copies.flip (List.mem_of_getElem? known)
    refine (answers_mergeSlot asks advances.returning (Nat.lt_of_le_of_lt advances.unvisited_le bound) pair
      fun scalar => scalars scalar counterpart (List.mem_of_getElem? slot)).bind ?_
    rintro result later ⟨result_eq, merged, here⟩
    rw [result_eq]
    refine (merged.returning.answers_edit (edited_eq (by simp) ?_)).weaken ?_
    · simp [content _ merged.returning, Content.edited?, if_pos inside, unchanged]
    · intro _ after edited
      refine ⟨advances.trans (merged.trans edited), fun other listed => ?_⟩
      rcases List.mem_append.1 listed with earlier | same
      · exact ((followed other earlier).later merged.progress).later edited.progress
      · rw [List.mem_singleton.1 same]
        exact here.later edited.progress
  · rintro _ after ⟨advances, followed⟩
    refine answers_pure ⟨rfl, advances, fun part listed => ?_⟩
    have all : ((images.zip slots).zipIdx.map Prod.fst).map Prod.snd = slots := by
      simp [List.zipIdx_map_fst, List.map_snd_zip copies.length_eq.le]
    rw [parts, ← all, List.map_map] at listed
    obtain ⟨slot, known, rfl⟩ := List.mem_map.1 listed
    exact followed slot known

end Containers

end Loan

end Reconciler
