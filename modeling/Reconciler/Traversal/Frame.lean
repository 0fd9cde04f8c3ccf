import Reconciler.Heap.Layout
import Reconciler.Traversal.Run

/-! # What handlers keep

A relation between worlds that holds of every single change a traversal makes, and that is reflexive and
transitive, holds between the worlds before and after whatever a handler does, if it holds for the requests
that the handler makes. One such relation is that objects keep their type, their layout and their origin.
-/

namespace Reconciler

/-- A relation between the world before a change and the world after it that every single change
keeps. All that is allocated is empty and like an object of the heap. -/
structure Frame (related : World → World → Prop) : Prop where
  refl : ∀ world, related world world
  trans : ∀ {first second third}, related first second → related second third → related first third
  note : ∀ world event, related world { world with journal := event :: world.journal }
  changeStore : ∀ world store, related world { world with store }
  called : ∀ world outages, related world { world with outages }
  allocateLike : ∀ world id,
    related world { world with heap := world.heap.allocate (world.heap.node id).emptyLike }
  edit : ∀ world target edit, (∀ origin, edit ≠ .setOrigin origin) →
    related world { world with
      heap := world.heap.edit target edit
      journal := .edited target edit :: world.journal }
  record : ∀ world source target,
    related world { world with visits := world.visits.record source target }
  dispatch : ∀ world dispatch, related world { world with dispatch }
  cache : ∀ world cache, related world { world with cache }

/-- The world before an action is related to the world after it. -/
def Action.Keeps (related : World → World → Prop) {α : Type} (action : Action α) : Prop :=
  ∀ world, related world (action world).2

namespace Frame

variable {related : World → World → Prop} (frame : Frame related) {α β : Type}

include frame

theorem keeps_pure (answer : α) : (pure answer : Action α).Keeps related :=
  fun world => frame.refl world

theorem keeps_bind {first : Action α} {next : α → Action β} (one : first.Keeps related)
    (two : ∀ answer, (next answer).Keeps related) : (first >>= next).Keeps related := by
  intro world
  have before := one world
  rw [Action.bind_apply]
  rcases run : first world with ⟨_ | answer, after⟩
  · rw [run] at before
    exact before
  · rw [run] at before
    exact frame.trans before (two answer after)

private theorem keeps_forM {items : List α} {body : α → Action PUnit}
    (each : ∀ item, (body item).Keeps related) : (items.forM body).Keeps related := by
  induction items with
  | nil => exact frame.keeps_pure _
  | cons head rest ih => exact frame.keeps_bind (each head) (fun _ => ih)

private theorem keeps_look (view : World → α) : (Action.look view).Keeps related :=
  fun world => frame.refl world

private theorem keeps_stop (ending : Ending) : (Action.stop ending : Action α).Keeps related :=
  fun world => frame.refl world

private theorem keeps_note (event : Event) : (Action.note event).Keeps related :=
  fun world => frame.note world event

theorem keeps_askStore (query : EntityStore → Heap → Outages → Except StoreError α × Outages) :
    (Action.askStore query).Keeps related := by
  intro world
  unfold Action.askStore
  split <;> exact frame.called world _

theorem keeps_changeStore (operation : StoreOperation)
    (update : EntityStore → Heap → Except StoreError EntityStore) :
    (Action.changeStore operation update).Keeps related :=
  frame.keeps_bind (frame.keeps_askStore _) fun store world => frame.changeStore world store

private theorem keeps_edit (target : ObjectId) {edit : Edit} (other : ∀ origin, edit ≠ .setOrigin origin) :
    (Action.edit target edit).Keeps related :=
  fun world => frame.edit world target edit other

theorem keeps_allocateLike (id : ObjectId) {next : Node → ObjectId → Action β}
    (nexts : ∀ node copy, (next node copy).Keeps related) :
    (Action.nodeOf id >>= fun node => Action.allocate node.emptyLike >>= next node).Keeps related :=
  fun world => frame.trans (frame.allocateLike world id) (nexts (world.heap.node id) world.heap.fresh _)

private theorem keeps_rebuild {fill : Node → ObjectId → Action Unit}
    (fills : ∀ node copy, (fill node copy).Keeps related) (source : ObjectId) :
    (rebuild fill source).Keeps related := by
  refine frame.keeps_allocateLike source fun node copy => ?_
  refine frame.keeps_bind (fun world => frame.record world _ _) fun _ => ?_
  refine frame.keeps_bind (frame.keeps_note _) fun _ => ?_
  exact frame.keeps_bind (fills node copy) fun _ => frame.keeps_pure _

section Asking

variable {ask : Value → Action Value} (asks : ∀ part, (ask part).Keeps related)

include asks

theorem keeps_rebuildValue (handler : Handler) (value : Value) :
    (handler.rebuildValue ask value).Keeps related := by
  unfold Handler.rebuildValue
  split
  · exact frame.keeps_pure _
  · refine frame.keeps_rebuild (fun node copy => frame.keeps_forM fun item => ?_) _
    exact frame.keeps_bind (asks item) fun _ => frame.keeps_edit _ (by simp)
  · refine frame.keeps_rebuild (fun node copy => frame.keeps_forM fun entry => ?_) _
    refine frame.keeps_bind (asks entry.1) fun _ => ?_
    exact frame.keeps_bind (asks entry.2) fun _ => frame.keeps_edit _ (by simp)
  · refine frame.keeps_rebuild (fun node copy => ?_) _
    unfold fillArray
    split
    · exact frame.keeps_edit _ (by simp)
    · refine frame.keeps_forM fun slot => ?_
      exact frame.keeps_bind (asks slot.1) fun _ => frame.keeps_edit _ (by simp)
  · exact frame.keeps_pure _

end Asking

private theorem keeps_keepUnloaded (detached authoritative : ObjectId) :
    (keepUnloaded detached authoritative).Keeps related := by
  refine frame.keeps_bind (frame.keeps_look _) fun unloaded => ?_
  split
  · refine frame.keeps_bind (frame.keeps_look _) fun node => ?_
    split
    · exact frame.keeps_bind (frame.keeps_look _) fun _ => frame.keeps_stop _
    · exact frame.keeps_pure _
  · exact frame.keeps_pure _

theorem keeps_discardLeftovers (setting : Setting) (container : ObjectId)
    (kept leftovers : List Value) : (discardLeftovers setting container kept leftovers).Keeps related := by
  unfold discardLeftovers
  split
  · refine frame.keeps_forM fun leftover => ?_
    unfold discardUnless
    split
    · refine frame.keeps_bind (frame.keeps_look _) fun managed => ?_
      split
      · exact frame.keeps_bind (frame.keeps_note _) fun _ => frame.keeps_changeStore _ _
      · exact frame.keeps_pure _
    · exact frame.keeps_pure _
  · exact frame.keeps_pure _

section Merging

variable {setting : Setting} {ask : Request → Action Value}
  (asks : ∀ request, (ask request).Keeps related)

include asks

private theorem keeps_mergeItems (elements candidates : List Value) :
    (mergeItems setting ask elements candidates).Keeps related := by
  induction elements generalizing candidates with
  | nil => exact frame.keeps_pure _
  | cons element elements ih =>
    refine frame.keeps_bind (frame.keeps_bind (frame.keeps_askStore _) fun matched => ?_) fun one =>
      frame.keeps_bind (ih one.2) fun _ => frame.keeps_pure _
    exact frame.keeps_bind (asks _) fun _ => frame.keeps_pure _

private theorem keeps_mergeBindings (current entries : List (Value × Value)) (pool : Counterpart.Pool) :
    (mergeBindings setting ask current entries pool).Keeps related := by
  induction entries generalizing pool with
  | nil => exact frame.keeps_pure _
  | cons entry entries ih =>
    refine frame.keeps_bind (frame.keeps_bind (frame.keeps_askStore _) fun matched => ?_) fun one =>
      frame.keeps_bind (ih one.2) fun _ => frame.keeps_pure _
    refine frame.keeps_bind (asks _) fun _ => frame.keeps_bind (asks _) fun _ => ?_
    exact frame.keeps_pure _

theorem keeps_mergeValue (handler : Handler) (detached authoritative : Value) :
    (handler.mergeValue setting ask detached authoritative).Keeps related := by
  unfold Handler.mergeValue
  split
  · exact frame.keeps_pure _
  · exact frame.keeps_pure _
  · refine frame.keeps_bind (frame.keeps_keepUnloaded _ _) fun kept => ?_
    split
    · exact frame.keeps_pure _
    refine frame.keeps_bind (frame.keeps_note _) fun _ => ?_
    refine frame.keeps_bind (frame.keeps_look _) fun candidates => ?_
    refine frame.keeps_bind (frame.keeps_look _) fun elements => ?_
    refine frame.keeps_bind (frame.keeps_mergeItems asks _ _) fun merged => ?_
    refine frame.keeps_bind (frame.keeps_discardLeftovers _ _ _ _) fun _ => ?_
    exact frame.keeps_bind (frame.keeps_edit _ (by simp)) fun _ => frame.keeps_pure _
  · refine frame.keeps_bind (frame.keeps_keepUnloaded _ _) fun kept => ?_
    split
    · exact frame.keeps_pure _
    refine frame.keeps_bind (frame.keeps_note _) fun _ => ?_
    refine frame.keeps_bind (frame.keeps_look _) fun current => ?_
    refine frame.keeps_bind (frame.keeps_look _) fun entries => ?_
    refine frame.keeps_bind (frame.keeps_mergeBindings asks _ _ _) fun merged => ?_
    refine frame.keeps_bind (frame.keeps_discardLeftovers _ _ _ _) fun _ => ?_
    exact frame.keeps_bind (frame.keeps_edit _ (by simp)) fun _ => frame.keeps_pure _
  · refine frame.keeps_bind (frame.keeps_note _) fun _ => ?_
    refine frame.keeps_bind (frame.keeps_look _) fun source => ?_
    refine frame.keeps_bind (frame.keeps_look _) fun current => ?_
    refine frame.keeps_bind (frame.keeps_forM fun slot => ?_) fun _ => frame.keeps_pure _
    refine frame.keeps_bind ?_ fun _ => frame.keeps_edit _ (by simp)
    unfold mergeSlot
    split
    · exact frame.keeps_pure _
    · exact asks _
  · exact frame.keeps_pure _

end Merging

end Frame

/-- Whatever a traversal changes, objects remain what they are. -/
theorem Heap.Retains.frame : Frame (fun before after => before.heap.Retains none after.heap) where
  refl world := .refl none world.heap
  trans before after := before.trans after
  note world _ := .refl none world.heap
  changeStore world _ := .refl none world.heap
  called world _ := .refl none world.heap
  allocateLike world _ := .allocate world.heap _
  edit world target _ other := .edit world.heap target (.inl other)
  record world _ _ := .refl none world.heap
  dispatch world _ := .refl none world.heap
  cache world _ := .refl none world.heap

end Reconciler
