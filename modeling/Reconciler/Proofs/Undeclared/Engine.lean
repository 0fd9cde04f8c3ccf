import Reconciler.Proofs.Termination
import Reconciler.Proofs.Undeclared

/-! # Detaching a graph with hidden attributes

Two heaps hold the same objects and differ only in attributes that the metadata of their types do not declare.
The detached graphs are the same then, object by object, and so are the failures. A detachment looks at types,
origins and shapes, at containers and at declared properties, and what it allocates is empty at first; so the
comparison of single actions carries over to the whole traversal by induction on the fuel.
-/

namespace Reconciler

open Reconciler.Action

namespace Comparison

variable {comparison : Comparison} {β : Type}

private theorem parallel_rebuild {fill other : Node → ObjectId → Action Unit} (source : ObjectId)
    (fills : ∀ one two copy, Node.Alike (comparison.hides? source) one two →
      (fill one copy).Parallel comparison (other two copy)) :
    (rebuild fill source).Parallel comparison (rebuild other source) := by
  refine parallel_allocateLike source fun one two copy alike _ => ?_
  refine parallel_bind (parallel_record source _) fun _ => ?_
  refine parallel_bind (parallel_note _) fun _ => ?_
  exact parallel_bind (fills one two copy alike) fun _ => parallel_pure _

private theorem parallel_visited? (value : Value) : (visited? value).Parallel comparison (visited? value) := by
  intro left right relates
  have same : right.visits = left.visits := by rw [relates.rest]
  refine .inl ⟨?_, relates⟩
  simp only [visited?, look, same]

/-- The same kind of object takes the detached values on both sides, and nothing is hidden of a new one. -/
private theorem parallel_targetOf (setting : Setting) (source : ObjectId) {next other : ObjectId → Action β}
    (rest : ∀ target, target = source ∨ comparison.hides? target = none →
      (next target).Parallel comparison (other target)) :
    (targetOf setting source >>= next).Parallel comparison (targetOf setting source >>= other) := by
  intro left right relates
  have proxy := relates.view_eq source (fun node => node.origin.isProxy) fun _ _ _ _ => rfl
  simp only [targetOf, bind_apply, nodeOf, look]
  rw [← proxy]
  by_cases new : (setting.config.cloneObjects || (left.heap.node source).origin.isProxy) = true
  · simp only [if_pos new, allocate, ← relates.fresh_eq]
    exact rest _ (.inr relates.hides?_fresh) _ _ (relates.allocateLike source)
  · simp only [if_neg new]
    exact rest source (.inl rfl) _ _ relates

private theorem parallel_unloadedPart (setting : Setting) (value : Value) :
    (unloadedPart setting value).Parallel comparison (unloadedPart setting value) := by
  unfold unloadedPart
  split
  · next id =>
    intro left right relates
    have container := relates.view_eq id Node.isContainer fun _ _ _ _ => rfl
    simp only [bind_apply, nodeOf, look]
    rw [← container]
    split
    · refine .inl ⟨?_, relates.allocateLike id⟩
      show Except.ok (Value.object left.heap.fresh) = .ok (.object right.heap.fresh)
      rw [relates.fresh_eq]
    · exact .inl ⟨rfl, relates⟩
  · exact parallel_pure _

section Asking

variable {ask other : Value → Action Value} (asks : ∀ part, (ask part).Parallel comparison (other part))

include asks

private theorem parallel_fillCollection {one two : Node} {metadata? : Option Metadata}
    (alike : Node.Alike metadata? one two)
    (copy : ObjectId) : (fillCollection ask one copy).Parallel comparison (fillCollection other two copy) := by
  unfold fillCollection
  rw [alike.view_eq Node.items fun _ _ _ _ => rfl]
  exact parallel_forM fun item _ => parallel_bind (asks item) fun _ => parallel_edit _ _

private theorem parallel_fillMap {one two : Node} {metadata? : Option Metadata} (alike : Node.Alike metadata? one two)
    (copy : ObjectId) : (fillMap ask one copy).Parallel comparison (fillMap other two copy) := by
  unfold fillMap
  rw [alike.view_eq Node.bindings fun _ _ _ _ => rfl]
  refine parallel_forM fun entry _ => ?_
  exact parallel_bind (asks entry.1) fun _ => parallel_bind (asks entry.2) fun _ => parallel_edit _ _

private theorem parallel_fillArray {one two : Node} {metadata? : Option Metadata} (alike : Node.Alike metadata? one two)
    (copy : ObjectId) : (fillArray ask one copy).Parallel comparison (fillArray other two copy) := by
  unfold fillArray
  rw [alike.view_eq Node.items fun _ _ _ _ => rfl, alike.view_eq Node.hasScalarSlots fun _ _ _ _ => rfl]
  split
  · exact parallel_edit _ _
  · exact parallel_forM fun slot _ => parallel_bind (asks slot.1) fun _ => parallel_edit _ _

private theorem parallel_rebuildValue (handler : Handler) (value : Value) :
    (handler.rebuildValue ask value).Parallel comparison (handler.rebuildValue other value) := by
  unfold Handler.rebuildValue
  split
  · exact parallel_pure _
  · exact parallel_rebuild _ fun _ _ copy alike => parallel_fillCollection asks alike copy
  · exact parallel_rebuild _ fun _ _ copy alike => parallel_fillMap asks alike copy
  · exact parallel_rebuild _ fun _ _ copy alike => parallel_fillArray asks alike copy
  · exact parallel_pure _

private theorem parallel_detachedPart (setting : Setting) (value : Value) :
    (detachedPart setting ask value).Parallel comparison (detachedPart setting other value) := by
  unfold detachedPart
  split
  · exact parallel_pure _
  refine parallel_look fun left right relates => ?_
  have loaded : value.isLoaded left.heap = value.isLoaded right.heap := by
    cases value with
    | object id => exact relates.view_eq id (fun node => node.origin.isLoaded) fun _ _ _ _ => rfl
    | _ => rfl
  rw [loaded]
  split
  · exact asks value
  · exact parallel_unloadedPart setting value

private theorem parallel_disconnectObject (source : ObjectId) :
    (disconnectObject comparison.setting ask source).Parallel comparison
      (disconnectObject comparison.setting other source) := by
  refine parallel_targetOf _ source fun target whose => ?_
  refine parallel_bind (parallel_record source _) fun _ => ?_
  refine parallel_bind (parallel_note _) fun _ => ?_
  refine parallel_bind (parallel_flushFirst _) fun _ => ?_
  refine parallel_metadataOf source fun metadata? known => ?_
  split
  · exact parallel_pure _
  next metadata =>
  have sees : ∀ hidden, comparison.hides? source = some hidden → hidden = metadata :=
    fun hidden hides => (Option.some.inj (known hidden hides)).symm
  have written : ∀ hidden, comparison.hides? target = some hidden → hidden = metadata := by
    rcases whose with rfl | new
    · exact sees
    · exact fun _ hides => by cases new.symm.trans hides
  refine parallel_bind (parallel_forM fun property listed => ?_) fun _ => parallel_pure _
  refine parallel_bind (parallel_readProperty sees listed) fun value => ?_
  refine parallel_bind (parallel_detachedPart asks _ value) fun detached => ?_
  exact parallel_writeProperty written listed detached

private theorem parallel_disconnectValue (value : Value) :
    (disconnectValue comparison.setting ask value).Parallel comparison
      (disconnectValue comparison.setting other value) := by
  unfold disconnectValue
  split
  · exact parallel_pure _
  refine parallel_bind (parallel_visited? value) fun counterpart? => ?_
  split
  · exact parallel_pure _
  refine parallel_bind (parallel_handlerOf value) fun handler? => ?_
  split
  · exact parallel_rebuildValue asks _ value
  split
  · exact parallel_disconnectObject asks _
  · exact parallel_pure _

end Asking

/-- With the same fuel two runs stay together, and with different fuel unless one of them is short of it. -/
private theorem parallel_answer {fuel supply : Nat} (enough : fuel ≠ supply → comparison.lenient) (value : Value) :
    (answer comparison.setting fuel (.disconnect value)).Parallel comparison
      (answer comparison.setting supply (.disconnect value)) := by
  -- Both runs use up one unit for each nested request, so an even supply stays even.
  induction fuel generalizing supply value with
  | zero =>
    cases supply with
    | zero => exact parallel_stop _
    | succ supply => exact fun _ _ _ => .inr ⟨enough (Nat.zero_ne_add_one supply), .inl rfl⟩
  | succ fuel ih =>
    cases supply with
    | zero => exact fun _ _ _ => .inr ⟨enough (Nat.add_one_ne_zero fuel), .inr rfl⟩
    | succ supply =>
      have asks := ih fun different => enough fun same => different (Nat.succ.inj same)
      refine parallel_bind (parallel_note _) fun _ => ?_
      refine parallel_bind (parallel_disconnectValue asks value) fun result => ?_
      exact parallel_bind (parallel_note _) fun _ => parallel_pure result

/-- Whatever two heaps differ in is hidden by the metadata of its type. -/
def ofHeaps (setting : Setting) (schema : Schema) (left right : Heap) (lenient : Prop) : Comparison where
  setting := setting
  hides? id := if left.node id = right.node id then none else setting.declared? schema (left.node id).type
  lenient := lenient

private theorem hides?_ofHeaps {setting : Setting} {schema : Schema} {left right : Heap} (size : left.size = right.size)
    (lenient : Prop) {id : ObjectId} (new : ¬ left.Holds id) :
    (ofHeaps setting schema left right lenient).hides? id = none := by
  have absent : ¬ right.Holds id := by rwa [Heap.Holds, ← size]
  exact if_pos (by rw [Heap.node_of_not_holds new, Heap.node_of_not_holds absent])

/-- Heaps that differ only in undeclared attributes make related worlds. -/
private theorem relates_ofHeaps {setting : Setting} {world : World} {other : Heap}
    (alike : world.heap.Alike (setting.declared? world.cache.schema) other) (lenient : Prop) :
    (ofHeaps setting world.cache.schema world.heap other lenient).Relates world.rested
      { world with heap := other }.rested where
  rest := rfl
  size_eq := alike.size_eq
  node id := by
    by_cases same : world.heap.node id = other.node id
    · exact .inl same
    · have hidden : (ofHeaps setting world.cache.schema world.heap other lenient).hides? id =
          setting.declared? world.cache.schema (world.heap.node id).type := if_neg same
      rw [hidden]
      exact alike.node id
  hides id metadata hidden := by
    refine ⟨?_, (Option.ite_none_left_eq_some.1 hidden).2⟩
    by_contra absent
    rw [hides?_ofHeaps alike.size_eq lenient absent] at hidden
    cases hidden

end Comparison

/-- Two detachments come to the same: the same answer, or the same error in the same words, and the objects that
were not there before are the same, one by one. -/
structure SameDetached (before : Heap) (left right : Except Ending Value × World) : Prop where
  outcome_eq : left.1 = right.1
  message_eq : ∀ error, left.1 = .error (.failed error) → error.message left.2.heap = error.message right.2.heap
  size_eq : left.2.heap.size = right.2.heap.size
  created_eq : ∀ id, ¬ before.Holds id → left.2.heap.node id = right.2.heap.node id

private theorem SameDetached.of_relates {comparison : Comparison} {before : Heap}
    {left right : Except Ending Value × World}
    (outcome : left.1 = right.1) (relates : comparison.Relates left.2 right.2)
    (seen : ∀ id, ¬ before.Holds id → comparison.hides? id = none) : SameDetached before left right where
  outcome_eq := outcome
  message_eq error _ := ReconcileError.message_of_types relates.type_eq error
  size_eq := relates.size_eq
  created_eq id new := by
    rcases relates.node id with same | ⟨metadata, hidden, -⟩
    · exact same
    · cases (seen id new).symm.trans hidden

/-- Undeclared attributes do not show in a detached graph, whether objects are cloned or not. On two heaps of the
same objects that differ only in such attributes, of beans whose declared properties are raw attributes, a
detachment has one outcome. Whatever the accessors of other types do, this holds of runs with the same fuel; and
if they hide nothing, neither run uses up the fuel that it gets. -/
theorem Setting.disconnect_agrees {setting : Setting} {schema : Schema} {world : World} {other : Heap} {value : Value}
    (defaults : world.dispatch.registry = .withDefaults schema)
    (closed : world.heap.Closed) (otherClosed : other.Closed)
    (stored : ∀ id ∈ world.store.stored, world.heap.Holds id) (held : world.heap.HoldsAll [value])
    (alike : world.heap.Alike (setting.declared? world.cache.schema) other) :
    (∀ fuel, SameDetached world.heap (answer setting fuel (.disconnect value) world.rested)
      (answer setting fuel (.disconnect value) { world with heap := other }.rested)) ∧
    (setting.Transparent world.cache.schema →
      (setting.disconnect value world).1 ≠ .error .exhausted ∧
      SameDetached world.heap (setting.disconnect value world)
        (setting.disconnect value { world with heap := other })) := by
  have size := alike.size_eq
  constructor
  · intro fuel
    rcases (Comparison.parallel_answer (fun different => absurd rfl different) value) _ _
      (Comparison.relates_ofHeaps alike False) with ⟨outcome, relates⟩ | ⟨never, -⟩
    · exact .of_relates outcome relates fun _ => Comparison.hides?_ofHeaps size False
    · exact never.elim
  · intro transparent
    have otherHeld : other.HoldsAll [value] := fun id listed => by
      rw [Heap.Holds, ← size]
      exact held id listed
    have otherStored : ∀ id ∈ world.store.stored, other.Holds id := fun id listed => by
      rw [Heap.Holds, ← size]
      exact stored id listed
    have first : (setting.disconnect value world).1 ≠ .error .exhausted :=
      (Orderly.start defaults transparent closed stored).runFresh_ne_exhausted held
    have begins : Orderly setting ({ world with heap := other } : World).rested :=
      .start defaults transparent otherClosed otherStored
    have second : (setting.disconnect value { world with heap := other }).1 ≠ .error .exhausted :=
      begins.runFresh_ne_exhausted otherHeld
    refine ⟨first, ?_⟩
    rcases (Comparison.parallel_answer (fun _ => trivial) value) _ _
      (Comparison.relates_ofHeaps alike True) with ⟨outcome, relates⟩ | ⟨-, short | short⟩
    · exact .of_relates outcome relates fun _ => Comparison.hides?_ofHeaps size True
    · exact absurd short first
    · exact absurd short second

/-- Raw attributes hide nothing. -/
private theorem Setting.transparent_of_allFields {setting : Setting} {schema : Schema}
    (fields : ∀ type metadata, setting.declared? schema type = some metadata → metadata.AllFields) :
    setting.Transparent schema := by
  intro type metadata known property access found
  obtain rfl := (fields type metadata known).access?_eq found
  trivial

/-- The properties that are left are raw attributes. -/
private theorem Metadata.AllFields.withoutProperty {metadata : Metadata} (fields : metadata.AllFields)
    (property : String) :
    (metadata.withoutProperty property).AllFields :=
  fun entry member => fields entry (List.mem_filter.1 member).1

namespace Patients

def metadata : Metadata where
  type := ⟨"Patient"⟩
  properties := .ofList [("name", .field), ("doctor", .field), ("notes", .field)]

def schema : Schema := ⟨[{ name := ⟨"Patient"⟩, properties := metadata.properties }]⟩

def discreet : Metadata := metadata.withoutProperty "notes"

/-- Patients are cloned without their notes. -/
def setting : Setting where
  schema := schema
  config := { cloneObjects := true }
  overrides := .ofList [(⟨"Patient"⟩, discreet)]

/-- A patient with notes and with a doctor, whose type nobody declares. -/
def heap (notes : String) : Heap := ⟨#[
  .bean ⟨"Patient"⟩ [("name", .text "Ann"), ("notes", .text notes), ("doctor", .object ⟨1⟩)],
  .bean ⟨"Doctor"⟩ [("name", .text "Bob")]]⟩

def world : World where
  heap := heap "allergic"
  dispatch := .ofRegistry (.withDefaults schema)
  cache := .ofSchema schema

private theorem metadata_allFields : metadata.AllFields :=
  OrderedMap.forall_ofList (fun access : Access => access = .field) (by simp)

private theorem schema_allFields : schema.AllFields := by
  intro decl declared
  obtain rfl := List.mem_singleton.1 declared
  exact metadata_allFields

private theorem setting_transparent : setting.Transparent schema := by
  refine Setting.transparent_of_allFields fun type known listed => ?_
  rcases Option.or_eq_some_iff.1 listed with replaced | ⟨-, declared⟩
  · obtain ⟨-, rfl⟩ := Prod.mk.inj (List.mem_singleton.1 (OrderedMap.mem_of_get? replaced))
    exact metadata_allFields.withoutProperty "notes"
  · exact schema_allFields.metadata? declared

/-- The notes are all that the patients differ in. -/
private theorem alike (notes : String) : world.heap.Alike (setting.declared? world.cache.schema) (heap notes) where
  size_eq := rfl
  node id := by
    rcases id with ⟨_ | _ | index⟩
    · refine .inr ⟨discreet, by rfl, metadata_allFields.withoutProperty "notes", rfl, rfl, rfl, rfl, ?_⟩
      have names : discreet.names = ["name", "doctor"] := by decide
      rw [names]
      intro name listed
      simp only [List.mem_cons, List.not_mem_nil, or_false] at listed
      rcases listed with rfl | rfl <;> rfl
    · exact .inl rfl
    · have absent : ∀ notes, ¬ (heap notes).Holds ⟨index + 2⟩ :=
        fun _ => Nat.not_lt.2 (Nat.le_add_left 2 index)
      exact .inl ((Heap.node_of_not_holds (absent _)).trans (Heap.node_of_not_holds (absent notes)).symm)

def detachment (notes : String) : Except Ending Value × World :=
  setting.disconnect (.object ⟨0⟩) { world with heap := heap notes }

/-- The patient and the doctor are cloned, and neither clone tells the notes. -/
theorem notes_stay_confidential :
    heap "allergic" ≠ heap "healthy" ∧ (detachment "allergic").1 = .ok (.object ⟨2⟩) ∧
      (∀ fuel, (answer setting fuel (.disconnect (.object ⟨0⟩)) world.rested).1 =
        (answer setting fuel (.disconnect (.object ⟨0⟩)) { world with heap := heap "healthy" }.rested).1) ∧
      SameDetached (heap "allergic") (detachment "allergic") (detachment "healthy") := by
  have held : world.heap.HoldsAll [.object ⟨0⟩] := by
    intro id listed
    obtain ⟨⟩ := List.mem_singleton.1 listed
    decide
  have unstored : ∀ id ∈ world.store.stored, world.heap.Holds id := fun _ listed => by cases listed
  have ⟨together, ends⟩ := Setting.disconnect_agrees rfl (by decide +kernel) (by decide +kernel) unstored held
    (alike "healthy")
  exact ⟨by decide, by decide +kernel, fun fuel => (together fuel).outcome_eq, (ends setting_transparent).2⟩

end Patients

end Reconciler
