import Mathlib.Algebra.Order.BigOperators.Group.Finset
import Reconciler.Proofs.Clone
import Reconciler.Proofs.Course
import Reconciler.Proofs.Parts

/-! # How deep requests can nest

A nested request is made about a part of an object that has just been visited. Two things can keep a chain
of nested requests short. Either the visit used up *credit*: every unvisited object that a run may edit
carries some, and nothing else adds to it. Or the part of the run left everything that it found as it was:
then what lies *ahead* of the part was ahead of the object, and the object itself no longer is.

* Taking a bean apart in place, or merging an object into another one, uses up credit. After that any request may
  follow, so what lies ahead has to be bounded at any time: by the *room*, which counts the unvisited objects
  that have parts, and is never exceeded later.
* Rebuilding a container uses up no credit, because the new container takes the place of its source among the
  unvisited objects. While it is filled it is counted as if it already had parts.
* When objects are cloned nothing is ever edited but new objects, so no credit is needed.
-/

namespace Reconciler

open Reconciler.Action

/-- What a run does with the objects that have no handler: it copies them, takes them apart in place, or
merges them into entities. -/
inductive Mode where
  | cloning
  | reusing
  | reconciling
deriving DecidableEq

namespace Mode

/-- The credit of an unvisited object. In place of a stand-in a bean is allocated that carries credit again. -/
def weight : Mode → (handled proxy : Bool) → Nat
  | cloning, _, _ => 0
  | reusing, true, _ => 0
  | reusing, false, true => 2
  | reusing, false, false => 1
  | reconciling, _, _ => 1

/-- The objects that may be visited without using up credit. -/
def counts : Mode → (handled : Bool) → Bool
  | cloning, _ => true
  | reusing, handled => handled
  | reconciling, handled => handled

/-- The credit of a rebuilt container is that of its source. -/
theorem weight_handled (mode : Mode) (proxy : Bool) : mode.weight true proxy = mode.weight true false := by
  cases mode <;> rfl

theorem counts_handled (mode : Mode) : mode.counts true = true := by
  cases mode <;> rfl

private theorem weight_le (mode : Mode) (handled proxy : Bool) : mode.weight handled proxy ≤ 2 := by
  cases mode <;> cases handled <;> cases proxy <;> decide

end Mode

namespace World

def isHandled (now : World) (id : ObjectId) : Bool := (now.handler? id).isSome

/-- The credit of an object, as long as it is unvisited. -/
def weight (mode : Mode) (now : World) (id : ObjectId) : Nat :=
  mode.weight (now.isHandled id) (now.heap.node id).origin.isProxy

/-- The credit that is left. -/
def credit (mode : Mode) (now : World) : Nat :=
  ∑ index ∈ (Finset.range now.heap.size).filter (fun index => now.visits.get? ⟨index⟩ = none),
    now.weight mode ⟨index⟩

/-- An unvisited object with parts, or with parts still to come, that may be visited without credit. -/
def Queued (mode : Mode) (opened : List ObjectId) (now : World) (id : ObjectId) : Prop :=
  now.heap.Holds id ∧ now.visits.get? id = none ∧ mode.counts (now.isHandled id) = true ∧
    (id ∈ opened ∨ (now.heap.node id).parts ≠ [])

instance (mode : Mode) (opened : List ObjectId) (now : World) (id : ObjectId) :
    Decidable (now.Queued mode opened id) :=
  inferInstanceAs (Decidable (_ ∧ _ ∧ _ ∧ _))

/-- The number of queued objects. -/
def queue (mode : Mode) (opened : List ObjectId) (now : World) : Nat :=
  ((Finset.range now.heap.size).filter (fun index => now.Queued mode opened ⟨index⟩)).card

/-- A bound on the queue, now and later. It is not needed if there is no credit to be used up. -/
def room (mode : Mode) (opened : List ObjectId) (now : World) : Nat :=
  match mode with
  | .cloning => 0
  | .reusing | .reconciling => now.queue mode opened + now.credit mode

/-- The queued objects to which a chain of parts may still lead that uses up no credit. -/
inductive Ahead (mode : Mode) (now : World) : Value → ObjectId → Prop
  | here {id : ObjectId} (queued : now.Queued mode [] id) : Ahead mode now (.object id) id
  | part {id target : ObjectId} {part : Value} (queued : now.Queued mode [] id)
      (listed : part ∈ (now.heap.node id).parts) (ahead : Ahead mode now part target) :
      Ahead mode now (.object id) target

open Classical in
/-- The number of objects ahead of a value. -/
noncomputable def ahead (mode : Mode) (now : World) (value : Value) : Nat :=
  ((Finset.range now.heap.size).filter (fun index => Ahead mode now value ⟨index⟩)).card

/-- A bound on the nesting of the requests that follow one about a value. -/
noncomputable def weigh (mode : Mode) (bound : Nat) (now : World) (value : Value) : Nat :=
  now.credit mode * (bound + 2) + now.ahead mode value + if value.object? = none then 0 else 1

end World

section Changes

variable {mode : Mode} {opened opened' : List ObjectId} {now after : World}

private theorem World.Ahead.queued {value : Value} {target : ObjectId} (ahead : Ahead mode now value target) :
    now.Queued mode [] target := by
  induction ahead with
  | here queued => exact queued
  | part _ _ _ ih => exact ih

theorem World.Later.isHandled_eq (later : now.Later after) {id : ObjectId} (held : now.heap.Holds id) :
    after.isHandled id = now.isHandled id := by
  rw [World.isHandled, later.handler?_eq held, World.isHandled]

/-- What an object weighs depends on nothing that changes. -/
theorem World.Later.weight_eq (later : now.Later after) {id : ObjectId} (held : now.heap.Holds id) :
    after.weight mode id = now.weight mode id := by
  rw [World.weight, later.isHandled_eq held, later.heap.origin_eq id held nofun, World.weight]

/-- As long as the objects stay as they are, nothing new comes to lie ahead of a value. -/
theorem World.Ahead.earlier (later : now.Later after) (closed : now.heap.Closed)
    (frozen : ∀ id, now.heap.Holds id → after.heap.node id = now.heap.node id) {value : Value}
    {target : ObjectId} (held : ∀ id, value = .object id → now.heap.Holds id)
    (ahead : Ahead mode after value target) : Ahead mode now value target := by
  have queued : ∀ id, now.heap.Holds id → after.Queued mode [] id → now.Queued mode [] id := by
    rintro id held ⟨-, unvisited, counts, parts⟩
    rw [later.isHandled_eq held] at counts
    rw [frozen id held] at parts
    exact ⟨held, later.unvisited unvisited, counts, parts⟩
  induction ahead with
  | @here id here => exact .here (queued id (held id rfl) here)
  | @part id target part here listed _ ih =>
    rw [frozen id (held id rfl)] at listed
    refine .part (queued id (held id rfl) here) listed (ih ?_)
    rintro _ rfl
    exact closed id _ listed

variable (mode) in
private theorem World.ahead_le (later : now.Later after) (closed : now.heap.Closed)
    (frozen : ∀ id, now.heap.Holds id → after.heap.node id = now.heap.node id) {value : Value}
    (held : ∀ id, value = .object id → now.heap.Holds id) : after.ahead mode value ≤ now.ahead mode value := by
  classical
  apply Finset.card_le_card
  intro index listed
  have before := (Finset.mem_filter.1 listed).2.earlier later closed frozen held
  exact Finset.mem_filter.2 ⟨Finset.mem_range.2 before.queued.1, before⟩

/-- A visited object no longer lies ahead of its parts. -/
theorem World.ahead_lt (later : now.Later after) (closed : now.heap.Closed)
    (frozen : ∀ id, now.heap.Holds id → after.heap.node id = now.heap.node id) {source : ObjectId}
    (queued : now.Queued mode [] source) (visited : after.visits.get? source ≠ none) {part : Value}
    (listed : part ∈ (now.heap.node source).parts) :
    after.ahead mode part < now.ahead mode (.object source) := by
  classical
  have held : ∀ id, part = .object id → now.heap.Holds id := by
    rintro id rfl
    exact closed source id listed
  apply Finset.card_lt_card
  rw [Finset.ssubset_iff_of_subset]
  · refine ⟨source.index, Finset.mem_filter.2 ⟨Finset.mem_range.2 queued.1, .here queued⟩, ?_⟩
    intro member
    exact visited (Finset.mem_filter.1 member).2.queued.2.1
  · intro index member
    have before := (Finset.mem_filter.1 member).2.earlier later closed frozen held
    exact Finset.mem_filter.2 ⟨Finset.mem_range.2 before.queued.1, .part queued listed before⟩

/-- Nothing lies ahead of a scalar. -/
theorem World.ahead_scalar (now : World) {value : Value} (plain : value.object? = none) :
    now.ahead mode value = 0 := by
  classical
  rw [ahead, Finset.card_eq_zero, Finset.filter_eq_empty_iff]
  intro index _ ahead
  cases ahead <;> cases plain

variable (mode) in
private theorem World.ahead_le_queue (now : World) (value : Value) : now.ahead mode value ≤ now.queue mode [] := by
  classical
  apply Finset.card_le_card
  intro index listed
  obtain ⟨bound, ahead⟩ := Finset.mem_filter.1 listed
  exact Finset.mem_filter.2 ⟨bound, ahead.queued⟩

variable (mode) in
theorem World.ahead_le_size (now : World) (value : Value) : now.ahead mode value ≤ now.heap.size := by
  classical
  exact (Finset.card_filter_le _ _).trans (Finset.card_range _).le

theorem World.queue_le (queued : ∀ id, after.Queued mode opened' id → now.Queued mode opened id) :
    after.queue mode opened' ≤ now.queue mode opened := by
  apply Finset.card_le_card
  intro index listed
  have before := queued _ (Finset.mem_filter.1 listed).2
  exact Finset.mem_filter.2 ⟨Finset.mem_range.2 before.1, before⟩

/-- One object more. -/
theorem World.queue_le_succ (other : ObjectId)
    (queued : ∀ id, id ≠ other → after.Queued mode opened' id → now.Queued mode opened id) :
    after.queue mode opened' ≤ now.queue mode opened + 1 := by
  refine (Finset.card_le_card ?_).trans (Finset.card_insert_le other.index _)
  intro index listed
  by_cases same : index = other.index
  · exact Finset.mem_insert.2 (.inl same)
  · have different : (⟨index⟩ : ObjectId) ≠ other := by
      rintro rfl
      exact same rfl
    have before := queued _ different (Finset.mem_filter.1 listed).2
    exact Finset.mem_insert.2 (.inr (Finset.mem_filter.2 ⟨Finset.mem_range.2 before.1, before⟩))

/-- One object in place of another. -/
theorem World.queue_le_of_replaced {source : ObjectId} (listed : now.Queued mode opened source)
    (gone : ¬ after.Queued mode opened' source) (other : ObjectId)
    (queued : ∀ id, id ≠ other → after.Queued mode opened' id → now.Queued mode opened id) :
    after.queue mode opened' ≤ now.queue mode opened := by
  have fewer : ((Finset.range now.heap.size).filter (fun index => now.Queued mode opened ⟨index⟩)).erase
      source.index ⊂ (Finset.range now.heap.size).filter (fun index => now.Queued mode opened ⟨index⟩) :=
    Finset.erase_ssubset (Finset.mem_filter.2 ⟨Finset.mem_range.2 listed.1, listed⟩)
  refine (Finset.card_le_card ?_).trans ((Finset.card_insert_le other.index _).trans (Finset.card_lt_card fewer))
  intro index member
  have here := (Finset.mem_filter.1 member).2
  by_cases same : index = other.index
  · exact Finset.mem_insert.2 (.inl same)
  · have different : (⟨index⟩ : ObjectId) ≠ other := by
      rintro rfl
      exact same rfl
    have before := queued _ different here
    have remains : index ≠ source.index := by
      rintro rfl
      exact gone here
    exact Finset.mem_insert.2 (.inr (Finset.mem_erase.2
      ⟨remains, Finset.mem_filter.2 ⟨Finset.mem_range.2 before.1, before⟩⟩))

theorem World.queue_le_size (now : World) : now.queue mode opened ≤ now.heap.size :=
  (Finset.card_filter_le _ _).trans (Finset.card_range _).le

variable (mode) in
/-- Credit changes with the visits and with new objects only. -/
theorem World.credit_of_same (later : now.Later after) (size : after.heap.size = now.heap.size)
    (visits : after.visits = now.visits) : after.credit mode = now.credit mode := by
  unfold credit
  rw [size, visits]
  apply Finset.sum_congr rfl
  intro index listed
  exact later.weight_eq (Finset.mem_range.1 (Finset.mem_filter.1 listed).1)

variable (mode) in
/-- The first visit of an object uses up its credit. -/
theorem World.credit_record {source : ObjectId} (held : now.heap.Holds source)
    (unvisited : now.visits.get? source = none) (target : Value) :
    (record source target now).2.credit mode + now.weight mode source = now.credit mode := by
  have others : ∀ id, source ≠ id →
      (record source target now).2.visits.get? id = now.visits.get? id :=
    fun id other => Visits.get?_record_of_ne _ other _
  have here := World.Later.visits_record now source target
  have left : (Finset.range now.heap.size).filter
      (fun index => (record source target now).2.visits.get? ⟨index⟩ = none) =
      ((Finset.range now.heap.size).filter (fun index => now.visits.get? ⟨index⟩ = none)).erase
        source.index := by
    ext index
    rw [Finset.mem_erase, Finset.mem_filter, Finset.mem_filter]
    by_cases same : index = source.index
    · subst same
      simp [here]
    · have different : source ≠ ⟨index⟩ := by
        rintro rfl
        exact same rfl
      rw [others _ different]
      exact ⟨fun member => ⟨same, member⟩, And.right⟩
  have weights : ∀ id, (record source target now).2.weight mode id = now.weight mode id := fun _ => rfl
  have member : source.index ∈
      (Finset.range now.heap.size).filter (fun index => now.visits.get? ⟨index⟩ = none) :=
    Finset.mem_filter.2 ⟨Finset.mem_range.2 held, unvisited⟩
  unfold credit
  rw [← Finset.add_sum_erase _ _ member, Nat.add_comm]
  congr 1
  exact Finset.sum_congr left fun index _ => weights ⟨index⟩

variable (mode) in
/-- A new object brings its credit. -/
theorem World.credit_allocate (node : Node) (unvisited : now.visits.get? now.heap.fresh = none) :
    (allocate node now).2.credit mode =
      now.credit mode + (allocate node now).2.weight mode now.heap.fresh := by
  have later := World.Later.allocate now node
  have size : (allocate node now).2.heap.size = now.heap.size + 1 := Heap.size_allocate ..
  have visits : (allocate node now).2.visits = now.visits := rfl
  have fresh : now.visits.get? ⟨now.heap.size⟩ = none := unvisited
  unfold credit
  rw [size, visits, Finset.range_add_one, Finset.filter_insert, if_pos fresh,
    Finset.sum_insert (by simp), Nat.add_comm]
  congr 1
  apply Finset.sum_congr rfl
  intro index listed
  exact later.weight_eq (Finset.mem_range.1 (Finset.mem_filter.1 listed).1)

variable (mode) in
theorem World.credit_le_size (now : World) : now.credit mode ≤ now.heap.size * 2 := by
  have worth := Finset.sum_le_card_nsmul
    ((Finset.range now.heap.size).filter (fun index => now.visits.get? ⟨index⟩ = none))
    (fun index => now.weight mode ⟨index⟩) 2 fun index _ => mode.weight_le _ _
  exact worth.trans (Nat.mul_le_mul_right 2 ((Finset.card_filter_le _ _).trans (Finset.card_range _).le))

/-- Once credit was used up any request may follow. -/
theorem World.weigh_lt_of_credit {bound : Nat} (used : after.credit mode < now.credit mode)
    (room : after.queue mode [] ≤ bound) (part value : Value) :
    after.weigh mode bound part < now.weigh mode bound value := by
  have within := (after.ahead_le_queue mode part).trans room
  have worth : (after.credit mode + 1) * (bound + 2) ≤ now.credit mode * (bound + 2) :=
    Nat.mul_le_mul_right _ used
  rw [Nat.add_mul] at worth
  unfold weigh
  split <;> split <;> omega

/-- As long as everything else stays as it is a part of a visited object weighs less than the object. -/
theorem World.weigh_lt_of_frozen {bound : Nat} (later : now.Later after) (closed : now.heap.Closed)
    (credit : after.credit mode = now.credit mode)
    (frozen : ∀ id, now.heap.Holds id → after.heap.node id = now.heap.node id) {source : ObjectId}
    (held : now.heap.Holds source) (unvisited : now.visits.get? source = none)
    (counts : mode.counts (now.isHandled source) = true)
    (visited : after.visits.get? source ≠ none) {part : Value}
    (listed : part.object? = none ∨ part ∈ (now.heap.node source).parts) :
    after.weigh mode bound part < now.weigh mode bound (.object source) := by
  unfold weigh
  rcases object : part.object? with _ | id
  · rw [after.ahead_scalar object, credit]
    simp only [Value.object?, if_true, reduceCtorEq, if_false]
    omega
  · have listed := listed.resolve_left (object ▸ Option.some_ne_none id)
    have queued : now.Queued mode [] source :=
      ⟨held, unvisited, counts, .inr (List.ne_nil_of_mem listed)⟩
    have fewer := ahead_lt later closed frozen queued visited listed
    rw [credit]
    simp only [Value.object?, reduceCtorEq, if_false]
    omega

/-- A request weighs no more in a world that differs in nothing that matters to it. -/
theorem World.weigh_le_of_same {bound : Nat} (later : now.Later after) (closed : now.heap.Closed)
    (heap : after.heap = now.heap) (visits : after.visits = now.visits) {value : Value}
    (held : ∀ id, value = .object id → now.heap.Holds id) :
    after.weigh mode bound value ≤ now.weigh mode bound value := by
  have less := ahead_le mode later closed (fun id _ => by rw [heap]) held
  have credit := credit_of_same mode later (by rw [heap]) visits
  unfold weigh
  rw [credit]
  omega

end Changes

end Reconciler
