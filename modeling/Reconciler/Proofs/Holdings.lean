import Mathlib.Data.Set.Card
import Reconciler.EntityStore

/-! # What a store holds

A store takes objects in and gives them up. After any calls it holds exactly those that it took in and did
not give up since, each once, and it remembers what it gave up in that order. A call that fails leaves the
store and the objects as they are. What a look-up finds is read off the objects as they are at that moment,
so it follows every edit of an identifier and every new description of a type.
-/

namespace Reconciler

/-- A store and the objects that it may hold. -/
structure Depot where
  store : EntityStore := {}
  heap : Heap := {}
deriving DecidableEq, Repr, Inhabited

/-- What can be asked of a store without failures, and the edits of objects in between. A node that is
persisted becomes an object first. -/
inductive Errand where
  | register (entity : Entity)
  | persistNode (node : Node)
  | persist (id : ObjectId)
  | setAttribute (id : ObjectId) (name : String) (value : Value)
  | find (type : TypeName) (identifier : Value)
  | remove (id : ObjectId)
deriving DecidableEq, Repr, Inhabited

/-- An object that a store took in or gave up. -/
inductive Movement where
  | takenIn (id : ObjectId)
  | givenUp (id : ObjectId)
deriving DecidableEq, Repr, Inhabited

namespace Depot

def persist (depot : Depot) (id : ObjectId) : Except StoreError (Option ObjectId) × Depot :=
  match depot.store.persist depot.heap id with
  | .ok (store, heap) => (.ok (some id), { store, heap })
  | .error error => (.error error, depot)

/-- What an errand answers with, an object if it is about one, and what it leaves. -/
def run (depot : Depot) : Errand → Except StoreError (Option ObjectId) × Depot
  | .register entity => (.ok none, { depot with store := depot.store.register entity })
  | .persistNode node => { depot with heap := depot.heap.allocate node }.persist depot.heap.fresh
  | .persist id => depot.persist id
  | .setAttribute id name value =>
      (.ok none, { depot with heap := depot.heap.edit id (.setAttribute name value) })
  | .find type identifier => (depot.store.find depot.heap type identifier, depot)
  | .remove id =>
      match depot.store.remove depot.heap id with
      | .ok store => (.ok (some id), { depot with store })
      | .error error => (.error error, depot)

end Depot

namespace Errand

/-- What an errand with this answer has moved. -/
def movement? : Errand → Except StoreError (Option ObjectId) → Option Movement
  | persistNode _, .ok (some id) => some (.takenIn id)
  | persist _, .ok (some id) => some (.takenIn id)
  | remove _, .ok (some id) => some (.givenUp id)
  | _, _ => none

end Errand

namespace Movement

def givenUp? : Movement → Option ObjectId
  | takenIn _ => none
  | givenUp id => some id

/-- An object was taken in and not given up since. -/
def Remains (movements : List Movement) (id : ObjectId) : Prop :=
  ∃ before after, movements = before ++ takenIn id :: after ∧ givenUp id ∉ after

/-- The last movement decides, if it is about the object. -/
theorem remains_append (movements : List Movement) (last : Movement) (id : ObjectId) :
    Remains (movements ++ [last]) id ↔ last = takenIn id ∨ last ≠ givenUp id ∧ Remains movements id := by
  constructor
  · rintro ⟨before, after, split, kept⟩
    rcases List.eq_nil_or_concat after with rfl | ⟨earlier, final, rfl⟩
    · exact .inl (List.singleton_inj.1 (List.append_inj' split rfl).2)
    · rw [List.concat_eq_append, ← List.cons_append, ← List.append_assoc] at split
      obtain ⟨whole, same⟩ := List.append_inj' split rfl
      obtain rfl := List.singleton_inj.1 same
      rw [List.concat_eq_append, List.mem_append, not_or, List.mem_singleton] at kept
      exact .inr ⟨Ne.symm kept.2, before, earlier, whole, kept.1⟩
  · rintro (rfl | ⟨other, before, after, rfl, kept⟩)
    · exact ⟨movements, [], rfl, List.not_mem_nil⟩
    · refine ⟨before, after ++ [last], by rw [List.append_assoc, List.cons_append], ?_⟩
      rw [List.mem_append, not_or, List.mem_singleton]
      exact ⟨kept, Ne.symm other⟩

end Movement

/-- The state after an errand, and the movements so far. -/
def Depot.log (state : Depot × List Movement) (errand : Errand) : Depot × List Movement :=
  let (answer, after) := state.1.run errand
  (after, state.2 ++ (errand.movement? answer).toList)

/-- The state after some errands for an empty store, and what they moved. -/
def Depot.history (heap : Heap) (errands : List Errand) : Depot × List Movement :=
  errands.foldl log ({ heap }, [])

/-- A store without failures that holds what remains of the movements. -/
structure Depot.Accounts (depot : Depot) (movements : List Movement) : Prop where
  stored : ∀ id, id ∈ depot.store.stored ↔ Movement.Remains movements id
  once : depot.store.stored.Nodup
  removed : depot.store.removed = movements.filterMap Movement.givenUp?
  faultless : depot.store.faults = .empty

namespace Depot.Accounts

variable {depot : Depot} {movements : List Movement}

/-- What changes neither what is stored nor what was removed moves nothing. -/
theorem of_same (accounts : depot.Accounts movements) {after : Depot}
    (stored : after.store.stored = depot.store.stored) (removed : after.store.removed = depot.store.removed)
    (faults : after.store.faults = depot.store.faults) : after.Accounts (movements ++ []) := by
  rw [List.append_nil]
  exact ⟨stored ▸ accounts.stored, stored ▸ accounts.once, removed ▸ accounts.removed, faults ▸ accounts.faultless⟩

private theorem takeIn (accounts : depot.Accounts movements) (id : ObjectId) (heap : Heap) :
    Accounts { store := { depot.store with
        stored := if id ∈ depot.store.stored then depot.store.stored else depot.store.stored ++ [id] }, heap }
      (movements ++ [.takenIn id]) where
  stored other := by
    have known := accounts.stored other
    rw [Movement.remains_append, ← known]
    dsimp only
    split
    · next held =>
      constructor
      · exact fun listed => .inr ⟨nofun, listed⟩
      · rintro (⟨⟨⟩⟩ | ⟨-, listed⟩)
        · exact held
        · exact listed
    · rw [List.mem_append, List.mem_singleton, Movement.takenIn.injEq]
      constructor
      · exact fun either => either.symm.imp Eq.symm fun listed => ⟨nofun, listed⟩
      · exact fun either => (either.imp Eq.symm And.right).symm
  once := by
    dsimp only
    split
    · exact accounts.once
    · next new =>
      refine List.nodup_append.2 ⟨accounts.once, List.nodup_singleton id, fun one listed other single => ?_⟩
      rintro rfl
      exact new (List.mem_singleton.1 single ▸ listed)
  removed := by
    rw [List.filterMap_append]
    exact accounts.removed.trans (List.append_nil _).symm
  faultless := accounts.faultless

private theorem giveUp (accounts : depot.Accounts movements) (id : ObjectId) :
    Accounts { depot with store := { depot.store with
        stored := depot.store.stored.filter (fun other => decide (other ≠ id))
        removed := depot.store.removed ++ [id] } } (movements ++ [.givenUp id]) where
  stored other := by
    rw [List.mem_filter, decide_eq_true_iff, accounts.stored, Movement.remains_append, ne_eq, ne_eq,
      Movement.givenUp.injEq]
    constructor
    · exact fun kept => .inr ⟨Ne.symm kept.2, kept.1⟩
    · rintro (⟨⟨⟩⟩ | kept)
      exact ⟨kept.2, Ne.symm kept.1⟩
  once := accounts.once.filter _
  removed := by
    rw [List.filterMap_append, ← accounts.removed]
    rfl
  faultless := accounts.faultless

private theorem persist (accounts : depot.Accounts movements) (id : ObjectId) {errand : Errand}
    (moves : ∀ answer, errand.movement? answer = (Errand.persist id).movement? answer) :
    (depot.persist id).2.Accounts (movements ++ (errand.movement? (depot.persist id).1).toList) := by
  rw [moves, Depot.persist]
  rcases run : depot.store.persist depot.heap id with error | ⟨store, heap⟩
  · exact accounts.of_same rfl rfl rfl
  · obtain ⟨rfl, rfl⟩ := EntityStore.persist_eq run
    exact accounts.takeIn id _

/-- Every errand keeps the account. -/
theorem run (accounts : depot.Accounts movements) (errand : Errand) :
    (depot.run errand).2.Accounts (movements ++ (errand.movement? (depot.run errand).1).toList) := by
  cases errand with
  | register entity => exact accounts.of_same rfl rfl rfl
  | persistNode node =>
    have allocated : Accounts { depot with heap := depot.heap.allocate node } movements :=
      ⟨accounts.stored, accounts.once, accounts.removed, accounts.faultless⟩
    refine allocated.persist depot.heap.fresh fun answer => ?_
    rcases answer with _ | _ | _ <;> rfl
  | persist id => exact accounts.persist id fun _ => rfl
  | setAttribute id name value => exact accounts.of_same rfl rfl rfl
  | find type identifier => exact accounts.of_same rfl rfl rfl
  | remove id =>
    rw [Depot.run]
    rcases run : depot.store.remove depot.heap id with error | store
    · exact accounts.of_same rfl rfl rfl
    · obtain rfl := EntityStore.remove_eq run
      exact accounts.giveUp id

end Depot.Accounts

/-- The account holds after any errands. -/
theorem Depot.accounts_history (heap : Heap) (errands : List Errand) :
    (history heap errands).1.Accounts (history heap errands).2 := by
  induction errands using List.reverseRecOn with
  | nil =>
    refine ⟨fun id => ⟨nofun, ?_⟩, List.nodup_nil, rfl, rfl⟩
    rintro ⟨before, after, split, -⟩
    cases before <;> cases split
  | append_singleton errands errand ih =>
    rw [history, List.foldl_append]
    exact ih.run errand

/-- An errand that fails leaves the store and every object as it is. -/
theorem Depot.run_of_error {depot : Depot} {errand : Errand} {error : StoreError}
    (failed : (depot.run errand).1 = .error error) : (depot.run errand).2.store = depot.store ∧
      ∀ id, depot.heap.Holds id → (depot.run errand).2.heap.node id = depot.heap.node id := by
  have persisting : ∀ {depot : Depot} {id : ObjectId}, (depot.persist id).1 = .error error →
      (depot.persist id).2 = depot := by
    intro depot id failed
    rw [persist] at failed ⊢
    rcases run : depot.store.persist depot.heap id with _ | _
    · rfl
    · rw [run] at failed
      cases failed
  cases errand with
  | register => cases failed
  | persistNode node =>
    rw [Depot.run, persisting failed]
    exact ⟨rfl, fun id held => Heap.node_allocate_of_holds held node⟩
  | persist id =>
    rw [Depot.run, persisting failed]
    exact ⟨rfl, fun _ _ => rfl⟩
  | setAttribute => cases failed
  | find => exact ⟨rfl, fun _ _ => rfl⟩
  | remove id =>
    rw [Depot.run] at failed ⊢
    rcases run : depot.store.remove depot.heap id with _ | _
    · exact ⟨rfl, fun _ _ => rfl⟩
    · rw [run] at failed
      cases failed

/-- After any errands a store holds, once each, the objects that it took in and did not give up since, and it
lists what it gave up. An errand that fails changes nothing. A look-up in a described type answers, with a held
object of the type that is identified so at that moment, or with nothing if there is none. -/
theorem Depot.holdings (heap : Heap) (errands : List Errand) :
    let depot := (history heap errands).1
    let movements := (history heap errands).2
    (∀ id, depot.store.contains id = true ↔ Movement.Remains movements id) ∧
    depot.store.size = { id | Movement.Remains movements id }.ncard ∧
    depot.store.removed = movements.filterMap Movement.givenUp? ∧
    (∀ errand error, (depot.run errand).1 = .error error → (depot.run errand).2.store = depot.store ∧
      ∀ id, depot.heap.Holds id → (depot.run errand).2.heap.node id = depot.heap.node id) ∧
    (∀ type identifier, depot.store.entity? type = none →
      (depot.run (.find type identifier)).1 = .error (.unmanagedType type)) ∧
    (∀ type identifier entity, depot.store.entity? type = some entity →
      ∃ found?, (depot.run (.find type identifier)).1 = .ok found? ∧
        (∀ id, found? = some id → depot.store.contains id = true ∧ (depot.heap.node id).type = type ∧
          (depot.heap.node id).attr entity.idProperty = identifier) ∧
        (found? = none → ∀ id, depot.store.contains id = true → (depot.heap.node id).type = type →
          (depot.heap.node id).attr entity.idProperty ≠ identifier)) := by
  intro depot movements
  have accounts : depot.Accounts movements := accounts_history heap errands
  have contained : ∀ id, depot.store.contains id = true ↔ id ∈ depot.store.stored :=
    fun id => List.contains_iff_mem
  have sound : depot.store.faults.get? .find = none := by
    rw [accounts.faultless]
    rfl
  refine ⟨fun id => (contained id).trans (accounts.stored id), ?_, accounts.removed,
    fun errand error failed => run_of_error failed,
    fun type identifier undescribed => EntityStore.find_of_undescribed sound undescribed identifier,
    fun type identifier entity described => ?_⟩
  · have same : { id | Movement.Remains movements id } = ↑depot.store.stored.toFinset := by
      ext id
      rw [Set.mem_ofPred_eq, ← accounts.stored, Finset.mem_coe, List.mem_toFinset]
    rw [same, Set.ncard_coe_finset, List.toFinset_card_of_nodup accounts.once]
    rfl
  · refine ⟨_, EntityStore.find_of_sound sound described identifier, fun id found => ?_,
      fun none id held type => ?_⟩
    · have matched : (depot.heap.node id).type = type ∧
          (depot.heap.node id).attr entity.idProperty = identifier := by
        simpa using List.find?_some found
      exact ⟨(contained id).2 (List.mem_of_find?_eq_some found), matched⟩
    · have unmatched := List.find?_eq_none.1 none id ((contained id).1 held)
      exact fun same => unmatched (decide_eq_true ⟨type, same⟩)

namespace Passports

def person (number : Int64) : Node := .bean ⟨"Person"⟩ [("id", .int number)]

/-- Two people get passports with one number, one of them twice, and one of the numbers is corrected. Then the
type gets another identifier, a nameless person is refused, and the first passport is given up. -/
def errands : List Errand := [
  .register { type := ⟨"Person"⟩, idProperty := "id" }, .persist ⟨0⟩, .persistNode (person 7), .persist ⟨0⟩,
  .setAttribute ⟨1⟩ "id" (.int 8), .setAttribute ⟨1⟩ "name" (.text "Ann"),
  .register { type := ⟨"Person"⟩, idProperty := "name" }, .persistNode (person 9), .remove ⟨0⟩]

/-- The second person remains, is found by the name and no longer by the number, and a refusal changes
nothing. -/
theorem ann_remains :
    let depot := (Depot.history ⟨#[person 7]⟩ errands).1
    (depot.store.contains ⟨1⟩ = true ∧ depot.store.size = 1 ∧ depot.store.removed = [⟨0⟩]) ∧
    ((depot.run (.find ⟨"Person"⟩ (.text "Ann"))).1 = .ok (some ⟨1⟩) ∧
      (depot.heap.node ⟨1⟩).attr "name" = .text "Ann") ∧
    ((depot.run (.find ⟨"Person"⟩ (.int 8))).1 = .ok none ∧ (depot.heap.node ⟨1⟩).attr "name" ≠ .int 8) ∧
    ((depot.run (.persist ⟨2⟩)).1 = .error (.missingIdentifier ⟨"Person"⟩) ∧
      (depot.run (.persist ⟨2⟩)).2.store = depot.store) := by
  intro depot
  have moved : (Depot.history ⟨#[person 7]⟩ errands).2 =
      [.takenIn ⟨0⟩, .takenIn ⟨1⟩, .takenIn ⟨0⟩, .givenUp ⟨0⟩] := by decide +kernel
  have described : depot.store.entity? ⟨"Person"⟩ = some { type := ⟨"Person"⟩, idProperty := "name" } := by
    decide +kernel
  have named : (depot.run (.find ⟨"Person"⟩ (.text "Ann"))).1 = .ok (some ⟨1⟩) := by decide +kernel
  have unnamed : (depot.run (.find ⟨"Person"⟩ (.int 8))).1 = .ok none := by decide +kernel
  have refused : (depot.run (.persist ⟨2⟩)).1 = .error (.missingIdentifier ⟨"Person"⟩) := by decide +kernel
  obtain ⟨held, -, removed, failing, -, finding⟩ := Depot.holdings ⟨#[person 7]⟩ errands
  have ann : depot.store.contains ⟨1⟩ = true :=
    (held ⟨1⟩).2 ⟨[.takenIn ⟨0⟩], [.takenIn ⟨0⟩, .givenUp ⟨0⟩], moved, by decide⟩
  obtain ⟨_, same, known, -⟩ := finding ⟨"Person"⟩ (.text "Ann") _ described
  obtain ⟨_, same', -, absent⟩ := finding ⟨"Person"⟩ (.int 8) _ described
  refine ⟨⟨ann, by decide +kernel, removed.trans (by rw [moved]; rfl)⟩, ⟨named, ?_⟩, ⟨unnamed, ?_⟩,
    refused, (failing (.persist ⟨2⟩) _ refused).1⟩
  · exact (known ⟨1⟩ (Except.ok.inj (same.symm.trans named))).2.2
  · exact absent (Except.ok.inj (same'.symm.trans unnamed)) ⟨1⟩ ann (by decide +kernel)

end Passports

end Reconciler
