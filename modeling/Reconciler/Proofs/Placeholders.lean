import Reconciler.Proofs.RoundTrip

/-! # Placeholders that come back

A clone leaves out what is not loaded, so its copies have nothing to bring back for it. Under a property that is
settled on the way out: the copy holds null or an empty container there, and neither touches the placeholder. Inside
a container an unloaded collection or map is copied as an empty one. That finds its way back from an array slot or
from under the key of a map, and is then left alone. An element has to be told by its identifier, and an
unloaded entity refuses to be brought up to date: such placeholders do not come back.
-/

namespace Reconciler

open Reconciler.Action

/-- What a run copies from an object: what the properties of a copied bean hold, if it is loaded, and what a
copied container holds. -/
inductive Setting.Copies (setting : Setting) (world : World) (root : ObjectId) : ObjectId → Prop
  | root : Copies setting world root root
  | part {id part : ObjectId} (copied : Copies setting world root id)
      (listed : .object part ∈ world.partsOf setting id)
      (taken : (world.heap.node id).isBean = true → (world.heap.node part).origin.isLoaded = true) :
      Copies setting world root part

/-- A part of what is copied is copied as well, or is an unloaded property value. -/
theorem Setting.Copies.closed {setting : Setting} {world : World} {root : ObjectId} :
    ∀ id, setting.Copies world root id → ∀ part, .object part ∈ world.partsOf setting id →
      setting.Copies world root part ∨
        (world.heap.node id).isBean = true ∧ (world.heap.node part).origin.isLoaded = false := by
  intro id copied part listed
  by_cases left : (world.heap.node id).isBean = true ∧ (world.heap.node part).origin.isLoaded = false
  · exact .inr left
  · refine .inl (.part copied listed fun bean => ?_)
    rw [not_and, Bool.not_eq_false] at left
    exact left bean

section Unedited

variable {setting : Setting} {world cloned : World} {root : ObjectId} {schema : Schema}
  {origin : ObjectId → ObjectId} (clones : setting.config.cloneObjects = true)
  (defaults : world.dispatch.registry = .withDefaults schema)
  (sound : ∀ operation, world.Serves operation)
  (returnable : ∀ id, setting.Copies world root id → Returnable setting world id)
  (cloning : Cloning world.rested (setting.Copies world root) origin cloned)
  (mirrors : ∀ id copy, cloned.visits.get? id = some (.object copy) →
    Mirrors setting world.rested origin cloned id copy)

/-- The loan of a graph whose clone comes back as it went. -/
def Loan.unedited : Loan setting where
  source := world.rested
  member := setting.Copies world root
  origin := origin
  cloned := cloned
  start := cloned.rested
  cloneable := Returnable.cloneable clones defaults (sound .flush) returnable Setting.Copies.closed
  traceable id copied := (returnable id copied).rested
  lazy _ copied _ := Returnable.handler?_of_unloaded clones defaults (sound .flush) returnable
    Setting.Copies.closed copied
  sound := World.serves_rested sound
  cloning := cloning
  mirrors := mirrors
  rested := rfl
  size_eq := rfl
  kept _ old := cloning.kept _ old
  retained _ := .refl _
  overwritten _ _ _ _ := .inl rfl
  registry := cloning.registry
  schema := cloning.schema
  store := rfl
  outages := rfl

/-- Nothing is awaited that is not there. -/
theorem Loan.awaited_unedited (id : ObjectId) (name : String) :
    (Loan.unedited clones defaults sound returnable cloning mirrors).awaited id name =
      (world.heap.node id).attr name := by
  rcases lent : cloned.visits.get? id with _ | target
  · exact awaited_of_not_lent lent name
  · obtain ⟨-, copy, rfl, -⟩ := cloning.visited id target lent
    exact awaited_of_kept lent rfl

end Unedited

/-- The clone of a stored entity is taken back, and everything stays as it was, placeholders included. Unloaded
collections and maps may stand in array slots and under the keys of maps, and under properties anything may. -/
theorem Setting.placeholders_kept {setting : Setting} {world : World} {root : ObjectId} {schema : Schema}
    {entity : Entity} (clones : setting.config.cloneObjects = true)
    (defaults : world.dispatch.registry = .withDefaults schema)
    (sound : ∀ operation, world.Serves operation)
    (stored : ∀ id ∈ world.store.stored, world.heap.Holds id)
    (returnable : ∀ id, setting.Copies world root id → Returnable setting world id)
    (managed : world.store.entity? (world.heap.node root).type = some entity)
    (scalar : ((world.heap.node root).attr entity.idProperty).object? = none)
    (found : world.store.find world.heap (world.heap.node root).type
      ((world.heap.node root).attr entity.idProperty) = .ok (some root)) :
    ∃ copy cloned after, setting.disconnect (.object root) world = (.ok (.object copy), cloned) ∧
      setting.apply (.object copy) cloned = (.ok (.object root), after) ∧
      after.store = { world.store with flushes := cloned.store.flushes } ∧
      ∀ id, world.heap.Holds id → after.heap.node id = world.heap.node id := by
  have cloneable := Returnable.cloneable clones defaults (sound .flush) returnable Setting.Copies.closed
  obtain ⟨result, cloned, origin, run, cloning, mirrors, copied⟩ :=
    Setting.exists_disconnect cloneable fun id (same : Value.object root = .object id) => by
      cases same
      exact .root
  obtain ⟨begun, rfl⟩ := copied.object_eq
  let loan := Loan.unedited clones defaults sound returnable cloning mirrors
  obtain ⟨after, applied, advances, -⟩ :=
    loan.exists_advances begun stored managed scalar found
  refine ⟨cloned.copyOf root, cloned, after, run, applied, advances.returning.store.trans cloning.store, ?_⟩
  intro id old
  refine advances.returning.unchanged id old fun name => ?_
  exact Loan.awaited_unedited clones defaults sound returnable cloning mirrors id name

namespace Shelves

def schema : Schema :=
  ⟨[{ name := ⟨"Team"⟩, properties := .ofList [("id", .field), ("captain", .field), ("boards", .field),
      ("shelves", .field)] },
    { name := ⟨"Person"⟩, properties := .ofList [("id", .field)] }]⟩

def setting : Setting := { schema, config := { cloneObjects := true } }

def team : Entity := { type := ⟨"Team"⟩, idProperty := "id" }

/-- A stored team with the given objects behind it. -/
def world (boards shelves : Value) (nodes : List Node) : World where
  heap := ⟨({ Node.bean ⟨"Team"⟩ [("id", .int 1), ("captain", .object ⟨1⟩), ("boards", boards),
      ("shelves", shelves)] with origin := .stored } :: .placeholder ⟨"Person"⟩ :: nodes).toArray⟩
  store :=
    { entities := .ofList [(⟨"Team"⟩, team), (⟨"Person"⟩, { type := ⟨"Person"⟩, idProperty := "id" })]
      stored := [⟨0⟩] }
  dispatch := .ofRegistry (.withDefaults schema)
  cache := .ofSchema schema

/-- The captain is unread, a list of the boards is, and so is a map on the shelves. -/
def unread : World :=
  world (.object ⟨2⟩) (.object ⟨3⟩) [.map [(.int 1, .object ⟨4⟩)], .array ⟨"Map"⟩ [.object ⟨5⟩],
    .lazyCollection .list, .lazyMap]

private theorem copies {id : ObjectId} (copied : setting.Copies unread ⟨0⟩ id) :
    id ∈ [(⟨0⟩ : ObjectId), ⟨2⟩, ⟨3⟩, ⟨4⟩, ⟨5⟩] := by
  have closed : ∀ id ∈ [(⟨0⟩ : ObjectId), ⟨2⟩, ⟨3⟩, ⟨4⟩, ⟨5⟩], ∀ value ∈ unread.partsOf setting id,
      ∀ part, value.object? = some part →
        ((unread.heap.node id).isBean = true → (unread.heap.node part).origin.isLoaded = true) →
        part ∈ [(⟨0⟩ : ObjectId), ⟨2⟩, ⟨3⟩, ⟨4⟩, ⟨5⟩] := by
    decide +kernel
  induction copied with
  | root => decide
  | part _ listed taken ih => exact closed _ ih _ listed _ rfl taken

/-- The team is told by its number, and has no version. -/
theorem identified :
    Identified setting unread ⟨0⟩ team { type := ⟨"Team"⟩, properties := schema.properties ⟨"Team"⟩ } := by
  have declared : schema.metadata? ⟨"Team"⟩ =
      some { type := ⟨"Team"⟩, properties := schema.properties ⟨"Team"⟩ } := rfl
  have fields : schema.AllFields := by
    intro decl listed
    simp only [schema, List.mem_cons, List.not_mem_nil, or_false] at listed
    rcases listed with rfl | rfl <;>
      exact OrderedMap.forall_ofList (fun access : Access => access = .field) (by simp)
  refine ⟨by decide +kernel, declared, fields.metadata? declared, by decide +kernel, by decide +kernel, ?_⟩
  rintro _ ⟨⟩

private theorem wellFormed : ∀ id ∈ [(⟨0⟩ : ObjectId), ⟨1⟩, ⟨2⟩, ⟨3⟩, ⟨4⟩, ⟨5⟩], (unread.heap.node id).WellFormed := by
  intro id listed
  simp only [List.mem_cons, List.not_mem_nil, or_false] at listed
  rcases listed with rfl | rfl | rfl | rfl | rfl | rfl
  · exact ⟨trivial, fun component slots same => by cases same⟩
  · exact ⟨trivial, fun component slots same => by cases same⟩
  · exact ⟨by show List.Nodup _; decide +kernel, fun component slots same => by cases same⟩
  · exact ⟨trivial, fun component slots same => by cases same; rfl⟩
  · exact ⟨trivial, fun component slots same => by cases same⟩
  · exact ⟨by show List.Nodup _; decide +kernel, fun component slots same => by cases same⟩

private theorem traceable {id : ObjectId} (copied : setting.Copies unread ⟨0⟩ id) : Traceable setting unread id := by
  have facts : ∀ id ∈ [(⟨0⟩ : ObjectId), ⟨2⟩, ⟨3⟩, ⟨4⟩, ⟨5⟩], (unread.heap.node id).content ≠ .sealed ∧
      ((unread.heap.node id).isBean = false → unread.store.entity? (unread.heap.node id).type = none) ∧
      ((unread.heap.node id).isBean = true → id = ⟨0⟩) ∧
      ((unread.heap.node id).isContainer = true → (unread.heap.node id).items = []) ∧
      ∀ entry ∈ (unread.heap.node id).bindings, entry.1 = .int 1 ∧ entry.2 = .object ⟨4⟩ := by
    decide +kernel
  have board : (setting.schema.equality? (unread.heap.node ⟨4⟩).type).isNone = true ∧
      unread.store.entity? (unread.heap.node ⟨4⟩).type = none := by decide +kernel
  obtain ⟨inspected, unmanaged, bean, elements, entries⟩ := facts id (copies copied)
  refine ⟨fun isBean => ?_, unmanaged, inspected, ?_, ?_, ?_⟩
  · obtain rfl := bean isBean
    exact ⟨_, _, identified⟩
  · intro kind found content part listed
    have none := elements (by rw [Node.isContainer, content])
    rw [Node.items_of_collection content] at none
    rw [none] at listed
    cases listed
  · intro found content entry listed part same
    rw [← Node.bindings_of_map content] at listed
    cases same.symm.trans (entries entry listed).1
  · intro found content entry listed part same
    rw [← Node.bindings_of_map content] at listed
    cases same.symm.trans (entries entry listed).2
    refine ⟨⟨Option.isNone_iff_eq_none.1 board.1, fun entity known => ?_⟩, fun null => ?_⟩
    · cases board.2.symm.trans known
    · cases null.symm.trans (entries entry listed).1

private theorem returnable {id : ObjectId} (copied : setting.Copies unread ⟨0⟩ id) : Returnable setting unread id := by
  have facts : ∀ id ∈ [(⟨0⟩ : ObjectId), ⟨2⟩, ⟨3⟩, ⟨4⟩, ⟨5⟩], unread.heap.Holds id ∧
      id ∈ [(⟨0⟩ : ObjectId), ⟨1⟩, ⟨2⟩, ⟨3⟩, ⟨4⟩, ⟨5⟩] ∧
      ((unread.heap.node id).origin.isLoaded = true ∨ (unread.heap.node id).origin.isLoaded = false ∧
        (unread.heap.node id).isContainer = true ∧ (unread.heap.node id).parts = []) ∧
      (∀ handler, unread.dispatch.registry.resolve (unread.heap.node id).type = some handler →
        (unread.heap.node id).content.handler? = some handler) ∧ (unread.heap.node id).hasScalarSlots = false := by
    decide +kernel
  have parts : ∀ value ∈ unread.partsOf setting ⟨0⟩, ∀ part, value.object? = some part →
      (unread.heap.node part).origin.isLoaded = false → unread.heap.Holds part ∧
        part ∈ [(⟨0⟩ : ObjectId), ⟨1⟩, ⟨2⟩, ⟨3⟩, ⟨4⟩, ⟨5⟩] ∧ (unread.heap.node part).isContainer = false := by
    decide +kernel
  have alone : ∀ id ∈ [(⟨0⟩ : ObjectId), ⟨2⟩, ⟨3⟩, ⟨4⟩, ⟨5⟩], (unread.heap.node id).isBean = true → id = ⟨0⟩ := by
    decide +kernel
  obtain ⟨held, listed, loaded, resolved, objects⟩ := facts id (copies copied)
  refine ⟨traceable copied, held, wellFormed id listed, ?_, resolved,
    fun scalar => absurd (objects.symm.trans scalar) Bool.false_ne_true, fun bean part known unloaded => ?_⟩
  · exact loaded.imp_right fun ⟨unloaded, container, empty⟩ => ⟨unloaded, container, empty⟩
  · obtain rfl := alone id (copies copied) bean
    obtain ⟨held, listed, other⟩ := parts _ known part rfl unloaded
    exact ⟨held, wellFormed part listed, fun container => by cases other.symm.trans container⟩

/-- The unread list of boards and the unread map on the shelves are still there, and still unread. -/
theorem unread_kept :
    ∃ copy cloned after, setting.disconnect (.object ⟨0⟩) unread = (.ok (.object copy), cloned) ∧
      setting.apply (.object copy) cloned = (.ok (.object ⟨0⟩), after) ∧
      (after.heap.node ⟨2⟩).bindings = [(.int 1, .object ⟨4⟩)] ∧ (after.heap.node ⟨3⟩).items = [.object ⟨5⟩] ∧
      (after.heap.node ⟨4⟩).origin.isLoaded = false ∧ (after.heap.node ⟨5⟩).origin.isLoaded = false := by
  have stored : ∀ id ∈ unread.store.stored, unread.heap.Holds id := by decide +kernel
  have managed : unread.store.entity? (unread.heap.node ⟨0⟩).type = some team := by decide +kernel
  have scalar : ((unread.heap.node ⟨0⟩).attr team.idProperty).object? = none := by decide +kernel
  have found : unread.store.find unread.heap (unread.heap.node ⟨0⟩).type
      ((unread.heap.node ⟨0⟩).attr team.idProperty) = .ok (some ⟨0⟩) := by rfl
  have defaults : unread.dispatch.registry = .withDefaults schema := rfl
  obtain ⟨copy, cloned, after, out, back, -, same⟩ :=
    Setting.placeholders_kept rfl defaults (fun _ => ⟨rfl, rfl⟩) stored (fun _ => returnable) managed scalar found
  refine ⟨copy, cloned, after, out, back, ?_⟩
  rw [same ⟨2⟩ (by decide), same ⟨3⟩ (by decide), same ⟨4⟩ (by decide), same ⟨5⟩ (by decide)]
  decide +kernel

/-- The boards are a list of one unread object. -/
def listed (board : Node) : World := world (.object ⟨2⟩) .null [.list [.object ⟨3⟩], board]

/-- A person who is known by number but not loaded. -/
def stranger : Node := { Node.bean ⟨"Person"⟩ [("id", .int 7)] with origin := .unloadedProxy }

/-- What the untouched round trip of the team ends with, and what stands in its boards afterwards. -/
def roundTrip (world : World) : Option (Except Ending Value × List Value) :=
  match setting.disconnect (.object ⟨0⟩) world with
  | (.ok copy, cloned) =>
      let (outcome, after) := setting.apply copy cloned
      some (outcome, (after.heap.node ⟨2⟩).items)
  | _ => none

/-- A placeholder that is an element does not come back: that of an entity ends the run, with or without a number,
and that of a list is replaced. In the slot of an array that of an entity ends the run, too. -/
theorem listed_lost :
    (roundTrip (listed (.placeholder ⟨"Person"⟩))).map Prod.fst =
        some (.error (.failed (.unsavedTransient ⟨"Person"⟩))) ∧
      (roundTrip (listed stranger)).map Prod.fst =
        some (.error (.failed (.uninitialized ⟨"Person"⟩ (.entity (.int 7))))) ∧
      roundTrip (listed (.lazyCollection .list)) = some (.ok (.object ⟨0⟩), [.object ⟨7⟩]) ∧
      (roundTrip (world (.object ⟨2⟩) .null [.array ⟨"Person"⟩ [.object ⟨3⟩], stranger])).map Prod.fst =
        some (.error (.failed (.uninitialized ⟨"Person"⟩ (.entity (.int 7))))) := by
  refine ⟨by decide +kernel, by decide +kernel, by decide +kernel, by decide +kernel⟩

end Shelves

end Reconciler
