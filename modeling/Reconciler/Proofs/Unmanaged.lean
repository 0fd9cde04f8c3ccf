import Mathlib.Data.Set.Function
import Reconciler.Proofs.Ancestry
import Reconciler.Proofs.Isomorphism
import Reconciler.Proofs.Rebuilding.Engine
import Reconciler.Proofs.SelfMerge

/-! # Applying an unmanaged graph

A graph without entities has nothing in the store that it could bring up to date. Applying it rebuilds its
containers and nothing else: each gets one new plain container with the images of its parts, in order, so what is
shared stays shared and what is cyclic stays cyclic. All other objects stand for themselves and are not entered. The
configuration does not matter, nor does the store, and no object changes that was there before.
-/

namespace Reconciler

open Reconciler.Action

/-- An object of an unmanaged graph. The handler of its type, if there is one, is that of its shape, so a bean has
none; and what is no container has no entity descriptor. -/
structure Unmanaged (world : World) (object : ObjectId) : Prop where
  held : world.heap.Holds object
  wellFormed : (world.heap.node object).WellFormed
  resolved : ∀ handler, world.dispatch.registry.resolve (world.heap.node object).type = some handler →
    (world.heap.node object).content.handler? = some handler
  undescribed : world.Inert object → world.store.entity? (world.heap.node object).type = none
  scalars : (world.heap.node object).hasScalarSlots = true →
    ∀ item ∈ (world.heap.node object).items, item.object? = none

namespace Unmanaged

variable {world : World} {object : ObjectId} {schema : Schema}

/-- A bean is unmanaged if its type has neither a handler nor an entity descriptor. -/
theorem of_bean (held : world.heap.Holds object) (bean : (world.heap.node object).isBean = true)
    (unhandled : world.dispatch.registry.resolve (world.heap.node object).type = none)
    (undescribed : world.store.entity? (world.heap.node object).type = none) : Unmanaged world object := by
  refine ⟨held, Node.wellFormed_of_isBean bean, fun handler found => ?_, fun _ => undescribed, fun scalar => ?_⟩
  · cases unhandled.symm.trans found
  · cases (Node.hasScalarSlots_of_isBean bean).symm.trans scalar

/-- A container of the type of its shape is unmanaged. Only of array types a schema might say otherwise. -/
theorem of_builtIn (defaults : world.dispatch.registry = .withDefaults schema) (held : world.heap.Holds object)
    (wellFormed : (world.heap.node object).WellFormed)
    (own : (world.heap.node object).shape? = some (world.heap.node object).type)
    (undeclared : (world.heap.node object).type.isArray = true → (world.heap.node object).type ∉ schema.names)
    (scalars : (world.heap.node object).hasScalarSlots = true →
      ∀ item ∈ (world.heap.node object).items, item.object? = none) : Unmanaged world object := by
  have handled := Handler.Registry.resolve_shape own fun array => schema.supertypes_of_isArray array (undeclared array)
  refine ⟨held, wellFormed, fun handler found => ?_, fun inert => ?_, scalars⟩
  · rw [← handled, ← defaults]
    exact found
  · have shapeless : (world.heap.node object).shape? = none := Content.shape?_of_handler? inert
    cases shapeless.symm.trans own

end Unmanaged

/-- What a value without entities comprises can be rebuilt. -/
theorem Unmanaged.rebuildable {world : World} {value : Value} {schema : Schema}
    (defaults : world.dispatch.registry = .withDefaults schema)
    (unmanaged : ∀ object, world.heap.Comprises value object → Unmanaged world object) :
    Rebuildable world.rested (world.heap.Comprises value) where
  scalar value plain handler found := by
    apply Handler.Registry.ofValue_scalar schema world.heap plain
    rw [← defaults]
    exact found
  held object inside := (unmanaged object inside).held
  handler?_eq object inside := by
    have resolved := (unmanaged object inside).resolved
    rw [defaults] at resolved
    show world.dispatch.registry.ofValue world.heap (.object object) = (world.heap.node object).content.handler?
    rw [defaults]
    exact Handler.Registry.ofValue_object schema (unmanaged object inside).wellFormed resolved
  undescribed object inside := (unmanaged object inside).undescribed
  distinct object inside := (unmanaged object inside).wellFormed.1
  scalars object inside := (unmanaged object inside).scalars
  closed object inside part listed := .member inside listed

/-- Everything that the value comprises was visited by the time it is applied. -/
theorem Returns.visited {setting : Setting} {source after : World} {value result : Value}
    (unvisited : source.visits = {})
    (returns : Returns setting source (source.heap.Comprises value) source value result after) {object : ObjectId}
    (inside : source.heap.Comprises value object) :
    after.visits.get? object = some (.object (after.copyOf object)) := by
  induction inside with
  | root same =>
    subst same
    exact returns.copied.object_eq.1
  | @member whole part _ held ih =>
    have container : ¬ source.Inert whole := fun inert => by
      rw [Node.members_of_shapeless (Content.shape?_of_handler? inert)] at held
      cases held
    have before : source.visits.get? whole = none := by rw [unvisited]; rfl
    have mirrors := (returns.rebuilds.mirrors whole _ (fun still => still.elim container id) before ih).2
    obtain ⟨image, copied⟩ := mirrors.content.exists_copied container (Node.mem_parts_of_members held)
    exact copied.object_eq.1

/-- Applying an unmanaged graph rebuilds its containers and nothing else. -/
theorem Setting.apply_unmanaged {setting : Setting} {world : World} {value : Value} {schema : Schema}
    (defaults : world.dispatch.registry = .withDefaults schema)
    (unmanaged : ∀ object, world.heap.Comprises value object → Unmanaged world object) :
    ∃ result after rename, setting.apply value world = (.ok result, after) ∧
      result = value.renamed rename ∧
      (∀ object, world.heap.Comprises value object → world.Inert object → rename object = object) ∧
      Set.BijOn rename { object | world.heap.Comprises value object ∧ ¬ world.Inert object }
        { object | ¬ world.heap.Holds object ∧ after.heap.Holds object } ∧
      (∀ object, world.heap.Comprises value object → ¬ world.Inert object →
        after.heap.node (rename object) = (world.heap.node object).clone [] (Value.renamed rename)) ∧
      (∀ object, world.heap.Holds object → after.heap.node object = world.heap.node object) ∧
      after.store = world.store := by
  obtain ⟨result, after, run, returns⟩ :=
    setting.exists_apply (Unmanaged.rebuildable defaults unmanaged) fun object same => .root same
  have rebuilding := returns.rebuilding
  have visited : ∀ object, world.heap.Comprises value object →
      after.visits.get? object = some (.object (after.copyOf object)) :=
    fun object inside => returns.visited rfl inside
  refine ⟨result, after, after.copyOf, run, returns.copied.eq_renamed, ?_, ⟨?_, ?_, ?_⟩, ?_, ?_, ?_⟩
  · exact fun object inside inert => (rebuilding.replaces (visited object inside)).same inert
  · rintro object ⟨inside, container⟩
    exact ⟨(rebuilding.replaces (visited object inside)).new container,
      rebuilding.held_of_visited (visited object inside)⟩
  · rintro left ⟨first, -⟩ right ⟨second, -⟩ same
    exact rebuilding.injective _ _ _ (visited left first) (same ▸ visited right second)
  · rintro copy ⟨new, held⟩
    obtain ⟨object, known⟩ := rebuilding.recorded copy new held
    have inside := rebuilding.member_of known
    have container : ¬ world.Inert object := by
      intro inert
      obtain rfl := (rebuilding.replaces known).same inert
      exact new (unmanaged copy inside).held
    exact ⟨object, ⟨inside, container⟩, World.copyOf_eq known⟩
  · intro object inside container
    have mirrors := (returns.rebuilds.mirrors object _ (fun still => still.elim container id) rfl
      (visited object inside)).2
    exact mirrors.node_eq_of_handled container
  · exact rebuilding.kept
  · exact rebuilding.store

namespace Trays

def schema : Schema := ⟨[{ name := ⟨"Stamp"⟩, properties := .ofList [("prints", .field)] }]⟩

/-- A list that holds itself, a set that holds the list, two arrays and a stamp twice. The map is reached from an array
only, and the list that the stamp refers to is not reached at all. -/
def heap : Heap := ⟨#[
  .list [.object ⟨0⟩, .object ⟨1⟩, .object ⟨5⟩, .null, .object ⟨3⟩, .object ⟨4⟩, .object ⟨5⟩],
  .set [.object ⟨0⟩, .text "blue", .object ⟨5⟩],
  .map [(.object ⟨5⟩, .object ⟨1⟩), (.object ⟨2⟩, .int 4)],
  .array ⟨"Stamp"⟩ [.object ⟨5⟩, .null, .object ⟨2⟩],
  .array .int [.int 1, .null],
  .bean ⟨"Stamp"⟩ [("prints", .object ⟨6⟩)],
  .list [.int 7]]⟩

/-- No operation of the store works. -/
def world : World where
  heap
  store :=
    { entities := .ofList [(⟨"Album"⟩, { type := ⟨"Album"⟩, idProperty := "id" })]
      faults := .ofList ([StoreOperation.find, .identifier, .flush, .remove].map fun operation =>
        (operation, .backend "offline")) }
  dispatch := .ofRegistry (.withDefaults schema)
  cache := .ofSchema schema

def setting : Setting := { schema, config := { cloneObjects := true, deleteRemoved := true } }

private theorem comprises {object : ObjectId} (inside : world.heap.Comprises (.object ⟨0⟩) object) :
    object = ⟨5⟩ ∨ object ∈ [(⟨0⟩ : ObjectId), ⟨1⟩, ⟨2⟩, ⟨3⟩, ⟨4⟩] := by
  have closed : ∀ object ∈ [(⟨5⟩ : ObjectId), ⟨0⟩, ⟨1⟩, ⟨2⟩, ⟨3⟩, ⟨4⟩],
      ∀ value ∈ (world.heap.node object).members, ∀ part, value.object? = some part →
        part ∈ [(⟨5⟩ : ObjectId), ⟨0⟩, ⟨1⟩, ⟨2⟩, ⟨3⟩, ⟨4⟩] := by
    decide +kernel
  rw [← List.mem_cons]
  induction inside with
  | root same =>
    cases same
    decide
  | member _ held ih => exact closed _ ih _ held _ rfl

private theorem wellFormed {object : ObjectId} (listed : object ∈ [(⟨0⟩ : ObjectId), ⟨1⟩, ⟨2⟩, ⟨3⟩, ⟨4⟩]) :
    (world.heap.node object).WellFormed := by
  simp only [List.mem_cons, List.not_mem_nil, or_false] at listed
  rcases listed with rfl | rfl | rfl | rfl | rfl
  · exact ⟨trivial, fun _ _ => nofun⟩
  · exact ⟨by show List.Nodup _; decide +kernel, fun _ _ => nofun⟩
  · exact ⟨by show List.Nodup _; decide +kernel, fun _ _ => nofun⟩
  · exact ⟨trivial, fun _ _ same => by cases same; rfl⟩
  · exact ⟨trivial, fun _ _ same => by cases same; rfl⟩

private theorem unmanaged {object : ObjectId} (inside : world.heap.Comprises (.object ⟨0⟩) object) :
    Unmanaged world object := by
  rcases comprises inside with rfl | listed
  · exact .of_bean (by decide +kernel) (by decide +kernel) (by decide +kernel) (by decide +kernel)
  · have containers : ∀ object ∈ [(⟨0⟩ : ObjectId), ⟨1⟩, ⟨2⟩, ⟨3⟩, ⟨4⟩], world.heap.Holds object ∧
        (world.heap.node object).shape? = some (world.heap.node object).type ∧
        (world.heap.node object).type ∉ schema.names ∧
        ((world.heap.node object).hasScalarSlots = true →
          ∀ item ∈ (world.heap.node object).items, item.object? = none) := by
      decide +kernel
    obtain ⟨held, own, undeclared, scalars⟩ := containers object listed
    exact .of_builtIn rfl held (wellFormed listed) own (fun _ => undeclared) scalars

/-- The five containers of the tray are rebuilt around the stamp. -/
theorem tray_rebuilt : ∃ result after rename, setting.apply (.object ⟨0⟩) world = (.ok result, after) ∧
    result = (Value.object ⟨0⟩).renamed rename ∧
    (∀ object, world.heap.Comprises (.object ⟨0⟩) object → world.Inert object → rename object = object) ∧
    Set.BijOn rename { object | world.heap.Comprises (.object ⟨0⟩) object ∧ ¬ world.Inert object }
      { object | ¬ world.heap.Holds object ∧ after.heap.Holds object } ∧
    (∀ object, world.heap.Comprises (.object ⟨0⟩) object → ¬ world.Inert object →
      after.heap.node (rename object) = (world.heap.node object).clone [] (Value.renamed rename)) ∧
    (∀ object, world.heap.Holds object → after.heap.node object = world.heap.node object) ∧
    after.store = world.store :=
  Setting.apply_unmanaged (by rfl) fun _ => unmanaged

end Trays

end Reconciler
