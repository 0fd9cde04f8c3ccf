import Mathlib.Order.Defs.Unbundled
import Mathlib.Order.Lattice.Nat
import Reconciler.Proofs.Routes
import Reconciler.Proofs.Validation

/-! # The supertypes of a type

In a schema that was built no type inherits from itself, the built-in ones and those that nobody declares
included. So subtyping is a partial order. The supertypes of a type are its ancestors, each once. An ancestor
that is fewer steps away comes first.
-/

namespace Reconciler.Schema

open FiniteGraph (Earlier)

/-- Declarations of different names, none of them built in, in which no type inherits from itself. -/
structure Acyclic (schema : Schema) : Prop extends schema.Proper where
  irrefl : ∀ type, ¬ schema.Inherits type type

/-- An ancestor that so many steps lead to, each from a type to one of its parents. -/
inductive Climbs (schema : Schema) : Nat → TypeName → TypeName → Prop
  | stay (type : TypeName) : Climbs schema 0 type type
  | climb {count : Nat} {type middle super : TypeName} (below : Climbs schema count type middle)
      (last : schema.Extends middle super) : Climbs schema (count + 1) type super

/-- The least number of steps to an ancestor. -/
noncomputable def distance (schema : Schema) (type super : TypeName) : Nat :=
  sInf {count | schema.Climbs count type super}

variable {schema : Schema}

namespace Proper

variable (proper : schema.Proper)

include proper

/-- Collections have no parents. -/
theorem not_extends_collection {super : TypeName} : ¬ schema.Extends .collection super := by
  rw [proper.extends_iff, parents, find?_eq_none (proper.not_mem_names (by decide))]
  exact List.not_mem_nil

/-- Built-in types do not inherit from themselves, nor do types that nobody declares. -/
theorem mem_names_of_inherits_self {type : TypeName} (cyclic : schema.Inherits type type) : type ∈ schema.names := by
  obtain ⟨parent, extended, onward⟩ := Relation.TransGen.head'_iff.1 cyclic
  cases extended with
  | declared declared listed => exact mem_names declared
  | list | set =>
    exfalso
    rcases Relation.ReflTransGen.cases_head onward with same | ⟨super, extended, -⟩
    · exact absurd same (by decide)
    · exact proper.not_extends_collection extended

/-- A walk from the parents of a type comes to its ancestors, step by step. -/
theorem exists_route_iff {type super : TypeName} {count : Nat} :
    (∃ route, schema.hierarchy.Route (schema.parents type) route super ∧ route.length = count + 1) ↔
      schema.Climbs (count + 1) type super := by
  constructor
  · rintro ⟨route, walk, length⟩
    induction walk generalizing count with
    | root at_position =>
      obtain rfl := Nat.succ.inj length
      exact .climb (.stay type) (proper.extends_iff.2 (List.mem_of_getElem? at_position))
    | @link route node position successor before at_position ih =>
      have extended := proper.extends_iff.2 (List.mem_of_getElem? at_position)
      rw [List.length_append, List.length_singleton, Nat.add_right_cancel_iff] at length
      obtain ⟨shorter, proceeds⟩ := before.exists_length_eq
      obtain rfl := length.symm.trans proceeds
      exact .climb (ih proceeds) extended
  · intro climbs
    induction count generalizing super with
    | zero =>
      cases climbs with
      | climb below last =>
        cases below
        obtain ⟨position, at_position⟩ := List.getElem?_of_mem (proper.extends_iff.1 last)
        exact ⟨[position], .root at_position, rfl⟩
    | succ count ih =>
      cases climbs with
      | climb below last =>
        obtain ⟨route, walk, length⟩ := ih below
        obtain ⟨position, at_position⟩ := List.getElem?_of_mem (proper.extends_iff.1 last)
        exact ⟨route ++ [position], walk.link at_position, by simp [length]⟩

end Proper

/-- An ancestor is a step or more away. -/
theorem inherits_iff_exists_climbs {type super : TypeName} :
    schema.Inherits type super ↔ ∃ count, schema.Climbs (count + 1) type super := by
  constructor
  · intro inherits
    induction inherits with
    | single extended => exact ⟨0, .climb (.stay type) extended⟩
    | tail _ extended ih =>
      obtain ⟨count, climbs⟩ := ih
      exact ⟨count + 1, .climb climbs extended⟩
  · rintro ⟨count, climbs⟩
    induction count generalizing super with
    | zero =>
      cases climbs with
      | climb below last =>
        cases below
        exact .single last
    | succ count ih =>
      cases climbs with
      | climb below last => exact (ih below).tail last

namespace Acyclic

variable (acyclic : schema.Acyclic)

include acyclic

theorem not_mem_supertypes_self (type : TypeName) : type ∉ schema.supertypes type :=
  fun listed => acyclic.irrefl type (acyclic.mem_supertypes.1 listed)

/-- A shortest way to an ancestor. -/
theorem exists_climbs_distance {type super : TypeName} (inherits : schema.Inherits type super) :
    ∃ count, schema.distance type super = count + 1 ∧ schema.Climbs (count + 1) type super := by
  obtain ⟨_, climbs⟩ := inherits_iff_exists_climbs.1 inherits
  have shortest : schema.distance type super ∈ {count | schema.Climbs count type super} := Nat.sInf_mem ⟨_, climbs⟩
  rcases steps : schema.distance type super with _ | count <;> rw [steps, Set.mem_ofPred_eq] at shortest
  · cases shortest
    exact absurd inherits (acyclic.irrefl type)
  · exact ⟨count, rfl, shortest⟩

/-- No route to an ancestor is shorter than its distance. -/
theorem distance_le_length {type super : TypeName} {route : List Nat}
    (walk : schema.hierarchy.Route (schema.parents type) route super) : schema.distance type super ≤ route.length := by
  obtain ⟨count, length⟩ := walk.exists_length_eq
  rw [length]
  exact Nat.sInf_le (acyclic.exists_route_iff.1 ⟨route, walk, length⟩)

/-- Some route to an ancestor is as long as its distance. -/
theorem exists_route_distance {type super : TypeName} (inherits : schema.Inherits type super) :
    ∃ route, schema.hierarchy.Route (schema.parents type) route super ∧
      route.length = schema.distance type super := by
  obtain ⟨count, steps, climbs⟩ := acyclic.exists_climbs_distance inherits
  rw [steps]
  exact acyclic.exists_route_iff.2 climbs

/-- An ancestor with an earlier route is no farther away. -/
theorem distance_le_of_ahead {type near far : TypeName}
    (ahead : schema.hierarchy.Ahead (schema.parents type) near far) (inherits : schema.Inherits type far) :
    schema.distance type near ≤ schema.distance type far := by
  obtain ⟨route, walk, earliest⟩ := ahead
  obtain ⟨other, onward, length⟩ := acyclic.exists_route_distance inherits
  calc schema.distance type near ≤ route.length := acyclic.distance_le_length walk
    _ ≤ other.length := (earliest other onward).length_le
    _ = schema.distance type far := length

/-- The supertypes of a type come in the order of their distances. -/
theorem pairwise_distance (type : TypeName) :
    (schema.supertypes type).Pairwise fun near far => schema.distance type near ≤ schema.distance type far := by
  refine (FiniteGraph.pairwise_breadthFirst schema.hierarchy (schema.parents type)).imp_of_mem ?_
  intro near far _ listed ahead
  exact acyclic.distance_le_of_ahead ahead (acyclic.mem_supertypes.1 listed)

/-- Without cycles, subtyping is a partial order. -/
theorem isPartialOrder : IsPartialOrder TypeName fun sub super => schema.isSubtype sub super = true where
  refl type := acyclic.isSubtype_iff.2 (.inl rfl)
  trans sub middle super lower upper := by
    rcases acyclic.isSubtype_iff.1 lower with rfl | below
    · exact upper
    · rcases acyclic.isSubtype_iff.1 upper with rfl | above
      · exact lower
      · exact acyclic.isSubtype_iff.2 (.inr (Relation.TransGen.trans below above))
  antisymm sub super lower upper := by
    rcases acyclic.isSubtype_iff.1 lower with same | below
    · exact same
    · rcases acyclic.isSubtype_iff.1 upper with same | above
      · exact same.symm
      · exact absurd (Relation.TransGen.trans below above) (acyclic.irrefl sub)

end Acyclic

namespace Draft

/-- A draft in which no check finds anything becomes a schema. -/
theorem build_eq_ok {draft : Draft} (known : draft.unknownParent? = none) (acyclic : draft.cyclic? = none) :
    draft.build = .ok ⟨draft.types⟩ := by
  rw [build, known, acyclic]
  rfl

/-- A schema that was built has no cycles, whatever was attempted before. -/
theorem acyclic_of_build {decls : List TypeDecl} (built : (afterAttempts decls).build = .ok schema) :
    schema.Acyclic := by
  have proper : (afterAttempts decls).asSchema.Proper := proper_afterAttempts decls
  obtain ⟨rfl, sound⟩ := (build_eq_ok_iff proper).1 built
  refine ⟨proper, fun type cyclic => ?_⟩
  obtain ⟨decl, declared, rfl⟩ := List.mem_map.1 (proper.mem_names_of_inherits_self cyclic)
  exact sound.acyclic decl declared cyclic

/-- In a schema that was built, the supertypes of any type are its ancestors, each once and nearest first. A type is a
subtype of itself and of its ancestors, and that is a partial order. -/
theorem supertypes_exact {decls : List TypeDecl} (built : (afterAttempts decls).build = .ok schema) :
    (∀ type, (∀ super, super ∈ schema.supertypes type ↔ schema.Inherits type super) ∧
      (schema.supertypes type).Nodup ∧ type ∉ schema.supertypes type ∧
      (schema.supertypes type).Pairwise fun near far => schema.distance type near ≤ schema.distance type far) ∧
    (∀ sub super, schema.isSubtype sub super = true ↔ sub = super ∨ schema.Inherits sub super) ∧
    IsPartialOrder TypeName fun sub super => schema.isSubtype sub super = true := by
  have acyclic := acyclic_of_build built
  refine ⟨fun type => ⟨fun super => acyclic.mem_supertypes, ?_, ?_, ?_⟩, fun sub super => ?_, acyclic.isPartialOrder⟩
  · exact FiniteGraph.nodup_breadthFirst _ _
  · exact acyclic.not_mem_supertypes_self type
  · exact acyclic.pairwise_distance type
  · exact acyclic.isSubtype_iff

namespace Playlists

/-- A mix is a playlist by a short way and by a long one. -/
def decls : List TypeDecl :=
  [{ name := ⟨"Playlist"⟩, parents := [⟨"list"⟩] }, { name := ⟨"Album"⟩, parents := [⟨"Playlist"⟩] },
    { name := ⟨"Mix"⟩, parents := [⟨"Album"⟩, ⟨"Playlist"⟩, ⟨"Album"⟩] }]

/-- A mix has four supertypes, and it is no playlist's supertype. -/
theorem mix_supertypes :
    (∀ super, super ∈ Schema.supertypes ⟨decls⟩ ⟨"Mix"⟩ ↔ Schema.Inherits ⟨decls⟩ ⟨"Mix"⟩ super) ∧
      Schema.supertypes ⟨decls⟩ ⟨"Mix"⟩ = [⟨"Album"⟩, ⟨"Playlist"⟩, ⟨"list"⟩, ⟨"collection"⟩] ∧
      ¬ Schema.Inherits ⟨decls⟩ ⟨"Playlist"⟩ ⟨"Mix"⟩ := by
  have built : (afterAttempts decls).build = .ok ⟨decls⟩ := build_eq_ok (by decide +kernel) (by decide +kernel)
  have exact_supertypes := (supertypes_exact built).1
  refine ⟨(exact_supertypes ⟨"Mix"⟩).1, by decide +kernel, ?_⟩
  rw [← (exact_supertypes ⟨"Playlist"⟩).1]
  decide +kernel

end Playlists

end Draft

end Reconciler.Schema
