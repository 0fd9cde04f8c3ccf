import Mathlib.Data.List.Induction
import Mathlib.Data.List.Nodup
import Mathlib.Logic.Relation
import Mathlib.Tactic.SplitIfs
import Reconciler.Schema.Draft

/-! # Ancestors

A type extends the parents that its declaration lists, and lists and sets extend collections. What it inherits
from are the types that some parents lead to. Among declarations of different names, none of them built in, the
supertypes of a type are exactly those that it inherits from. A draft that takes declarations one by one holds
no others.
-/

namespace Reconciler

open FiniteGraph (pushed mem_pushed)

namespace Schema

/-- A type and one of its parents, as the declarations have it. -/
inductive Extends (schema : Schema) : TypeName → TypeName → Prop
  | declared {decl : TypeDecl} {parent : TypeName} (declared : decl ∈ schema.types)
      (listed : parent ∈ decl.parents) : Extends schema decl.name parent
  | list : Extends schema .list .collection
  | set : Extends schema .set .collection

/-- A type and one of its ancestors. -/
def Inherits (schema : Schema) : TypeName → TypeName → Prop := Relation.TransGen schema.Extends

/-- No name is declared twice, and none that is built in. -/
structure Proper (schema : Schema) : Prop where
  distinct : schema.names.Nodup
  free : ∀ decl ∈ schema.types, decl.name.isBuiltin = false

variable {schema : Schema}

theorem mem_names {decl : TypeDecl} (declared : decl ∈ schema.types) : decl.name ∈ schema.names :=
  List.mem_map_of_mem declared

theorem declares_iff {type : TypeName} : schema.declares type = true ↔ type ∈ schema.names := by
  simp [declares, find?, names]

/-- A name that is not declared has no declaration. -/
theorem find?_eq_none {type : TypeName} (undeclared : type ∉ schema.names) : schema.find? type = none := by
  rw [← declares_iff, declares, Bool.not_eq_true, Option.isSome_eq_false_iff] at undeclared
  exact Option.isNone_iff_eq_none.1 undeclared

/-- An array type has no supertypes, unless the schema gives it some. -/
theorem supertypes_of_isArray {type : TypeName} (array : type.isArray = true) (undeclared : type ∉ schema.names) :
    schema.supertypes type = [] := by
  have other : ¬ (type = .list ∨ type = .set) := by
    rintro (rfl | rfl) <;> exact absurd array (by decide)
  have parents : schema.parents type = [] := by
    rw [Schema.parents, find?_eq_none undeclared]
    exact if_neg other
  rw [supertypes, parents, FiniteGraph.breadthFirst, FiniteGraph.search]

namespace Proper

variable (proper : schema.Proper)

include proper

theorem find?_eq {decl : TypeDecl} (declared : decl ∈ schema.types) : schema.find? decl.name = some decl := by
  rcases found : schema.find? decl.name with _ | other
  · rw [find?, List.find?_eq_none] at found
    exact absurd (decide_eq_true rfl) (found decl declared)
  · have named : other.name = decl.name := by simpa using List.find?_some found
    have listed := List.mem_of_find?_eq_some found
    rw [List.inj_on_of_nodup_map proper.distinct listed declared named]

theorem not_mem_names {type : TypeName} (builtin : type.isBuiltin = true) : type ∉ schema.names := by
  intro listed
  obtain ⟨decl, declared, rfl⟩ := List.mem_map.1 listed
  cases builtin.symm.trans (proper.free decl declared)

/-- The parents that a look-up finds are those that the declarations give. -/
theorem extends_iff {type parent : TypeName} : schema.Extends type parent ↔ parent ∈ schema.parents type := by
  constructor
  · intro extended
    cases extended with
    | declared declared listed =>
      rw [parents, proper.find?_eq declared]
      exact listed
    | list | set =>
      rw [parents, find?_eq_none (proper.not_mem_names (by decide))]
      decide
  · intro listed
    rw [parents] at listed
    split at listed
    · next decl found =>
      have named : decl.name = type := by simpa using List.find?_some found
      exact named ▸ .declared (List.mem_of_find?_eq_some found) listed
    · rw [TypeName.builtinParents] at listed
      split at listed
      · next builtin =>
        obtain rfl := List.mem_singleton.1 listed
        rcases builtin with rfl | rfl
        · exact .list
        · exact .set
      · cases listed

/-- What parents lead to is what a type inherits from. -/
theorem exists_leads_iff {type super : TypeName} :
    (∃ parent ∈ schema.parents type, schema.hierarchy.Leads parent super) ↔ schema.Inherits type super := by
  constructor
  · rintro ⟨parent, listed, leads⟩
    have first : schema.Inherits type parent := .single (proper.extends_iff.2 listed)
    clear listed
    induction leads with
    | refl => exact first
    | step link _ ih => exact ih (first.tail (proper.extends_iff.2 link))
  · intro inherits
    induction inherits using Relation.TransGen.head_induction_on with
    | single extended => exact ⟨super, proper.extends_iff.1 extended, .refl super⟩
    | head extended _ ih =>
      obtain ⟨parent, listed, leads⟩ := ih
      exact ⟨_, proper.extends_iff.1 extended, .step listed leads⟩

/-- The supertypes of a type are its ancestors. -/
theorem mem_supertypes {type super : TypeName} : super ∈ schema.supertypes type ↔ schema.Inherits type super := by
  rw [supertypes, FiniteGraph.mem_breadthFirst, proper.exists_leads_iff]

/-- A type is a subtype of itself and of its ancestors. -/
theorem isSubtype_iff {sub super : TypeName} :
    schema.isSubtype sub super = true ↔ sub = super ∨ schema.Inherits sub super := by
  rw [isSubtype, Bool.or_eq_true, decide_eq_true_iff, List.contains_iff_mem, proper.mem_supertypes]

end Proper

namespace Draft

variable {draft : Draft}

/-- The search from the parents of a type meets the type if it is its own ancestor. -/
theorem isCyclic_iff (proper : draft.asSchema.Proper) {type : TypeName} :
    draft.isCyclic type = true ↔ draft.asSchema.Inherits type type := by
  rw [isCyclic, FiniteGraph.meets_iff, ← proper.exists_leads_iff]
  simp only [mem_pushed, List.not_mem_nil, or_false]

/-- The draft after an attempt to declare a type. What is refused leaves it as it was. -/
def attempt (draft : Draft) (decl : TypeDecl) : Draft :=
  match draft.declare decl with
  | .ok extended => extended
  | .error _ => draft

/-- The draft after some attempts, none of them before. -/
def afterAttempts (decls : List TypeDecl) : Draft := decls.foldl attempt {}

private theorem afterAttempts_append (decls : List TypeDecl) (decl : TypeDecl) :
    afterAttempts (decls ++ [decl]) = (afterAttempts decls).attempt decl := by
  rw [afterAttempts, List.foldl_append]
  rfl

/-- A declaration is refused if its name is taken or built in. -/
theorem declare_eq (draft : Draft) (decl : TypeDecl) :
    draft.declare decl = if decl.name.isBuiltin = true ∨ decl.name ∈ draft.asSchema.names then
      .error (.duplicateType decl.name) else .ok ⟨draft.types ++ [decl]⟩ := by
  simp only [declare, Bool.or_eq_true, declares_iff, or_comm]

theorem attempt_eq (draft : Draft) (decl : TypeDecl) :
    draft.attempt decl = if decl.name.isBuiltin = true ∨ decl.name ∈ draft.asSchema.names then draft
      else ⟨draft.types ++ [decl]⟩ := by
  rw [attempt, declare_eq]
  split_ifs <;> rfl

/-- An attempt keeps the names different. -/
theorem proper_attempt (proper : draft.asSchema.Proper) (decl : TypeDecl) :
    (draft.attempt decl).asSchema.Proper := by
  rw [attempt_eq]
  split_ifs with refused
  · exact proper
  · rw [not_or, Bool.not_eq_true] at refused
    constructor
    · show ((draft.types ++ [decl]).map TypeDecl.name).Nodup
      rw [List.map_append, List.map_singleton, List.nodup_append]
      refine ⟨proper.distinct, List.nodup_singleton _, fun name listed last single => ?_⟩
      rintro rfl
      exact refused.2 (List.mem_singleton.1 single ▸ listed)
    · intro other listed
      rcases List.mem_append.1 listed with earlier | last
      · exact proper.free other earlier
      · exact List.mem_singleton.1 last ▸ refused.1

/-- A draft holds no name twice, and none that is built in. -/
theorem proper_afterAttempts (decls : List TypeDecl) : (afterAttempts decls).asSchema.Proper := by
  induction decls using List.reverseRecOn with
  | nil => exact ⟨List.nodup_nil, fun _ listed => by cases listed⟩
  | append_singleton decls decl ih =>
    rw [afterAttempts_append]
    exact proper_attempt ih decl

/-- What was declared are the names of all attempts, except the built-in ones. -/
theorem mem_names_afterAttempts (decls : List TypeDecl) (type : TypeName) :
    type ∈ (afterAttempts decls).asSchema.names ↔ type ∈ decls.map TypeDecl.name ∧ type.isBuiltin = false := by
  induction decls using List.reverseRecOn with
  | nil => exact ⟨nofun, fun listed => absurd listed.1 List.not_mem_nil⟩
  | append_singleton decls decl ih =>
    rw [afterAttempts_append, attempt_eq, List.map_append, List.map_singleton, List.mem_append, List.mem_singleton,
      or_and_right, ← ih]
    split_ifs with refused
    · refine ⟨.inl, fun either => either.elim id fun ⟨same, free⟩ => ?_⟩
      subst same
      exact refused.resolve_left fun builtin => by cases free.symm.trans builtin
    · rw [not_or, Bool.not_eq_true] at refused
      show type ∈ (_ ++ [decl]).map TypeDecl.name ↔ _
      rw [List.map_append, List.map_singleton, List.mem_append, List.mem_singleton]
      exact or_congr_right ⟨fun same => ⟨same, same ▸ refused.1⟩, And.left⟩

end Draft

end Schema

end Reconciler
