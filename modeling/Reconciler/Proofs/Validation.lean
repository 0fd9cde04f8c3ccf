import Reconciler.Proofs.Ancestry

/-! # Which declarations make a schema

An attempt to declare a type is refused if and only if its name is built in or taken, and then changes nothing.
A draft makes a schema if and only if all parents are known and no type is its own ancestor. Otherwise the error
names the first unknown parent, or, if all parents are known, the first type that is its own ancestor. A type
that only inherits from such types is not blamed.
-/

namespace Reconciler.Schema.Draft

/-- A name that may stand for a parent. -/
def Known (draft : Draft) (type : TypeName) : Prop :=
  type ∈ draft.asSchema.names ∨ type.isBuiltin = true

/-- What a draft needs to be a schema. -/
structure Sound (draft : Draft) : Prop where
  known : ∀ decl ∈ draft.types, ∀ parent ∈ decl.parents, draft.Known parent
  acyclic : ∀ decl ∈ draft.types, ¬ draft.asSchema.Inherits decl.name decl.name

/-- The first thing that is wrong with a draft. -/
inductive Fault (draft : Draft) : SchemaError → Prop
  | unknownParent {before after : List TypeDecl} {decl : TypeDecl} {earlier later : List TypeName}
      {parent : TypeName} (declared : draft.types = before ++ decl :: after)
      (sound : ∀ other ∈ before, ∀ parent ∈ other.parents, draft.Known parent)
      (listed : decl.parents = earlier ++ parent :: later) (known : ∀ other ∈ earlier, draft.Known other)
      (unknown : ¬ draft.Known parent) : Fault draft (.unknownParent decl.name parent)
  | inheritanceCycle {before after : List TypeDecl} {decl : TypeDecl}
      (known : ∀ other ∈ draft.types, ∀ parent ∈ other.parents, draft.Known parent)
      (declared : draft.types = before ++ decl :: after)
      (sound : ∀ other ∈ before, ¬ draft.asSchema.Inherits other.name other.name)
      (cyclic : draft.asSchema.Inherits decl.name decl.name) : Fault draft (.inheritanceCycle decl.name)

variable {draft : Draft}

private theorem knows_iff {type : TypeName} : draft.knows type = true ↔ draft.Known type := by
  rw [knows, Bool.or_eq_true, declares_iff, Known]

/-- What a search in a list finds is the first element with the property. -/
theorem find?_eq_some_iff_first {α : Type} {test : α → Bool} {property : α → Prop}
    (tests : ∀ element, test element = true ↔ property element) {elements : List α} {found : α} :
    elements.find? test = some found ↔ property found ∧
      ∃ before after, elements = before ++ found :: after ∧ ∀ other ∈ before, ¬ property other := by
  simp only [List.find?_eq_some_iff_append, Bool.not_eq_true', ← Bool.not_eq_true, tests]

private theorem not_knows_iff {type : TypeName} : (!draft.knows type) = true ↔ ¬ draft.Known type := by
  rw [Bool.not_eq_true', ← Bool.not_eq_true, knows_iff]

/-- No parent of a declaration is unknown if no search finds one. -/
theorem find?_unknown_eq_none_iff {parents : List TypeName} :
    parents.find? (fun parent => !draft.knows parent) = none ↔ ∀ parent ∈ parents, draft.Known parent := by
  simp only [List.find?_eq_none, not_knows_iff, not_not]

private theorem unknownParent?_eq_none_iff :
    draft.unknownParent? = none ↔ ∀ decl ∈ draft.types, ∀ parent ∈ decl.parents, draft.Known parent := by
  simp only [unknownParent?, List.findSome?_eq_none_iff, Option.map_eq_none_iff, find?_unknown_eq_none_iff]

/-- The parents of the declarations are looked through in order. -/
theorem unknownParent?_eq_some_iff {type parent : TypeName} :
    draft.unknownParent? = some (type, parent) ↔ draft.Fault (.unknownParent type parent) := by
  rw [unknownParent?, List.findSome?_eq_some_iff]
  constructor
  · rintro ⟨before, decl, after, declared, first, sound⟩
    obtain ⟨_, found, same⟩ := Option.map_eq_some_iff.1 first
    obtain ⟨rfl, rfl⟩ := Prod.mk.inj same
    obtain ⟨unknown, earlier, later, listed, known⟩ := (find?_eq_some_iff_first fun _ => not_knows_iff).1 found
    refine .unknownParent declared (fun other member => ?_) listed (fun other member => ?_) unknown
    · exact find?_unknown_eq_none_iff.1 (Option.map_eq_none_iff.1 (sound other member))
    · exact not_not.1 (known other member)
  · intro fault
    cases fault with
    | @unknownParent before after decl earlier later _ declared sound listed known unknown =>
      refine ⟨before, decl, after, declared, Option.map_eq_some_iff.2 ⟨parent, ?_, rfl⟩, fun other member => ?_⟩
      · refine (find?_eq_some_iff_first fun _ => not_knows_iff).2 ⟨unknown, earlier, later, listed, ?_⟩
        exact fun other member => not_not.2 (known other member)
      · exact Option.map_eq_none_iff.2 (find?_unknown_eq_none_iff.2 (sound other member))

section Proper

variable (proper : draft.asSchema.Proper)

include proper

private theorem cyclic?_eq_none_iff :
    draft.cyclic? = none ↔ ∀ decl ∈ draft.types, ¬ draft.asSchema.Inherits decl.name decl.name := by
  rw [cyclic?, List.find?_eq_none]
  show (∀ type ∈ draft.types.map TypeDecl.name, _) ↔ _
  simp only [List.forall_mem_map, isCyclic_iff proper]

/-- The declarations are looked through in order for a type that is its own ancestor. -/
theorem cyclic?_eq_some_iff {type : TypeName} :
    draft.unknownParent? = none ∧ draft.cyclic? = some type ↔ draft.Fault (.inheritanceCycle type) := by
  have first {decl : TypeDecl} : draft.types.find? (draft.isCyclic ∘ TypeDecl.name) = some decl ↔ _ :=
    find?_eq_some_iff_first fun _ => isCyclic_iff proper
  rw [unknownParent?_eq_none_iff, cyclic?, names, List.find?_map, Option.map_eq_some_iff]
  constructor
  · rintro ⟨known, decl, found, rfl⟩
    obtain ⟨cyclic, before, after, declared, sound⟩ := first.1 found
    exact .inheritanceCycle known declared sound cyclic
  · intro fault
    cases fault with
    | inheritanceCycle known declared sound cyclic =>
      exact ⟨known, _, first.2 ⟨cyclic, _, _, declared, sound⟩, rfl⟩

/-- A draft becomes a schema if nothing is wrong with it. -/
theorem build_eq_ok_iff {schema : Schema} : draft.build = .ok schema ↔ schema = draft.asSchema ∧ draft.Sound := by
  have sound : draft.Sound ↔ draft.unknownParent? = none ∧ draft.cyclic? = none := by
    rw [unknownParent?_eq_none_iff, cyclic?_eq_none_iff proper]
    exact ⟨fun ⟨known, acyclic⟩ => ⟨known, acyclic⟩, fun ⟨known, acyclic⟩ => ⟨known, acyclic⟩⟩
  rw [sound, build]
  rcases draft.unknownParent? with _ | _ <;> rcases draft.cyclic? with _ | _ <;> simp [eq_comm]

/-- The error says what is wrong first. -/
theorem build_eq_error_iff {error : SchemaError} : draft.build = .error error ↔ draft.Fault error := by
  cases error with
  | duplicateType type =>
    refine ⟨fun failed => ?_, nofun⟩
    unfold build at failed
    split at failed <;> cases failed
  | unknownParent type parent =>
    rw [← unknownParent?_eq_some_iff, build]
    rcases draft.unknownParent? with _ | _ <;> rcases draft.cyclic? with _ | _ <;> simp [Prod.ext_iff]
  | inheritanceCycle type =>
    rw [← cyclic?_eq_some_iff proper, build]
    rcases draft.unknownParent? with _ | _ <;> rcases draft.cyclic? with _ | _ <;> simp

end Proper

/-- Validation is sound and complete, whatever was attempted before. An attempt is refused for its name alone. A
schema comes out if all parents are known and no type is its own ancestor, and else an error that says what is
wrong first. -/
theorem validation_exact (decls : List TypeDecl) :
    let draft := afterAttempts decls
    (∀ decl, (draft.declare decl, draft.attempt decl) =
      if decl.name.isBuiltin = true ∨ decl.name ∈ decls.map TypeDecl.name then
        (.error (.duplicateType decl.name), draft)
      else (.ok ⟨draft.types ++ [decl]⟩, ⟨draft.types ++ [decl]⟩)) ∧
    (∀ schema, draft.build = .ok schema ↔ schema.types = draft.types ∧
      (∀ decl ∈ draft.types, ∀ parent ∈ decl.parents, draft.Known parent) ∧
      ∀ decl ∈ draft.types, ¬ draft.asSchema.Inherits decl.name decl.name) ∧
    ∀ error, draft.build = .error error ↔ draft.Fault error := by
  intro draft
  have proper : draft.asSchema.Proper := proper_afterAttempts decls
  refine ⟨fun decl => ?_, fun schema => ?_, fun error => build_eq_error_iff proper⟩
  · have taken : decl.name.isBuiltin = true ∨ decl.name ∈ draft.asSchema.names ↔
        decl.name.isBuiltin = true ∨ decl.name ∈ decls.map TypeDecl.name := by
      rw [mem_names_afterAttempts]
      cases decl.name.isBuiltin <;> simp
    rw [declare_eq, attempt_eq]
    simp only [taken]
    split_ifs <;> rfl
  · rw [build_eq_ok_iff proper]
    constructor
    · rintro ⟨rfl, sound⟩
      exact ⟨rfl, sound.known, sound.acyclic⟩
    · rintro ⟨same, known, acyclic⟩
      exact ⟨congrArg Schema.mk same, known, acyclic⟩

namespace Fleet

/-- An amphibian inherits from a cycle that it does not lie on. -/
def amphibian : TypeDecl := { name := ⟨"Amphibian"⟩, parents := [⟨"Boat"⟩] }

def boat : TypeDecl := { name := ⟨"Boat"⟩, parents := [⟨"Ship"⟩] }

def ship : TypeDecl := { name := ⟨"Ship"⟩, parents := [⟨"list"⟩, ⟨"Boat"⟩] }

/-- It extends itself, and two types that nobody declares. -/
def ferry : TypeDecl := { name := ⟨"Ferry"⟩, parents := [⟨"Ferry"⟩, ⟨"Harbour"⟩, ⟨"Quay"⟩] }

/-- The second boat and the list are refused. -/
def attempts : List TypeDecl := [amphibian, boat, { name := ⟨"Boat"⟩ }, { name := ⟨"list"⟩ }, ship]

/-- The boat is blamed for the cycle that it shares with the ship, and the ferry for its first unknown parent,
though it is its own parent. -/
theorem boat_blamed :
    (afterAttempts attempts).types = [amphibian, boat, ship] ∧
      (afterAttempts attempts).build = .error (.inheritanceCycle ⟨"Boat"⟩) ∧
      (afterAttempts (attempts ++ [ferry])).build = .error (.unknownParent ⟨"Ferry"⟩ ⟨"Harbour"⟩) ∧
      (afterAttempts [amphibian, { name := ⟨"Boat"⟩ }]).build =
        .ok ⟨[amphibian, { name := ⟨"Boat"⟩ }]⟩ := by
  have attempted : (afterAttempts attempts).types = [amphibian] ++ boat :: [ship] := rfl
  have extended : (afterAttempts (attempts ++ [ferry])).types = [amphibian, boat, ship] ++ ferry :: [] := rfl
  have unknown : ferry.parents = [⟨"Ferry"⟩] ++ ⟨"Harbour"⟩ :: [⟨"Quay"⟩] := rfl
  refine ⟨attempted, ?_, ?_, ?_⟩
  · refine ((validation_exact attempts).2.2 _).2 (.inheritanceCycle ?_ attempted ?_ ?_)
    · simp only [← knows_iff]
      decide +kernel
    · simp only [← (proper_afterAttempts attempts).mem_supertypes]
      decide +kernel
    · rw [← (proper_afterAttempts attempts).mem_supertypes]
      decide +kernel
  · refine ((validation_exact (attempts ++ [ferry])).2.2 _).2 (.unknownParent extended ?_ unknown ?_ ?_)
    · simp only [← knows_iff]
      decide +kernel
    · simp only [← knows_iff]
      decide +kernel
    · rw [← knows_iff]
      decide +kernel
  · refine ((validation_exact [amphibian, { name := ⟨"Boat"⟩ }]).2.1 _).2 ⟨rfl, ?_, ?_⟩
    · simp only [← knows_iff]
      decide +kernel
    · simp only [← (proper_afterAttempts [amphibian, { name := ⟨"Boat"⟩ }]).mem_supertypes]
      decide +kernel

end Fleet

end Reconciler.Schema.Draft
