import Mathlib.Data.Finset.Card
import Reconciler.Proofs.Supertypes

/-! # Inherited properties

The properties of a type come from its own declaration and from those of its ancestors, and every one of these is
gathered once. What is gathered stays closed under declared ancestors, and no declaration stands before one of an
ancestor. So whoever gives a property its access last is as specific as can be, in whatever order the parents are
listed and by however many ways an ancestor is reached.
-/

namespace Reconciler

namespace OrderedMap

variable {κ ν : Type} [DecidableEq κ]

/-- A lookup finds some value if and only if the key is there. -/
theorem mem_keys_iff {map : OrderedMap κ ν} {key : κ} : key ∈ map.keys ↔ ∃ value, map.get? key = some value := by
  rw [← Option.isSome_iff_exists, get?, Option.isSome_map, List.find?_isSome, keys, List.mem_map]
  simp only [decide_eq_true_eq]

/-- The value of a key after some bindings of different keys came in. -/
theorem get?_insertAll_entries {other : OrderedMap κ ν} (distinct : other.keys.Nodup) (map : OrderedMap κ ν)
    (key : κ) : (map.insertAll other.entries).get? key = (other.get? key).or (map.get? key) := by
  obtain ⟨bindings⟩ := other
  induction bindings generalizing map with
  | nil => rfl
  | cons binding rest ih =>
    have next : map.insertAll (binding :: rest) = (map.insert binding.1 binding.2).insertAll rest := rfl
    rw [keys, List.map_cons, List.nodup_cons] at distinct
    rw [next, ih _ distinct.2, get?_insert]
    by_cases here : binding.1 = key
    · subst here
      have later : (⟨rest⟩ : OrderedMap κ ν).get? binding.1 = none :=
        Option.eq_none_iff_forall_ne_some.2 fun value found => distinct.1 (mem_keys_iff.2 ⟨value, found⟩)
      rw [later, if_pos rfl]
      simp [get?]
    · simp [get?, here]

/-- New keys go to the end in their order, and known ones stay in their places. -/
theorem keys_insertAll {bindings : List (κ × ν)} (distinct : (bindings.map Prod.fst).Nodup) (map : OrderedMap κ ν) :
    (map.insertAll bindings).keys =
      map.keys ++ (bindings.map Prod.fst).filter (fun key => decide (key ∉ map.keys)) := by
  induction bindings generalizing map with
  | nil => exact (List.append_nil _).symm
  | cons binding rest ih =>
    have next : map.insertAll (binding :: rest) = (map.insert binding.1 binding.2).insertAll rest := rfl
    rw [List.map_cons, List.nodup_cons] at distinct
    rw [next, ih distinct.2, keys_insert, List.map_cons]
    split_ifs with known
    · rw [List.filter_cons_of_neg (by simpa using known)]
    · rw [List.filter_cons_of_pos (by simpa using known), List.append_assoc, List.singleton_append]
      congr 2
      refine List.filter_congr fun key listed => ?_
      have other : key ≠ binding.1 := fun same => distinct.1 (same ▸ listed)
      simp [other]

end OrderedMap

namespace Schema

/-- A declaration that a type is made of: its own or that of an ancestor. -/
structure Contributes (schema : Schema) (type : TypeName) (decl : TypeDecl) : Prop where
  declared : decl ∈ schema.types
  above : decl.name = type ∨ schema.Inherits type decl.name

/-- Declarations, each once, with all that their types inherit from and none before one of an ancestor. -/
structure AncestorsFirst (schema : Schema) (done : List TypeDecl) : Prop where
  declared : ∀ decl ∈ done, decl ∈ schema.types
  closed : ∀ decl ∈ done, ∀ super ∈ schema.types, schema.Inherits decl.name super.name → super ∈ done
  ordered : done.Pairwise fun earlier later => earlier ≠ later ∧ ¬ schema.Inherits earlier.name later.name

/-- What is done after some types were gathered, one after the other. -/
structure Gathers (schema : Schema) (done : List TypeDecl) (types : List TypeName) (after : List TypeDecl) :
    Prop where
  first : schema.AncestorsFirst after
  mem_iff : ∀ decl, decl ∈ after ↔ decl ∈ done ∨ ∃ type ∈ types, schema.Contributes type decl

/-- The number of declared ancestors. -/
def height (schema : Schema) (type : TypeName) : Nat :=
  (schema.names.toFinset.filter (· ∈ schema.supertypes type)).card

variable {schema : Schema}

private theorem height_le (type : TypeName) : schema.height type ≤ schema.types.length :=
  calc schema.height type ≤ schema.names.toFinset.card := Finset.card_filter_le _ _
    _ ≤ schema.names.length := List.toFinset_card_le _
    _ = schema.types.length := List.length_map _

private theorem AncestorsFirst.nil : schema.AncestorsFirst [] :=
  ⟨fun _ listed => (List.not_mem_nil listed).elim, fun _ listed => (List.not_mem_nil listed).elim, .nil⟩

/-- A new declaration may follow all those of its ancestors. -/
theorem AncestorsFirst.concat {done : List TypeDecl} (first : schema.AncestorsFirst done) {decl : TypeDecl}
    (declared : decl ∈ schema.types) (new : decl ∉ done)
    (ready : ∀ super ∈ schema.types, schema.Inherits decl.name super.name → super ∈ done) :
    schema.AncestorsFirst (done ++ [decl]) where
  declared other listed := by
    rcases List.mem_append.1 listed with earlier | last
    · exact first.declared other earlier
    · exact List.mem_singleton.1 last ▸ declared
  closed other listed super known inherits := by
    rcases List.mem_append.1 listed with earlier | last
    · exact List.mem_append_left _ (first.closed other earlier super known inherits)
    · obtain rfl := List.mem_singleton.1 last
      exact List.mem_append_left _ (ready super known inherits)
  ordered := by
    refine List.pairwise_append.2 ⟨first.ordered, List.pairwise_singleton _ _, fun earlier listed last single => ?_⟩
    obtain rfl := List.mem_singleton.1 single
    refine ⟨fun same => new (same ▸ listed), fun inherits => new ?_⟩
    exact first.closed earlier listed last declared inherits

/-- Types are gathered one by one. -/
theorem Gathers.foldl {gather : List TypeDecl → TypeName → List TypeDecl} {types : List TypeName}
    (gathers : ∀ done, schema.AncestorsFirst done → ∀ type ∈ types, schema.Gathers done [type] (gather done type))
    {done : List TypeDecl} (first : schema.AncestorsFirst done) :
    schema.Gathers done types (types.foldl gather done) := by
  induction types generalizing done with
  | nil => exact ⟨first, fun decl => by simp⟩
  | cons type rest ih =>
    have here := gathers done first type List.mem_cons_self
    have onward := ih (fun done first type later => gathers done first type (List.mem_cons_of_mem _ later)) here.first
    refine ⟨onward.first, fun decl => (onward.mem_iff decl).trans ?_⟩
    simp only [here.mem_iff decl, or_assoc, List.mem_cons, List.not_mem_nil, or_false, exists_eq_or_imp,
      exists_eq_left]

namespace Acyclic

variable (acyclic : schema.Acyclic)

include acyclic

/-- Only what is declared inherits from what is declared. -/
theorem mem_names_of_inherits {type super : TypeName} (inherits : schema.Inherits type super)
    (known : super ∈ schema.names) : type ∈ schema.names := by
  obtain ⟨parent, extended, onward⟩ := Relation.TransGen.head'_iff.1 inherits
  cases extended with
  | declared declared _ => exact mem_names declared
  | list | set =>
    rcases Relation.ReflTransGen.cases_head onward with rfl | ⟨middle, extended, _⟩
    · exact absurd known (acyclic.not_mem_names (by decide))
    · exact absurd extended acyclic.not_extends_collection

/-- A declared type is made of its own declaration and of what its parents are made of. -/
theorem contributes_iff {decl other : TypeDecl} (declared : decl ∈ schema.types) :
    schema.Contributes decl.name other ↔ other = decl ∨ ∃ parent ∈ decl.parents, schema.Contributes parent other := by
  have parents : schema.parents decl.name = decl.parents := by rw [Schema.parents, acyclic.find?_eq declared]
  constructor
  · rintro ⟨known, same | inherits⟩
    · exact .inl (List.inj_on_of_nodup_map acyclic.distinct known declared same)
    · obtain ⟨parent, extended, onward⟩ := Relation.TransGen.head'_iff.1 inherits
      have listed := parents ▸ acyclic.extends_iff.1 extended
      refine .inr ⟨parent, listed, known, ?_⟩
      exact (Relation.reflTransGen_iff_eq_or_transGen.1 onward)
  · rintro (rfl | ⟨parent, listed, known, above⟩)
    · exact ⟨declared, .inl rfl⟩
    · have extended : schema.Extends decl.name parent := .declared declared listed
      exact ⟨known, .inr (.head' extended (Relation.reflTransGen_iff_eq_or_transGen.2 above))⟩

/-- Fewer declared types are above a parent. -/
theorem height_lt {decl : TypeDecl} (declared : decl ∈ schema.types) {parent : TypeName}
    (listed : parent ∈ decl.parents) (known : parent ∈ schema.names) :
    schema.height parent < schema.height decl.name := by
  have inherits : schema.Inherits decl.name parent := .single (.declared declared listed)
  refine Finset.card_lt_card ((Finset.ssubset_iff_of_subset fun super above => ?_).2 ⟨parent, ?_, fun above => ?_⟩)
  · obtain ⟨named, above⟩ := Finset.mem_filter.1 above
    exact Finset.mem_filter.2
      ⟨named, acyclic.mem_supertypes.2 (inherits.trans (acyclic.mem_supertypes.1 above))⟩
  · exact Finset.mem_filter.2 ⟨List.mem_toFinset.2 known, acyclic.mem_supertypes.2 inherits⟩
  · exact acyclic.not_mem_supertypes_self parent (Finset.mem_filter.1 above).2

/-- Nothing contributes to a type that nobody declares. -/
theorem not_contributes {type : TypeName} (unknown : type ∉ schema.names) (decl : TypeDecl) :
    ¬ schema.Contributes type decl := by
  rintro ⟨declared, rfl | inherits⟩
  · exact unknown (mem_names declared)
  · exact unknown (acyclic.mem_names_of_inherits inherits (mem_names declared))

end Acyclic

/-- A declaration that is there brings nothing, because its ancestors are there too. -/
theorem AncestorsFirst.gathers_known {done : List TypeDecl} (first : schema.AncestorsFirst done)
    (acyclic : schema.Acyclic) {decl : TypeDecl} (listed : decl ∈ done) : schema.Gathers done [decl.name] done := by
  refine ⟨first, fun other => ⟨.inl, fun either => either.elim id ?_⟩⟩
  simp only [List.mem_singleton, exists_eq_left]
  rintro ⟨declared, same | inherits⟩
  · exact List.inj_on_of_nodup_map acyclic.distinct declared (first.declared decl listed) same ▸ listed
  · exact first.closed decl listed other declared inherits

/-- A type that nobody declares brings nothing. -/
theorem AncestorsFirst.gathers_unknown {done : List TypeDecl} (first : schema.AncestorsFirst done)
    (acyclic : schema.Acyclic) {type : TypeName} (unknown : type ∉ schema.names) :
    schema.Gathers done [type] done := by
  refine ⟨first, fun other => ⟨.inl, fun either => either.elim id ?_⟩⟩
  simp only [List.mem_singleton, exists_eq_left]
  exact fun contributes => absurd contributes (acyclic.not_contributes unknown other)

/-- A declaration comes after its parents, once it is new. -/
theorem Gathers.concat {decl : TypeDecl} {done after : List TypeDecl} (above : schema.Gathers done decl.parents after)
    (acyclic : schema.Acyclic) (declared : decl ∈ schema.types) (new : decl ∉ done) :
    schema.Gathers done [decl.name] (after ++ [decl]) := by
  have contributes {other : TypeDecl} : schema.Contributes decl.name other ↔ _ := acyclic.contributes_iff declared
  refine ⟨above.first.concat declared ?_ fun super known inherits => ?_, fun other => ?_⟩
  · rw [above.mem_iff, not_or]
    refine ⟨new, fun ⟨parent, listed, _, reaches⟩ => acyclic.irrefl decl.name ?_⟩
    have extended : schema.Extends decl.name parent := .declared declared listed
    exact .head' extended (Relation.reflTransGen_iff_eq_or_transGen.2 reaches)
  · rw [above.mem_iff]
    rcases contributes.1 ⟨known, .inr inherits⟩ with rfl | through
    · exact absurd inherits (acyclic.irrefl super.name)
    · exact .inr through
  · simp only [List.mem_append, above.mem_iff, List.mem_singleton, exists_eq_left, contributes, or_assoc]
    exact or_congr_right or_comm

namespace Acyclic

variable (acyclic : schema.Acyclic)

include acyclic

/-- A type is gathered with all that it is made of. The fuel lasts, because it counts down with the declared types
above. -/
theorem gathers_lineageFrom {fuel : Nat} {type : TypeName} (enough : type ∈ schema.names → schema.height type < fuel)
    {done : List TypeDecl} (first : schema.AncestorsFirst done) :
    schema.Gathers done [type] (schema.lineageFrom fuel done type) := by
  induction fuel generalizing type done with
  | zero => exact first.gathers_unknown acyclic fun known => Nat.not_lt_zero _ (enough known)
  | succ fuel ih =>
    rw [lineageFrom]
    split_ifs with known
    · obtain ⟨decl, listed, named⟩ := List.any_eq_true.1 known
      obtain rfl := of_decide_eq_true named
      exact first.gathers_known acyclic listed
    · split
      · next missing =>
        refine first.gathers_unknown acyclic fun known => ?_
        rw [← declares_iff, declares, missing] at known
        cases known
      · next decl found =>
        obtain rfl : decl.name = type := by simpa using List.find?_some found
        have declared : decl ∈ schema.types := List.mem_of_find?_eq_some found
        have above : schema.Gathers done decl.parents (decl.parents.foldl (schema.lineageFrom fuel) done) := by
          refine Gathers.foldl (fun done first parent listed => ih (fun known => ?_) first) first
          exact Nat.lt_of_lt_of_le (acyclic.height_lt declared listed known)
            (Nat.le_of_lt_succ (enough (mem_names declared)))
        refine above.concat acyclic declared fun listed => ?_
        exact known (List.any_eq_true.2 ⟨decl, listed, decide_eq_true rfl⟩)

private theorem gathers_lineage (type : TypeName) : schema.Gathers [] [type] (schema.lineage type) :=
  acyclic.gathers_lineageFrom (fun _ => Nat.lt_succ_of_le (height_le type)) .nil

private theorem mem_lineage {type : TypeName} {decl : TypeDecl} :
    decl ∈ schema.lineage type ↔ schema.Contributes type decl := by
  rw [(acyclic.gathers_lineage type).mem_iff]
  simp

/-- A declared type comes after all that it inherits from. -/
theorem exists_lineage_eq {decl : TypeDecl} (declared : decl ∈ schema.types) :
    ∃ above, schema.lineage decl.name = above ++ [decl] ∧
      ∀ super, super ∈ above ↔ super ∈ schema.types ∧ schema.Inherits decl.name super.name := by
  obtain ⟨above, below, split⟩ := List.append_of_mem (acyclic.mem_lineage.2 ⟨declared, .inl rfl⟩)
  obtain ⟨-, ordered, unordered⟩ := List.pairwise_append.1 (split ▸ (acyclic.gathers_lineage decl.name).first.ordered)
  -- All others are ancestors, and no ancestor may come after an heir.
  obtain rfl : below = [] := by
    refine List.eq_nil_iff_forall_not_mem.2 fun other later => ?_
    obtain ⟨different, unrelated⟩ := (List.pairwise_cons.1 ordered).1 other later
    have listed : other ∈ schema.lineage decl.name := by simp [split, later]
    rcases (acyclic.contributes_iff declared).1 (acyclic.mem_lineage.1 listed) with same | ⟨parent, known, above⟩
    · exact different same.symm
    · exact unrelated
        (.head' (.declared declared known) (Relation.reflTransGen_iff_eq_or_transGen.2 above.above))
  refine ⟨above, split, fun super => ⟨fun earlier => ?_, fun ⟨known, inherits⟩ => ?_⟩⟩
  · obtain ⟨different, -⟩ := unordered super earlier decl (List.mem_singleton_self _)
    have listed : super ∈ schema.lineage decl.name := by simp [split, earlier]
    obtain ⟨known, same | inherits⟩ := acyclic.mem_lineage.1 listed
    · exact absurd (List.inj_on_of_nodup_map acyclic.distinct known declared same) different
    · exact ⟨known, inherits⟩
  · have listed := acyclic.mem_lineage.2 ⟨known, .inr inherits⟩
    rw [split, List.mem_append, List.mem_singleton] at listed
    exact listed.resolve_right fun same => acyclic.irrefl decl.name (same ▸ inherits)

end Acyclic

/-- What declarations give, one after the other. -/
def collected (decls : List TypeDecl) : OrderedMap String Access :=
  decls.foldl (fun done decl => done.insertAll decl.properties.entries) .empty

private theorem properties_eq (schema : Schema) (type : TypeName) : schema.properties type = collected
    (schema.lineage type) :=
  rfl

private theorem collected_concat (decls : List TypeDecl) (decl : TypeDecl) :
    collected (decls ++ [decl]) = (collected decls).insertAll decl.properties.entries := by
  rw [collected, List.foldl_append]
  rfl

private theorem nodup_keys_collected (decls : List TypeDecl) : (collected decls).keys.Nodup := by
  induction decls using List.reverseRecOn with
  | nil => exact List.nodup_nil
  | append_singleton decls decl ih =>
    rw [collected_concat]
    exact OrderedMap.keys_nodup_insertAll ih _

private theorem mem_keys_collected {decls : List TypeDecl} {name : String} :
    name ∈ (collected decls).keys ↔ ∃ decl ∈ decls, name ∈ decl.properties.keys := by
  induction decls using List.reverseRecOn with
  | nil => simp [collected, OrderedMap.keys, OrderedMap.empty]
  | append_singleton decls decl ih =>
    rw [collected_concat, OrderedMap.mem_keys_insertAll, ih]
    simp only [List.mem_append, List.mem_singleton, or_and_right, exists_or, exists_eq_left]
    rfl

/-- The last declaration of a property gives its access. -/
theorem get?_collected {decls : List TypeDecl} (distinct : ∀ decl ∈ decls, decl.properties.keys.Nodup) {name : String}
    {access : Access} (found : (collected decls).get? name = some access) :
    ∃ before maker after, decls = before ++ maker :: after ∧ maker.properties.get? name = some access ∧
      ∀ other ∈ after, name ∉ other.properties.keys := by
  induction decls using List.reverseRecOn with
  | nil => cases found
  | append_singleton decls decl ih =>
    rw [collected_concat, OrderedMap.get?_insertAll_entries (distinct decl (by simp))] at found
    rcases own : decl.properties.get? name with _ | mine
    · rw [own, Option.none_or] at found
      obtain ⟨before, maker, after, rfl, gives, silent⟩ :=
        ih (fun decl listed => distinct decl (by simp [listed])) found
      refine ⟨before, maker, after ++ [decl], by simp, gives, fun other later => ?_⟩
      rcases List.mem_append.1 later with earlier | last
      · exact silent other earlier
      · rw [List.mem_singleton.1 last, OrderedMap.mem_keys_iff, own]
        simp
    · rw [own, Option.some_or] at found
      exact ⟨decls, decl, [], rfl, own.trans found, fun _ listed => (List.not_mem_nil listed).elim⟩

namespace Acyclic

variable (acyclic : schema.Acyclic) (distinct : ∀ decl ∈ schema.types, decl.properties.keys.Nodup)

include acyclic distinct

/-- A property has its access from a declaration that no more specific one overrides. -/
theorem exists_maker {type : TypeName} {name : String} {access : Access}
    (found : (schema.properties type).get? name = some access) :
    ∃ maker, schema.Contributes type maker ∧ maker.properties.get? name = some access ∧
      ∀ other, schema.Contributes type other → schema.Inherits other.name maker.name →
        name ∉ other.properties.keys := by
  have gathers := acyclic.gathers_lineage type
  rw [properties_eq] at found
  obtain ⟨before, maker, after, split, gives, silent⟩ :=
    get?_collected (fun decl listed => distinct decl (gathers.first.declared decl listed)) found
  refine ⟨maker, acyclic.mem_lineage.1 (by simp [split]), gives, fun other contributes inherits => ?_⟩
  have listed := acyclic.mem_lineage.2 contributes
  rw [split, List.mem_append, List.mem_cons] at listed
  rcases listed with earlier | rfl | later
  · obtain ⟨-, unrelated⟩ :=
      (List.pairwise_append.1 (split ▸ gathers.first.ordered)).2.2 other earlier maker List.mem_cons_self
    exact absurd inherits unrelated
  · exact absurd inherits (acyclic.irrefl other.name)
  · exact silent other later

end Acyclic

namespace Draft

/-- In a schema that was built, the metadata of a declared type lists every property of the type and of its ancestors
once. The inherited names come first, and those that only the type itself declares follow in the order of its
declaration. The type gives access to the properties that it declares, and a declaration that none of a strict
subtype overrides gives access to the others. -/
theorem inheritance_exact {decls : List TypeDecl} (built : (afterAttempts decls).build = .ok schema)
    (distinct : ∀ decl ∈ schema.types, decl.properties.keys.Nodup) {decl : TypeDecl}
    (declared : decl ∈ schema.types) :
    ∃ metadata inherited, schema.metadata? decl.name = some metadata ∧ metadata.type = decl.name ∧
      metadata.names.Nodup ∧
      (∀ name, name ∈ metadata.names ↔ ∃ maker, schema.Contributes decl.name maker ∧ name ∈ maker.properties.keys) ∧
      metadata.names = inherited ++ decl.properties.keys.filter (fun name => decide (name ∉ inherited)) ∧
      (∀ name, name ∈ inherited ↔
        ∃ super ∈ schema.types, schema.Inherits decl.name super.name ∧ name ∈ super.properties.keys) ∧
      (∀ name ∈ decl.properties.keys, metadata.access? name = decl.properties.get? name) ∧
      ∀ name ∈ metadata.names, ∃ maker access, schema.Contributes decl.name maker ∧
        maker.properties.get? name = some access ∧ metadata.access? name = some access ∧
        ∀ other, schema.Contributes decl.name other → schema.Inherits other.name maker.name →
          name ∉ other.properties.keys := by
  have acyclic := acyclic_of_build built
  have known : schema.declares decl.name = true := declares_iff.2 (mem_names declared)
  obtain ⟨above, lineage, mem_above⟩ := acyclic.exists_lineage_eq declared
  have properties : schema.properties decl.name = (collected above).insertAll decl.properties.entries := by
    rw [properties_eq, lineage, collected_concat]
  refine ⟨⟨decl.name, schema.properties decl.name⟩, (collected above).keys, if_pos known, rfl, ?_, fun name => ?_, ?_,
    fun name => ?_, fun name own => ?_, fun name listed => ?_⟩
  · exact nodup_keys_collected (schema.lineage decl.name)
  · refine mem_keys_collected.trans ?_
    simp only [acyclic.mem_lineage]
  · rw [Metadata.names, properties, OrderedMap.keys_insertAll (distinct decl declared)]
    rfl
  · simp only [mem_keys_collected, mem_above, and_assoc]
  · obtain ⟨access, found⟩ := OrderedMap.mem_keys_iff.1 own
    rw [Metadata.access?, properties, OrderedMap.get?_insertAll_entries (distinct decl declared), found,
      Option.some_or]
  · obtain ⟨access, found⟩ := OrderedMap.mem_keys_iff.1 listed
    obtain ⟨maker, contributes, gives, foremost⟩ := acyclic.exists_maker distinct found
    exact ⟨maker, access, contributes, gives, found, foremost⟩

namespace Vehicles

def vehicle : TypeDecl :=
  { name := ⟨"Vehicle"⟩, properties := .ofList [("plate", .field), ("speed", .field)] }

/-- The speed of a boat is derived. -/
def boat : TypeDecl :=
  { name := ⟨"Boat"⟩, parents := [⟨"Vehicle"⟩]
    properties := .ofList [("draught", .field), ("speed", .accessor none none)] }

def car : TypeDecl := { name := ⟨"Car"⟩, parents := [⟨"Vehicle"⟩], properties := .ofList [("doors", .field)] }

/-- It is a vehicle by three ways, and one of them is direct. -/
def amphibian : TypeDecl :=
  { name := ⟨"Amphibian"⟩, parents := [⟨"Boat"⟩, ⟨"Vehicle"⟩, ⟨"Car"⟩]
    properties := .ofList [("seals", .field), ("doors", .accessor none none)] }

def decls : List TypeDecl := [amphibian, car, boat, vehicle]

/-- The boat gives access to the speed, though the vehicle is also a parent and listed after it, and the amphibian
overrides the doors of the car where they stand. -/
theorem amphibian_properties :
    (afterAttempts decls).build = .ok ⟨decls⟩ ∧ ∃ metadata, Schema.metadata? ⟨decls⟩ ⟨"Amphibian"⟩ = some metadata ∧
      metadata.names = ["plate", "speed", "draught", "doors", "seals"] ∧
      metadata.access? "doors" = some (.accessor none none) ∧ metadata.access? "speed" = some (.accessor none none) ∧
      ∃ maker, Schema.Contributes ⟨decls⟩ ⟨"Amphibian"⟩ maker ∧
        maker.properties.get? "speed" = some (.accessor none none) ∧
        ∀ other, Schema.Contributes ⟨decls⟩ ⟨"Amphibian"⟩ other → Schema.Inherits ⟨decls⟩ other.name maker.name →
          "speed" ∉ other.properties.keys := by
  have built : (afterAttempts decls).build = .ok ⟨decls⟩ := build_eq_ok (by decide +kernel) (by decide +kernel)
  have distinct : ∀ decl ∈ decls, decl.properties.keys.Nodup := by decide +kernel
  have declared : amphibian ∈ decls := List.mem_cons_self
  obtain ⟨metadata, inherited, resolved, -, -, -, -, -, own, makers⟩ :=
    inheritance_exact built distinct declared
  have properties : metadata.properties = Schema.properties ⟨decls⟩ ⟨"Amphibian"⟩ := by
    cases resolved
    rfl
  have names : metadata.names = ["plate", "speed", "draught", "doors", "seals"] := by
    rw [Metadata.names, properties]
    decide +kernel
  have speed : metadata.access? "speed" = some (.accessor none none) := by
    rw [Metadata.access?, properties]
    rfl
  refine ⟨built, metadata, resolved, names, own "doors" (by decide), speed, ?_⟩
  obtain ⟨maker, access, contributes, gives, found, foremost⟩ := makers "speed" (by simp [names])
  exact ⟨maker, contributes, gives.trans (found.symm.trans speed), foremost⟩

end Vehicles

end Draft

end Schema

end Reconciler
