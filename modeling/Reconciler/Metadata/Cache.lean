import Reconciler.Schema

/-! # The metadata cache

The cache keeps the metadata that it once got from its schema. Types that the schema does not declare
are not kept: their beans are introspected anew each time. What is kept is always the schema's own
answer, so the cache never changes what a caller sees.
-/

namespace Reconciler

structure MetadataCache where
  schema : Schema
  known : OrderedMap TypeName Metadata := .empty
  /-- What is kept is what the schema answers. -/
  known_eq : ∀ type metadata, known.get? type = some metadata → schema.metadata? type = some metadata :=
    by intro type metadata kept; simp at kept

namespace MetadataCache

def ofSchema (schema : Schema) : MetadataCache := { schema }

instance : Inhabited MetadataCache := ⟨ofSchema {}⟩

/-- The metadata of a declared type, kept from now on. -/
def get (cache : MetadataCache) (type : TypeName) : Option Metadata × MetadataCache :=
  match cache.known.get? type with
  | some metadata => (some metadata, cache)
  | none =>
      match answer : cache.schema.metadata? type with
      | none => (none, cache)
      | some metadata =>
          (some metadata,
            { schema := cache.schema
              known := cache.known.insert type metadata
              known_eq := by
                intro other found kept
                rw [OrderedMap.get?_insert] at kept
                split at kept
                · next same => rw [← same, answer, kept]
                · exact cache.known_eq other found kept })

/-- The metadata of an object: its type's, or for a bean of an undeclared type its attributes. -/
def forNode (cache : MetadataCache) (node : Node) : Option Metadata × MetadataCache :=
  match cache.get node.type with
  | (some metadata, cache) => (some metadata, cache)
  | (none, cache) => (if node.isBean then some (.introspect node) else none, cache)

@[simp] theorem schema_get (cache : MetadataCache) (type : TypeName) :
    (cache.get type).2.schema = cache.schema := by
  unfold get
  split
  · rfl
  · split <;> rfl

/-- The cache answers as its schema does. -/
@[simp] theorem get_fst (cache : MetadataCache) (type : TypeName) :
    (cache.get type).1 = cache.schema.metadata? type := by
  unfold get
  split
  · next metadata kept => exact (cache.known_eq type metadata kept).symm
  · split
    · next absent => exact absent.symm
    · next found => exact found.symm

@[simp] theorem schema_forNode (cache : MetadataCache) (node : Node) :
    (cache.forNode node).2.schema = cache.schema := by
  have kept := schema_get cache node.type
  unfold forNode
  split <;> simp_all

/-- An object's metadata depends on the schema and the object alone. -/
theorem forNode_fst (cache : MetadataCache) (node : Node) :
    (cache.forNode node).1 =
      (cache.schema.metadata? node.type).or
        (if node.isBean then some (.introspect node) else none) := by
  have answer := get_fst cache node.type
  unfold forNode
  split
  · next found => rw [found] at answer; simp [← answer]
  · next missed => rw [missed] at answer; simp [← answer]

end MetadataCache

end Reconciler
