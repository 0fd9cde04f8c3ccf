import Mathlib.Data.List.Induction
import Reconciler.Handler.Dispatch
import Reconciler.Metadata.Cache

/-! # Remembering does not show

Whatever was registered and looked up before, a look-up answers from the registrations alone: the last handler
for the type itself, else the last one for its first supertype that has any, else the first one that accepts
the type. So look-ups leave no trace, and the order of registrations matters only where they compete for a
type. A cache of metadata answers as its schema does, and describes a bean of an undeclared type by the
attributes that the bean has at that moment.
-/

namespace Reconciler

namespace Handler.Dispatch

/-- What a dispatch can be asked to do. A handler is registered for the types it is meant for and for
additional ones, or for the given types only, or for all types that a predicate accepts. -/
inductive Call where
  | register (handler : Handler) (additional : List TypeName)
  | add (handler : Handler) (types : List TypeName)
  | addDynamic (handler : Handler) (accepts : TypePredicate)
  | get (type : TypeName)

def perform (dispatch : Dispatch) : Call → Dispatch
  | .register handler additional => dispatch.add handler (handler.types ++ additional)
  | .add handler types => dispatch.add handler types
  | .addDynamic handler accepts => dispatch.addDynamic handler accepts
  | .get type => (dispatch.get type).2

/-- The dispatch after some calls, without a handler before them. -/
def afterCalls (schema : Schema) (calls : List Call) : Dispatch :=
  calls.foldl perform (ofRegistry { schema })

namespace Call

/-- The handler that a call registers for a type by name. -/
def named? (type : TypeName) : Call → Option Handler
  | register handler additional => if type ∈ handler.types ++ additional then some handler else none
  | add handler types => if type ∈ types then some handler else none
  | _ => none

/-- The registration by predicate that a call makes. -/
def dynamic? : Call → Option Registration
  | addDynamic handler accepts => some { accepts, handler }
  | _ => none

end Call

/-- The handler registered last for a type by name. -/
def lastNamed? (calls : List Call) (type : TypeName) : Option Handler :=
  (calls.filterMap (Call.named? type)).getLast?

/-- The handler of a type as the registrations among the calls say, read off them anew. -/
def resolution (schema : Schema) (calls : List Call) (type : TypeName) : Option Handler :=
  (lastNamed? calls type).or
    (((schema.supertypes type).findSome? (lastNamed? calls)).or
      (((calls.filterMap Call.dynamic?).find? (·.accepts type)).map Registration.handler))

/-- Histories that differ in look-ups and in the order of registrations that do not compete: they name no
type that both register, and are not both by predicate. -/
inductive Rearranged : List Call → List Call → Prop
  | refl (calls : List Call) : Rearranged calls calls
  | lookUp (before after : List Call) (type : TypeName) :
      Rearranged (before ++ .get type :: after) (before ++ after)
  | exchange (before after : List Call) {one other : Call}
      (named : ∀ type, one.named? type = none ∨ other.named? type = none)
      (accepted : one.dynamic? = none ∨ other.dynamic? = none) :
      Rearranged (before ++ one :: other :: after) (before ++ other :: one :: after)
  | symm {left right : List Call} (same : Rearranged left right) : Rearranged right left
  | trans {first second third : List Call} (before : Rearranged first second)
      (after : Rearranged second third) : Rearranged first third

private theorem filterMap_exchange {β : Type} {view : Call → Option β} {one other : Call}
    (either : view one = none ∨ view other = none) (before after : List Call) :
    (before ++ one :: other :: after).filterMap view = (before ++ other :: one :: after).filterMap view := by
  rw [List.filterMap_append, List.filterMap_append]
  congr 1
  rcases either with none | none
  · rw [List.filterMap_cons_none none, List.filterMap_cons, List.filterMap_cons, List.filterMap_cons_none none]
  · rw [List.filterMap_cons, List.filterMap_cons_none none, List.filterMap_cons_none none, List.filterMap_cons]

private theorem filterMap_lookUp {β : Type} {view : Call → Option β} {type : TypeName}
    (unseen : view (.get type) = none)
    (before after : List Call) : (before ++ .get type :: after).filterMap view = (before ++ after).filterMap view := by
  rw [List.filterMap_append, List.filterMap_cons_none unseen, List.filterMap_append]

/-- Rearranged histories register the same for each type, in the same order, and the same by predicate. -/
theorem Rearranged.same {left right : List Call} (rearranged : Rearranged left right) :
    (∀ type, left.filterMap (Call.named? type) = right.filterMap (Call.named? type)) ∧
      left.filterMap Call.dynamic? = right.filterMap Call.dynamic? := by
  induction rearranged with
  | refl => exact ⟨fun _ => rfl, rfl⟩
  | lookUp before after type =>
    exact ⟨fun _ => filterMap_lookUp rfl before after, filterMap_lookUp rfl before after⟩
  | exchange before after named accepted =>
    exact ⟨fun type => filterMap_exchange (named type) before after, filterMap_exchange accepted before after⟩
  | symm _ ih => exact ⟨fun type => (ih.1 type).symm, ih.2.symm⟩
  | trans _ _ first second =>
    exact ⟨fun type => (first.1 type).trans (second.1 type), first.2.trans second.2⟩

/-- What competes for no type may come in any order, and look-ups may come anywhere. -/
theorem Rearranged.resolution_eq {left right : List Call} (rearranged : Rearranged left right)
    (schema : Schema) (type : TypeName) : resolution schema left type = resolution schema right type := by
  obtain ⟨named, accepted⟩ := rearranged.same
  have last : lastNamed? left = lastNamed? right := by
    funext other
    rw [lastNamed?, lastNamed?, named]
  rw [resolution, resolution, last, accepted]

theorem lastNamed?_append (calls : List Call) (call : Call) (type : TypeName) :
    lastNamed? (calls ++ [call]) type = (call.named? type).or (lastNamed? calls type) := by
  rw [lastNamed?, List.filterMap_append, List.getLast?_append]
  rcases here : call.named? type with _ | handler
  · rw [List.filterMap_cons_none here]
    rfl
  · rw [List.filterMap_cons_some here]
    rfl

/-- The types that a handler is registered for get it, and all others keep theirs. -/
theorem get?_exact_add (registry : Registry) (handler : Handler) (types : List TypeName) (type : TypeName) :
    (registry.add handler types).exact.get? type =
      if type ∈ types then some handler else registry.exact.get? type := by
  have folded : (registry.add handler types).exact =
      registry.exact.insertAll (types.map (fun type => (type, handler))) := by
    rw [OrderedMap.insertAll, List.foldl_map]
    rfl
  rw [folded, OrderedMap.get?_insertAll_map registry.exact types (fun _ => handler)]

/-- What a dispatch holds after some calls are the registrations among them. -/
structure Reflects (schema : Schema) (calls : List Call) (registry : Registry) : Prop where
  schema_eq : registry.schema = schema
  exact_eq : ∀ type, registry.exact.get? type = lastNamed? calls type
  dynamic_eq : registry.dynamic = calls.filterMap Call.dynamic?

namespace Reflects

variable {schema : Schema} {calls : List Call} {registry : Registry}

private theorem add (reflects : Reflects schema calls registry) {call : Call} {handler : Handler}
    {types : List TypeName}
    (exact : ∀ type, call.named? type = if type ∈ types then some handler else none)
    (dynamic : call.dynamic? = none) : Reflects schema (calls ++ [call]) (registry.add handler types) where
  schema_eq := reflects.schema_eq
  exact_eq type := by
    rw [get?_exact_add, lastNamed?_append, exact, reflects.exact_eq]
    split <;> rfl
  dynamic_eq := by
    rw [List.filterMap_append, List.filterMap_cons_none dynamic, List.filterMap_nil, List.append_nil]
    exact reflects.dynamic_eq

private theorem addDynamic (reflects : Reflects schema calls registry) (handler : Handler) (accepts : TypePredicate) :
    Reflects schema (calls ++ [.addDynamic handler accepts]) (registry.addDynamic handler accepts) where
  schema_eq := reflects.schema_eq
  exact_eq type := by
    rw [lastNamed?_append]
    exact reflects.exact_eq type
  dynamic_eq := by
    rw [List.filterMap_append, ← reflects.dynamic_eq]
    rfl

private theorem get (reflects : Reflects schema calls registry) (type : TypeName) :
    Reflects schema (calls ++ [.get type]) registry where
  schema_eq := reflects.schema_eq
  exact_eq other := by
    rw [lastNamed?_append]
    exact reflects.exact_eq other
  dynamic_eq := by
    rw [List.filterMap_append, ← reflects.dynamic_eq]
    exact (List.append_nil _).symm

/-- Such a registry resolves types as the registrations say. -/
theorem resolve_eq (reflects : Reflects schema calls registry) (type : TypeName) :
    registry.resolve type = resolution schema calls type := by
  have exact : registry.exact.get? = lastNamed? calls := funext reflects.exact_eq
  rw [Registry.resolve, exact, reflects.dynamic_eq, reflects.schema_eq, List.findSome?_cons, resolution,
    ← Option.or_assoc]
  cases lastNamed? calls type <;> rfl

end Reflects

/-- Every call keeps the registrations in step with the history. -/
theorem reflects_afterCalls (schema : Schema) (calls : List Call) :
    Reflects schema calls (afterCalls schema calls).registry := by
  induction calls using List.reverseRecOn with
  | nil => exact ⟨rfl, fun _ => rfl, rfl⟩
  | append_singleton calls call ih =>
    rw [afterCalls, List.foldl_append]
    cases call with
    | register handler additional => exact ih.add (fun _ => rfl) rfl
    | add handler types => exact ih.add (fun _ => rfl) rfl
    | addDynamic handler accepts => exact ih.addDynamic handler accepts
    | get type =>
      have kept := registry_get (afterCalls schema calls) type
      exact kept ▸ ih.get type

end Handler.Dispatch

namespace MetadataCache

/-- What can happen to a cache and to the objects that it describes. -/
inductive Call where
  | get (type : TypeName)
  | forObject (id : ObjectId)
  | allocate (node : Node)
  | edit (target : ObjectId) (change : Edit)

def perform : Heap × MetadataCache → Call → Heap × MetadataCache
  | (heap, cache), .get type => (heap, (cache.get type).2)
  | (heap, cache), .forObject id => (heap, (cache.forNode (heap.node id)).2)
  | (heap, cache), .allocate node => (heap.allocate node, cache)
  | (heap, cache), .edit target change => (heap.edit target change, cache)

def afterCalls (schema : Schema) (heap : Heap) (calls : List Call) : Heap × MetadataCache :=
  calls.foldl perform (heap, ofSchema schema)

private theorem schema_afterCalls (schema : Schema) (heap : Heap) (calls : List Call) :
    (afterCalls schema heap calls).2.schema = schema := by
  induction calls using List.reverseRecOn with
  | nil => rfl
  | append_singleton calls call ih =>
    rw [afterCalls, List.foldl_append]
    cases call with
    | get type => exact (schema_get _ type).trans ih
    | forObject id => exact (schema_forNode _ _).trans ih
    | allocate => exact ih
    | edit => exact ih

end MetadataCache

/-- Introspection finds the attributes that a bean has, in order, all of them raw. -/
theorem Metadata.introspect_eq {node : Node} {attributes : Attributes} (bean : node.attributes? = some attributes) :
    (introspect node).type = node.type ∧ (introspect node).names = attributes.keys ∧
      (introspect node).AllFields := by
  rw [introspect, names, OrderedMap.keys, AllFields, bean]
  refine ⟨rfl, ?_, ?_⟩
  · rw [Option.map_some, Option.getD_some, List.map_map]
    exact List.map_id _
  · intro entry listed
    obtain ⟨_, _, rfl⟩ := List.mem_map.1 listed
    rfl

open Handler (Dispatch)

/-- No answer depends on what was looked up before. A dispatch answers as the registrations so far say, which
need to be known only up to the order of those that do not compete. A cache answers as its schema does, and of
an object of a type that the schema does not declare it knows just the attributes that the object has now. -/
theorem remembering_invisible (hierarchy resolver : Schema) :
    (∀ calls type, ((Dispatch.afterCalls hierarchy calls).get type).1 = Dispatch.resolution hierarchy calls type) ∧
    (∀ left right, Dispatch.Rearranged left right → ∀ type,
      ((Dispatch.afterCalls hierarchy left).get type).1 = ((Dispatch.afterCalls hierarchy right).get type).1) ∧
    (∀ start calls, let state := MetadataCache.afterCalls resolver start calls;
      (∀ type, (state.2.get type).1 = resolver.metadata? type) ∧
      (∀ id metadata, resolver.metadata? (state.1.node id).type = some metadata →
        (state.2.forNode (state.1.node id)).1 = some metadata) ∧
      (∀ id, resolver.metadata? (state.1.node id).type = none →
        match (state.1.node id).attributes? with
        | none => (state.2.forNode (state.1.node id)).1 = none
        | some attributes => ∃ metadata, (state.2.forNode (state.1.node id)).1 = some metadata ∧
            metadata.type = (state.1.node id).type ∧ metadata.names = attributes.keys ∧
            metadata.AllFields)) := by
  have answers : ∀ calls type,
      ((Dispatch.afterCalls hierarchy calls).get type).1 = Dispatch.resolution hierarchy calls type := by
    intro calls type
    rw [Dispatch.get_fst]
    exact (Dispatch.reflects_afterCalls hierarchy calls).resolve_eq type
  refine ⟨answers, fun left right rearranged type => ?_, fun start calls => ?_⟩
  · rw [answers, answers, rearranged.resolution_eq]
  · have schema := MetadataCache.schema_afterCalls resolver start calls
    generalize MetadataCache.afterCalls resolver start calls = state at schema ⊢
    obtain ⟨heap, cache⟩ := state
    obtain rfl : cache.schema = resolver := schema
    refine ⟨cache.get_fst, fun id metadata known => ?_, fun id unknown => ?_⟩
    · rw [cache.forNode_fst, known, Option.some_or]
    · dsimp only
      rw [cache.forNode_fst, unknown, Option.none_or, Node.isBean]
      split
      · next other =>
        rw [other]
        rfl
      · next attributes bean =>
        refine ⟨.introspect (heap.node id), ?_, Metadata.introspect_eq bean⟩
        rw [bean]
        rfl

namespace Currencies

/-- Euros are money. -/
def schema : Schema := ⟨[{ name := ⟨"Money"⟩ }, { name := ⟨"Euro"⟩, parents := [⟨"Money"⟩] }]⟩

/-- Euros are looked up in vain, before money gets a handler. -/
def missed : List Dispatch.Call := [.get ⟨"Euro"⟩, .add .basic [⟨"Money"⟩], .addDynamic .frozen fun _ => true]

/-- The same registrations the other way round. -/
def turned : List Dispatch.Call := [.addDynamic .frozen fun _ => true, .add .basic [⟨"Money"⟩]]

/-- A note that is described, pinned and described again. -/
def notes : List MetadataCache.Call := [
  .allocate (.bean ⟨"Note"⟩ [("text", .text "hi")]), .forObject ⟨0⟩,
  .edit ⟨0⟩ (.setAttribute "pinned" (.bool true)), .get ⟨"Money"⟩]

private theorem rearranged_turned : Dispatch.Rearranged missed turned :=
  .trans (.lookUp [] _ ⟨"Euro"⟩) (.exchange [] [] (fun _ => .inr rfl) (.inl rfl))

/-- The miss does not stay, the predicate does not come first, and the note is described with its pin. -/
theorem euro_resolved :
    Dispatch.Rearranged missed turned ∧
    ((Dispatch.afterCalls schema missed).get ⟨"Euro"⟩).1 = some .basic ∧
    ((Dispatch.afterCalls schema turned).get ⟨"Euro"⟩).1 = some .basic ∧
    (let state := MetadataCache.afterCalls schema {} notes;
      schema.metadata? (state.1.node ⟨0⟩).type = none ∧
      ∃ metadata, (state.2.forNode (state.1.node ⟨0⟩)).1 = some metadata ∧
        metadata.names = ["text", "pinned"]) := by
  obtain ⟨answers, same, described⟩ := remembering_invisible schema schema
  have resolved : Dispatch.resolution schema missed ⟨"Euro"⟩ = some .basic := by decide +kernel
  have first := (answers missed ⟨"Euro"⟩).trans resolved
  refine ⟨rearranged_turned, first, (same missed turned rearranged_turned ⟨"Euro"⟩).symm.trans first, ?_⟩
  have undeclared : schema.metadata? ((MetadataCache.afterCalls schema {} notes).1.node ⟨0⟩).type = none := by rfl
  obtain ⟨metadata, known, -, names, -⟩ := (described {} notes).2.2 ⟨0⟩ undeclared
  exact ⟨undeclared, metadata, known, names⟩

end Currencies

end Reconciler
