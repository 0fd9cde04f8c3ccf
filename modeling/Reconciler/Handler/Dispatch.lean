import Reconciler.Handler.Registry

/-! # Remembered dispatch

A dispatch is a registry with the answers that it has given since the last registration, misses
included. What is remembered is always what the registry would answer, so remembering never changes
what a caller sees.
-/

namespace Reconciler.Handler

/-- A registry together with the answers that it has given since the last registration. -/
structure Dispatch where
  registry : Registry
  memo : OrderedMap TypeName (Option Handler) := .empty
  /-- What is kept is what a resolution answers. -/
  memo_eq : ∀ type answer, memo.get? type = some answer → registry.resolve type = answer :=
    by intro type answer kept; simp at kept

namespace Dispatch

def ofRegistry (registry : Registry) : Dispatch := { registry }

instance : Inhabited Dispatch := ⟨ofRegistry default⟩

/-- A registration forgets all answers. -/
def add (dispatch : Dispatch) (handler : Handler) (types : List TypeName) : Dispatch :=
  ofRegistry (dispatch.registry.add handler types)

def addDynamic (dispatch : Dispatch) (handler : Handler) (accepts : TypePredicate) : Dispatch :=
  ofRegistry (dispatch.registry.addDynamic handler accepts)

/-- The handler of a type, kept until the next registration. -/
def get (dispatch : Dispatch) (type : TypeName) : Option Handler × Dispatch :=
  match dispatch.memo.get? type with
  | some answer => (answer, dispatch)
  | none =>
      let answer := dispatch.registry.resolve type
      (answer,
        { registry := dispatch.registry
          memo := dispatch.memo.insert type answer
          memo_eq := by
            intro other found kept
            rw [OrderedMap.get?_insert] at kept
            split at kept
            · next same => rw [← same]; exact Option.some.inj kept
            · exact dispatch.memo_eq other found kept })

@[simp] theorem registry_get (dispatch : Dispatch) (type : TypeName) :
    (dispatch.get type).2.registry = dispatch.registry := by
  unfold get
  split <;> rfl

/-- A look-up answers as a resolution does. -/
@[simp] theorem get_fst (dispatch : Dispatch) (type : TypeName) :
    (dispatch.get type).1 = dispatch.registry.resolve type := by
  unfold get
  split
  · next answer kept => exact (dispatch.memo_eq type answer kept).symm
  · rfl

/-- The handler of a value: that of its type, or else that of its container shape. -/
def forValue (dispatch : Dispatch) (heap : Heap) (value : Value) : Option Handler × Dispatch :=
  match value.typeName? heap with
  | none => (none, dispatch)
  | some type =>
      match dispatch.get type with
      | (some handler, dispatch) => (some handler, dispatch)
      | (none, dispatch) =>
          match value.shape? heap with
          | none => (none, dispatch)
          | some shape => dispatch.get shape

@[simp] theorem registry_forValue (dispatch : Dispatch) (heap : Heap) (value : Value) :
    (dispatch.forValue heap value).2.registry = dispatch.registry := by
  unfold forValue
  split
  · rfl
  · next type _ =>
    have kept := registry_get dispatch type
    split
    · simp_all
    · split <;> simp_all

theorem forValue_fst (dispatch : Dispatch) (heap : Heap) (value : Value) :
    (dispatch.forValue heap value).1 = dispatch.registry.ofValue heap value := by
  unfold forValue Registry.ofValue
  split
  · next missing => simp [missing]
  · next type known =>
    have answer := get_fst dispatch type
    have kept := registry_get dispatch type
    split
    · next found => rw [found] at answer; simp [known, ← answer]
    · next missed =>
      rw [missed] at answer kept
      cases shape : value.shape? heap <;> simp_all [← answer]

end Dispatch

end Reconciler.Handler
