import Reconciler.Metadata

/-! # Property access

Reading and writing a property first looks it up in the metadata, then asks for a bean, and only then
uses the field or the accessor. An attempt to write that gets there is one edit of the bean, also if
the setter refuses the value in the end.
-/

namespace Reconciler

inductive PropertyError where
  | unknown (type : TypeName) (property : String)
  | notReadable (type : TypeName) (property : String)
  | notWritable (type : TypeName) (property : String)
  | rejected (type : TypeName) (property : String) (rejection : Rejection) (target : ObjectId)
  | notABean (type : TypeName) (property : String)
deriving DecidableEq, Repr, Inhabited

namespace PropertyError

/-- Property names stand between backquotes in messages. -/
def mention (property : String) : String := "property `" ++ property ++ "`"

/-- The offending value is described while its target is being written. -/
def reason (heap : Heap) (target : ObjectId) (rejection : Rejection) : String :=
  match rejection.offender? with
  | none => rejection.explanation
  | some value => rejection.explanation ++ " " ++ heap.describeWhile target value

def message (heap : Heap) : PropertyError → String
  | unknown type property => type.name ++ " has no " ++ mention property
  | notReadable type property => mention property ++ " of " ++ type.name ++ " is write-only"
  | notWritable type property => mention property ++ " of " ++ type.name ++ " is read-only"
  | rejected type property rejection target =>
      mention property ++ " of " ++ type.name ++ " rejected value: " ++ reason heap target rejection
  | notABean type property => "cannot access " ++ mention property ++ " on non-bean " ++ type.name

theorem message_of_types {left right : Heap} (types : ∀ id, (left.node id).type = (right.node id).type)
    (error : PropertyError) : error.message left = error.message right := by
  unfold message
  cases error with
  | rejected => simp only [reason, Heap.describeWhile, Heap.describe_of_types types]
  | _ => rfl

end PropertyError

namespace Property

/-- The declared access and the bean that it goes to. -/
def open? (heap : Heap) (metadata : Metadata) (target : ObjectId) (property : String) :
    Except PropertyError (Access × Node) :=
  let node := heap.node target
  match metadata.access? property, node.isBean with
  | none, _ => throw (.unknown node.type property)
  | some _, false => throw (.notABean node.type property)
  | some access, true => return (access, node)

def read (heap : Heap) (metadata : Metadata) (target : ObjectId) (property : String) :
    Except PropertyError Value := do
  let (access, node) ← open? heap metadata target property
  match access with
  | .field => return node.attr property
  | .accessor (some getter) _ => return getter node
  | .accessor none _ => throw (.notReadable node.type property)

/-- The edit that an attempt to write makes, and the error in which it ends if the value is refused. -/
def attempt (heap : Heap) (metadata : Metadata) (target : ObjectId) (property : String)
    (value : Value) : Except PropertyError (Edit × Option PropertyError) := do
  let (access, node) ← open? heap metadata target property
  match access with
  | .field => return (.setAttribute property value, none)
  | .accessor _ (some setter) =>
      let assignment := setter node value
      let refused rejection := PropertyError.rejected node.type property rejection target
      return (.replaceAttributes assignment.attributes, assignment.rejection?.map refused)
  | .accessor _ none => throw (.notWritable node.type property)

/-- The edit that gives a property its new value, unless the value is refused. -/
def write (heap : Heap) (metadata : Metadata) (target : ObjectId) (property : String)
    (value : Value) : Except PropertyError Edit := do
  match ← attempt heap metadata target property value with
  | (change, none) => return change
  | (_, some error) => throw error

theorem read_field {heap : Heap} {metadata : Metadata} {target : ObjectId} {property : String}
    (declared : metadata.access? property = some .field) (bean : (heap.node target).isBean = true) :
    read heap metadata target property = .ok ((heap.node target).attr property) := by
  simp [read, open?, declared, bean, bind, Except.bind, pure, Except.pure]

theorem attempt_field {heap : Heap} {metadata : Metadata} {target : ObjectId} {property : String}
    (declared : metadata.access? property = some .field) (bean : (heap.node target).isBean = true) (value : Value) :
    attempt heap metadata target property value = .ok (.setAttribute property value, none) := by
  simp [attempt, open?, declared, bean, bind, Except.bind, pure, Except.pure]

/-- What was opened is the declared access to the bean. -/
theorem eq_of_open? {heap : Heap} {metadata : Metadata} {target : ObjectId} {property : String} {access : Access}
    {node : Node} (opened : open? heap metadata target property = .ok (access, node)) :
    metadata.access? property = some access ∧ node = heap.node target ∧ node.isBean = true := by
  simp only [open?] at opened
  split at opened
  · cases opened
  · cases opened
  · next declared bean =>
    cases opened
    exact ⟨declared, rfl, bean⟩

/-- What is written was not refused. -/
theorem write_eq_ok_iff {heap : Heap} {metadata : Metadata} {target : ObjectId} {property : String} {value : Value}
    {change : Edit} : write heap metadata target property value = .ok change ↔
      attempt heap metadata target property value = .ok (change, none) := by
  unfold write
  rcases attempt heap metadata target property value with _ | ⟨made, _ | refusal⟩ <;>
    simp [bind, Except.bind, pure, Except.pure, throw, throwThe, MonadExceptOf.throw]

/-- An attempt to write makes an edit, whether the value is refused in the end or not. -/
def Edits (heap : Heap) (metadata : Metadata) (target : ObjectId) (property : String) (value : Value)
    (change : Edit) : Prop :=
  ∃ refusal?, attempt heap metadata target property value = .ok (change, refusal?)

namespace Edits

variable {heap : Heap} {metadata : Metadata} {target : ObjectId} {property : String} {value : Value} {change : Edit}
  (edits : Edits heap metadata target property value change)

include edits

/-- A raw attribute is set as it is, and a setter leaves the attributes that it likes. -/
theorem cases : (heap.node target).isBean = true ∧
    (metadata.access? property = some .field ∧ change = .setAttribute property value ∨
      ∃ getter? setter, metadata.access? property = some (.accessor getter? (some setter)) ∧
        change = .replaceAttributes (setter (heap.node target) value).attributes) := by
  obtain ⟨refusal?, made⟩ := edits
  unfold attempt at made
  rcases opened : open? heap metadata target property with _ | ⟨access, node⟩
  · rw [opened] at made
    cases made
  obtain ⟨declared, rfl, bean⟩ := eq_of_open? opened
  rw [opened] at made
  refine ⟨bean, ?_⟩
  cases access with
  | field =>
    cases made
    exact .inl ⟨declared, rfl⟩
  | accessor getter? setter? =>
    cases setter? with
    | none => cases made
    | some setter =>
      cases made
      exact .inr ⟨getter?, setter, declared, rfl⟩

theorem isBean : (heap.node target).isBean = true := edits.cases.1

omit edits in
theorem of_write (made : write heap metadata target property value = .ok change) :
    Edits heap metadata target property value change :=
  ⟨none, write_eq_ok_iff.1 made⟩

theorem eq_of_field (declared : metadata.access? property = some .field) : change = .setAttribute property value := by
  rcases edits.cases.2 with ⟨-, raw⟩ | ⟨getter?, setter, other, -⟩
  · exact raw
  · cases declared.symm.trans other

/-- No attempt changes where its target came from. -/
theorem ne_setOrigin (origin : Origin) : change ≠ .setOrigin origin := by
  rcases edits.cases.2 with ⟨-, rfl⟩ | ⟨_, _, -, rfl⟩
  · exact nofun
  · exact nofun

end Edits

end Property

end Reconciler
