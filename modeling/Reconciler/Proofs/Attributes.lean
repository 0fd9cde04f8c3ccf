import Reconciler.Property
import Reconciler.Schema

/-! # Attributes under edits

An edit assigns an attribute or leaves it alone, and a property that is read or written leads back to the
attributes of one bean. A schema that declares raw attributes only has metadata with raw attributes only.
-/

namespace Reconciler

/-- The value that an edit gives to an attribute of a bean, if it gives it one. -/
def Edit.assigns? (name : String) : Edit → Option Value
  | .setAttribute other value => if other = name then some value else none
  | .replaceAttributes attributes => some ((attributes.get? name).getD .null)
  | _ => none

namespace Node

theorem attr_of_attributes {node : Node} {attributes : Attributes}
    (bean : node.attributes? = some attributes) (name : String) :
    node.attr name = (attributes.get? name).getD .null := by
  simp [attr, bean]

theorem attr_of_notBean {node : Node} (other : node.isBean = false) (name : String) : node.attr name = .null := by
  rw [isBean, Option.isSome_eq_false_iff, Option.isNone_iff_eq_none] at other
  simp [attr, other]

/-- A node has the content that an edit gives it. -/
theorem content_edited {node : Node} {edit : Edit} {content : Content}
    (fits : node.content.edited? edit = some content) : (node.edited edit).content = content := by
  unfold edited
  rw [fits]
  cases edit <;> rfl

/-- No edit makes a bean of another node, or another node of a bean. -/
@[simp] theorem isBean_edited (node : Node) (edit : Edit) : (node.edited edit).isBean = node.isBean := by
  unfold edited
  split
  · rfl
  · next after fits =>
    rcases node with ⟨type, origin, content⟩
    have same : (Node.mk type origin after).isBean = (Node.mk type origin content).isBean := by
      cases content <;> cases edit <;> simp_all [Content.edited?] <;> obtain ⟨_, rfl⟩ := fits <;> rfl
    split <;> exact same

/-- Setting an attribute of a bean sets that attribute and no other. -/
theorem attr_setAttribute {node : Node} (bean : node.isBean = true) (name : String) (value : Value)
    (wanted : String) :
    (node.edited (.setAttribute name value)).attr wanted = if name = wanted then value else node.attr wanted := by
  rcases node with ⟨type, origin, content⟩
  cases content with
  | bean attributes =>
    simp only [edited, Content.edited?, attr, attributes?, Option.bind_some, OrderedMap.get?_insert]
    split <;> rfl
  | _ => cases bean

/-- An attribute after an edit is what the edit assigned to it, or else what it was before. -/
theorem attr_edited (node : Node) (edit : Edit) (name : String) :
    (node.edited edit).attr name = node.attr name ∨
      edit.assigns? name = some ((node.edited edit).attr name) := by
  rcases bean : node.isBean with _ | _
  · have other := (isBean_edited node edit).trans bean
    exact .inl ((attr_of_notBean other name).trans (attr_of_notBean bean name).symm)
  · cases edit with
    | setAttribute other value =>
      have after := attr_setAttribute bean other value name
      by_cases same : other = name
      · right
        rw [after, if_pos same, Edit.assigns?, if_pos same]
      · left
        rw [after, if_neg same]
    | replaceAttributes all =>
      right
      rcases node with ⟨type, origin, content⟩
      cases content with
      | bean attributes => rfl
      | _ => cases bean
    | _ =>
      left
      rcases node with ⟨type, origin, content⟩
      cases content with
      | bean attributes => rfl
      | _ => cases bean

/-- An attribute that the edit does not assign stays. -/
theorem attr_edited_of_spared (node : Node) {edit : Edit} {name : String}
    (spared : edit.assigns? name = none) : (node.edited edit).attr name = node.attr name :=
  (attr_edited node edit name).resolve_right fun assigned => by cases spared.symm.trans assigned

/-- A new node like another one has no attributes yet. -/
theorem attr_emptyLike (node : Node) (name : String) : node.emptyLike.attr name = .null := by
  rcases node with ⟨type, origin, content⟩
  cases content <;> rfl

@[simp] theorem isBean_emptyLike (node : Node) : node.emptyLike.isBean = node.isBean := by
  rcases node with ⟨type, origin, content⟩
  cases content <;> rfl

theorem shape?_emptyLike (node : Node) : node.emptyLike.shape? = node.shape? := by
  unfold emptyLike shape? Content.emptied
  cases node.content <;> rfl

/-- Beans have no shape. -/
theorem shape?_of_isBean {node : Node} (bean : node.isBean = true) : node.shape? = none := by
  rcases node with ⟨type, origin, content⟩
  cases content with
  | bean => rfl
  | _ => cases bean

/-- Collections and maps are no beans. -/
theorem isBean_of_isContainer {node : Node} (container : node.isContainer = true) : node.isBean = false := by
  rcases node with ⟨type, origin, content⟩
  cases content with
  | bean => cases container
  | _ => rfl

/-- A new collection or map like another one is empty. -/
theorem size_emptyLike {node : Node} (container : node.isContainer = true) : node.emptyLike.size = 0 := by
  rcases node with ⟨type, origin, content⟩
  cases content with
  | array => cases container
  | _ => rfl

end Node

namespace Heap

/-- A place that was never allocated has no attributes. -/
theorem attr_of_not_holds {heap : Heap} {id : ObjectId} (absent : ¬ heap.Holds id) (name : String) :
    (heap.node id).attr name = .null := by
  rw [node_of_not_holds absent]
  rfl

/-- An object that is allocated empty brings no attributes. -/
theorem attr_allocate (heap : Heap) (node : Node) (id : ObjectId) (name : String) :
    ((heap.allocate node.emptyLike).node id).attr name = (heap.node id).attr name := by
  by_cases new : id = heap.fresh
  · have absent : ¬ heap.Holds id := by
      subst new
      exact Nat.lt_irrefl _
    rw [attr_of_not_holds absent, node_allocate, if_pos new]
    exact Node.attr_emptyLike node name
  · rw [node_allocate, if_neg new]

/-- An attribute after an edit is what the edit assigned to it, if it was made to the object. -/
theorem attr_edit (heap : Heap) (target : ObjectId) (change : Edit) (id : ObjectId) (name : String) :
    ((heap.edit target change).node id).attr name = (heap.node id).attr name ∨
      id = target ∧ change.assigns? name = some (((heap.edit target change).node id).attr name) := by
  rw [node_edit]
  split
  · next here =>
    rcases Node.attr_edited (heap.node id) change name with same | assigned
    · exact .inl same
    · exact .inr ⟨here.1, assigned⟩
  · exact .inl rfl

/-- Setting an attribute of a bean in the heap. -/
theorem attr_edit_setAttribute {heap : Heap} {target : ObjectId} (held : heap.Holds target)
    (bean : (heap.node target).isBean = true) (name : String) (value : Value) (wanted : String) :
    ((heap.edit target (.setAttribute name value)).node target).attr wanted =
      if name = wanted then value else (heap.node target).attr wanted := by
  rw [node_edit_self held, Node.attr_setAttribute bean]

theorem attr_edit_of_spared (heap : Heap) (target : ObjectId) {change : Edit} {name : String}
    (spared : change.assigns? name = none) (id : ObjectId) :
    ((heap.edit target change).node id).attr name = (heap.node id).attr name := by
  rw [node_edit]
  split
  · exact Node.attr_edited_of_spared _ spared
  · rfl

end Heap

namespace Property

/-- What was read is a raw attribute of a bean, or what the getter makes of the bean. -/
theorem read_cases {heap : Heap} {metadata : Metadata} {target : ObjectId} {property : String}
    {value : Value} (found : read heap metadata target property = .ok value) :
    (heap.node target).isBean = true ∧
      (metadata.access? property = some .field ∧ value = (heap.node target).attr property ∨
        ∃ getter setter?, metadata.access? property = some (.accessor (some getter) setter?) ∧
          value = getter (heap.node target)) := by
  unfold read at found
  rcases opened : open? heap metadata target property with _ | ⟨access, node⟩
  · rw [opened] at found
    cases found
  obtain ⟨declared, rfl, bean⟩ := eq_of_open? opened
  rw [opened] at found
  refine ⟨bean, ?_⟩
  cases access with
  | field => exact .inl ⟨declared, (Except.ok.inj found).symm⟩
  | accessor getter? setter? =>
    cases getter? with
    | none => cases found
    | some getter => exact .inr ⟨getter, setter?, declared, (Except.ok.inj found).symm⟩

theorem read_of_field {heap : Heap} {metadata : Metadata} {target : ObjectId} {property : String}
    {value : Value} (declared : metadata.access? property = some .field)
    (found : read heap metadata target property = .ok value) :
    value = (heap.node target).attr property := by
  rcases (read_cases found).2 with ⟨-, raw⟩ | ⟨getter, setter?, other, -⟩
  · exact raw
  · cases declared.symm.trans other

theorem read_of_accessor {heap : Heap} {metadata : Metadata} {target : ObjectId} {property : String}
    {value : Value} {getter? : Option Getter} {setter? : Option Setter}
    (declared : metadata.access? property = some (.accessor getter? setter?))
    (found : read heap metadata target property = .ok value) :
    ∃ getter, getter? = some getter ∧ value = getter (heap.node target) := by
  rcases (read_cases found).2 with ⟨other, -⟩ | ⟨getter, _, same, result⟩
  · cases declared.symm.trans other
  · cases declared.symm.trans same
    exact ⟨getter, rfl, result⟩

end Property

namespace OrderedMap

variable {κ ν : Type} [DecidableEq κ]

/-- A value that a lookup finds is bound to the key. -/
theorem mem_of_get? {map : OrderedMap κ ν} {key : κ} {value : ν} (found : map.get? key = some value) :
    (key, value) ∈ map.entries := by
  rw [get?, Option.map_eq_some_iff] at found
  obtain ⟨entry, found, rfl⟩ := found
  have same : entry.1 = key := by simpa using List.find?_some found
  exact same ▸ List.mem_of_find?_eq_some found

private theorem forall_put (holds : ν → Prop) {key : κ} {value : ν} (new : holds value)
    {entries : List (κ × ν)} (all : ∀ entry ∈ entries, holds entry.2) :
    ∀ entry ∈ put key value entries, holds entry.2 := by
  induction entries with
  | nil => simpa [put] using new
  | cons head rest ih =>
    rw [List.forall_mem_cons] at all
    unfold put
    split
    · exact List.forall_mem_cons.2 ⟨new, all.2⟩
    · exact List.forall_mem_cons.2 ⟨all.1, ih all.2⟩

/-- What holds of all values before and of all new ones holds of all values after. -/
theorem forall_insertAll (holds : ν → Prop) {map : OrderedMap κ ν}
    (all : ∀ entry ∈ map.entries, holds entry.2) {bindings : List (κ × ν)}
    (new : ∀ entry ∈ bindings, holds entry.2) :
    ∀ entry ∈ (map.insertAll bindings).entries, holds entry.2 := by
  induction bindings generalizing map with
  | nil => exact all
  | cons binding rest ih =>
    rw [List.forall_mem_cons] at new
    exact ih (forall_put holds new.1 all) new.2

theorem forall_ofList (holds : ν → Prop) {bindings : List (κ × ν)} (all : ∀ entry ∈ bindings, holds entry.2) :
    ∀ entry ∈ (ofList bindings).entries, holds entry.2 :=
  forall_insertAll holds (by simp [empty]) all

end OrderedMap

namespace Schema

/-- All declared properties are raw attributes. -/
def AllFields (schema : Schema) : Prop :=
  ∀ decl ∈ schema.types, ∀ entry ∈ decl.properties.entries, entry.2 = .field

private theorem mem_lineageFrom {schema : Schema} (fuel : Nat) (done : List TypeDecl) (type : TypeName) :
    ∀ decl ∈ schema.lineageFrom fuel done type, decl ∈ done ∨ decl ∈ schema.types := by
  induction fuel generalizing done type with
  | zero => exact fun _ member => .inl member
  | succ fuel ih =>
    unfold lineageFrom
    split
    · exact fun _ member => .inl member
    rcases found : schema.find? type with _ | own
    · exact fun _ member => .inl member
    -- Every parent adds declared types to what was done before it.
    have parents : ∀ (types : List TypeName) (done : List TypeDecl),
        ∀ decl ∈ types.foldl (schema.lineageFrom fuel) done, decl ∈ done ∨ decl ∈ schema.types := by
      intro types
      induction types with
      | nil => exact fun _ _ member => .inl member
      | cons parent rest others =>
        intro done decl member
        rcases others _ decl member with earlier | declared
        · exact ih done parent decl earlier
        · exact .inr declared
    intro decl member
    rcases List.mem_append.1 member with inherited | same
    · exact parents _ _ _ inherited
    · obtain rfl := List.mem_singleton.1 same
      exact .inr (List.mem_of_find?_eq_some found)

/-- What holds of every declared access holds of the properties of a type. -/
theorem forall_access {schema : Schema} (holds : Access → Prop)
    (declared : ∀ decl ∈ schema.types, ∀ entry ∈ decl.properties.entries, holds entry.2) {type : TypeName}
    {metadata : Metadata} (known : schema.metadata? type = some metadata) :
    ∀ entry ∈ metadata.properties.entries, holds entry.2 := by
  obtain rfl := Option.some.inj (Option.ite_none_right_eq_some.1 known).2
  have lineage : ∀ decl ∈ schema.lineage type, decl ∈ schema.types := fun decl member =>
    (mem_lineageFrom _ _ type decl member).resolve_left (by simp)
  have collected : ∀ (decls : List TypeDecl) (done : OrderedMap String Access),
      (∀ decl ∈ decls, decl ∈ schema.types) → (∀ entry ∈ done.entries, holds entry.2) →
      ∀ entry ∈ (decls.foldl (fun done decl => done.insertAll decl.properties.entries) done).entries,
        holds entry.2 := by
    intro decls
    induction decls with
    | nil => exact fun _ _ all => all
    | cons decl rest ih =>
      intro done known all
      rw [List.forall_mem_cons] at known
      exact ih _ known.2 (OrderedMap.forall_insertAll holds all (declared decl known.1))
  exact collected _ _ lineage (by simp [OrderedMap.empty])

theorem AllFields.metadata? {schema : Schema} (fields : schema.AllFields) {type : TypeName}
    {metadata : Metadata} (known : schema.metadata? type = some metadata) : metadata.AllFields :=
  forall_access (· = Access.field) fields known

end Schema

/-- Metadata of raw attributes know no other access. -/
theorem Metadata.AllFields.access?_eq {metadata : Metadata} (fields : metadata.AllFields)
    {property : String} {access : Access} (declared : metadata.access? property = some access) :
    access = .field :=
  fields _ (OrderedMap.mem_of_get? declared)

/-- Introspection finds raw attributes only. -/
theorem Metadata.allFields_introspect (node : Node) : (Metadata.introspect node).AllFields := by
  intro entry member
  obtain ⟨name, -, rfl⟩ := List.mem_map.1 member
  rfl

/-- A declared property is among the names. -/
theorem Metadata.mem_names_of_access? {metadata : Metadata} {property : String} {access : Access}
    (declared : metadata.access? property = some access) : property ∈ metadata.names :=
  List.mem_map.2 ⟨_, OrderedMap.mem_of_get? declared, rfl⟩

/-- A listed property has an access. -/
theorem Metadata.access?_of_mem_names {metadata : Metadata} {property : String}
    (listed : property ∈ metadata.names) : ∃ access, metadata.access? property = some access := by
  obtain ⟨entry, member, rfl⟩ := List.mem_map.1 listed
  rcases found : metadata.access? entry.1 with _ | access
  · rw [Metadata.access?, OrderedMap.get?, Option.map_eq_none_iff, List.find?_eq_none] at found
    exact absurd (decide_eq_true rfl) (found entry member)
  · exact ⟨access, rfl⟩

end Reconciler
