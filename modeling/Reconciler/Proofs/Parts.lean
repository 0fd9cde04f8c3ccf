import Reconciler.Heap.Reach
import Reconciler.Proofs.Attributes

/-! # What edits put into objects

A part of an object after an edit was a part before, or is one of the values that the edit carries. So a
property of all parts survives every edit that carries only values with that property, and a heap whose
objects refer to objects of the heap stays closed.
-/

namespace Reconciler

/-- The values that an edit may put into an object. -/
def Edit.values : Edit → List Value
  | .setAttribute _ value => [value]
  | .replaceAttributes attributes => attributes.values
  | .setItems values => values
  | .setSlot _ value => [value]
  | .append value => [value]
  | .setBindings entries => entries.flatMap (fun entry => [entry.1, entry.2])
  | .bind key value => [key, value]
  | .setOrigin _ => []

namespace OrderedMap

variable {κ ν : Type} [DecidableEq κ]

/-- A binding after an insertion is the new one or was there before. -/
theorem mem_put {key : κ} {value : ν} {bindings : List (κ × ν)} {entry : κ × ν}
    (member : entry ∈ put key value bindings) : entry = (key, value) ∨ entry ∈ bindings := by
  induction bindings with
  | nil => exact .inl (List.mem_singleton.1 member)
  | cons head rest ih =>
    unfold put at member
    split at member
    · next same =>
      rcases List.mem_cons.1 member with rfl | later
      · exact .inl (congrArg (·, value) same)
      · exact .inr (List.mem_cons_of_mem _ later)
    · rcases List.mem_cons.1 member with rfl | later
      · exact .inr List.mem_cons_self
      · exact (ih later).imp id (List.mem_cons_of_mem _)

/-- A binding after some insertions is one of the new ones or was there before. -/
theorem mem_insertAll {map : OrderedMap κ ν} {bindings : List (κ × ν)} {entry : κ × ν}
    (member : entry ∈ (map.insertAll bindings).entries) : entry ∈ bindings ∨ entry ∈ map.entries := by
  induction bindings generalizing map with
  | nil => exact .inr member
  | cons head rest ih =>
    rcases ih member with later | before
    · exact .inl (List.mem_cons_of_mem _ later)
    · rcases mem_put before with rfl | before
      · exact .inl List.mem_cons_self
      · exact .inr before

end OrderedMap

/-- Offering what a collection holds to an empty one of its kind builds it up again. -/
theorem Content.collected_eq {kind : CollectionKind} {elements : List Value}
    (distinct : kind = .set → elements.Nodup) : collected kind elements = elements := by
  have appended : ∀ (rest done : List Value), (kind = .set → (done ++ rest).Nodup) →
      rest.foldl (appended kind) done = done ++ rest := by
    intro rest
    induction rest with
    | nil => exact fun done _ => (List.append_nil done).symm
    | cons element rest ih =>
      intro done distinct
      have accepted : ¬ (kind = .set ∧ element ∈ done) := fun known =>
        (List.nodup_append.1 (distinct known.1)).2.2 _ known.2 _ List.mem_cons_self rfl
      rw [List.foldl_cons, appended, if_neg accepted, ih, List.append_assoc, List.singleton_append]
      rw [List.append_assoc, List.singleton_append]
      exact distinct
  exact appended elements [] distinct

theorem Content.collected_append (kind : CollectionKind) (values : List Value) (value : Value) :
    collected kind (values ++ [value]) = appended kind (collected kind values) value := by
  rw [collected, List.foldl_append]
  rfl

/-- Whatever a collection took in was offered to it. -/
theorem Content.mem_collected {kind : CollectionKind} {values : List Value} {value : Value}
    (member : value ∈ collected kind values) : value ∈ values := by
  have taken : ∀ elements, value ∈ values.foldl (appended kind) elements →
      value ∈ elements ∨ value ∈ values := by
    clear member
    induction values with
    | nil => exact fun _ before => .inl before
    | cons head rest ih =>
      intro elements member
      rcases ih _ member with before | later
      · unfold appended at before
        split at before
        · exact .inl before
        · rcases List.mem_append.1 before with before | last
          · exact .inl before
          · obtain rfl := List.mem_singleton.1 last
            exact .inr List.mem_cons_self
      · exact .inr (List.mem_cons_of_mem _ later)
  exact (taken [] member).resolve_left List.not_mem_nil

/-- The slots of an array are filled from the first one on. -/
theorem Content.edited?_setSlot_next (component : TypeName) {images : List Value} {total : Nat}
    (short : images.length < total) (image : Value) :
    (array component (images ++ .replicate (total - images.length) .null)).edited? (.setSlot images.length image) =
      some (array component (images ++ [image] ++ .replicate (total - (images.length + 1)) .null)) := by
  obtain ⟨rest, length⟩ : ∃ rest, total - images.length = rest + 1 := ⟨total - images.length - 1, by omega⟩
  have left : total - (images.length + 1) = rest := by omega
  have inside : images.length < (images ++ .replicate (rest + 1) Value.null).length := by simp
  rw [length, left, edited?, if_pos inside, List.set_append_right _ _ (Nat.le_refl _), Nat.sub_self,
    List.replicate_succ, List.set_cons_zero, List.append_assoc, List.singleton_append]

namespace Node

/-- The keys and values of a map are its parts. -/
theorem mem_entries {entries : List (Value × Value)} {part : Value}
    (member : part ∈ entries.flatMap (fun entry => [entry.1, entry.2])) :
    ∃ entry ∈ entries, part = entry.1 ∨ part = entry.2 := by
  obtain ⟨entry, listed, either⟩ := List.mem_flatMap.1 member
  exact ⟨entry, listed, by simpa using either⟩

theorem mem_flatMap_of_mem {entries : List (Value × Value)} {entry : Value × Value}
    (listed : entry ∈ entries) {part : Value} (either : part = entry.1 ∨ part = entry.2) :
    part ∈ entries.flatMap (fun entry => [entry.1, entry.2]) :=
  List.mem_flatMap.2 ⟨entry, listed, by simpa using either⟩

private theorem parts_eq_of_content {node other : Node} (same : node.content = other.content) :
    node.parts = other.parts := by
  rw [parts, same, parts]

section Contents

variable {type : TypeName} {origin : Origin} {edit : Edit} {after : Content} {part : Value}
  (member : part ∈ (Node.mk type origin after).parts)

include member

private theorem mem_parts_of_bean {attributes : Attributes}
    (fits : (Content.bean attributes).edited? edit = some after) : part ∈ attributes.values ∨ part ∈ edit.values := by
  cases edit with
  | setAttribute name value =>
    obtain rfl := Option.some.inj fits
    obtain ⟨entry, listed, rfl⟩ := List.mem_map.1 member
    rcases OrderedMap.mem_put listed with rfl | before
    · exact .inr List.mem_cons_self
    · exact .inl (List.mem_map.2 ⟨entry, before, rfl⟩)
  | replaceAttributes all =>
    obtain rfl := Option.some.inj fits
    exact .inr member
  | setOrigin wanted =>
    obtain rfl := Option.some.inj fits
    exact .inl member
  | _ => cases fits

private theorem mem_parts_of_array {component : TypeName} {slots : List Value}
    (fits : (Content.array component slots).edited? edit = some after) : part ∈ slots ∨ part ∈ edit.values := by
  cases edit with
  | setItems values =>
    obtain rfl := Option.some.inj fits
    exact .inr member
  | setSlot index value =>
    obtain ⟨-, same⟩ := Option.ite_none_right_eq_some.1 fits
    obtain rfl := Option.some.inj same
    rcases List.mem_or_eq_of_mem_set member with before | rfl
    · exact .inl before
    · exact .inr List.mem_cons_self
  | setOrigin wanted =>
    obtain rfl := Option.some.inj fits
    exact .inl member
  | _ => cases fits

private theorem mem_parts_of_collection {kind : CollectionKind} {elements : List Value}
    (fits : (Content.collection kind elements).edited? edit = some after) :
    part ∈ elements ∨ part ∈ edit.values := by
  cases edit with
  | setItems values =>
    obtain rfl := Option.some.inj fits
    exact .inr (Content.mem_collected member)
  | append value =>
    obtain ⟨-, same⟩ := Option.ite_none_left_eq_some.1 fits
    obtain rfl := Option.some.inj same
    exact List.mem_append.1 member
  | setOrigin wanted =>
    obtain rfl := Option.some.inj fits
    exact .inl member
  | _ => cases fits

private theorem mem_parts_of_map {bindings : OrderedMap Value Value}
    (fits : (Content.map bindings).edited? edit = some after) :
    part ∈ bindings.entries.flatMap (fun entry => [entry.1, entry.2]) ∨ part ∈ edit.values := by
  cases edit with
  | setBindings entries =>
    obtain rfl := Option.some.inj fits
    obtain ⟨entry, listed, either⟩ := mem_entries member
    have offered := (OrderedMap.mem_insertAll listed).resolve_right List.not_mem_nil
    exact .inr (mem_flatMap_of_mem offered either)
  | bind key value =>
    obtain rfl := Option.some.inj fits
    obtain ⟨entry, listed, either⟩ := mem_entries member
    rcases OrderedMap.mem_put listed with rfl | before
    · right
      rcases either with rfl | rfl
      · exact List.mem_cons_self
      · exact List.mem_cons_of_mem _ List.mem_cons_self
    · exact .inl (mem_flatMap_of_mem before either)
  | setOrigin wanted =>
    obtain rfl := Option.some.inj fits
    exact .inl member
  | _ => cases fits

end Contents

/-- A part of an edited node was a part of the node or was carried by the edit. -/
theorem mem_parts_edited {node : Node} {edit : Edit} {part : Value}
    (member : part ∈ (node.edited edit).parts) : part ∈ node.parts ∨ part ∈ edit.values := by
  rcases node with ⟨type, origin, content⟩
  rcases fits : content.edited? edit with _ | after
  · left
    rwa [edited, fits] at member
  have parts : ((Node.mk type origin content).edited edit).parts = (Node.mk type origin after).parts :=
    parts_eq_of_content (content_edited fits)
  rw [parts] at member
  cases content with
  | bean attributes => exact mem_parts_of_bean member fits
  | array component slots => exact mem_parts_of_array member fits
  | collection kind elements => exact mem_parts_of_collection member fits
  | map bindings => exact mem_parts_of_map member fits
  | sealed =>
    cases edit with
    | setOrigin wanted =>
      obtain rfl := Option.some.inj fits
      exact .inl member
    | _ => cases fits

/-- An empty node holds nothing but nulls. -/
theorem mem_parts_emptyLike {node : Node} {part : Value} (member : part ∈ node.emptyLike.parts) :
    part = .null := by
  rcases node with ⟨type, origin, content⟩
  cases content with
  | array component slots => exact (List.mem_replicate.1 member).2
  | _ => cases member

/-- An empty node without slots has no parts at all. -/
theorem parts_emptyLike_of_bare {node : Node} (bare : node.parts = []) : node.emptyLike.parts = [] := by
  rcases node with ⟨type, origin, content⟩
  cases content with
  | array component slots =>
    have none : slots = [] := bare
    subst none
    rfl
  | _ => rfl

/-- An attribute is a part, or null if it is missing. -/
theorem attr_null_or_mem_parts (node : Node) (name : String) :
    node.attr name = .null ∨ node.attr name ∈ node.parts := by
  rcases node with ⟨type, origin, content⟩
  cases content with
  | bean attributes =>
    rcases found : attributes.get? name with _ | value
    · left
      simp [attr, attributes?, found]
    · right
      have value_eq : (Node.mk type origin (.bean attributes)).attr name = value := by
        simp [attr, attributes?, found]
      rw [value_eq]
      exact List.mem_map.2 ⟨_, OrderedMap.mem_of_get? found, rfl⟩
  | _ => exact .inl rfl

theorem mem_parts_of_items {node : Node} {item : Value} (member : item ∈ node.items) : item ∈ node.parts := by
  rcases node with ⟨type, origin, content⟩
  cases content with
  | array component slots => exact member
  | collection kind elements => exact member
  | _ => cases member

theorem mem_parts_of_bindings {node : Node} {entry : Value × Value} (member : entry ∈ node.bindings) :
    entry.1 ∈ node.parts ∧ entry.2 ∈ node.parts := by
  rcases node with ⟨type, origin, content⟩
  cases content with
  | map bindings => exact ⟨mem_flatMap_of_mem member (.inl rfl), mem_flatMap_of_mem member (.inr rfl)⟩
  | _ => cases member

end Node

namespace Heap

/-- Objects refer to objects that were allocated. -/
def Closed (heap : Heap) : Prop :=
  ∀ id part, .object part ∈ (heap.node id).parts → heap.Holds part

theorem Closed.holds_attr {heap : Heap} (closed : heap.Closed) {id part : ObjectId} {name : String}
    (refers : (heap.node id).attr name = .object part) : heap.Holds part := by
  rcases Node.attr_null_or_mem_parts (heap.node id) name with null | listed
  · cases null.symm.trans refers
  · exact closed id part (refers ▸ listed)

/-- A place that was never allocated holds nothing. -/
theorem parts_of_not_holds {heap : Heap} {id : ObjectId} (absent : ¬ heap.Holds id) :
    (heap.node id).parts = [] := by
  rw [node_of_not_holds absent]
  rfl

/-- Only the objects that are there have to be looked at. -/
theorem closed_iff (heap : Heap) : heap.Closed ↔ ∀ index < heap.size, ∀ value ∈ (heap.node ⟨index⟩).parts,
    value.object?.all (fun part => decide (heap.Holds part)) = true := by
  constructor
  · intro closed index _ value listed
    rcases object : value.object? with _ | part
    · rfl
    · obtain rfl := (Value.object?_eq_some_iff _ _).1 object
      exact decide_eq_true (closed _ _ listed)
  · intro all id part listed
    by_cases held : heap.Holds id
    · exact of_decide_eq_true (all id.index held _ listed)
    · rw [parts_of_not_holds held] at listed
      cases listed

instance (heap : Heap) : Decidable heap.Closed :=
  decidable_of_iff' _ heap.closed_iff

/-- A part of an object after an edit was a part before or was carried by the edit. -/
theorem mem_parts_edit {heap : Heap} {target : ObjectId} {change : Edit} {id : ObjectId} {part : Value}
    (member : part ∈ ((heap.edit target change).node id).parts) :
    part ∈ (heap.node id).parts ∨ id = target ∧ part ∈ change.values := by
  rw [node_edit] at member
  split at member
  · next here =>
    rcases Node.mem_parts_edited member with before | carried
    · exact .inl before
    · exact .inr ⟨here.1, carried⟩
  · exact .inl member

/-- A part of an object after an empty one was allocated was a part before, or is null. -/
theorem mem_parts_allocate {heap : Heap} {node : Node} {id : ObjectId} {part : Value}
    (member : part ∈ ((heap.allocate node.emptyLike).node id).parts) :
    part ∈ (heap.node id).parts ∨ part = .null := by
  by_cases new : id = heap.fresh
  · rw [node_allocate, if_pos new] at member
    exact .inr (Node.mem_parts_emptyLike member)
  · rw [node_allocate, if_neg new] at member
    exact .inl member

theorem Closed.edit {heap : Heap} (closed : heap.Closed) (target : ObjectId) {change : Edit}
    (held : ∀ part, .object part ∈ change.values → heap.Holds part) : (heap.edit target change).Closed := by
  intro id part member
  show part.index < (heap.edit target change).size
  rw [size_edit]
  rcases mem_parts_edit member with before | ⟨-, carried⟩
  · exact closed id part before
  · exact held part carried

theorem Closed.allocate {heap : Heap} (closed : heap.Closed) (node : Node) :
    (heap.allocate node.emptyLike).Closed := by
  intro id part member
  show part.index < (heap.allocate node.emptyLike).size
  rw [size_allocate]
  rcases mem_parts_allocate member with before | null
  · exact Nat.lt_succ_of_lt (closed id part before)
  · cases null

end Heap

end Reconciler
