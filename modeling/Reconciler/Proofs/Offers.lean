import Mathlib.Data.List.Induction
import Reconciler.Proofs.Parts

/-! # What sets and maps make of what they are offered

A set is a list that is searched before a value goes to its end, and a map a list of bindings that is searched
before one of them is overwritten or a new one goes to its end. After any history a set holds the values that it was
offered since it was last refilled, each where it first came; and a map the keys that it was offered, each where it
first came, with the value that came last.

Values are searched for by equality, which looks at bits and identities and never into an object. So the history may
change all other objects as well, elements and keys among them, and nothing that is said here depends on it.
-/

namespace Reconciler

/-- An object comes in, or an object is edited. -/
inductive Change where
  | allocate (node : Node)
  | edit (target : ObjectId) (edit : Edit)
deriving DecidableEq, Repr, Inhabited

namespace Change

def apply (heap : Heap) : Change → Heap
  | allocate node => heap.allocate node
  | edit target change => heap.edit target change

/-- The edit of one object, if the change is about this object. -/
def editOf? (id : ObjectId) : Change → Option Edit
  | edit target change => if target = id then some change else none
  | allocate _ => none

private theorem holds_apply {heap : Heap} {id : ObjectId} (held : heap.Holds id) (change : Change) :
    (change.apply heap).Holds id := by
  cases change with
  | allocate node => exact Heap.holds_allocate.2 (.inl held)
  | edit target change => exact Heap.holds_edit.2 held

/-- A change edits the object that it is about and leaves every other one as it is. -/
theorem node_apply {heap : Heap} {id : ObjectId} (held : heap.Holds id) (change : Change) :
    (change.apply heap).node id = (change.editOf? id).toList.foldl Node.edited (heap.node id) := by
  cases change with
  | allocate node => exact Heap.node_allocate_of_holds held node
  | edit target change =>
    by_cases here : target = id
    · subst here
      rw [editOf?, if_pos rfl]
      exact Heap.node_edit_self held change
    · rw [editOf?, if_neg here]
      exact Heap.node_edit_of_ne heap (Ne.symm here) change

end Change

/-- The heap after a history. -/
def Heap.after (heap : Heap) (history : List Change) : Heap := history.foldl Change.apply heap

/-- An object is what its own edits have made of it. -/
theorem Heap.node_after {heap : Heap} {id : ObjectId} (held : heap.Holds id) (history : List Change) :
    (heap.after history).node id = (history.filterMap (Change.editOf? id)).foldl Node.edited (heap.node id) := by
  induction history generalizing heap with
  | nil => rfl
  | cons change rest ih =>
    have step := ih (change.holds_apply held)
    rw [Change.node_apply held, ← List.foldl_append] at step
    rw [after, List.foldl_cons, List.filterMap_cons]
    rcases own : change.editOf? id with _ | edit <;> rwa [own] at step

/-- Only what was allocated is a container. -/
theorem Heap.holds_of_container {heap : Heap} {id : ObjectId} (container : (heap.node id).isContainer = true) :
    heap.Holds id := by
  refine Decidable.byContradiction fun absent => ?_
  rw [node_of_not_holds absent] at container
  cases container

namespace Edit

/-- The values that a collection has been offered since it was last refilled. -/
def offer (offered : List Value) : Edit → List Value
  | setItems values => values
  | append value => offered ++ [value]
  | _ => offered

/-- The bindings that a map has been offered since it was last refilled. -/
def offerBindings (offered : List (Value × Value)) : Edit → List (Value × Value)
  | setBindings entries => entries
  | bind key value => offered ++ [(key, value)]
  | _ => offered

end Edit

/-- What a history has offered to a collection that was empty. -/
def offeredItems (history : List Change) (id : ObjectId) : List Value :=
  (history.filterMap (Change.editOf? id)).foldl Edit.offer []

/-- What a history has offered to a map that was empty. -/
def offeredBindings (history : List Change) (id : ObjectId) : List (Value × Value) :=
  (history.filterMap (Change.editOf? id)).foldl Edit.offerBindings []

/-- Another item counts if it did not occur before. -/
theorem eraseDups_append_singleton {α : Type} [DecidableEq α] (items : List α) (item : α) :
    (items ++ [item]).eraseDups = if item ∈ items then items.eraseDups else items.eraseDups ++ [item] := by
  rw [List.eraseDups_append, List.removeAll]
  by_cases known : item ∈ items <;> simp [known, List.eraseDups_cons]

/-- A set keeps of the values that it is offered one by one the first of each. -/
theorem Content.collected_set (values : List Value) : collected .set values = values.eraseDups := by
  induction values using List.reverseRecOn with
  | nil => rfl
  | append_singleton values value ih =>
    rw [collected_append, ih, appended, eraseDups_append_singleton]
    simp only [true_and, List.mem_eraseDups]

namespace Node

/-- An edit leaves a set that has taken in what it was offered, and takes nothing else in. -/
theorem content_edited_set {node : Node} {offered : List Value}
    (content : node.content = .collection .set (Content.collected .set offered)) (edit : Edit) :
    (node.edited edit).content = .collection .set (Content.collected .set (edit.offer offered)) := by
  obtain ⟨type, origin, _⟩ := node
  subst content
  cases edit with
  | append value =>
    rw [Edit.offer, Content.collected_append, Content.appended]
    by_cases known : value ∈ Content.collected .set offered
    · rw [if_pos ⟨rfl, known⟩, edited_of_refused]
      simp [accepts, Content.edited?, known]
    · have new : ¬ ((.set : CollectionKind) = .set ∧ value ∈ Content.collected .set offered) := fun both => known both.2
      rw [if_neg new]
      exact content_edited (if_neg new)
  | _ => rfl

private theorem content_edits_set {node : Node} {offered : List Value}
    (content : node.content = .collection .set (Content.collected .set offered)) (edits : List Edit) :
    (edits.foldl edited node).content =
      .collection .set (Content.collected .set (edits.foldl Edit.offer offered)) := by
  induction edits generalizing node offered with
  | nil => exact content
  | cons edit rest ih => exact ih (content_edited_set content edit)

/-- A set takes in what it does not hold. -/
theorem accepts_append_iff {node : Node} {elements : List Value} (content : node.content = .collection .set elements)
    (value : Value) : node.accepts (.append value) = true ↔ value ∉ elements := by
  simp [accepts, content, Content.edited?]

end Node

namespace OrderedMap

variable {κ ν : Type} [DecidableEq κ]

/-- Give a key a value in one pass over the bindings: the value that it takes the place of, and the bindings. -/
def exchange (key : κ) (value : ν) : List (κ × ν) → Option ν × List (κ × ν)
  | [] => (none, [(key, value)])
  | (other, old) :: rest =>
      if other = key then (some old, (other, value) :: rest)
      else
        let (previous?, bindings) := exchange key value rest
        (previous?, (other, old) :: bindings)

/-- One pass finds what a lookup finds and leaves what an insertion leaves. -/
theorem exchange_eq (key : κ) (value : ν) (bindings : List (κ × ν)) :
    exchange key value bindings = ((⟨bindings⟩ : OrderedMap κ ν).get? key, put key value bindings) := by
  induction bindings with
  | nil => rfl
  | cons binding rest ih =>
    obtain ⟨other, old⟩ := binding
    by_cases known : other = key <;> simp [exchange, put, get?, known, ih]

/-- The keys of a map are those that it was offered, each where it first came. -/
theorem keys_ofList (bindings : List (κ × ν)) : (ofList bindings).keys = (bindings.map Prod.fst).eraseDups := by
  induction bindings using List.reverseRecOn with
  | nil => rfl
  | append_singleton bindings binding ih =>
    rw [ofList_append, keys_insert, ih, List.map_append, List.map_singleton, eraseDups_append_singleton]
    simp only [List.mem_eraseDups]

/-- A key has the value that came last. -/
theorem get?_ofList (bindings : List (κ × ν)) (key : κ) : (ofList bindings).get? key = bindings.reverse.lookup key := by
  induction bindings using List.reverseRecOn with
  | nil => rfl
  | append_singleton bindings binding ih =>
    obtain ⟨last, value⟩ := binding
    rw [ofList_append, get?_insert, ih, List.reverse_concat, List.lookup_cons]
    by_cases same : last = key
    · simp [same]
    · rw [if_neg same, beq_false_of_ne (Ne.symm same)]

/-- Every binding of a map is what a lookup of its key finds. -/
theorem get?_of_mem_ofList {bindings : List (κ × ν)} {entry : κ × ν} (listed : entry ∈ (ofList bindings).entries) :
    (ofList bindings).get? entry.1 = some entry.2 := by
  have distinct : (ofList bindings).keys.Nodup :=
    keys_nodup_insertAll (show (empty : OrderedMap κ ν).keys.Nodup from List.nodup_nil) bindings
  rw [get?, find?_of_mem distinct entry listed]
  rfl

end OrderedMap

namespace Node

/-- Bind a key in a map: the value that it takes the place of, and the node. Other nodes stay as they are. -/
def insert (node : Node) (key value : Value) : Option Value × Node :=
  match node.content with
  | .map bindings =>
      let (previous?, entries) := OrderedMap.exchange key value bindings.entries
      (previous?, { node with content := .map ⟨entries⟩ })
  | _ => (none, node)

/-- To bind a key is to look it up and to edit the node. -/
theorem insert_eq (node : Node) (key value : Value) :
    node.insert key value = (node.lookUp? key, node.edited (.bind key value)) := by
  rcases node with ⟨type, origin, content⟩
  cases content with
  | map bindings =>
    rw [insert]
    dsimp only
    rw [OrderedMap.exchange_eq]
    rfl
  | _ => rfl

/-- An edit leaves a map that has taken in what it was offered, and takes nothing else in. -/
theorem content_edited_map {node : Node} {offered : List (Value × Value)}
    (content : node.content = .map (.ofList offered)) (edit : Edit) :
    (node.edited edit).content = .map (.ofList (edit.offerBindings offered)) := by
  obtain ⟨type, origin, _⟩ := node
  subst content
  cases edit with
  | bind key value =>
    rw [Edit.offerBindings, OrderedMap.ofList_append]
    rfl
  | _ => rfl

private theorem content_edits_map {node : Node} {offered : List (Value × Value)}
    (content : node.content = .map (.ofList offered)) (edits : List Edit) :
    (edits.foldl edited node).content = .map (.ofList (edits.foldl Edit.offerBindings offered)) := by
  induction edits generalizing node offered with
  | nil => exact content
  | cons edit rest ih => exact ih (content_edited_map content edit)

end Node

namespace Heap

variable {heap : Heap} {id : ObjectId}

private theorem content_after_set (empty : (heap.node id).content = .collection .set []) (history : List Change) :
    ((heap.after history).node id).content = .collection .set (offeredItems history id).eraseDups := by
  have held : heap.Holds id := holds_of_container (by rw [Node.isContainer, empty])
  have start : (heap.node id).content = .collection .set (Content.collected .set []) := empty
  rw [node_after held, Node.content_edits_set start, Content.collected_set]
  rfl

private theorem content_after_map (empty : (heap.node id).content = .map .empty) (history : List Change) :
    ((heap.after history).node id).content = .map (.ofList (offeredBindings history id)) := by
  have held : heap.Holds id := holds_of_container (by rw [Node.isContainer, empty])
  have start : (heap.node id).content = .map (.ofList []) := empty
  rw [node_after held, Node.content_edits_map start]
  rfl

private theorem lookUp?_after_map (empty : (heap.node id).content = .map .empty) (history : List Change) (key : Value) :
    ((heap.after history).node id).lookUp? key = (offeredBindings history id).reverse.lookup key := by
  rw [Node.lookUp?, content_after_map empty]
  exact OrderedMap.get?_ofList _ key

end Heap

/-- After any history a set that was empty holds what it was offered since it was last refilled, each value once and
in the order in which they first came, and takes in exactly what it does not hold. A map that was empty binds the keys
that it was offered since it was last refilled, each once and in the order in which they first came, to the values
that came with them last; this is what a lookup finds, and what another binding of the key takes the place of. Floats
are the same value if their bits are, and objects if they are one. -/
theorem Heap.containers_after (heap : Heap) (history : List Change) (id : ObjectId) :
    let node := (heap.after history).node id
    ((heap.node id).content = .collection .set [] →
      node.content = .collection .set (offeredItems history id).eraseDups ∧
        ∀ value, node.accepts (.append value) = true ↔ value ∉ node.items) ∧
    ((heap.node id).content = .map .empty →
      let offered := offeredBindings history id
      ∃ bindings, node.content = .map bindings ∧ bindings.keys = (offered.map Prod.fst).eraseDups ∧
        (∀ entry ∈ bindings.entries, offered.reverse.lookup entry.1 = some entry.2) ∧
        ∀ key, node.lookUp? key = offered.reverse.lookup key ∧
          ∀ value, node.insert key value = (offered.reverse.lookup key, node.edited (.bind key value))) ∧
    (∀ one other, Value.float one = .float other ↔ one = other) ∧
    ∀ one other, Value.object one = .object other ↔ one = other := by
  intro node
  refine ⟨fun empty => ?_, fun empty => ?_, fun _ _ => ⟨Value.float.inj, congrArg _⟩,
    fun _ _ => ⟨Value.object.inj, congrArg _⟩⟩
  · have content := content_after_set empty history
    refine ⟨content, fun value => ?_⟩
    rw [Node.accepts_append_iff content, Node.items_of_collection content]
  · have found := lookUp?_after_map empty history
    refine ⟨_, content_after_map empty history, OrderedMap.keys_ofList _, fun entry listed => ?_,
      fun key => ⟨found key, fun value => ?_⟩⟩
    · rw [← OrderedMap.get?_ofList, OrderedMap.get?_of_mem_ofList listed]
    · rw [Node.insert_eq, found]

namespace Samples

def zero : Value := .float 0

def minusZero : Value := .float 0x8000000000000000

def nan : Value := .float 0x7ff8000000000000

/-- Two notes, a set and a map. -/
def heap : Heap := ⟨#[.bean ⟨"Note"⟩ [("text", .text "old")], .bean ⟨"Note"⟩ [("text", .text "new")], .set [], .map []]⟩

/-- The set and the map are filled, refilled and offered more, and in between the notes come to hold the same. -/
def history : List Change := [
  .edit ⟨2⟩ (.append (.int 7)), .edit ⟨2⟩ (.setItems [zero, nan, zero, minusZero]), .edit ⟨2⟩ (.append nan),
  .edit ⟨2⟩ (.append (.object ⟨1⟩)), .edit ⟨3⟩ (.bind nan (.int 1)),
  .edit ⟨3⟩ (.setBindings [(.object ⟨0⟩, .int 2), (nan, .int 3), (.object ⟨0⟩, .int 4)]),
  .edit ⟨0⟩ (.setAttribute "text" (.text "new")), .allocate (.list []), .edit ⟨2⟩ (.append (.object ⟨0⟩)),
  .edit ⟨3⟩ (.bind (.object ⟨1⟩) (.int 5)), .edit ⟨3⟩ (.bind nan (.int 6)), .edit ⟨3⟩ (.append zero)]

/-- A number that is none is one element and one key, the two zeros are two, and so are the two notes, though they
have become equal in all that they hold. -/
theorem equal_notes_apart :
    let after := heap.after history
    ((heap.node ⟨2⟩).content = .collection .set [] ∧ (heap.node ⟨3⟩).content = .map .empty ∧
      (after.node ⟨0⟩).content = (after.node ⟨1⟩).content) ∧
    (after.node ⟨2⟩).content = .collection .set [zero, nan, minusZero, .object ⟨1⟩, .object ⟨0⟩] ∧
    (after.node ⟨2⟩).accepts (.append nan) = false ∧
    ∃ bindings, (after.node ⟨3⟩).content = .map bindings ∧ bindings.keys = [.object ⟨0⟩, nan, .object ⟨1⟩] ∧
      (after.node ⟨3⟩).lookUp? (.object ⟨0⟩) = some (.int 4) ∧ (after.node ⟨3⟩).lookUp? zero = none ∧
      ((after.node ⟨3⟩).insert nan .null).1 = some (.int 6) := by
  intro after
  obtain ⟨set, -⟩ := Heap.containers_after heap history ⟨2⟩
  obtain ⟨-, map, -⟩ := Heap.containers_after heap history ⟨3⟩
  obtain ⟨content, takes⟩ := set rfl
  obtain ⟨bindings, bound, keys, -, found⟩ := map rfl
  have held : (after.node ⟨2⟩).content = .collection .set [zero, nan, minusZero, .object ⟨1⟩, .object ⟨0⟩] :=
    content.trans (by decide +kernel)
  refine ⟨⟨rfl, rfl, by decide +kernel⟩, held, ?_, bindings, bound, keys.trans (by decide +kernel), ?_, ?_, ?_⟩
  · rw [Bool.eq_false_iff, ne_eq, takes, Node.items_of_collection held]
    decide
  · exact (found (.object ⟨0⟩)).1.trans (by decide +kernel)
  · exact (found zero).1.trans (by decide +kernel)
  · exact (congrArg Prod.fst ((found nan).2 .null)).trans (by decide +kernel)

end Samples

end Reconciler
