import Reconciler.Proofs.Account
import Reconciler.Proofs.Clone

/-! # Filling the copy of a container

A handler asks for the copies of the parts one by one and puts each into the copy of the container. If different
parts have different copies, no set refuses one of them and no map binds a key twice, so the copy ends up with the
copies of all parts, in order.
-/

namespace Reconciler

open Reconciler.Action

/-- A container whose copy can be filled: as long as the copy is open, the requests for the parts are answered with
their copies and leave it alone, and it stays open when something is put into it. -/
structure Fillable (ask : Value → Action Value) (source : Node) (copy : ObjectId) (opened : World → Prop) :
    Prop where
  distinct : source.Distinct
  scalars : source.hasScalarSlots = true → ∀ item ∈ source.items, item.object? = none
  held : ∀ now, opened now → now.heap.Holds copy
  injective : ∀ now left right image, opened now → Copied now left image → Copied now right image → left = right
  asks : ∀ now, opened now → ∀ value ∈ source.members, (ask value).Answers now (fun image after =>
    opened after ∧ after.heap.node copy = now.heap.node copy ∧
    (∀ id target, now.visits.get? id = some target → after.visits.get? id = some target) ∧
    Copied after value image)
  edits : ∀ now change, opened now → (source.isContainer = true → source.members ≠ []) →
    (∀ origin, change ≠ .setOrigin origin) → opened (edit copy change now).2

namespace Fillable

variable {ask : Value → Action Value} {source : Node} {copy : ObjectId} {opened : World → Prop} {now : World}
  {names : List String} {origin : ObjectId → ObjectId} {start : World}

/-- An edit of the copy that fits it. -/
private theorem answers_edit (fillable : Fillable ask source copy opened) (begun : opened now)
    (something : source.isContainer = true → source.members ≠ []) {change : Edit} {content : Content}
    (other : ∀ origin, change ≠ .setOrigin origin)
    (fits : (now.heap.node copy).content.edited? change = some content) :
    (edit copy change).Answers now (fun _ after => opened after ∧ (after.heap.node copy).content = content ∧
      after.visits = now.visits) := by
  refine ⟨(), _, rfl, fillable.edits now change begun something other, ?_, rfl⟩
  show ((now.heap.edit copy change).node copy).content = content
  rw [Heap.node_edit_self (fillable.held now begun), Node.content_edited fits]

/-- Elements are copied in order. -/
private theorem answers_fillCollection (fillable : Fillable ask source copy opened) (begun : opened now)
    {kind : CollectionKind} {elements : List Value} (original : source.content = .collection kind elements)
    (empty : (now.heap.node copy).content = .collection kind []) :
    (fillCollection ask source copy).Answers now (fun _ after => opened after ∧
      Imitates names origin start after source source.content (after.heap.node copy).content) := by
  have items : source.items = elements := by
    rw [Node.items, Node.items?, original]
    rfl
  have distinct := fillable.distinct
  rw [Node.Distinct, original] at distinct
  unfold fillCollection
  rw [items]
  refine (answers_forM (fun done after => opened after ∧ ∃ images,
    (after.heap.node copy).content = .collection kind images ∧
    List.Forall₂ (Copied after) done images) ⟨begun, [], empty, .nil⟩ ?_).weaken ?_
  · rintro done item rest split middle ⟨begun, images, content, copies⟩
    have member : item ∈ source.members := Node.mem_members_of_items (by simp [items, split])
    apply (fillable.asks middle begun item member).bind
    rintro image later ⟨begun, same, visits, copied⟩
    have copies := copies.imp fun _ _ copied => Copied.of_visits copied visits
    have accepted : ¬ (kind = .set ∧ image ∈ images) := by
      rintro ⟨rfl, present⟩
      obtain ⟨element, known, copied'⟩ := exists_of_forall₂ copies present
      obtain rfl := fillable.injective later _ _ image begun copied copied'
      rw [split] at distinct
      exact (List.nodup_append.1 distinct).2.2 item known item (by simp) rfl
    have fits : (later.heap.node copy).content.edited? (.append image) =
        some (.collection kind (images ++ [image])) := by
      simp [same, content, Content.edited?, if_neg accepted]
    refine (fillable.answers_edit begun (fun _ => List.ne_nil_of_mem member) (by simp) fits).weaken ?_
    rintro _ after ⟨begun, content, visits⟩
    refine ⟨begun, images ++ [image], content, ?_⟩
    exact (List.rel_append copies (.cons copied .nil)).imp fun _ _ copied => copied.of_visits (by simp [visits])
  · rintro _ after ⟨begun, images, content, copies⟩
    refine ⟨begun, ?_⟩
    rw [original, content]
    exact .collection copies

/-- Entries are copied in order. Every entry comes to the end, because its key has a copy of its own. -/
private theorem answers_fillMap (fillable : Fillable ask source copy opened) (begun : opened now)
    {bindings : OrderedMap Value Value} (original : source.content = .map bindings)
    (empty : (now.heap.node copy).content = .map .empty) :
    (fillMap ask source copy).Answers now (fun _ after => opened after ∧
      Imitates names origin start after source source.content (after.heap.node copy).content) := by
  have entries : source.bindings = bindings.entries := by
    rw [Node.bindings, Node.bindings?, original]
    rfl
  have distinct : bindings.keys.Nodup := by
    have distinct := fillable.distinct
    rwa [Node.Distinct, original] at distinct
  unfold fillMap
  rw [entries]
  refine (answers_forM (fun done after => opened after ∧ ∃ images,
    (after.heap.node copy).content = .map ⟨images⟩ ∧
    List.Forall₂ (fun entry image => Copied after entry.1 image.1 ∧ Copied after entry.2 image.2) done images)
    ⟨begun, [], empty, .nil⟩ ?_).weaken ?_
  · rintro done ⟨key, value⟩ rest split middle ⟨begun, images, content, copies⟩
    have listed : (key, value) ∈ source.bindings := by simp [entries, split]
    obtain ⟨keyMember, valueMember⟩ := Node.mem_members_of_bindings listed
    apply (fillable.asks middle begun key keyMember).bind
    rintro keyImage first ⟨begun, same, visits, keyCopied⟩
    have copies := copies.imp fun _ _ copied => And.intro (copied.1.of_visits visits) (copied.2.of_visits visits)
    apply (fillable.asks first begun value valueMember).bind
    rintro valueImage second ⟨begun, same', visits, valueCopied⟩
    have copies := copies.imp fun _ _ copied => And.intro (copied.1.of_visits visits) (copied.2.of_visits visits)
    have keyCopied := keyCopied.of_visits visits
    have new : keyImage ∉ images.map Prod.fst := by
      intro present
      obtain ⟨image, known, rfl⟩ := List.mem_map.1 present
      obtain ⟨entry, known, copied, -⟩ := exists_of_forall₂ copies known
      obtain rfl := fillable.injective second _ _ _ begun keyCopied copied
      rw [OrderedMap.keys, split, List.map_append, List.map_cons] at distinct
      have apart := (List.nodup_append.1 distinct).2.2
      exact apart _ (List.mem_map.2 ⟨entry, known, rfl⟩) _ List.mem_cons_self rfl
    have fits : (second.heap.node copy).content.edited? (.bind keyImage valueImage) =
        some (.map ⟨images ++ [(keyImage, valueImage)]⟩) := by
      simp [same', same, content, Content.edited?, OrderedMap.insert, OrderedMap.put_of_new new]
    refine (fillable.answers_edit begun (fun _ => List.ne_nil_of_mem keyMember) (by simp) fits).weaken ?_
    rintro _ after ⟨begun, content, visits⟩
    refine ⟨begun, images ++ [(keyImage, valueImage)], content, ?_⟩
    refine (List.rel_append copies (.cons ⟨keyCopied, valueCopied⟩ .nil)).imp fun _ _ copied => ?_
    exact ⟨copied.1.of_visits (by simp [visits]), copied.2.of_visits (by simp [visits])⟩
  · rintro _ after ⟨begun, images, content, copies⟩
    refine ⟨begun, ?_⟩
    rw [original, content]
    exact .map copies

/-- Slots are copied in order. Scalar slots are their own copies. -/
private theorem answers_fillArray (fillable : Fillable ask source copy opened) (begun : opened now)
    {component : TypeName} {slots : List Value} (original : source.content = .array component slots)
    (empty : (now.heap.node copy).content = .array component (.replicate slots.length .null)) :
    (fillArray ask source copy).Answers now (fun _ after => opened after ∧
      Imitates names origin start after source source.content (after.heap.node copy).content) := by
  have items : source.items = slots := by
    rw [Node.items, Node.items?, original]
    rfl
  have array : source.isContainer = true → source.members ≠ [] := by
    intro container
    rw [Node.isContainer, original] at container
    cases container
  have scalars := fillable.scalars
  unfold fillArray
  rw [items] at scalars ⊢
  rcases scalar : source.hasScalarSlots with _ | _
  · rw [if_neg Bool.false_ne_true]
    -- The slots that were not reached yet are null.
    refine (answers_forM (fun done after => opened after ∧ ∃ images,
      (after.heap.node copy).content =
        .array component (images ++ .replicate (slots.length - done.length) .null) ∧
      List.Forall₂ (Copied after) (done.map Prod.fst) images) ⟨begun, [], empty, .nil⟩ ?_).weaken ?_
    · rintro done ⟨item, index⟩ rest split middle ⟨begun, images, content, copies⟩
      obtain ⟨rfl, known, all⟩ := zipIdx_eq_append split
      have reached : done.length = images.length := by rw [← copies.length_eq, List.length_map]
      have member : item ∈ source.members :=
        Node.mem_members_of_items (items ▸ List.mem_of_getElem? known)
      apply (fillable.asks middle begun item member).bind
      rintro image later ⟨begun, same, visits, copied⟩
      have copies := copies.imp fun _ _ copied => Copied.of_visits copied visits
      have fits := Content.edited?_setSlot_next component (show images.length < slots.length by omega) image
      rw [← reached, ← content, ← same] at fits
      refine (fillable.answers_edit begun array (by simp) fits).weaken ?_
      rintro _ after ⟨begun, content, visits⟩
      refine ⟨begun, images ++ [image], ?_, ?_⟩
      · rw [content, List.length_append, List.length_singleton]
      · rw [List.map_append]
        exact (List.rel_append copies (.cons copied .nil)).imp fun _ _ copied => copied.of_visits (by simp [visits])
    · rintro _ after ⟨begun, images, content, copies⟩
      refine ⟨begun, ?_⟩
      rw [List.length_zipIdx, Nat.sub_self, List.replicate_zero, List.append_nil] at content
      rw [List.zipIdx_map_fst] at copies
      rw [original, content]
      exact .array copies
  · rw [if_pos rfl]
    have fits : (now.heap.node copy).content.edited? (.setItems slots) = some (.array component slots) := by
      rw [empty]
      rfl
    refine (fillable.answers_edit begun array (by simp) fits).weaken ?_
    rintro _ after ⟨begun, content, -⟩
    refine ⟨begun, ?_⟩
    rw [original, content]
    exact .array (List.forall₂_same.2 fun item member => .scalar (scalars scalar item member))

/-- A new empty object is recorded before it is filled. -/
private theorem answers_rebuild {fill : Node → ObjectId → Action Unit} {id : ObjectId} {post : World → Prop}
    (fills : (fill (now.heap.node id) now.heap.fresh).Answers
      { now with
        heap := now.heap.allocate (now.heap.node id).emptyLike
        visits := now.visits.record id (.object now.heap.fresh)
        journal := .walked id :: now.journal } (fun _ => post)) :
    (rebuild fill id).Answers now (fun image after => image = .object now.heap.fresh ∧ post after) := by
  refine answers_look_bind (answers_bind_of_eq rfl (answers_bind_of_eq rfl (answers_bind_of_eq rfl ?_)))
  exact fills.bind fun _ after filled => answers_pure ⟨rfl, filled⟩

/-- A container is copied by the handler that its content asks for. -/
theorem answers_rebuildValue (names : List String) (origin : ObjectId → ObjectId) (start : World) {id : ObjectId}
    {handler : Handler} (fillable : Fillable ask (now.heap.node id) now.heap.fresh opened)
    (begun : opened { now with
      heap := now.heap.allocate (now.heap.node id).emptyLike
      visits := now.visits.record id (.object now.heap.fresh)
      journal := .walked id :: now.journal })
    (handled : (now.heap.node id).content.handler? = some handler) :
    (handler.rebuildValue ask (.object id)).Answers now (fun image after =>
      image = .object now.heap.fresh ∧ opened after ∧
      Imitates names origin start after (now.heap.node id) (now.heap.node id).content
        (after.heap.node now.heap.fresh).content) := by
  have empty : ((now.heap.allocate (now.heap.node id).emptyLike).node now.heap.fresh).content =
      (now.heap.node id).content.emptied := congrArg Node.content (now.heap.node_fresh _)
  cases content : (now.heap.node id).content with
  | collection kind elements =>
    obtain rfl := Option.some.inj ((congrArg Content.handler? content).symm.trans handled)
    rw [content] at empty
    exact answers_rebuild (content ▸ fillable.answers_fillCollection begun content empty)
  | map bindings =>
    obtain rfl := Option.some.inj ((congrArg Content.handler? content).symm.trans handled)
    rw [content] at empty
    exact answers_rebuild (content ▸ fillable.answers_fillMap begun content empty)
  | array component slots =>
    obtain rfl := Option.some.inj ((congrArg Content.handler? content).symm.trans handled)
    rw [content] at empty
    exact answers_rebuild (content ▸ fillable.answers_fillArray begun content empty)
  | _ => cases (congrArg Content.handler? content).symm.trans handled

end Fillable

end Reconciler
