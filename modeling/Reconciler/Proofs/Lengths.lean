import Reconciler.Proofs.Attributes
import Reconciler.Proofs.Episode.Passage

/-! # The lengths of arrays

An array has a fixed number of slots, and detaching a graph or rebuilding an array respects that: a new array is as
long as the one it stands for. Reconciling two arrays only sets slots that both of them have. But nobody asks what a
list or set is brought onto: if it is an array, the array takes all the new elements as its slots, and is as long as
there are elements from then on.
-/

namespace Reconciler

open Reconciler.Action

/-- The component type and the number of slots of an array. -/
def Node.layout? (node : Node) : Option (TypeName × Nat) :=
  match node.content with
  | .array component slots => some (component, slots.length)
  | _ => none

namespace Node

private theorem layout?_of_array {node : Node} {component : TypeName} {slots : List Value}
    (content : node.content = .array component slots) : node.layout? = some (component, slots.length) := by
  rw [layout?, content]

private theorem exists_of_layout? {node : Node} {component : TypeName} {length : Nat}
    (known : node.layout? = some (component, length)) :
    ∃ slots, node.content = .array component slots ∧ slots.length = length := by
  unfold layout? at known
  split at known
  · next slots content =>
    cases known
    exact ⟨slots, content, rfl⟩
  · cases known

/-- New objects are as long as those that they are like. -/
theorem layout?_emptyLike (node : Node) : node.emptyLike.layout? = node.layout? := by
  rcases node with ⟨type, origin, content⟩
  cases content <;> simp [layout?, emptyLike, Content.emptied]

/-- An empty array of scalars has as many slots as the one it is like. -/
theorem length_items_emptyLike {node : Node} (plain : node.hasScalarSlots = true) :
    node.emptyLike.items.length = node.items.length := by
  rcases node with ⟨type, origin, content⟩
  cases content with
  | array component slots => simp [emptyLike, Content.emptied, items, items?]
  | _ => cases plain

/-- Only to give an array all its items at once may change its length. -/
theorem layout?_edited {node : Node} {change : Edit} (partly : ∀ values, change ≠ .setItems values) :
    (node.edited change).layout? = node.layout? := by
  rcases node with ⟨type, origin, content⟩
  cases change with
  | setItems values => exact absurd rfl (partly values)
  | setSlot index value =>
    cases content with
    | array component slots =>
      by_cases inside : index < slots.length <;> simp [layout?, edited, Content.edited?, inside]
    | _ => rfl
  | append value =>
    cases content with
    | collection kind elements =>
      by_cases refused : kind = .set ∧ value ∈ elements <;> simp [layout?, edited, Content.edited?, refused]
    | _ => rfl
  | _ => cases content <;> rfl

/-- As many items as there are slots. -/
theorem layout?_edited_setItems {node : Node} {values : List Value} (full : values.length = node.items.length) :
    (node.edited (.setItems values)).layout? = node.layout? := by
  rcases node with ⟨type, origin, content⟩
  cases content <;> simp_all [edited, Content.edited?, layout?, items, items?]

end Node

/-- No write of a property gives an array its items. -/
theorem Property.Edits.ne_setItems {heap : Heap} {metadata : Metadata} {target : ObjectId} {property : String}
    {value : Value} {change : Edit} (made : Edits heap metadata target property value change)
    (values : List Value) : change ≠ .setItems values := by
  rcases made.cases.2 with ⟨-, rfl⟩ | ⟨_, _, -, rfl⟩
  · exact nofun
  · exact nofun

namespace World

/-- An object with the handler of collections was brought onto the array. -/
def Stretched (start after : World) (id : ObjectId) : Prop :=
  ∃ source, after.visits.get? source = some (.object id) ∧
    .asked (.applyTo (.object source) (.object id)) ∈ after.journal ∧
    (start.heap.Holds source → start.handler? source = some .collection)

/-- A request named the counterpart of an object before the object was walked, so it was not made for it. -/
def Named (after : World) (source image : ObjectId) : Prop :=
  ∃ earlier, (.asked (.applyTo (.object source) (.object image)) :: earlier) <:+ after.journal ∧
    .walked source ∉ earlier

/-- Only visited objects were walked. -/
def WalksVisited (world : World) : Prop :=
  ∀ source, .walked source ∈ world.journal → world.visits.get? source ≠ none

/-- The array is as long as it was, or was stretched. -/
def SameLayout (start : World) (now after : World) (id : ObjectId) : Prop :=
  (after.heap.node id).layout? = (now.heap.node id).layout? ∨ start.Stretched after id

/-- What was made in between as the image of an array is an array like it, unless one of them was stretched. -/
def LikeImage (start after : World) (source image : ObjectId) : Prop :=
  (after.heap.Holds image ∧ (after.heap.node image).layout? = (after.heap.node source).layout?) ∨
    after.Named source image ∨ start.Stretched after source ∨ start.Stretched after image

/-- Arrays keep their layout, and new ones have the layout of those that they are made for. -/
structure KeepsLayouts (start now after : World) : Prop where
  walks : after.WalksVisited
  kept : ∀ id, now.heap.Holds id → start.SameLayout now after id
  images : ∀ source image, now.visits.get? source = none → after.visits.get? source = some (.object image) →
    source.index < image.index → start.LikeImage after source image

variable {start now middle after : World} {id source image : ObjectId}

private theorem Stretched.later (stretched : start.Stretched middle id) (later : middle.Later after) :
    start.Stretched after id := by
  obtain ⟨source, recorded, asked, handled⟩ := stretched
  exact ⟨source, later.visits _ _ recorded, later.journal.subset asked, handled⟩

private theorem Named.later (named : middle.Named source image) (later : middle.Later after) :
    after.Named source image := by
  obtain ⟨earlier, suffix, unwalked⟩ := named
  exact ⟨earlier, suffix.trans later.journal, unwalked⟩

private theorem SameLayout.trans (first : start.SameLayout now middle id) (later : middle.Later after)
    (second : start.SameLayout middle after id) : start.SameLayout now after id := by
  rcases second with same | stretched
  · exact first.imp same.trans (·.later later)
  · exact .inr stretched

/-- A pair of an object and its image stays alike. -/
theorem LikeImage.later (like : start.LikeImage middle source image) (later : middle.Later after)
    (older : source.index < image.index)
    (kept : ∀ id, middle.heap.Holds id → start.SameLayout middle after id) : start.LikeImage after source image := by
  rcases like with ⟨held, same⟩ | named | stretched | stretched
  · -- Objects are allocated one after the other, so whatever is older than the image was there as well.
    have present : middle.heap.Holds source := Nat.lt_trans older held
    rcases kept image held with image_eq | stretched
    · rcases kept source present with source_eq | stretched
      · exact .inl ⟨later.holds held, image_eq.trans (same.trans source_eq.symm)⟩
      · exact .inr (.inr (.inl stretched))
    · exact .inr (.inr (.inr stretched))
  · exact .inr (.inl (named.later later))
  · exact .inr (.inr (.inl (stretched.later later)))
  · exact .inr (.inr (.inr (stretched.later later)))

namespace KeepsLayouts

private theorem refl (start : World) (walks : now.WalksVisited) : start.KeepsLayouts now now where
  walks := walks
  kept _ _ := .inl rfl
  images _ _ unvisited recorded := absurd (unvisited.symm.trans recorded) nofun

private theorem trans (first : start.KeepsLayouts now middle) (before : now.Later middle) (later : middle.Later after)
    (second : start.KeepsLayouts middle after) : start.KeepsLayouts now after where
  walks := second.walks
  kept id held := (first.kept id held).trans later (second.kept id (before.holds held))
  images source image unvisited recorded older := by
    rcases known : middle.visits.get? source with _ | counterpart
    · exact second.images source image known recorded older
    · obtain rfl := Option.some.inj ((later.visits _ _ known).symm.trans recorded)
      exact (first.images source image unvisited known older).later later older second.kept

/-- A change that records nothing. -/
theorem change (first : start.KeepsLayouts now middle) (before : now.Later middle) (later : middle.Later after)
    (visits : after.visits = middle.visits) (walks : after.WalksVisited)
    (kept : ∀ id, middle.heap.Holds id → start.SameLayout middle after id) : start.KeepsLayouts now after :=
  first.trans before later
    { walks, kept
      images := by
        intro source image unvisited recorded
        rw [visits, unvisited] at recorded
        cases recorded }

/-- An edit of one object. -/
theorem edit (first : start.KeepsLayouts now middle) (before : now.Later middle) {target : ObjectId} {change : Edit}
    (other : ∀ origin, change ≠ .setOrigin origin)
    (kept : start.SameLayout middle (Action.edit target change middle).2 target) :
    start.KeepsLayouts now (Action.edit target change middle).2 := by
  refine first.change before (.edit _ _ other) rfl ?_ fun id held => ?_
  · intro source walked
    exact first.walks source ((List.mem_cons.1 walked).resolve_left nofun)
  · by_cases here : id = target
    · exact here ▸ kept
    · exact .inl (congrArg Node.layout? (Heap.node_edit_of_ne _ here _))

/-- Giving up leftovers changes no object. -/
theorem shed (first : start.KeepsLayouts now middle) (before : now.Later middle) {container : ObjectId}
    {kept leftovers : List Value} (shed : Sheds container kept leftovers middle after) :
    start.KeepsLayouts now after := by
  refine first.change before shed.later shed.visits ?_ fun id _ => .inl (by rw [shed.heap])
  intro source walked
  rw [shed.visits]
  exact first.walks source ((shed.noted _ walked).resolve_right nofun)

/-- One object is visited. -/
theorem record (start : World) (walks : now.WalksVisited) (unvisited : now.visits.get? source = none)
    (counterpart : Value) (like : ∀ image, counterpart = .object image → source.index < image.index →
      start.LikeImage (Action.record source counterpart now).2 source image) :
    start.KeepsLayouts now (Action.record source counterpart now).2 where
  walks other walked known := walks other walked ((World.Later.record now unvisited counterpart).unvisited known)
  kept _ _ := .inl rfl
  images other image new recorded older := by
    change (now.visits.record source counterpart).get? other = some (.object image) at recorded
    rw [Visits.get?_record] at recorded
    split at recorded
    · next same =>
      subst same
      exact like image (Option.some.inj recorded) older
    · rw [new] at recorded
      cases recorded

/-- A new object is made for one that is like it. -/
theorem rebuilding (start : World) (walks : now.WalksVisited) (unvisited : now.visits.get? source = none) :
    start.KeepsLayouts now (now.rebuilding source) := by
  have allocating := World.Later.allocate now (now.heap.node source).emptyLike
  have allocated : start.KeepsLayouts now (allocate (now.heap.node source).emptyLike now).2 :=
    (refl start walks).change (.refl now) allocating rfl walks fun id held =>
      .inl (congrArg Node.layout? (Heap.node_allocate_of_holds held _))
  have recorded := World.KeepsLayouts.record start allocated.walks unvisited (.object now.heap.fresh) (by
    rintro _ ⟨⟩ older
    refine .inl ⟨Heap.holds_allocate.2 (.inr rfl), ?_⟩
    show ((now.heap.allocate _).node now.heap.fresh).layout? = ((now.heap.allocate _).node source).layout?
    rw [Heap.node_fresh, Heap.node_allocate_of_holds older, Node.layout?_emptyLike])
  have recording := World.Later.record (allocate (now.heap.node source).emptyLike now).2 unvisited
    (.object now.heap.fresh)
  refine (allocated.trans allocating recording recorded).change (allocating.trans recording)
    (.note _ (.walked source)) rfl ?_ fun _ _ => .inl rfl
  intro other walked
  rcases List.mem_cons.1 walked with same | walked
  · obtain rfl := Event.walked.inj same
    exact Option.ne_none_iff_exists'.2 ⟨_, World.Later.visits_record _ _ _⟩
  · exact recorded.walks other walked

end KeepsLayouts

/-- An edit that does not give an array all its items at once. -/
theorem SameLayout.edit (start now : World) (target : ObjectId) {change : Edit}
    (partly : ∀ values, change ≠ .setItems values) :
    start.SameLayout now (Action.edit target change now).2 target := by
  refine .inl ?_
  show ((now.heap.edit target change).node target).layout? = _
  rw [Heap.node_edit]
  split
  · exact Node.layout?_edited partly
  · rfl

end World

namespace Passage

variable {setting : Setting} {scope : Request → Prop} {stage : Stage} {start now after : World}

private theorem keepsLayouts (passage : Passage setting scope stage now after) (since : start.Later now)
    (walks : now.WalksVisited) : start.KeepsLayouts now after := by
  have idle : ∀ {now after : World}, now.WalksVisited → now.Later after → after.visits = now.visits →
      after.heap = now.heap → (∀ source, .walked source ∈ after.journal → .walked source ∈ now.journal) →
      start.KeepsLayouts now after := by
    intro now after walks later visits heap unwalked
    refine (World.KeepsLayouts.refl start walks).change (.refl now) later visits ?_ fun id _ => .inl (by rw [heap])
    exact fun source walked => visits ▸ walks source (unwalked source walked)
  induction passage with
  | still now => exact .refl start walks
  | asked now within => exact idle walks (.note _ _) rfl rfl fun _ walked => (List.mem_cons.1 walked).resolve_left nofun
  | answered now request result =>
    exact idle walks (.note _ _) rfl rfl fun _ walked => (List.mem_cons.1 walked).resolve_left nofun
  | @walked now source counterpart recorded =>
    refine (World.KeepsLayouts.refl start walks).change (.refl now) (.note _ _) rfl ?_ fun id _ => .inl rfl
    intro other walked
    rcases List.mem_cons.1 walked with same | walked
    · obtain rfl := Event.walked.inj same
      exact Option.ne_none_iff_exists'.2 ⟨_, recorded⟩
    · exact walks other walked
  | stored now kept spent => exact idle walks (.stored now kept spent) rfl rfl fun _ => id
  | dispatched now same => exact idle walks (.dispatch now same) rfl rfl fun _ => id
  | cached now same => exact idle walks (.cache now same) rfl rfl fun _ => id
  | allocated now container =>
    exact (World.KeepsLayouts.refl start walks).change (.refl now) (.allocate _ _) rfl walks fun id held =>
      .inl (congrArg Node.layout? (Heap.node_allocate_of_holds held _))
  | followed first second one two =>
    have begun := one since walks
    exact begun.trans first.later second.later (two (since.trans first.later) begun.walks)
  | rebuilding now unvisited => exact .rebuilding start walks unvisited
  | @copied now source unvisited plain =>
    have rebuilt := World.KeepsLayouts.rebuilding start walks unvisited
    refine rebuilt.edit (now.later_rebuilding unvisited) nofun (.inl ?_)
    show ((Heap.edit (now.heap.allocate _) _ _).node _).layout? = ((now.heap.allocate _).node _).layout?
    rw [Heap.node_edit_self (Heap.holds_allocate.2 (.inr rfl)), Heap.node_fresh]
    exact Node.layout?_edited_setItems (Node.length_items_emptyLike plain).symm
  | @standing now source unvisited unhandled =>
    refine .record start walks unvisited _ ?_
    rintro image ⟨⟩ older
    exact absurd older (Nat.lt_irrefl _)
  | @pairing now source counterpart earlier unvisited requested =>
    refine .record start walks unvisited _ ?_
    rintro image rfl older
    refine .inr (.inl ⟨earlier, requested ▸ List.suffix_refl _, fun walked => ?_⟩)
    exact walks source (requested ▸ List.mem_cons_of_mem _ walked) unvisited
  | @filled source copy now middle treated new handler change fills partly ih =>
    exact (ih since walks).edit treated.later fills.ne_setOrigin (.edit start middle copy partly)
  | @slotted source target now middle treated handled index value ih =>
    exact (ih since walks).edit treated.later nofun (.edit start middle target nofun)
  | @written source target now middle treated unhandled metadata property value change made ih =>
    exact (ih since walks).edit treated.later made.ne_setOrigin
      (.edit start middle target made.ne_setItems)
  | closed treated kept ih => exact ih since walks
  | @refilled source target now middle after treated requested handler handled whole loaded change refills trades
      leftovers elements images made drawn lost ih =>
    have shed := sheds_of_discardLeftovers lost
    have before := treated.later.trans shed.later
    refine ((ih since walks).shed treated.later shed).edit before refills.ne_setOrigin ?_
    cases refills with
    | elements values =>
      have recorded : after.visits.get? source = some (.object target) := shed.visits ▸ treated.recorded.2
      refine .inr ⟨source, recorded, List.mem_cons_of_mem _ (before.journal.subset requested), fun held => ?_⟩
      rw [← since.handler?_eq held, handled]
    | entries bindings => exact .edit start after target nofun
    | slot index value => exact absurd rfl whole
  | interrupted treated lost ih =>
    have shed := sheds_of_discardLeftovers lost
    exact (ih since walks).shed treated.later shed
  | stopped first ih => exact ih since walks
  | failed first second one two =>
    have begun := one since walks
    exact begun.trans first.later second.later (two (since.trans first.later) begun.walks)

end Passage

/-- Every array that was there is as long as it was, and what was made as the image of an array has its length and
its component type. Some arrays may be stretched, and some counterparts be named beforehand. An object that was
there when its image was made has the smaller place. -/
structure World.KeepsArrays (before after : World) (stretched : ObjectId → Prop)
    (named : ObjectId → ObjectId → Prop) : Prop where
  existing : ∀ id component slots, (before.heap.node id).content = .array component slots → ¬ stretched id →
    ∃ slots', (after.heap.node id).content = .array component slots' ∧ slots'.length = slots.length
  images : ∀ source image component slots, after.visits.get? source = some (.object image) →
    ¬ named source image → source.index < image.index →
    (after.heap.node source).content = .array component slots → ¬ stretched source → ¬ stretched image →
    ∃ slots', (after.heap.node image).content = .array component slots' ∧ slots'.length = slots.length

/-- An array is an object of the heap. -/
theorem Heap.holds_of_layout? {heap : Heap} {id : ObjectId} {layout : TypeName × Nat}
    (known : (heap.node id).layout? = some layout) : heap.Holds id := by
  refine Decidable.byContradiction fun absent => ?_
  rw [node_of_not_holds absent] at known
  cases known

private theorem World.KeepsLayouts.arrays {world after : World} (keeps : world.rested.KeepsLayouts world.rested after) :
    world.KeepsArrays after (world.rested.Stretched after) after.Named where
  existing id component slots content rigid := by
    have known := Node.layout?_of_array content
    have same := (keeps.kept id (Heap.holds_of_layout? known)).resolve_right rigid
    exact Node.exists_of_layout? (same.trans known)
  images source image component slots recorded unnamed older content rigid rigid' := by
    rcases keeps.images source image rfl recorded older with ⟨-, same⟩ | named | stretched | stretched
    · exact Node.exists_of_layout? (same.trans (Node.layout?_of_array content))
    · exact absurd named unnamed
    · exact absurd stretched rigid
    · exact absurd stretched rigid'

/-- Whether a call answers or fails, arrays stay as long as they are and are rebuilt as long as they are. Only a list
or set that is brought onto an array can give it another length, and nothing is brought onto anything to detach
a graph. -/
theorem World.arrays_kept (setting : Setting) (world : World) :
    (∀ value, world.KeepsArrays (setting.disconnect value world).2 (fun _ => False) (fun _ _ => False)) ∧
      ∀ outcome, Reconciliation setting world outcome →
        world.KeepsArrays outcome.2 (world.rested.Stretched outcome.2) outcome.2.Named := by
  have keeps : ∀ {scope stage after}, Passage setting scope stage world.rested after →
      world.KeepsArrays after (world.rested.Stretched after) after.Named :=
    fun passage => (passage.keepsLayouts (.refl world.rested) fun _ => nofun).arrays
  constructor
  · intro value
    have detaches : ∀ {stage after}, Passage setting Request.Detaches stage world.rested after →
        world.KeepsArrays after (fun _ => False) (fun _ _ => False) := by
      intro stage after passage
      have unasked : ∀ source target, .asked (.applyTo source target) ∉ after.journal := fun source target asked =>
        (passage.scope_of_asked asked).elim nofun nofun
      have rigid : ∀ id, ¬ world.rested.Stretched after id := fun id ⟨source, _, asked, _⟩ => unasked _ _ asked
      have unnamed : ∀ source image, ¬ after.Named source image := fun source image ⟨earlier, suffix, _⟩ =>
        unasked _ _ (suffix.subset List.mem_cons_self)
      refine ⟨fun id component slots content _ => (keeps passage).existing id component slots content (rigid id), ?_⟩
      exact fun source image component slots recorded _ older content _ _ =>
        (keeps passage).images source image component slots recorded (unnamed source image) older content
          (rigid source) (rigid image)
    have ensures := setting.disconnect_passage value world
    rcases run : setting.disconnect value world with ⟨ending | result, after⟩
    · exact detaches (ensures.ended ending after run)
    · exact detaches (ensures.answered result after run)
  · intro outcome run
    rcases ended : outcome.1 with ending | result
    · exact keeps (run.passage.2 ending ended)
    · exact keeps (run.passage.1 result ended)

namespace Slots

def schema : Schema := ⟨[]⟩

/-- An array of two slots, a longer one, and a list as long as that. -/
def world : World where
  heap := ⟨#[.array .int [.int 1, .int 2], .array .int [.int 7, .int 8, .int 9], .list [.int 7, .int 8, .int 9]]⟩
  dispatch := .ofRegistry (.withDefaults schema)
  cache := .ofSchema schema

/-- What becomes of the world when an object is brought onto the short array. -/
def outcome (source : ObjectId) : Except Ending Value × World :=
  Setting.applyTo { schema } (.object source) (.object ⟨0⟩) world.rested

/-- The longer array fills the two slots. -/
theorem two_slots_kept :
    Reconciliation { schema } world (outcome ⟨1⟩) ∧
      ∃ slots, ((outcome ⟨1⟩).2.heap.node ⟨0⟩).content = .array .int slots ∧ slots.length = 2 := by
  have run : Reconciliation { schema } world (outcome ⟨1⟩) := .applyTo _ _
  refine ⟨run, ((World.arrays_kept { schema } world).2 (outcome ⟨1⟩) run).existing ⟨0⟩ .int [.int 1, .int 2] rfl ?_⟩
  rintro ⟨source, recorded, -, handled⟩
  have visits : (outcome ⟨1⟩).2.visits = Visits.record {} ⟨1⟩ (.object ⟨0⟩) := by decide +kernel
  rw [visits, Visits.get?_record] at recorded
  split at recorded
  · next here =>
    subst here
    exact absurd (handled (by decide)) (by decide +kernel)
  · cases recorded

/-- The list makes three slots of them. -/
theorem two_slots_stretched :
    Reconciliation { schema } world (outcome ⟨2⟩) ∧
      (world.heap.node ⟨0⟩).content = .array .int [.int 1, .int 2] ∧
      ((outcome ⟨2⟩).2.heap.node ⟨0⟩).content = .array .int [.int 7, .int 8, .int 9] :=
  ⟨.applyTo _ _, rfl, by decide +kernel⟩

end Slots

end Reconciler
