import Reconciler.Proofs.Termination.Rebuild

/-! # Putting a graph together ends

An object that is brought onto a counterpart uses up its credit, so whatever is asked for after that weighs less:
the counterparts of its parts may be any objects at all. A container without a counterpart is rebuilt as in a
detachment. Looking for the counterpart of an object uses up nothing, but it is followed by a request about the
object with that counterpart, and never by the same search again.
-/

namespace Reconciler

open Reconciler.Action

/-- The objects among the values are there. -/
def Heap.HoldsAll (heap : Heap) (values : List Value) : Prop := ∀ id, .object id ∈ values → heap.Holds id

namespace Heap.HoldsAll

variable {heap : Heap} {values more : List Value} {value : Value}

private theorem subset (holds : heap.HoldsAll values) (within : more ⊆ values) : heap.HoldsAll more :=
  fun id listed => holds id (within listed)

private theorem of_mem (holds : heap.HoldsAll values) (listed : value ∈ values) : heap.HoldsAll [value] :=
  holds.subset (List.cons_subset.2 ⟨listed, List.nil_subset _⟩)

private theorem append (first : heap.HoldsAll values) (second : heap.HoldsAll more) : heap.HoldsAll (values ++ more) :=
  fun id listed => (List.mem_append.1 listed).elim (first id) (second id)

private theorem object {id : ObjectId} (held : heap.Holds id) : heap.HoldsAll [.object id] := by
  intro other listed
  obtain ⟨⟩ := List.mem_singleton.1 listed
  exact held

private theorem scalar (plain : value.object? = none) : heap.HoldsAll [value] := by
  intro id listed
  obtain rfl := List.mem_singleton.1 listed
  cases plain

theorem holds_of_eq (holds : heap.HoldsAll [value]) {id : ObjectId} (same : value = .object id) : heap.Holds id :=
  holds id (List.mem_singleton.2 same.symm)

private theorem later {now after : World} (holds : now.heap.HoldsAll values) (later : now.Later after) :
    after.heap.HoldsAll values :=
  fun id listed => later.holds (holds id listed)

end Heap.HoldsAll

/-- A request to reconcile what is there. -/
def Request.Reconciles (heap : Heap) : Request → Prop
  | .disconnect _ => False
  | .apply detached => heap.HoldsAll [detached]
  | .applyTo detached authoritative => heap.HoldsAll [detached, authoritative]

private theorem Request.reconciles_reconcile {heap : Heap} {detached authoritative : Value}
    (first : heap.HoldsAll [detached]) (second : heap.HoldsAll [authoritative]) :
    (Request.reconcile detached authoritative).Reconciles heap := by
  unfold reconcile
  split
  · exact first
  · exact first.append second

private theorem Request.reconciles_matched {heap : Heap} {detached : Value} {counterpart? : Option Value}
    (first : heap.HoldsAll [detached])
    (second : ∀ counterpart, counterpart? = some counterpart → heap.HoldsAll [counterpart]) :
    (Request.matched detached counterpart?).Reconciles heap := by
  cases counterpart? with
  | none => exact first
  | some counterpart => exact first.append (second counterpart rfl)

/-- A bound on the nesting below a request. -/
noncomputable def World.nesting (bound : Nat) (now : World) : Request → Nat
  | .disconnect value => now.weigh .reconciling bound value
  | .apply detached => 2 * now.weigh .reconciling bound detached + 1
  | .applyTo detached _ => 2 * now.weigh .reconciling bound detached

private theorem World.nesting_lt_of_credit {bound : Nat} {now after : World}
    (used : after.credit .reconciling < now.credit .reconciling) (room : after.queue .reconciling [] ≤ bound)
    (request : Request) (value : Value) : after.nesting bound request < 2 * now.weigh .reconciling bound value := by
  have less := fun part => weigh_lt_of_credit used room part value
  cases request with
  | disconnect part =>
    have part_less := less part
    simp only [nesting]
    omega
  | apply part =>
    have part_less := less part
    simp only [nesting]
    omega
  | applyTo part authoritative =>
    have part_less := less part
    simp only [nesting]
    omega

/-- Requests to reconcile are answered or fail for a reason, if there is fuel for more than their nesting. -/
def Settles (setting : Setting) (bound fuel : Nat) (ask : Request → Action Value) : Prop :=
  ∀ now request, Orderly setting now → request.Reconciles now.heap → now.room .reconciling [] ≤ bound →
    now.nesting bound request < fuel →
    (ask request).Ensures now (Stopped setting) (Concluded .reconciling setting now)

/-- Values without a counterpart may be asked for while a container is rebuilt. -/
theorem Settles.nests {setting : Setting} {bound fuel limit : Nat} {ask : Request → Action Value}
    (asks : Settles setting bound fuel ask) (enough : 2 * limit ≤ fuel) :
    Nests .reconciling setting bound limit (fun part => ask (.apply part)) := by
  intro now value orderly held within light
  apply asks now (.apply value) orderly _ within
  · simp only [World.nesting]
    omega
  · intro id listed
    exact held id (List.mem_singleton.1 listed).symm

/-- A first visit leaves the objects as they are. -/
theorem Went.record {mode : Mode} {now : World} {source : ObjectId} (held : now.heap.Holds source)
    (unvisited : now.visits.get? source = none) (target : Value) :
    Went mode now (record source target now).2 := by
  have later := World.Later.record now unvisited target
  have credit := World.credit_record mode held unvisited target
  constructor
  · exact later
  · omega
  · intro opened _
    have queue : (Action.record source target now).2.queue mode opened ≤ now.queue mode opened := by
      apply World.queue_le
      rintro id ⟨present, still, counts, parts⟩
      exact ⟨present, later.unvisited still, counts, parts⟩
    apply World.room_le
    omega
  · exact fun _ _ _ => rfl

/-- An object is passed through, or stays with a counterpart that is not brought up to date. -/
theorem Concluded.record {mode : Mode} {setting : Setting} {now : World} {source : ObjectId}
    (orderly : Orderly setting now) (held : now.heap.Holds source) (unvisited : now.visits.get? source = none)
    {target result : Value} (there : now.heap.HoldsAll [target]) (known : now.heap.HoldsAll [result]) :
    Concluded mode setting now result (record source target now).2 := by
  constructor
  · exact orderly.record unvisited held fun _ same => there.holds_of_eq same
  · exact .record held unvisited target
  · exact fun _ same => known.holds_of_eq same
  · exact .of_same orderly (.record now unvisited target) rfl rfl

/-- An object is being brought onto a counterpart. -/
abbrev Updating (setting : Setting) (now : World) (source target : ObjectId) (middle : World) : Prop :=
  Inside .reconciling setting now source target [target] middle

namespace Updating

variable {setting : Setting} {bound fuel : Nat} {ask : Request → Action Value} {now : World}
  {source target : ObjectId} {middle : World}

private theorem holdsAll_items (updating : Updating setting now source target middle) (id : ObjectId) :
    middle.heap.HoldsAll (middle.heap.node id).items :=
  fun _ listed => updating.orderly.closed id _ (Node.mem_parts_of_items listed)

private theorem holdsAll_bindings (updating : Updating setting now source target middle) (id : ObjectId) :
    middle.heap.HoldsAll ((middle.heap.node id).bindings.map Prod.fst) ∧
      middle.heap.HoldsAll ((middle.heap.node id).bindings.map Prod.snd) := by
  constructor
  · intro part listed
    obtain ⟨entry, member, same⟩ := List.mem_map.1 listed
    exact updating.orderly.closed id part (same ▸ (Node.mem_parts_of_bindings member).1)
  · intro part listed
    obtain ⟨entry, member, same⟩ := List.mem_map.1 listed
    exact updating.orderly.closed id part (same ▸ (Node.mem_parts_of_bindings member).2)

private theorem called (updating : Updating setting now source target middle) {outages : Outages}
    (spent : middle.outages.Spends outages) : Updating setting now source target { middle with outages } :=
  updating.of_same (.called middle spent) rfl rfl (updating.orderly.called spent) fun detaches => absurd rfl detaches

/-- The object is walked right after its first visit. -/
theorem walked (updating : Updating setting now source target middle) (walks : middle.walks = now.walks) :
    Updating setting now source target (note (.walked source) middle).2 :=
  updating.walk walks (.inl rfl)

/-- What is read of an object is there. -/
theorem holdsAll_read (updating : Updating setting now source target middle) {metadata : Metadata}
    (transparent : metadata.Transparent) {id : ObjectId} {property : String} {value : Value}
    (found : Property.read middle.heap metadata id property = .ok value) : middle.heap.HoldsAll [value] := by
  rcases transparent.read found with plain | part
  · exact .scalar plain
  · exact .of_mem (updating.orderly.closed id) part

section Asking

variable (asks : Settles setting bound fuel ask) (within : now.room .reconciling [] ≤ bound)
  (light : 2 * now.weigh .reconciling bound (.object source) ≤ fuel) (there : now.heap.Holds target)

include asks within light there

/-- Any request can be made, since credit was used up. -/
private theorem ensures_ask (updating : Updating setting now source target middle) {request : Request}
    (known : request.Reconciles middle.heap) :
    (ask request).Ensures middle (Stopped setting) (fun result after =>
      Updating setting now source target after ∧ after.heap.HoldsAll [result] ∧ middle.Later after) := by
  have used : middle.credit .reconciling < now.credit .reconciling := by
    rcases updating.progress with used | ⟨-, -, new, -⟩
    · exact used
    · exact absurd there new
  have room := (updating.went.room_le [] nofun).trans within
  have queue : middle.queue .reconciling [] ≤ bound := (Nat.le_add_right _ _).trans room
  apply (asks middle request updating.orderly known room
    (Nat.lt_of_lt_of_le (World.nesting_lt_of_credit used queue _ _) light)).weaken
  intro result after concluded
  refine ⟨updating.go concluded, ?_, concluded.went.later⟩
  exact fun id listed => concluded.held id (List.mem_singleton.1 listed).symm

private theorem ensures_mergeItem (updating : Updating setting now source target middle) {element : Value}
    {candidates : List Value} (known : middle.heap.HoldsAll [element])
    (offered : middle.heap.HoldsAll candidates) :
    (mergeItem setting ask element candidates).Ensures middle (Stopped setting) (fun outcome after =>
      Updating setting now source target after ∧ after.heap.HoldsAll [outcome.1] ∧ outcome.2 ⊆ candidates ∧
        middle.Later after) := by
  apply (ensures_askStore (Counterpart.spends_take ..) fun _ _ spent _ => ⟨nofun, updating.orderly.called spent⟩).bind
  rintro ⟨counterpart?, rest⟩ _ ⟨outages, spent, rfl, found⟩
  have drawn := Counterpart.drawn_take found
  have called := World.Later.called middle spent
  have request := Request.reconciles_matched known fun matched same => offered.of_mem (drawn.counterpart matched same)
  apply ((updating.called spent).ensures_ask asks within light there request).bind
  rintro merged after ⟨updating, held, later⟩
  exact ensures_pure ⟨updating, held, drawn.rest, called.trans later⟩

private theorem ensures_mergeItems (updating : Updating setting now source target middle)
    {elements candidates : List Value}
    (known : middle.heap.HoldsAll elements) (offered : middle.heap.HoldsAll candidates) :
    (mergeItems setting ask elements candidates).Ensures middle (Stopped setting) (fun outcome after =>
      Updating setting now source target after ∧ after.heap.HoldsAll outcome.1 ∧ middle.Later after) := by
  induction elements generalizing candidates middle with
  | nil => exact ensures_pure ⟨updating, nofun, .refl _⟩
  | cons element elements ih =>
    apply (updating.ensures_mergeItem asks within light there (known.of_mem List.mem_cons_self) offered).bind
    rintro ⟨merged, rest⟩ one ⟨updating, first, fewer, onward⟩
    apply (ih updating ((known.subset (List.subset_cons_self _ _)).later onward)
      ((offered.subset fewer).later onward)).bind
    rintro ⟨others, leftovers⟩ two ⟨updating, second, further⟩
    exact ensures_pure ⟨updating, (first.later further).append second, onward.trans further⟩

private theorem ensures_mergeBinding (updating : Updating setting now source target middle)
    {current : List (Value × Value)} {key value : Value} {pool : Counterpart.Pool}
    (known : middle.heap.HoldsAll [key, value]) (keys : middle.heap.HoldsAll pool.keys)
    (values : middle.heap.HoldsAll pool.values) :
    (mergeBinding setting ask current key value pool).Ensures middle (Stopped setting) (fun outcome after =>
      Updating setting now source target after ∧ after.heap.HoldsAll [outcome.1.1, outcome.1.2] ∧
        outcome.2.keys ⊆ pool.keys ∧ outcome.2.values ⊆ pool.values ∧ middle.Later after) := by
  apply (ensures_askStore (Counterpart.spends_takeEntry ..) fun _ _ spent _ =>
    ⟨nofun, updating.orderly.called spent⟩).bind
  rintro ⟨⟨key?, value?⟩, rest⟩ _ ⟨outages, spent, rfl, found⟩
  obtain ⟨drawn, drawn'⟩ := Counterpart.drawn_takeEntry found
  have request := Request.reconciles_matched (known.of_mem List.mem_cons_self)
    fun matched same => keys.of_mem (drawn.counterpart matched same)
  have called := World.Later.called middle spent
  apply ((updating.called spent).ensures_ask asks within light there request).bind
  rintro mergedKey one ⟨updating, first, further⟩
  have onward := called.trans further
  have bound : middle.heap.HoldsAll [value] := known.subset (List.subset_cons_self _ _)
  have request' := Request.reconciles_matched (bound.later onward)
    fun matched same => (values.of_mem (drawn'.counterpart matched same)).later onward
  apply (updating.ensures_ask asks within light there request').bind
  rintro mergedValue two ⟨updating, second, further⟩
  exact ensures_pure ⟨updating, (first.later further).append second, drawn.rest, drawn'.rest, onward.trans further⟩

private theorem ensures_mergeBindings (updating : Updating setting now source target middle)
    {current entries : List (Value × Value)} {pool : Counterpart.Pool}
    (entryKeys : middle.heap.HoldsAll (entries.map Prod.fst))
    (entryValues : middle.heap.HoldsAll (entries.map Prod.snd)) (keys : middle.heap.HoldsAll pool.keys)
    (values : middle.heap.HoldsAll pool.values) :
    (mergeBindings setting ask current entries pool).Ensures middle (Stopped setting) (fun outcome after =>
      Updating setting now source target after ∧
        after.heap.HoldsAll (outcome.1.flatMap (fun entry => [entry.1, entry.2])) ∧ middle.Later after) := by
  induction entries generalizing pool middle with
  | nil => exact ensures_pure ⟨updating, nofun, .refl _⟩
  | cons entry entries ih =>
    have known : middle.heap.HoldsAll [entry.1, entry.2] :=
      (entryKeys.of_mem List.mem_cons_self).append (entryValues.of_mem List.mem_cons_self)
    apply (updating.ensures_mergeBinding asks within light there known keys values).bind
    rintro ⟨merged, rest⟩ one ⟨updating, first, fewerKeys, fewerValues, onward⟩
    apply (ih updating ((entryKeys.subset (List.subset_cons_self _ _)).later onward)
      ((entryValues.subset (List.subset_cons_self _ _)).later onward) ((keys.subset fewerKeys).later onward)
      ((values.subset fewerValues).later onward)).bind
    rintro ⟨others, leftovers⟩ two ⟨updating, second, further⟩
    exact ensures_pure ⟨updating, (first.later further).append second, onward.trans further⟩

private theorem ensures_mergeSlot (updating : Updating setting now source target middle) {node : Node}
    {item counterpart : Value} (known : middle.heap.HoldsAll [item])
    (offered : middle.heap.HoldsAll [counterpart]) :
    (mergeSlot ask node item counterpart).Ensures middle (Stopped setting) (fun result after =>
      Updating setting now source target after ∧ after.heap.HoldsAll [result] ∧ middle.Later after) := by
  unfold mergeSlot
  split
  · exact ensures_pure ⟨updating, known, .refl _⟩
  · exact updating.ensures_ask asks within light there (Request.reconciles_reconcile known offered)

end Asking

/-- Leftovers only leave the store. -/
private theorem ensures_discardUnless (updating : Updating setting now source target middle) (container : ObjectId)
    (kept : List Value) (leftover : Value) :
    (discardUnless container kept leftover).Ensures middle (Stopped setting) (fun _ after =>
      Updating setting now source target after ∧ middle.Later after) := by
  unfold discardUnless
  split
  · next entity =>
    apply ensures_look_bind
    split
    · refine ensures_bind_of_eq rfl ?_
      have noting := World.Later.note middle (.discarded container entity)
      have noted := updating.orderly.of_same noting rfl rfl (List.Subset.refl _) rfl
      apply ensures_changeStore fun _ _ spent => ⟨nofun, noted.called spent⟩
      intro store outages spent removal
      have removing := World.Later.stored (note (.discarded container entity) middle).2 (.remove removal) spent
      have fewer : store.stored ⊆ middle.store.stored := by
        rw [EntityStore.remove_eq removal]
        exact List.filter_subset_self _
      refine ⟨updating.of_same (noting.trans removing) rfl rfl ?_ fun detaches => absurd rfl detaches,
        noting.trans removing⟩
      exact noted.of_same removing rfl rfl fewer rfl
    · exact ensures_pure ⟨updating, .refl _⟩
  · exact ensures_pure ⟨updating, .refl _⟩

private theorem ensures_discardLeftovers (updating : Updating setting now source target middle) (container : ObjectId)
    (kept leftovers : List Value) :
    (discardLeftovers setting container kept leftovers).Ensures middle (Stopped setting) (fun _ after =>
      Updating setting now source target after ∧ middle.Later after) := by
  unfold discardLeftovers
  split
  · apply ensures_forM (fun _ after => Updating setting now source target after ∧ middle.Later after)
      ⟨updating, .refl _⟩
    rintro _ leftover _ - one ⟨updating, onward⟩
    apply (updating.ensures_discardUnless container kept leftover).weaken
    rintro _ two ⟨updating, further⟩
    exact ⟨updating, onward.trans further⟩
  · exact ensures_pure ⟨updating, .refl _⟩

private theorem ensures_keepUnloaded (updating : Updating setting now source target middle)
    (detached authoritative : ObjectId) :
    (keepUnloaded detached authoritative).Ensures middle (Stopped setting) (fun _ after => middle = after) := by
  unfold keepUnloaded
  apply ensures_look_bind
  split
  · apply ensures_look_bind
    split
    · exact ensures_look_bind (ensures_stop ⟨nofun, updating.orderly⟩)
    · exact ensures_pure rfl
  · exact ensures_pure rfl

/-- The counterpart stands for the object that was brought onto it. -/
theorem concludes_target (updating : Updating setting now source target middle) :
    Concluded .reconciling setting now (.object target) middle := by
  apply updating.concludes
  rintro _ ⟨⟩
  exact updating.held

/-- The counterpart takes over what is there. -/
theorem edited (updating : Updating setting now source target middle) {change : Edit}
    (other : ∀ origin, change ≠ .setOrigin origin) (known : middle.heap.HoldsAll change.values) :
    Updating setting now source target (edit target change middle).2 :=
  updating.edit other known (.inl (List.mem_singleton_self _))

section Asking

variable (asks : Settles setting bound fuel ask) (within : now.room .reconciling [] ≤ bound)
  (light : 2 * now.weigh .reconciling bound (.object source) ≤ fuel) (there : now.heap.Holds target)

include asks within light there

private theorem ensures_mergeCollection (updating : Updating setting now source target middle)
    (walks : middle.walks = now.walks) :
    (mergeCollection setting ask source target).Ensures middle (Stopped setting)
      (Concluded .reconciling setting now) := by
  unfold mergeCollection
  apply (updating.ensures_keepUnloaded source target).bind
  rintro kept _ rfl
  split
  · exact ensures_pure updating.concludes_target
  · have updating := updating.walked walks
    refine ensures_bind_of_eq rfl (ensures_look_bind (ensures_look_bind ?_))
    apply (updating.ensures_mergeItems asks within light there (updating.holdsAll_items source)
      (updating.holdsAll_items target)).bind
    rintro ⟨merged, leftovers⟩ one ⟨updating, known, -⟩
    apply (updating.ensures_discardLeftovers target merged leftovers).bind
    rintro _ two ⟨updating, onward⟩
    have updating : Updating setting now source target (edit target (.setItems merged) two).2 :=
      updating.edited (by simp) (known.later onward)
    exact ensures_bind_of_eq rfl (ensures_pure updating.concludes_target)

private theorem ensures_mergeMap (updating : Updating setting now source target middle)
    (walks : middle.walks = now.walks) :
    (mergeMap setting ask source target).Ensures middle (Stopped setting) (Concluded .reconciling setting now) := by
  unfold mergeMap
  apply (updating.ensures_keepUnloaded source target).bind
  rintro kept _ rfl
  split
  · exact ensures_pure updating.concludes_target
  · have updating := updating.walked walks
    refine ensures_bind_of_eq rfl (ensures_look_bind (ensures_look_bind ?_))
    obtain ⟨entryKeys, entryValues⟩ := updating.holdsAll_bindings source
    obtain ⟨keys, values⟩ := updating.holdsAll_bindings target
    apply (updating.ensures_mergeBindings asks within light there entryKeys entryValues keys values).bind
    rintro ⟨merged, leftovers⟩ one ⟨updating, known, -⟩
    apply (updating.ensures_discardLeftovers target _ _).bind
    rintro _ two ⟨updating, onward⟩
    have updating : Updating setting now source target (edit target (.setBindings merged) two).2 :=
      updating.edited (by simp) (known.later onward)
    exact ensures_bind_of_eq rfl (ensures_pure updating.concludes_target)

private theorem ensures_mergeArray (updating : Updating setting now source target middle)
    (walks : middle.walks = now.walks) :
    (mergeArray ask source target).Ensures middle (Stopped setting) (Concluded .reconciling setting now) := by
  have updating := updating.walked walks
  refine ensures_bind_of_eq rfl (ensures_look_bind (ensures_look_bind ?_))
  have known := updating.holdsAll_items source
  have offered := updating.holdsAll_items target
  refine Ensures.bind (ensures_forM (fun _ after => Updating setting now source target after ∧
    (note (.walked source) middle).2.Later after) ⟨updating, .refl _⟩ ?_) ?_
  · rintro done ⟨⟨item, counterpart⟩, index⟩ rest split one ⟨updating, onward⟩
    have listed : ((item, counterpart), index) ∈ done ++ ((item, counterpart), index) :: rest :=
      List.mem_append_right _ List.mem_cons_self
    rw [← split] at listed
    have paired : (item, counterpart) ∈ _ := (List.mem_zipIdx listed).2.2 ▸ List.getElem_mem _
    obtain ⟨first, second⟩ := List.of_mem_zip paired
    apply (updating.ensures_mergeSlot asks within light there ((known.of_mem first).later onward)
      ((offered.of_mem second).later onward)).bind
    rintro merged two ⟨updating, held, further⟩
    refine ensures_of_ok rfl ⟨updating.edited (by simp) held, ?_⟩
    exact (onward.trans further).trans (.edit two target (by simp))
  · rintro _ after ⟨updating, -⟩
    exact ensures_pure updating.concludes_target

omit asks within light there in
private theorem ensures_versionOf (updating : Updating setting now source target middle) (metadata : Metadata)
    (id : ObjectId)
    (property : String) :
    (versionOf metadata id property).Ensures middle (Stopped setting) (fun _ after => middle = after) := by
  unfold versionOf
  split
  · exact (ensures_readProperty fun _ => ⟨nofun, updating.orderly⟩).weaken fun _ _ => And.left
  · exact ensures_look_bind (ensures_pure rfl)

omit asks within light there in
private theorem ensures_compareChecked (updating : Updating setting now source target middle) (metadata : Metadata)
    (version? : Option String) :
    (compareChecked metadata source target version?).Ensures middle (Stopped setting)
      (fun _ after => middle = after) := by
  cases version? with
  | none => exact ensures_pure rfl
  | some property =>
    apply (updating.ensures_versionOf metadata target property).bind
    rintro current _ rfl
    apply (updating.ensures_versionOf metadata source property).bind
    rintro carried _ rfl
    split
    · exact ensures_look_bind (ensures_stop ⟨nofun, updating.orderly⟩)
    · exact ensures_pure rfl

private theorem ensures_mergeProperty (updating : Updating setting now source target middle) {metadata : Metadata}
    (transparent : metadata.Transparent) (property : String) :
    (mergeProperty ask metadata source target property).Ensures middle (Stopped setting)
      (fun _ after => Updating setting now source target after) := by
  apply (ensures_readProperty fun _ => ⟨nofun, updating.orderly⟩).bind
  rintro value _ ⟨rfl, carried⟩
  apply (ensures_readProperty fun _ => ⟨nofun, updating.orderly⟩).bind
  rintro current _ ⟨rfl, present⟩
  split
  · exact ensures_pure updating
  have request := Request.reconciles_reconcile (updating.holdsAll_read transparent carried)
    (updating.holdsAll_read transparent present)
  apply (updating.ensures_ask asks within light there request).bind
  rintro merged after ⟨updating, held, -⟩
  unfold updateProperty
  split
  · exact ensures_pure updating
  apply ensures_writeProperty fun _ => ⟨nofun, updating.orderly⟩
  intro change made
  have written : Updating setting now source target (edit target change after).2 := by
    refine updating.edited made.ne_setOrigin ?_
    intro part listed
    rcases transparent.write made _ listed with plain | same | before
    · cases plain
    · exact held.holds_of_eq same.symm
    · exact updating.orderly.closed target part before
  exact ⟨fun _ => ⟨nofun, written.orderly⟩, fun _ => written⟩

private theorem ensures_mergeProperties (updating : Updating setting now source target middle)
    (walks : middle.walks = now.walks) (entity : Entity) :
    (mergeProperties setting ask entity source target).Ensures middle (Stopped setting)
      (fun _ after => Updating setting now source target after) := by
  apply (Answers.ensures (answers_metadataOf setting target)).bind
  rintro metadata? _ ⟨known, cache, same, rfl⟩
  have looked : Concluded .reconciling setting middle .null { middle with cache } :=
    .of_same updating.orderly (.cache middle same) rfl rfl rfl rfl nofun
  have transparent : (metadata?.getD { type := entity.type }).Transparent := by
    rcases metadata? with _ | metadata
    · intro property access declared
      cases declared
    · exact updating.orderly.transparent.metadata? known.symm
  have updating : Updating setting now source target { middle with cache } := updating.go looked
  apply (updating.ensures_compareChecked _ _).bind
  rintro _ _ rfl
  refine ensures_bind_of_eq rfl ?_
  apply ensures_forM (fun _ => Updating setting now source target) (updating.walked walks)
  intro _ property _ _ one updating
  exact updating.ensures_mergeProperty asks within light there transparent property

private theorem ensures_mergeObject (updating : Updating setting now source target middle)
    (walks : middle.walks = now.walks) :
    (mergeObject setting ask source target).Ensures middle (Stopped setting)
      (Concluded .reconciling setting now) := by
  refine ensures_look_bind (ensures_look_bind ?_)
  split
  · refine ensures_pure (updating.concludes ?_)
    rintro _ ⟨⟩
    exact updating.later.holds updating.present
  split
  · exact ensures_pure updating.concludes_target
  apply (ensures_callStore fun _ _ spent _ => ⟨nofun, updating.orderly.called spent⟩).bind
  rintro identifier? _ ⟨outages, spent, rfl, -⟩
  have called := updating.called spent
  split
  · exact ensures_stop ⟨nofun, called.orderly⟩
  split
  · apply (called.ensures_mergeProperties asks within light there walks _).bind
    exact fun _ _ updating => ensures_pure updating.concludes_target
  · exact ensures_stop ⟨nofun, called.orderly⟩

end Asking

end Updating

/-- Without two objects a handler answers at once. -/
private theorem Handler.ensures_mergeValue_of_scalar {handler : Handler} {setting : Setting}
    {ask : Request → Action Value}
    {now : World} {failed : Ending → World → Prop} {post : Value → World → Prop} {detached authoritative : Value}
    (plain : detached.object? = none ∨ authoritative.object? = none)
    (holds : ∀ result, result = detached ∨ result = authoritative ∨ result = .null → post result now) :
    (handler.mergeValue setting ask detached authoritative).Ensures now failed post := by
  cases handler with
  | basic => exact ensures_pure (holds detached (.inl rfl))
  | null => exact ensures_pure (holds .null (.inr (.inr rfl)))
  | frozen => exact ensures_pure (holds authoritative (.inr (.inl rfl)))
  | _ =>
    cases detached with
    | object source =>
      cases authoritative with
      | object target => exact absurd plain (by simp [Value.object?])
      | _ => exact ensures_pure (holds _ (.inr (.inl rfl)))
    | _ => exact ensures_pure (holds _ (.inr (.inl rfl)))

section Requests

variable {setting : Setting} {bound fuel : Nat} {ask : Request → Action Value}
  (asks : Settles setting bound fuel ask) {now : World}

include asks

/-- A handler refills the counterpart or leaves it as it is. -/
private theorem Settles.ensures_mergeValue {handler : Handler} {source target : ObjectId} {middle : World}
    (updating : Updating setting now source target middle) (walks : middle.walks = now.walks)
    (there : now.heap.Holds target) (within : now.room .reconciling [] ≤ bound)
    (light : 2 * now.weigh .reconciling bound (.object source) ≤ fuel) :
    (handler.mergeValue setting ask (.object source) (.object target)).Ensures middle (Stopped setting)
      (Concluded .reconciling setting now) := by
  cases handler with
  | basic =>
    refine ensures_pure (updating.concludes ?_)
    rintro _ ⟨⟩
    exact updating.later.holds updating.present
  | null => exact ensures_pure (updating.concludes nofun)
  | frozen => exact ensures_pure updating.concludes_target
  | collection => exact updating.ensures_mergeCollection asks within light there walks
  | map => exact updating.ensures_mergeMap asks within light there walks
  | array => exact updating.ensures_mergeArray asks within light there walks

/-- An object that is visited for the first time gets its counterpart recorded and is then brought onto it. -/
private theorem Settles.ensures_applyFirst {source : ObjectId} {authoritative : Value}
    {next : Option Handler → Action Value}
    (orderly : Orderly setting now) (held : now.heap.Holds source) (unvisited : now.visits.get? source = none)
    (known : now.heap.HoldsAll [authoritative]) (within : now.room .reconciling [] ≤ bound)
    (light : 2 * now.weigh .reconciling bound (.object source) ≤ fuel)
    (handled : ∀ handler, next (some handler) =
      handler.mergeValue setting ask (.object source) authoritative)
    (paired : ∀ target, authoritative = .object target → next none = mergeObject setting ask source target)
    (alone : authoritative.object? = none → next none = pure (.object source)) :
    (record source authoritative >>= fun _ => handlerOf (.object source) >>= next).Ensures now (Stopped setting)
      (Concluded .reconciling setting now) := by
  refine ensures_bind_of_eq rfl ?_
  apply (Answers.ensures (answers_handlerOf _)).bind
  rintro handler? _ ⟨-, dispatch, same, rfl⟩
  have looked : ∀ {result}, now.heap.HoldsAll [result] → Concluded .reconciling setting
      (record source authoritative now).2 result { (record source authoritative now).2 with dispatch } := by
    intro result there
    have recorded : Concluded .reconciling setting now result (record source authoritative now).2 :=
      .record orderly held unvisited known there
    exact .of_same recorded.orderly (.dispatch _ same) rfl rfl rfl rfl recorded.held
  rcases object : authoritative.object? with _ | target
  · have settled : ∀ {result}, now.heap.HoldsAll [result] → Concluded .reconciling setting now result
        { (record source authoritative now).2 with dispatch } := by
      intro result there
      have recorded : Concluded .reconciling setting now result (record source authoritative now).2 :=
        .record orderly held unvisited known there
      exact (looked there).since recorded.went recorded.flushed
    cases handler? with
    | none =>
      rw [alone object]
      exact ensures_pure (settled (.object held))
    | some handler =>
      rw [handled]
      refine Handler.ensures_mergeValue_of_scalar (.inr object) fun result either => settled ?_
      rcases either with rfl | rfl | rfl
      · exact .object held
      · exact known
      · exact .scalar rfl
  · obtain rfl := (Value.object?_eq_some_iff _ _).1 object
    have there := known.holds_of_eq rfl
    have spent : Updating setting now source target (record source (.object target) now).2 :=
      .spend orderly held unvisited Nat.one_pos there
    have updating : Updating setting now source target _ := spent.go (looked (.object held))
    cases handler? with
    | none =>
      rw [paired target rfl]
      exact updating.ensures_mergeObject asks within light there rfl
    | some handler =>
      rw [handled]
      exact asks.ensures_mergeValue updating rfl there within light

private theorem Settles.ensures_applyValueTo {detached authoritative : Value} (orderly : Orderly setting now)
    (known : now.heap.HoldsAll [detached]) (known' : now.heap.HoldsAll [authoritative])
    (within : now.room .reconciling [] ≤ bound)
    (light : 2 * now.weigh .reconciling bound detached ≤ fuel) :
    (applyValueTo setting ask detached authoritative).Ensures now (Stopped setting)
      (Concluded .reconciling setting now) := by
  unfold applyValueTo
  split
  · exact ensures_pure (.here orderly fun _ same => known'.holds_of_eq same)
  apply ensures_look_bind
  cases detached with
  | object source =>
    have held := known.holds_of_eq rfl
    rcases visited : now.visits.get? source with _ | counterpart
    · simp only [Value.object?, Option.bind_some, visited]
      apply asks.ensures_applyFirst orderly held visited known' within light
      · exact fun _ => rfl
      · rintro target rfl
        rfl
      · intro plain
        cases authoritative with
        | object target => cases plain
        | _ => rfl
    · simp only [Value.object?, Option.bind_some, visited]
      exact ensures_pure (.here orderly (orderly.counterpart source counterpart visited).2)
  | _ =>
    refine ensures_bind_of_eq rfl ?_
    apply (Answers.ensures (answers_handlerOf _)).bind
    rintro handler? _ ⟨-, dispatch, same, rfl⟩
    have looked : ∀ {result}, now.heap.HoldsAll [result] →
        Concluded .reconciling setting now result { now with dispatch } := by
      intro result there
      exact .of_same orderly (.dispatch now same) rfl rfl rfl rfl fun _ same => there.holds_of_eq same
    cases handler? with
    | none => exact ensures_pure (looked known)
    | some handler =>
      refine Handler.ensures_mergeValue_of_scalar (.inl rfl) fun result either => looked ?_
      rcases either with rfl | rfl | rfl
      · exact known
      · exact known'
      · exact .scalar rfl

private theorem Settles.ensures_applyObject {source : ObjectId} (orderly : Orderly setting now)
    (held : now.heap.Holds source) (unvisited : now.visits.get? source = none)
    (within : now.room .reconciling [] ≤ bound)
    (light : 2 * now.weigh .reconciling bound (.object source) < fuel) :
    (applyObject ask source).Ensures now (Stopped setting) (Concluded .reconciling setting now) := by
  refine ensures_look_bind (ensures_look_bind ?_)
  split
  · refine ensures_bind_of_eq rfl (ensures_pure ?_)
    exact .record orderly held unvisited (.object held) (.object held)
  apply (ensures_callStore fun _ _ spent _ => ⟨nofun, orderly.called spent⟩).bind
  rintro identifier? _ ⟨outages, spent, rfl, -⟩
  have read := orderly.called spent
  split
  · exact ensures_stop ⟨nofun, read⟩
  apply (ensures_callStore fun _ _ spent _ => ⟨nofun, read.called spent⟩).bind
  rintro target? _ ⟨others, further, rfl, found⟩
  have sought := read.called further
  cases target? with
  | none => exact ensures_stop ⟨nofun, sought⟩
  | some target =>
    have there := orderly.stored target (EntityStore.mem_stored_of_find found)
    have called := World.Later.called now (spent.trans further)
    have lighter : World.weigh .reconciling bound { now with outages := others } (.object source) ≤
        now.weigh .reconciling bound (.object source) :=
      World.weigh_le_of_same called orderly.closed rfl rfl (by rintro _ ⟨⟩; exact held)
    apply (asks { now with outages := others } (.applyTo (.object source) (.object target)) sought
      (Heap.HoldsAll.append (.object held) (.object there)) within (by simp only [World.nesting]; omega)).weaken
    exact fun result after concluded => (concluded.since_called read further).since_called orderly spent

private theorem Settles.ensures_applyValue {detached : Value} (orderly : Orderly setting now)
    (known : now.heap.HoldsAll [detached]) (within : now.room .reconciling [] ≤ bound)
    (light : 2 * now.weigh .reconciling bound detached < fuel) :
    (applyValue ask detached).Ensures now (Stopped setting) (Concluded .reconciling setting now) := by
  unfold applyValue
  split
  · exact ensures_pure (.here orderly nofun)
  apply ensures_look_bind
  have held : ∀ id, detached = .object id → now.heap.Holds id := fun _ same => known.holds_of_eq same
  rcases visited : detached.object?.bind now.visits.get? with _ | counterpart
  · apply (Answers.ensures (answers_handlerOf detached)).bind
    rintro handler? _ ⟨resolved, dispatch, same, rfl⟩
    have later := World.Later.dispatch now same
    have looked : Concluded .reconciling setting now .null { now with dispatch } :=
      .of_same orderly later rfl rfl rfl rfl nofun
    have unvisited : ∀ id, detached = .object id → now.visits.get? id = none := by
      rintro id rfl
      exact visited
    have within' := (looked.went.room_le [] nofun).trans within
    have lighter : ({ now with dispatch } : World).weigh .reconciling bound detached ≤
        now.weigh .reconciling bound detached := World.weigh_le_of_same later orderly.closed rfl rfl held
    suffices rest : Ensures _ { now with dispatch } (Stopped setting)
        (Concluded .reconciling setting { now with dispatch }) from
      rest.weaken fun _ _ concluded => concluded.since looked.went looked.flushed
    rcases handler? with _ | handler
    · cases detached with
      | object source =>
        exact asks.ensures_applyObject looked.orderly (held source rfl) (unvisited source rfl) within'
          (Nat.lt_of_le_of_lt (Nat.mul_le_mul_left 2 lighter) light)
      | _ => exact ensures_pure (.here looked.orderly nofun)
    · have handled : ∀ id, detached = .object id → ({ now with dispatch } : World).isHandled id = true := by
        rintro id rfl
        rw [World.isHandled, World.handler?, same, ← resolved]
        rfl
      exact (asks.nests light.le).ensures_rebuildValue looked.orderly held unvisited handled within' lighter
  · obtain ⟨id, -, known⟩ := Option.bind_eq_some_iff.1 visited
    exact ensures_pure (.here orderly (orderly.counterpart id counterpart known).2)

end Requests

/-- Fuel is enough if it exceeds the nesting of the request. -/
theorem settles_answer (setting : Setting) (bound fuel : Nat) : Settles setting bound fuel (answer setting fuel) := by
  induction fuel with
  | zero => exact fun _ _ _ _ _ light => absurd light (Nat.not_lt_zero _)
  | succ fuel ih =>
    intro now request orderly known within light
    have asking := World.Later.note now (.asked request)
    have asked : Concluded .reconciling setting now .null (note (.asked request) now).2 :=
      .of_same orderly asking rfl rfl rfl rfl nofun
    have within' := (asked.went.room_le [] nofun).trans within
    have lighter : ∀ {value}, now.heap.HoldsAll [value] → (note (.asked request) now).2.weigh .reconciling bound value ≤
        now.weigh .reconciling bound value :=
      fun held => World.weigh_le_of_same asking orderly.closed rfl rfl fun _ same => held.holds_of_eq same
    have stepped : (step setting (answer setting fuel) request).Ensures (note (.asked request) now).2 (Stopped setting)
        (Concluded .reconciling setting (note (.asked request) now).2) := by
      cases request with
      | disconnect value => exact absurd known id
      | apply detached =>
        apply ih.ensures_applyValue asked.orderly known within'
        have less := lighter known
        simp only [World.nesting] at light
        omega
      | applyTo detached authoritative =>
        have first : now.heap.HoldsAll [detached] := known.of_mem List.mem_cons_self
        have second : now.heap.HoldsAll [authoritative] := known.subset (List.subset_cons_self _ _)
        apply ih.ensures_applyValueTo asked.orderly first second within'
        have less := lighter first
        simp only [World.nesting] at light
        omega
    refine ensures_bind_of_eq rfl ?_
    apply stepped.bind
    intro result after concluded
    refine ensures_bind_of_eq rfl (ensures_pure ?_)
    have answered : Concluded .reconciling setting after result (note (.answered request result) after).2 :=
      .of_same concluded.orderly (.note after (.answered request result)) rfl rfl rfl rfl concluded.held
    exact (answered.since concluded.went concluded.flushed).since asked.went asked.flushed

end Reconciler
