import Mathlib.Data.List.Find
import Reconciler.Proofs.Loan.Containers

/-! # The engine takes a clone back

One lemma for each function of the engine says that it answers with the original and how far the originals
have come by then.
-/

namespace Reconciler

open Reconciler.Action

namespace Loan

variable {setting : Setting} {loan : Loan setting} {now middle after : World}

/-- A property of an original was merged: it has the value that is awaited, the other attributes are as they
were, and the object that is held there was brought back. -/
structure Merged (loan : Loan setting) (now : World) (id copy : ObjectId) (middle : World) (name : String)
    (after : World) : Prop where
  pending : loan.Pending now copy id after
  attr_eq : (after.heap.node id).attr name = loan.awaited id name
  others : ∀ other, other ≠ name → (after.heap.node id).attr other = (middle.heap.node id).attr other
  followed : loan.Followed after ((loan.source.heap.node id).attr name)
  kept : ∀ part, loan.Followed middle part → loan.Followed after part

section Entities

variable {fuel : Nat} {ask : Request → Action Value} {id copy : ObjectId} {metadata : Metadata}
  (lent : loan.cloned.visits.get? id = some (.object copy))
  (bean : (loan.source.heap.node id).isBean = true)

include lent bean

/-- The original is a bean during the whole run. -/
private theorem Returning.isBean_original (returning : loan.Returning now) : (now.heap.node id).isBean = true :=
  (returning.retained id (Paired.copy lent).old).isBean_eq.trans bean

/-- The copy is a bean during the whole run. -/
private theorem Returning.isBean_copy (returning : loan.Returning now) : (now.heap.node copy).isBean = true := by
  rw [returning.fresh copy (Paired.copy lent).new, (loan.retained copy).isBean_eq,
    (loan.mirrors id copy lent).isBean_eq, bean]

variable (fields : metadata.AllFields) {name : String} (listed : name ∈ metadata.names)

include fields listed

/-- Merging a property compares what the copy carries with what the original holds. -/
private theorem Returning.answers_mergeProperty (returning : loan.Returning now) {post : Unit → World → Prop}
    {carried current : Value} (carried_eq : (loan.start.heap.node copy).attr name = carried)
    (current_eq : (now.heap.node id).attr name = current)
    (merge : (if carried.isNull || carried = current then return ()
      else do
        let merged ← ask (.reconcile carried current)
        updateProperty metadata id name current merged : Action Unit).Answers now post) :
    (mergeProperty ask metadata copy id name).Answers now post := by
  obtain ⟨access, declared⟩ := Metadata.access?_of_mem_names listed
  obtain rfl := fields.access?_eq declared
  apply answers_readProperty_bind declared (returning.isBean_copy lent bean)
  apply answers_readProperty_bind declared (returning.isBean_original lent bean)
  rw [returning.fresh copy (Paired.copy lent).new, carried_eq, current_eq]
  exact merge

omit bean fields listed in
/-- A part of the run leaves the original alone that is being brought back. -/
private theorem Pending.attr_kept (pending : loan.Pending now copy id middle) (advances : loan.Advances middle after)
    (name : String) : (after.heap.node id).attr name = (middle.heap.node id).attr name := by
  refine advances.progress.kept id copy lent ?_ name
  rw [pending.visited]
  exact Option.some_ne_none _

variable (asks : loan.Merges fuel ask) (bound : loan.start.unvisited now ≤ fuel)
  (names : loan.source.names setting id = metadata.names)

include asks bound names

/-- Null leaves a property as it is, and a scalar is written unless it is there. -/
private theorem Pending.answers_mergeScalar (pending : loan.Pending now copy id middle)
    (plain : ((loan.start.heap.node copy).attr name).object? = none) :
    (mergeProperty ask metadata copy id name).Answers middle (fun _ => loan.Merged now id copy middle name) := by
  have awaited := awaited_eq lent name
  have current := pending.returning.attr_eq id pending.paired.old name
  have within := Nat.lt_of_lt_of_le pending.fewer bound
  -- Nothing is lent under a property that carries null or a scalar.
  have nothing : ∀ after, loan.Followed after ((loan.source.heap.node id).attr name) := by
    intro after part image same loaded partLent
    rw [carried_lent lent bean (names ▸ listed) same loaded partLent] at plain
    cases plain
  apply pending.returning.answers_mergeProperty lent bean fields listed rfl rfl
  generalize (loan.start.heap.node copy).attr name = carried at plain awaited ⊢
  rw [plain] at awaited
  split
  · next kept =>
    refine answers_pure ⟨pending, ?_, fun _ _ => rfl, nothing _, fun _ followed => followed⟩
    rw [Bool.or_eq_true, decide_eq_true_iff] at kept
    rcases null : carried.isNull with _ | _
    · rw [if_pos ⟨null, rfl⟩] at awaited
      rw [awaited]
      exact (kept.resolve_left (null ▸ Bool.false_ne_true)).symm
    · rw [if_neg (by simp [null])] at awaited
      exact current.elim (·.trans awaited.symm) (·)
  · next changed =>
    rw [Bool.or_eq_true, decide_eq_true_iff, not_or, Bool.not_eq_true] at changed
    rw [if_pos ⟨changed.1, rfl⟩] at awaited
    have expected : loan.Expected (.reconcile carried ((middle.heap.node id).attr name)) carried := by
      unfold Request.reconcile
      split
      · exact .alone plain
      · next known => exact .scalar plain changed.1 (Bool.not_eq_true _ ▸ known)
    refine (asks middle _ _ pending.returning within expected).bind fun merged later brought => ?_
    have same := pending.attr_kept lent brought.advances
    have pending := pending.go brought.advances.returning brought.advances.progress
    have still := pending.returning.isBean_original lent bean
    obtain ⟨access, declared⟩ := Metadata.access?_of_mem_names listed
    obtain rfl := fields.access?_eq declared
    rw [brought.result_eq, updateProperty, if_neg changed.2]
    apply answers_writeProperty declared still
    have new : carried ≠ (later.heap.node id).attr name := by
      rw [same]
      exact changed.2
    have attr := Heap.attr_edit_setAttribute pending.held still name carried
    have kept := fun part (followed : loan.Followed middle part) => followed.later brought.advances.progress
    refine ⟨(), _, rfl, pending.write lent bean awaited.symm new _, ?_, ?_, nothing _, kept⟩
    · simp [attr, awaited]
    · intro other different
      simp [attr, if_neg (Ne.symm different), same]

/-- The object that is held under a property is brought back, and the property stays. -/
private theorem Pending.answers_mergeReference (pending : loan.Pending now copy id middle)
    {detached authoritative : ObjectId} (paired : loan.Paired detached authoritative)
    (carried : (loan.start.heap.node copy).attr name = .object detached)
    (held : (loan.source.heap.node id).attr name = .object authoritative) :
    (mergeProperty ask metadata copy id name).Answers middle (fun _ => loan.Merged now id copy middle name) := by
  have awaited : loan.awaited id name = .object authoritative := by
    rw [awaited_eq lent, carried, held]
    exact if_neg (by simp [Value.object?])
  have current : (middle.heap.node id).attr name = .object authoritative := by
    simp [pending.returning.attr_of_spared pending.paired.old (awaited.trans held.symm), held]
  have within := Nat.lt_of_lt_of_le pending.fewer bound
  have changed : ¬ ((Value.object detached).isNull || decide (Value.object detached = .object authoritative)) := by
    rw [Bool.or_eq_true, decide_eq_true_iff, not_or]
    refine ⟨Bool.false_ne_true, fun same => ?_⟩
    cases same
    exact paired.new paired.old
  apply pending.returning.answers_mergeProperty lent bean fields listed carried current
  rw [if_neg changed]
  refine (asks middle _ _ pending.returning within (.pair paired)).bind fun merged later brought => ?_
  have same := pending.attr_kept lent brought.advances
  have pending := pending.go brought.advances.returning brought.advances.progress
  rw [brought.result_eq, updateProperty, if_pos rfl]
  refine answers_pure ⟨pending, ?_, fun other _ => same other, ?_, ?_⟩
  · simp [same, current, awaited]
  · intro part image object loaded partLent
    cases held.symm.trans object
    cases carried.symm.trans (carried_lent lent bean (names ▸ listed) held loaded partLent)
    exact brought.visited _ _ rfl
  · exact fun part followed => followed.later brought.advances.progress

/-- The original gets what is awaited under a property, and the object that it holds there is brought back. -/
private theorem Pending.answers_mergeProperty (pending : loan.Pending now copy id middle) :
    (mergeProperty ask metadata copy id name).Answers middle (fun _ => loan.Merged now id copy middle name) := by
  have carried := carried lent bean (names ▸ listed)
  generalize image : (loan.start.heap.node copy).attr name = carriedValue at carried
  generalize held : (loan.source.heap.node id).attr name = heldValue at carried
  cases carried with
  | scalar plain => exact pending.answers_mergeScalar lent bean fields listed asks bound names (image ▸ plain)
  | object paired =>
    exact pending.answers_mergeReference lent bean fields listed asks bound names paired image held

end Entities

section Entities

variable {fuel : Nat} {ask : Request → Action Value} {id copy : ObjectId} {entity : Entity}
  {metadata : Metadata} (lent : loan.cloned.visits.get? id = some (.object copy))
  (bean : (loan.source.heap.node id).isBean = true)
  (identified : Identified setting loan.source id entity metadata)

include lent bean identified

/-- The copy carries the version of the original. -/
private theorem answers_compareChecked (returning : loan.Returning now) :
    (compareChecked metadata copy id (checkedVersion? setting entity)).Answers now
      (fun _ after => now = after) := by
  unfold compareChecked
  split
  · next property checked =>
    obtain ⟨listed, scalar⟩ := identified.version property checked
    obtain ⟨access, declared⟩ := Metadata.access?_of_mem_names listed
    obtain rfl := identified.fields.access?_eq declared
    have listed := identified.names_eq ▸ listed
    have current : (now.heap.node id).attr property = (loan.source.heap.node id).attr property :=
      returning.attr_of_spared (Paired.copy lent).old
        (awaited_of_fixed lent identified.managed (.inr checked))
    have carried : (now.heap.node copy).attr property = (loan.source.heap.node id).attr property := by
      rw [returning.fresh copy (Paired.copy lent).new]
      exact carried_of_fixed lent bean listed scalar identified.managed (.inr checked)
    have declares : metadata.declares property = true := by
      rw [Metadata.declares, OrderedMap.contains, ← Metadata.access?, declared]
      rfl
    unfold compareVersions versionOf
    rw [declares, if_pos rfl, if_pos rfl]
    apply answers_readProperty_bind declared (returning.isBean_original lent bean)
    apply answers_readProperty_bind declared (returning.isBean_copy lent bean)
    rw [current, carried, if_neg (by simp)]
    exact answers_pure rfl
  · exact answers_pure rfl

/-- What is not merged is not awaited. -/
private theorem awaited_of_not_merged {name : String}
    (left : name ∉ metadata.names.filter (fun property => checkedVersion? setting entity ≠ some property)) :
    loan.awaited id name = (loan.source.heap.node id).attr name ∧
      (name ∈ metadata.names → ((loan.source.heap.node id).attr name).object? = none) := by
  by_cases listed : name ∈ metadata.names
  · have checked : checkedVersion? setting entity = some name := by
      by_contra other
      exact left (List.mem_filter.2 ⟨listed, decide_eq_true other⟩)
    have scalar := (identified.version name checked).2
    exact ⟨awaited_of_fixed lent identified.managed (.inr checked),
      fun _ => scalar⟩
  · refine ⟨?_, fun listed' => absurd listed' listed⟩
    rw [← identified.names_eq] at listed
    have carried : (loan.start.heap.node copy).attr name = .null := by
      rcases loan.overwritten id copy lent name with same | ⟨-, -, listed', -⟩
      · rw [same]
        exact (((loan.mirrors id copy lent).attr_cases bean name).resolve_left (absurd ·.1 listed)).2
      · exact absurd listed' listed
    rw [awaited_eq lent, carried]
    rfl

variable {ask : Request → Action Value} {fuel : Nat} (asks : loan.Merges fuel ask)

include asks

/-- An original whose attributes are all as they were gets what is awaited. -/
private theorem Pending.answers_mergeProperties (pending : loan.Pending now copy id middle)
    (bound : loan.start.unvisited now ≤ fuel)
    (untouched : ∀ name, (middle.heap.node id).attr name = (loan.source.heap.node id).attr name) :
    (mergeProperties setting ask entity copy id).Answers middle (fun _ after =>
      loan.Pending now copy id after ∧ loan.Settled after id) := by
  have names := identified.names_eq
  apply (answers_metadataOf setting id).bind
  rintro _ _ ⟨rfl, cache, schema, rfl⟩
  rw [pending.returning.metadata?_eq lent identified, Option.getD_some]
  have pending : loan.Pending now copy id { middle with cache } :=
    pending.of_same rfl (fun _ => rfl) rfl rfl schema rfl rfl
  apply (answers_compareChecked lent bean identified pending.returning).bind
  rintro _ _ rfl
  apply answers_bind_of_eq rfl
  have pending : loan.Pending now copy id
      { middle with cache, journal := .walked copy :: middle.journal } :=
    pending.of_same rfl (fun _ => rfl) rfl rfl rfl rfl rfl
  refine (answers_forM (fun done after => loan.Pending now copy id after ∧
    (∀ name ∈ done, (after.heap.node id).attr name = loan.awaited id name ∧
      loan.Followed after ((loan.source.heap.node id).attr name)) ∧
    ∀ name, name ∉ done → (after.heap.node id).attr name = (loan.source.heap.node id).attr name)
    ⟨pending, fun _ listed => (List.not_mem_nil listed).elim, fun name _ => untouched name⟩ ?_).weaken ?_
  · rintro done name rest split later ⟨pending, merged, left⟩
    have listed : name ∈ metadata.names := (List.mem_filter.1 (split ▸ List.mem_append_cons_self)).1
    apply (pending.answers_mergeProperty lent bean identified.fields listed asks bound names).weaken
    rintro _ after ⟨pending, here, others, followed, kept⟩
    refine ⟨pending, fun other among => ?_, fun other apart => ?_⟩
    · by_cases same : other = name
      · rw [same]
        exact ⟨here, followed⟩
      · have among := (List.mem_append.1 among).resolve_right (same ∘ List.mem_singleton.1)
        rw [others other same]
        exact ⟨(merged other among).1, kept _ (merged other among).2⟩
    · rw [List.mem_append, not_or, List.mem_singleton] at apart
      rw [others other apart.2]
      exact left other apart.1
  · rintro _ after ⟨pending, merged, left⟩
    refine ⟨pending, fun name => ?_, fun part listed => ?_⟩
    · by_cases among : name ∈ metadata.names.filter (fun property => checkedVersion? setting entity ≠ some property)
      · exact (merged name among).1
      · exact (left name among).trans (awaited_of_not_merged lent bean identified among).1.symm
    · rw [World.partsOf_of_isBean bean] at listed
      obtain ⟨name, named, rfl⟩ := List.mem_map.1 listed
      by_cases among : name ∈ metadata.names.filter (fun property => checkedVersion? setting entity ≠ some property)
      · exact (merged name among).2
      · -- The version is no object.
        have scalar := (awaited_of_not_merged lent bean identified among).2 (names ▸ named)
        intro part image same _
        rw [same] at scalar
        cases scalar

end Entities

section Steps

variable {fuel : Nat} {ask : Request → Action Value} {detached authoritative : ObjectId}

/-- A request is answered once the original is settled. -/
private theorem Pending.brought (pending : loan.Pending now detached authoritative after)
    (settled : ∀ id, loan.cloned.visits.get? id = some (.object detached) → loan.Settled after id) :
    loan.Brought now (.applyTo (.object detached) (.object authoritative)) (.object authoritative)
      (.object authoritative) after where
  result_eq := rfl
  advances := ⟨pending.returning, pending.close settled⟩
  visited := by
    rintro _ _ same
    cases same
    exact pending.visited

/-- A request for a copy is answered once its original is settled. -/
private theorem Pending.brought_of_settled {id copy : ObjectId} (pending : loan.Pending now copy id after)
    (lent : loan.cloned.visits.get? id = some (.object copy)) (settled : loan.Settled after id) :
    loan.Brought now (.applyTo (.object copy) (.object id)) (.object id) (.object id) after := by
  refine pending.brought fun other known => ?_
  rw [← loan.cloning.origin_of_visited known, loan.cloning.origin_of_visited lent]
  exact settled

/-- A container is settled once its parts were brought back. -/
private theorem Returning.settled_of_parts (returning : loan.Returning now) {id copy : ObjectId}
    (lent : loan.cloned.visits.get? id = some (.object copy))
    (other : (loan.source.heap.node id).isBean = false)
    (followed : ∀ part ∈ (loan.source.heap.node id).parts, loan.Followed now part) : loan.Settled now id := by
  refine ⟨fun name => ?_, ?_⟩
  · have same := (returning.retained id (Paired.copy lent).old).content_eq other
    have carried : (loan.start.heap.node copy).attr name = .null := by
      have bean : (loan.start.heap.node copy).isBean = false := by
        simp [(loan.retained copy).isBean_eq, (loan.mirrors id copy lent).isBean_eq, other]
      exact Node.attr_of_notBean bean name
    rw [awaited_eq lent, carried, Node.attr, Node.attributes?, same]
    rfl
  · rw [World.partsOf_of_not_isBean other]
    exact followed

/-- A request for a container is answered once its parts were brought back. -/
private theorem Pending.brought_of_parts {id copy : ObjectId} (pending : loan.Pending now copy id middle)
    (lent : loan.cloned.visits.get? id = some (.object copy))
    (other : (loan.source.heap.node id).isBean = false) (advances : loan.Advances middle after)
    (followed : ∀ part ∈ (loan.source.heap.node id).parts, loan.Followed after part) :
    loan.Brought now (.applyTo (.object copy) (.object id)) (.object id) (.object id) after :=
  (pending.go advances.returning advances.progress).brought_of_settled lent
    (advances.returning.settled_of_parts lent other followed)

variable (asks : loan.Merges fuel ask) (bound : loan.start.unvisited now ≤ fuel)

include asks bound

/-- An entity is brought up to date. -/
private theorem Pending.answers_mergeObject (pending : loan.Pending now detached authoritative middle)
    (untouched : ∀ name, (middle.heap.node authoritative).attr name =
      (loan.source.heap.node authoritative).attr name)
    (walked : (loan.source.heap.node authoritative).content.handler? = none) :
    (mergeObject setting ask detached authoritative).Answers middle
      (loan.Brought now (.applyTo (.object detached) (.object authoritative)) (.object authoritative)) := by
  have paired := pending.paired
  cases paired with
  | copy lent =>
    have mem := member_of_lent lent
    have old := pending.paired.old
    have traceable := loan.traceable _ mem
    have bean : (loan.source.heap.node authoritative).isBean = true := by
      have inspected := traceable.inspected
      rw [Node.isBean, Node.attributes?]
      generalize (loan.source.heap.node authoritative).content = content at walked inspected
      cases content with
      | bean => rfl
      | sealed => exact absurd rfl inspected
      | _ => cases walked
    obtain ⟨entity, metadata, identified⟩ := traceable.entity bean
    have retained := pending.returning.retained _ old
    have managed : middle.store.entity? (middle.heap.node authoritative).type = some entity := by
      simp [retained.type_eq, pending.returning.entity?_eq, identified.managed]
    have loaded : (middle.heap.node authoritative).origin.isLoaded = true := by
      have other : (loan.source.heap.node authoritative).isContainer = false := by
        refine Bool.eq_false_iff.2 fun container => ?_
        cases bean.symm.trans (Node.isBean_of_isContainer container)
      simp [retained.origin_eq, loan.cloneable.loaded_of_other mem other]
    have different : detached ≠ authoritative := by
      rintro rfl
      exact pending.paired.new old
    have identifier : (callStore .identifier (fun store heap => store.identifier heap entity authoritative)).Answers
        middle (fun found after =>
          found = some ((loan.source.heap.node authoritative).attr entity.idProperty) ∧ middle = after) := by
      refine answers_callStore (pending.returning.serves .identifier).outages ?_ ⟨rfl, rfl⟩
      rw [pending.returning.identifier_eq, pending.returning.identifier_original lent identified]
    refine answers_look_bind (answers_look_bind ?_)
    simp only [managed, if_neg different]
    apply identifier.bind
    rintro _ _ ⟨rfl, rfl⟩
    simp only [loaded, if_true]
    apply (pending.answers_mergeProperties lent bean identified asks bound untouched).bind
    rintro _ after ⟨pending, settled⟩
    exact answers_pure (pending.brought_of_settled lent settled)
  | spare _ _ _ _ container => exact absurd walked (Node.handler?_of_isContainer container)

/-- A loaded container is refilled. -/
private theorem Pending.answers_refill {id copy : ObjectId} (pending : loan.Pending now copy id middle)
    (lent : loan.cloned.visits.get? id = some (.object copy))
    (loaded : (loan.source.heap.node id).origin.isLoaded = true) {handler : Handler}
    (handled : (loan.source.heap.node id).content.handler? = some handler) :
    (handler.mergeValue setting ask (.object copy) (.object id)).Answers middle
      (loan.Brought now (.applyTo (.object copy) (.object id)) (.object id)) := by
  have returning := pending.returning
  have within := Nat.lt_of_lt_of_le pending.fewer bound
  have other := Node.notBean_of_handler? handled
  have refilled : ∀ {merged after}, merged = .object id ∧ loan.Advances middle after ∧
      (∀ part ∈ (loan.source.heap.node id).parts, loan.Followed after part) →
        loan.Brought now (.applyTo (.object copy) (.object id)) (.object id) merged after := by
    rintro _ after ⟨rfl, advances, followed⟩
    exact pending.brought_of_parts lent other advances followed
  cases content : (loan.source.heap.node id).content with
  | collection kind elements =>
    rw [content] at handled
    obtain rfl := Option.some.inj handled
    exact (answers_mergeCollection asks lent returning within loaded content).weaken fun _ _ => refilled
  | map bindings =>
    rw [content] at handled
    obtain rfl := Option.some.inj handled
    exact (answers_mergeMap asks lent returning within loaded content).weaken fun _ _ => refilled
  | array component slots =>
    rw [content] at handled
    obtain rfl := Option.some.inj handled
    exact (answers_mergeArray asks lent returning within content).weaken fun _ _ => refilled
  | _ =>
    rw [content] at handled
    cases handled

omit asks bound in
/-- An unloaded container is left as it is by an empty one. -/
private theorem answers_keepUnloaded_of_empty (unloaded : (now.heap.node authoritative).origin.isLoaded = false)
    (container : (now.heap.node authoritative).isContainer = true) (empty : (now.heap.node detached).size = 0) :
    (keepUnloaded detached authoritative).Answers now (fun kept after => kept = true ∧ now = after) := by
  have managed : (now.heap.node authoritative).origin.isManaged = true := by
    generalize (now.heap.node authoritative).origin = state at unloaded
    cases state with
    | plain => cases unloaded
    | managed => rfl
  apply answers_look_bind
  simp only [Value.isManagedContainer, Value.isLoaded, managed, container, unloaded, Bool.and_self, Bool.not_false,
    ↓reduceIte]
  apply answers_look_bind
  rw [if_neg (fun different => different.2 empty)]
  exact answers_pure ⟨rfl, rfl⟩

omit asks bound in
/-- What was modelled on an unloaded container leaves it as it is. -/
private theorem Pending.answers_keep (pending : loan.Pending now detached (loan.origin detached) middle)
    (new : ¬ loan.source.heap.Holds detached) (held : loan.cloned.heap.Holds detached)
    (old : loan.source.heap.Holds (loan.origin detached))
    (unloaded : (loan.source.heap.node (loan.origin detached)).origin.isLoaded = false)
    (container : (loan.source.heap.node (loan.origin detached)).isContainer = true) {handler : Handler}
    (handled : (loan.source.heap.node (loan.origin detached)).content.handler? = some handler) :
    (handler.mergeValue setting ask (.object detached) (.object (loan.origin detached))).Answers middle
      (loan.Brought now (.applyTo (.object detached) (.object (loan.origin detached)))
        (.object (loan.origin detached))) := by
  have retained := pending.returning.retained _ old
  have content := retained.content_eq (Node.isBean_of_isContainer container)
  have empty : (middle.heap.node detached).size = 0 := by
    have stood := node_of_spare new held unloaded
    have other : (loan.cloned.heap.node detached).isBean = false := by
      simp [stood, Node.isBean_emptyLike, Node.isBean_of_isContainer container]
    rw [pending.returning.fresh detached new, Node.size, (loan.retained detached).content_eq other, stood]
    exact Node.size_emptyLike container
  have stays : (keepUnloaded detached (loan.origin detached)).Answers middle
      (fun kept after => kept = true ∧ middle = after) := by
    refine answers_keepUnloaded_of_empty ?_ ?_ empty
    · simp [retained.origin_eq, unloaded]
    · rw [Node.isContainer, content]
      exact container
  -- It may be a copy as well as a stand-in: what is unloaded and has a copy is vacant.
  have brought := pending.brought fun id lent => by
    obtain rfl := loan.cloning.origin_of_visited lent
    have vacant := (loan.cloneable.loaded _ (member_of_lent lent)).resolve_left (by simp [unloaded])
    refine pending.returning.settled_of_parts lent (Node.isBean_of_isContainer container) ?_
    rw [vacant.empty]
    exact List.forall_mem_nil _
  rw [Node.isContainer] at container
  generalize (loan.source.heap.node (loan.origin detached)).content = content at container handled
  cases content with
  | collection =>
    obtain rfl := Option.some.inj handled
    apply stays.bind
    rintro _ _ ⟨rfl, rfl⟩
    exact answers_pure brought
  | map =>
    obtain rfl := Option.some.inj handled
    apply stays.bind
    rintro _ _ ⟨rfl, rfl⟩
    exact answers_pure brought
  | _ => cases container

/-- The handler of a container brings it back. -/
private theorem Pending.answers_mergeValue (pending : loan.Pending now detached authoritative middle)
    {handler : Handler}
    (handled : (loan.source.heap.node authoritative).content.handler? = some handler) :
    (handler.mergeValue setting ask (.object detached) (.object authoritative)).Answers middle
      (loan.Brought now (.applyTo (.object detached) (.object authoritative)) (.object authoritative)) := by
  cases pending.paired with
  | copy lent =>
    rcases loan.cloneable.loaded _ (member_of_lent lent) with loaded | vacant
    · exact pending.answers_refill asks bound lent loaded handled
    · obtain rfl := loan.cloning.origin_of_visited lent
      obtain ⟨-, _, ⟨⟩, -, new, held⟩ := loan.cloning.visited _ _ lent
      exact pending.answers_keep new held pending.paired.old vacant.unloaded vacant.container handled
  | spare new held old unloaded container => exact pending.answers_keep new held old unloaded container handled

/-- A pair that was met before has its answer, and any other is brought together. -/
private theorem answers_applyValueTo_pair (returning : loan.Returning now)
    (paired : loan.Paired detached authoritative) :
    (applyValueTo setting ask (.object detached) (.object authoritative)).Answers now
      (loan.Brought now (.applyTo (.object detached) (.object authoritative)) (.object authoritative)) := by
  apply answers_look_bind
  rw [Value.object?, Option.bind_some]
  rcases visited : now.visits.get? detached with _ | target
  · apply answers_bind_of_eq rfl
    have pending := Pending.start returning paired visited
    apply (answers_handlerOf (.object detached)).bind
    rintro _ _ ⟨rfl, dispatch, registry, rfl⟩
    rw [pending.returning.ofValue_eq paired]
    have untouched := returning.attr_of_unvisited paired visited
    have pending : loan.Pending now detached authoritative
        { now with visits := now.visits.record detached (.object authoritative), dispatch } :=
      pending.of_same rfl (fun _ => rfl) rfl registry rfl rfl rfl
    rcases handled : (loan.source.heap.node authoritative).content.handler? with _ | handler
    · exact pending.answers_mergeObject asks bound untouched handled
    · exact pending.answers_mergeValue asks bound handled
  · obtain ⟨id, rfl, again⟩ := returning.visited detached target visited
    obtain rfl := again.origin_eq.symm.trans paired.origin_eq
    refine answers_pure ⟨rfl, returning.refl, ?_⟩
    rintro _ _ same
    cases same
    exact visited

omit asks bound in
/-- A scalar passes through. -/
private theorem answers_scalar (returning : loan.Returning now) {request : Request} {value : Value}
    (plain : value.object? = none)
    (unpaired : ∀ detached authoritative, request ≠ .applyTo (.object detached) (.object authoritative))
    {next : Option Handler → Action Value} (basic : next (some .basic) = pure value)
    (walked : next none = pure value) : (handlerOf value >>= next).Answers now (loan.Brought now request value) := by
  apply (answers_handlerOf value).bind
  rintro handler? _ ⟨answer, dispatch, registry, rfl⟩
  rw [returning.registry, Handler.Registry.ofValue_of_scalar _ plain _ loan.source.heap] at answer
  have brought : loan.Brought now request value value { now with dispatch } :=
    ⟨rfl, ⟨returning.of_same rfl (fun _ => rfl) rfl registry rfl rfl rfl, .of_same (fun _ => rfl) rfl⟩,
      fun detached authoritative same => (unpaired detached authoritative same).elim⟩
  rcases handler? with _ | handler
  · rw [walked]
    exact answers_pure brought
  · obtain rfl := loan.cloneable.scalar value plain handler answer.symm
    rw [basic]
    exact answers_pure brought

/-- A request of a run that takes a clone back is answered as expected. -/
private theorem answers_step (returning : loan.Returning now) {request : Request} {expected : Value}
    (known : loan.Expected request expected) :
    (step setting ask request).Answers now (loan.Brought now request expected) := by
  cases known with
  | pair paired => exact answers_applyValueTo_pair asks bound returning paired
  | scalar plain present known =>
    rename_i other
    have unpaired : ∀ detached authoritative,
        Request.applyTo expected other ≠ .applyTo (.object detached) (.object authoritative) := by
      rintro detached authoritative same
      cases same
      cases plain
    have asked : ¬ (expected.isNull || other.isNull) = true := by
      rw [present, known]
      exact Bool.false_ne_true
    show (applyValueTo setting ask expected other).Answers now _
    unfold applyValueTo
    rw [if_neg asked]
    cases expected with
    | object id => cases plain
    | _ =>
      refine answers_look_bind (answers_bind_of_eq rfl ?_)
      refine answers_scalar returning plain unpaired ?_ ?_
      all_goals rfl
  | alone plain =>
    show (applyValue ask expected).Answers now _
    have unpaired : ∀ detached authoritative,
        Request.apply expected ≠ .applyTo (.object detached) (.object authoritative) := by simp
    unfold applyValue
    split
    · next null =>
      rw [(Value.isNull_iff expected).1 null]
      exact answers_pure ⟨rfl, returning.refl, by simp⟩
    · cases expected with
      | object id => cases plain
      | _ =>
        apply answers_look_bind
        refine answers_scalar returning plain unpaired ?_ ?_
        all_goals rfl

end Steps

/-- Every request of a run that takes a clone back is answered as expected. -/
private theorem merges_answer (loan : Loan setting) (fuel : Nat) : loan.Merges fuel (answer setting fuel) := by
  induction fuel with
  | zero => exact fun now request expected returning bound => absurd bound (Nat.not_lt_zero _)
  | succ fuel ih =>
    intro now request expected returning bound known
    have asked := returning.noted (.asked request :: now.journal)
    apply answers_bind_of_eq rfl
    have bound := asked.unvisited_le.trans (Nat.le_of_lt_succ bound)
    apply (answers_step ih bound asked.returning known).bind
    rintro result after ⟨rfl, advances, visited⟩
    have answered := advances.returning.noted (.answered request result :: after.journal)
    exact answers_bind_of_eq rfl (answers_pure ⟨rfl, asked.trans (advances.trans answered), visited⟩)

section Root

variable {fuel : Nat} {root copy : ObjectId} {entity : Entity}
  (stored : ∀ id ∈ loan.source.store.stored, loan.source.heap.Holds id)

include stored

/-- The store finds what it found before the graph was lent. -/
private theorem find_start (type : TypeName) (identifier : Value) :
    loan.start.store.find loan.start.heap type identifier =
      loan.source.store.find loan.source.heap type identifier := by
  have same : ∀ id ∈ loan.source.store.stored, loan.start.heap.node id = loan.source.heap.node id :=
    fun id listed => loan.kept id (stored id listed)
  have search (entity : Entity) : loan.source.store.stored.find? (fun id => decide
      ((loan.start.heap.node id).type = type ∧ (loan.start.heap.node id).attr entity.idProperty = identifier)) =
      loan.source.store.stored.find? (fun id => decide ((loan.source.heap.node id).type = type ∧
        (loan.source.heap.node id).attr entity.idProperty = identifier)) :=
    List.find?_congr fun id listed => by simp [same id listed]
  rw [loan.store, loan.cloning.store]
  simp only [EntityStore.find, EntityStore.attempt, EntityStore.entity?, search]

variable (lent : loan.cloned.visits.get? root = some (.object copy))
  (managed : loan.source.store.entity? (loan.source.heap.node root).type = some entity)
  (scalar : ((loan.source.heap.node root).attr entity.idProperty).object? = none)
  (found : loan.source.store.find loan.source.heap (loan.source.heap.node root).type
    ((loan.source.heap.node root).attr entity.idProperty) = .ok (some root))

include lent managed scalar found

/-- The copy of a stored entity finds the entity. -/
private theorem Returning.answers_applyObject {ask : Request → Action Value} (asks : loan.Merges fuel ask)
    (returning : loan.Returning now) (heap : now.heap = loan.start.heap)
    (bound : loan.start.unvisited now < fuel) (bean : (loan.source.heap.node root).isBean = true) :
    (applyObject ask copy).Answers now
      (loan.Brought now (.applyTo (.object copy) (.object root)) (.object root)) := by
  have paired := Paired.copy lent
  obtain ⟨entity, metadata, identified⟩ := (loan.traceable root (member_of_lent lent)).entity bean
  obtain rfl := Option.some.inj (managed.symm.trans identified.managed)
  have type : (now.heap.node copy).type = (loan.source.heap.node root).type := by
    simp [heap, paired.type_eq]
  have identifier : (callStore .identifier (fun store heap => store.identifier heap entity copy)).Answers now
      (fun answer after => answer = some ((loan.source.heap.node root).attr entity.idProperty) ∧ now = after) := by
    refine answers_callStore (returning.serves .identifier).outages ?_ ⟨rfl, rfl⟩
    rw [returning.identifier_eq, returning.identifier_copy lent bean identified scalar]
  have find : (callStore .find (fun store heap => store.find heap (loan.source.heap.node root).type
      ((loan.source.heap.node root).attr entity.idProperty))).Answers now
      (fun answer after => answer = some root ∧ now = after) := by
    refine answers_callStore (returning.serves .find).outages ?_ ⟨rfl, rfl⟩
    simp [returning.store, heap, find_start stored, found]
  refine answers_look_bind (answers_look_bind ?_)
  simp only [type, returning.entity?_eq, managed]
  apply identifier.bind
  rintro _ _ ⟨rfl, rfl⟩
  apply find.bind
  rintro _ _ ⟨rfl, rfl⟩
  exact asks _ _ _ returning bound (.pair paired)

/-- The copy of a stored entity is applied to the entity. -/
theorem answers_apply (bound : loan.start.unvisited loan.start < fuel) :
    (answer setting (fuel + 1) (.apply (.object copy))).Answers loan.start (fun result after =>
      result = .object root ∧ loan.Advances loan.start after ∧
        after.visits.get? copy = some (.object root)) := by
  have bean : (loan.source.heap.node root).isBean = true := by
    rcases other : (loan.source.heap.node root).isBean with _ | _
    · rw [(loan.traceable root (member_of_lent lent)).unmanaged other] at managed
      cases managed
    · rfl
  have unvisited : loan.start.visits.get? copy = none := by
    rw [loan.rested]
    rfl
  have applied : (applyValue (answer setting fuel) (.object copy)).Answers
      { loan.start with journal := .asked (.apply (.object copy)) :: loan.start.journal } (fun result after =>
        result = .object root ∧ loan.Advances loan.start after ∧ after.visits.get? copy = some (.object root)) := by
    have asked := (Returning.start loan).noted (.asked (.apply (.object copy)) :: loan.start.journal)
    apply answers_look_bind
    rw [Value.object?, Option.bind_some, unvisited]
    apply (answers_handlerOf (.object copy)).bind
    rintro _ _ ⟨rfl, dispatch, registry, rfl⟩
    rw [asked.returning.ofValue_eq (.copy lent), Node.handler?_of_isBean bean]
    have looked : loan.Advances loan.start
        { loan.start with journal := .asked (.apply (.object copy)) :: loan.start.journal, dispatch } :=
      ⟨asked.returning.of_same rfl (fun _ => rfl) rfl registry rfl rfl rfl, .of_same (fun _ => rfl) rfl⟩
    refine (looked.returning.answers_applyObject stored lent managed scalar found (merges_answer loan fuel) rfl bound
      bean).weaken ?_
    rintro _ after ⟨rfl, advances, visited⟩
    exact ⟨rfl, looked.trans advances, visited _ _ rfl⟩
  refine answers_bind_of_eq rfl (applied.bind ?_)
  rintro _ after ⟨rfl, advances, visited⟩
  have answered := advances.returning.noted (.answered (.apply (.object copy)) (.object root) :: after.journal)
  exact answers_bind_of_eq rfl (answers_pure ⟨rfl, advances.trans answered, visited⟩)

end Root

end Loan

end Reconciler
