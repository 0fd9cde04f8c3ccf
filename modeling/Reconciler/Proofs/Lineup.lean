import Reconciler.Proofs.Roster.Engine

/-! # Bringing a map of entities up to date

A detached map binds scalars to scalars, to null and to beans with scalar attributes. Keys and values are matched on
their own: every bean stands for one entity, whichever key the authoritative map has it under, or for one that the
store finds. So the authoritative map comes to have the keys of the detached one in their order, with the same scalars
and with the entities that the beans stand for, each merged with its bean.

In what order the candidates are tried makes no difference, because no two of them are the same entity. That is why
what is left of them is only known up to its order.
-/

namespace Reconciler

open Reconciler.Action

/-- A detached map and an authoritative one, what they bind, and the entities that the detached beans stand for. -/
structure Lineup where
  detached : ObjectId
  authoritative : ObjectId
  entries : List (Value × Value)
  current : List (Value × Value)
  partner : ObjectId → ObjectId

namespace Lineup

/-- The entities among the values, as if they were the elements of two lists. -/
def roster (lineup : Lineup) : Roster where
  detached := lineup.detached
  authoritative := lineup.authoritative
  kind := .list
  elements := lineup.entries.filterMap (·.2.object?)
  candidates := lineup.current.filterMap (·.2.object?)
  partner := lineup.partner

/-- What becomes of a detached value: a bean becomes its partner, and anything else stays what it is. -/
def image (lineup : Lineup) : Value → Value
  | .object element => .object (lineup.partner element)
  | scalar => scalar

/-- What the authoritative map is to bind. -/
def refill (lineup : Lineup) : List (Value × Value) :=
  lineup.entries.map (fun entry => (entry.1, lineup.image entry.2))

/-- The maps of a world without failures of the store. Their keys are scalars. The entities among their values are
distinct, and each of the detached ones stands for one that it can be merged into. -/
structure Fits (lineup : Lineup) (setting : Setting) (world : World) : Prop where
  carries : (world.heap.node lineup.detached).content = .map ⟨lineup.entries⟩
  holds : (world.heap.node lineup.authoritative).content = .map ⟨lineup.current⟩
  handled : world.handler? lineup.detached = some .map
  loaded : (world.heap.node lineup.authoritative).origin.isLoaded = true
  scalars : ∀ entry ∈ lineup.entries ++ lineup.current, entry.1.object? = none
  once : (lineup.entries.map Prod.fst).Nodup
  unique : lineup.roster.candidates.Pairwise (fun first second => world.sameEntity first second = false)
  pairs : lineup.roster.Matches setting world

/-- The authoritative map binds the detached keys in their order. Every partner is merged, and no other object has
changed. The store has given up the leftovers if the configuration says so, and nothing else. -/
structure Updated (lineup : Lineup) (setting : Setting) (world after : World) : Prop where
  size_eq : after.heap.size = world.heap.size
  refilled : after.heap.node lineup.authoritative =
    { world.heap.node lineup.authoritative with content := .map ⟨lineup.refill⟩ }
  merged : ∀ element ∈ lineup.roster.elements, Roster.Merged setting world element (lineup.partner element) after
  others : ∀ id, id ≠ lineup.authoritative → id ∉ lineup.roster.partners →
    after.heap.node id = world.heap.node id
  store : ∃ given, given.Perm lineup.roster.leftovers ∧
    after.store = if setting.config.deleteRemoved then world.store.without given else world.store

private theorem Updated.of_unmoved {lineup : Lineup} {setting : Setting} {world now after : World}
    (updated : lineup.Updated setting world now) (unmoved : now.Unmoved after) :
    lineup.Updated setting world after where
  size_eq := by rw [unmoved.heap, updated.size_eq]
  refilled := by rw [unmoved.heap, updated.refilled]
  merged element listed := (updated.merged element listed).of_node (by rw [unmoved.heap])
  others := unmoved.heap ▸ updated.others
  store := unmoved.store ▸ updated.store

/-- The entities of the authoritative map that are nobody's partner. -/
def untaken (lineup : Lineup) (done : List ObjectId) : List ObjectId :=
  lineup.roster.candidates.filter (fun candidate => decide (candidate ∉ done.map lineup.partner))

/-- The candidates that are left when some beans have taken their partners. -/
structure Available (lineup : Lineup) (done : List ObjectId) (pool : Counterpart.Pool) : Prop where
  keys : ∀ key ∈ pool.keys, key.object? = none
  values : (pool.values.filterMap Value.object?).Perm (lineup.untaken done)

end Lineup

section Scalars

variable {setting : Setting} {now : World}

/-- A scalar is matched with itself or with nothing. -/
theorem Counterpart.take_scalar (schema : Schema) (store : EntityStore) (heap : Heap) {value : Value}
    (plain : value.object? = none) (candidates : List Value) (outages : Outages) :
    ∃ counterpart? rest, take schema store heap value candidates outages = (.ok (counterpart?, rest), outages) ∧
      (counterpart? = none ∨ value.isNull = false ∧ counterpart? = some value) := by
  unfold take search
  by_cases null : value.isNull = true
  · rw [if_pos null]
    exact ⟨none, candidates, rfl, .inl rfl⟩
  · rw [if_neg null]
    by_cases listed : value ∈ candidates
    · rw [if_pos listed]
      exact ⟨some value, candidates.erase value, rfl, .inr ⟨Bool.eq_false_iff.2 null, rfl⟩⟩
    · rw [if_neg listed, plain]
      exact ⟨none, candidates, rfl, .inl rfl⟩

/-- It comes out as it is. -/
private theorem answers_matched_scalar {value : Value} (plain : value.object? = none) (passes : now.PassesScalars)
    {counterpart? : Option Value} (taken : counterpart? = none ∨ value.isNull = false ∧ counterpart? = some value)
    (fuel : Nat) :
    (answer setting (fuel + 1) (.matched value counterpart?)).Answers now
      (fun result after => result = value ∧ now.Unmoved after) := by
  by_cases null : value.isNull = true
  · obtain rfl := (Value.isNull_iff value).1 null
    obtain rfl := taken.resolve_right fun same => absurd same.1 nofun
    refine answers_answer ?_ fun result after holds => ⟨holds.1, holds.2.trans ⟨rfl, rfl, rfl, rfl, rfl, rfl⟩⟩
    exact answers_pure ⟨rfl, rfl, rfl, rfl, rfl, rfl, rfl⟩
  · have present := Bool.eq_false_iff.2 null
    rcases taken with rfl | ⟨-, rfl⟩
    · exact answers_reconcile_scalar plain present passes .null
    · have asks : Request.matched value (some value) = Request.reconcile value value := (if_neg null).symm
      rw [asks]
      exact answers_reconcile_scalar plain present passes value

end Scalars

/-- What only one item passes is found whatever the order. -/
theorem List.find?_eq_of_unique {α : Type} {test : α → Bool} {first second : List α}
    (same : ∀ item, test item = true → (item ∈ first ↔ item ∈ second))
    (unique : ∀ one ∈ second, ∀ two ∈ second, test one = true → test two = true → one = two) :
    first.find? test = second.find? test := by
  rcases found : second.find? test with _ | item
  · rw [List.find?_eq_none] at found ⊢
    exact fun item listed passes => found item ((same item passes).1 listed) passes
  · have passes := List.find?_some found
    have listed := List.mem_of_find?_eq_some found
    rcases other : first.find? test with _ | one
    · rw [List.find?_eq_none] at other
      exact absurd passes (other item ((same item passes).2 listed))
    · have passes' := List.find?_some other
      have listed' := (same one passes').1 (List.mem_of_find?_eq_some other)
      rw [unique one listed' item listed passes' passes]

/-- Only objects are found by a test of objects. -/
theorem find?_object (test : ObjectId → Bool) (values : List Value) :
    values.find? (·.object?.any test) = ((values.filterMap Value.object?).find? test).map .object := by
  induction values with
  | nil => rfl
  | cons head rest ih =>
    cases head with
    | object id =>
      have objects : (Value.object id :: rest).filterMap Value.object? = id :: rest.filterMap Value.object? := rfl
      rw [objects, List.find?_cons, List.find?_cons, Value.object?, Option.any_some]
      cases test id with
      | true => rfl
      | false => exact ih
    | _ => exact ih

namespace Lineup

variable {lineup : Lineup} {setting : Setting} {world now after : World} {done : List ObjectId} {element : ObjectId}
  {pool : Counterpart.Pool}

section Candidates

variable (fits : lineup.Fits setting world)

include fits

/-- Candidates that are the same entity are one object. -/
theorem Fits.eq_of_candidates {first second : ObjectId} (one : first ∈ lineup.roster.candidates)
    (two : second ∈ lineup.roster.candidates) (same : world.sameEntity first second = true) : first = second := by
  have symm : Std.Symm (fun first second => world.sameEntity first second = false) :=
    ⟨fun _ _ apart => Bool.eq_false_iff.2 fun same => Bool.eq_false_iff.1 apart (World.sameEntity_symm same)⟩
  by_contra different
  exact Bool.eq_false_iff.1 (fits.unique.forall one two different) same

/-- No candidate is listed twice. -/
theorem Fits.nodup_candidates : lineup.roster.candidates.Nodup := by
  refine fits.unique.imp_of_mem fun {first second} member _ apart => ?_
  rintro rfl
  obtain ⟨entity, managed⟩ := Option.isSome_iff_exists.1 (fits.pairs.managed first member)
  exact Bool.eq_false_iff.1 apart (World.sameEntity_iff.2 ⟨entity, managed, rfl, rfl⟩)

variable (within : ∀ element ∈ done, element ∈ lineup.roster.elements) (listed : element ∈ lineup.roster.elements)
  (new : element ∉ done)

include listed

include within new

/-- Nobody has taken the partner of a bean that is not done. -/
theorem Fits.find?_available {values : List Value}
    (available : (values.filterMap Value.object?).Perm (lineup.untaken done)) :
    values.find? (·.object?.any (world.sameEntity element)) =
      (lineup.roster.candidates.find? (world.sameEntity element)).map .object := by
  rw [find?_object]
  congr 1
  apply List.find?_eq_of_unique
  · intro candidate same
    rw [available.mem_iff, untaken, List.mem_filter, and_iff_left_iff_imp]
    refine fun _ => decide_eq_true fun taken => ?_
    obtain ⟨other, earlier, rfl⟩ := List.mem_map.1 taken
    have shared := World.sameEntity_of_shared same (fits.pairs.sameEntity_partner (within other earlier))
    exact new (fits.pairs.eq_of_sameEntity listed (within other earlier) shared ▸ earlier)
  · intro first one second two same same'
    exact fits.eq_of_candidates one two (World.sameEntity_of_shared (World.sameEntity_symm same)
      (World.sameEntity_symm same'))

/-- Once a bean has taken its partner, that one is no longer left. -/
theorem Fits.perm_untaken :
    ((lineup.roster.candidates.find? (world.sameEntity element)).toList ++ lineup.untaken (done ++ [element])).Perm
      (lineup.untaken done) := by
  have erased : lineup.untaken (done ++ [element]) =
      (lineup.untaken done).filter (fun candidate => decide (candidate ≠ lineup.partner element)) := by
    rw [untaken, untaken, List.filter_filter]
    refine List.filter_congr fun candidate _ => ?_
    simp [List.map_append, and_comm]
  have partner := fits.pairs.partner element listed
  rw [World.partner?, List.find?_append] at partner
  rcases found : lineup.roster.candidates.find? (world.sameEntity element) with _ | candidate
  · -- The partner is no candidate, or it would have been found.
    rw [erased, List.filter_eq_self.2]
    · exact .refl _
    intro candidate left
    refine decide_eq_true ?_
    rintro rfl
    exact List.find?_eq_none.1 found _ (List.mem_filter.1 left).1 (fits.pairs.sameEntity_partner listed)
  · rw [found, Option.some_or] at partner
    obtain rfl : candidate = lineup.partner element := Option.some.inj partner
    have left : lineup.partner element ∈ lineup.untaken done := by
      refine List.mem_filter.2 ⟨List.mem_of_find?_eq_some found, decide_eq_true fun taken => ?_⟩
      obtain ⟨other, earlier, same⟩ := List.mem_map.1 taken
      exact new (fits.pairs.eq_of_partner_eq (within other earlier) listed same ▸ earlier)
    have once : (lineup.untaken done).Nodup := fits.nodup_candidates.filter _
    have same : (lineup.untaken done).erase (lineup.partner element) = lineup.untaken (done ++ [element]) := by
      rw [erased, once.erase_eq_filter]
      exact List.filter_congr fun candidate _ => (decide_not ..).symm
    rw [← same]
    exact (List.perm_cons_erase left).symm

end Candidates

/-- What is no object stays what it is. -/
theorem image_of_scalar (lineup : Lineup) {value : Value} (plain : value.object? = none) :
    lineup.image value = value := by
  cases value with
  | object id => cases plain
  | _ => rfl

/-- Objects among the matched and the left are objects among the candidates. -/
theorem perm_objects {counterpart? : Option Value} {rest values : List Value}
    (perm : (counterpart?.toList ++ rest).Perm values) :
    (counterpart?.toList.filterMap Value.object? ++ rest.filterMap Value.object?).Perm
      (values.filterMap Value.object?) := by
  rw [← List.filterMap_append]
  exact perm.filterMap _

section Entries

variable (fits : lineup.Fits setting world) (enrolling : lineup.roster.Enrolling setting world done now)
  (within : ∀ element ∈ done, element ∈ lineup.roster.elements) {value : Value}
  (next : ∀ element, value = .object element → element ∈ lineup.roster.elements ∧ element ∉ done)

include fits enrolling within next

/-- A value finds its counterpart, whatever the order of the candidates, and is reconciled with it. -/
theorem Fits.takes {values : List Value} (left : (values.filterMap Value.object?).Perm (lineup.untaken done))
    (fuel : Nat) :
    ∃ value? rest, Counterpart.take setting.schema now.store now.heap value values now.outages =
        (.ok (value?, rest), now.outages) ∧
      (rest.filterMap Value.object?).Perm (lineup.untaken (done ++ value.object?.toList)) ∧
      ∀ middle, lineup.roster.Enrolling setting world done middle →
        (answer setting (fuel + 3) (.matched value value?)).Answers middle (fun result after =>
          result = lineup.image value ∧
            lineup.roster.Enrolling setting world (done ++ value.object?.toList) after) := by
  rcases object : value.object? with _ | element
  · obtain ⟨value?, rest, found, taken⟩ :=
      Counterpart.take_scalar setting.schema now.store now.heap object values now.outages
    rw [Option.toList_none, List.append_nil]
    refine ⟨value?, rest, found, ?_, fun middle enrolling => ?_⟩
    · have objects := perm_objects (Counterpart.perm_take found)
      have none : value?.toList.filterMap Value.object? = [] := by
        rcases taken with rfl | ⟨-, rfl⟩
        · rfl
        · exact List.filterMap_cons_none object
      rw [none, List.nil_append] at objects
      exact objects.trans left
    · apply (answers_matched_scalar object (enrolling.passes fits.pairs) taken (fuel + 2)).weaken
      rintro _ after ⟨rfl, unmoved⟩
      exact ⟨(lineup.image_of_scalar object).symm, enrolling.of_unmoved unmoved⟩
  · obtain rfl := (Value.object?_eq_some_iff _ _).1 object
    obtain ⟨listed, new⟩ := next element rfl
    obtain ⟨entity, metadata, enrolled⟩ := fits.pairs.enrolled element listed
    have enrolled := enrolling.enrolled fits.pairs within listed new enrolled
    have absent : Value.object element ∉ values := fun member =>
      fits.pairs.apart element listed
        (List.mem_filter.1 (left.subset (List.mem_filterMap.2 ⟨_, member, rfl⟩))).1
    have found := Roster.take_of_enrolled enrolled (enrolling.sound fits.pairs .identifier) absent
    rw [enrolling.sameEntity_eq fits.pairs within] at found
    have drawn := Counterpart.perm_takeFirst (·.object?.any (world.sameEntity element)) values
    have counterpart : (Counterpart.takeFirst (·.object?.any (world.sameEntity element)) values).1 =
        (lineup.roster.candidates.find? (world.sameEntity element)).map .object :=
      fits.find?_available within listed new left
    refine ⟨_, _, found, ?_, fun middle enrolling => ?_⟩
    · have objects := (perm_objects drawn).trans (left.trans (fits.perm_untaken within listed new).symm)
      have matched : ((lineup.roster.candidates.find? (world.sameEntity element)).map Value.object).toList.filterMap
          Value.object? = (lineup.roster.candidates.find? (world.sameEntity element)).toList := by
        cases lineup.roster.candidates.find? (world.sameEntity element) <;> rfl
      rw [counterpart, matched] at objects
      exact (List.perm_append_left_iff _).1 objects
    · show (answer setting (fuel + 3) (.matched (.object element) (Counterpart.takeFirst _ values).1)).Answers _ _
      rw [counterpart]
      exact enrolling.answers_matched fits.pairs within listed new

/-- The key of an entry stays what it is, and its value becomes its image. -/
private theorem Fits.answers_mergeBinding {pool : Counterpart.Pool} (available : lineup.Available done pool)
    {key : Value}
    (plain : key.object? = none) (shapeless : value.shape? now.heap = none) (fuel : Nat) :
    (mergeBinding setting (answer setting (fuel + 3)) lineup.current key value pool).Answers now
      (fun outcome after => outcome.1 = (key, lineup.image value) ∧
        lineup.Available (done ++ value.object?.toList) outcome.2 ∧
        lineup.roster.Enrolling setting world (done ++ value.object?.toList) after) := by
  obtain ⟨key?, keys, keyed, matched⟩ :=
    Counterpart.take_scalar setting.schema now.store now.heap plain pool.keys now.outages
  obtain ⟨values, reordered, entry⟩ :=
    Counterpart.takeEntry_of_shapeless keyed shapeless
  obtain ⟨value?, rest, found, left, answers⟩ :=
    fits.takes enrolling within next ((reordered.filterMap _).trans available.values) fuel
  apply answers_bind_of_eq (askStore_of_ok (entry value? rest found))
  apply (answers_matched_scalar plain (enrolling.passes fits.pairs) matched (fuel + 2)).bind
  rintro _ middle ⟨rfl, unmoved⟩
  apply (answers middle (enrolling.of_unmoved unmoved)).bind
  rintro _ after ⟨rfl, enrolling⟩
  refine answers_pure ⟨rfl, ⟨fun key member => ?_, left⟩, enrolling⟩
  exact available.keys key ((Counterpart.perm_take keyed).subset (List.mem_append_right _ member))

end Entries

/-- All entries are reconciled in their order, and what is left over are the leftovers. -/
private theorem Fits.answers_mergeBindings (fits : lineup.Fits setting world) {fuel : Nat}
    {front rest : List (Value × Value)}
    {pool : Counterpart.Pool} (split : lineup.entries = front ++ rest)
    (enrolling : lineup.roster.Enrolling setting world (front.filterMap (·.2.object?)) now)
    (available : lineup.Available (front.filterMap (·.2.object?)) pool) :
    (mergeBindings setting (answer setting (fuel + 3)) lineup.current rest pool).Answers now
      (fun outcome after => outcome.1 = rest.map (fun entry => (entry.1, lineup.image entry.2)) ∧
        lineup.Available lineup.roster.elements outcome.2 ∧
        lineup.roster.Enrolling setting world lineup.roster.elements after) := by
  induction rest generalizing front now pool with
  | nil =>
    rw [List.append_nil] at split
    subst split
    exact answers_pure ⟨rfl, available, enrolling⟩
  | cons entry rest ih =>
    obtain ⟨key, value⟩ := entry
    have member : (key, value) ∈ lineup.entries := split ▸ List.mem_append_cons_self
    have elements : lineup.roster.elements =
        front.filterMap (·.2.object?) ++ (value.object?.toList ++ rest.filterMap (·.2.object?)) := by
      show lineup.entries.filterMap (·.2.object?) = _
      rw [split, List.filterMap_append, List.filterMap_cons]
      cases value <;> rfl
    have distinct := fits.pairs.nodup
    rw [elements] at distinct
    have next : ∀ element, value = .object element →
        element ∈ lineup.roster.elements ∧ element ∉ front.filterMap (·.2.object?) := by
      rintro element rfl
      refine ⟨elements ▸ List.mem_append_right _ List.mem_cons_self, fun earlier => ?_⟩
      exact (List.nodup_append.1 distinct).2.2 element earlier element List.mem_cons_self rfl
    have within : ∀ element ∈ front.filterMap (·.2.object?), element ∈ lineup.roster.elements :=
      fun element earlier => elements ▸ List.mem_append_left _ earlier
    have shapeless : value.shape? now.heap = none := by
      cases value with
      | object element =>
        obtain ⟨_, _, enrolled⟩ := fits.pairs.enrolled element (next element rfl).1
        show (now.heap.node element).shape? = none
        rw [enrolling.node_element fits.pairs within (next element rfl).1]
        exact Node.shape?_of_isBean enrolled.carrier
      | _ => rfl
    have plain := fits.scalars _ (List.mem_append_left _ member)
    apply (fits.answers_mergeBinding enrolling within next available plain shapeless fuel).bind
    rintro ⟨_, left⟩ middle ⟨rfl, available, enrolling⟩
    have split : lineup.entries = (front ++ [(key, value)]) ++ rest := by
      rw [split, List.append_assoc, List.singleton_append]
    have done : (front ++ [(key, value)]).filterMap (·.2.object?) =
        front.filterMap (·.2.object?) ++ value.object?.toList := by
      rw [List.filterMap_append]
      cases value <;> rfl
    rw [← done] at available enrolling
    apply (ih split enrolling available).bind
    rintro ⟨_, leftovers⟩ final ⟨rfl, available, enrolling⟩
    exact answers_pure ⟨rfl, available, enrolling⟩

namespace Fits

variable (fits : lineup.Fits setting world)

include fits

/-- The map holds the partners, whatever else it holds. -/
theorem object_mem_refill (id : ObjectId) :
    .object id ∈ lineup.refill.flatMap (fun entry => [entry.1, entry.2]) ↔ id ∈ lineup.roster.partners := by
  constructor
  · intro held
    obtain ⟨_, bound, either⟩ := List.mem_flatMap.1 held
    obtain ⟨⟨key, value⟩, listed, rfl⟩ := List.mem_map.1 bound
    simp only [List.mem_cons, List.not_mem_nil, or_false] at either
    rcases either with rfl | same
    · exact absurd (fits.scalars _ (List.mem_append_left _ listed)) nofun
    · cases value with
      | object element =>
        obtain rfl : id = lineup.partner element := Value.object.inj same
        exact List.mem_map_of_mem (List.mem_filterMap.2 ⟨_, listed, rfl⟩)
      | _ => cases same
  · intro member
    obtain ⟨element, among, rfl⟩ := List.mem_map.1 member
    obtain ⟨⟨key, value⟩, listed, object⟩ := List.mem_filterMap.1 among
    obtain rfl := (Value.object?_eq_some_iff _ _).1 object
    exact List.mem_flatMap.2 ⟨_, List.mem_map_of_mem listed, List.mem_cons_of_mem _ List.mem_cons_self⟩

/-- Once all entries are reconciled the map is refilled. -/
theorem updated (enrolling : lineup.roster.Enrolling setting world lineup.roster.elements now)
    {pool : Counterpart.Pool} (available : lineup.Available lineup.roster.elements pool)
    (heap : after.heap = now.heap.edit lineup.authoritative (.setBindings lineup.refill))
    (store : after.store = now.store.without (now.lost setting
      (lineup.refill.flatMap (fun entry => [entry.1, entry.2])) (pool.keys ++ pool.values))) :
    lineup.Updated setting world after := by
  have asked : (world.heap.node lineup.authoritative).content.handler? = some .map := by
    rw [fits.holds]
    rfl
  have apart := (fits.pairs.not_mem_of_handler? asked).2
  obtain ⟨size_eq, refilled, merged, others⟩ :=
    enrolling.refilled apart (Roster.holds_of_handler? asked) heap
  -- What is left over are the leftovers, in some order.
  have left : (pool.keys ++ pool.values).filterMap Value.object? = pool.values.filterMap Value.object? := by
    rw [List.filterMap_append, List.filterMap_eq_nil_iff.2 available.keys, List.nil_append]
  have untaken : (pool.values.filterMap Value.object?).Perm lineup.roster.leftovers := available.values
  have subset : pool.values.filterMap Value.object? ⊆ lineup.roster.candidates := fun id member =>
    (List.mem_filter.1 (untaken.subset member)).1
  have given : (pool.values.filterMap Value.object?).filter
      (fun candidate => decide (candidate ∉ lineup.roster.partners)) = pool.values.filterMap Value.object? :=
    List.filter_eq_self.2 fun id member => (List.mem_filter.1 (untaken.subset member)).2
  refine ⟨size_eq, refilled.trans ?_, merged, others, pool.values.filterMap Value.object?, untaken, ?_⟩
  · have keys : lineup.refill.map Prod.fst = lineup.entries.map Prod.fst := List.map_map ..
    have bound := OrderedMap.ofList_of_nodup (keys ▸ fits.once)
    have content := fits.holds
    generalize world.heap.node lineup.authoritative = node at content ⊢
    obtain ⟨type, origin, _⟩ := node
    subst content
    exact congrArg (fun bindings => Node.mk type origin (.map bindings)) bound
  · rw [store, enrolling.store, enrolling.lost_eq, fits.pairs.lost_eq subset left fits.object_mem_refill, given]
    split
    · rfl
    · exact EntityStore.without_nil _

/-- The authoritative map is brought up to date. -/
private theorem answers_mergeMap (enrolling : lineup.roster.Enrolling setting world [] now) (fuel : Nat) :
    (mergeMap setting (answer setting (fuel + 3)) lineup.detached lineup.authoritative).Answers now
      (fun result after => result = .object lineup.authoritative ∧ lineup.Updated setting world after) := by
  have node : ∀ id, now.heap.node id = world.heap.node id := fun id => enrolling.others id List.not_mem_nil
  have entries : (now.heap.node lineup.detached).bindings = lineup.entries := by
    rw [node, Node.bindings_of_map fits.carries]
  have current : (now.heap.node lineup.authoritative).bindings = lineup.current := by
    rw [node, Node.bindings_of_map fits.holds]
  have loaded := (congrArg (·.origin.isLoaded) (node lineup.authoritative)).trans fits.loaded
  apply (answers_keepUnloaded_of_loaded lineup.detached loaded).bind
  rintro _ _ ⟨rfl, rfl⟩
  rw [if_neg Bool.false_ne_true]
  apply answers_bind_of_eq rfl
  apply answers_look_bind
  apply answers_look_bind
  have noted : lineup.roster.Enrolling setting world []
      { now with journal := .walked lineup.detached :: now.journal } :=
    enrolling.of_unmoved ⟨rfl, rfl, rfl, rfl, rfl, rfl⟩
  have available : lineup.Available [] ⟨lineup.current.map Prod.fst, lineup.current.map Prod.snd⟩ := by
    constructor
    · intro key member
      obtain ⟨entry, listed, rfl⟩ := List.mem_map.1 member
      exact fits.scalars entry (List.mem_append_right _ listed)
    · have values : (lineup.current.map Prod.snd).filterMap Value.object? = lineup.roster.candidates :=
        List.filterMap_map ..
      rw [values, untaken, List.filter_eq_self.2 fun _ _ => by simp]
  have merging : (mergeBindings setting (answer setting (fuel + 3)) _ _ _).Answers _ _ :=
    fits.answers_mergeBindings (List.nil_append _).symm noted available
  rw [← entries, ← current] at merging
  apply merging.bind
  rintro ⟨_, pool⟩ middle ⟨rfl, available, enrolling⟩
  rw [entries]
  apply (answers_discardLeftovers (enrolling.sound fits.pairs .remove) _ _ _).bind
  rintro _ final ⟨heap, store, -⟩
  apply answers_bind_of_eq rfl
  refine answers_pure ⟨rfl, fits.updated enrolling available ?_ store⟩
  exact congrArg (Heap.edit · _ _) heap

end Fits

end Lineup

/-- Bringing a detached map of scalars and of beans with scalars onto an authoritative one gives that one the detached
keys, in their order, with the scalars and with the entities that the beans stand for, each merged with its bean. -/
theorem Setting.applyTo_map {setting : Setting} {world : World} {lineup : Lineup}
    (fits : lineup.Fits setting world) :
    ∃ after, setting.applyTo (.object lineup.detached) (.object lineup.authoritative) world =
        (.ok (.object lineup.authoritative), after) ∧
      lineup.Updated setting world after := by
  obtain ⟨fuel, spent⟩ := Nat.exists_eq_add_of_le' (world.rested.four_le_fuel setting)
  have answers : (answer setting (fuel + 4) (.applyTo (.object lineup.detached) (.object lineup.authoritative))).Answers
      world.rested
      (fun result after => result = .object lineup.authoritative ∧ lineup.Updated setting world after) := by
    refine answers_answer ?_ ?_
    · apply answers_look_bind
      apply answers_bind_of_eq rfl
      apply (answers_handlerOf (.object lineup.detached)).bind
      rintro handler? _ ⟨found, dispatch, registry, rfl⟩
      obtain rfl : handler? = some .map := found.trans fits.handled
      apply fits.answers_mergeMap
      have asked : (world.heap.node lineup.detached).content.handler? = some .map := by
        rw [fits.carries]
        rfl
      have apart := (fits.pairs.not_mem_of_handler? asked).1
      refine Roster.Matches.start rfl rfl (fun element listed => ?_) registry rfl rfl
      have other : lineup.detached ≠ element := fun same => apart (same ▸ listed)
      exact (Visits.get?_record ..).trans (if_neg other)
    · rintro _ after ⟨rfl, updated⟩
      exact ⟨rfl, updated.of_unmoved ⟨rfl, rfl, rfl, rfl, rfl, rfl⟩⟩
  obtain ⟨_, after, run, rfl, updated⟩ := answers
  rw [← spent] at run
  exact ⟨after, run, updated⟩

namespace Positions

open Eleven (schema setting player ready enrolled_of_ready)

def stored (number version : Int64) (name : String) : Node :=
  { Node.bean ⟨"Player"⟩ [("id", .int number), ("version", .int version), ("name", .text name)] with origin := .stored }

/-- What the two teams say about their positions: three stored players and a motto, and then one of them under the key
of another, one in goal who was not in the team, one on the bench, another motto and no captain. -/
def lineup : Lineup where
  detached := ⟨5⟩
  authoritative := ⟨0⟩
  entries := [(.text "wing", .object ⟨6⟩), (.text "goal", .object ⟨7⟩), (.text "bench", .object ⟨8⟩),
    (.text "motto", .text "on"), (.text "captain", .null)]
  current := [(.text "goal", .object ⟨1⟩), (.text "wing", .object ⟨2⟩), (.text "coach", .object ⟨3⟩),
    (.text "motto", .text "up")]
  partner id := if id = ⟨6⟩ then ⟨1⟩ else if id = ⟨7⟩ then ⟨4⟩ else ⟨2⟩

def world : World where
  heap := ⟨#[.map lineup.current, stored 1 4 "Ann", stored 2 1 "Bob", stored 4 1 "Dan", stored 3 2 "Cyd",
    .map lineup.entries,
    .bean ⟨"Player"⟩ [("id", .int 1), ("version", .int 4), ("name", .text "Anna")],
    .bean ⟨"Player"⟩ [("id", .int 3), ("version", .int 2), ("name", .null)],
    .bean ⟨"Player"⟩ [("id", .int 2), ("version", .int 1), ("name", .text "Rob")]]⟩
  store := { entities := .ofList [(⟨"Player"⟩, player)], stored := [⟨1⟩, ⟨2⟩, ⟨3⟩, ⟨4⟩] }
  dispatch := .ofRegistry (.withDefaults schema)
  cache := .ofSchema schema

private theorem fits : lineup.Fits setting world where
  carries := rfl
  holds := rfl
  handled := by decide +kernel
  loaded := rfl
  scalars := by decide
  once := by decide
  unique := by decide +kernel
  pairs :=
    { passes := fun _ plain _ found => Handler.Registry.ofValue_scalar schema _ plain found
      sound := fun _ => ⟨rfl, rfl⟩
      apart := by decide
      managed := by decide +kernel
      distinct := by decide +kernel
      partner := by decide +kernel
      enrolled := by
        have checked : ∀ element ∈ lineup.roster.elements, ready world element (lineup.partner element) = true := by
          decide +kernel
        exact fun element listed => ⟨_, _, enrolled_of_ready rfl (checked element listed)⟩ }

/-- Everybody has the position of the detached team, under the new names; the coach is given up. -/
theorem team_rearranged : lineup.Fits setting world ∧
    ∃ after, setting.applyTo (.object ⟨5⟩) (.object ⟨0⟩) world = (.ok (.object ⟨0⟩), after) ∧
      (after.heap.node ⟨0⟩).bindings = [(.text "wing", .object ⟨1⟩), (.text "goal", .object ⟨4⟩),
        (.text "bench", .object ⟨2⟩), (.text "motto", .text "on"), (.text "captain", .null)] ∧
      (after.heap.node ⟨1⟩).attr "name" = .text "Anna" ∧ (after.heap.node ⟨4⟩).attr "name" = .text "Cyd" ∧
      (after.heap.node ⟨2⟩).attr "name" = .text "Rob" ∧ after.heap.node ⟨3⟩ = world.heap.node ⟨3⟩ ∧
      after.store.stored = [⟨1⟩, ⟨2⟩, ⟨4⟩] ∧ after.store.removed = [⟨3⟩] := by
  obtain ⟨after, run, updated⟩ := Setting.applyTo_map fits
  obtain ⟨given, perm, store⟩ := updated.store
  have leftovers : lineup.roster.leftovers = [⟨3⟩] := by decide
  obtain rfl : given = [⟨3⟩] := List.perm_singleton.1 (leftovers ▸ perm)
  refine ⟨fits, after, run, ?_, ?_, ?_, ?_, updated.others ⟨3⟩ (by decide) (by decide), ?_, ?_⟩
  · exact (congrArg Node.bindings updated.refilled).trans rfl
  · exact ((updated.merged ⟨6⟩ (by decide)).attr_eq "name").trans (by decide +kernel)
  · exact ((updated.merged ⟨7⟩ (by decide)).attr_eq "name").trans (by decide +kernel)
  · exact ((updated.merged ⟨8⟩ (by decide)).attr_eq "name").trans (by decide +kernel)
  · exact (congrArg EntityStore.stored store).trans (by decide +kernel)
  · exact (congrArg EntityStore.removed store).trans (by decide +kernel)

end Positions

end Reconciler
