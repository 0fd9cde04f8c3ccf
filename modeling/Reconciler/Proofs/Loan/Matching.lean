import Reconciler.Proofs.Counterparts
import Reconciler.Proofs.Loan

/-! # Copies find their originals

Whatever the store is asked about a copy, it answers as for the original. Candidates are consumed in step with
the elements: those that are left are the originals of the elements to come, behind nulls, which match nothing.
-/

namespace Reconciler

open Reconciler.Action

namespace Loan

variable {setting : Setting} {loan : Loan setting} {now : World}

namespace Returning

variable {id copy : ObjectId} (returning : loan.Returning now)

include returning

theorem entity?_eq (type : TypeName) : now.store.entity? type = loan.source.store.entity? type := by
  rw [returning.store, loan.store, loan.cloning.store]
  rfl

/-- The content of a container stays. -/
theorem content_original (lent : loan.cloned.visits.get? id = some (.object copy))
    (other : (loan.source.heap.node id).isBean = false) :
    (now.heap.node id).content = (loan.source.heap.node id).content :=
  (returning.retained id (Paired.copy lent).old).content_eq other

/-- What was loaded when it was lent is loaded. -/
theorem loaded_original (lent : loan.cloned.visits.get? id = some (.object copy))
    (loaded : (loan.source.heap.node id).origin.isLoaded = true) :
    (now.heap.node id).origin.isLoaded = true :=
  (congrArg Origin.isLoaded (returning.retained id (Paired.copy lent).old).origin_eq).trans loaded

/-- No operation of the store fails. -/
theorem serves (operation : StoreOperation) : now.Serves operation := by
  apply (loan.sound operation).of_same
  · rw [returning.store, loan.store, loan.cloning.store]
  · rw [returning.outages, loan.outages, loan.cloning.outages]

theorem identifier_eq (entity : Entity) (id : ObjectId) :
    now.store.identifier now.heap entity id = .ok (entity.identifier? now.heap id) :=
  EntityStore.identifier_of_sound (returning.serves .identifier).faults now.heap entity id

variable (lent : loan.cloned.visits.get? id = some (.object copy))
  (bean : (loan.source.heap.node id).isBean = true) {entity : Entity} {metadata : Metadata}
  (identified : Identified setting loan.source id entity metadata)

include lent identified

theorem metadata?_eq : now.metadata? setting id = some metadata := by
  have type := (returning.retained id (Paired.copy lent).old).type_eq
  rw [World.metadata?, type, returning.schema, ← Option.or_assoc, identified.declared]
  rfl

/-- The original keeps its identifier. -/
theorem identifier_original :
    entity.identifier? now.heap id = some ((loan.source.heap.node id).attr entity.idProperty) := by
  have kept := returning.attr_of_spared (Paired.copy lent).old
    (awaited_of_fixed lent identified.managed (.inl rfl))
  rw [Entity.identifier?, kept, identified.known]
  rfl

include bean in
/-- The copy carries the identifier of the original. -/
theorem identifier_copy (scalar : ((loan.source.heap.node id).attr entity.idProperty).object? = none) :
    entity.identifier? now.heap copy = some ((loan.source.heap.node id).attr entity.idProperty) := by
  have carried := carried_of_fixed lent bean (identified.names_eq ▸ identified.listed) scalar
    identified.managed (.inl rfl)
  rw [Entity.identifier?, returning.fresh copy (Paired.copy lent).new, carried, identified.known]
  rfl

end Returning

/-- The counterpart that a value of the clone finds: its original, unless that is null. -/
def counterpart? (original : Value) : Option Value :=
  if original.isNull then none else some original

/-- The nulls among the candidates after an original was matched. -/
def spared (nulls : List Value) (original : Value) : List Value :=
  if original.isNull then nulls ++ [original] else nulls

theorem spared_null {nulls : List Value} (empty : ∀ value ∈ nulls, value = .null) (original : Value) :
    ∀ value ∈ spared nulls original, value = .null := by
  unfold spared
  split
  · next null =>
    intro value listed
    rcases List.mem_append.1 listed with earlier | here
    · exact empty value earlier
    · rw [List.mem_singleton.1 here]
      exact (Value.isNull_iff original).1 null
  · exact empty

/-- A value finds itself, which comes right behind the nulls. -/
theorem take_self (schema : Schema) (store : EntityStore) (heap : Heap) (value : Value) {nulls : List Value}
    (empty : ∀ other ∈ nulls, other = .null) (rest : List Value) (outages : Outages) :
    Counterpart.take schema store heap value (nulls ++ value :: rest) outages =
      (.ok (counterpart? value, spared nulls value ++ rest), outages) := by
  unfold Counterpart.take Counterpart.search counterpart? spared
  split
  · rw [List.append_assoc, List.singleton_append]
    rfl
  · next present =>
    have absent : value ∉ nulls :=
      fun listed => present ((Value.isNull_iff value).2 (empty value listed))
    rw [if_pos (by simp), List.erase_append_right _ absent, List.erase_cons_head]
    rfl

/-- The value under a key that was matched with itself comes first, unless the key or the value is null. -/
theorem preferred?_eq {entries : List (Value × Value)} {key value : Value}
    (found : entries.find? (fun entry => decide (entry.1 = key)) = some (key, value)) {values : List Value}
    (listed : value ∈ values) :
    Counterpart.preferred? entries (counterpart? key) values =
      if key.isNull then none else counterpart? value := by
  have held : values.contains value = true := List.contains_iff_mem.2 listed
  unfold Counterpart.preferred? counterpart?
  rcases key.isNull with _ | _
  · rw [if_neg Bool.false_ne_true, if_neg Bool.false_ne_true, Option.bind_some, found]
    simp only [Option.map_some, Option.filter_some]
    rcases null : value.isNull with _ | _
    · simp only [Bool.not_false, if_true, Option.filter_some, held, Bool.false_eq_true, if_false]
    · rfl
  · rfl

/-- No candidate is a copy. -/
theorem copy_not_mem {id copy : ObjectId} {candidates : List Value}
    (lent : loan.cloned.visits.get? id = some (.object copy))
    (old : ∀ part, .object part ∈ candidates → loan.source.heap.Holds part) : .object copy ∉ candidates :=
  fun listed => (Paired.copy lent).new (old copy listed)

section Take

variable {original image : Value} {nulls rest : List Value}
  (empty : ∀ value ∈ nulls, value = .null)

include empty

/-- Taking the first candidate after the nulls. -/
theorem takeFirst_eq {test : Value → Bool} (rejects : test .null = false) (accepts : test original = true) :
    Counterpart.takeFirst test (nulls ++ original :: rest) = (some original, nulls ++ rest) := by
  have none : ∀ value ∈ nulls, ¬ test value = true := by
    intro value listed
    rw [empty value listed, rejects]
    exact Bool.false_ne_true
  rw [Counterpart.takeFirst, List.find?_append, List.find?_eq_none.2 none, List.find?_cons_of_pos accepts,
    List.eraseP_append_right _ none, List.eraseP_cons_of_pos accepts]
  rfl

end Take

section Take

variable {original image : Value} {id copy : ObjectId} {nulls rest candidates : List Value}
  (returning : loan.Returning now)

include returning

/-- An object of the clone has the type of its original. -/
theorem Returning.type_copy (lent : loan.cloned.visits.get? id = some (.object copy)) :
    (now.heap.node copy).type = (loan.source.heap.node id).type := by
  simp [returning.fresh copy (Paired.copy lent).new, (Paired.copy lent).type_eq]

/-- A copied container is matched with no candidate. -/
theorem Returning.take_container (lent : loan.cloned.visits.get? id = some (.object copy))
    (other : (loan.source.heap.node id).isBean = false) (matchable : Matchable setting loan.source id)
    (absent : .object copy ∉ candidates) :
    Counterpart.take setting.schema now.store now.heap (.object copy) candidates now.outages =
      (.ok (none, candidates), now.outages) := by
  have traceable := loan.traceable id (member_of_lent lent)
  have type := returning.type_copy lent
  have unmanaged : now.store.entity? (now.heap.node copy).type = none := by
    simp [type, returning.entity?_eq, traceable.unmanaged other]
  have unequal : setting.schema.equality? (now.heap.node copy).type = none := by
    simp [type, matchable.unequal]
  exact Counterpart.take_of_unmanaged absent unequal unmanaged now.outages

/-- An element finds its original, which comes right behind the nulls. -/
theorem Returning.take_copied (copied : Copied loan.cloned original image)
    (entity : ∀ part, original = .object part →
      (loan.source.heap.node part).isBean = true ∧ Matchable setting loan.source part)
    (empty : ∀ value ∈ nulls, value = .null)
    (old : ∀ part, .object part ∈ rest → loan.source.heap.Holds part) :
    Counterpart.take setting.schema now.store now.heap image (nulls ++ original :: rest) now.outages =
      (.ok (counterpart? original, spared nulls original ++ rest), now.outages) := by
  cases copied with
  | scalar plain => exact take_self _ _ _ original empty rest now.outages
  | object lent =>
    rename_i id copy
    obtain ⟨bean, matchable⟩ := entity id rfl
    obtain ⟨entity, metadata, identified⟩ := (loan.traceable id (member_of_lent lent)).entity bean
    have type := returning.type_copy lent
    have scalar := matchable.scalar entity identified.managed
    have absent : .object copy ∉ nulls ++ .object id :: rest := by
      refine copy_not_mem lent fun part listed => ?_
      rcases List.mem_append.1 listed with null | listed
      · cases empty _ null
      rcases List.mem_cons.1 listed with same | later
      · cases same
        exact (Paired.copy lent).old
      · exact old part later
    have managed : now.store.entity? (now.heap.node copy).type = some entity := by
      simp [type, returning.entity?_eq, identified.managed]
    have unequal : setting.schema.equality? (now.heap.node copy).type = none := by
      simp [type, matchable.unequal]
    have accepts : Counterpart.isSameEntity now.heap entity (now.heap.node copy).type
        ((loan.source.heap.node id).attr entity.idProperty) (.object id) = true := by
      rw [Counterpart.isSameEntity, Value.object?, Option.any_some, decide_eq_true_iff, type,
        (returning.retained id (Paired.copy lent).old).type_eq]
      exact ⟨rfl, returning.identifier_original lent identified⟩
    have serves := returning.serves .identifier
    rw [Counterpart.take_of_identified serves.faults serves.outages absent unequal managed
      (returning.identifier_copy lent bean identified scalar), takeFirst_eq empty rfl accepts]
    rfl

end Take

section TakeEntry

variable {key value keyImage valueImage : Value} {keyNulls keys valueNulls values : List Value}
  {entries : List (Value × Value)} (returning : loan.Returning now)

include returning

/-- A copied container has the shape of its original. -/
theorem Returning.sameShape {id copy : ObjectId} (lent : loan.cloned.visits.get? id = some (.object copy))
    (other : (loan.source.heap.node id).isBean = false) :
    Counterpart.sameShape now.heap (.object copy) (.object id) = true := by
  have shape : ((.object copy : Value).shape? now.heap) = (loan.source.heap.node id).shape? := by
    rw [Value.shape?, Value.object?, Option.bind_some, returning.fresh copy (Paired.copy lent).new,
      (Paired.copy lent).shape?_eq]
  have shape' : ((.object id : Value).shape? now.heap) = (loan.source.heap.node id).shape? :=
    (returning.retained id (Paired.copy lent).old).shape?_eq
  have known : (loan.source.heap.node id).shape? ≠ none := by
    have inspected := (loan.traceable id (member_of_lent lent)).inspected
    unfold Node.isBean Node.attributes? at other
    unfold Node.shape? Content.shape?
    cases content : (loan.source.heap.node id).content with
    | bean => rw [content] at other; cases other
    | sealed => exact absurd content inspected
    | _ => exact Option.some_ne_none _
  obtain ⟨type, known⟩ := Option.ne_none_iff_exists'.1 known
  rw [Counterpart.sameShape, shape, shape', known]
  exact decide_eq_true rfl

variable (valueCopied : Copied loan.cloned value valueImage)
  (matchable : ∀ part, value = .object part → Matchable setting loan.source part)

include valueCopied matchable

/-- A value that stands in front of the candidates is found, or is a container and has the shape of the copy. -/
theorem Returning.take_preferred (present : value.isNull = false)
    (old : ∀ part, .object part ∈ values → loan.source.heap.Holds part) :
    Counterpart.take setting.schema now.store now.heap valueImage (value :: values) now.outages =
        (.ok (some value, values), now.outages) ∨
      Counterpart.take setting.schema now.store now.heap valueImage (value :: values) now.outages =
          (.ok (none, value :: values), now.outages) ∧
        Counterpart.sameShape now.heap valueImage value = true := by
  by_cases container : ∃ part, value = .object part ∧ (loan.source.heap.node part).isBean = false
  · obtain ⟨id, rfl, other⟩ := container
    cases valueCopied with
    | scalar plain => cases plain
    | object lent =>
      refine .inr ⟨returning.take_container lent other (matchable id rfl) ?_, returning.sameShape lent other⟩
      refine copy_not_mem lent fun part listed => ?_
      rcases List.mem_cons.1 listed with same | later
      · cases same
        exact (Paired.copy lent).old
      · exact old part later
  · have entity : ∀ part, value = .object part →
        (loan.source.heap.node part).isBean = true ∧ Matchable setting loan.source part := by
      intro part same
      refine ⟨?_, matchable part same⟩
      rcases bean : (loan.source.heap.node part).isBean with _ | _
      · exact absurd ⟨part, same, bean⟩ container
      · rfl
    have taken :
        Counterpart.take setting.schema now.store now.heap valueImage ([] ++ value :: values) now.outages = _ :=
      returning.take_copied valueCopied entity (by simp) old
    rw [List.nil_append, counterpart?, spared, present, if_neg Bool.false_ne_true, if_neg Bool.false_ne_true,
      List.nil_append] at taken
    exact .inl taken

/-- The key and the value of an entry find their originals, the value because it is stored under the key. -/
theorem Returning.takeEntry_copied (keyCopied : Copied loan.cloned key keyImage)
    (keyEntity : ∀ part, key = .object part →
      (loan.source.heap.node part).isBean = true ∧ Matchable setting loan.source part)
    (valueEntity : key = .null → ∀ part, value = .object part → (loan.source.heap.node part).isBean = true)
    (keyEmpty : ∀ value ∈ keyNulls, value = .null) (valueEmpty : ∀ value ∈ valueNulls, value = .null)
    (keyOld : ∀ part, .object part ∈ keys → loan.source.heap.Holds part)
    (valueOld : ∀ part, .object part ∈ values → loan.source.heap.Holds part)
    (found : entries.find? (fun entry => decide (entry.1 = key)) = some (key, value)) :
    Counterpart.takeEntry setting.schema now.store now.heap entries keyImage valueImage
        ⟨keyNulls ++ key :: keys, valueNulls ++ value :: values⟩ now.outages =
      (.ok ((counterpart? key, counterpart? value),
        ⟨spared keyNulls key ++ keys, spared valueNulls value ++ values⟩), now.outages) := by
  have keyTaken := returning.take_copied keyCopied keyEntity keyEmpty keyOld
  have listed : value ∈ valueNulls ++ value :: values := by simp
  by_cases alone : key.isNull = true ∨ value.isNull = true
  · -- Nothing is preferred, and the value finds its original as an element would.
    have entity : ∀ part, value = .object part →
        (loan.source.heap.node part).isBean = true ∧ Matchable setting loan.source part := by
      intro part same
      refine ⟨alone.elim (fun null => valueEntity ((Value.isNull_iff key).1 null) part same) fun null => ?_,
        matchable part same⟩
      rw [same] at null
      cases null
    have valueTaken := returning.take_copied valueCopied entity valueEmpty valueOld
    have preferred : (if key.isNull then none else counterpart? value) = none := by
      rcases null : key.isNull with _ | _
      · exact if_pos (alone.resolve_left (null ▸ Bool.false_ne_true))
      · rfl
    rw [← preferred?_eq found listed] at preferred
    rw [Counterpart.takeEntry_of_taken keyTaken preferred valueTaken]
    cases counterpart? value <;> rfl
  · rw [not_or, Bool.not_eq_true, Bool.not_eq_true] at alone
    have preferred : (if key.isNull then none else counterpart? value) = some value := by
      simp [alone.1, alone.2, counterpart?]
    rw [← preferred?_eq found listed] at preferred
    have absent : value ∉ valueNulls := by
      intro null
      rw [valueEmpty value null] at alone
      cases alone.2
    have erased : (valueNulls ++ value :: values).erase value = valueNulls ++ values := by
      simp [List.erase_append_right _ absent, List.erase_cons_head]
    have kept : spared valueNulls value = valueNulls := by
      simp [spared, alone.2]
    have counterpart : counterpart? value = some value := by
      simp [counterpart?, alone.2]
    have old : ∀ part, .object part ∈ valueNulls ++ values → loan.source.heap.Holds part := by
      intro part listed
      rcases List.mem_append.1 listed with null | later
      · cases valueEmpty _ null
      · exact valueOld part later
    have valueTaken := returning.take_preferred valueCopied matchable alone.2 old
    rw [← erased] at valueTaken
    rw [counterpart, kept]
    rcases valueTaken with taken | ⟨unmatched, shape⟩
    · rw [Counterpart.takeEntry_of_taken keyTaken preferred taken, erased]
      rfl
    · -- A container is matched with none of the candidates and gets what is stored under the key.
      rw [Counterpart.takeEntry_of_taken keyTaken preferred unmatched]
      simp only [Counterpart.matchedOr, shape, if_true, List.erase_cons_head, erased]

end TakeEntry

end Loan

end Reconciler
