import Reconciler.Proofs.Ensures
import Reconciler.Traversal.Apply

/-! # Which candidate a search takes

A search for the counterpart of an element looks for the element itself first. If that is no candidate, the domain
equality of an object decides, and without one its type and its identifier do. The first candidate that passes is
taken out and the others stay in their order.

Identifiers are read by the store, and reading one may fail, for one object and not for another. So the search is
described here for any store, and what a traversal does is its case for the store of the traversal. Since a search
only ever takes out what it answers with, a loop of searches parts the candidates into those that were matched and
those that are left over.
-/

open Reconciler.Action

namespace Reconciler.Counterpart

variable {σ : Type}

/-- Candidates that fail a test one after another, and the state that the tests leave. -/
inductive Passes (test : Value → σ → Except StoreError Bool × σ) : List Value → σ → σ → Prop
  | nil (state : σ) : Passes test [] state state
  | cons {candidate : Value} {rest : List Value} {state middle after : σ}
      (failed : test candidate state = (.ok false, middle)) (others : Passes test rest middle after) :
      Passes test (candidate :: rest) state after

section Draw

variable {test : Value → σ → Except StoreError Bool × σ} {before after candidates : List Value} {candidate : Value}
  {state middle last : σ}

/-- Candidates that do not pass are passed over. -/
theorem draw_append (passes : Passes test before state middle) :
    draw test (before ++ after) state =
      ((draw test after middle).1, before ++ (draw test after middle).2.1, (draw test after middle).2.2) := by
  induction passes with
  | nil state => rfl
  | cons failed others ih => simp only [List.cons_append, draw, failed, ih]

private theorem draw_of_passes (passes : Passes test candidates state middle) :
    draw test candidates state = (.ok none, candidates, middle) := by
  have all : draw test (candidates ++ []) state = _ := draw_append passes
  simpa only [List.append_nil, draw] using all

private theorem draw_of_true (passes : Passes test before state middle)
    (passed : test candidate middle = (.ok true, last)) :
    draw test (before ++ candidate :: after) state = (.ok (some candidate), before ++ after, last) := by
  rw [draw_append passes, draw, passed]

private theorem draw_of_error (passes : Passes test before state middle) {error : StoreError}
    (fails : test candidate middle = (.error error, last)) :
    draw test (before ++ candidate :: after) state = (.error error, before ++ candidate :: after, last) := by
  rw [draw_append passes, draw, fails]

/-- Either no candidate passes, or there is a first one that does not simply fail the test. -/
theorem passes_or_split (test : Value → σ → Except StoreError Bool × σ) (candidates : List Value) (state : σ) :
    (∃ last, Passes test candidates state last) ∨
      ∃ before candidate after middle, candidates = before ++ candidate :: after ∧
        Passes test before state middle ∧ (test candidate middle).1 ≠ .ok false := by
  induction candidates generalizing state with
  | nil => exact .inl ⟨state, .nil state⟩
  | cons head rest ih =>
    by_cases failed : (test head state).1 = .ok false
    · have outcome : test head state = (.ok false, (test head state).2) := Prod.ext failed rfl
      rcases ih (test head state).2 with ⟨last, all⟩ | ⟨before, candidate, after, middle, rfl, others, stops⟩
      · exact .inl ⟨last, .cons outcome all⟩
      · exact .inr ⟨head :: before, candidate, after, middle, rfl, .cons outcome others, stops⟩
    · exact .inr ⟨[], head, rest, state, rfl, .nil state, failed⟩

/-- A test that asks for nothing and does not hold. -/
theorem passes_of_eq_false {test : Value → Bool} (rejected : ∀ candidate ∈ candidates, test candidate = false)
    (state : σ) : Passes (fun candidate state => (.ok (test candidate), state)) candidates state state := by
  induction candidates with
  | nil => exact .nil state
  | cons head rest ih =>
    rw [List.forall_mem_cons] at rejected
    exact .cons (by rw [rejected.1]) (ih rejected.2)

private theorem eq_false_of_passes {test : Value → Bool}
    (passes : Passes (fun candidate state => (.ok (test candidate), state)) candidates state last) :
    last = state ∧ ∀ candidate ∈ candidates, test candidate = false := by
  induction passes with
  | nil state => exact ⟨rfl, fun _ listed => absurd listed List.not_mem_nil⟩
  | cons failed others ih =>
    obtain ⟨rejected, rfl⟩ := Prod.mk.inj failed
    exact ⟨ih.1, List.forall_mem_cons.2 ⟨Except.ok.inj rejected, ih.2⟩⟩

end Draw

section Verdicts

variable (schema : Schema) (backend : Backend σ) (heap : Heap)

/-- An object that is matched by its type and its identifier, because its type has no domain equality. The identifier
is read first. -/
structure SoughtBy (id : ObjectId) (entity : Entity) (identifier : Value) (state middle : σ) : Prop where
  undeclared : schema.equality? (heap.node id).type = none
  managed : backend.entity? (heap.node id).type = some entity
  identified : backend.identifier entity id state = (.ok (some identifier), middle)

/-- A candidate that is no object of the type and is asked for nothing, or one whose identifier is read and is another
one. -/
inductive Differs (entity : Entity) (type : TypeName) (identifier : Value) : Value → σ → σ → Prop
  | apart {candidate : Value} {state : σ}
      (other : ∀ id, candidate = .object id → (heap.node id).type ≠ type) :
      Differs entity type identifier candidate state state
  | unlike {id : ObjectId} {found? : Option Value} {state after : σ} (type_eq : (heap.node id).type = type)
      (read : backend.identifier entity id state = (.ok found?, after)) (other : found? ≠ some identifier) :
      Differs entity type identifier (.object id) state after

/-- Candidates that differ, one after another. -/
inductive AllDiffer (entity : Entity) (type : TypeName) (identifier : Value) : List Value → σ → σ → Prop
  | nil (state : σ) : AllDiffer entity type identifier [] state state
  | cons {candidate : Value} {rest : List Value} {state middle after : σ}
      (differs : Differs backend heap entity type identifier candidate state middle)
      (others : AllDiffer entity type identifier rest middle after) :
      AllDiffer entity type identifier (candidate :: rest) state after

variable (element : Value) (candidates : List Value) (state : σ)

/-- The counterpart of an element, if `before` are the candidates before it: the element itself, and if that is no
candidate the first object that its domain equality accepts, or without one the first object of its type with its
identifier. -/
inductive Finds (before : List Value) : Value → σ → Prop
  | itself (present : element ≠ .null) (first : element ∉ before) : Finds before element state
  | equal {id other : ObjectId} {equality : Equality} (object : element = .object id) (absent : element ∉ candidates)
      (declared : schema.equality? (heap.node id).type = some equality) (accepted : equality heap id other = true)
      (first : ∀ earlier, .object earlier ∈ before → equality heap id earlier = false) :
      Finds before (.object other) state
  | identified {id other : ObjectId} {entity : Entity} {identifier : Value} {middle last after : σ}
      (object : element = .object id) (absent : element ∉ candidates)
      (sought : SoughtBy schema backend heap id entity identifier state middle)
      (first : AllDiffer backend heap entity (heap.node id).type identifier before middle last)
      (type_eq : (heap.node other).type = (heap.node id).type)
      (same : backend.identifier entity other last = (.ok (some identifier), after)) :
      Finds before (.object other) after

/-- There is no counterpart: the element is null, or it is no candidate and no object, or no candidate object is equal
to it in its domain, or without a domain equality its type is no entity type, it has no identifier, or every candidate
object of its type has another one. -/
inductive Misses : σ → Prop
  | null (absent : element = .null) : Misses state
  | scalar (plain : element.object? = none) (absent : element ∉ candidates) : Misses state
  | unequal {id : ObjectId} {equality : Equality} (object : element = .object id) (absent : element ∉ candidates)
      (declared : schema.equality? (heap.node id).type = some equality)
      (rejected : ∀ other, .object other ∈ candidates → equality heap id other = false) : Misses state
  | unmanaged {id : ObjectId} (object : element = .object id) (absent : element ∉ candidates)
      (undeclared : schema.equality? (heap.node id).type = none)
      (unmanaged : backend.entity? (heap.node id).type = none) : Misses state
  | unidentified {id : ObjectId} {entity : Entity} {after : σ} (object : element = .object id)
      (absent : element ∉ candidates) (undeclared : schema.equality? (heap.node id).type = none)
      (managed : backend.entity? (heap.node id).type = some entity)
      (unidentified : backend.identifier entity id state = (.ok none, after)) : Misses after
  | unmatched {id : ObjectId} {entity : Entity} {identifier : Value} {middle after : σ} (object : element = .object id)
      (absent : element ∉ candidates) (sought : SoughtBy schema backend heap id entity identifier state middle)
      (others : AllDiffer backend heap entity (heap.node id).type identifier candidates middle after) : Misses after

/-- An identifier is needed that the store fails to read: that of the element, or that of a candidate object of its
type before any other one with its identifier. -/
inductive Fails (error : StoreError) : σ → Prop
  | element {id : ObjectId} {entity : Entity} {after : σ} (object : element = .object id)
      (absent : element ∉ candidates) (undeclared : schema.equality? (heap.node id).type = none)
      (managed : backend.entity? (heap.node id).type = some entity)
      (unread : backend.identifier entity id state = (.error error, after)) : Fails error after
  | candidate {id other : ObjectId} {entity : Entity} {identifier : Value} {before rest : List Value}
      {middle last after : σ} (object : element = .object id) (absent : element ∉ candidates)
      (sought : SoughtBy schema backend heap id entity identifier state middle)
      (split : candidates = before ++ .object other :: rest)
      (first : AllDiffer backend heap entity (heap.node id).type identifier before middle last)
      (type_eq : (heap.node other).type = (heap.node id).type)
      (unread : backend.identifier entity other last = (.error error, after)) : Fails error after

end Verdicts

section Tests

variable {backend : Backend σ} {heap : Heap} {entity : Entity} {type : TypeName} {identifier candidate : Value}
  {state after : σ}

private theorem isEqual_eq_false_iff {equality : Equality} {id : ObjectId} :
    isEqual heap equality id candidate = false ↔
      ∀ other, candidate = .object other → equality heap id other = false := by
  cases candidate with
  | object other => simp [isEqual, Value.object?]
  | _ => simp [isEqual, Value.object?]

private theorem isIdentified_object {other : ObjectId} (type_eq : (heap.node other).type = type) :
    isIdentified backend heap entity type identifier (.object other) state =
      ((backend.identifier entity other state).1.map (fun found? => decide (found? = some identifier)),
        (backend.identifier entity other state).2) :=
  if_pos type_eq

private theorem isIdentified_of_apart (apart : ∀ id, candidate = .object id → (heap.node id).type ≠ type) :
    isIdentified backend heap entity type identifier candidate state = (.ok false, state) := by
  cases candidate with
  | object other => exact if_neg (apart other rfl)
  | _ => rfl

private theorem isIdentified_eq_false_iff :
    isIdentified backend heap entity type identifier candidate state = (.ok false, after) ↔
      Differs backend heap entity type identifier candidate state after := by
  constructor
  · intro failed
    rcases Classical.em (∃ id, candidate = .object id ∧ (heap.node id).type = type) with ⟨id, rfl, type_eq⟩ | apart
    · rw [isIdentified_object type_eq] at failed
      rcases read : backend.identifier entity id state with ⟨error | found?, middle⟩
      · rw [read] at failed
        cases failed
      · rw [read] at failed
        obtain ⟨other, rfl⟩ := Prod.mk.inj failed
        exact .unlike type_eq read (of_decide_eq_false (Except.ok.inj other))
    · have other : ∀ id, candidate = .object id → (heap.node id).type ≠ type :=
        fun id same type_eq => apart ⟨id, same, type_eq⟩
      rw [isIdentified_of_apart other] at failed
      obtain ⟨-, rfl⟩ := Prod.mk.inj failed
      exact .apart other
  · intro differs
    cases differs with
    | apart other => exact isIdentified_of_apart other
    | unlike type_eq read other =>
      rw [isIdentified_object type_eq, read]
      exact Prod.ext (congrArg Except.ok (decide_eq_false other)) rfl

/-- What does not simply fail the test is an object of the type, and its identifier is the same or cannot be read. -/
theorem exists_of_isIdentified
    (stops : (isIdentified backend heap entity type identifier candidate state).1 ≠ .ok false) :
    ∃ other after, candidate = .object other ∧ (heap.node other).type = type ∧
      (backend.identifier entity other state = (.ok (some identifier), after) ∨
        ∃ error, backend.identifier entity other state = (.error error, after)) := by
  rcases Classical.em (∃ id, candidate = .object id ∧ (heap.node id).type = type) with ⟨other, rfl, type_eq⟩ | apart
  · rw [isIdentified_object type_eq] at stops
    rcases read : backend.identifier entity other state with ⟨error | found?, after⟩
    · exact ⟨other, after, rfl, type_eq, .inr ⟨error, read⟩⟩
    · by_cases same : found? = some identifier
      · exact ⟨other, after, rfl, type_eq, .inl (same ▸ read)⟩
      · rw [read] at stops
        exact absurd (congrArg Except.ok (decide_eq_false same)) stops
  · exact absurd (congrArg Prod.fst (isIdentified_of_apart fun id same type_eq => apart ⟨id, same, type_eq⟩)) stops

private theorem passes_isIdentified_iff {candidates : List Value} :
    Passes (isIdentified backend heap entity type identifier) candidates state after ↔
      AllDiffer backend heap entity type identifier candidates state after := by
  constructor
  · intro passes
    induction passes with
    | nil state => exact .nil state
    | cons failed others ih => exact .cons (isIdentified_eq_false_iff.1 failed) ih
  · intro differ
    induction differ with
    | nil state => exact .nil state
    | cons differs others ih => exact .cons (isIdentified_eq_false_iff.2 differs) ih

end Tests

section Search

variable {schema : Schema} {backend : Backend σ} {heap : Heap} {element : Value} {candidates : List Value}
  {id : ObjectId}
  {state last : σ}

private theorem search_of_absent (absent : .object id ∉ candidates) :
    search schema backend heap (.object id) candidates state = searchObject schema backend heap id candidates state :=
  if_neg absent

private theorem searchObject_of_equality {equality : Equality}
    (declared : schema.equality? (heap.node id).type = some equality) :
    searchObject schema backend heap id candidates state =
      draw (fun candidate state => (.ok (isEqual heap equality id candidate), state)) candidates state := by
  simp only [searchObject, declared]

private theorem searchObject_of_unmanaged (undeclared : schema.equality? (heap.node id).type = none)
    (unmanaged : backend.entity? (heap.node id).type = none) :
    searchObject schema backend heap id candidates state = (.ok none, candidates, state) := by
  simp only [searchObject, undeclared, unmanaged]

section Managed

variable {entity : Entity} (undeclared : schema.equality? (heap.node id).type = none)
  (managed : backend.entity? (heap.node id).type = some entity)

include undeclared managed

private theorem searchObject_of_unidentified (unidentified : backend.identifier entity id state = (.ok none, last)) :
    searchObject schema backend heap id candidates state = (.ok none, candidates, last) := by
  simp only [searchObject, undeclared, managed, unidentified]

private theorem searchObject_of_unread {error : StoreError}
    (unread : backend.identifier entity id state = (.error error, last)) :
    searchObject schema backend heap id candidates state = (.error error, candidates, last) := by
  simp only [searchObject, undeclared, managed, unread]

end Managed

private theorem SoughtBy.searchObject_eq {entity : Entity} {identifier : Value} {middle : σ}
    (sought : SoughtBy schema backend heap id entity identifier state middle) :
    searchObject schema backend heap id candidates state =
      draw (isIdentified backend heap entity (heap.node id).type identifier) candidates middle := by
  simp only [searchObject, sought.undeclared, sought.managed, sought.identified]

private theorem search_of_finds {before after : List Value} {matched : Value}
    (finds : Finds schema backend heap element (before ++ matched :: after) state before matched last) :
    search schema backend heap element (before ++ matched :: after) state =
      (.ok (some matched), before ++ after, last) := by
  cases finds with
  | itself present first =>
    rw [search, if_neg (mt (Value.isNull_iff element).1 present), if_pos List.mem_append_cons_self,
      List.erase_append_right _ first, List.erase_cons_head]
  | equal object absent declared accepted first =>
    subst object
    rw [search_of_absent absent, searchObject_of_equality declared]
    refine draw_of_true (passes_of_eq_false (fun earlier listed => isEqual_eq_false_iff.2 ?_) state) ?_
    · rintro other rfl
      exact first other listed
    · exact Prod.ext (congrArg Except.ok accepted) rfl
  | identified object absent sought first type_eq same =>
    subst object
    rw [search_of_absent absent, sought.searchObject_eq]
    refine draw_of_true (passes_isIdentified_iff.2 first) ?_
    rw [isIdentified_object type_eq, same, Except.map, decide_eq_true rfl]

private theorem search_of_misses (misses : Misses schema backend heap element candidates state last) :
    search schema backend heap element candidates state = (.ok none, candidates, last) := by
  cases misses with
  | null absent => exact if_pos ((Value.isNull_iff element).2 absent)
  | scalar plain absent => simp only [search, if_neg absent, plain, ite_self]
  | unequal object absent declared rejected =>
    subst object
    rw [search_of_absent absent, searchObject_of_equality declared]
    refine draw_of_passes (passes_of_eq_false (fun candidate listed => isEqual_eq_false_iff.2 ?_) state)
    rintro other rfl
    exact rejected other listed
  | unmanaged object absent undeclared unmanaged =>
    subst object
    rw [search_of_absent absent, searchObject_of_unmanaged undeclared unmanaged]
  | unidentified object absent undeclared managed unidentified =>
    subst object
    rw [search_of_absent absent, searchObject_of_unidentified undeclared managed unidentified]
  | unmatched object absent sought others =>
    subst object
    rw [search_of_absent absent, sought.searchObject_eq]
    exact draw_of_passes (passes_isIdentified_iff.2 others)

private theorem search_of_fails {error : StoreError}
    (fails : Fails schema backend heap element candidates state error last) :
    search schema backend heap element candidates state = (.error error, candidates, last) := by
  cases fails with
  | element object absent undeclared managed unread =>
    subst object
    rw [search_of_absent absent, searchObject_of_unread undeclared managed unread]
  | candidate object absent sought split first type_eq unread =>
    subst object
    rw [search_of_absent absent, sought.searchObject_eq, split]
    refine draw_of_error (passes_isIdentified_iff.2 first) ?_
    rw [isIdentified_object type_eq, unread, Except.map]

/-- For an element that is no candidate the rule for its type decides between the three. -/
theorem fails_or_misses_or_finds_of_absent (absent : .object id ∉ candidates) :
    (∃ error last, Fails schema backend heap (.object id) candidates state error last) ∨
      (∃ last, Misses schema backend heap (.object id) candidates state last) ∨
      ∃ before matched after last, candidates = before ++ matched :: after ∧
        Finds schema backend heap (.object id) candidates state before matched last := by
  rcases declared : schema.equality? (heap.node id).type with _ | equality
  · rcases managed : backend.entity? (heap.node id).type with _ | entity
    · exact .inr (.inl ⟨state, .unmanaged rfl absent declared managed⟩)
    rcases read : backend.identifier entity id state with ⟨error | _ | identifier, middle⟩
    · exact .inl ⟨error, middle, .element rfl absent declared managed read⟩
    · exact .inr (.inl ⟨middle, .unidentified rfl absent declared managed read⟩)
    have sought : SoughtBy schema backend heap id entity identifier state middle := ⟨declared, managed, read⟩
    rcases passes_or_split (isIdentified backend heap entity (heap.node id).type identifier) candidates middle with
      ⟨last, others⟩ | ⟨before, candidate, after, next, split, first, stops⟩
    · exact .inr (.inl ⟨last, .unmatched rfl absent sought (passes_isIdentified_iff.1 others)⟩)
    · have differ := passes_isIdentified_iff.1 first
      obtain ⟨other, last, rfl, type_eq, same | ⟨error, unread⟩⟩ := exists_of_isIdentified stops
      · exact .inr (.inr ⟨before, _, after, last, split, .identified rfl absent sought differ type_eq same⟩)
      · exact .inl ⟨error, last, .candidate rfl absent sought split differ type_eq unread⟩
  · rcases passes_or_split (fun candidate state => (.ok (isEqual heap equality id candidate), state)) candidates state
      with
      ⟨last, others⟩ | ⟨before, candidate, after, middle, split, first, stops⟩
    · refine .inr (.inl ⟨state, .unequal rfl absent declared fun other listed => ?_⟩)
      exact isEqual_eq_false_iff.1 ((eq_false_of_passes others).2 _ listed) other rfl
    · cases candidate with
      | object other =>
        refine .inr (.inr ⟨before, _, after, state, split, .equal rfl absent declared ?_ fun earlier listed => ?_⟩)
        · exact Bool.of_not_eq_false fun rejected => stops (congrArg Except.ok rejected)
        · exact isEqual_eq_false_iff.1 ((eq_false_of_passes first).2 _ listed) earlier rfl
      | _ => exact absurd rfl stops

variable (schema backend heap element candidates state) in
/-- A search fails, misses or finds. -/
theorem fails_or_misses_or_finds : (∃ error last, Fails schema backend heap element candidates state error last) ∨
    (∃ last, Misses schema backend heap element candidates state last) ∨
    ∃ before matched after last, candidates = before ++ matched :: after ∧
      Finds schema backend heap element candidates state before matched last := by
  by_cases present : element = .null
  · exact .inr (.inl ⟨state, .null present⟩)
  by_cases listed : element ∈ candidates
  · obtain ⟨before, after, split, first⟩ := List.eq_append_cons_of_mem listed
    exact .inr (.inr ⟨before, element, after, state, split, .itself present first⟩)
  rcases object : element.object? with _ | id
  · exact .inr (.inl ⟨state, .scalar object listed⟩)
  · obtain rfl := (Value.object?_eq_some_iff _ _).1 object
    exact fails_or_misses_or_finds_of_absent listed

/-- A search fails exactly if an identifier is needed that cannot be read, and then takes nothing out. -/
theorem search_eq_error_iff {error : StoreError} {rest : List Value} :
    search schema backend heap element candidates state = (.error error, rest, last) ↔
      Fails schema backend heap element candidates state error last ∧ rest = candidates := by
  constructor
  · intro run
    rcases fails_or_misses_or_finds schema backend heap element candidates state with
      ⟨other, _, fails⟩ | ⟨_, misses⟩ | ⟨before, matched, after, _, rfl, finds⟩
    · cases (search_of_fails fails).symm.trans run
      exact ⟨fails, rfl⟩
    · cases (search_of_misses misses).symm.trans run
    · cases (search_of_finds finds).symm.trans run
  · rintro ⟨fails, rfl⟩
    exact search_of_fails fails

/-- A search answers with nothing exactly if there is no counterpart, and then takes nothing out. -/
theorem search_eq_none_iff {rest : List Value} :
    search schema backend heap element candidates state = (.ok none, rest, last) ↔
      Misses schema backend heap element candidates state last ∧ rest = candidates := by
  constructor
  · intro run
    rcases fails_or_misses_or_finds schema backend heap element candidates state with
      ⟨error, _, fails⟩ | ⟨_, misses⟩ | ⟨before, matched, after, _, rfl, finds⟩
    · cases (search_of_fails fails).symm.trans run
    · cases (search_of_misses misses).symm.trans run
      exact ⟨misses, rfl⟩
    · cases (search_of_finds finds).symm.trans run
  · rintro ⟨misses, rfl⟩
    exact search_of_misses misses

/-- A search answers with a candidate exactly if that is the counterpart, and takes out only this one. -/
theorem search_eq_some_iff {matched : Value} {rest : List Value} :
    search schema backend heap element candidates state = (.ok (some matched), rest, last) ↔
      ∃ before after, candidates = before ++ matched :: after ∧ rest = before ++ after ∧
        Finds schema backend heap element candidates state before matched last := by
  constructor
  · intro run
    rcases fails_or_misses_or_finds schema backend heap element candidates state with
      ⟨error, _, fails⟩ | ⟨_, misses⟩ | ⟨before, found, after, _, rfl, finds⟩
    · cases (search_of_fails fails).symm.trans run
    · cases (search_of_misses misses).symm.trans run
    · cases (search_of_finds finds).symm.trans run
      exact ⟨before, after, rfl, rfl, finds⟩
  · rintro ⟨before, after, rfl, rfl, finds⟩
    exact search_of_finds finds

end Search

/-- A null identifier is read as none. -/
theorem ne_null_of_read {store : EntityStore} {heap : Heap} {entity : Entity} {id : ObjectId} {identifier : Value}
    {outages after : Outages}
    (read : (store.backend heap).identifier entity id outages = (.ok (some identifier), after)) :
    identifier ≠ .null := by
  rintro rfl
  have found := EntityStore.identifier?_eq (EntityStore.eq_ok_of_call read)
  rw [Entity.identifier?] at found
  split at found
  · cases found
  · next significant => exact significant ((Value.isNull_iff _).2 (Option.some.inj found).symm)

/-- The first candidate that passes the test, and the candidates without it. -/
def takeFirst (test : Value → Bool) (candidates : List Value) : Option Value × List Value :=
  (candidates.find? test, candidates.eraseP test)

/-- A candidate object of an entity type with the given identifier. -/
def isSameEntity (heap : Heap) (entity : Entity) (type : TypeName) (identifier : Value) (candidate : Value) : Bool :=
  candidate.object?.any (fun other =>
    decide ((heap.node other).type = type ∧ entity.identifier? heap other = some identifier))

theorem perm_takeFirst (test : Value → Bool) (candidates : List Value) :
    ((takeFirst test candidates).1.toList ++ (takeFirst test candidates).2).Perm candidates := by
  unfold takeFirst
  rcases found : candidates.find? test with _ | matched
  · rw [List.find?_eq_none] at found
    rw [List.eraseP_of_forall_not found]
    exact .refl _
  · obtain ⟨passes, before, after, split, missed⟩ := List.find?_eq_some_iff_append.1 found
    have unmatched : ∀ candidate ∈ before, ¬ test candidate = true := fun candidate member => by
      simpa using missed candidate member
    rw [split, List.eraseP_append_right _ unmatched, List.eraseP_cons_of_pos passes]
    show (matched :: (before ++ after)).Perm _
    exact List.perm_middle.symm

/-- A test that never fails takes out the first candidate that passes it. -/
theorem draw_of_total {test : Value → σ → Except StoreError Bool × σ} {holds : Value → Bool} {state : σ}
    (total : ∀ candidate, test candidate state = (.ok (holds candidate), state)) (candidates : List Value) :
    draw test candidates state = (.ok (takeFirst holds candidates).1, (takeFirst holds candidates).2, state) := by
  induction candidates with
  | nil => rfl
  | cons head rest ih => rcases passes : holds head with _ | _ <;> simp [draw, takeFirst, total, passes, ih]

section Sound

variable {schema : Schema} {store : EntityStore} {heap : Heap} {outages : Outages} {entity : Entity} {id : ObjectId}
  {candidates : List Value} (sound : store.faults.get? .identifier = none) (quiet : outages .identifier = [])

include sound quiet

private theorem identifier_backend_of_sound (other : ObjectId) :
    (store.backend heap).identifier entity other outages = (.ok (entity.identifier? heap other), outages) := by
  show EntityStore.call _ _ _ = _
  rw [EntityStore.call_of_nil quiet, EntityStore.identifier_of_sound sound]

private theorem isIdentified_of_sound (type : TypeName) (identifier candidate : Value) :
    isIdentified (store.backend heap) heap entity type identifier candidate outages =
      (.ok (isSameEntity heap entity type identifier candidate), outages) := by
  cases candidate with
  | object other =>
    by_cases type_eq : (heap.node other).type = type
    · rw [isIdentified_object type_eq, identifier_backend_of_sound sound quiet]
      simp [isSameEntity, Value.object?, type_eq, Except.map]
    · simp [isIdentified, isSameEntity, Value.object?, type_eq]
  | _ => rfl

/-- An object without a domain equality is matched by its identifier. -/
theorem take_of_identified {identifier : Value} (absent : .object id ∉ candidates)
    (undeclared : schema.equality? (heap.node id).type = none)
    (managed : store.entity? (heap.node id).type = some entity)
    (identified : entity.identifier? heap id = some identifier) :
    take schema store heap (.object id) candidates outages =
      (.ok (takeFirst (isSameEntity heap entity (heap.node id).type identifier) candidates), outages) := by
  have read : (store.backend heap).identifier entity id outages = _ := identifier_backend_of_sound sound quiet id
  rw [identified] at read
  have sought : SoughtBy schema (store.backend heap) heap id entity identifier outages outages :=
    ⟨undeclared, managed, read⟩
  rw [take, search_of_absent absent, sought.searchObject_eq,
    draw_of_total (isIdentified_of_sound sound quiet (heap.node id).type identifier)]
  rfl

end Sound

/-- An object of a type that is neither compared nor managed has no counterpart but itself. -/
theorem take_of_unmanaged {schema : Schema} {store : EntityStore} {heap : Heap} {id : ObjectId}
    {candidates : List Value}
    (absent : .object id ∉ candidates) (undeclared : schema.equality? (heap.node id).type = none)
    (unmanaged : store.entity? (heap.node id).type = none) (outages : Outages) :
    take schema store heap (.object id) candidates outages = (.ok (none, candidates), outages) := by
  have apart : (store.backend heap).entity? (heap.node id).type = none := unmanaged
  rw [take, search_of_absent absent, searchObject_of_unmanaged undeclared apart]
  rfl

/-- A run of the loop over the elements of a container: for each element, in the world of its turn, the counterpart
that was taken and the value that the two were reconciled to; and at last the candidates that are left. -/
inductive Pairing (setting : Setting) (ask : Request → Action Value) :
    World → List Value → List (Value × Option Value × Value) → List Value → World → Prop
  | done (now : World) (candidates : List Value) : Pairing setting ask now candidates [] candidates now
  | next {now middle after : World} {outages : Outages} {element merged : Value} {counterpart? : Option Value}
      {candidates rest left : List Value} {pairs : List (Value × Option Value × Value)}
      (taken : take setting.schema now.store now.heap element candidates now.outages =
        (.ok (counterpart?, rest), outages))
      (reconciled : ask (.matched element counterpart?) { now with outages } = (.ok merged, middle))
      (others : Pairing setting ask middle rest pairs left after) :
      Pairing setting ask now candidates ((element, counterpart?, merged) :: pairs) left after

/-- The loop stops at an element: the search for its counterpart fails, or the element and what was taken for it
cannot be reconciled. -/
inductive Halts (setting : Setting) (ask : Request → Action Value) (now : World) (element : Value)
    (candidates : List Value) : Option Value → List Value → Ending → World → Prop
  | unsought {error : StoreError} {outages : Outages}
      (failed : take setting.schema now.store now.heap element candidates now.outages = (.error error, outages)) :
      Halts setting ask now element candidates none candidates (.failed (.store error)) { now with outages }
  | unreconciled {outages : Outages} {counterpart? : Option Value} {rest : List Value} {ending : Ending} {after : World}
      (taken : take setting.schema now.store now.heap element candidates now.outages =
        (.ok (counterpart?, rest), outages))
      (failed : ask (.matched element counterpart?) { now with outages } = (.error ending, after)) :
      Halts setting ask now element candidates counterpart? rest ending after

section Loop

variable {setting : Setting} {ask : Request → Action Value} {now : World} {element : Value} {candidates : List Value}

/-- What was matched and what is left are the candidates. -/
theorem Pairing.perm {after : World} {left : List Value} {pairs : List (Value × Option Value × Value)}
    (pairing : Pairing setting ask now candidates pairs left after) :
    (pairs.filterMap (·.2.1) ++ left).Perm candidates := by
  induction pairing with
  | done now candidates => exact .refl _
  | @next _ _ _ _ _ _ counterpart? _ rest left pairs taken reconciled others ih =>
    refine List.Perm.trans ?_ (perm_take taken)
    rcases counterpart? with _ | matched
    · exact ih
    · exact ih.cons matched

private theorem Halts.perm {counterpart? : Option Value} {rest : List Value} {ending : Ending} {after : World}
    (halts : Halts setting ask now element candidates counterpart? rest ending after) :
    (counterpart?.toList ++ rest).Perm candidates := by
  cases halts with
  | unsought => exact .refl _
  | unreconciled taken => exact perm_take taken

variable (setting ask now element candidates) in
/-- One element is matched and reconciled, or the loop stops there. -/
private theorem ensures_mergeItem_paired : (mergeItem setting ask element candidates).Ensures now
    (fun ending after => ∃ counterpart? rest, Halts setting ask now element candidates counterpart? rest ending after)
    (fun outcome middle => ∃ counterpart? outages,
      take setting.schema now.store now.heap element candidates now.outages =
        (.ok (counterpart?, outcome.2), outages) ∧
      ask (.matched element counterpart?) { now with outages } = (.ok outcome.1, middle)) := by
  apply (ensures_askStore (spends_take ..) fun _ _ _ failed => ⟨none, candidates, .unsought failed⟩).bind
  rintro ⟨counterpart?, rest⟩ _ ⟨outages, -, rfl, taken⟩
  have asked : (ask (.matched element counterpart?)).Ensures { now with outages }
      (fun ending after => ∃ counterpart? rest, Halts setting ask now element candidates counterpart? rest ending after)
      (fun merged middle => ask (.matched element counterpart?) { now with outages } = (.ok merged, middle)) :=
    ⟨fun _ _ failed => ⟨counterpart?, rest, .unreconciled taken failed⟩, fun _ _ run => run⟩
  exact asked.bind fun _ _ reconciled => ensures_pure ⟨counterpart?, outages, taken, reconciled⟩

variable (setting ask now candidates) in
/-- The loop goes on element by element until it is done or stops at one of them. -/
private theorem ensures_mergeItems_paired (elements : List Value) :
    (mergeItems setting ask elements candidates).Ensures now
    (fun ending after => ∃ pairs left middle element later counterpart? rest,
      Pairing setting ask now candidates pairs left middle ∧ elements = pairs.map (·.1) ++ element :: later ∧
      Halts setting ask middle element left counterpart? rest ending after)
    (fun outcome after => ∃ pairs, Pairing setting ask now candidates pairs outcome.2 after ∧
      elements = pairs.map (·.1) ∧ outcome.1 = pairs.map (·.2.2)) := by
  induction elements generalizing candidates now with
  | nil => exact ensures_pure ⟨[], .done now candidates, rfl, rfl⟩
  | cons element elements ih =>
    have item := ensures_mergeItem_paired setting ask now element candidates
    refine Ensures.bind ⟨fun ending after run => ?_, item.answered⟩ ?_
    · obtain ⟨counterpart?, rest, halts⟩ := item.ended ending after run
      exact ⟨[], candidates, now, element, elements, counterpart?, rest, .done now candidates, rfl, halts⟩
    rintro ⟨merged, rest⟩ middle ⟨counterpart?, _, taken, reconciled⟩
    have tail := ih middle rest
    refine Ensures.bind ⟨fun ending after run => ?_, tail.answered⟩ ?_
    · obtain ⟨pairs, left, last, other, later, found?, remaining, pairing, split, halts⟩ := tail.ended ending after run
      exact ⟨(element, counterpart?, merged) :: pairs, left, last, other, later, found?, remaining,
        .next taken reconciled pairing, congrArg (element :: ·) split, halts⟩
    · rintro ⟨others, leftovers⟩ after ⟨pairs, pairing, rfl, rfl⟩
      exact ensures_pure ⟨(element, counterpart?, merged) :: pairs, .next taken reconciled pairing, rfl, rfl⟩

end Loop

/-- A search in any store, any of whose reads may fail, fails, misses or finds as it should, and takes out the candidate
that it answers with and no other. A traversal takes what a search finds in its store, where no identifier is null. A
loop over the elements of a container matches them in turn, until it is done or stops; what was matched and what is left
are together the candidates. -/
theorem search_exact (schema : Schema) (heap : Heap) (element : Value) (candidates : List Value) :
    (∀ (σ : Type) (backend : Backend σ) (state last : σ),
      (∀ error rest, search schema backend heap element candidates state = (.error error, rest, last) ↔
        Fails schema backend heap element candidates state error last ∧ rest = candidates) ∧
      (∀ rest, search schema backend heap element candidates state = (.ok none, rest, last) ↔
        Misses schema backend heap element candidates state last ∧ rest = candidates) ∧
      ∀ matched rest, search schema backend heap element candidates state = (.ok (some matched), rest, last) ↔
        ∃ before after, candidates = before ++ matched :: after ∧ rest = before ++ after ∧
          Finds schema backend heap element candidates state before matched last) ∧
    (∀ store outages,
      take schema store heap element candidates outages =
        withRest (search schema (store.backend heap) heap element candidates outages) ∧
      ∀ entity id identifier after, (store.backend heap).identifier entity id outages = (.ok (some identifier), after) →
        identifier ≠ .null) ∧
    ∀ setting ask elements world, (mergeItems setting ask elements candidates).Ensures world
      (fun ending after => ∃ pairs left middle element later counterpart? rest,
        Pairing setting ask world candidates pairs left middle ∧ elements = pairs.map (·.1) ++ element :: later ∧
        Halts setting ask middle element left counterpart? rest ending after ∧
        (pairs.filterMap (·.2.1) ++ (counterpart?.toList ++ rest)).Perm candidates)
      (fun outcome after => ∃ pairs, Pairing setting ask world candidates pairs outcome.2 after ∧
        elements = pairs.map (·.1) ∧ outcome.1 = pairs.map (·.2.2) ∧
        (pairs.filterMap (·.2.1) ++ outcome.2).Perm candidates) := by
  refine ⟨fun _ backend state last => ⟨fun _ _ => search_eq_error_iff, fun _ => search_eq_none_iff,
    fun _ _ => search_eq_some_iff⟩, fun store outages => ⟨rfl, fun _ _ _ _ => ne_null_of_read⟩,
    fun setting ask elements world => ?_⟩
  have loop := ensures_mergeItems_paired setting ask world candidates elements
  constructor
  · intro ending after run
    obtain ⟨pairs, left, middle, element, later, counterpart?, rest, pairing, split, halts⟩ :=
      loop.ended ending after run
    exact ⟨pairs, left, middle, element, later, counterpart?, rest, pairing, split, halts,
      (halts.perm.append_left _).trans pairing.perm⟩
  · intro outcome after run
    obtain ⟨pairs, pairing, split, merged⟩ := loop.answered outcome after run
    exact ⟨pairs, pairing, split, merged, pairing.perm⟩

namespace Shortlists

/-- Skills are the same if their codes are, and so are languages. People have no domain equality. -/
def schema : Schema :=
  ⟨[{ name := ⟨"Skill"⟩, equality? := some (.onAttributes ["code"]) }, { name := ⟨"Language"⟩, parents := [⟨"Skill"⟩] },
    { name := ⟨"Person"⟩ }]⟩

def person : Entity := { type := ⟨"Person"⟩, idProperty := "id" }

/-- Two skills of one code, two people, and the copies of a language and of the second person. -/
def heap : Heap :=
  ⟨#[.bean ⟨"Skill"⟩ [("code", .text "go"), ("level", .int 1)],
    .bean ⟨"Skill"⟩ [("code", .text "go"), ("level", .int 2)],
    .bean ⟨"Person"⟩ [("id", .int 1)], .bean ⟨"Person"⟩ [("id", .int 2)],
    .bean ⟨"Language"⟩ [("code", .text "go"), ("level", .int 3)], .bean ⟨"Person"⟩ [("id", .int 2)]]⟩

/-- A store that counts how often it read an identifier and is out of order for the second time. -/
def backend : Backend Nat where
  entity? type := if type = ⟨"Person"⟩ then some person else none
  identifier entity id reads :=
    (if reads = 1 then .error (.backend "locked") else .ok (entity.identifier? heap id), reads + 1)

private theorem inherited : schema.equality? ⟨"Language"⟩ = some (.onAttributes ["code"]) := by
  have supertypes : schema.supertypes ⟨"Language"⟩ = [⟨"Skill"⟩] := by decide +kernel
  rw [Schema.equality?, supertypes]
  rfl

private theorem sought (reads : Nat) (sound : reads ≠ 1) :
    SoughtBy schema backend heap ⟨5⟩ person (.int 2) reads (reads + 1) where
  undeclared := Option.isNone_iff_eq_none.1 (by decide +kernel)
  managed := rfl
  identified := by
    show (if reads = 1 then _ else _, reads + 1) = _
    rw [if_neg sound]
    rfl

/-- The language finds the first skill of its code, and no identifier is read. The copy of the second person finds that
person behind the first one if the store reads three identifiers; if it is out of order when the first person is asked,
nobody is found, and all candidates stay. -/
theorem copies_matched :
    search schema backend heap (.object ⟨4⟩) [.object ⟨2⟩, .object ⟨1⟩, .object ⟨0⟩] 0 =
      (.ok (some (.object ⟨1⟩)), [.object ⟨2⟩, .object ⟨0⟩], 0) ∧
    search schema backend heap (.object ⟨5⟩) [.object ⟨2⟩, .object ⟨3⟩] 2 =
      (.ok (some (.object ⟨3⟩)), [.object ⟨2⟩], 5) ∧
    search schema backend heap (.object ⟨5⟩) [.object ⟨2⟩, .object ⟨3⟩] 0 =
      (.error (.backend "locked"), [.object ⟨2⟩, .object ⟨3⟩], 2) := by
  refine ⟨?_, ?_, ?_⟩
  · refine (((search_exact schema heap _ _).1 Nat backend 0 0).2.2 _ _).2 ⟨[.object ⟨2⟩], [.object ⟨0⟩], rfl, rfl, ?_⟩
    refine .equal rfl (by decide) inherited (by decide +kernel) fun earlier listed => ?_
    obtain rfl := Value.object.inj (List.mem_singleton.1 listed)
    decide +kernel
  · refine (((search_exact schema heap _ _).1 Nat backend 2 5).2.2 _ _).2 ⟨[.object ⟨2⟩], [], rfl, rfl, ?_⟩
    have read : backend.identifier person ⟨2⟩ 3 = (.ok (some (.int 1)), 4) := rfl
    have first : Differs backend heap person ⟨"Person"⟩ (.int 2) (.object ⟨2⟩) 3 4 := .unlike rfl read (by decide)
    exact .identified rfl (by decide) (sought 2 (by decide)) (.cons first (.nil 4)) rfl rfl
  · refine (((search_exact schema heap _ _).1 Nat backend 0 2).1 _ _).2 ⟨?_, rfl⟩
    have split : [.object ⟨2⟩, .object ⟨3⟩] = [] ++ Value.object ⟨2⟩ :: [.object ⟨3⟩] := rfl
    exact .candidate rfl (by decide) (sought 0 (by decide)) split (.nil 1) rfl rfl

end Shortlists

end Reconciler.Counterpart
