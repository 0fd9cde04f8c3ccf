import Reconciler.Traversal.Action

/-! # Counterparts among candidates

An element of a detached container is matched to one of the authoritative elements. An equal candidate
comes first. For an object the domain equality of its type decides next, and no other rule is tried
if the type has one; types without one match by type and identifier. A matched candidate is taken out,
so it is matched at most once, and the others keep their order.
-/

namespace Reconciler

/-- What a search asks of a store: which types are entity types, and what identifies an object. Any read of an
identifier may fail, and it leaves the store in a state in which the next one may come out differently. -/
structure Backend (σ : Type) where
  entity? : TypeName → Option Entity
  identifier : Entity → ObjectId → σ → Except StoreError (Option Value) × σ

/-- The store of a traversal, in the state of its outages. -/
def EntityStore.backend (store : EntityStore) (heap : Heap) : Backend Outages where
  entity? := store.entity?
  identifier entity id := call .identifier (store.identifier heap entity id)

namespace Counterpart

variable {σ : Type}

/-- Take out the first candidate that passes the test. The ones after it are not tested, and a test that fails
leaves all candidates where they are. -/
def draw (test : Value → σ → Except StoreError Bool × σ) :
    List Value → σ → Except StoreError (Option Value) × List Value × σ
  | [], state => (.ok none, [], state)
  | candidate :: rest, state =>
      match test candidate state with
      | (.error error, state) => (.error error, candidate :: rest, state)
      | (.ok true, state) => (.ok (some candidate), rest, state)
      | (.ok false, state) =>
          let (found?, others, state) := draw test rest state
          (found?, candidate :: others, state)

/-- A candidate object that the domain equality accepts. -/
def isEqual (heap : Heap) (equality : Equality) (id : ObjectId) (candidate : Value) : Bool :=
  candidate.object?.any (equality heap id)

/-- A candidate object of a type is asked for its identifier. -/
def isIdentified (backend : Backend σ) (heap : Heap) (entity : Entity) (type : TypeName) (identifier : Value) :
    Value → σ → Except StoreError Bool × σ
  | .object other, state =>
      if (heap.node other).type = type then
        let (identifier?, state) := backend.identifier entity other state
        (identifier?.map (fun found? => decide (found? = some identifier)), state)
      else (.ok false, state)
  | _, state => (.ok false, state)

/-- The counterpart of an object that equals none of the candidates, and the candidates after the search. -/
def searchObject (schema : Schema) (backend : Backend σ) (heap : Heap) (id : ObjectId) (candidates : List Value)
    (state : σ) : Except StoreError (Option Value) × List Value × σ :=
  let type := (heap.node id).type
  match schema.equality? type, backend.entity? type with
  | some equality, _ => draw (fun candidate state => (.ok (isEqual heap equality id candidate), state)) candidates state
  | none, none => (.ok none, candidates, state)
  | none, some entity =>
      match backend.identifier entity id state with
      | (.error error, state) => (.error error, candidates, state)
      | (.ok none, state) => (.ok none, candidates, state)
      | (.ok (some identifier), state) => draw (isIdentified backend heap entity type identifier) candidates state

/-- The counterpart of an element, and the candidates after the search. -/
def search (schema : Schema) (backend : Backend σ) (heap : Heap) (element : Value) (candidates : List Value)
    (state : σ) : Except StoreError (Option Value) × List Value × σ :=
  if element.isNull then (.ok none, candidates, state)
  else if element ∈ candidates then (.ok (some element), candidates.erase element, state)
  else
    match element.object? with
    | none => (.ok none, candidates, state)
    | some id => searchObject schema backend heap id candidates state

/-- What a search answers, with the candidates that it leaves. -/
def withRest (searched : Except StoreError (Option Value) × List Value × σ) :
    Except StoreError (Option Value × List Value) × σ :=
  (searched.1.map (·, searched.2.1), searched.2.2)

/-- The counterpart of an element in the store of a traversal, and the candidates that are left. -/
def take (schema : Schema) (store : EntityStore) (heap : Heap) (element : Value) (candidates : List Value)
    (outages : Outages) : Except StoreError (Option Value × List Value) × Outages :=
  withRest (search schema (store.backend heap) heap element candidates outages)

/-- Both are containers of one shape, so one can be brought up to date in place of the other. -/
def sameShape (heap : Heap) (left right : Value) : Bool :=
  match left.shape? heap, right.shape? heap with
  | some left, some right => decide (left = right)
  | _, _ => false

/-- The candidates of a map that is being matched. -/
structure Pool where
  keys : List Value
  values : List Value
deriving DecidableEq, Repr, Inhabited

/-- The value stored under a matched key, if it is a candidate. -/
def preferred? (entries : List (Value × Value)) (key? : Option Value) (values : List Value) : Option Value :=
  let under? := key?.bind fun matched =>
    (entries.find? (fun entry => decide (entry.1 = matched))).map Prod.snd
  (under?.filter (!·.isNull)).filter values.contains

/-- The candidates with the preferred one in front. -/
def preferring (preferred? : Option Value) (values : List Value) : List Value :=
  match preferred? with
  | some under => under :: values.erase under
  | none => values

/-- The preferred candidate stands in for a value without a match if both are containers of one shape. -/
def matchedOr (heap : Heap) (value : Value) (preferred? value? : Option Value) (rest : List Value) :
    Option Value × List Value :=
  match value?, preferred? with
  | none, some under =>
      if sameShape heap value under then (some under, rest.erase under) else (none, rest)
  | _, _ => (value?, rest)

/-- The counterparts of the key and of the value of one detached entry. Keys and values are matched on
their own, except that among several matches the value stored under the matched key comes first, and
that it also stands in for a value without a match if both are containers of one shape. -/
def takeEntry (schema : Schema) (store : EntityStore) (heap : Heap) (entries : List (Value × Value))
    (key value : Value) (pool : Pool) (outages : Outages) :
    Except StoreError ((Option Value × Option Value) × Pool) × Outages :=
  match take schema store heap key pool.keys outages with
  | (.error error, outages) => (.error error, outages)
  | (.ok (key?, keys), outages) =>
      let under? := preferred? entries key? pool.values
      match take schema store heap value (preferring under? pool.values) outages with
      | (.error error, outages) => (.error error, outages)
      | (.ok (value?, rest), outages) =>
          let (value?, values) := matchedOr heap value under? value? rest
          (.ok ((key?, value?), ⟨keys, values⟩), outages)

section Search

variable {schema : Schema} {backend : Backend σ} {heap : Heap} {candidates rest : List Value} {found? : Option Value}
  {state after : σ}

private theorem perm_draw {test : Value → σ → Except StoreError Bool × σ}
    (run : draw test candidates state = (.ok found?, rest, after)) : (found?.toList ++ rest).Perm candidates := by
  induction candidates generalizing state rest with
  | nil =>
    cases run
    exact .refl _
  | cons candidate candidates ih =>
    rw [draw] at run
    rcases tested : test candidate state with ⟨_ | _ | _, middle⟩
    · rw [tested] at run
      cases run
    · rw [tested] at run
      rcases drawn : draw test candidates middle with ⟨other?, others, last⟩
      simp only [drawn] at run
      obtain ⟨rfl, rfl, rfl⟩ : other? = .ok found? ∧ candidate :: others = rest ∧ last = after := by simpa using run
      exact List.perm_middle.trans ((ih drawn).cons candidate)
    · rw [tested] at run
      cases run
      exact .refl _

private theorem perm_searchObject {id : ObjectId}
    (run : searchObject schema backend heap id candidates state = (.ok found?, rest, after)) :
    (found?.toList ++ rest).Perm candidates := by
  unfold searchObject at run
  dsimp only at run
  split at run
  · exact perm_draw run
  · cases run
    exact .refl _
  · split at run
    · cases run
    · cases run
      exact .refl _
    · exact perm_draw run

/-- What is found and what is left are the candidates. -/
private theorem perm_search {element : Value}
    (run : search schema backend heap element candidates state = (.ok found?, rest, after)) :
    (found?.toList ++ rest).Perm candidates := by
  unfold search at run
  split at run
  · cases run
    exact .refl _
  split at run
  · next listed =>
    cases run
    exact (List.perm_cons_erase listed).symm
  split at run
  · cases run
    exact .refl _
  · exact perm_searchObject run

end Search

section

variable {schema : Schema} {store : EntityStore} {heap : Heap} {outages after : Outages}

private theorem search_of_take {element : Value} {candidates : List Value} {outcome : Option Value × List Value}
    (run : take schema store heap element candidates outages = (.ok outcome, after)) :
    search schema (store.backend heap) heap element candidates outages = (.ok outcome.1, outcome.2, after) := by
  unfold take at run
  rcases searched : search schema (store.backend heap) heap element candidates outages with ⟨_ | found?, rest, last⟩
  · rw [searched] at run
    cases run
  · rw [searched] at run
    cases run
    rfl

theorem perm_take {element : Value} {candidates : List Value} {outcome : Option Value × List Value}
    (run : take schema store heap element candidates outages = (.ok outcome, after)) :
    (outcome.1.toList ++ outcome.2).Perm candidates :=
  perm_search (search_of_take run)

private theorem mem_of_preferred? {entries : List (Value × Value)} {key? : Option Value} {values : List Value}
    {under : Value} (preferred : preferred? entries key? values = some under) : under ∈ values :=
  List.contains_iff_mem.1 (Option.filter_eq_some_iff.1 preferred).2

/-- The value that comes first is one of the candidates, so only their order is another one. -/
private theorem perm_preferring (entries : List (Value × Value)) (key? : Option Value) (values : List Value) :
    (preferring (preferred? entries key? values) values).Perm values := by
  rcases preferred : preferred? entries key? values with _ | under
  · exact .refl _
  · exact (List.perm_cons_erase (mem_of_preferred? preferred)).symm

private theorem matchedOr_of_shapeless {value : Value} (shapeless : value.shape? heap = none)
    (preferred? value? : Option Value) (rest : List Value) :
    matchedOr heap value preferred? value? rest = (value?, rest) := by
  rcases value? with _ | matched
  · rcases preferred? with _ | under
    · rfl
    · have other : sameShape heap value under = false := by rw [sameShape, shapeless]
      simp only [matchedOr, other, Bool.false_eq_true, if_false]
  · rfl

/-- Without a match the candidate that came first is still there to stand in. -/
private theorem perm_matchedOr {value : Value} {preferred? value? : Option Value} {values rest : List Value}
    (drawn : (value?.toList ++ rest).Perm (preferring preferred? values)) :
    ((matchedOr heap value preferred? value? rest).1.toList ++ (matchedOr heap value preferred? value? rest).2).Perm
      (preferring preferred? values) := by
  unfold matchedOr
  split
  · next under =>
    split
    · have listed : under ∈ rest := drawn.mem_iff.2 List.mem_cons_self
      exact (List.perm_cons_erase listed).symm.trans drawn
    · exact drawn
  · exact drawn

section Entry

variable {entries : List (Value × Value)} {key value : Value} {pool : Pool}

theorem takeEntry_of_taken {middle : Outages} {key? under? value? : Option Value} {keys rest : List Value}
    (keyed : take schema store heap key pool.keys outages = (.ok (key?, keys), middle))
    (preferred : preferred? entries key? pool.values = under?)
    (valued : take schema store heap value (preferring under? pool.values) middle = (.ok (value?, rest), after)) :
    takeEntry schema store heap entries key value pool outages =
      (.ok ((key?, (matchedOr heap value under? value? rest).1), ⟨keys, (matchedOr heap value under? value? rest).2⟩),
        after) := by
  subst preferred
  simp only [takeEntry, keyed, valued]

/-- An entry is taken if its key is taken and then its value. -/
private theorem taken_of_takeEntry {outcome : (Option Value × Option Value) × Pool}
    (run : takeEntry schema store heap entries key value pool outages = (.ok outcome, after)) :
    ∃ key? keys value? rest middle,
      take schema store heap key pool.keys outages = (.ok (key?, keys), middle) ∧
      take schema store heap value (preferring (preferred? entries key? pool.values) pool.values) middle =
        (.ok (value?, rest), after) ∧
      outcome = ((key?, (matchedOr heap value (preferred? entries key? pool.values) value? rest).1),
        ⟨keys, (matchedOr heap value (preferred? entries key? pool.values) value? rest).2⟩) := by
  unfold takeEntry at run
  rcases keyed : take schema store heap key pool.keys outages with ⟨_ | ⟨key?, keys⟩, middle⟩
  · rw [keyed] at run
    cases run
  rw [keyed] at run
  dsimp only at run
  rcases valued :
      take schema store heap value (preferring (preferred? entries key? pool.values) pool.values) middle with
    ⟨_ | ⟨value?, rest⟩, last⟩
  · rw [valued] at run
    cases run
  · rw [valued] at run
    cases run
    exact ⟨key?, keys, value?, rest, middle, rfl, valued, rfl⟩

/-- What is no container finds its counterpart among the values, whichever of them comes first. -/
theorem takeEntry_of_shapeless {middle : Outages} {key? : Option Value} {keys : List Value}
    (keyed : take schema store heap key pool.keys outages = (.ok (key?, keys), middle))
    (shapeless : value.shape? heap = none) :
    ∃ values, values.Perm pool.values ∧ ∀ value? rest,
      take schema store heap value values middle = (.ok (value?, rest), after) →
        takeEntry schema store heap entries key value pool outages = (.ok ((key?, value?), ⟨keys, rest⟩), after) := by
  refine ⟨_, perm_preferring entries key? pool.values, fun value? rest valued => ?_⟩
  rw [takeEntry_of_taken keyed rfl valued, matchedOr_of_shapeless shapeless]

theorem perm_takeEntry {rest : Pool} {key? value? : Option Value}
    (run : takeEntry schema store heap entries key value pool outages = (.ok ((key?, value?), rest), after)) :
    (key?.toList ++ rest.keys).Perm pool.keys ∧ (value?.toList ++ rest.values).Perm pool.values := by
  obtain ⟨matched?, keys, bound?, values, middle, keyed, valued, same⟩ := taken_of_takeEntry run
  cases same
  exact ⟨perm_take keyed, (perm_matchedOr (perm_take valued)).trans (perm_preferring ..)⟩

end Entry

/-- Testing candidates only makes calls. -/
private theorem spends_draw {test : Value → Outages → Except StoreError Bool × Outages}
    (tests : ∀ candidate (outages : Outages), outages.Spends (test candidate outages).2) (candidates : List Value)
    (outages : Outages) : outages.Spends (draw test candidates outages).2.2 := by
  induction candidates generalizing outages with
  | nil => exact .refl outages
  | cons candidate candidates ih =>
    have tested := tests candidate outages
    rw [draw]
    generalize test candidate outages = outcome at tested ⊢
    rcases outcome with ⟨_ | _ | _, middle⟩
    · exact tested
    · exact tested.trans (ih middle)
    · exact tested

private theorem spends_identifier (entity : Entity) (id : ObjectId) (outages : Outages) :
    outages.Spends ((store.backend heap).identifier entity id outages).2 :=
  EntityStore.spends_call ..

private theorem spends_isIdentified (entity : Entity) (type : TypeName) (identifier candidate : Value)
    (outages : Outages) :
    outages.Spends (isIdentified (store.backend heap) heap entity type identifier candidate outages).2 := by
  unfold isIdentified
  split
  · next other =>
    split
    · have read : outages.Spends ((store.backend heap).identifier entity other outages).2 := spends_identifier ..
      exact read
    · exact .refl _
  · exact .refl _

private theorem spends_searchObject (id : ObjectId) (candidates : List Value) (outages : Outages) :
    outages.Spends (searchObject schema (store.backend heap) heap id candidates outages).2.2 := by
  unfold searchObject
  dsimp only
  split
  · exact spends_draw (fun _ _ => .refl _) candidates outages
  · exact .refl _
  · next entity _ _ =>
    have read : outages.Spends ((store.backend heap).identifier entity id outages).2 := spends_identifier ..
    generalize (store.backend heap).identifier entity id outages = outcome at read ⊢
    rcases outcome with ⟨_ | _ | identifier, middle⟩
    · exact read
    · exact read
    · exact read.trans (spends_draw (spends_isIdentified entity _ identifier) candidates middle)

/-- A search makes calls and does nothing else. -/
theorem spends_take (element : Value) (candidates : List Value) (outages : Outages) :
    outages.Spends (take schema store heap element candidates outages).2 := by
  show outages.Spends (search schema (store.backend heap) heap element candidates outages).2.2
  unfold search
  split
  · exact .refl _
  split
  · exact .refl _
  split
  · exact .refl _
  · exact spends_searchObject ..

theorem spends_takeEntry (entries : List (Value × Value)) (key value : Value) (pool : Pool) (outages : Outages) :
    outages.Spends (takeEntry schema store heap entries key value pool outages).2 := by
  have keyed : outages.Spends (take schema store heap key pool.keys outages).2 := spends_take ..
  unfold takeEntry
  generalize take schema store heap key pool.keys outages = outcome at keyed ⊢
  rcases outcome with ⟨_ | ⟨key?, keys⟩, middle⟩
  · exact keyed
  dsimp only
  have valued : middle.Spends
    (take schema store heap value (preferring (preferred? entries key? pool.values) pool.values) middle).2 :=
      spends_take ..
  generalize
    take schema store heap value (preferring (preferred? entries key? pool.values) pool.values) middle = outcome
    at valued ⊢
  rcases outcome with ⟨_ | _, last⟩
  · exact keyed.trans valued
  · exact keyed.trans valued

/-- A counterpart, if there is one, was a candidate, and so were those that are left. -/
structure Drawn (candidates : List Value) (outcome : Option Value × List Value) : Prop where
  counterpart : ∀ matched, outcome.1 = some matched → matched ∈ candidates
  rest : outcome.2 ⊆ candidates

theorem Drawn.of_perm {candidates : List Value} {outcome : Option Value × List Value}
    (perm : (outcome.1.toList ++ outcome.2).Perm candidates) : Drawn candidates outcome where
  counterpart _ same := perm.subset (List.mem_append_left _ (Option.mem_toList.2 same))
  rest _ left := perm.subset (List.mem_append_right _ left)

theorem drawn_take {element : Value} {candidates : List Value} {outcome : Option Value × List Value}
    (run : take schema store heap element candidates outages = (.ok outcome, after)) : Drawn candidates outcome :=
  .of_perm (perm_take run)

theorem drawn_takeEntry {entries : List (Value × Value)} {key value : Value} {pool rest : Pool}
    {key? value? : Option Value}
    (run : takeEntry schema store heap entries key value pool outages = (.ok ((key?, value?), rest), after)) :
    Drawn pool.keys (key?, rest.keys) ∧ Drawn pool.values (value?, rest.values) :=
  ⟨.of_perm (perm_takeEntry run).1, .of_perm (perm_takeEntry run).2⟩

end

end Counterpart

end Reconciler
