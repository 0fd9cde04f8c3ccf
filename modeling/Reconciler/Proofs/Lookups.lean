import Reconciler.Proofs.Holdings

/-! # What a look-up finds

Nothing keeps two objects of a type from being stored under one identifier. A look-up then answers with the one
that has been stored for the longest time. So an object that was just persisted is found if and only if every other
object with its type and identifier that was there before it has been given up.
-/

namespace Reconciler

/-- One object was there when the other came in, and neither was given up since. -/
def Movement.Senior (movements : List Movement) (older younger : ObjectId) : Prop :=
  ∃ before after, movements = before ++ takenIn younger :: after ∧ ¬ Remains before younger ∧ Remains before older ∧
    givenUp younger ∉ after ∧ givenUp older ∉ after

/-- A stored object of a type that has an identifier. -/
structure Depot.Matches (depot : Depot) (type : TypeName) (property : String) (identifier : Value) (id : ObjectId) :
    Prop where
  stored : depot.store.contains id = true
  type_eq : (depot.heap.node id).type = type
  identifier_eq : (depot.heap.node id).attr property = identifier

namespace Movement

variable {movements : List Movement} {older younger id : ObjectId}

/-- What was taken in remains until it is given up. -/
theorem Remains.append (remains : Remains movements id) {more : List Movement} (kept : givenUp id ∉ more) :
    Remains (movements ++ more) id := by
  obtain ⟨before, after, rfl, spared⟩ := remains
  refine ⟨before, after ++ more, by rw [List.append_assoc, List.cons_append], fun given => ?_⟩
  exact (List.mem_append.1 given).elim spared kept

namespace Senior

private theorem append (senior : Senior movements older younger) {last : Movement} (kept : last ≠ givenUp older)
    (spared : last ≠ givenUp younger) : Senior (movements ++ [last]) older younger := by
  obtain ⟨before, after, rfl, new, there, neither, nor⟩ := senior
  refine ⟨before, after ++ [last], by rw [List.append_assoc, List.cons_append], new, there, ?_, ?_⟩
  · exact fun given => (List.mem_append.1 given).elim neither fun now => spared (List.mem_singleton.1 now).symm
  · exact fun given => (List.mem_append.1 given).elim nor fun now => kept (List.mem_singleton.1 now).symm

/-- Whoever comes in finds those that are there. -/
theorem of_remains (remains : Remains movements older) (new : ¬ Remains movements younger) :
    Senior (movements ++ [takenIn younger]) older younger :=
  ⟨movements, [], rfl, new, remains, List.not_mem_nil, List.not_mem_nil⟩

/-- Two objects did not both come in after the other. -/
theorem asymm (senior : Senior movements older younger) : ¬ Senior movements younger older := by
  obtain ⟨before, after, rfl, new, there, neither, nor⟩ := senior
  rintro ⟨sooner, later, split, new', there', neither', nor'⟩
  rcases List.append_eq_append_iff.1 split with ⟨between, rfl, rest⟩ | ⟨between, rfl, rest⟩
  · refine new' (there.append fun given => ?_)
    have listed : givenUp older ∈ takenIn younger :: after := rest ▸ List.mem_append_left _ given
    exact (List.mem_cons.1 listed).elim nofun nor
  · refine new (there'.append fun given => ?_)
    have listed : givenUp younger ∈ takenIn older :: later := rest ▸ List.mem_append_left _ given
    exact (List.mem_cons.1 listed).elim nofun nor'

end Senior

end Movement

namespace Depot

variable {depot : Depot} {movements : List Movement}

private theorem Accounts.takeIn_pairwise (accounts : depot.Accounts movements)
    (ranked : depot.store.stored.Pairwise (Movement.Senior movements)) (id : ObjectId) :
    (if id ∈ depot.store.stored then depot.store.stored else depot.store.stored ++ [id]).Pairwise
      (Movement.Senior (movements ++ [.takenIn id])) := by
  have onward : depot.store.stored.Pairwise (Movement.Senior (movements ++ [.takenIn id])) :=
    ranked.imp fun senior => senior.append nofun nofun
  split
  · exact onward
  · next new =>
    refine List.pairwise_append.2 ⟨onward, List.pairwise_singleton _ _, fun older listed last single => ?_⟩
    obtain rfl := List.mem_singleton.1 single
    exact .of_remains ((accounts.stored older).1 listed) fun remains => new ((accounts.stored last).2 remains)

private theorem Accounts.persist_pairwise (accounts : depot.Accounts movements)
    (ranked : depot.store.stored.Pairwise (Movement.Senior movements)) (id : ObjectId) {errand : Errand}
    (moves : ∀ answer, errand.movement? answer = (Errand.persist id).movement? answer) :
    (depot.persist id).2.store.stored.Pairwise
      (Movement.Senior (movements ++ (errand.movement? (depot.persist id).1).toList)) := by
  rw [moves, Depot.persist]
  rcases run : depot.store.persist depot.heap id with error | ⟨store, heap⟩
  · simpa [Errand.movement?] using ranked
  · obtain ⟨rfl, rfl⟩ := EntityStore.persist_eq run
    exact accounts.takeIn_pairwise ranked id

/-- What is stored stays in the order in which it came in, whatever the errand. -/
theorem Accounts.run_pairwise (accounts : depot.Accounts movements)
    (ranked : depot.store.stored.Pairwise (Movement.Senior movements)) (errand : Errand) :
    (depot.run errand).2.store.stored.Pairwise
      (Movement.Senior (movements ++ (errand.movement? (depot.run errand).1).toList)) := by
  have unmoved : depot.store.stored.Pairwise (Movement.Senior (movements ++ [])) := by rwa [List.append_nil]
  cases errand with
  | register | setAttribute | find => exact unmoved
  | persistNode node =>
    have allocated : Accounts { depot with heap := depot.heap.allocate node } movements :=
      ⟨accounts.stored, accounts.once, accounts.removed, accounts.faultless⟩
    refine allocated.persist_pairwise ranked depot.heap.fresh fun answer => ?_
    rcases answer with _ | _ | _ <;> rfl
  | persist id => exact accounts.persist_pairwise ranked id fun _ => rfl
  | remove id =>
    rw [Depot.run]
    rcases run : depot.store.remove depot.heap id with error | store
    · exact unmoved
    · obtain rfl := EntityStore.remove_eq run
      refine (ranked.filter _).imp_of_mem fun {older younger} first second senior => senior.append ?_ ?_
      · rintro ⟨⟩
        exact of_decide_eq_true (List.mem_filter.1 first).2 rfl
      · rintro ⟨⟩
        exact of_decide_eq_true (List.mem_filter.1 second).2 rfl

/-- After any errands the objects are stored in the order in which they came in. -/
theorem pairwise_history (heap : Heap) (errands : List Errand) :
    (history heap errands).1.store.stored.Pairwise (Movement.Senior (history heap errands).2) := by
  induction errands using List.reverseRecOn with
  | nil => exact .nil
  | append_singleton errands errand ih =>
    rw [history, List.foldl_append]
    exact (accounts_history heap errands).run_pairwise ih errand

/-- A search tells by what it looks at whether an object matches. -/
theorem matches_iff {type : TypeName} {property : String} {identifier : Value} {id : ObjectId} :
    depot.Matches type property identifier id ↔ id ∈ depot.store.stored ∧
      decide ((depot.heap.node id).type = type ∧ (depot.heap.node id).attr property = identifier) = true := by
  rw [decide_eq_true_iff, ← List.contains_iff_mem]
  exact ⟨fun ⟨stored, type, same⟩ => ⟨stored, type, same⟩, fun ⟨stored, type, same⟩ => ⟨stored, type, same⟩⟩

/-- A search through a ranked list finds whoever ranks before all others that pass. -/
theorem find?_eq_some_iff_foremost {α : Type} {ranks : α → α → Prop} {elements : List α}
    (ranked : elements.Pairwise ranks) (asymm : ∀ {one other}, ranks one other → ¬ ranks other one)
    {test : α → Bool} {found : α} :
    elements.find? test = some found ↔ (found ∈ elements ∧ test found = true) ∧
      ∀ other, other ∈ elements ∧ test other = true → other ≠ found → ranks found other := by
  have first {found : α} (search : elements.find? test = some found) :
      (found ∈ elements ∧ test found = true) ∧
        ∀ other, other ∈ elements ∧ test other = true → other ≠ found → ranks found other := by
    obtain ⟨tested, before, after, rfl, passed⟩ := List.find?_eq_some_iff_append.1 search
    refine ⟨⟨by simp, tested⟩, fun other ⟨listed, passes⟩ different => ?_⟩
    rcases List.mem_append.1 listed with earlier | later
    · have failed := passed other earlier
      rw [passes] at failed
      cases failed
    · have after := (List.mem_cons.1 later).resolve_left different
      exact (List.pairwise_cons.1 (List.pairwise_append.1 ranked).2.1).1 other after
  refine ⟨first, fun ⟨⟨listed, tested⟩, foremost⟩ => ?_⟩
  obtain ⟨other, search⟩ := Option.isSome_iff_exists.1 (List.find?_isSome.2 ⟨found, listed, tested⟩)
  obtain ⟨passes, before⟩ := first search
  by_cases same : found = other
  · exact same ▸ search
  · exact absurd (before found ⟨listed, tested⟩ same) (asymm (foremost other passes (Ne.symm same)))

/-- A look-up in a described type finds the most senior object that matches, if there is one. -/
theorem find_history (heap : Heap) (errands : List Errand) {type : TypeName} {entity : Entity}
    (described : (history heap errands).1.store.entity? type = some entity) (identifier : Value) :
    ∃ found?, ((history heap errands).1.run (.find type identifier)).1 = .ok found? ∧
      (∀ id, (history heap errands).1.Matches type entity.idProperty identifier id → found?.isSome = true) ∧
      ∀ found, found? = some found ↔ (history heap errands).1.Matches type entity.idProperty identifier found ∧
        ∀ other, (history heap errands).1.Matches type entity.idProperty identifier other → other ≠ found →
          Movement.Senior (history heap errands).2 found other := by
  have sound : (history heap errands).1.store.faults.get? .find = none := by
    rw [(accounts_history heap errands).faultless]
    rfl
  refine ⟨_, EntityStore.find_of_sound sound described identifier, ?_⟩
  simp only [matches_iff]
  refine ⟨fun id matching => List.find?_isSome.2 ⟨id, matching⟩, fun found => ?_⟩
  exact find?_eq_some_iff_foremost (pairwise_history heap errands) fun senior => senior.asymm

/-- An errand other than its removal leaves a stored object of a type that is not described anew where it is. -/
theorem run_keeps {errand : Errand} {id : ObjectId} (held : depot.heap.Holds id) (stored : id ∈ depot.store.stored)
    (unremoved : errand ≠ .remove id) {type : TypeName}
    (undescribed : ∀ entity, errand = .register entity → entity.type ≠ type) :
    (depot.run errand).2.heap.Holds id ∧ ((depot.run errand).2.heap.node id).type = (depot.heap.node id).type ∧
      id ∈ (depot.run errand).2.store.stored ∧
      (depot.run errand).2.store.entity? type = depot.store.entity? type := by
  have persisting : ∀ depot : Depot, depot.heap.Holds id → id ∈ depot.store.stored → ∀ other,
      (depot.persist other).2.heap.Holds id ∧
        ((depot.persist other).2.heap.node id).type = (depot.heap.node id).type ∧
        id ∈ (depot.persist other).2.store.stored ∧
        (depot.persist other).2.store.entity? type = depot.store.entity? type := by
    intro depot held stored other
    rw [persist]
    rcases run : depot.store.persist depot.heap other with error | ⟨store, heap⟩
    · exact ⟨held, rfl, stored, rfl⟩
    · obtain ⟨rfl, rfl⟩ := EntityStore.persist_eq run
      refine ⟨?_, Heap.type_edit _ _ _ _, ?_, rfl⟩
      · rwa [Heap.holds_edit]
      · dsimp only
        split
        · exact stored
        · exact List.mem_append_left _ stored
  cases errand with
  | register entity =>
    refine ⟨held, rfl, stored, ?_⟩
    exact (OrderedMap.get?_insert _ _ _ _).trans (if_neg (undescribed entity rfl))
  | persistNode node =>
    have grown : (depot.heap.allocate node).Holds id := Heap.holds_allocate.2 (.inl held)
    obtain ⟨holds, type, listed, described⟩ :=
      persisting { depot with heap := depot.heap.allocate node } grown stored depot.heap.fresh
    exact ⟨holds, type.trans (by rw [Heap.node_allocate_of_holds held]), listed, described⟩
  | persist other => exact persisting depot held stored other
  | setAttribute other name value =>
    refine ⟨?_, Heap.type_edit _ _ _ _, stored, rfl⟩
    rwa [run, Heap.holds_edit]
  | find => exact ⟨held, rfl, stored, rfl⟩
  | remove other =>
    rw [Depot.run]
    rcases run : depot.store.remove depot.heap other with error | store
    · exact ⟨held, rfl, stored, rfl⟩
    · obtain rfl := EntityStore.remove_eq run
      refine ⟨held, rfl, List.mem_filter.2 ⟨stored, decide_eq_true ?_⟩, rfl⟩
      rintro rfl
      exact unremoved rfl

/-- Errands other than its removal leave a stored object of a type that is not described anew where it is. -/
theorem foldl_keeps {errands : List Errand} (state : Depot × List Movement) {id : ObjectId}
    (held : state.1.heap.Holds id) (stored : id ∈ state.1.store.stored) (unremoved : .remove id ∉ errands)
    {type : TypeName} (undescribed : ∀ entity, .register entity ∈ errands → entity.type ≠ type) :
    ((errands.foldl log state).1.heap.node id).type = (state.1.heap.node id).type ∧
      id ∈ (errands.foldl log state).1.store.stored ∧
      (errands.foldl log state).1.store.entity? type = state.1.store.entity? type := by
  induction errands generalizing state with
  | nil => exact ⟨rfl, stored, rfl⟩
  | cons errand rest ih =>
    rw [List.mem_cons, not_or] at unremoved
    obtain ⟨holds, type_eq, listed, described⟩ := run_keeps held stored (Ne.symm unremoved.1)
      fun entity same => undescribed entity (same ▸ List.mem_cons_self)
    obtain ⟨type_eq', listed', described'⟩ := ih (log state errand) holds listed unremoved.2
      fun entity later => undescribed entity (List.mem_cons_of_mem _ later)
    exact ⟨type_eq'.trans type_eq, listed', described'.trans described⟩

/-- After an object of a described type was taken in, and as long as it is not removed, its type is not described
anew and its identifier stays, a look-up finds the object of the type and with the identifier that has been stored for
the longest time. This is the object itself if and only if none of the others that are stored was there before it
came in. -/
theorem find_takenIn (heap : Heap) {earlier later : List Errand} {errand : Errand} {id : ObjectId} {entity : Entity}
    {start final : Depot} {before after : List Movement}
    (started : history heap (earlier ++ [errand]) = (start, before))
    (ended : history heap (earlier ++ errand :: later) = (final, after))
    (taken : errand.movement? ((history heap earlier).1.run errand).1 = some (.takenIn id))
    (held : start.heap.Holds id) (described : start.store.entity? (start.heap.node id).type = some entity)
    (unremoved : .remove id ∉ later)
    (undescribed : ∀ other, .register other ∈ later → other.type ≠ (start.heap.node id).type)
    (identified : (final.heap.node id).attr entity.idProperty = (start.heap.node id).attr entity.idProperty) :
    let type := (start.heap.node id).type
    let identifier := (start.heap.node id).attr entity.idProperty
    let Matching := final.Matches type entity.idProperty identifier
    ∃ found, (final.run (.find type identifier)).1 = .ok (some found) ∧ Matching found ∧
      (∀ other, Matching other → other ≠ found → Movement.Senior after found other) ∧
      (found = id ↔ ∀ other, Matching other → ¬ Movement.Senior after other id) := by
  intro type identifier Matching
  have middle : log (history heap earlier) errand = (start, before) := by
    rw [← started, history, history, List.foldl_append]
    rfl
  have proceeds : later.foldl log (start, before) = (final, after) := by
    rw [← ended, ← middle, history, history, List.foldl_append]
    rfl
  have stored : id ∈ start.store.stored := by
    have accounts := accounts_history heap (earlier ++ [errand])
    have moved : before = (history heap earlier).2 ++ [.takenIn id] :=
      calc before = (history heap earlier).2 ++ (errand.movement? ((history heap earlier).1.run errand).1).toList :=
            (Prod.mk.inj middle).2.symm
        _ = (history heap earlier).2 ++ [.takenIn id] := by rw [taken, Option.toList_some]
    rw [started, moved] at accounts
    exact (accounts.stored id).2 ⟨_, [], rfl, List.not_mem_nil⟩
  obtain ⟨type_eq, listed, described'⟩ := foldl_keeps (start, before) held stored unremoved undescribed
  rw [proceeds] at type_eq listed described'
  obtain ⟨found?, run, finds, exact_find⟩ :=
    find_history heap (earlier ++ errand :: later) (by rw [ended, described', described]) identifier
  rw [ended] at run finds exact_find
  have matching : Matching id := matches_iff.2 ⟨listed, decide_eq_true ⟨type_eq, identified⟩⟩
  obtain ⟨found, rfl⟩ := Option.isSome_iff_exists.1 (finds id matching)
  obtain ⟨passes, foremost⟩ := (exact_find found).1 rfl
  refine ⟨found, run, passes, foremost, ?_, fun newest => ?_⟩
  · rintro rfl other matching' senior
    by_cases same : other = found
    · subst same
      exact senior.asymm senior
    · exact senior.asymm (foremost other matching' same)
  · by_contra different
    exact newest found passes (foremost id matching (Ne.symm different))

namespace Register

def person (number : Int64) : Node := .bean ⟨"Person"⟩ [("id", .int number)]

def entity : Entity := { type := ⟨"Person"⟩, idProperty := "id" }

def heap : Heap := ⟨#[person 7, person 7]⟩

/-- Two persons are persisted under one number. The second one is taken in, and a look-up finds the first. -/
theorem second_not_found :
    let depot := (history heap [.register entity, .persist ⟨0⟩]).1
    (depot.run (.persist ⟨1⟩)).1 = .ok (some ⟨1⟩) ∧ (depot.heap.node ⟨1⟩).type = entity.type ∧
      (depot.heap.node ⟨1⟩).attr entity.idProperty = .int 7 ∧
      ((depot.run (.persist ⟨1⟩)).2.run (.find entity.type (.int 7))).1 = .ok (some ⟨0⟩) ∧
      ¬ ((depot.run (.persist ⟨1⟩)).2.run (.find entity.type (.int 7))).1 = .ok (some ⟨1⟩) := by
  decide +kernel

/-- Once the first one is removed, the second one is found, and stays so when the first one comes back. -/
theorem second_found_after_removal :
    let errands := [Errand.register entity, .persist ⟨0⟩, .persist ⟨1⟩, .remove ⟨0⟩, .persist ⟨0⟩]
    ((history heap errands).1.run (.find entity.type (.int 7))).1 = .ok (some ⟨1⟩) ∧
      ∀ other, (history heap errands).1.Matches entity.type "id" (.int 7) other →
        ¬ Movement.Senior (history heap errands).2 other ⟨1⟩ := by
  intro errands
  obtain ⟨found, run, -, -, newest⟩ :=
    @find_takenIn heap [.register entity, .persist ⟨0⟩] [.remove ⟨0⟩, .persist ⟨0⟩] (.persist ⟨1⟩) ⟨1⟩ entity _ _ _ _
      rfl rfl (by decide +kernel) (by decide +kernel) (by decide +kernel) (by decide) (by simp) (by decide +kernel)
  have second : ((history heap errands).1.run (.find entity.type (.int 7))).1 = .ok (some ⟨1⟩) := by decide +kernel
  obtain rfl : found = ⟨1⟩ := by
    have same := run.symm.trans second
    cases same
    rfl
  exact ⟨second, newest.1 rfl⟩

end Register

end Depot

end Reconciler
