import Reconciler.Proofs.Episode

/-! # The engine runs through episodes

One lemma for each function of the engine, for those that detach and those that reconcile, in the order in which
they call one another, and an induction on the fuel at the end. What else holds of every run is concluded from its
episode; only that the fuel is enough is shown along the functions once more.
-/

namespace Reconciler

open Reconciler.Action

/-- The keys and values of some entries, one entry after the other or the keys first. -/
private theorem List.perm_flatMap_entries (entries : List (Value × Value)) :
    (entries.flatMap (fun entry => [entry.1, entry.2])).Perm (entries.map Prod.fst ++ entries.map Prod.snd) := by
  induction entries with
  | nil => exact .refl _
  | cons entry rest ih =>
    refine .cons _ ((ih.cons _).trans ?_)
    exact List.perm_middle.symm

private theorem Trade.filterMap_cons (trade : Trade) (trades : List Trade) :
    (trade :: trades).filterMap counterpart? = trade.counterpart?.toList ++ trades.filterMap counterpart? := by
  rw [List.filterMap_cons]
  cases trade.counterpart? <;> rfl

section Resolving

variable {now : World} {source : ObjectId}

/-- An object under a handler that rebuilds nothing is passed through. -/
private theorem resolves_inert {handler : Handler} (known : now.handler? source = some handler)
    (idle : handler ∈ [.basic, .null, .frozen]) :
    Resolves now source (if handler = .null then .null else .object source) := by
  have stands : now.standIn source = if handler = .null then .null else .object source := by
    simp [World.standIn, known]
  exact stands ▸ .inert known idle

/-- An object whose counterpart is no entity is passed through. -/
private theorem resolves_unmanaged {counterpart : Value} (recorded : now.visits.get? source = some counterpart)
    (unhandled : now.handler? source = none) (other : ∀ target, counterpart = .object target →
      now.store.entity? (now.heap.node target).type = none) :
    Resolves now source (.object source) :=
  World.standIn_of_unhandled unhandled ▸ .unmanaged recorded unhandled other

/-- Scalars pass through all handlers but the one for lazy handles. -/
private theorem resolved_scalar {scalar result : Value} (other : ∀ source, scalar ≠ .object source)
    (same : now.dispatch.registry.ofValue now.heap scalar ∈ [none, some .basic] → result = scalar) :
    Resolved now scalar result := by
  cases scalar with
  | object source => exact absurd rfl (other source)
  | _ => exact same

/-- An event changes nothing that matters for what a value resolves to. -/
private theorem resolved_note {detached result : Value} (event : Event) (resolved : Resolved now detached result) :
    Resolved (note event now).2 detached result := by
  cases detached with
  | object source =>
    cases resolved with
    | recorded known => exact .recorded known
    | inert known idle =>
      have passed : Resolves (note event now).2 source ((note event now).2.standIn source) := .inert known idle
      exact passed
    | unmanaged known unhandled other =>
      have passed : Resolves (note event now).2 source ((note event now).2.standIn source) :=
        .unmanaged known unhandled other
      exact passed
  | _ => exact resolved

end Resolving

private theorem Action.ok_note (event : Event) (world : World) : note event world = (.ok (), (note event world).2) :=
  rfl

private theorem Action.heap_note (event : Event) (world : World) : (note event world).2.heap = world.heap :=
  rfl

namespace Episode

variable {setting : Setting} {request : Request} {phase : Phase} {now middle : World} {source target : ObjectId}

/-- A treatment that fails. -/
abbrev Fails (setting : Setting) (request : Request) (now : World) (ending : Ending) (after : World) : Prop :=
  Episode setting request (.failed ending) now after

/-- Requests are answered or fail in episodes, wherever they are made. -/
def Asks (setting : Setting) (ask : Request → Action Value) : Prop :=
  ∀ inner middle, (ask inner).Ensures middle (Fails setting inner middle)
    (fun result after => Episode setting inner (.replied result) middle after)

private theorem stopped (episode : Episode setting request phase now middle) (fragile : phase.Fragile request)
    {ending : Ending}
    (other : ∀ type identifier, ending ≠ .failed (.entityNotFound type identifier)) :
    Fails setting request now ending middle :=
  episode.moved (.stopped fragile other)

private theorem spent (episode : Episode setting request phase now middle) (searching : phase.Searching)
    {outages : Outages}
    (spent : middle.outages.Spends outages) : Episode setting request phase now { middle with outages } :=
  episode.moved (.idle searching rfl rfl spent)

/-- As long as no object has changed, the handlers are those that there were. -/
theorem handler?_eq (episode : Episode setting request phase now middle) (same : middle.heap = now.heap) :
    middle.handler? source = now.handler? source := by
  rw [World.handler?, World.handler?, episode.later.registry, same]

/-- Something else is asked for in the treatment of a request. -/
private theorem Asks.ensures {ask : Request → Action Value} (asks : Asks setting ask) {inner : Request}
    {next : Value → Phase} (episode : Episode setting request phase now middle)
    (call : Subrequest setting request now phase middle inner next) :
    (ask inner).Ensures middle (Fails setting request now) (fun result after =>
      Episode setting request (next result) now after ∧ Episode setting inner (.replied result) middle after) where
  ended ending after run := .broken episode call ((asks inner middle).ended ending after run)
  answered result after run :=
    have answered := (asks inner middle).answered result after run
    ⟨.called episode call answered, answered⟩

/-- A treated object resolves to the counterpart that is recorded for it. -/
private theorem settled_recorded {result : Value} (treated : Episode setting request .settled now middle ∧
      middle.visits.get? source = some result) :
    Episode setting request .settled now middle ∧ Resolves middle source result :=
  treated.imp_right .recorded

/-- What a request that reconciles was answered with. -/
private theorem resolved {result : Value} {after : World}
    (answered : Episode setting request (.replied result) now after)
    {detached : Value} (reconciled : request.reconciled? = some detached) (present : detached ≠ .null) :
    Resolved after detached result := by
  have reconciling : request.Reconciling := by
    rintro value rfl
    cases reconciled
  generalize reply : Phase.replied result = phase at answered
  cases answered with
  | exhausted | asked | broken => cases reply
  | moved episode move =>
    cases move with
    | replied yields =>
      cases reply
      exact resolved_note _ ((yields reconciling).resolved detached reconciled present)
    | idle searching =>
      subst reply
      exact searching.elim
    | _ => cases reply
  | called episode call answered =>
    cases call <;> cases reply

/-- The handler of a value is looked up and remembered. -/
private theorem ensures_handlerOf (value : Value) (episode : Episode setting request phase now middle)
    (searching : phase.Searching) :
    (handlerOf value).Ensures middle (Fails setting request now) (fun handler? after =>
      Episode setting request phase now after ∧ after.heap = middle.heap ∧ after.visits = middle.visits ∧
        after.dispatch.registry.ofValue after.heap value = handler?) := by
  apply (answers_handlerOf value).ensures.weaken
  rintro _ _ ⟨rfl, dispatch, same, rfl⟩
  exact ⟨episode.moved (.idle searching same rfl (.refl _)), rfl, rfl, congrArg (·.ofValue middle.heap value) same⟩

/-- Metadata is looked up and remembered. -/
private theorem ensures_metadataOf (id : ObjectId) (episode : Episode setting request phase now middle)
    (searching : phase.Searching) :
    (metadataOf setting id).Ensures middle (Fails setting request now) (fun metadata? after =>
      Episode setting request phase now after ∧ metadata? = after.metadata? setting id ∧
        ∃ cache, after = { middle with cache }) := by
  apply (answers_metadataOf setting id).ensures.weaken
  rintro _ _ ⟨known, cache, same, rfl⟩
  refine ⟨episode.moved (.idle searching rfl same (.refl _)), ?_, cache, rfl⟩
  rw [known, World.metadata?, World.metadata?, same]

/-- A part of an object is asked for while the object is treated. -/
def Answers (setting : Setting) (request : Request) (now : World) (source : ObjectId) (counterpart : Value)
    (ask : Value → Action Value) (part : Value) : Prop :=
  ∀ middle, Episode setting request (.busy source counterpart) now middle →
    (ask part).Ensures middle (Fails setting request now) (fun result after =>
      Episode setting request (.busy source counterpart) now after ∧ middle.Later after ∧
        ∃ inner, .answered inner result ∈ after.journal)

section Rebuilding

variable {ask : Value → Action Value}

section Filling

variable {copy : ObjectId}
  (parts : ∀ part ∈ (now.heap.node source).members, Answers setting request now source (.object copy) ask part)
  (new : ¬ now.heap.Holds copy) (treated : Episode setting request (.busy source (.object copy)) now middle)

include parts new treated

private theorem ensures_fillCollection :
    (fillCollection ask (now.heap.node source) copy).Ensures middle (Fails setting request now)
      (fun _ after => Episode setting request (.busy source (.object copy)) now after) := by
  apply ensures_forM (fun _ after => Episode setting request (.busy source (.object copy)) now after) treated
  intro done item rest split one treated
  have listed : item ∈ (now.heap.node source).items := split ▸ List.mem_append_right _ List.mem_cons_self
  apply (parts item (Node.mem_members_of_items listed) one treated).bind
  rintro image two ⟨treated, -, answered⟩
  exact ensures_of_ok rfl
    (treated.moved (.filled new (.element image) nofun (List.forall_mem_singleton.2 answered)))

private theorem ensures_fillMap :
    (fillMap ask (now.heap.node source) copy).Ensures middle (Fails setting request now)
      (fun _ after => Episode setting request (.busy source (.object copy)) now after) := by
  apply ensures_forM (fun _ after => Episode setting request (.busy source (.object copy)) now after) treated
  rintro done ⟨key, value⟩ rest split one treated
  have listed : (key, value) ∈ (now.heap.node source).bindings :=
    split ▸ List.mem_append_right _ List.mem_cons_self
  obtain ⟨keyed, valued⟩ := Node.mem_members_of_bindings listed
  apply (parts key keyed one treated).bind
  rintro image two ⟨treated, -, inner, answered⟩
  apply (parts value valued two treated).bind
  rintro bound three ⟨treated, later, answers⟩
  have supplied : ∀ value ∈ (Edit.bind image bound).values, ∃ inner, .answered inner value ∈ three.journal :=
    List.forall_mem_cons.2 ⟨⟨inner, later.journal.subset answered⟩, List.forall_mem_singleton.2 answers⟩
  exact ensures_of_ok rfl (treated.moved (.filled new (.entry image bound) nofun supplied))

private theorem ensures_fillSlots (objects : (now.heap.node source).hasScalarSlots = false) :
    (fillArray ask (now.heap.node source) copy).Ensures middle (Fails setting request now)
      (fun _ after => Episode setting request (.busy source (.object copy)) now after) := by
  unfold fillArray
  rw [objects, if_neg Bool.false_ne_true]
  apply ensures_forM (fun _ after => Episode setting request (.busy source (.object copy)) now after) treated
  rintro done ⟨item, index⟩ rest split one treated
  have listed : (item, index) ∈ (now.heap.node source).items.zipIdx :=
    split ▸ List.mem_append_right _ List.mem_cons_self
  apply (parts item (Node.mem_members_of_items (List.fst_mem_of_mem_zipIdx listed)) one treated).bind
  rintro image two ⟨treated, -, answered⟩
  exact ensures_of_ok rfl
    (treated.moved (.filled new (.slot index image) nofun (List.forall_mem_singleton.2 answered)))

end Filling

variable (opened : Episode setting request .opened now middle)

include opened

/-- A container is rebuilt, whatever `fill` puts into it. -/
private theorem ensures_rebuild {fill : Node → ObjectId → Action Unit}
    (alone : Alone request source (middle.handler? source ≠ none)) (unvisited : middle.visits.get? source = none)
    (fills : ∀ copy after, ¬ now.heap.Holds copy → Episode setting request (.busy source (.object copy)) now after →
      (fill (now.heap.node source) copy).Ensures after (Fails setting request now)
        (fun _ after => Episode setting request (.busy source (.object copy)) now after)) :
    (rebuild fill source).Ensures middle (Fails setting request now) (fun result after =>
      Episode setting request .settled now after ∧ after.visits.get? source = some result) := by
  have heap := opened.reaches.heap
  have new : ¬ now.heap.Holds middle.heap.fresh := heap ▸ middle.heap.not_holds_fresh
  have filling := fills _ _ new (opened.moved (.rebuilding alone unvisited))
  rw [← heap] at filling
  refine ensures_look_bind (ensures_bind_of_eq rfl (ensures_bind_of_eq rfl (ensures_bind_of_eq rfl ?_)))
  apply filling.bind
  intro _ after filled
  refine ensures_pure ⟨filled.moved (.closed fun target same held => ?_), filled.reaches.2⟩
  exact absurd (Value.object.inj same ▸ held) new

private theorem ensures_rebuildValue {handler : Handler} {value : Value}
    (single : ∀ source target, request ≠ .applyTo (.object source) (.object target))
    (alone : ∀ source, value = .object source → Alone request source (middle.handler? source ≠ none))
    (unvisited : ∀ source, value = .object source → middle.visits.get? source = none)
    (known : middle.dispatch.registry.ofValue middle.heap value = some handler)
    (parts : ∀ source copy, value = .object source → ∀ part ∈ (now.heap.node source).members,
      Answers setting request now source (.object copy) ask part) :
    (handler.rebuildValue ask value).Ensures middle (Fails setting request now) (fun result after =>
      Episode setting request .settled now after ∧ Resolved after value result) := by
  have passed : Episode setting request .settled now middle :=
    opened.moved (.passed fun source target pair => absurd pair (single source target))
  rcases object : value.object? with _ | source
  · have other : ∀ source, value ≠ .object source := by
      rintro source rfl
      cases object
    have went : handler.rebuildValue ask value middle =
        (.ok (if handler = .null then .null else value), middle) := by
      cases value with
      | object source => exact absurd rfl (other source)
      | _ => cases handler <;> rfl
    refine ensures_of_ok went ⟨passed, resolved_scalar other fun plain => ?_⟩
    rw [known] at plain
    simp only [List.mem_cons, reduceCtorEq, Option.some.injEq, List.not_mem_nil, or_false, false_or] at plain
    rw [plain, if_neg (by decide)]
  obtain rfl := (Value.object?_eq_some_iff _ _).1 object
  have fresh := unvisited source rfl
  have lonely := alone source rfl
  cases handler with
  | basic => exact ensures_pure ⟨passed, resolves_inert known (by decide)⟩
  | null => exact ensures_pure ⟨passed, resolves_inert known (by decide)⟩
  | frozen => exact ensures_pure ⟨passed, resolves_inert known (by decide)⟩
  | collection =>
    refine (ensures_rebuild opened lonely fresh ?_).weaken fun _ _ => settled_recorded
    exact fun copy after new treated => ensures_fillCollection (parts source copy rfl) new treated
  | map =>
    refine (ensures_rebuild opened lonely fresh ?_).weaken fun _ _ => settled_recorded
    exact fun copy after new treated => ensures_fillMap (parts source copy rfl) new treated
  | array =>
    rcases plain : (now.heap.node source).hasScalarSlots with _ | _
    · refine (ensures_rebuild opened lonely fresh ?_).weaken fun _ _ => settled_recorded
      exact fun copy after new treated => ensures_fillSlots (parts source copy rfl) new treated plain
    · rw [← opened.reaches.heap] at plain
      refine ensures_look_bind (ensures_bind_of_eq rfl (ensures_bind_of_eq rfl (ensures_bind_of_eq rfl ?_)))
      refine ensures_bind_of_eq (congrFun (if_pos plain) _) (ensures_pure ⟨?_, .recorded ?_⟩)
      · exact opened.moved (.copied lonely fresh known plain)
      · exact World.Later.visits_record _ _ _

end Rebuilding

section Detaching

variable {ask : Value → Action Value} {counterpart : Value} (detaches : request.Detaches)

include detaches

private theorem ensures_unloadedPart (value : Value)
    (treated : Episode setting request (.busy source counterpart) now middle) :
    (unloadedPart setting value).Ensures middle (Fails setting request now)
      (fun _ after => Episode setting request (.busy source counterpart) now after) := by
  unfold unloadedPart
  split
  · apply ensures_look_bind
    split
    · next empty =>
      refine ensures_bind_of_eq rfl (ensures_pure ?_)
      exact treated.moved (.allocated detaches (Bool.and_eq_true_iff.1 empty).1)
    · exact ensures_pure treated
  · exact ensures_pure treated

variable (parts : ∀ part, Answers setting request now source counterpart ask part)

include parts

private theorem ensures_detachedPart (value : Value)
    (treated : Episode setting request (.busy source counterpart) now middle) :
    (detachedPart setting ask value).Ensures middle (Fails setting request now)
      (fun _ after => Episode setting request (.busy source counterpart) now after) := by
  unfold detachedPart
  split
  · exact ensures_pure treated
  apply ensures_look_bind
  split
  · exact (parts value middle treated).weaken fun _ _ answered => answered.1
  · exact ensures_unloadedPart detaches value treated

end Detaching

section Beans

variable {ask : Value → Action Value} (detaches : request.Detaches)
  (parts : ∀ part, Answers setting request now source (.object target) ask part)
  (unhandled : now.handler? source = none)

include detaches parts unhandled

/-- The detached bean takes what takes the place of a property value. -/
private theorem ensures_disconnectProperty (metadata : Metadata) (property : String)
    (treated : Episode setting request (.busy source (.object target)) now middle) :
    (disconnectProperty setting ask metadata source target property).Ensures middle (Fails setting request now)
      (fun _ after => Episode setting request (.busy source (.object target)) now after) := by
  apply (ensures_readProperty fun _ => treated.stopped trivial nofun).bind
  rintro value _ ⟨rfl, -⟩
  apply (ensures_detachedPart detaches parts value treated).bind
  intro detached after treated
  apply ensures_writeProperty fun _ => treated.stopped trivial nofun
  intro change made
  have written := treated.moved (.detached detaches unhandled made)
  exact ⟨fun _ => written.stopped trivial nofun, fun _ => written⟩

/-- An object is detached once it is clear which bean takes its values. -/
private theorem ensures_disconnectProperties {β : Type} {answer : β}
    (treated : Episode setting request (.busy source (.object target)) now middle) :
    (do
      flushFirst setting
      match ← metadataOf setting source with
      | none => return answer
      | some metadata =>
          metadata.names.forM (disconnectProperty setting ask metadata source target)
          return answer : Action β).Ensures middle (Fails setting request now)
      (fun _ after => Episode setting request .settled now after) := by
  have closing : ∀ after, Episode setting request (.busy source (.object target)) now after →
      Episode setting request .settled now after := by
    refine fun after treated => treated.moved (.closed fun _ _ _ handled => ?_)
    simp [unhandled] at handled
  apply (ensures_flushFirst fun _ _ spent => (treated.spent trivial spent).stopped trivial nofun).bind
  rintro _ _ ⟨store, outages, kept, spent, rfl⟩
  apply (ensures_metadataOf source (treated.moved (.flushed detaches kept spent)) trivial).bind
  rintro metadata? after ⟨treated, -⟩
  cases metadata? with
  | none => exact ensures_pure (closing after treated)
  | some metadata =>
    apply Ensures.bind (ensures_forM
      (fun _ after => Episode setting request (.busy source (.object target)) now after) treated ?_)
    · exact fun _ after treated => ensures_pure (closing after treated)
    · exact fun done property rest split one treated =>
        ensures_disconnectProperty detaches parts unhandled metadata property treated

end Beans

private theorem ensures_disconnectObject {ask : Value → Action Value}
    (requested : request = .disconnect (.object source))
    (opened : Episode setting request .opened now middle) (unvisited : middle.visits.get? source = none)
    (unhandled : middle.handler? source = none)
    (parts : ∀ copy part, Answers setting request now source (.object copy) ask part) :
    (disconnectObject setting ask source).Ensures middle (Fails setting request now)
      (fun _ after => Episode setting request .settled now after) := by
  have before : now.handler? source = none := (opened.handler?_eq opened.reaches.heap).symm.trans unhandled
  unfold disconnectObject targetOf
  by_cases cloned : (setting.config.cloneObjects || (middle.heap.node source).origin.isProxy) = true
  · refine ensures_bind_of_eq ?_ (ensures_bind_of_eq rfl (ensures_bind_of_eq rfl
      (ensures_disconnectProperties ⟨_, requested⟩ (parts _) before
        (opened.moved (.rebuilding (.disconnect requested) unvisited)))))
    exact congrFun (if_pos cloned) middle
  · refine ensures_bind_of_eq ?_ (ensures_bind_of_eq rfl (ensures_bind_of_eq rfl
      (ensures_disconnectProperties ⟨_, requested⟩ (parts _) before
        ((opened.moved (.standing (.disconnect requested) unvisited unhandled)).moved .walked))))
    exact congrFun (if_neg cloned) middle

private theorem ensures_disconnectValue {ask : Request → Action Value} (asks : Asks setting ask) {value : Value}
    (opened : Episode setting (.disconnect value) .opened now middle) :
    (disconnectValue setting (fun part => ask (.disconnect part)) value).Ensures middle
      (Fails setting (.disconnect value) now)
      (fun _ after => Episode setting (.disconnect value) .settled now after) := by
  have parts : ∀ source counterpart part, Answers setting (.disconnect value) now source counterpart
      (fun part => ask (.disconnect part)) part := by
    intro source counterpart part middle treated
    apply (asks.ensures treated (.part (.detached ⟨value, rfl⟩ part))).weaken
    exact fun _ _ answered => ⟨answered.1, answered.2.later, _, answered.2.reaches⟩
  unfold disconnectValue
  split
  · exact ensures_pure (opened.moved (.passed nofun))
  apply ensures_look_bind
  rcases visited : value.object?.bind middle.visits.get? with _ | counterpart
  case some => exact ensures_pure (opened.moved (.passed nofun))
  apply (ensures_handlerOf value opened trivial).bind
  rintro handler? after ⟨opened, -, visits, known⟩
  have unvisited : ∀ source, value = .object source → after.visits.get? source = none := by
    rintro source rfl
    rw [visits]
    exact visited
  cases handler? with
  | some handler =>
    apply (ensures_rebuildValue opened nofun ?_ unvisited known fun source copy _ part _ => parts source _ part).weaken
    · exact fun _ _ rebuilt => rebuilt.1
    · rintro source rfl
      exact .disconnect rfl
  | none =>
    dsimp only
    cases value with
    | object source =>
      exact ensures_disconnectObject rfl opened (unvisited source rfl) known fun copy part => parts source _ part
    | _ => exact ensures_pure (opened.moved (.passed nofun))

section Merging

variable {ask : Request → Action Value} (asks : Asks setting ask)

section Containers

variable (requested : request = .applyTo (.object source) (.object target))

include requested

section Matching

variable (treated : Episode setting request (.busy source (.object target)) now middle)

include asks treated

/-- A member of a container is asked for with the counterpart that was drawn for it. -/
private theorem ensures_matched {value : Value} {counterpart? : Option Value}
    (carried : value ∈ (now.heap.node source).members)
    (held : ∀ present, counterpart? = some present → present ∈ (now.heap.node target).members) :
    (ask (.matched value counterpart?)).Ensures middle (Fails setting request now) (fun image after =>
      Episode setting request (.busy source (.object target)) now after ∧ middle.Later after ∧
        .answered (.matched value counterpart?) image ∈ after.journal) := by
  have part : Part request now source (.object target) (.matched value counterpart?) := by
    cases counterpart? with
    | none => exact .applied (requested ▸ Request.reconciling_applyTo _ _) carried
    | some present => exact .matched requested rfl carried (held present rfl)
  apply (asks.ensures treated (.part part)).weaken
  exact fun _ _ answered => ⟨answered.1, answered.2.later, answered.2.reaches⟩

/-- An element is traded. -/
private theorem ensures_mergeItem {element : Value} {candidates : List Value}
    (carried : element ∈ (now.heap.node source).members) (held : candidates ⊆ (now.heap.node target).members) :
    (mergeItem setting ask element candidates).Ensures middle (Fails setting request now) (fun outcome after =>
      Episode setting request (.busy source (.object target)) now after ∧ middle.Later after ∧
        ∃ trade : Trade, trade.element = element ∧ trade.image = outcome.1 ∧ trade.Made after ∧
          (trade.counterpart?.toList ++ outcome.2).Perm candidates) := by
  apply (ensures_askStore (Counterpart.spends_take ..) fun _ _ spent _ =>
    (treated.spent trivial spent).stopped trivial nofun).bind
  rintro ⟨counterpart?, rest⟩ _ ⟨outages, spent, rfl, found⟩
  have drawn := Counterpart.perm_take found
  apply (ensures_matched asks requested (treated.spent trivial spent) carried ?_).bind
  · rintro image after ⟨treated, later, answered⟩
    have onward := (World.Later.called middle spent).trans later
    exact ensures_pure ⟨treated, onward, ⟨element, counterpart?, image⟩, rfl, rfl, answered, drawn⟩
  · rintro present rfl
    exact held (drawn.subset List.mem_cons_self)

private theorem ensures_mergeItems {elements candidates : List Value}
    (carried : elements ⊆ (now.heap.node source).members)
    (held : candidates ⊆ (now.heap.node target).members) :
    (mergeItems setting ask elements candidates).Ensures middle (Fails setting request now) (fun outcome after =>
      Episode setting request (.busy source (.object target)) now after ∧ middle.Later after ∧
        ∃ trades : List Trade, trades.map Trade.element = elements ∧ trades.map Trade.image = outcome.1 ∧
          (∀ trade ∈ trades, trade.Made after) ∧
          (trades.filterMap Trade.counterpart? ++ outcome.2).Perm candidates) := by
  induction elements generalizing candidates middle with
  | nil => exact ensures_pure ⟨treated, .refl _, [], rfl, rfl, nofun, .refl _⟩
  | cons element elements ih =>
    obtain ⟨head, tail⟩ := List.cons_subset.1 carried
    apply (ensures_mergeItem asks requested treated head held).bind
    rintro ⟨_, rest⟩ one ⟨treated, sooner, trade, rfl, rfl, made, drawn⟩
    apply (ih treated tail fun value listed => held (drawn.subset (List.mem_append_right _ listed))).bind
    rintro ⟨_, leftovers⟩ two ⟨treated, later, trades, rfl, rfl, others, remain⟩
    refine ensures_pure ⟨treated, sooner.trans later, trade :: trades, rfl, rfl, ?_, ?_⟩
    · exact List.forall_mem_cons.2 ⟨made.later later, others⟩
    · rw [Trade.filterMap_cons, List.append_assoc]
      exact (remain.append_left _).trans drawn

/-- The key of an entry is traded and then its value. -/
private theorem ensures_mergeBinding (current : List (Value × Value)) {key value : Value} {pool : Counterpart.Pool}
    (carried : key ∈ (now.heap.node source).members ∧ value ∈ (now.heap.node source).members)
    (keys : pool.keys ⊆ (now.heap.node target).members) (values : pool.values ⊆ (now.heap.node target).members) :
    (mergeBinding setting ask current key value pool).Ensures middle (Fails setting request now) (fun outcome after =>
      Episode setting request (.busy source (.object target)) now after ∧ middle.Later after ∧
        ∃ one two : Trade, (one.element, two.element) = (key, value) ∧ (one.image, two.image) = outcome.1 ∧
          one.Made after ∧ two.Made after ∧ (one.counterpart?.toList ++ outcome.2.keys).Perm pool.keys ∧
          (two.counterpart?.toList ++ outcome.2.values).Perm pool.values) := by
  apply (ensures_askStore (Counterpart.spends_takeEntry ..) fun _ _ spent _ =>
    (treated.spent trivial spent).stopped trivial nofun).bind
  rintro ⟨⟨key?, value?⟩, rest⟩ _ ⟨outages, spent, rfl, found⟩
  obtain ⟨drawnKey, drawnValue⟩ := Counterpart.perm_takeEntry found
  apply (ensures_matched asks requested (treated.spent trivial spent) carried.1 ?_).bind
  · rintro image one ⟨treated, sooner, keyed⟩
    apply (ensures_matched asks requested treated carried.2 ?_).bind
    · rintro bound two ⟨treated, later, valued⟩
      exact ensures_pure ⟨treated, ((World.Later.called middle spent).trans sooner).trans later, ⟨key, key?, image⟩,
        ⟨value, value?, bound⟩, rfl, rfl, later.journal.subset keyed, valued, drawnKey, drawnValue⟩
    · rintro present rfl
      exact values (drawnValue.subset List.mem_cons_self)
  · rintro present rfl
    exact keys (drawnKey.subset List.mem_cons_self)

private theorem ensures_mergeBindings (current : List (Value × Value)) {entries : List (Value × Value)}
    {pool : Counterpart.Pool} (carried : entries ⊆ (now.heap.node source).bindings)
    (keys : pool.keys ⊆ (now.heap.node target).members) (values : pool.values ⊆ (now.heap.node target).members) :
    (mergeBindings setting ask current entries pool).Ensures middle (Fails setting request now)
      (fun outcome after =>
        Episode setting request (.busy source (.object target)) now after ∧ middle.Later after ∧
        ∃ trades : List Trade, trades.map Trade.element = entries.flatMap (fun entry => [entry.1, entry.2]) ∧
          trades.map Trade.image = outcome.1.flatMap (fun entry => [entry.1, entry.2]) ∧
          (∀ trade ∈ trades, trade.Made after) ∧
          (trades.filterMap Trade.counterpart? ++ (outcome.2.keys ++ outcome.2.values)).Perm
            (pool.keys ++ pool.values)) := by
  induction entries generalizing pool middle with
  | nil => exact ensures_pure ⟨treated, .refl _, [], rfl, rfl, nofun, .refl _⟩
  | cons entry entries ih =>
    obtain ⟨head, tail⟩ := List.cons_subset.1 carried
    apply (ensures_mergeBinding asks requested treated current (Node.mem_members_of_bindings head) keys values).bind
    rintro ⟨⟨_, _⟩, rest⟩ middle ⟨treated, sooner, one, two, elements, ⟨⟩, keyed, valued, drawnKeys, drawnValues⟩
    obtain ⟨key, value⟩ := entry
    cases elements
    apply (ih treated tail (fun value listed => keys (drawnKeys.subset (List.mem_append_right _ listed)))
      fun value listed => values (drawnValues.subset (List.mem_append_right _ listed))).bind
    rintro ⟨merged, leftovers⟩ after ⟨treated, later, trades, same, images, others, remain⟩
    refine ensures_pure ⟨treated, sooner.trans later, one :: two :: trades, ?_, ?_, ?_, ?_⟩
    · simp [same]
    · simp [images]
    · exact List.forall_mem_cons.2 ⟨keyed.later later, List.forall_mem_cons.2 ⟨valued.later later, others⟩⟩
    · rw [Trade.filterMap_cons, Trade.filterMap_cons, List.append_assoc, List.append_assoc]
      have left := ((remain.append_left two.counterpart?.toList).trans
        (List.perm_append_comm_assoc _ _ _)).append_left one.counterpart?.toList
      rw [← List.append_assoc one.counterpart?.toList rest.keys] at left
      exact left.trans (drawnKeys.append drawnValues)

end Matching

omit requested in
/-- The treatment of an unloaded container is over at once. -/
private theorem ensures_keepUnloaded (treated : Episode setting request (.busy source (.object target)) now middle)
    (same : middle.heap = now.heap) :
    (keepUnloaded source target).Ensures middle (Fails setting request now) (fun kept after => middle = after ∧
      (kept = true → Episode setting request .settled now middle) ∧
      (kept = false → now.isUnloadedContainer target = false)) := by
  have before : middle.isUnloadedContainer target = now.isUnloadedContainer target := by
    rw [World.isUnloadedContainer, World.isUnloadedContainer, same]
  apply ensures_look_bind
  split
  · next unloaded =>
    apply ensures_look_bind
    split
    · exact ensures_look_bind (ensures_stop (treated.stopped trivial nofun))
    · refine ensures_pure ⟨rfl, fun _ => treated.moved (.closed fun other paired _ _ => ?_), nofun⟩
      obtain rfl := Value.object.inj paired
      exact before.symm.trans unloaded
  · next loaded => exact ensures_pure ⟨rfl, nofun, fun _ => before.symm.trans (Bool.eq_false_iff.2 loaded)⟩

/-- What a container has lost is given up, and then it is refilled. -/
private theorem ensures_refill (treated : Episode setting request (.busy source (.object target)) now middle)
    {handler : Handler} (handled : now.handler? source = some handler) (whole : handler ≠ .array)
    (loaded : now.isUnloadedContainer target = false) {change : Edit} (refills : handler.Refills change)
    {trades : List Trade} {leftovers : List Value}
    (elements : trades.map Trade.element = handler.candidates (now.heap.node source))
    (images : trades.map Trade.image = change.values) (made : ∀ trade ∈ trades, trade.Made middle)
    (drawn : (trades.filterMap Trade.counterpart? ++ leftovers).Perm (handler.candidates (now.heap.node target))) :
    (do
      discardLeftovers setting target change.values leftovers
      edit target change
      return .object target : Action Value).Ensures middle (Fails setting request now) (fun result after =>
        Episode setting request .settled now after ∧ after.visits.get? source = some result) := by
  rcases lost : discardLeftovers setting target change.values leftovers middle with ⟨ending | ⟨⟩, after⟩
  · exact ensures_of_error (bind_of_error lost) (treated.moved (.interrupted lost))
  · have refilled : Move setting request now (.busy source (.object target)) middle .settled
        (edit target change after).2 :=
      .refilled requested handled whole loaded refills elements images made drawn lost
    have recorded := refilled.later.visits _ _ treated.reaches.2
    exact ensures_bind_of_eq lost (ensures_bind_of_eq rfl (ensures_pure ⟨treated.moved refilled, recorded⟩))

variable (treated : Episode setting request (.busy source (.object target)) now middle)
  (same : middle.heap = now.heap)

include treated same

include asks

private theorem ensures_mergeCollection (handled : now.handler? source = some .collection) :
    (mergeCollection setting ask source target).Ensures middle (Fails setting request now) (fun result after =>
      Episode setting request .settled now after ∧ after.visits.get? source = some result) := by
  apply (ensures_keepUnloaded treated same).bind
  rintro kept _ ⟨rfl, settled, loaded⟩
  split
  · next idle => exact ensures_pure ⟨settled idle, treated.reaches.2⟩
  · next busy =>
    have loaded := loaded (Bool.eq_false_iff.2 busy)
    refine ensures_bind_of_eq (ok_note _ middle) (ensures_look_bind (ensures_look_bind ?_))
    rw [heap_note, same]
    apply (ensures_mergeItems asks requested (treated.moved .walked) (fun _ => Node.mem_members_of_items)
      fun _ => Node.mem_members_of_items).bind
    rintro ⟨merged, leftovers⟩ last ⟨treated, -, trades, elements, images, made, drawn⟩
    exact ensures_refill requested treated handled nofun loaded (.elements merged) elements images made drawn

private theorem ensures_mergeMap (handled : now.handler? source = some .map) :
    (mergeMap setting ask source target).Ensures middle (Fails setting request now) (fun result after =>
      Episode setting request .settled now after ∧ after.visits.get? source = some result) := by
  have entries := List.perm_flatMap_entries (now.heap.node target).bindings
  have members : ∀ value ∈ (now.heap.node target).bindings.map Prod.fst ++ (now.heap.node target).bindings.map Prod.snd,
      value ∈ (now.heap.node target).members :=
    fun value listed => List.mem_append_right _ (entries.symm.subset listed)
  apply (ensures_keepUnloaded treated same).bind
  rintro kept _ ⟨rfl, settled, loaded⟩
  split
  · next idle => exact ensures_pure ⟨settled idle, treated.reaches.2⟩
  · next busy =>
    have loaded := loaded (Bool.eq_false_iff.2 busy)
    refine ensures_bind_of_eq (ok_note _ middle) (ensures_look_bind (ensures_look_bind ?_))
    rw [heap_note, same]
    apply (ensures_mergeBindings asks requested (treated.moved .walked) _ (List.Subset.refl _)
      (fun value listed => members value (List.mem_append_left _ listed))
      fun value listed => members value (List.mem_append_right _ listed)).bind
    rintro ⟨merged, leftovers⟩ last ⟨treated, -, trades, elements, images, made, drawn⟩
    exact ensures_refill requested treated handled nofun loaded (.entries merged) elements images made
      (drawn.trans entries.symm)

omit same in
/-- A slot takes the item itself if that is null or a scalar, and else what it is reconciled to. -/
private theorem ensures_mergeSlot {item counterpart : Value} (carried : item ∈ (now.heap.node source).items)
    (present : counterpart ∈ (now.heap.node target).items) :
    (mergeSlot ask (now.heap.node source) item counterpart).Ensures middle (Fails setting request now)
      (fun merged after => Episode setting request (.busy source (.object target)) now after ∧
        Slotted now after source merged) := by
  unfold mergeSlot
  split
  · next plain =>
    refine ensures_pure ⟨treated, ?_⟩
    rcases Bool.or_eq_true_iff.1 plain with null | scalar
    · exact (Value.isNull_iff _).1 null ▸ .null
    · exact .scalar scalar carried
  · have part : Part request now source (.object target) (.reconcile item counterpart) := by
      unfold Request.reconcile
      split
      · exact .applied (requested ▸ Request.reconciling_applyTo _ _) (Node.mem_members_of_items carried)
      · exact .matched requested rfl (Node.mem_members_of_items carried) (Node.mem_members_of_items present)
    apply (asks.ensures treated (.part part)).weaken
    exact fun _ _ answered => ⟨answered.1, .answer answered.2.reaches⟩

private theorem ensures_mergeArray (handled : now.handler? source = some .array) :
    (mergeArray ask source target).Ensures middle (Fails setting request now) (fun result after =>
      Episode setting request .settled now after ∧ after.visits.get? source = some result) := by
  refine ensures_bind_of_eq (ok_note _ middle) (ensures_look_bind (ensures_look_bind ?_))
  rw [heap_note, same]
  apply Ensures.bind (ensures_forM (fun _ after => Episode setting request (.busy source (.object target)) now after)
    (treated.moved .walked) ?_)
  · refine fun _ _ treated => ensures_pure ⟨treated.moved (.closed fun _ _ _ container => ?_), treated.reaches.2⟩
    simp [handled] at container
  · rintro done ⟨⟨item, counterpart⟩, index⟩ rest split one treated
    have listed : ((item, counterpart), index) ∈
        ((now.heap.node source).items.zip (now.heap.node target).items).zipIdx :=
      split ▸ List.mem_append_right _ List.mem_cons_self
    obtain ⟨carried, present⟩ := List.of_mem_zip (List.fst_mem_of_mem_zipIdx listed)
    apply (ensures_mergeSlot asks requested treated carried present).bind
    rintro merged two ⟨treated, supplied⟩
    exact ensures_of_ok rfl (treated.moved (.slotted requested handled index supplied))

end Containers

/-- A version is read without a change. -/
private theorem ensures_versionOf {failed : Ending → World → Prop} {metadata : Metadata} {id : ObjectId}
    {property : String}
    (fails : ∀ error, middle.version metadata id property = .error error → failed (.failed (.access error)) middle) :
    (versionOf metadata id property).Ensures middle failed
      (fun version after => middle = after ∧ middle.version metadata id property = .ok version) := by
  unfold versionOf World.version at *
  split
  · next declared =>
    rw [if_pos declared] at fails
    rcases found : Property.read middle.heap metadata id property with error | value
    · exact ensures_of_error (by rw [readProperty, found]) (fails error found)
    · exact ensures_of_ok (by rw [readProperty, found]) ⟨rfl, rfl⟩
  · exact ensures_look_bind (ensures_pure ⟨rfl, rfl⟩)

section Versions

variable {entity : Entity} (paired : Episode setting request (.paired source (.object target)) now middle)
  (unhandled : middle.handler? source = none)
  (managed : middle.store.entity? (middle.heap.node target).type = some entity) (distinct : source ≠ target)

include paired unhandled managed distinct

/-- An object is refused with both versions, or may be merged. -/
private theorem ensures_compareVersions {property : String} (checked : checkedVersion? setting entity = some property) :
    (compareVersions (middle.metadataFor setting target entity) source target property).Ensures middle
      (Fails setting request now) (fun _ after => middle = after ∧
        middle.SameVersion (middle.metadataFor setting target entity) source target property) := by
  have refused : ∀ ending, Refusal setting now middle source target entity ending →
      Fails setting request now ending middle :=
    fun _ refusal => paired.moved (.refused unhandled managed distinct refusal)
  apply (ensures_versionOf fun error unread => refused _ (.unreadable checked (.inl rfl) unread)).bind
  rintro current _ ⟨rfl, present⟩
  apply (ensures_versionOf fun error unread => refused _ (.unreadable checked (.inr rfl) unread)).bind
  rintro carried _ ⟨rfl, brought⟩
  split
  · next outdated =>
    obtain ⟨versioned, differs⟩ := Bool.and_eq_true_iff.1 outdated
    refine ensures_look_bind (ensures_stop (refused _ (.outdated checked present brought ?_ ?_)))
    · rintro rfl
      cases versioned
    · exact of_decide_eq_true differs
  · next fits =>
    refine ensures_pure ⟨rfl, current, carried, present, brought, fun versioned => ?_⟩
    have notNull : current.isNull = false := Bool.eq_false_iff.2 (mt (Value.isNull_iff _).1 versioned)
    exact Decidable.byContradiction fun different => fits (by simp [notNull, different])

private theorem ensures_compareChecked :
    (compareChecked (middle.metadataFor setting target entity) source target (checkedVersion? setting entity)).Ensures
      middle (Fails setting request now) (fun _ after => middle = after ∧
        ∀ property, checkedVersion? setting entity = some property →
          middle.SameVersion (middle.metadataFor setting target entity) source target property) := by
  rcases checked : checkedVersion? setting entity with _ | property
  · exact ensures_pure ⟨rfl, nofun⟩
  · apply (ensures_compareVersions paired unhandled managed distinct checked).weaken
    rintro _ _ ⟨same, agrees⟩
    exact ⟨same, fun _ found => Option.some.inj found ▸ agrees⟩

end Versions

section Properties

variable {merger : Merger} {done : List String}

private theorem ensures_updateProperty {transfer : Transfer} {merged : Value}
    (taking : Episode setting request (.taking merger done transfer merged) now middle) :
    (updateProperty merger.metadata merger.target transfer.property transfer.current merged).Ensures middle
      (Fails setting request now)
      (fun _ after => Episode setting request (.merging merger (done ++ [transfer.property])) now after) := by
  unfold updateProperty
  split
  · next same => exact ensures_pure (taking.moved (.unchanged same))
  · next changed =>
    apply ensures_writeProperty fun _ => taking.stopped trivial nofun
    intro change made
    exact ⟨fun _ => taking.moved (.rejected changed made), fun written => taking.moved (.written changed written)⟩

include asks

private theorem ensures_mergeProperty {property : String}
    (merging : Episode setting request (.merging merger done) now middle) (declared : property ∈ merger.metadata.names)
    (unchecked : checkedVersion? setting merger.entity ≠ some property) :
    (mergeProperty ask merger.metadata merger.source merger.target property).Ensures middle
      (Fails setting request now)
      (fun _ after => Episode setting request (.merging merger (done ++ [property])) now after) := by
  apply (ensures_readProperty fun _ => merging.stopped trivial nofun).bind
  rintro value _ ⟨rfl, carried⟩
  apply (ensures_readProperty fun _ => merging.stopped trivial nofun).bind
  rintro current _ ⟨rfl, present⟩
  split
  · next idle =>
    refine ensures_pure (merging.moved (.spared carried present ?_))
    exact (Bool.or_eq_true_iff.1 idle).imp (Value.isNull_iff _).1 of_decide_eq_true
  · next busy =>
    obtain ⟨significant, differs⟩ := not_or.1 (mt Bool.or_eq_true_iff.2 busy)
    have reading : Reading setting middle merger.source merger.target merger.entity merger.metadata property value
        current :=
      { declared, unchecked, carried, present
        significant := mt (Value.isNull_iff _).2 significant
        differs := mt decide_eq_true differs }
    apply (asks.ensures merging (.property reading)).bind
    rintro merged after ⟨taking, -⟩
    exact ensures_updateProperty taking

end Properties

section Objects

include asks

private theorem ensures_mergeProperties {entity : Entity}
    (paired : Episode setting request (.paired source (.object target)) now middle)
    (unhandled : middle.handler? source = none)
    (managed : middle.store.entity? (middle.heap.node target).type = some entity) (distinct : source ≠ target)
    (identified : entity.identifier? middle.heap target ≠ none)
    (loaded : (middle.heap.node target).origin.isLoaded = true) :
    (mergeProperties setting ask entity source target).Ensures middle (Fails setting request now)
      (fun _ after => Episode setting request .settled now after ∧
        after.visits.get? source = some (.object target)) := by
  apply (ensures_metadataOf target paired trivial).bind
  rintro metadata? _ ⟨paired, rfl, cache, rfl⟩
  apply (ensures_compareChecked paired unhandled managed distinct).bind
  rintro _ _ ⟨rfl, agrees⟩
  refine ensures_bind_of_eq rfl ?_
  have merging : Merging setting { middle with cache } source target entity
      (({ middle with cache } : World).metadataFor setting target entity) :=
    { unhandled, managed, distinct, identified, loaded
      recorded := paired.reaches.visits ▸ Visits.get?_record_self ..
      metadata_eq := rfl
      version := agrees }
  apply (ensures_forM (fun done after => Episode setting request (.merging _ done) now after)
    (paired.moved (.merging merging)) ?_).weaken
  · intro _ after merging
    refine ⟨merging.moved (.merged fun property declared unchecked => ?_), merging.reaches.2.2⟩
    exact List.mem_filter.2 ⟨declared, decide_eq_true unchecked⟩
  · intro done property rest split one merging
    have listed := List.mem_filter.1 (split ▸ List.mem_append_right done List.mem_cons_self)
    exact ensures_mergeProperty asks merging listed.1 (of_decide_eq_true listed.2)

/-- The counterpart that was just recorded is what the object resolves to, unless that is no entity. -/
private theorem ensures_mergeObject (paired : Episode setting request (.paired source (.object target)) now middle)
    (unhandled : middle.handler? source = none) :
    (mergeObject setting ask source target).Ensures middle (Fails setting request now) (fun result after =>
      Episode setting request .settled now after ∧ Resolves after source result) := by
  have recorded : middle.visits.get? source = some (.object target) :=
    paired.reaches.visits ▸ Visits.get?_record_self ..
  refine ensures_look_bind (ensures_look_bind ?_)
  rcases managed : middle.store.entity? (middle.heap.node target).type with _ | entity
  · have other : ∀ id, Value.object target = .object id →
        middle.store.entity? (middle.heap.node id).type = none := by
      rintro _ ⟨⟩
      exact managed
    exact ensures_pure ⟨paired.moved (.apart unhandled (.inr other)), resolves_unmanaged recorded unhandled other⟩
  dsimp only
  split
  · next same =>
    subst same
    exact ensures_pure ⟨paired.moved (.apart unhandled (.inl rfl)), .recorded recorded⟩
  next distinct =>
  apply (ensures_callStore fun error outages spent failing => ?_).bind
  · rintro identifier? _ ⟨outages, spent, rfl, answered⟩
    have found := EntityStore.identifier?_eq answered
    have paired := paired.spent trivial spent
    cases identifier? with
    | none => exact ensures_stop (paired.moved (.refused unhandled managed distinct (.unidentified found.symm)))
    | some identifier =>
      dsimp only
      split
      · next loaded =>
        have identified : entity.identifier? middle.heap target ≠ none := found ▸ Option.some_ne_none _
        apply (ensures_mergeProperties asks paired unhandled managed distinct identified loaded).bind
        exact fun _ _ merged => ensures_pure (settled_recorded merged)
      · next unloaded =>
        have unloaded := Bool.eq_false_iff.2 unloaded
        exact ensures_stop (paired.moved (.refused unhandled managed distinct (.unloaded unloaded)))
  · refine (paired.spent trivial spent).moved (.refused unhandled managed distinct (.unavailable ?_))
    rcases failing with failing | listed
    · exact .inl (paired.reaches.store ▸ EntityStore.faults_of_identifier failing)
    · exact .inr ((paired.later.outages.suffix .identifier).mem listed)

end Objects

/-- A handler leaves an object with the counterpart that was recorded for it, or passes it through. -/
private theorem ensures_mergeValue {handler : Handler} {authoritative : Value} (asks : Asks setting ask)
    (paired : Episode setting request (.paired source authoritative) now middle)
    (known : middle.dispatch.registry.ofValue middle.heap (.object source) = some handler) :
    (handler.mergeValue setting ask (.object source) authoritative).Ensures middle (Fails setting request now)
      (fun result after => Episode setting request .settled now after ∧ Resolves after source result) := by
  have requested := paired.reaches.requested
  have same := paired.reaches.heap
  have handled : now.handler? source = some handler := (paired.handler?_eq same).symm.trans known
  have treated := paired.moved (.handled (fun missing => Option.some_ne_none handler (known.symm.trans missing)))
  have idle : handler ∉ [.collection, .map] → Episode setting request .settled now middle := by
    refine fun other => treated.moved (.closed fun _ _ _ container => absurd ?_ other)
    simpa [handled] using container
  unfold Handler.mergeValue
  split
  · exact ensures_pure ⟨idle (by decide), resolves_inert known (by decide)⟩
  · exact ensures_pure ⟨idle (by decide), resolves_inert known (by decide)⟩
  · next refers =>
    cases refers
    exact (ensures_mergeCollection asks requested treated same handled).weaken fun _ _ => settled_recorded
  · next refers =>
    cases refers
    exact (ensures_mergeMap asks requested treated same handled).weaken fun _ _ => settled_recorded
  · next refers =>
    cases refers
    exact (ensures_mergeArray asks requested treated same handled).weaken fun _ _ => settled_recorded
  · next uncollected unmapped _ =>
    refine ensures_pure ⟨treated.moved (.closed ?_), .recorded treated.reaches.2⟩
    rintro target rfl _ container
    rw [handled] at container
    simp only [List.mem_cons, Option.some.injEq, List.not_mem_nil, or_false] at container
    rcases container with rfl | rfl
    · exact absurd rfl (uncollected _ _ rfl rfl)
    · exact absurd rfl (unmapped _ _ rfl rfl)

/-- A scalar is passed through by whatever looks like merging it. -/
private theorem ensures_mergeScalar {handler : Handler} {scalar authoritative : Value}
    (other : ∀ source, scalar ≠ .object source) (passed : Episode setting request .settled now middle)
    (known : middle.dispatch.registry.ofValue middle.heap scalar = some handler) :
    (handler.mergeValue setting ask scalar authoritative).Ensures middle (Fails setting request now)
      (fun result after => Episode setting request .settled now after ∧ Resolved after scalar result) := by
  have went : ∃ result, handler.mergeValue setting ask scalar authoritative middle = (.ok result, middle) ∧
      (handler = .basic → result = scalar) := by
    cases scalar with
    | object source => exact absurd rfl (other source)
    | _ => cases handler <;> exact ⟨_, rfl, by simp⟩
  obtain ⟨result, went, basic⟩ := went
  refine ensures_of_ok went ⟨passed, resolved_scalar other fun plain => basic ?_⟩
  rw [known] at plain
  simpa using plain

include asks

private theorem ensures_applyValueTo {detached authoritative : Value}
    (opened : Episode setting (.applyTo detached authoritative) .opened now middle) :
    (applyValueTo setting ask detached authoritative).Ensures middle
    (Fails setting (.applyTo detached authoritative) now)
      (fun result after => Episode setting (.applyTo detached authoritative) .settled now after ∧
        after.Yields result (.applyTo detached authoritative)) := by
  unfold applyValueTo
  split
  · next null =>
    have absent := (Bool.or_eq_true_iff.1 null).imp (Value.isNull_iff _).1 (Value.isNull_iff _).1
    refine ensures_pure ⟨opened.moved (.passed ?_), (if_pos absent).mpr rfl⟩
    rintro source target ⟨⟩
    cases null
  next present =>
  suffices resolving : Ensures _ middle (Fails setting (.applyTo detached authoritative) now) (fun result after =>
      Episode setting (.applyTo detached authoritative) .settled now after ∧ Resolved after detached result) by
    apply resolving.weaken
    rintro result after ⟨settled, resolved⟩
    have significant := mt Bool.or_eq_true_iff.2 present
    rw [Value.isNull_iff, Value.isNull_iff] at significant
    exact ⟨settled, (if_neg significant).mpr resolved⟩
  apply ensures_look_bind
  cases detached with
  | object source =>
    rcases visited : middle.visits.get? source with _ | counterpart
    · simp only [Value.object?, Option.bind_some, visited]
      refine ensures_bind_of_eq rfl ?_
      apply (ensures_handlerOf (.object source) (opened.moved (.pairing rfl visited)) trivial).bind
      rintro handler? after ⟨paired, -, -, known⟩
      cases handler? with
      | some handler => exact ensures_mergeValue asks paired known
      | none =>
        cases authoritative with
        | object target => exact ensures_mergeObject asks paired known
        | _ =>
          have recorded : after.visits.get? source = some _ := paired.reaches.visits ▸ Visits.get?_record_self ..
          refine ensures_pure ⟨paired.moved (.apart known (.inr ?_)), resolves_unmanaged recorded known ?_⟩
          all_goals rintro _ ⟨⟩
    · simp only [Value.object?, Option.bind_some, visited]
      refine ensures_pure ⟨opened.moved (.passed ?_), .recorded visited⟩
      rintro _ target ⟨⟩
      exact visited ▸ Option.some_ne_none counterpart
  | _ =>
    refine ensures_bind_of_eq rfl ?_
    apply (ensures_handlerOf _ opened trivial).bind
    rintro handler? after ⟨opened, -, -, known⟩
    have passed := opened.moved (.passed (by rintro _ _ ⟨⟩))
    cases handler? with
    | some handler => exact ensures_mergeScalar (by rintro _ ⟨⟩) passed known
    | none => exact ensures_pure ⟨passed, fun _ => rfl⟩

/-- An entity is looked up and merged; an object of another type is its own counterpart. -/
private theorem ensures_applyObject (requested : request = .apply (.object source))
    (opened : Episode setting request .opened now middle) (unvisited : middle.visits.get? source = none)
    (unhandled : middle.handler? source = none) :
    (applyObject ask source).Ensures middle (Fails setting request now) (fun result after =>
      Episode setting request .settled now after ∧ Resolves after source result) := by
  refine ensures_look_bind (ensures_look_bind ?_)
  rcases managed : middle.store.entity? (middle.heap.node source).type with _ | entity
  · refine ensures_bind_of_eq rfl (ensures_pure ⟨?_, .recorded (World.Later.visits_record _ _ _)⟩)
    have treated := opened.moved (.standing (.apply requested managed) unvisited unhandled)
    refine treated.moved (.closed fun _ _ _ handled => ?_)
    rw [← opened.handler?_eq opened.reaches.heap, unhandled] at handled
    simp at handled
  have single : Phase.opened.Fragile request := ⟨source, requested⟩
  apply (ensures_callStore fun _ _ spent _ => (opened.spent trivial spent).stopped single nofun).bind
  rintro identifier? _ ⟨outages, spent, rfl, -⟩
  have opened := opened.spent trivial spent
  cases identifier? with
  | none => exact ensures_stop (opened.stopped single nofun)
  | some identifier =>
    apply (ensures_callStore fun _ _ spent _ => (opened.spent trivial spent).stopped single nofun).bind
    rintro target? _ ⟨others, spent, rfl, stored⟩
    have opened := opened.spent trivial spent
    cases target? with
    | none => exact ensures_stop (opened.moved (.missing requested stored))
    | some target =>
      apply (asks.ensures opened (.found requested stored)).weaken
      rintro result after ⟨settled, answered⟩
      exact ⟨settled, resolved answered rfl nofun⟩

private theorem ensures_applyValue {detached : Value} (opened : Episode setting (.apply detached) .opened now middle) :
    (applyValue ask detached).Ensures middle (Fails setting (.apply detached) now) (fun result after =>
      Episode setting (.apply detached) .settled now after ∧ after.Yields result (.apply detached)) := by
  unfold applyValue
  split
  · next null =>
    obtain rfl := (Value.isNull_iff _).1 null
    exact ensures_pure ⟨opened.moved (.passed nofun), rfl⟩
  next present =>
  suffices resolving : Ensures _ middle (Fails setting (.apply detached) now) (fun result after =>
      Episode setting (.apply detached) .settled now after ∧ Resolved after detached result) from
    resolving.weaken fun _ _ applied => ⟨applied.1, (if_neg (mt (Value.isNull_iff _).2 present)).mpr applied.2⟩
  apply ensures_look_bind
  rcases visited : detached.object?.bind middle.visits.get? with _ | counterpart
  · apply (ensures_handlerOf detached opened trivial).bind
    rintro handler? after ⟨opened, -, same, known⟩
    have unvisited : ∀ source, detached = .object source → after.visits.get? source = none := by
      rintro source rfl
      rw [same]
      exact visited
    cases handler? with
    | some handler =>
      refine ensures_rebuildValue opened nofun ?_ unvisited known ?_
      · rintro source rfl
        exact .apply rfl (fun missing => Option.some_ne_none handler (known.symm.trans missing))
      · rintro source copy rfl part carried middle treated
        apply (asks.ensures treated (.part (.applied (Request.reconciling_apply _) carried))).weaken
        exact fun _ _ answered => ⟨answered.1, answered.2.later, _, answered.2.reaches⟩
    | none =>
      cases detached with
      | object source => exact ensures_applyObject asks rfl opened (unvisited source rfl) known
      | _ => exact ensures_pure ⟨opened.moved (.passed nofun), fun _ => rfl⟩
  · cases detached with
    | object source => exact ensures_pure ⟨opened.moved (.passed nofun), .recorded visited⟩
    | _ => cases visited

end Merging

private theorem asks_answer (setting : Setting) (fuel : Nat) : Asks setting (answer setting fuel) := by
  induction fuel with
  | zero => exact fun request now => ensures_stop (.exhausted request now)
  | succ fuel ih =>
    intro request now
    refine ensures_bind_of_eq rfl ?_
    have opened : Episode setting request .opened now (note (.asked request) now).2 := .asked request now
    have stepping : (step setting (answer setting fuel) request).Ensures (note (.asked request) now).2
        (Fails setting request now) (fun result after => Episode setting request .settled now after ∧
          (request.Reconciling → after.Yields result request)) := by
      cases request with
      | disconnect value =>
        apply (ensures_disconnectValue ih opened).weaken
        exact fun _ _ settled => ⟨settled, fun reconciling => absurd rfl (reconciling value)⟩
      | apply detached =>
        exact (ensures_applyValue ih opened).weaken fun _ _ applied => ⟨applied.1, fun _ => applied.2⟩
      | applyTo detached authoritative =>
        exact (ensures_applyValueTo ih opened).weaken fun _ _ applied => ⟨applied.1, fun _ => applied.2⟩
    apply stepping.bind
    rintro result after ⟨settled, yields⟩
    exact ensures_bind_of_eq rfl (ensures_pure (settled.moved (.replied yields)))

end Episode

/-- A run is an episode. -/
theorem Setting.run_episode (setting : Setting) (request : Request) (world : World) :
    (setting.run request).Ensures world (Episode.Fails setting request world)
      (fun result after => Episode setting request (.replied result) world after) := by
  have ensures := Episode.asks_answer setting (world.fuel setting) request world
  exact ⟨ensures.ended, ensures.answered⟩

/-- A run of its own is an episode. -/
theorem Setting.runFresh_episode (setting : Setting) (request : Request) (world : World) :
    (setting.runFresh request).Ensures world (Episode.Fails setting request world.rested)
      (fun result after => Episode setting request (.replied result) world.rested after) := by
  have ensures := setting.run_episode request world.rested
  exact ⟨ensures.ended, ensures.answered⟩

/-- A call that brings a detached value up to date is a run of its own, unless the look-up of its counterpart fails. -/
private theorem Reconciliation.eq_runFresh {setting : Setting} {world : World} {outcome : Except Ending Value × World}
    (run : Reconciliation setting world outcome) :
    (∃ error, outcome = (.error (.failed (.store error)), world.rested)) ∨
      ∃ request : Request, request.Reconciling ∧ outcome = setting.runFresh request world.rested := by
  cases run with
  | apply detached => exact .inr ⟨_, Request.reconciling_apply detached, rfl⟩
  | applyTo detached authoritative => exact .inr ⟨_, Request.reconciling_applyTo detached authoritative, rfl⟩
  | applyWith detached lookUp =>
    unfold Setting.applyWith
    split
    · exact .inr ⟨_, Request.reconciling_applyTo detached .null, rfl⟩
    · rcases found : lookUp world.rested.store world.rested.heap with error | authoritative
      · exact .inl ⟨error, bind_of_error (consult_of_error found)⟩
      · exact .inr ⟨_, Request.reconciling_applyTo detached authoritative, bind_of_ok (consult_of_ok found)⟩

/-- Such a call is an episode, unless the look-up of its counterpart fails. -/
theorem Reconciliation.episode {setting : Setting} {world : World} {outcome : Except Ending Value × World}
    (run : Reconciliation setting world outcome) :
    (∃ error, outcome = (.error (.failed (.store error)), world.rested)) ∨
      ∃ request, request.Reconciling ∧
        (∀ result, outcome.1 = .ok result → Episode setting request (.replied result) world.rested outcome.2) ∧
        ∀ ending, outcome.1 = .error ending → Episode.Fails setting request world.rested ending outcome.2 := by
  rcases run.eq_runFresh with failed | ⟨request, reconciling, rfl⟩
  · exact .inl failed
  · have ensures := setting.runFresh_episode request world.rested
    exact .inr ⟨request, reconciling, fun result ended => ensures.answered result _ (Prod.ext ended rfl),
      fun ending ended => ensures.ended ending _ (Prod.ext ended rfl)⟩

end Reconciler
