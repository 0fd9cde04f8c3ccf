import Reconciler.Proofs.Remembering
import Reconciler.Proofs.Supertypes

/-! # Specific supertypes first

The supertypes of a type come in the order of their earliest routes from the type. If a type is reached on a
short route and also on a longer one, through one of its own subtypes, then it can come before this subtype. So
the more specific supertypes come first if and only if they also have the earlier routes. Handlers and equalities
are inherited from the supertype with the earliest route, among those that have one to give.
-/

namespace Reconciler

open Handler (Dispatch)

namespace FiniteGraph

/-- Two nodes are not ahead of each other. -/
theorem Ahead.asymm {α : Type} {graph : FiniteGraph α} {roots : List α} {near far : α}
    (ahead : graph.Ahead roots near far) : ¬ graph.Ahead roots far near := by
  rintro ⟨other, onward, earliest⟩
  obtain ⟨route, walk, earlier⟩ := ahead
  exact Earlier.irrefl route ((earlier other onward).trans (earliest route walk))

end FiniteGraph

namespace Schema

/-- An ancestor of a type with an earlier route than another. -/
def Ahead (schema : Schema) (type : TypeName) : TypeName → TypeName → Prop :=
  schema.hierarchy.Ahead (schema.parents type)

/-- Of two ancestors one of which inherits from the other, this one has the earlier route. -/
def SpecificFirst (schema : Schema) (type : TypeName) : Prop :=
  ∀ specific general, schema.Inherits type specific → schema.Inherits specific general →
    schema.Ahead type specific general

/-- Among the ancestors that have something to give, the one with the earliest route. -/
structure Foremost (schema : Schema) (type : TypeName) (gives : TypeName → Prop) (super : TypeName) : Prop where
  inherits : schema.Inherits type super
  giving : gives super
  ahead : ∀ other, schema.Inherits type other → gives other → other ≠ super → schema.Ahead type super other

/-- The equality that a type declares itself. -/
def ownEquality? (schema : Schema) (type : TypeName) : Option Equality := (schema.find? type).bind (·.equality?)

/-- No type has two different parents. -/
def SingleParents (schema : Schema) : Prop :=
  ∀ type parent other, schema.Extends type parent → schema.Extends type other → parent = other

variable {schema : Schema} {type : TypeName}

private theorem Foremost.unique {gives : TypeName → Prop} {super other : TypeName}
    (foremost : schema.Foremost type gives super)
    (again : schema.Foremost type gives other) : super = other := by
  by_contra different
  have after := foremost.ahead other again.inherits again.giving (Ne.symm different)
  exact after.asymm (again.ahead super foremost.inherits foremost.giving different)

/-- In a list that a relation orders, it relates any two different elements one way or the other. -/
theorem rel_or_rel_of_pairwise {α : Type} {rel : α → α → Prop} {elements : List α} (ordered : elements.Pairwise rel)
    {one other : α} (listed : one ∈ elements) (also_listed : other ∈ elements) (different : one ≠ other) :
    rel one other ∨ rel other one := by
  have symmetric : Std.Symm fun one other => rel one other ∨ rel other one := ⟨fun _ _ => Or.symm⟩
  have either : elements.Pairwise fun one other => rel one other ∨ rel other one := ordered.imp .inl
  exact either.forall listed also_listed different

private theorem pairwise_ahead (schema : Schema) (type : TypeName) :
    (schema.supertypes type).Pairwise (schema.Ahead type) :=
  FiniteGraph.pairwise_breadthFirst schema.hierarchy (schema.parents type)

namespace SingleParents

variable (single : schema.SingleParents)

include single

/-- So many steps lead to one ancestor only. -/
theorem eq_of_climbs {count : Nat} {one other : TypeName} (first : schema.Climbs count type one)
    (second : schema.Climbs count type other) : one = other := by
  induction first generalizing other with
  | stay => cases second; rfl
  | climb _ last ih =>
    cases second with
    | climb below last' => exact single _ _ _ last (ih below ▸ last')

/-- Of two ancestors the nearer one is the same or inherits from the farther one. -/
theorem eq_or_inherits_of_climbs {few many : Nat} {near far : TypeName} (first : schema.Climbs few type near)
    (second : schema.Climbs many type far) (fewer : few ≤ many) : near = far ∨ schema.Inherits near far := by
  induction second with
  | stay =>
    obtain rfl := Nat.le_zero.1 fewer
    exact .inl (single.eq_of_climbs first (.stay _))
  | climb below last ih =>
    rcases Nat.le_or_eq_of_le_succ fewer with fewer | rfl
    · rcases ih first fewer with rfl | inherits
      · exact .inr (.single last)
      · exact .inr (inherits.tail last)
    · exact .inl (single.eq_of_climbs first (.climb below last))

end SingleParents

namespace Acyclic

variable (acyclic : schema.Acyclic)

include acyclic

/-- An ancestor that is nearer has the earlier route. -/
theorem ahead_of_distance_lt {near far : TypeName} (inherits : schema.Inherits type near)
    (nearer : schema.distance type near < schema.distance type far) : schema.Ahead type near far := by
  obtain ⟨route, walk, length⟩ := acyclic.exists_route_distance inherits
  refine ⟨route, walk, fun other onward => .of_length_lt ?_⟩
  calc route.length = schema.distance type near := length
    _ < schema.distance type far := nearer
    _ ≤ other.length := acyclic.distance_le_length onward

/-- With single inheritance the more specific ancestors have the earlier routes. -/
theorem specificFirst_of_single (single : schema.SingleParents) (type : TypeName) : schema.SpecificFirst type := by
  intro specific general below above
  refine acyclic.ahead_of_distance_lt below (Nat.lt_of_not_le fun farther => ?_)
  obtain ⟨many, steps, climbs⟩ := acyclic.exists_climbs_distance below
  obtain ⟨few, steps', climbs'⟩ := acyclic.exists_climbs_distance (Relation.TransGen.trans below above)
  rw [steps, steps'] at farther
  rcases single.eq_or_inherits_of_climbs climbs' climbs farther with rfl | inherits
  · exact acyclic.irrefl _ above
  · exact acyclic.irrefl _ (Relation.TransGen.trans inherits above)

/-- The supertypes come in an order that puts the more specific first if and only if the routes do. -/
theorem pairwise_specific_iff :
    (schema.supertypes type).Pairwise (fun earlier later => ¬ schema.Inherits later earlier) ↔
      schema.SpecificFirst type := by
  constructor
  · intro listed specific general below above
    have different : specific ≠ general := fun same => acyclic.irrefl general (same ▸ above)
    rcases rel_or_rel_of_pairwise ((pairwise_ahead schema type).and listed) (acyclic.mem_supertypes.2 below)
      (acyclic.mem_supertypes.2 (Relation.TransGen.trans below above)) different with ⟨first, -⟩ | ⟨-, second⟩
    · exact first
    · exact absurd above second
  · intro first
    refine (pairwise_ahead schema type).imp_of_mem fun {earlier later} _ listed ahead above => ?_
    exact ahead.asymm (first later earlier (acyclic.mem_supertypes.1 listed) above)

/-- A search through the supertypes stops at the foremost that has something to give. -/
theorem exists_foremost {β : Type} (give : TypeName → Option β)
    (some_giving : ∃ super, schema.Inherits type super ∧ (give super).isSome = true) :
    ∃ super, schema.Foremost type (fun other => (give other).isSome = true) super ∧
      (schema.supertypes type).findSome? give = give super := by
  obtain ⟨known, inherits, gives⟩ := some_giving
  have found : ((schema.supertypes type).findSome? give).isSome = true :=
    List.findSome?_isSome_iff.2 ⟨known, acyclic.mem_supertypes.2 inherits, gives⟩
  obtain ⟨gift, found⟩ := Option.isSome_iff_exists.1 found
  obtain ⟨before, super, after, listed, given, silent⟩ := List.findSome?_eq_some_iff.1 found
  have member {other : TypeName} : other ∈ before ++ super :: after ↔ schema.Inherits type other := by
    rw [← listed, acyclic.mem_supertypes]
  have ahead := pairwise_ahead schema type
  rw [listed, List.pairwise_append, List.pairwise_cons] at ahead
  refine ⟨super, ⟨member.1 (List.mem_append_right _ List.mem_cons_self), ?_, fun other below gives different => ?_⟩,
    found.trans given.symm⟩
  · rw [given]
    rfl
  · rcases List.mem_append.1 (member.2 below) with earlier | later
    · rw [silent other earlier] at gives
      cases gives
    · exact ahead.2.1.1 other ((List.mem_cons.1 later).resolve_left different)

/-- The foremost ancestor that has something to give is what a search through the supertypes stops at. -/
theorem findSome?_eq {β : Type} {give : TypeName → Option β} {super : TypeName}
    (foremost : schema.Foremost type (fun other => (give other).isSome = true) super) :
    (schema.supertypes type).findSome? give = give super := by
  obtain ⟨other, again, found⟩ := acyclic.exists_foremost give ⟨super, foremost.inherits, foremost.giving⟩
  rw [found, again.unique foremost]

/-- If the more specific ancestors have the earlier routes, then no more specific one is passed over. -/
theorem not_inherits_foremost (first : schema.SpecificFirst type) {gives : TypeName → Prop} {super other : TypeName}
    (foremost : schema.Foremost type gives super) (below : schema.Inherits type other) (giving : gives other) :
    ¬ schema.Inherits other super := by
  intro above
  have different : other ≠ super := fun same => acyclic.irrefl super (same ▸ above)
  exact (foremost.ahead other below giving different).asymm (first other super below above)

end Acyclic

/-- A type without an equality of its own has that of the first supertype that declares one. -/
theorem equality?_eq (lacks : schema.ownEquality? type = none) :
    schema.equality? type = (schema.supertypes type).findSome? schema.ownEquality? := by
  have own : schema.equality? type = (type :: schema.supertypes type).findSome? schema.ownEquality? := rfl
  rw [own, List.findSome?_cons, lacks]

end Schema

namespace Handler.Dispatch

/-- A type that some handler was registered for by name. -/
def Named (calls : List Call) (type : TypeName) : Prop := (lastNamed? calls type).isSome = true

private theorem lastNamed?_singleton (call : Call) (type : TypeName) : lastNamed? [call] type = call.named? type := by
  rw [← List.nil_append [call], lastNamed?_append]
  exact Option.or_none

variable {schema : Schema} {calls : List Call} {type : TypeName}

/-- What two types are registered for, no third type is. -/
theorem named_add_pair {one other : TypeName} :
    Named [.add .basic [one, other]] type ↔ type = one ∨ type = other := by
  rw [Named, lastNamed?_singleton, Call.named?]
  split_ifs with listed
  · exact ⟨fun _ => by simpa using listed, fun _ => rfl⟩
  · exact ⟨nofun, fun named => absurd (by simpa using named) listed⟩

/-- A type without a handler of its own has that of the foremost ancestor that has one. -/
theorem get_eq_of_foremost (acyclic : schema.Acyclic) (lacks : lastNamed? calls type = none) {super : TypeName}
    (foremost : schema.Foremost type (Named calls) super) :
    ((afterCalls schema calls).get type).1 = lastNamed? calls super := by
  obtain ⟨handler, registered⟩ := Option.isSome_iff_exists.1 foremost.giving
  rw [get_fst, (reflects_afterCalls schema calls).resolve_eq, resolution, lacks, acyclic.findSome?_eq foremost,
    registered]
  rfl

/-- No registrations pass over a more specific ancestor if and only if such have the earlier routes. -/
theorem specificFirst_iff (acyclic : schema.Acyclic) :
    schema.SpecificFirst type ↔ ∀ calls, lastNamed? calls type = none → ∀ super,
      schema.Foremost type (Named calls) super → ∀ other, schema.Inherits type other → Named calls other →
        ¬ schema.Inherits other super := by
  constructor
  · intro first calls _ super foremost other below named
    exact acyclic.not_inherits_foremost first foremost below named
  · intro spared specific general below above
    have inherits : schema.Inherits type general := Relation.TransGen.trans below above
    let calls : List Call := [.add .basic [specific, general]]
    have lacks : lastNamed? calls type = none := by
      apply Option.eq_none_iff_forall_ne_some.2
      intro handler registered
      have named : Named calls type := by
        rw [Named, registered]
        rfl
      rcases named_add_pair.1 named with rfl | rfl
      · exact acyclic.irrefl _ below
      · exact acyclic.irrefl _ inherits
    obtain ⟨super, foremost, -⟩ := acyclic.exists_foremost (lastNamed? calls)
      ⟨specific, below, named_add_pair.2 (.inl rfl)⟩
    rcases named_add_pair.1 foremost.giving with rfl | rfl
    · refine foremost.ahead general inherits (named_add_pair.2 (.inr rfl)) fun same => ?_
      exact acyclic.irrefl general (same ▸ above)
    · exact absurd above (spared calls lacks _ foremost specific below (named_add_pair.2 (.inl rfl)))

end Handler.Dispatch

namespace Schema.Draft

open Handler.Dispatch (lastNamed? afterCalls Named)

/-- Which supertype gives its handler or its equality, and when this is never a less specific one. -/
theorem specificity_exact {decls : List TypeDecl} {schema : Schema} (built : (afterAttempts decls).build = .ok schema)
    (type : TypeName) :
    ((schema.supertypes type).Pairwise (fun earlier later => ¬ schema.Inherits later earlier) ↔
      schema.SpecificFirst type) ∧
    (schema.SingleParents → schema.SpecificFirst type) ∧
    (∀ calls, lastNamed? calls type = none → (∃ super, schema.Inherits type super ∧ Named calls super) →
      ∃ super, schema.Foremost type (Named calls) super ∧
        ((afterCalls schema calls).get type).1 = lastNamed? calls super) ∧
    (schema.SpecificFirst type ↔ ∀ calls, lastNamed? calls type = none → ∀ super,
      schema.Foremost type (Named calls) super → ∀ other, schema.Inherits type other → Named calls other →
        ¬ schema.Inherits other super) ∧
    let declares := fun other => (schema.ownEquality? other).isSome = true
    (schema.ownEquality? type = none → (∃ super, schema.Inherits type super ∧ declares super) →
      ∃ super, schema.Foremost type declares super ∧ schema.equality? type = schema.ownEquality? super ∧
        (schema.SpecificFirst type → ∀ other, schema.Inherits type other → declares other →
          ¬ schema.Inherits other super)) := by
  have acyclic := acyclic_of_build built
  refine ⟨acyclic.pairwise_specific_iff, fun single => acyclic.specificFirst_of_single single type,
    fun calls lacks some_named => ?_, Dispatch.specificFirst_iff acyclic, ?_⟩
  · obtain ⟨super, foremost, -⟩ := acyclic.exists_foremost (lastNamed? calls) some_named
    exact ⟨super, foremost, Dispatch.get_eq_of_foremost acyclic lacks foremost⟩
  · intro declares lacks some_declares
    obtain ⟨super, foremost, found⟩ := acyclic.exists_foremost schema.ownEquality? some_declares
    refine ⟨super, foremost, (equality?_eq lacks).trans found, fun first other below declared => ?_⟩
    exact acyclic.not_inherits_foremost first foremost below declared

namespace Jewels

/-- A ruby is a stone at once, and a gem, which is a stone too. -/
def decls : List TypeDecl :=
  [{ name := ⟨"Stone"⟩, equality? := some (.always true) },
    { name := ⟨"Gem"⟩, parents := [⟨"Stone"⟩], equality? := some (.always false) },
    { name := ⟨"Ruby"⟩, parents := [⟨"Stone"⟩, ⟨"Gem"⟩] }, { name := ⟨"Opal"⟩, parents := [⟨"Gem"⟩, ⟨"Stone"⟩] }]

def schema : Schema := ⟨decls⟩

def calls : List Handler.Dispatch.Call := [.add .basic [⟨"Stone"⟩], .add .null [⟨"Gem"⟩]]

private theorem built : (afterAttempts decls).build = .ok schema := build_eq_ok (by decide +kernel) (by decide +kernel)

private theorem gem_inherits : schema.Inherits ⟨"Gem"⟩ ⟨"Stone"⟩ := by
  rw [← (acyclic_of_build built).mem_supertypes]
  decide +kernel

/-- Rubies are stones before they are gems, though gems are stones, and so they are treated and compared as
stones. -/
theorem ruby_stone_first :
    (afterAttempts decls).build = .ok schema ∧ schema.Inherits ⟨"Gem"⟩ ⟨"Stone"⟩ ∧
      schema.supertypes ⟨"Ruby"⟩ = [⟨"Stone"⟩, ⟨"Gem"⟩] ∧
      lastNamed? calls ⟨"Ruby"⟩ = none ∧ lastNamed? calls ⟨"Gem"⟩ = some .null ∧
      ((afterCalls schema calls).get ⟨"Ruby"⟩).1 = some .basic ∧
      schema.ownEquality? ⟨"Ruby"⟩ = none ∧ schema.ownEquality? ⟨"Gem"⟩ = some (.always false) ∧
      schema.equality? ⟨"Ruby"⟩ = some (.always true) := by
  have supertypes : schema.supertypes ⟨"Ruby"⟩ = [⟨"Stone"⟩, ⟨"Gem"⟩] := by decide +kernel
  refine ⟨built, gem_inherits, supertypes, by decide, by decide, by decide +kernel, rfl, rfl, ?_⟩
  rw [equality?, supertypes]
  rfl

/-- Opals are gems before they are stones, and so they are treated as gems. -/
theorem opal_gem_first :
    schema.SpecificFirst ⟨"Opal"⟩ ∧ schema.Foremost ⟨"Opal"⟩ (Named calls) ⟨"Gem"⟩ ∧
      ((afterCalls schema calls).get ⟨"Opal"⟩).1 = some .null := by
  have acyclic := acyclic_of_build built
  have supertypes : schema.supertypes ⟨"Opal"⟩ = [⟨"Gem"⟩, ⟨"Stone"⟩] := by decide +kernel
  have upward : ¬ schema.Inherits ⟨"Stone"⟩ ⟨"Gem"⟩ := by
    rw [← acyclic.mem_supertypes]
    decide +kernel
  obtain ⟨listed, -, resolved, -⟩ := specificity_exact built ⟨"Opal"⟩
  have first : schema.SpecificFirst ⟨"Opal"⟩ := by
    rw [← listed, supertypes]
    simpa using upward
  have inherits : schema.Inherits ⟨"Opal"⟩ ⟨"Gem"⟩ := by
    rw [← acyclic.mem_supertypes, supertypes]
    exact List.mem_cons_self
  obtain ⟨super, foremost, given⟩ := resolved calls (by decide) ⟨⟨"Gem"⟩, inherits, rfl⟩
  have gem : super = ⟨"Gem"⟩ := by
    have above := acyclic.mem_supertypes.2 foremost.inherits
    rw [supertypes] at above
    rcases List.mem_pair.1 above with gem | stone
    · exact gem
    · subst stone
      exact absurd gem_inherits (acyclic.not_inherits_foremost first foremost inherits rfl)
  subst gem
  exact ⟨first, foremost, given⟩

end Jewels

end Schema.Draft

end Reconciler
