import Reconciler.Proofs.Episode.Account

/-! # How many results an object has

A run records the counterpart of an object when it first meets it and answers with the record from then
on. The first answer itself may be another one: an object that is passed through is answered with what it
stands for, whatever was recorded. So the results of one object agree unless it is passed through beside a
counterpart of its own and met again.
-/

namespace Reconciler

/-- A request to reconcile the object was answered with the result. -/
def World.Reconciled (after : World) (source : ObjectId) (result : Value) : Prop :=
  ∃ request, request.reconciled? = some (.object source) ∧
    .answered request result ∈ after.journal

/-- An object is passed through beside a counterpart if its handler does not rebuild anything, or if it has
no handler and the counterpart is no entity. -/
def World.Passes (world : World) (source : ObjectId) (counterpart : Value) : Prop :=
  match world.handler? source with
  | some handler => handler ∈ [.basic, .null, .frozen]
  | none => ∀ target, counterpart = .object target → world.heap.Holds target →
      world.store.entity? (world.heap.node target).type = none

/-- Every result is the recorded counterpart, or what an object stands for that is passed through. -/
theorem Course.reconciled_cases {setting : Setting} {start now : World} (course : Course setting start now)
    (quiet : start.journal = []) {source : ObjectId} (held : start.heap.Holds source) {result : Value}
    (reconciled : now.Reconciled source result) :
    now.visits.get? source = some result ∨
      result = start.standIn source ∧
        ((∀ counterpart, start.Passes source counterpart) ∨
          ∃ counterpart, now.visits.get? source = some counterpart ∧
            start.Passes source counterpart) := by
  obtain ⟨request, about, member⟩ := reconciled
  obtain ⟨earlier, before, onward, resolved⟩ := course.answered_once quiet member
  have since := before.later
  have handler := since.handler?_eq held
  cases resolved (.object source) about nofun with
  | recorded known => exact .inl (onward.visits _ _ known)
  | inert known idle =>
    refine .inr ⟨since.standIn_eq held, .inl fun counterpart => ?_⟩
    rw [World.Passes, ← handler, known]
    exact idle
  | unmanaged known unhandled other =>
    refine .inr ⟨since.standIn_eq held, .inr ⟨_, onward.visits _ _ known, ?_⟩⟩
    rw [World.Passes, ← handler, unhandled]
    intro target paired present
    rw [← since.entity?_eq present]
    exact other target paired

/-- The results of one object agree, unless it was passed through beside a counterpart other than what it
stands for, and met again. -/
theorem Reconciliation.results_agree_iff {setting : Setting} {world : World}
    {outcome : Except Ending Value × World} (run : Reconciliation setting world outcome)
    {source : ObjectId} (held : world.heap.Holds source) :
    (∀ first second, outcome.2.Reconciled source first → outcome.2.Reconciled source second →
        first = second) ↔
      ¬ ∃ counterpart, outcome.2.visits.get? source = some counterpart ∧
        world.Passes source counterpart ∧ counterpart ≠ world.standIn source ∧
        outcome.2.Reconciled source counterpart ∧
        outcome.2.Reconciled source (world.standIn source) := by
  have cases := fun result (reconciled : outcome.2.Reconciled source result) =>
    run.course.reconciled_cases rfl held reconciled
  constructor
  · rintro agree ⟨counterpart, _, _, different, again, once⟩
    exact different (agree _ _ again once)
  · intro excluded
    have mixed : ∀ first second, outcome.2.Reconciled source first → outcome.2.Reconciled source second →
        outcome.2.visits.get? source = some first → second = world.standIn source →
        ((∀ counterpart, world.Passes source counterpart) ∨
          ∃ counterpart, outcome.2.visits.get? source = some counterpart ∧
            world.Passes source counterpart) → first = second := by
      rintro first _ again once recorded rfl passes
      have passed : world.Passes source first := by
        rcases passes with all | ⟨counterpart, known, passed⟩
        · exact all first
        · obtain rfl := Option.some.inj (recorded.symm.trans known)
          exact passed
      exact Decidable.byContradiction fun different =>
        excluded ⟨first, recorded, passed, different, again, once⟩
    intro first second one two
    rcases cases first one with recorded | ⟨stands, passes⟩ <;>
      rcases cases second two with known | ⟨equals, passed⟩
    · exact Option.some.inj (recorded.symm.trans known)
    · exact mixed first second one two recorded equals passed
    · exact (mixed second first two one known stands passes).symm
    · rw [stands, equals]

namespace HeldTwice

def schema : Schema :=
  ⟨[{ name := ⟨"Holder"⟩, properties := .ofList [("id", .field), ("p", .field), ("q", .field)] }]⟩

def holder (p q : Value) : Node := .bean ⟨"Holder"⟩ [("id", .int 1), ("p", p), ("q", q)]

/-- A stored holder of the notes 0 and 1, and a detached holder that holds note 3 twice. -/
def world : World where
  heap := ⟨#[.bean ⟨"Note"⟩ [("t", .int 1)], .bean ⟨"Note"⟩ [("t", .int 2)],
    { holder (.object ⟨0⟩) (.object ⟨1⟩) with origin := .stored }, .bean ⟨"Note"⟩ [("t", .int 3)],
    holder (.object ⟨3⟩) (.object ⟨3⟩)]⟩
  store := { entities := .ofList [(⟨"Holder"⟩, { type := ⟨"Holder"⟩, idProperty := "id" })], stored := [⟨2⟩] }
  dispatch := .ofRegistry (.withDefaults schema)
  cache := .ofSchema schema

def outcome : Except Ending Value × World := Setting.apply { schema } (.object ⟨4⟩) world.rested

/-- The detached holder is paired with an entity, so it has one result. -/
theorem holder_results_agree :
    Reconciliation { schema } world outcome ∧ world.heap.Holds ⟨4⟩ ∧
      ∀ first second, outcome.2.Reconciled ⟨4⟩ first → outcome.2.Reconciled ⟨4⟩ second →
        first = second := by
  have run : Reconciliation { schema } world outcome := .apply _
  have held : world.heap.Holds ⟨4⟩ := by decide
  refine ⟨run, held, (run.results_agree_iff held).2 ?_⟩
  rintro ⟨counterpart, recorded, passes, -⟩
  have known : outcome.2.visits.get? ⟨4⟩ = some (.object ⟨2⟩) := by decide +kernel
  obtain rfl := Option.some.inj (known.symm.trans recorded)
  have unhandled : world.handler? ⟨4⟩ = none := by decide +kernel
  simp only [World.Passes, unhandled] at passes
  exact absurd (passes ⟨2⟩ rfl (by decide)) (by decide +kernel)

/-- The note comes out as itself the first time and as the note it was paired with the second time, so
the properties that shared it hold two notes. -/
theorem note_results_differ :
    ¬ (∀ first second, outcome.2.Reconciled ⟨3⟩ first → outcome.2.Reconciled ⟨3⟩ second →
        first = second) ∧
      (outcome.2.heap.node ⟨2⟩).attr "p" = .object ⟨3⟩ ∧
      (outcome.2.heap.node ⟨2⟩).attr "q" = .object ⟨0⟩ := by
  refine ⟨fun agree => ?_, by decide +kernel, by decide +kernel⟩
  have first : outcome.2.Reconciled ⟨3⟩ (.object ⟨3⟩) :=
    ⟨.applyTo (.object ⟨3⟩) (.object ⟨0⟩), rfl, by decide +kernel⟩
  have second : outcome.2.Reconciled ⟨3⟩ (.object ⟨0⟩) :=
    ⟨.applyTo (.object ⟨3⟩) (.object ⟨1⟩), rfl, by decide +kernel⟩
  cases agree _ _ first second

end HeldTwice

end Reconciler
