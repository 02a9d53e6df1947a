import Amq.Transition.Machine

/-!
# Machines that are watched

A monitor keeps a record beside the state of a machine without disturbing it.
Conditions on steps can then speak of what has happened before.
-/

namespace Amq.Transition

universe u v w

namespace Machine

variable {σ : Type u} {ε : Type v} {μ : Type w}

/-- The machine together with a record that each step updates. -/
def watched
    (machine : Machine σ ε) (watch : μ → σ → ε → μ) (start : μ) :
    Machine (σ × μ) ε where
  initial := (machine.initial, start)
  step := fun state event =>
    (machine.step state.1 event).map fun next =>
      (next, watch state.2 state.1 event)

theorem watched_step_iff
    {machine : Machine σ ε} {watch : μ → σ → ε → μ} {start : μ}
    {state next : σ × μ} {event : ε} :
    (machine.watched watch start).step state event = some next ↔
      machine.step state.1 event = some next.1 ∧
        next.2 = watch state.2 state.1 event := by
  obtain ⟨following, record⟩ := next
  simp only [watched, Option.map_eq_some_iff, Prod.mk.injEq]
  constructor
  · rintro ⟨other, stepped, rfl, rfl⟩
    exact ⟨stepped, rfl⟩
  · rintro ⟨stepped, rfl⟩
    exact ⟨following, stepped, rfl, rfl⟩

/-- A run of the machine can be watched. -/
theorem exists_run_watched
    {machine : Machine σ ε} (watch : μ → σ → ε → μ) (start : μ)
    {state target : σ} {schedule : List ε}
    (execution : machine.run state schedule = some target) (record : μ) :
    ∃ finally_,
      (machine.watched watch start).run (state, record) schedule =
        some (target, finally_) := by
  induction schedule generalizing state record with
  | nil =>
      simp only [run_nil, Option.some.injEq] at execution
      exact ⟨record, by rw [execution]; rfl⟩
  | cons event rest inductionHypothesis =>
      obtain ⟨next, stepped, remaining⟩ := run_cons_iff.mp execution
      obtain ⟨finally_, watchedRun⟩ :=
        inductionHypothesis remaining (watch record state event)
      exact ⟨finally_,
        run_cons_iff.mpr ⟨_, watched_step_iff.mpr ⟨stepped, rfl⟩, watchedRun⟩⟩

/-- A watched run is a run of the machine. -/
theorem run_of_watched
    {machine : Machine σ ε} {watch : μ → σ → ε → μ} {start : μ}
    {state target : σ × μ} {schedule : List ε}
    (execution : (machine.watched watch start).run state schedule = some target) :
    machine.run state.1 schedule = some target.1 := by
  induction schedule generalizing state with
  | nil =>
      simp only [run_nil, Option.some.injEq] at execution
      rw [execution]
      rfl
  | cons event rest inductionHypothesis =>
      obtain ⟨next, stepped, remaining⟩ := run_cons_iff.mp execution
      have moved := (watched_step_iff.mp stepped).1
      exact run_cons_iff.mpr ⟨next.1, moved, inductionHypothesis remaining⟩

theorem Throughout.and
    {machine : Machine σ ε} {left right : σ → ε → Prop}
    {state : σ} {schedule : List ε}
    (first : machine.Throughout left state schedule)
    (second : machine.Throughout right state schedule) :
    machine.Throughout (fun current event => left current event ∧ right current event)
      state schedule := by
  induction schedule generalizing state with
  | nil => trivial
  | cons event rest inductionHypothesis =>
      refine ⟨⟨first.1, second.1⟩, ?_⟩
      intro next stepped
      exact inductionHypothesis (first.2 next stepped) (second.2 next stepped)

/-- What holds throughout a schedule holds of its last step. -/
theorem throughout_last
    {machine : Machine σ ε} {allowed : σ → ε → Prop}
    {state target : σ} {schedule : List ε} {event : ε}
    (condition : machine.Throughout allowed state (schedule ++ [event]))
    (execution : machine.run state schedule = some target) :
    allowed target event := by
  induction schedule generalizing state with
  | nil =>
      simp only [run_nil, Option.some.injEq] at execution
      exact execution ▸ condition.1
  | cons first rest inductionHypothesis =>
      obtain ⟨next, stepped, remaining⟩ := run_cons_iff.mp execution
      exact inductionHypothesis (condition.2 next stepped) remaining

/-- Conditions that agree on every step of a run hold throughout it alike. -/
theorem throughout_congr
    {machine : Machine σ ε} {invariant : σ → Prop}
    (left right : σ → ε → Prop)
    (preserved : machine.Preserved invariant)
    (agree :
      ∀ state event next, invariant state →
        machine.step state event = some next →
          (left state event ↔ right state event))
    {state target : σ} {schedule : List ε}
    (initially : invariant state)
    (execution : machine.run state schedule = some target) :
    machine.Throughout left state schedule ↔
      machine.Throughout right state schedule := by
  induction schedule generalizing state with
  | nil => exact Iff.rfl
  | cons event rest inductionHypothesis =>
      obtain ⟨next, stepped, remaining⟩ := run_cons_iff.mp execution
      have later :=
        inductionHypothesis (preserved state event next initially stepped)
          remaining
      have now := agree state event next initially stepped
      constructor
      · rintro ⟨holds, condition⟩
        exact throughout_cons (now.mp holds) stepped
          (later.mp (condition next stepped))
      · rintro ⟨holds, condition⟩
        exact throughout_cons (now.mpr holds) stepped
          (later.mpr (condition next stepped))

/-- Every step of a schedule leads to a sound state exactly when every state that
it comes to is sound. -/
theorem throughout_next_iff
    {machine : Machine σ ε} (sound : σ → Prop) {state target : σ}
    {schedule : List ε} (soundly : sound state)
    (execution : machine.run state schedule = some target) :
    machine.Throughout
        (fun current event =>
          ∀ next, machine.step current event = some next → sound next)
        state schedule ↔
      ∀ first current, first <+: schedule →
        machine.run state first = some current → sound current := by
  induction schedule generalizing state with
  | nil =>
      refine iff_of_true trivial ?_
      intro first current isPrefix reached
      rw [List.prefix_nil.mp isPrefix, run_nil] at reached
      exact Option.some.inj reached ▸ soundly
  | cons event rest inductionHypothesis =>
      obtain ⟨next, stepped, remaining⟩ := run_cons_iff.mp execution
      constructor
      · intro ⟨now, later⟩ first current isPrefix reached
        cases first with
        | nil => exact Option.some.inj reached ▸ soundly
        | cons taken others =>
            obtain ⟨same, shorter⟩ := List.cons_prefix_cons.mp isPrefix
            subst same
            obtain ⟨following, moved, reached⟩ := run_cons_iff.mp reached
            cases stepped.symm.trans moved
            exact (inductionHypothesis (now next stepped) remaining).mp
              (later next stepped) others current shorter reached
      · intro visited
        have nextSound : sound next :=
          visited [event] next (List.cons_prefix_cons.mpr ⟨rfl, List.nil_prefix⟩)
            (by rw [run_singleton]; exact stepped)
        refine throughout_cons ?_ stepped ?_
        · intro following moved
          cases stepped.symm.trans moved
          exact nextSound
        · refine (inductionHypothesis nextSound remaining).mpr ?_
          intro first current isPrefix reached
          exact visited (event :: first) current
            (List.cons_prefix_cons.mpr ⟨rfl, isPrefix⟩)
            (run_cons_iff.mpr ⟨next, stepped, reached⟩)

/-- If the steps that keep `sound` are exactly those that meet `allowed`, every
state of a run is sound exactly when all its steps meet `allowed`. -/
theorem throughout_sound_iff
    {machine : Machine σ ε} {assumed : σ → ε → Prop} {invariant : σ → Prop}
    (sound : σ → Prop) (allowed : σ → ε → Prop)
    (preserved : machine.PreservedUnder assumed invariant)
    (exact_step :
      ∀ state event next, invariant state → sound state →
        machine.step state event = some next →
          (sound next ↔ allowed state event))
    {state target : σ} {schedule : List ε}
    (initially : invariant state) (soundly : sound state)
    (assumption : machine.Throughout assumed state schedule)
    (execution : machine.run state schedule = some target) :
    machine.Throughout
        (fun current event =>
          ∀ next, machine.step current event = some next → sound next)
        state schedule ↔
      machine.Throughout allowed state schedule := by
  induction schedule generalizing state with
  | nil => exact Iff.rfl
  | cons event rest inductionHypothesis =>
      obtain ⟨next, stepped, remaining⟩ := run_cons_iff.mp execution
      have decided := exact_step state event next initially soundly stepped
      have nextInvariant :=
        preserved state event next initially assumption.1 stepped
      have further (nextSound : sound next) :=
        inductionHypothesis nextInvariant nextSound (assumption.2 next stepped)
          remaining
      constructor
      · intro ⟨now, later⟩
        have nextSound := now next stepped
        exact throughout_cons (decided.mp nextSound) stepped
          ((further nextSound).mp (later next stepped))
      · intro ⟨now, later⟩
        have nextSound := decided.mpr now
        refine throughout_cons ?_ stepped
          ((further nextSound).mpr (later next stepped))
        intro following taken
        cases stepped.symm.trans taken
        exact nextSound

/-- A run that breaks a condition has a first part whose last step breaks it. -/
theorem exists_breaking_step
    {machine : Machine σ ε} {allowed : σ → ε → Prop}
    {state target : σ} {schedule : List ε}
    (execution : machine.run state schedule = some target)
    (broken : ¬ machine.Throughout allowed state schedule) :
    ∃ first event rest current next,
      schedule = first ++ event :: rest ∧
        machine.run state first = some current ∧
        machine.Throughout allowed state first ∧
        machine.step current event = some next ∧ ¬ allowed current event := by
  induction schedule generalizing state with
  | nil => exact absurd trivial broken
  | cons event rest inductionHypothesis =>
      obtain ⟨next, stepped, remaining⟩ := run_cons_iff.mp execution
      by_cases now : allowed state event
      · have later : ¬ machine.Throughout allowed next rest :=
          fun kept => broken (throughout_cons now stepped kept)
        obtain ⟨first, last, others, current, following, same, reached, kept,
          taken, breaks⟩ := inductionHypothesis remaining later
        refine ⟨event :: first, last, others, current, following, ?_, ?_, ?_,
          taken, breaks⟩
        · rw [same]
          rfl
        · exact run_cons_iff.mpr ⟨next, stepped, reached⟩
        · exact throughout_cons now stepped kept
      · exact ⟨[], event, rest, state, next, rfl, rfl, trivial, stepped, now⟩

end Machine

end Amq.Transition
