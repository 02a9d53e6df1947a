import Mathlib.Order.Basic
import Mathlib.Data.List.Basic

/-!
# Event-driven machines and their runs

A machine starts in one state and reacts to events.  An event which the machine
cannot take in its current state has no successor, so a schedule that asks for
it has no run at all; a failure is never turned into a silent step.

The module keeps three forms of reasoning apart: invariants of every run,
invariants of the runs whose steps all meet a condition, and conditions that
decide *exactly* when a persistent defect is avoided.
-/

namespace Amq.Transition

universe u v

/-- A deterministic machine driven by events. -/
structure Machine (σ : Type u) (ε : Type v) where
  initial : σ
  step : σ → ε → Option σ

namespace Machine

variable {σ : Type u} {ε : Type v}

/-- Take the events of a schedule one after another. -/
def run (machine : Machine σ ε) : σ → List ε → Option σ
  | state, [] => some state
  | state, event :: rest =>
      (machine.step state event).bind fun next => machine.run next rest

/-- `state` is the result of some schedule from the initial state. -/
def Reachable (machine : Machine σ ε) (state : σ) : Prop :=
  ∃ schedule, machine.run machine.initial schedule = some state

/-- Every step that the schedule takes from `state` meets `allowed`, which sees
the state before the step and the event. -/
def Throughout (machine : Machine σ ε) (allowed : σ → ε → Prop) :
    σ → List ε → Prop
  | _, [] => True
  | state, event :: rest =>
      allowed state event ∧
        ∀ next, machine.step state event = some next →
          machine.Throughout allowed next rest

@[simp]
theorem run_nil (machine : Machine σ ε) (state : σ) :
    machine.run state [] = some state :=
  rfl

theorem run_cons_iff
    {machine : Machine σ ε} {state target : σ} {event : ε} {rest : List ε} :
    machine.run state (event :: rest) = some target ↔
      ∃ next, machine.step state event = some next ∧
        machine.run next rest = some target := by
  simp only [run, Option.bind_eq_some_iff]

@[simp]
theorem run_singleton
    (machine : Machine σ ε) (state : σ) (event : ε) :
    machine.run state [event] = machine.step state event := by
  simp [run]

theorem run_append
    (machine : Machine σ ε) (state : σ) (first second : List ε) :
    machine.run state (first ++ second) =
      (machine.run state first).bind fun middle => machine.run middle second := by
  induction first generalizing state with
  | nil => rfl
  | cons event rest inductionHypothesis =>
      simp only [List.cons_append, run, Option.bind_assoc]
      congr 1
      funext next
      exact inductionHypothesis next

theorem throughout_cons
    {machine : Machine σ ε} {allowed : σ → ε → Prop}
    {state next : σ} {event : ε} {rest : List ε}
    (now : allowed state event)
    (stepped : machine.step state event = some next)
    (later : machine.Throughout allowed next rest) :
    machine.Throughout allowed state (event :: rest) := by
  refine ⟨now, ?_⟩
  intro following taken
  have same : following = next := Option.some.inj (taken.symm.trans stepped)
  rw [same]
  exact later

/-! ## Invariants -/

/-- `invariant` is kept by every step that meets `allowed`. -/
def PreservedUnder
    (machine : Machine σ ε) (allowed : σ → ε → Prop) (invariant : σ → Prop) :
    Prop :=
  ∀ state event next,
    invariant state → allowed state event →
      machine.step state event = some next → invariant next

/-- `invariant` is kept by every step. -/
def Preserved (machine : Machine σ ε) (invariant : σ → Prop) : Prop :=
  ∀ state event next,
    invariant state → machine.step state event = some next → invariant next

theorem run_invariant_under
    {machine : Machine σ ε} {allowed : σ → ε → Prop} {invariant : σ → Prop}
    (preserved : machine.PreservedUnder allowed invariant)
    {state target : σ} {schedule : List ε}
    (initially : invariant state)
    (condition : machine.Throughout allowed state schedule)
    (execution : machine.run state schedule = some target) :
    invariant target := by
  induction schedule generalizing state with
  | nil =>
      simp only [run_nil, Option.some.injEq] at execution
      exact execution ▸ initially
  | cons event rest inductionHypothesis =>
      obtain ⟨next, stepped, remaining⟩ := run_cons_iff.mp execution
      exact inductionHypothesis
        (preserved state event next initially condition.1 stepped)
        (condition.2 next stepped) remaining

theorem throughout_true
    (machine : Machine σ ε) (state : σ) (schedule : List ε) :
    machine.Throughout (fun _ _ => True) state schedule := by
  induction schedule generalizing state with
  | nil => trivial
  | cons event rest inductionHypothesis =>
      exact ⟨trivial, fun next _ => inductionHypothesis next⟩

theorem run_invariant
    {machine : Machine σ ε} {invariant : σ → Prop}
    (preserved : machine.Preserved invariant)
    {state target : σ} {schedule : List ε}
    (initially : invariant state)
    (execution : machine.run state schedule = some target) :
    invariant target := by
  have unconditional : machine.PreservedUnder (fun _ _ => True) invariant :=
    fun current event next holds _ stepped =>
      preserved current event next holds stepped
  exact run_invariant_under unconditional initially
    (throughout_true machine state schedule) execution

theorem reachable_invariant
    {machine : Machine σ ε} {invariant : σ → Prop}
    (initially : invariant machine.initial)
    (preserved : machine.Preserved invariant)
    {state : σ} (reachable : machine.Reachable state) :
    invariant state := by
  obtain ⟨schedule, execution⟩ := reachable
  exact run_invariant preserved initially execution

/-- A condition that can be decided at each step can be decided along a
schedule. -/
instance decidableThroughout
    (machine : Machine σ ε) (allowed : σ → ε → Prop)
    [∀ state event, Decidable (allowed state event)] :
    ∀ state schedule, Decidable (machine.Throughout allowed state schedule)
  | _, [] => isTrue trivial
  | state, event :: rest =>
      match stepped : machine.step state event with
      | none =>
          decidable_of_iff (allowed state event)
            ⟨fun now => ⟨now, fun _ taken => by cases stepped.symm.trans taken⟩,
              And.left⟩
      | some next =>
          let _ := decidableThroughout machine allowed next rest
          decidable_of_iff
            (allowed state event ∧ machine.Throughout allowed next rest)
            ⟨fun both => throughout_cons both.1 stepped both.2,
              fun condition => ⟨condition.1, condition.2 next stepped⟩⟩

/-- A condition on the events alone is a condition on the schedule. -/
theorem throughout_events_iff
    {machine : Machine σ ε} {allowed : ε → Prop}
    {state target : σ} {schedule : List ε}
    (execution : machine.run state schedule = some target) :
    machine.Throughout (fun _ event => allowed event) state schedule ↔
      ∀ event ∈ schedule, allowed event := by
  induction schedule generalizing state with
  | nil => simp [Throughout]
  | cons event rest inductionHypothesis =>
      obtain ⟨next, stepped, remaining⟩ := run_cons_iff.mp execution
      have later := inductionHypothesis remaining
      rw [List.forall_mem_cons]
      constructor
      · rintro ⟨now, condition⟩
        exact ⟨now, later.mp (condition next stepped)⟩
      · rintro ⟨now, condition⟩
        exact throughout_cons now stepped (later.mpr condition)

/-! ## Exact conditions

A defect is persistent when no later step repairs it.  If the steps that
introduce it are exactly those that break `allowed`, a run is free of it exactly
when all its steps meet `allowed`. -/

theorem sound_iff_throughout
    {machine : Machine σ ε} {invariant : σ → Prop}
    (sound : σ → Prop) (allowed : σ → ε → Prop)
    (preserved : machine.Preserved invariant)
    (persistent :
      ∀ state event next, invariant state →
        machine.step state event = some next → sound next → sound state)
    (exact_step :
      ∀ state event next, invariant state → sound state →
        machine.step state event = some next →
          (sound next ↔ allowed state event))
    {state target : σ} {schedule : List ε}
    (initially : invariant state) (soundly : sound state)
    (execution : machine.run state schedule = some target) :
    sound target ↔ machine.Throughout allowed state schedule := by
  induction schedule generalizing state with
  | nil =>
      simp only [run_nil, Option.some.injEq] at execution
      simp only [Throughout, iff_true]
      exact execution ▸ soundly
  | cons event rest inductionHypothesis =>
      obtain ⟨next, stepped, remaining⟩ := run_cons_iff.mp execution
      have nextInvariant : invariant next :=
        preserved state event next initially stepped
      have decided : sound next ↔ allowed state event :=
        exact_step state event next initially soundly stepped
      constructor
      · intro finallySound
        have nextSound : sound next := by
          have backwards :
              machine.Preserved
                (fun current => invariant current ∧ ¬ sound current) := by
            rintro current taken following ⟨holds, unsound⟩ taking
            refine ⟨preserved current taken following holds taking, ?_⟩
            intro repaired
            exact unsound
              (persistent current taken following holds taking repaired)
          by_contra unsound
          exact
            (run_invariant backwards ⟨nextInvariant, unsound⟩ remaining).2
              finallySound
        refine ⟨decided.mp nextSound, ?_⟩
        intro following taken
        have same : following = next :=
          Option.some.inj (taken.symm.trans stepped)
        subst same
        exact (inductionHypothesis nextInvariant nextSound remaining).mp
          finallySound
      · rintro ⟨now, later⟩
        exact (inductionHypothesis nextInvariant (decided.mpr now) remaining).mpr
          (later next stepped)

end Machine

end Amq.Transition
