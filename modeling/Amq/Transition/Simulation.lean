import Mathlib.Logic.Function.Basic
import Amq.Transition.Refinement

/-!
# Simulations between machines

A state of one machine may show a state of another without determining it.  If
every step that meets `allowed` is matched by steps of the other machine, so is
every run, and a condition that each match respects carries over.
-/

namespace Amq.Transition

universe u v w x

/-- A weaker condition holds as well. -/
theorem Machine.throughout_mono
    {σ : Type u} {ε : Type v} {machine : Machine σ ε}
    {allowed weaker : σ → ε → Prop}
    (weakens : ∀ state event, allowed state event → weaker state event)
    {state : σ} {schedule : List ε}
    (condition : machine.Throughout allowed state schedule) :
    machine.Throughout weaker state schedule := by
  induction schedule generalizing state with
  | nil => trivial
  | cons event rest inductionHypothesis =>
      refine ⟨weakens state event condition.1, ?_⟩
      intro next stepped
      exact inductionHypothesis (condition.2 next stepped)

/-- The steps of `abstract` match the allowed ones of `concrete`. -/
def Machine.Simulates
    {σ : Type u} {ε : Type v} {τ : Type w} {δ : Type x}
    (abstract : Machine τ δ) (concrete : Machine σ ε)
    (allowed concretely : σ → ε → Prop) (abstractly : τ → δ → Prop)
    (shows : σ → τ → Prop) : Prop :=
  ∀ state event next shown, shows state shown → allowed state event →
    concrete.step state event = some next →
      ∃ schedule shown', abstract.run shown schedule = some shown' ∧
        shows next shown' ∧
        (concretely state event → abstract.Throughout abstractly shown schedule)

theorem Machine.Simulates.run
    {σ : Type u} {ε : Type v} {τ : Type w} {δ : Type x}
    {abstract : Machine τ δ} {concrete : Machine σ ε}
    {allowed concretely : σ → ε → Prop} {abstractly : τ → δ → Prop}
    {shows : σ → τ → Prop}
    (simulates : abstract.Simulates concrete allowed concretely abstractly shows)
    {state target : σ} {schedule : List ε} {shown : τ}
    (initially : shows state shown)
    (condition : concrete.Throughout allowed state schedule)
    (execution : concrete.run state schedule = some target) :
    ∃ schedule' shown', abstract.run shown schedule' = some shown' ∧
      shows target shown' ∧
      (concrete.Throughout concretely state schedule →
        abstract.Throughout abstractly shown schedule') := by
  induction schedule generalizing state shown with
  | nil =>
      simp only [Machine.run_nil, Option.some.injEq] at execution
      exact ⟨[], shown, rfl, execution ▸ initially, fun _ => trivial⟩
  | cons event rest inductionHypothesis =>
      obtain ⟨next, stepped, remaining⟩ := Machine.run_cons_iff.mp execution
      obtain ⟨first, middle, reached, nextShows, firstMeets⟩ :=
        simulates state event next shown initially condition.1 stepped
      obtain ⟨second, last, continued, targetShows, secondMeets⟩ :=
        inductionHypothesis nextShows (condition.2 next stepped) remaining
      refine ⟨first ++ second, last, ?_, targetShows, ?_⟩
      · rw [Machine.run_append, reached]
        exact continued
      · intro concretely
        rw [Refinement.throughout_append reached]
        exact ⟨firstMeets concretely.1, secondMeets (concretely.2 next stepped)⟩

/-- Where one of several machines takes a step, each of them takes this step or
none. -/
theorem Machine.exists_run_update
    {ι : Type w} {σ : Type u} {ε : Type v} [DecidableEq ι]
    (machine : ι → Machine σ ε) {states : ι → σ} {mover : ι} {event : ε}
    {after : σ}
    (stepped : (machine mover).step (states mover) event = some after)
    (place : ι) :
    ∃ events,
      (machine place).run (states place) events =
          some (Function.update states mover after place) ∧
        ∀ own ∈ events, own = event ∧ place = mover := by
  by_cases same : place = mover
  · subst same
    refine ⟨[event], ?_, ?_⟩
    · rw [Machine.run_singleton, Function.update_self]
      exact stepped
    · intro own member
      exact ⟨List.mem_singleton.mp member, rfl⟩
  · refine ⟨[], ?_, List.forall_mem_nil _⟩
    rw [Machine.run_nil, Function.update_of_ne same]

end Amq.Transition
