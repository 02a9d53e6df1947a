import Amq.Transition.Machine

/-!
# Functional refinement between machines

A concrete machine refines an abstract one when its states can be read as
abstract states and each concrete step performs a, possibly empty, sequence of
abstract steps.  Runs then carry over, and so does every condition on steps
which the translation of one step respects.
-/

namespace Amq.Transition

universe u v w x

/-- A reading of the states and steps of `concrete` in `abstract`. -/
structure Refinement
    {σ : Type u} {ε : Type v} {τ : Type w} {δ : Type x}
    (concrete : Machine σ ε) (abstract : Machine τ δ) where
  abstraction : σ → τ
  translate : σ → ε → List δ
  initial : abstraction concrete.initial = abstract.initial
  step :
    ∀ state event next, concrete.step state event = some next →
      abstract.run (abstraction state) (translate state event) =
        some (abstraction next)

namespace Refinement

variable {σ : Type u} {ε : Type v} {τ : Type w} {δ : Type x}
variable {concrete : Machine σ ε} {abstract : Machine τ δ}

/-- The abstract schedule of a concrete one. -/
def translateRun (refinement : Refinement concrete abstract) :
    σ → List ε → List δ
  | _, [] => []
  | state, event :: rest =>
      match concrete.step state event with
      | none => []
      | some next =>
          refinement.translate state event ++
            refinement.translateRun next rest

theorem run_translate
    (refinement : Refinement concrete abstract)
    {state target : σ} {schedule : List ε}
    (execution : concrete.run state schedule = some target) :
    abstract.run (refinement.abstraction state)
        (refinement.translateRun state schedule) =
      some (refinement.abstraction target) := by
  induction schedule generalizing state with
  | nil =>
      simp only [Machine.run_nil, Option.some.injEq] at execution
      simp [translateRun, execution]
  | cons event rest inductionHypothesis =>
      obtain ⟨next, stepped, remaining⟩ := Machine.run_cons_iff.mp execution
      have first := refinement.step state event next stepped
      simp only [translateRun, stepped]
      rw [Machine.run_append, first]
      exact inductionHypothesis remaining

theorem throughout_append
    {allowed : τ → δ → Prop} {state middle : τ} {first second : List δ}
    (execution : abstract.run state first = some middle) :
    abstract.Throughout allowed state (first ++ second) ↔
      abstract.Throughout allowed state first ∧
        abstract.Throughout allowed middle second := by
  induction first generalizing state with
  | nil =>
      simp only [Machine.run_nil, Option.some.injEq] at execution
      subst execution
      simp [Machine.Throughout]
  | cons event rest inductionHypothesis =>
      obtain ⟨next, stepped, remaining⟩ := Machine.run_cons_iff.mp execution
      simp only [List.cons_append, Machine.Throughout, stepped,
        Option.some.injEq, forall_eq', and_assoc,
        inductionHypothesis remaining]

/-- A condition that each step's translation respects holds throughout a
concrete run exactly when it holds throughout the abstract one. -/
theorem throughout_translate
    (refinement : Refinement concrete abstract)
    {concretely : σ → ε → Prop} {abstractly : τ → δ → Prop}
    (respected :
      ∀ state event next, concrete.step state event = some next →
        (concretely state event ↔
          abstract.Throughout abstractly (refinement.abstraction state)
            (refinement.translate state event)))
    {state target : σ} {schedule : List ε}
    (execution : concrete.run state schedule = some target) :
    concrete.Throughout concretely state schedule ↔
      abstract.Throughout abstractly (refinement.abstraction state)
        (refinement.translateRun state schedule) := by
  induction schedule generalizing state with
  | nil => simp [Machine.Throughout, translateRun]
  | cons event rest inductionHypothesis =>
      obtain ⟨next, stepped, remaining⟩ := Machine.run_cons_iff.mp execution
      simp only [translateRun, stepped]
      rw [throughout_append (refinement.step state event next stepped),
        ← respected state event next stepped,
        ← inductionHypothesis remaining]
      simp [Machine.Throughout, stepped]

end Refinement

end Amq.Transition
