import Amq.Transition.Machine

/-!
# Machines with a clock

Each event carries the time at which it happens, and time never goes back.
-/

namespace Amq.Transition

universe u v w

namespace Machine

variable {σ : Type u} {ε : Type v} {θ : Type w} [LE θ] [DecidableLE θ]

/-- The machine together with the time of its latest event. -/
def clocked (machine : Machine σ ε) (start : θ) : Machine (σ × θ) (ε × θ) where
  initial := (machine.initial, start)
  step := fun state event =>
    if state.2 ≤ event.2 then
      (machine.step state.1 event.1).map fun next => (next, event.2)
    else
      none

theorem clocked_step_iff
    {machine : Machine σ ε} {start : θ} {state next : σ × θ} {event : ε × θ} :
    (machine.clocked start).step state event = some next ↔
      state.2 ≤ event.2 ∧ machine.step state.1 event.1 = some next.1 ∧
        next.2 = event.2 := by
  obtain ⟨following, time⟩ := next
  simp only [clocked, Option.ite_none_right_eq_some, Option.map_eq_some_iff,
    Prod.mk.injEq]
  constructor
  · rintro ⟨later, other, stepped, rfl, rfl⟩
    exact ⟨later, stepped, rfl⟩
  · rintro ⟨later, stepped, rfl⟩
    exact ⟨later, following, stepped, rfl, rfl⟩

end Machine

end Amq.Transition
