import Amq.Transition.KeyedLock

/-!
# Which tags a lock stores

A lock stores and acknowledges only tags that it was given.  If all of these meet a
condition, which may be another one after all keys were released, so does every
tag that is acknowledged.
-/


namespace Amq.Transition.KeyedLock

open Function

universe u v w

variable {κ : Type u} {ℓ : Type v} {τ : Type w}
variable [DecidableEq κ] [DecidableEq τ]

/-- All stored tags meet the condition. -/
def State.StoresOnly (allowed : τ → Prop) (state : State κ ℓ τ) : Prop :=
  ∀ key tag, state.stored key = some tag → allowed tag

/-- What is acknowledged in between meets the condition. -/
def AcknowledgesOnly
    (allowed : τ → Prop) (state next : State κ ℓ τ) : Prop :=
  ∃ new, next.acknowledged = new ++ state.acknowledged ∧ ∀ tag ∈ new, allowed tag

omit [DecidableEq κ] [DecidableEq τ] in
theorem AcknowledgesOnly.refl
    (allowed : τ → Prop) {state next : State κ ℓ τ}
    (same : next.acknowledged = state.acknowledged) :
    AcknowledgesOnly allowed state next :=
  ⟨[], same, List.forall_mem_nil _⟩

omit [DecidableEq κ] [DecidableEq τ] in
theorem AcknowledgesOnly.trans
    {allowed : τ → Prop} {first second third : State κ ℓ τ}
    (earlier : AcknowledgesOnly allowed first second)
    (later : AcknowledgesOnly allowed second third) :
    AcknowledgesOnly allowed first third := by
  obtain ⟨old, oldTags, oldAllowed⟩ := earlier
  obtain ⟨new, newTags, newAllowed⟩ := later
  refine ⟨new ++ old, ?_, ?_⟩
  · rw [newTags, oldTags, List.append_assoc]
  · intro tag member
    rcases List.mem_append.mp member with latest | before
    · exact newAllowed tag latest
    · exact oldAllowed tag before

variable {allowed : τ → Prop} {state next : State κ ℓ τ}

omit [DecidableEq τ] in
theorem storesOnly_update_none
    (stores : state.StoresOnly allowed) (key : κ) :
    ∀ other tag, update state.stored key none other = some tag → allowed tag := by
  intro other tag stored
  by_cases same : other = key
  · rw [same, update_self] at stored
    cases stored
  · rw [update_of_ne same] at stored
    exact stores other tag stored

theorem storesOnly_step
    {event : Event κ ℓ τ}
    (stores : state.StoresOnly allowed)
    (delivers :
      ∀ key label tag, event = .deliver key label tag → allowed tag)
    (stepped : machine.step state event = some next) :
    next.StoresOnly allowed ∧ AcknowledgesOnly allowed state next := by
  cases event with
  | deliver key label tag =>
      obtain ⟨_, rfl⟩ := deliver_eq_some_iff.mp stepped
      refine ⟨?_, .refl allowed rfl⟩
      intro other itsTag stored
      dsimp only at stored
      by_cases same : other = key
      · rw [same, update_self] at stored
        cases stored
        exact delivers key label tag rfl
      · rw [update_of_ne same] at stored
        exact stores other itsTag stored
  | complete index =>
      obtain ⟨holder, _, _, rfl⟩ := complete_cases stepped
      exact ⟨stores, .refl allowed rfl⟩
  | acknowledge index =>
      obtain ⟨holder, tag, _, _, stored, rfl⟩ := acknowledge_cases stepped
      refine ⟨stores, [tag], rfl, ?_⟩
      intro other member
      rw [List.mem_singleton.mp member]
      exact stores holder.key tag stored
  | release index =>
      obtain ⟨holder, _, rfl⟩ := release_cases stepped
      exact ⟨storesOnly_update_none stores holder.key, .refl allowed rfl⟩
  | leave index =>
      obtain ⟨holder, _, _, rfl⟩ := leave_cases stepped
      exact ⟨stores, .refl allowed rfl⟩
  | releaseAll =>
      cases stepped
      refine ⟨?_, .refl allowed rfl⟩
      intro key tag stored
      cases stored

theorem storesOnly_run
    {events : List (Event κ ℓ τ)}
    (stores : state.StoresOnly allowed)
    (delivers :
      ∀ key label tag, .deliver key label tag ∈ events → allowed tag)
    (execution : machine.run state events = some next) :
    next.StoresOnly allowed ∧ AcknowledgesOnly allowed state next := by
  induction events generalizing state with
  | nil =>
      simp only [Machine.run_nil, Option.some.injEq] at execution
      rw [← execution]
      exact ⟨stores, .refl allowed rfl⟩
  | cons event rest inductionHypothesis =>
      obtain ⟨middle, stepped, remaining⟩ := Machine.run_cons_iff.mp execution
      have first :
          middle.StoresOnly allowed ∧ AcknowledgesOnly allowed state middle := by
        refine storesOnly_step stores ?_ stepped
        intro key label tag same
        apply delivers key label tag
        rw [same]
        exact List.mem_cons_self
      have later :=
        inductionHypothesis first.1
          (fun key label tag member =>
            delivers key label tag (List.mem_cons_of_mem _ member))
          remaining
      exact ⟨later.1, first.2.trans later.2⟩

omit [DecidableEq κ] [DecidableEq τ] in
/-- A move of a holder delivers nothing. -/
theorem deliver_not_mem_events
    (move : Move τ) (index : ℕ) (key : κ) (label : Option ℓ) (tag : τ) :
    .deliver key label tag ∉ (move.events index : List (Event κ ℓ τ)) := by
  cases move <;> simp [Move.events]

end Amq.Transition.KeyedLock
