import Amq.Transition.KeyedLock
import Amq.Transition.Refinement
import Mathlib.Data.List.Count

/-!
# How many holders of one key are in progress

A delivery becomes a holder only while its key is free.  A key that is freed
before its holder has finished lets in one holder more, so there are never more
holders of a key in progress than releases of all keys, and one.
-/


namespace Amq.Transition

universe u v w x

namespace KeyedLock

open Function

variable {κ : Type u} {ℓ : Type v} {τ : Type w}
variable [DecidableEq κ] [DecidableEq τ]

def Phase.isInProgress : Phase τ → Bool
  | .finished => false
  | _ => true

def Event.isReleaseAll : Event κ ℓ τ → Bool
  | .releaseAll => true
  | _ => false

/-- A holder of `key` which has not finished. -/
def Holder.occupies (key : κ) (holder : Holder κ ℓ τ) : Bool :=
  holder.key = key && holder.phase.isInProgress

namespace State

/-- The number of holders of `key` in progress. -/
def occupancy (state : State κ ℓ τ) (key : κ) : ℕ :=
  state.holders.countP (Holder.occupies key)

/-- The number of holders for which `key` is taken. -/
def taken (state : State κ ℓ τ) (key : κ) : ℕ :=
  if state.stored key = none then 0 else 1

omit [DecidableEq κ] [DecidableEq τ] in
theorem taken_le_one (state : State κ ℓ τ) (key : κ) : state.taken key ≤ 1 := by
  unfold taken
  split <;> omega

section

omit [DecidableEq τ]

/-- A holder that is replaced counts as it did, or no longer. -/
theorem occupancy_set
    {state next : State κ ℓ τ} {index : ℕ} {old new : Holder κ ℓ τ} (key : κ)
    (present : state.holders[index]? = some old)
    (replaced : next.holders = state.holders.set index new) :
    next.occupancy key + (if old.occupies key then 1 else 0) =
      state.occupancy key + if new.occupies key then 1 else 0 := by
  obtain ⟨inside, found⟩ := List.getElem?_eq_some_iff.mp present
  have counted :
      (if old.occupies key then 1 else 0) ≤ state.occupancy key := by
    by_cases occupies : old.occupies key = true
    · rw [if_pos occupies]
      apply List.countP_pos_iff.mpr
      exact ⟨old, List.mem_of_getElem? present, occupies⟩
    · rw [if_neg occupies]
      omega
  unfold occupancy at counted ⊢
  rw [replaced, List.countP_set inside, found]
  omega

/-- A finished holder no longer counts. -/
theorem occupancy_finish
    {state next : State κ ℓ τ} {index : ℕ} {old : Holder κ ℓ τ} (key : κ)
    (present : state.holders[index]? = some old)
    (replaced :
      next.holders = state.holders.set index { old with phase := .finished }) :
    next.occupancy key + (if old.occupies key then 1 else 0) =
      state.occupancy key := by
  have balance := occupancy_set key present replaced
  simpa [Holder.occupies, Phase.isInProgress] using balance

/-- A holder that stays in progress counts as it did. -/
theorem occupancy_keep
    {state next : State κ ℓ τ} {index : ℕ} {old : Holder κ ℓ τ}
    {phase : Phase τ} {hasCompleted : Bool} (key : κ)
    (present : state.holders[index]? = some old)
    (inProgress : phase.isInProgress = old.phase.isInProgress)
    (replaced :
      next.holders =
        state.holders.set index
          { old with phase := phase, hasCompleted := hasCompleted }) :
    next.occupancy key = state.occupancy key := by
  have balance := occupancy_set key present replaced
  have same :
      ({ old with phase := phase, hasCompleted := hasCompleted }
        : Holder κ ℓ τ).occupies key = old.occupies key := by
    simp only [Holder.occupies, inProgress]
  rw [same] at balance
  omega

end

end State

omit [DecidableEq τ] in
/-- The holder that releases its key has been in progress. -/
theorem inProgress_of_release
    {state next : State κ ℓ τ} {index : ℕ} {holder : Holder κ ℓ τ}
    (present : state.holders[index]? = some holder)
    (stepped : state.release index = some next) :
    holder.phase.isInProgress = true := by
  simp only [State.release, present] at stepped
  split at stepped
  · rename_i completed
    rw [completed]
    rfl
  · rename_i acknowledging
    rw [acknowledging]
    rfl
  · cases stepped

theorem occupancy_deliver
    {state next : State κ ℓ τ} {delivered : κ} {label : Option ℓ} {tag : τ}
    (stepped : state.deliver delivered label tag = some next) (key : κ) :
    next.occupancy key + state.taken key =
      state.occupancy key + next.taken key := by
  obtain ⟨_, rfl⟩ := deliver_eq_some_iff.mp stepped
  by_cases free : state.stored delivered = none
  · have occupied :
        (state.holders ++
            [(⟨delivered, label, .working, false⟩ : Holder κ ℓ τ)]).countP
              (Holder.occupies key) =
          state.holders.countP (Holder.occupies key) +
            if delivered = key then 1 else 0 := by
      simp [List.countP_append, List.countP_singleton, Holder.occupies,
        Phase.isInProgress]
    by_cases same : delivered = key
    · subst same
      simp only [State.occupancy, State.taken, free, occupied, update_self]
      simp
    · have other : update state.stored delivered (some tag) key =
          state.stored key := update_of_ne (Ne.symm same) _ _
      simp only [State.occupancy, State.taken, free, occupied, other,
        if_neg same]
      omega
  · obtain ⟨earlier, stored⟩ := Option.ne_none_iff_exists'.mp free
    by_cases same : delivered = key
    · subst same
      simp [State.occupancy, State.taken, stored]
    · have other : update state.stored delivered (some tag) key =
          state.stored key := update_of_ne (Ne.symm same) _ _
      simp only [State.occupancy, State.taken, stored, other]

omit [DecidableEq τ] in
theorem occupancy_release
    {state next : State κ ℓ τ} {index : ℕ}
    (stepped : state.release index = some next) (key : κ) :
    next.occupancy key + state.taken key ≤
      state.occupancy key + next.taken key := by
  obtain ⟨holder, present, replaced⟩ := release_cases stepped
  have inProgress := inProgress_of_release present stepped
  have finished :=
    State.occupancy_finish key present (congrArg State.holders replaced)
  by_cases same : holder.key = key
  · have occupies : holder.occupies key = true := by
      simp [Holder.occupies, same, inProgress]
    have atMost := state.taken_le_one key
    rw [if_pos occupies] at finished
    omega
  · have kept : next.taken key = state.taken key := by
      have other : update state.stored holder.key none key = state.stored key :=
        update_of_ne (Ne.symm same) _ _
      rw [replaced]
      simp only [State.taken, other]
    omega

/-- What one step adds: only a release of all keys lets a holder in beyond the
one for which its key is taken. -/
theorem occupancy_step
    {state next : State κ ℓ τ} {event : Event κ ℓ τ}
    (stepped : machine.step state event = some next) (key : κ) :
    next.occupancy key + state.taken key ≤
      state.occupancy key + next.taken key +
        if event.isReleaseAll then 1 else 0 := by
  cases event with
  | deliver delivered label tag =>
      have balance := occupancy_deliver stepped key
      omega
  | complete index =>
      obtain ⟨holder, present, working, replaced⟩ := complete_cases stepped
      have inProgress :
          (Phase.completed : Phase τ).isInProgress =
            holder.phase.isInProgress := by
        rw [working]
        rfl
      have kept :=
        State.occupancy_keep key present inProgress
          (congrArg State.holders replaced)
      have same : next.taken key = state.taken key := by
        rw [replaced]
        rfl
      omega
  | acknowledge index =>
      obtain ⟨holder, tag, present, completed, _, replaced⟩ :=
        acknowledge_cases stepped
      have inProgress :
          (Phase.acknowledging tag).isInProgress =
            holder.phase.isInProgress := by
        rw [completed]
        rfl
      have kept :=
        State.occupancy_keep key present inProgress
          (congrArg State.holders replaced)
      have same : next.taken key = state.taken key := by
        rw [replaced]
        rfl
      omega
  | release index =>
      have balance := occupancy_release stepped key
      omega
  | leave index =>
      obtain ⟨holder, present, _, replaced⟩ := leave_cases stepped
      have finished :=
        State.occupancy_finish key present (congrArg State.holders replaced)
      have kept : next.taken key = state.taken key := by
        rw [replaced]
        rfl
      omega
  | releaseAll =>
      cases stepped
      have atMost := state.taken_le_one key
      simp only [State.occupancy, State.releaseAll, Event.isReleaseAll]
      simp only [if_true]
      omega

/-- From any state on, a key is occupied by one holder more at most for each
release of all keys. -/
theorem occupancy_run
    {state target : State κ ℓ τ} {schedule : List (Event κ ℓ τ)}
    (execution : machine.run state schedule = some target) (key : κ) :
    target.occupancy key + state.taken key ≤
      state.occupancy key + target.taken key +
        schedule.countP Event.isReleaseAll := by
  induction schedule generalizing state with
  | nil =>
      cases execution
      exact Nat.le_add_right _ _
  | cons event rest inductionHypothesis =>
      obtain ⟨next, stepped, remaining⟩ := Machine.run_cons_iff.mp execution
      have now := occupancy_step stepped key
      have later := inductionHypothesis remaining
      rw [List.countP_cons]
      omega

theorem occupancy_le
    {target : State κ ℓ τ} {schedule : List (Event κ ℓ τ)}
    (execution : machine.run machine.initial schedule = some target) (key : κ) :
    target.occupancy key ≤ 1 + schedule.countP Event.isReleaseAll := by
  have bound := occupancy_run execution key
  have atMost := target.taken_le_one key
  have empty : (machine.initial : State κ ℓ τ).occupancy key = 0 := rfl
  omega

omit [DecidableEq κ] [DecidableEq τ] in
@[simp]
theorem Move.countP_isReleaseAll (move : Move τ) (index : ℕ) :
    (move.events index : List (Event κ ℓ τ)).countP Event.isReleaseAll = 0 := by
  cases move <;> rfl

end KeyedLock

namespace Refinement

variable {σ : Type u} {ε : Type v} {τ : Type w} {δ : Type x}
variable {concrete : Machine σ ε} {abstract : Machine τ δ}

/-- Abstract events of a kind are as rare as the concrete ones they come from. -/
theorem countP_translateRun_le
    (refinement : Refinement concrete abstract)
    {abstractly : δ → Bool} {concretely : ε → Bool}
    (rare :
      ∀ state event,
        (refinement.translate state event).countP abstractly ≤
          if concretely event then 1 else 0)
    (state : σ) (schedule : List ε) :
    (refinement.translateRun state schedule).countP abstractly ≤
      schedule.countP concretely := by
  induction schedule generalizing state with
  | nil => exact Nat.le_refl _
  | cons event rest inductionHypothesis =>
      simp only [translateRun]
      cases concrete.step state event with
      | none => exact Nat.zero_le _
      | some next =>
          have now := rare state event
          have later := inductionHypothesis next
          simp only [List.countP_append, List.countP_cons]
          omega

end Refinement

end Amq.Transition
