import Amq.Core.ExecuteCall
import Amq.Transition.Machine
import Amq.Transition.Records

/-!
# Executors

An executor over its container, with any number of calls at once.  The schedule
decides when calls are made, when the resource comes and goes, when timers fire
and when commands settle.

A call whose timer has fired keeps its place in `getWhenAvailable`.  Nothing on
the way from there to the command asks whether the call has timed out, so the
command is carried out if the resource comes back; everywhere else a call that
has timed out is stopped.
-/

namespace Amq.Core

open Amq.Transition

structure Executor (ρ : Type) where
  kind : ExecutorKind
  commandTimeoutMs : JsNumber
  /-- `cancellationError`; the executor is cancelled once there is one. -/
  cancellation : Option CommandError
  /-- The content of the container. -/
  available : Option ρ
  calls : List (ExecuteCall ρ)

inductive ExecutorEvent (ρ : Type) where
  | execute (retryOnError : Bool)
  /-- `container.set`. -/
  | set (resource : Option ρ)
  | resumeAll
  | cancelAll (error : CommandError)
  | call (index : ℕ) (event : CallEvent)

namespace Executor

variable {ρ : Type}

def create (kind : ExecutorKind) (commandTimeoutMs : JsNumber) : Executor ρ where
  kind := kind
  commandTimeoutMs := commandTimeoutMs
  cancellation := none
  available := none
  calls := []

def view (executor : Executor ρ) : ExecutorView ρ where
  kind := executor.kind
  commandTimeoutMs := executor.commandTimeoutMs
  cancellation := executor.cancellation
  available := executor.available

/-- `container.set`; a new resource wakes the waiting calls. -/
def set (executor : Executor ρ) (resource : Option ρ) : Executor ρ :=
  match resource with
  | none => { executor with available := none }
  | some resource =>
      { executor with
        available := some resource
        calls := executor.calls.map (ExecuteCall.becameAvailable resource) }

def resumeAll (executor : Executor ρ) : Executor ρ :=
  { executor with calls := executor.calls.map ExecuteCall.resume }

def cancelAll (executor : Executor ρ) (error : CommandError) : Executor ρ :=
  match executor.cancellation with
  | some _ => executor
  | none =>
      { executor with
        cancellation := some error
        calls := executor.calls.map (ExecuteCall.cancel error) }

def step (executor : Executor ρ) : ExecutorEvent ρ → Option (Executor ρ)
  | .execute retryOnError =>
      some
        { executor with
          calls :=
            executor.calls ++ [ExecuteCall.execute executor.view retryOnError] }
  | .set resource => some (executor.set resource)
  | .resumeAll => some executor.resumeAll
  | .cancelAll error => some (executor.cancelAll error)
  | .call index event =>
      match executor.calls[index]? with
      | none => none
      | some call =>
          (call.step executor.view event).map fun call =>
            { executor with calls := executor.calls.set index call }

def machine (kind : ExecutorKind) (commandTimeoutMs : JsNumber) :
    Machine (Executor ρ) (ExecutorEvent ρ) where
  initial := create kind commandTimeoutMs
  step := step

/-- The event takes a call out of `getWhenAvailable` although its timer has
fired, and the executor is not cancelled. -/
def resumesLate (executor : Executor ρ) : ExecutorEvent ρ → Bool
  | .call index .continued =>
      match executor.calls[index]? with
      | none => false
      | some call => executor.cancellation.isNone && call.hasTimedOut
  | _ => false

/-- A call that comes out of `getWhenAvailable` has not timed out there, unless
the executor is cancelled. -/
def ResumesInTime (executor : Executor ρ) (event : ExecutorEvent ρ) : Prop :=
  executor.resumesLate event = false

instance (executor : Executor ρ) (event : ExecutorEvent ρ) :
    Decidable (executor.ResumesInTime event) :=
  inferInstanceAs (Decidable (_ = _))

/-- No call has invoked its command after its promise had settled. -/
def SettledCallsRest (executor : Executor ρ) : Prop :=
  ∀ call ∈ executor.calls, ¬ ExecuteCall.InvokedAfterSettled call.history

/-- While the executor is not cancelled, the calls in progress are settled by
their timers only. -/
def TimersOnly (executor : Executor ρ) : Prop :=
  ∀ call ∈ executor.calls, ExecuteCall.TimerOnly executor.cancellation call

/-! ## Operations on all calls -/

theorem becameAvailable_keeps (resource : ρ) (call : ExecuteCall ρ) :
    (call.becameAvailable resource).history = call.history ∧
      (call.becameAvailable resource).hasTimedOut = call.hasTimedOut ∧
      ((call.becameAvailable resource).phase ≠ .ended → call.phase ≠ .ended) := by
  unfold ExecuteCall.becameAvailable
  split
  case h_1 waiting =>
    refine ⟨rfl, rfl, fun _ => ?_⟩
    rw [waiting]
    nofun
  case h_2 => exact ⟨rfl, rfl, id⟩

theorem resume_keeps (call : ExecuteCall ρ) :
    call.resume.history = call.history ∧
      call.resume.hasTimedOut = call.hasTimedOut ∧
      (call.resume.phase ≠ .ended → call.phase ≠ .ended) := by
  unfold ExecuteCall.resume
  split
  case h_1 paused =>
    refine ⟨rfl, rfl, fun _ => ?_⟩
    rw [paused]
    nofun
  case h_2 => exact ⟨rfl, rfl, id⟩

theorem cancel_invokedAfterSettled (error : CommandError) (call : ExecuteCall ρ) :
    ExecuteCall.InvokedAfterSettled (call.cancel error).history ↔
      ExecuteCall.InvokedAfterSettled call.history := by
  unfold ExecuteCall.cancel
  dsimp only
  split
  · rfl
  · rcases ExecuteCall.settle_history call (.rejected error) with ⟨same, _⟩ | pushed
    · rw [same]
    · rw [pushed, ExecuteCall.invokedAfterSettled_cons_iff]
      exact or_iff_right (by rintro ⟨⟨_, impossible⟩, -⟩; cases impossible)

theorem execute_fresh (view : ExecutorView ρ) (retryOnError : Bool) :
    ¬ ExecuteCall.InvokedAfterSettled
        (ExecuteCall.execute view retryOnError).history ∧
      ExecuteCall.TimerOnly view.cancellation
        (ExecuteCall.execute view retryOnError) := by
  have begins := ExecuteCall.execute_begins view retryOnError
  generalize ExecuteCall.execute view retryOnError = call at begins ⊢
  cases begins with
  | refused cancelled =>
      refine ⟨?_, fun active => by cases active.symm.trans cancelled⟩
      rw [ExecuteCall.invokedAfterSettled_cons_iff]
      rintro (⟨⟨_, impossible⟩, -⟩ | earlier)
      · cases impossible
      · exact ExecuteCall.not_invokedAfterSettled_nil earlier
  | waits active unavailable =>
      exact
        ⟨ExecuteCall.not_invokedAfterSettled_nil, fun _ _ => ⟨nofun, nofun⟩⟩
  | receives active available =>
      exact
        ⟨ExecuteCall.not_invokedAfterSettled_nil, fun _ _ => ⟨nofun, nofun⟩⟩

/-- An operation that leaves the histories and the timers alone. -/
theorem TimersOnly.map
    {executor : Executor ρ} {operation : ExecuteCall ρ → ExecuteCall ρ}
    (timersOnly : executor.TimersOnly)
    (keeps :
      ∀ call : ExecuteCall ρ,
        (operation call).history = call.history ∧
          (operation call).hasTimedOut = call.hasTimedOut ∧
          ((operation call).phase ≠ .ended → call.phase ≠ .ended)) :
    ∀ call ∈ executor.calls.map operation,
      ExecuteCall.TimerOnly executor.cancellation call := by
  intro call member
  obtain ⟨before, earlier, rfl⟩ := List.mem_map.mp member
  obtain ⟨history, timer, running⟩ := keeps before
  intro active inProgress
  have unchanged : (operation before).isSettled = before.isSettled := by
    unfold ExecuteCall.isSettled
    rw [history]
  rw [unchanged, timer]
  exact timersOnly before earlier active (running inProgress)

theorem timersOnly_preserved (kind : ExecutorKind) (commandTimeoutMs : JsNumber) :
    (machine kind commandTimeoutMs : Machine (Executor ρ) _).Preserved
      TimersOnly := by
  intro executor event next timersOnly stepped
  change executor.step event = some next at stepped
  cases event with
  | execute retryOnError =>
      cases stepped
      intro call member
      rcases List.mem_append.mp member with earlier | added
      · exact timersOnly call earlier
      · rw [List.mem_singleton.mp added]
        exact (execute_fresh executor.view retryOnError).2
  | set resource =>
      cases stepped
      cases resource with
      | none => exact timersOnly
      | some resource => exact timersOnly.map (becameAvailable_keeps resource)
  | resumeAll =>
      cases stepped
      exact timersOnly.map resume_keeps
  | cancelAll error =>
      cases stepped
      unfold cancelAll
      split
      · exact timersOnly
      · intro call member active
        cases active
  | call index event =>
      simp only [step] at stepped
      split at stepped
      case h_1 => cases stepped
      case h_2 call found =>
        obtain ⟨call', taken, rfl⟩ := Option.map_eq_some_iff.mp stepped
        intro other member
        rcases List.mem_or_eq_of_mem_set member with earlier | same
        · exact timersOnly other earlier
        · subst same
          exact (timersOnly call (List.mem_of_getElem? found)).steps
            (ExecuteCall.steps_of_step taken)

/-! ## Exactly the late resumptions do harm -/

theorem settledCallsRest_map_iff
    {executor next : Executor ρ} {operation : ExecuteCall ρ → ExecuteCall ρ}
    (calls : next.calls = executor.calls.map operation)
    (keeps :
      ∀ call : ExecuteCall ρ,
        ExecuteCall.InvokedAfterSettled (operation call).history ↔
          ExecuteCall.InvokedAfterSettled call.history) :
    next.SettledCallsRest ↔ executor.SettledCallsRest := by
  unfold SettledCallsRest
  rw [calls, List.forall_mem_map]
  exact forall₂_congr fun call _ => not_congr (keeps call)

/-- A call resumes in time exactly when its promise has not settled before. -/
theorem resumesInTime_iff
    {executor : Executor ρ} {index : ℕ} {event : CallEvent}
    {call call' : ExecuteCall ρ}
    (found : executor.calls[index]? = some call)
    (taken : call.step executor.view event = some call')
    (timerOnly : ExecuteCall.TimerOnly executor.cancellation call) :
    executor.ResumesInTime (.call index event) ↔
      ¬ (event = .continued ∧ executor.cancellation = none ∧
        call.isSettled = true) := by
  by_cases continued : event = .continued
  · subst continued
    have running : call.phase ≠ .ended := by
      intro ended
      cases ExecuteCall.steps_of_step taken with
      | withdrawn before cancelled => cases before.symm.trans ended
      | invoked before active => cases before.symm.trans ended
    unfold ResumesInTime resumesLate
    dsimp only
    rw [found]
    cases active : executor.cancellation with
    | some error => simp
    | none =>
        rw [timerOnly active running]
        simp
  · have quiet : executor.ResumesInTime (.call index event) := by
      unfold ResumesInTime resumesLate
      split
      case h_1 same =>
        cases same
        exact absurd rfl continued
      case h_2 => rfl
    exact iff_of_true quiet fun late => continued late.1

/-- A step keeps the settled calls at rest exactly when they were at rest before
and it does not resume one of them late. -/
theorem settledCallsRest_step_iff
    {executor next : Executor ρ} {event : ExecutorEvent ρ}
    (timersOnly : executor.TimersOnly)
    (stepped : executor.step event = some next) :
    next.SettledCallsRest ↔
      executor.SettledCallsRest ∧ executor.ResumesInTime event := by
  cases event with
  | execute retryOnError =>
      cases stepped
      refine Iff.trans ?_ (and_iff_left rfl).symm
      constructor
      · intro rest call member
        exact rest call (List.mem_append_left _ member)
      · intro rest call member
        rcases List.mem_append.mp member with earlier | added
        · exact rest call earlier
        · rw [List.mem_singleton.mp added]
          exact (execute_fresh executor.view retryOnError).1
  | set resource =>
      cases stepped
      refine Iff.trans ?_ (and_iff_left rfl).symm
      cases resource with
      | none => exact Iff.rfl
      | some resource =>
          refine settledCallsRest_map_iff rfl ?_
          intro call
          rw [(becameAvailable_keeps resource call).1]
  | resumeAll =>
      cases stepped
      refine Iff.trans ?_ (and_iff_left rfl).symm
      refine settledCallsRest_map_iff rfl ?_
      intro call
      rw [(resume_keeps call).1]
  | cancelAll error =>
      cases stepped
      refine Iff.trans ?_ (and_iff_left rfl).symm
      unfold cancelAll
      split
      · exact Iff.rfl
      · exact settledCallsRest_map_iff rfl (cancel_invokedAfterSettled error)
  | call index event =>
      simp only [step] at stepped
      split at stepped
      case h_1 => cases stepped
      case h_2 call found =>
        obtain ⟨call', taken, rfl⟩ := Option.map_eq_some_iff.mp stepped
        have steps := ExecuteCall.steps_of_step taken
        have present : call ∈ executor.calls := List.mem_of_getElem? found
        obtain ⟨inRange, _⟩ := List.getElem?_eq_some_iff.mp found
        rw [resumesInTime_iff found taken (timersOnly call present)]
        constructor
        · intro rest
          have callRests := rest call' (List.mem_set inRange call')
          rw [steps.invokedAfterSettled_iff, not_or] at callRests
          refine ⟨?_, callRests.1⟩
          intro other member
          by_cases same : other = call
          · rw [same]
            exact callRests.2
          · obtain ⟨place, atPlace⟩ := List.mem_iff_getElem?.mp member
            have elsewhere : index ≠ place := by
              intro equal
              subst equal
              exact same (Option.some.inj (atPlace.symm.trans found))
            apply rest other
            apply List.mem_iff_getElem?.mpr
            exact ⟨place, (List.getElem?_set_ne elsewhere).trans atPlace⟩
        · rintro ⟨rest, inTime⟩ other member
          rcases List.mem_or_eq_of_mem_set member with earlier | same
          · exact rest other earlier
          · rw [same, steps.invokedAfterSettled_iff]
            rintro (late | before)
            · exact inTime late
            · exact rest call present before

/-- In both executors a command is never invoked after the promise of its call
has settled, exactly when no call that has timed out in `getWhenAvailable` comes
out of it again under an executor that is not cancelled. -/
theorem settledCallsRest_iff
    (kind : ExecutorKind) (commandTimeoutMs : JsNumber)
    (schedule : List (ExecutorEvent ρ)) (executor : Executor ρ)
    (execution :
      (machine kind commandTimeoutMs).run (create kind commandTimeoutMs)
        schedule = some executor) :
    executor.SettledCallsRest ↔
      (machine kind commandTimeoutMs).Throughout ResumesInTime
        (create kind commandTimeoutMs) schedule := by
  refine
    Machine.sound_iff_throughout SettledCallsRest ResumesInTime
      (timersOnly_preserved kind commandTimeoutMs) ?_ ?_ nofun nofun execution
  · intro executor event next timersOnly stepped rest
    exact ((settledCallsRest_step_iff timersOnly stepped).mp rest).1
  · intro executor event next timersOnly rest stepped
    exact (settledCallsRest_step_iff timersOnly stepped).trans
      (and_iff_right rest)

/-- A command fails with its connection and is retried on the next one, which
is still carrying it out when the timer fires. -/
def retriedOnNextConnection : List (ExecutorEvent ℕ) :=
  [.set (some 0), .execute true, .call 0 .continued,
    .call 0 (.commandSettled (.rejected .connectionClosed)), .call 0 .caught,
    .set none, .set (some 1), .resumeAll, .call 0 .intervalStarted,
    .call 0 .slept, .call 0 .continued, .call 0 .timerFired,
    .call 0 .finalized, .call 0 (.commandSettled .fulfilled)]

theorem settledCallsRest_iff_retried :
    ∃ executor,
      (machine .connection (.ofNat 60000)).run
          (create .connection (.ofNat 60000)) retriedOnNextConnection =
            some executor ∧
        (executor.SettledCallsRest ↔
          (machine .connection (.ofNat 60000)).Throughout ResumesInTime
            (create .connection (.ofNat 60000)) retriedOnNextConnection) :=
  ⟨_, rfl,
    settledCallsRest_iff .connection (.ofNat 60000) retriedOnNextConnection _
      rfl⟩

/-- The timer of a call fires while there is no resource; then one appears. -/
def resourceAfterTimeout : List (ExecutorEvent ℕ) :=
  [.execute true, .call 0 .timerFired, .call 0 .finalized, .set (some 0),
    .call 0 .continued]

theorem resourceAfterTimeout_invoked :
    ¬ ∀ (kind : ExecutorKind) (commandTimeoutMs : JsNumber)
        (schedule : List (ExecutorEvent ℕ)) (executor : Executor ℕ),
        (machine kind commandTimeoutMs).run (create kind commandTimeoutMs)
          schedule = some executor →
        executor.SettledCallsRest := by
  intro always
  have rest :=
    always .channel (.ofNat 60000) resourceAfterTimeout _ rfl _
      List.mem_cons_self
  exact rest
    ⟨0, .rejected (.commandTimedOut (.ofNat 60000)), [], _, rfl,
      List.mem_cons_self⟩

end Executor

end Amq.Core
