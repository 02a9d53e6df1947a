import Amq.Core.Executor
import Amq.Core.RepeatedInvocations
import Amq.Transition.Clock
import Amq.Transition.Monitor
import Mathlib.Algebra.Order.Floor.Defs

/-!
# How often a command can be retried

Before each retry a call sleeps for `commandRetryIntervalMs`, and after
`commandTimeoutMs` its timer has stopped it.  With the time of each event, and the
timers of a call firing in the order in which they are due, this bounds the
number of invocations by the two options alone.
-/

namespace Amq

/-- The milliseconds after which `setTimeout` calls back.  A delay is cut to a
whole number, and one out of range is taken for 1. -/
def JsNumber.timerDelay : JsNumber → ℕ
  | .finite value =>
      if 1 ≤ value ∧ value ≤ 2147483647 then value.floor.toNat else 1
  | _ => 1

theorem JsNumber.timerDelay_pos (delay : JsNumber) : 0 < delay.timerDelay := by
  cases delay with
  | finite value =>
      simp only [timerDelay]
      by_cases inRange : 1 ≤ value ∧ value ≤ 2147483647
      · rw [if_pos inRange]
        have positive : 1 ≤ value.floor := Rat.le_floor_iff.mpr inRange.1
        omega
      · rw [if_neg inRange]
        exact Nat.one_pos
  | _ => exact Nat.one_pos

end Amq

namespace Amq.Core

open Amq.Transition

variable {ρ : Type}

/-- When a call was made, and when its latest sleep has begun. -/
structure CallClock where
  startedAt : ℕ
  sleepingSince : ℕ
  deriving DecidableEq

def CallClock.after (clock : CallClock) (now : ℕ) : CallEvent → CallClock
  | .intervalStarted => { clock with sleepingSince := now }
  | _ => clock

/-- The call is on its way to an invocation, past its sleep. -/
def CallPhase.isAwake {ρ : Type} : CallPhase ρ → Bool
  | .waiting => true
  | .received _ => true
  | _ => false

namespace ExecuteCall

/-- A sleep is over when its interval is.  The timer of the time limit is set until
the call has settled, and of the two the one that is due first fires first. -/
def sleepsProperly
    (timeout interval now : ℕ) (clock : CallClock) (call : ExecuteCall ρ) :
    CallEvent → Bool
  | .slept =>
      clock.sleepingSince + interval ≤ now &&
        (call.isSettled ||
          clock.sleepingSince + interval ≤ clock.startedAt + timeout)
  | _ => true

variable {timeout interval now later : ℕ} {clock : CallClock}
variable {call call' : ExecuteCall ρ} {view : ExecutorView ρ} {event : CallEvent}

/-- The invocations so far are one interval apart from each other, and all but one
of these intervals lie within the time limit. -/
structure InBudget
    (timeout interval now : ℕ) (clock : CallClock) (call : ExecuteCall ρ) :
    Prop where
  bound : call.invocations * interval ≤ timeout + interval
  awake :
    call.phase.isAwake = true →
      call.invocations * interval ≤ timeout ∧
        clock.startedAt + call.invocations * interval ≤ now
  behind : clock.startedAt + call.invocations * interval ≤ now + interval
  sleeping :
    call.phase = .sleeping →
      clock.startedAt + call.invocations * interval ≤
        clock.sleepingSince + interval

/-- A change that brings no invocation nearer. -/
structure Rests (call call' : ExecuteCall ρ) : Prop where
  invocations : call'.invocations = call.invocations
  awake : call'.phase.isAwake = true → call.phase.isAwake = true
  sleeping : call'.phase = .sleeping → call.phase = .sleeping

theorem Rests.refl (call : ExecuteCall ρ) : Rests call call :=
  ⟨rfl, id, id⟩

theorem InBudget.rests
    (inBudget : call.InBudget timeout interval now clock)
    (rests : Rests call call') (passes : now ≤ later) :
    call'.InBudget timeout interval later clock where
  bound := by
    rw [rests.invocations]
    exact inBudget.bound
  awake awake := by
    rw [rests.invocations]
    obtain ⟨within, reached⟩ := inBudget.awake (rests.awake awake)
    exact ⟨within, reached.trans passes⟩
  behind := by
    rw [rests.invocations]
    have behind := inBudget.behind
    omega
  sleeping sleeping := by
    rw [rests.invocations]
    exact inBudget.sleeping (rests.sleeping sleeping)

theorem inBudget_execute
    (view : ExecutorView ρ) (retryOnError : Bool) (timeout interval now : ℕ) :
    (execute view retryOnError).InBudget timeout interval now ⟨now, now⟩ := by
  have uninvoked := (repeats_execute view retryOnError).2
  constructor <;> simp [uninvoked]

theorem isAwake_unregister (phase : CallPhase ρ) :
    phase.unregister.isAwake = phase.isAwake := by
  cases phase <;> rfl

theorem sleeping_unregister {phase : CallPhase ρ}
    (sleeping : phase.unregister = .sleeping) : phase = .sleeping := by
  cases phase with
  | sleeping => rfl
  | _ => cases sleeping

theorem rests_settle
    (call : ExecuteCall ρ) (result : CommandResult) (phase : CallPhase ρ)
    (awake : phase.isAwake = true → call.phase.isAwake = true)
    (sleeping : phase = .sleeping → call.phase = .sleeping) :
    Rests call { call.settle result with phase := phase } :=
  ⟨settle_invocations call result, awake, sleeping⟩

theorem rests_becameAvailable (resource : ρ) (call : ExecuteCall ρ) :
    Rests call (call.becameAvailable resource) := by
  unfold becameAvailable
  split
  · rename_i waiting
    refine ⟨rfl, ?_, by simp⟩
    intro _
    rw [waiting]
    rfl
  · exact .refl call

theorem rests_resume (call : ExecuteCall ρ) : Rests call call.resume := by
  unfold resume
  split
  · exact ⟨rfl, by simp [CallPhase.isAwake], by simp⟩
  · exact .refl call

theorem rests_cancel (error : CommandError) (call : ExecuteCall ρ) :
    Rests call (call.cancel error) := by
  have awake := isAwake_unregister call.phase
  unfold cancel
  by_cases finalized : call.isFinalized = true
  · rw [if_pos finalized]
    exact ⟨rfl, fun ahead => awake ▸ ahead, sleeping_unregister⟩
  · rw [if_neg finalized]
    exact rests_settle call _ _ (fun ahead => awake ▸ ahead) sleeping_unregister

theorem rests_caught (error : CommandError) :
    Rests call (call.catchError view error) := by
  unfold catchError
  cases view.cancellation with
  | some cancellationError =>
      exact ⟨rfl, by simp [CallPhase.isAwake], by simp⟩
  | none =>
      dsimp only
      by_cases retried :
        call.retryOnError = true ∧ error = view.kind.unavailableError
      · rw [if_pos retried]
        refine ⟨?_, by simp [CallPhase.isAwake], by simp⟩
        simp [invocations, CallObservation.isInvocation]
      · rw [if_neg retried]
        by_cases closing : view.kind = .channel ∧ error = .connectionClosing
        · rw [if_pos closing]
          refine ⟨?_, by simp [CallPhase.isAwake], by simp⟩
          simp [invocations, CallObservation.isInvocation]
        · rw [if_neg closing]
          exact ⟨rfl, by simp [CallPhase.isAwake], by simp⟩

/-- A call that has slept tries again, unless it was cancelled or has timed out. -/
theorem slept_cases
    (stepped : call.step view .slept = some call') :
    call.phase = .sleeping ∧
      ((view.cancellation = none ∧ call.hasTimedOut = false ∧
          call' = call.executeOnce view.available) ∨
        ∃ error, call' = { call with phase := .throwing error }) := by
  cases steps_of_step stepped with
  | givenUp before => exact ⟨before, Or.inr ⟨_, rfl⟩⟩
  | retried before =>
      refine ⟨before, ?_⟩
      simp only [step, before] at stepped
      by_cases goes : (view.cancellation.isNone && !call.hasTimedOut) = true
      · rw [Bool.and_eq_true, Option.isNone_iff_eq_none,
          Bool.not_eq_true'] at goes
        exact Or.inl ⟨goes.1, goes.2, rfl⟩
      · rw [if_neg goes, Option.some.injEq] at stepped
        exact Or.inr ⟨_, stepped.symm⟩

/-- A step brings an invocation nearer only where the call is invoked, where its
sleep begins and where it ends in time. -/
theorem rests_of_step
    (stepped : call.step view event = some call') :
    (event ≠ .intervalStarted ∧ Rests call call') ∨
      (∃ resource, call.phase = .received resource ∧
        event = .continued ∧
          call'.invocations = call.invocations + 1 ∧
            call'.phase = .running resource) ∨
      (event = .intervalStarted ∧ call'.invocations = call.invocations ∧
        call'.phase = .sleeping) ∨
      (event = .slept ∧ call.phase = .sleeping ∧
        view.cancellation = none ∧ call.hasTimedOut = false ∧
          call'.invocations = call.invocations ∧ call'.phase ≠ .sleeping) := by
  cases steps_of_step stepped with
  | withdrawn before cancelled =>
      exact Or.inl ⟨by simp, rfl, by simp [CallPhase.isAwake], by simp⟩
  | @invoked resource before active =>
      refine Or.inr (Or.inl ⟨resource, before, rfl, ?_, rfl⟩)
      unfold invocations
      exact List.countP_cons_of_pos rfl
  | completed before =>
      exact Or.inl
        ⟨by simp, rests_settle call _ _ (by simp [CallPhase.isAwake]) (by simp)⟩
  | commandFailed before =>
      exact Or.inl ⟨by simp, rfl, by simp [CallPhase.isAwake], by simp⟩
  | caught before => exact Or.inl ⟨by simp, rests_caught _⟩
  | thrown before =>
      exact Or.inl
        ⟨by simp, rests_settle call _ _ (by simp [CallPhase.isAwake]) (by simp)⟩
  | intervalStarted before =>
      exact Or.inr (Or.inr (Or.inl ⟨rfl, rfl, rfl⟩))
  | retried before =>
      rcases (slept_cases stepped).2 with ⟨active, pending, _⟩ | ⟨error, thrown⟩
      · refine Or.inr (Or.inr (Or.inr ⟨rfl, before, active, pending, ?_, ?_⟩))
        · unfold invocations
          rw [executeOnce_history]
        · cases view.available <;> simp [executeOnce]
      · rw [thrown]
        exact Or.inl ⟨by simp, rfl, by simp [CallPhase.isAwake], by simp⟩
  | givenUp before =>
      exact Or.inl ⟨by simp, rfl, by simp [CallPhase.isAwake], by simp⟩
  | timedOut pending first =>
      have same :=
        settle_phase call (.rejected (.commandTimedOut view.commandTimeoutMs))
      refine Or.inl ⟨by simp, settle_invocations call _, ?_, ?_⟩
      · intro awake
        exact same ▸ awake
      · intro sleeping
        exact same.symm.trans sleeping
  | finalized settled =>
      have awake := isAwake_unregister call.phase
      exact Or.inl ⟨by simp, rfl, fun ahead => awake ▸ ahead, sleeping_unregister⟩

/-- A step within the time limit keeps to the budget. -/
theorem InBudget.step
    (inBudget : call.InBudget timeout interval now clock)
    (timerOnly : TimerOnly view.cancellation call) (passes : now ≤ later)
    (properly : call.sleepsProperly timeout interval later clock event = true)
    (stepped : call.step view event = some call') :
    call'.InBudget timeout interval later (clock.after later event) := by
  rcases rests_of_step stepped with ⟨elsewhere, rests⟩ |
    ⟨resource, received, continued, invoked, running⟩ |
    ⟨begins, uninvoked, sleeping⟩ |
    ⟨slept, sleeping, active, pending, uninvoked, awake⟩
  · have sameClock : clock.after later event = clock := by
      cases event with
      | intervalStarted => exact absurd rfl elsewhere
      | _ => rfl
    rw [sameClock]
    exact inBudget.rests rests passes
  · obtain ⟨within, reached⟩ := inBudget.awake (by rw [received]; rfl)
    subst continued
    constructor
    · rw [invoked, Nat.succ_mul]
      omega
    · intro awake
      rw [running] at awake
      cases awake
    · rw [invoked, Nat.succ_mul]
      simp only [CallClock.after]
      omega
    · intro sleeping
      rw [running] at sleeping
      cases sleeping
  · have behind := inBudget.behind
    subst begins
    constructor
    · rw [uninvoked]
      exact inBudget.bound
    · intro awake
      rw [sleeping] at awake
      cases awake
    · rw [uninvoked]
      simp only [CallClock.after]
      omega
    · intro _
      rw [uninvoked]
      simp only [CallClock.after]
      omega
  · have since := inBudget.sleeping sleeping
    have unsettled : call.isSettled = false := by
      have settledByTimer := timerOnly active (by rw [sleeping]; simp)
      rw [pending] at settledByTimer
      simpa using settledByTimer
    subst slept
    simp only [sleepsProperly, unsettled, Bool.false_or, Bool.and_eq_true,
      decide_eq_true_eq] at properly
    obtain ⟨elapsed, inTime⟩ := properly
    constructor
    · rw [uninvoked]
      exact inBudget.bound
    · intro _
      rw [uninvoked]
      simp only [CallClock.after]
      omega
    · rw [uninvoked]
      simp only [CallClock.after]
      omega
    · intro again
      exact absurd again awake

end ExecuteCall

namespace Executor

/-- An executor with the time and with the clocks of its calls. -/
abbrev Clocked (ρ : Type) : Type :=
  (Executor ρ × ℕ) × List CallClock

/-- The clocks of the calls, in the order of the calls. -/
def recordClock
    (clocks : List CallClock) (_ : Executor ρ × ℕ)
    (event : ExecutorEvent ρ × ℕ) : List CallClock :=
  match event.1 with
  | .execute _ => clocks ++ [⟨event.2, event.2⟩]
  | .call index inCall =>
      clocks.modify index fun clock => clock.after event.2 inCall
  | _ => clocks

def clockedMachine (kind : ExecutorKind) (commandTimeoutMs : JsNumber) :
    Machine (Clocked ρ) (ExecutorEvent ρ × ℕ) :=
  ((machine kind commandTimeoutMs).clocked 0).watched recordClock []

def timersInOrder
    (timeout interval : ℕ) (state : Clocked ρ)
    (event : ExecutorEvent ρ × ℕ) : Bool :=
  match event.1 with
  | .call index inCall =>
      match state.1.1.calls[index]?, state.2[index]? with
      | some call, some clock =>
          call.sleepsProperly timeout interval event.2 clock inCall
      | _, _ => true
  | _ => true

/-- The timers of the calls fire in the order in which they are due. -/
def TimersInOrder
    (timeout interval : ℕ) (state : Clocked ρ)
    (event : ExecutorEvent ρ × ℕ) : Prop :=
  timersInOrder timeout interval state event = true

instance (timeout interval : ℕ) (state : Clocked ρ)
    (event : ExecutorEvent ρ × ℕ) :
    Decidable (TimersInOrder timeout interval state event) :=
  inferInstanceAs (Decidable (_ = _))

variable {timeout interval : ℕ}

structure InBudget
    (timeout interval : ℕ) (state : Clocked ρ) :
    Prop where
  length : state.2.length = state.1.1.calls.length
  timersOnly : state.1.1.TimersOnly
  calls :
    ∀ (index : ℕ) (call : ExecuteCall ρ) (clock : CallClock),
      state.1.1.calls[index]? = some call → state.2[index]? = some clock →
        call.InBudget timeout interval state.1.2 clock

theorem inBudget_create (kind : ExecutorKind) (commandTimeoutMs : JsNumber) :
    InBudget timeout interval
      (clockedMachine kind commandTimeoutMs : Machine (Clocked ρ) _).initial where
  length := rfl
  timersOnly := by
    intro call member
    cases member
  calls index call clock present := by
    cases present

theorem InBudget.map
    {state : Clocked ρ} {next : Executor ρ} {later : ℕ}
    {operation : ExecuteCall ρ → ExecuteCall ρ}
    (inBudget : InBudget timeout interval state) (timersOnly : next.TimersOnly)
    (passes : state.1.2 ≤ later)
    (mapped : next.calls = state.1.1.calls.map operation)
    (rests : ∀ call, ExecuteCall.Rests call (operation call)) :
    InBudget timeout interval ((next, later), state.2) where
  length := by
    rw [inBudget.length, mapped, List.length_map]
  timersOnly := timersOnly
  calls index call' clock present started := by
    rw [mapped, List.getElem?_map] at present
    obtain ⟨call, earlier, rfl⟩ := Option.map_eq_some_iff.mp present
    exact (inBudget.calls index call clock earlier started).rests (rests call) passes

/-- One call goes on, and its clock with it. -/
theorem InBudget.set
    {executor : Executor ρ} {now later : ℕ} {clocks : List CallClock}
    {index : ℕ} {call call' : ExecuteCall ρ} {inCall : CallEvent}
    (inBudget : InBudget timeout interval ((executor, now), clocks))
    (timersOnly : { executor with calls := executor.calls.set index call' }.TimersOnly)
    (passes : now ≤ later) (found : executor.calls[index]? = some call)
    (kept :
      ∀ clock, clocks[index]? = some clock →
        call'.InBudget timeout interval later (clock.after later inCall)) :
    InBudget timeout interval
      (({ executor with calls := executor.calls.set index call' }, later),
        clocks.modify index fun clock => clock.after later inCall) where
  length := by
    simp [inBudget.length]
  timersOnly := timersOnly
  calls other call'' clock present started := by
    rw [List.getElem?_modify] at started
    obtain ⟨earlier, before, rfl⟩ := Option.map_eq_some_iff.mp started
    by_cases same : index = other
    · subst same
      have inside := (List.getElem?_eq_some_iff.mp found).1
      rw [List.getElem?_set_self inside] at present
      cases present
      rw [if_pos rfl]
      exact kept earlier before
    · rw [List.getElem?_set_ne same] at present
      rw [if_neg same]
      exact (inBudget.calls other call'' earlier present before).rests
        (.refl call'') passes

theorem inBudget_preserved (kind : ExecutorKind) (commandTimeoutMs : JsNumber) :
    (clockedMachine kind commandTimeoutMs : Machine (Clocked ρ) _).PreservedUnder
      (TimersInOrder timeout interval) (InBudget timeout interval) := by
  intro state event next inBudget inOrder stepped
  obtain ⟨moved, recorded⟩ := Machine.watched_step_iff.mp stepped
  obtain ⟨passes, taken, time⟩ := Machine.clocked_step_iff.mp moved
  obtain ⟨⟨executor, now⟩, clocks⟩ := state
  obtain ⟨⟨executor', later⟩, clocks'⟩ := next
  obtain ⟨event, arrived⟩ := event
  simp only at passes taken time recorded
  subst time recorded
  have timersOnly :=
    timersOnly_preserved kind commandTimeoutMs _ _ _ inBudget.timersOnly taken
  change executor.step event = some executor' at taken
  cases event with
  | execute retryOnError =>
      cases taken
      refine ⟨?_, timersOnly, ?_⟩
      · simp [recordClock, inBudget.length]
      · intro index call clock present started
        simp only [recordClock] at started
        by_cases new : index = executor.calls.length
        · have sameClock : clocks.length = index := inBudget.length.trans new.symm
          subst new
          rw [List.getElem?_concat_length] at present
          rw [← sameClock, List.getElem?_concat_length] at started
          cases present
          cases started
          exact ExecuteCall.inBudget_execute executor.view retryOnError _ _ _
        · have inside : index < executor.calls.length := by
            have bound := (List.getElem?_eq_some_iff.mp present).1
            simp only [List.length_append, List.length_singleton] at bound
            omega
          have insideClocks : index < clocks.length := by
            rw [inBudget.length]
            exact inside
          rw [List.getElem?_append_left inside] at present
          rw [List.getElem?_append_left insideClocks] at started
          exact (inBudget.calls index call clock present started).rests
            (.refl call) passes
  | set resource =>
      cases taken
      cases resource with
      | none =>
          refine inBudget.map timersOnly passes (List.map_id _).symm ?_
          exact ExecuteCall.Rests.refl
      | some resource =>
          exact inBudget.map timersOnly passes rfl
            (ExecuteCall.rests_becameAvailable resource)
  | resumeAll =>
      cases taken
      exact inBudget.map timersOnly passes rfl ExecuteCall.rests_resume
  | cancelAll error =>
      cases taken
      cases cancellation : executor.cancellation with
      | some earlier =>
          refine inBudget.map timersOnly passes ?_ ExecuteCall.Rests.refl
          simp [cancelAll, cancellation]
      | none =>
          refine inBudget.map timersOnly passes ?_ (ExecuteCall.rests_cancel error)
          simp [cancelAll, cancellation]
  | call index inCall =>
      simp only [step] at taken
      cases found : executor.calls[index]? with
      | none => simp [found] at taken
      | some call =>
          rw [found] at taken
          obtain ⟨call', continued, rfl⟩ := Option.map_eq_some_iff.mp taken
          refine inBudget.set timersOnly passes found ?_
          intro clock started
          have properly :
              call.sleepsProperly timeout interval later clock inCall = true := by
            simpa only [TimersInOrder, timersInOrder, found, started] using inOrder
          have timerOnly :=
            inBudget.timersOnly call (List.mem_of_getElem? found)
          exact (inBudget.calls index call clock found started).step timerOnly
            passes properly continued

/-- A sleep of `commandRetryIntervalMs` before each retry, and a timer that stops
the retries after `commandTimeoutMs`, bound the invocations of every call. -/
theorem invocations_le_of_timersInOrder
    (kind : ExecutorKind) (commandTimeoutMs commandRetryIntervalMs : JsNumber)
    (schedule : List (ExecutorEvent ρ × ℕ)) (state : Clocked ρ)
    (execution :
      (clockedMachine kind commandTimeoutMs).run
        (clockedMachine kind commandTimeoutMs).initial schedule = some state)
    (inOrder :
      (clockedMachine kind commandTimeoutMs).Throughout
        (TimersInOrder commandTimeoutMs.timerDelay
          commandRetryIntervalMs.timerDelay)
        (clockedMachine kind commandTimeoutMs).initial schedule) :
    ∀ call ∈ state.1.1.calls,
      call.invocations ≤
        commandTimeoutMs.timerDelay / commandRetryIntervalMs.timerDelay + 1 := by
  intro call member
  have inBudget :=
    Machine.run_invariant_under (inBudget_preserved kind commandTimeoutMs)
      (inBudget_create kind commandTimeoutMs) inOrder execution
  obtain ⟨index, present⟩ := List.mem_iff_getElem?.mp member
  have inside : index < state.2.length := by
    rw [inBudget.length]
    exact (List.getElem?_eq_some_iff.mp present).1
  have bound :=
    (inBudget.calls index call _ present (List.getElem?_eq_getElem inside)).bound
  have positive := commandRetryIntervalMs.timerDelay_pos
  rw [← Nat.add_div_right _ positive, Nat.le_div_iff_mul_le positive]
  exact bound

/-- `COMMAND_TIMEOUT_MS`. -/
def defaultCommandTimeoutMs : JsNumber :=
  .ofNat (60 * 1000)

/-- `COMMAND_RETRY_INTERVAL_MS`. -/
def defaultCommandRetryIntervalMs : JsNumber :=
  .ofNat 200

/-- A command fails with its connection and is retried on the next one. -/
def retriedAfterInterval : List (ExecutorEvent ℕ × ℕ) :=
  [(.set (some 0), 5), (.execute true, 10), (.call 0 .continued, 10),
    (.call 0 (.commandSettled (.rejected .connectionClosed)), 20),
    (.call 0 .caught, 20), (.set none, 20), (.set (some 1), 1000),
    (.resumeAll, 1000), (.call 0 .intervalStarted, 1000),
    (.call 0 .slept, 1200), (.call 0 .continued, 1200),
    (.call 0 (.commandSettled .fulfilled), 1210), (.call 0 .finalized, 1210)]

theorem invocations_le_of_timersInOrder_retried :
    ∃ state,
      (clockedMachine .connection defaultCommandTimeoutMs).run
          (clockedMachine .connection defaultCommandTimeoutMs).initial
          retriedAfterInterval = some state ∧
        ∀ call ∈ state.1.1.calls,
          call.invocations ≤
            defaultCommandTimeoutMs.timerDelay /
              defaultCommandRetryIntervalMs.timerDelay + 1 :=
  ⟨_, rfl,
    invocations_le_of_timersInOrder .connection defaultCommandTimeoutMs
      defaultCommandRetryIntervalMs retriedAfterInterval _ rfl (by decide)⟩

/-- The default values allow for 300 retries. -/
example :
    defaultCommandTimeoutMs.timerDelay /
      defaultCommandRetryIntervalMs.timerDelay = 300 := by
  decide +kernel

end Executor

end Amq.Core
