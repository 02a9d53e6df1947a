import Amq.Jobs.JobHandlerManager

/-!
# The scheduler of one delivered attempt

`Scheduler.retry` awaits twice, so a call of it is a small process: it either
ends before its first await, or waits for the retry queue and then for the
broker's confirmation of the message.  `discard` is synchronous.

The scheduler keeps the object `data` that user code is given, and a pending call
keeps the object `retryContext` that user code has passed.  Both are read when
the message is serialized, after the first await, and may have been changed in
place by then.
-/

namespace Amq.Jobs

structure Scheduler (κ V : Type) where
  job : V
  /-- What the object holds now. -/
  data : V
  attempt : V
  correlationId : κ
  isDiscarded : Bool

structure RetryOptions (V : Type) where
  retryDelayMs : Option JsNumber
  retryContext : Option V
  resetAttempts : Bool

/-- The part of `retry` before its first await. -/
inductive RetryStart (V : Type) where
  /-- The job was discarded beforehand. -/
  | ignored
  /-- `this.discard(new MaxAttemptCountReachedError())`. -/
  | exceeding
  | threw
  | creating (nextAttempt : V) (retryDelayMs : JsNumber)

/-- Where a call of `retry` stands. -/
inductive RetryCall (V : Type) where
  /-- With what `retryContext` holds now. -/
  | creating
      (nextAttempt : V) (retryContext : Option V) (retryDelayMs : JsNumber)
  | sending (message : SerializedContext V) (retryDelayMs : JsNumber)
  | resolved
  | rejected

/-- Waiting for the queue of its message. -/
def RetryCall.isCreating {V : Type} : RetryCall V → Bool
  | .creating _ _ _ => true
  | _ => false

namespace Scheduler

variable {κ V : Type}

def create
    (context : SerializedContext V) (correlationId : κ) : Scheduler κ V where
  job := context.job
  data := context.data
  attempt := context.attempt
  correlationId := correlationId
  isDiscarded := false

def currentAttempt
    (scheduler : Scheduler κ V) (operators : JsOperators V)
    (options : RetryOptions V) : V :=
  if options.resetAttempts then operators.one else scheduler.attempt

/-- The argument of `serialize`, after the await on the retry queue. -/
def retryMessage
    (scheduler : Scheduler κ V) (operators : JsOperators V)
    (retryContext : Option V) (nextAttempt : V) : SerializedContext V where
  job := scheduler.job
  data := scheduler.data
  attempt := nextAttempt
  retryContext := operators.orEmptyObject retryContext

def retryDelay
    (scheduler : Scheduler κ V) (operators : JsOperators V)
    (manager : JobHandlerManager V) (options : RetryOptions V) :
    Except Thrown JsNumber :=
  match options.retryDelayMs with
  | some retryDelayMs => .ok retryDelayMs
  | none =>
      manager.calculateRetryDelayMs operators scheduler.job
        (scheduler.currentAttempt operators options)

def retry
    (scheduler : Scheduler κ V) (operators : JsOperators V)
    (manager : JobHandlerManager V) (options : RetryOptions V) :
    RetryStart V :=
  if scheduler.isDiscarded then
    .ignored
  else
    match operators.addOne (scheduler.currentAttempt operators options) with
    | none => .threw
    | some nextAttempt =>
        match
          manager.isExceedingMaxAttemptCount operators scheduler.job nextAttempt
        with
        | none => .threw
        | some true => .exceeding
        | some false =>
            match scheduler.retryDelay operators manager options with
            | .error _ => .threw
            | .ok retryDelayMs => .creating nextAttempt retryDelayMs

/-- The scheduler after `discard`, and whether this call reported the job. -/
def discard (scheduler : Scheduler κ V) : Scheduler κ V × Bool :=
  ({ scheduler with isDiscarded := true }, !scheduler.isDiscarded)

theorem retry_ignored_iff
    (scheduler : Scheduler κ V) (operators : JsOperators V)
    (manager : JobHandlerManager V) (options : RetryOptions V) :
    scheduler.retry operators manager options = .ignored ↔
      scheduler.isDiscarded = true := by
  unfold retry
  cases scheduler.isDiscarded with
  | true => simp
  | false =>
      simp only [Bool.false_eq_true, ↓reduceIte, iff_false]
      split
      · simp
      · split
        · simp
        · simp
        · split <;> simp

/-- The attempt of the message is the current one plus one. -/
theorem addOne_of_retry_creating
    {scheduler : Scheduler κ V} {operators : JsOperators V}
    {manager : JobHandlerManager V} {options : RetryOptions V} {nextAttempt : V}
    {retryDelayMs : JsNumber}
    (creating :
      scheduler.retry operators manager options =
        .creating nextAttempt retryDelayMs) :
    operators.addOne (scheduler.currentAttempt operators options) =
      some nextAttempt := by
  unfold retry at creating
  split at creating
  · cases creating
  · split at creating
    · cases creating
    · rename_i incremented
      split at creating
      · cases creating
      · cases creating
      · split at creating
        · cases creating
        · cases creating
          exact incremented

end Scheduler

end Amq.Jobs
