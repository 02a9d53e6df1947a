import Amq.Jobs.Scheduler
import Amq.MessageRelevancyChecker
import Amq.Transition.Records

/-!
# One run of `handleJobMessage`

A run is cut at its await points.  Between two of them the code is synchronous,
so every event below stands for the settling of one awaited operation together
with the code that follows it, or for a call that user code makes on the
scheduler.  User code keeps the scheduler: it may call it after its promise has
settled, after its timeout and after the run has ended.  It also keeps the objects
that it shares with the scheduler, and may change them in place at any time.

The history of a run lists what was observable about it, the latest entry first.
-/

namespace Amq.Jobs

inductive DiscardReason where
  | maxAttemptCountReached
  | givenByUser
  deriving DecidableEq, Repr

/-- Where `handleJobMessage` waits. -/
inductive AttemptPhase where
  /-- In `handleJob`; without a handler the awaited promise can only reject. -/
  | handling (hasHandler hasTimer : Bool)
  | handlingError (hasHandleError : Bool)
  /-- On the default `scheduler.retry()`, which is the given call. -/
  | retrying (call : ℕ)
  /-- Past the `try` statement, before the check for disposal.  A run that waited
  gets here some microtasks before the check; for an exceeding attempt the check
  follows at once, and keeping it apart only adds interleavings. -/
  | processed
  | acknowledging (tag : DeliveryTag)
  | ended
  deriving DecidableEq, Repr

/-- The run may still read its delivery tag. -/
def AttemptPhase.awaitsTag : AttemptPhase → Bool
  | .acknowledging _ => false
  | .ended => false
  | _ => true

inductive Observation (V : Type) where
  | attemptExceeded
  | discardReported (reason : DiscardReason)
  | handlerResolved
  | handlerTimedOut
  | handleErrorResolved
  | jobErrorEmitted
  | retryCalled (call : ℕ) (isDefault : Bool)
  | dataChanged (data : V)
  | published (call : ℕ) (message : SerializedContext V)
  | publishConfirmed (call : ℕ)
  | defaultRetryResolved (call : ℕ)
  | defaultRetryRejected (call : ℕ)
  | acknowledged (tag : DeliveryTag)
  deriving DecidableEq

/-- A run whose message could be deserialized. -/
structure AttemptRun (κ V : Type) where
  correlationId : κ
  /-- What the message has been deserialized to. -/
  context : SerializedContext V
  scheduler : Scheduler κ V
  phase : AttemptPhase
  /-- User code has been given the scheduler. -/
  isExposed : Bool
  retries : List (RetryCall V)
  history : List (Observation V)

/-- What a run reads of its surroundings. -/
structure Surroundings (Buffer V : Type) where
  operators : JsOperators V
  jsonBufferSerializer : JsonBufferSerializer Buffer (SerializedContext V)
  jobHandlerManager : JobHandlerManager V
  isDisposed : Bool
  /-- `getDeliveryTag` for the correlation id of the run. -/
  actualDeliveryTag : Option DeliveryTag

structure Message (κ Buffer : Type) where
  correlationId : κ
  content : Buffer
  deriving DecidableEq

/-- What a run does to its surroundings. -/
inductive Effect (κ Buffer : Type) where
  /-- `sendToQueue` to the retry queue for this delay, which is also the expiry of
  the message. -/
  | publish (retryDelayMs : JsNumber) (message : Message κ Buffer)
  | acknowledge (tag : DeliveryTag)
  | unlock (correlationId : κ)

inductive AttemptEvent (V : Type) where
  | handlerSettled (settlement : Settlement)
  | handlerTimedOut
  | handleErrorSettled (settlement : Settlement)
  | retryCalled (options : RetryOptions V)
  | discardCalled
  /-- The object `data` is changed in place, by user code or by a listener of the
  events that carry it. -/
  | dataChanged (data : V)
  /-- The object that a pending call was given as `retryContext` is changed. -/
  | retryContextChanged (call : ℕ) (retryContext : V)
  | retryQueueSettled (call : ℕ) (settlement : Settlement)
  | sendSettled (call : ℕ) (settlement : Settlement)
  | defaultRetrySettled
  | proceed
  | acknowledgeSettled (settlement : Settlement)

namespace AttemptRun

variable {κ Buffer V : Type}

def discard (run : AttemptRun κ V) (reason : DiscardReason) : AttemptRun κ V :=
  match run.scheduler.discard with
  | (scheduler, true) =>
      { run with
        scheduler := scheduler
        history := .discardReported reason :: run.history }
  | (scheduler, false) => { run with scheduler := scheduler }

/-- The `catch` clause around the handler, up to its await. -/
def catchError
    (surroundings : Surroundings Buffer V) (run : AttemptRun κ V) :
    AttemptRun κ V :=
  if surroundings.isDisposed then
    { run with phase := .ended }
  else
    let hasHandleError :=
      surroundings.jobHandlerManager.hasHandleError run.context.job
    { run with
      phase := .handlingError hasHandleError
      isExposed := run.isExposed || hasHandleError }

@[simp]
theorem discard_correlationId (run : AttemptRun κ V) (reason : DiscardReason) :
    (run.discard reason).correlationId = run.correlationId := by
  cases discarded : run.scheduler.isDiscarded <;>
    simp [discard, Scheduler.discard, discarded]

@[simp]
theorem discard_context (run : AttemptRun κ V) (reason : DiscardReason) :
    (run.discard reason).context = run.context := by
  cases discarded : run.scheduler.isDiscarded <;>
    simp [discard, Scheduler.discard, discarded]

@[simp]
theorem discard_phase (run : AttemptRun κ V) (reason : DiscardReason) :
    (run.discard reason).phase = run.phase := by
  cases discarded : run.scheduler.isDiscarded <;>
    simp [discard, Scheduler.discard, discarded]

@[simp]
theorem discard_retries (run : AttemptRun κ V) (reason : DiscardReason) :
    (run.discard reason).retries = run.retries := by
  cases discarded : run.scheduler.isDiscarded <;>
    simp [discard, Scheduler.discard, discarded]

/-- `discard` reports the job unless it was discarded before. -/
theorem discard_history (run : AttemptRun κ V) (reason : DiscardReason) :
    (run.discard reason).history =
      if run.scheduler.isDiscarded then
        run.history
      else
        .discardReported reason :: run.history := by
  cases discarded : run.scheduler.isDiscarded <;>
    simp [discard, Scheduler.discard, discarded]

@[simp]
theorem discard_scheduler (run : AttemptRun κ V) (reason : DiscardReason) :
    (run.discard reason).scheduler =
      { run.scheduler with isDiscarded := true } := by
  cases discarded : run.scheduler.isDiscarded <;>
    simp [discard, Scheduler.discard, discarded]

theorem discard_isDiscarded (run : AttemptRun κ V) (reason : DiscardReason) :
    (run.discard reason).scheduler.isDiscarded = true := by
  rw [discard_scheduler]

@[simp]
theorem catchError_correlationId
    (surroundings : Surroundings Buffer V) (run : AttemptRun κ V) :
    (run.catchError surroundings).correlationId = run.correlationId := by
  unfold catchError
  split <;> rfl

@[simp]
theorem catchError_context
    (surroundings : Surroundings Buffer V) (run : AttemptRun κ V) :
    (run.catchError surroundings).context = run.context := by
  unfold catchError
  split <;> rfl

@[simp]
theorem catchError_scheduler
    (surroundings : Surroundings Buffer V) (run : AttemptRun κ V) :
    (run.catchError surroundings).scheduler = run.scheduler := by
  unfold catchError
  split <;> rfl

@[simp]
theorem catchError_retries
    (surroundings : Surroundings Buffer V) (run : AttemptRun κ V) :
    (run.catchError surroundings).retries = run.retries := by
  unfold catchError
  split <;> rfl

@[simp]
theorem catchError_history
    (surroundings : Surroundings Buffer V) (run : AttemptRun κ V) :
    (run.catchError surroundings).history = run.history := by
  unfold catchError
  split <;> rfl

theorem catchError_phase
    (surroundings : Surroundings Buffer V) (run : AttemptRun κ V) :
    (run.catchError surroundings).phase = .ended ∨
      ∃ hasHandleError,
        (run.catchError surroundings).phase = .handlingError hasHandleError := by
  unfold catchError
  split
  · exact Or.inl rfl
  · exact Or.inr ⟨_, rfl⟩

/-- `handleJobMessage` from the creation of the scheduler to its first await. -/
def start
    (surroundings : Surroundings Buffer V)
    (correlationId : κ) (context : SerializedContext V) : AttemptRun κ V :=
  let manager := surroundings.jobHandlerManager
  let run : AttemptRun κ V :=
    { correlationId := correlationId
      context := context
      scheduler := Scheduler.create context correlationId
      phase := .processed
      isExposed := false
      retries := []
      history := [] }
  match
    manager.isExceedingMaxAttemptCount surroundings.operators
      context.job context.attempt
  with
  | some true =>
      AttemptRun.discard { run with history := [.attemptExceeded] }
        .maxAttemptCountReached
  | some false =>
      match manager.handle surroundings.operators context.job with
      | .ok _ =>
          { run with
            phase := .handling true (manager.hasTimer context.job)
            isExposed := true }
      | .error _ =>
          { run with phase := .handling false (manager.hasTimer context.job) }
  | none => run.catchError surroundings

/-- The first await of a run: past the `try` statement with the discard
reported, in the handler, or with an error caught. -/
theorem start_cases
    (surroundings : Surroundings Buffer V)
    (correlationId : κ) (context : SerializedContext V) :
    (start surroundings correlationId context).correlationId = correlationId ∧
      (start surroundings correlationId context).context = context ∧
      (start surroundings correlationId context).retries = [] ∧
      (((start surroundings correlationId context).phase = .processed ∧
          (start surroundings correlationId context).isExposed = false ∧
          (start surroundings correlationId context).scheduler.isDiscarded =
            true ∧
          (start surroundings correlationId context).history =
            [.discardReported .maxAttemptCountReached, .attemptExceeded]) ∨
        ((start surroundings correlationId context).scheduler.isDiscarded =
            false ∧
          (start surroundings correlationId context).history = [] ∧
          ((∃ hasHandler hasTimer,
              (start surroundings correlationId context).phase =
                .handling hasHandler hasTimer) ∨
            (start surroundings correlationId context).phase = .ended ∨
            ∃ hasHandleError,
              (start surroundings correlationId context).phase =
                .handlingError hasHandleError))) := by
  generalize started : start surroundings correlationId context = run
  unfold start at started
  dsimp only at started
  split at started
  · subst started
    refine ⟨by simp, by simp, by simp, Or.inl ⟨by simp, ?_, by simp, ?_⟩⟩
    · simp [discard, Scheduler.discard, Scheduler.create]
    · simp [discard_history, Scheduler.create]
  · split at started
    · subst started
      exact ⟨rfl, rfl, rfl, Or.inr ⟨rfl, rfl, Or.inl ⟨_, _, rfl⟩⟩⟩
    · subst started
      exact ⟨rfl, rfl, rfl, Or.inr ⟨rfl, rfl, Or.inl ⟨_, _, rfl⟩⟩⟩
  · subst started
    refine ⟨by simp, by simp, by simp, Or.inr ⟨?_, by simp, Or.inr ?_⟩⟩
    · rw [catchError_scheduler]
      rfl
    · exact catchError_phase surroundings _

/-- A call of `scheduler.retry` up to its first await. -/
def callRetry
    (surroundings : Surroundings Buffer V) (run : AttemptRun κ V)
    (options : RetryOptions V) (isDefault : Bool) : AttemptRun κ V :=
  let called : AttemptRun κ V :=
    { run with
      history := .retryCalled run.retries.length isDefault :: run.history }
  match
    run.scheduler.retry surroundings.operators surroundings.jobHandlerManager
      options
  with
  | .ignored => { called with retries := run.retries ++ [.resolved] }
  | .exceeding =>
      AttemptRun.discard { called with retries := run.retries ++ [.resolved] }
        .maxAttemptCountReached
  | .threw => { called with retries := run.retries ++ [.rejected] }
  | .creating nextAttempt retryDelayMs =>
      { called with
        retries :=
          run.retries ++
            [.creating nextAttempt options.retryContext retryDelayMs] }

@[simp]
theorem callRetry_correlationId
    (surroundings : Surroundings Buffer V) (run : AttemptRun κ V)
    (options : RetryOptions V) (isDefault : Bool) :
    (run.callRetry surroundings options isDefault).correlationId =
      run.correlationId := by
  unfold callRetry
  split <;> simp

@[simp]
theorem callRetry_context
    (surroundings : Surroundings Buffer V) (run : AttemptRun κ V)
    (options : RetryOptions V) (isDefault : Bool) :
    (run.callRetry surroundings options isDefault).context = run.context := by
  unfold callRetry
  split <;> simp

@[simp]
theorem callRetry_phase
    (surroundings : Surroundings Buffer V) (run : AttemptRun κ V)
    (options : RetryOptions V) (isDefault : Bool) :
    (run.callRetry surroundings options isDefault).phase = run.phase := by
  unfold callRetry
  split <;> simp

/-- A call of `retry` changes nothing of the scheduler but whether it is
discarded. -/
theorem callRetry_scheduler
    (surroundings : Surroundings Buffer V) (run : AttemptRun κ V)
    (options : RetryOptions V) (isDefault : Bool) :
    (run.callRetry surroundings options isDefault).scheduler.job =
        run.scheduler.job ∧
      (run.callRetry surroundings options isDefault).scheduler.data =
        run.scheduler.data ∧
      (run.callRetry surroundings options isDefault).scheduler.attempt =
        run.scheduler.attempt := by
  unfold callRetry
  split <;> simp

/-- A call of `retry` either ends before its first await or waits for the retry
queue; it ends at once on a discarded job, and discards a job that would exceed
its attempts. -/
theorem callRetry_cases
    (surroundings : Surroundings Buffer V) (run : AttemptRun κ V)
    (options : RetryOptions V) (isDefault : Bool) :
    ∃ call,
      (run.callRetry surroundings options isDefault).retries =
          run.retries ++ [call] ∧
      ((run.scheduler.isDiscarded = true ∧ call = .resolved ∧
          (run.callRetry surroundings options isDefault).scheduler =
            run.scheduler ∧
          (run.callRetry surroundings options isDefault).history =
            .retryCalled run.retries.length isDefault :: run.history) ∨
        (run.scheduler.isDiscarded = false ∧ call = .resolved ∧
          (run.callRetry surroundings options isDefault).scheduler.isDiscarded =
            true ∧
          (run.callRetry surroundings options isDefault).history =
            .discardReported .maxAttemptCountReached ::
              .retryCalled run.retries.length isDefault :: run.history) ∨
        (run.scheduler.isDiscarded = false ∧
          (call = .rejected ∨
            ∃ nextAttempt retryDelayMs,
              surroundings.operators.addOne
                  (run.scheduler.currentAttempt surroundings.operators options) =
                some nextAttempt ∧
              call = .creating nextAttempt options.retryContext retryDelayMs) ∧
          (run.callRetry surroundings options isDefault).scheduler =
            run.scheduler ∧
          (run.callRetry surroundings options isDefault).history =
            .retryCalled run.retries.length isDefault :: run.history)) := by
  have ignoredIff :=
    run.scheduler.retry_ignored_iff surroundings.operators
      surroundings.jobHandlerManager options
  unfold callRetry
  split
  · rename_i ignored
    have discarded : run.scheduler.isDiscarded = true := ignoredIff.mp ignored
    exact ⟨.resolved, rfl, Or.inl ⟨discarded, rfl, rfl, rfl⟩⟩
  · rename_i exceeding
    have kept : run.scheduler.isDiscarded = false := by
      rw [← Bool.not_eq_true, ← ignoredIff, exceeding]
      exact nofun
    refine ⟨.resolved, by simp, Or.inr (Or.inl ⟨kept, rfl, by simp, ?_⟩)⟩
    rw [discard_history]
    simp [kept]
  · rename_i threw
    have kept : run.scheduler.isDiscarded = false := by
      rw [← Bool.not_eq_true, ← ignoredIff, threw]
      exact nofun
    exact ⟨.rejected, rfl, Or.inr (Or.inr ⟨kept, Or.inl rfl, rfl, rfl⟩)⟩
  · rename_i nextAttempt retryDelayMs creating
    have kept : run.scheduler.isDiscarded = false := by
      rw [← Bool.not_eq_true, ← ignoredIff, creating]
      exact nofun
    exact ⟨.creating nextAttempt options.retryContext retryDelayMs, rfl,
      Or.inr (Or.inr
        ⟨kept,
          Or.inr ⟨_, _, Scheduler.addOne_of_retry_creating creating, rfl⟩, rfl,
          rfl⟩)⟩

/-- A call of `retry` only observes itself and a discard. -/
theorem callRetry_added
    (surroundings : Surroundings Buffer V) (run : AttemptRun κ V)
    (options : RetryOptions V) (isDefault : Bool) :
    (run.callRetry surroundings options isDefault).history =
        [.retryCalled run.retries.length isDefault] ++ run.history ∨
      (run.callRetry surroundings options isDefault).history =
        [.discardReported .maxAttemptCountReached,
          .retryCalled run.retries.length isDefault] ++ run.history := by
  obtain ⟨_, _, outcome⟩ := callRetry_cases surroundings run options isDefault
  rcases outcome with
    ⟨_, _, _, history⟩ | ⟨_, _, _, history⟩ | ⟨_, _, _, history⟩
  · exact Or.inl history
  · exact Or.inr history
  · exact Or.inl history

/-- A call of `retry` adds itself and reports of a discard to the history. -/
theorem callRetry_history
    (surroundings : Surroundings Buffer V) (run : AttemptRun κ V)
    (options : RetryOptions V) (isDefault : Bool) :
    ∃ added : List (Observation V),
      (run.callRetry surroundings options isDefault).history =
          added ++ run.history ∧
        .retryCalled run.retries.length isDefault ∈ added ∧
        (∀ tag, .acknowledged tag ∉ added) ∧
        (∀ call, .defaultRetryRejected call ∉ added) ∧
        .handlerTimedOut ∉ added := by
  rcases callRetry_added surroundings run options isDefault with
    history | history
  · exact ⟨[.retryCalled run.retries.length isDefault], history, by simp⟩
  · exact ⟨[.discardReported .maxAttemptCountReached,
        .retryCalled run.retries.length isDefault], history, by simp⟩

/-- `scheduler.retry()` without an argument. -/
def defaultRetryOptions : RetryOptions V where
  retryDelayMs := none
  retryContext := none
  resetAttempts := false

def settleHandler
    (surroundings : Surroundings Buffer V) (run : AttemptRun κ V)
    (settlement : Settlement) : Option (AttemptRun κ V) :=
  match run.phase, settlement with
  | .handling true _, .fulfilled =>
      some
        { run with
          phase := .processed
          history := .handlerResolved :: run.history }
  | .handling _ _, .rejected => some (run.catchError surroundings)
  | _, _ => none

def timeOut
    (surroundings : Surroundings Buffer V) (run : AttemptRun κ V) :
    Option (AttemptRun κ V) :=
  match run.phase with
  | .handling _ true =>
      some
        (AttemptRun.catchError surroundings
          { run with history := .handlerTimedOut :: run.history })
  | _ => none

def settleHandleError
    (surroundings : Surroundings Buffer V) (run : AttemptRun κ V)
    (settlement : Settlement) : Option (AttemptRun κ V) :=
  match run.phase, settlement with
  | .handlingError true, .fulfilled =>
      some
        { run with
          phase := .processed
          history := .handleErrorResolved :: run.history }
  | .handlingError _, .rejected =>
      if surroundings.isDisposed then
        some { run with phase := .ended }
      else
        some
          (AttemptRun.callRetry surroundings
            { run with
              phase := .retrying run.retries.length
              history := .jobErrorEmitted :: run.history }
            defaultRetryOptions true)
  | _, _ => none

def changeData
    (surroundings : Surroundings Buffer V) (run : AttemptRun κ V) (data : V) :
    Option (AttemptRun κ V) :=
  if
    surroundings.operators.isObject run.scheduler.data ∧
      surroundings.operators.isObject data
  then
    some
      { run with
        scheduler := { run.scheduler with data := data }
        history := .dataChanged data :: run.history }
  else
    none

def changeRetryContext
    (surroundings : Surroundings Buffer V) (run : AttemptRun κ V)
    (call : ℕ) (retryContext : V) : Option (AttemptRun κ V) :=
  match run.retries[call]? with
  | some (.creating nextAttempt (some passed) retryDelayMs) =>
      if
        surroundings.operators.isObject passed ∧
          surroundings.operators.isObject retryContext
      then
        some
          { run with
            retries :=
              run.retries.set call
                (.creating nextAttempt (some retryContext) retryDelayMs) }
      else
        none
  | _ => none

/-- `retry` after the await on the retry queue: the message is sent. -/
def settleRetryQueue
    (surroundings : Surroundings Buffer V) (run : AttemptRun κ V)
    (call : ℕ) (settlement : Settlement) :
    Option (AttemptRun κ V × List (Effect κ Buffer)) :=
  match run.retries[call]?, settlement with
  | some (.creating nextAttempt retryContext retryDelayMs), .fulfilled =>
      let message :=
        run.scheduler.retryMessage surroundings.operators retryContext
          nextAttempt
      match surroundings.jsonBufferSerializer.serialize message with
      | some content =>
          some
            ({ run with
                retries := run.retries.set call (.sending message retryDelayMs)
                history := .published call message :: run.history },
              [.publish retryDelayMs ⟨run.correlationId, content⟩])
      | none =>
          some ({ run with retries := run.retries.set call .rejected }, [])
  | some (.creating _ _ _), .rejected =>
      some ({ run with retries := run.retries.set call .rejected }, [])
  | _, _ => none

def settleSend
    (run : AttemptRun κ V) (call : ℕ) (settlement : Settlement) :
    Option (AttemptRun κ V) :=
  match run.retries[call]?, settlement with
  | some (.sending _ _), .fulfilled =>
      some
        { run with
          retries := run.retries.set call .resolved
          history := .publishConfirmed call :: run.history }
  | some (.sending _ _), .rejected =>
      some { run with retries := run.retries.set call .rejected }
  | _, _ => none

def settleDefaultRetry (run : AttemptRun κ V) : Option (AttemptRun κ V) :=
  match run.phase with
  | .retrying call =>
      match run.retries[call]? with
      | some .resolved =>
          some
            { run with
              phase := .processed
              history := .defaultRetryResolved call :: run.history }
      | some .rejected =>
          some
            { run with
              phase := .ended
              history := .defaultRetryRejected call :: run.history }
      | _ => none
  | _ => none

/-- From the end of the `try` statement to the call of `acknowledge`. -/
def proceed
    (surroundings : Surroundings Buffer V) (run : AttemptRun κ V) :
    Option (AttemptRun κ V × List (Effect κ Buffer)) :=
  match run.phase with
  | .processed =>
      if surroundings.isDisposed then
        some ({ run with phase := .ended }, [])
      else
        match surroundings.actualDeliveryTag with
        | some tag =>
            some
              ({ run with
                  phase := .acknowledging tag
                  history := .acknowledged tag :: run.history },
                [.acknowledge tag])
        | none =>
            some ({ run with phase := .ended }, [.unlock run.correlationId])
  | _ => none

/-- A rejected acknowledgement is reported and then treated like any other. -/
def settleAcknowledge
    (run : AttemptRun κ V) :
    Option (AttemptRun κ V × List (Effect κ Buffer)) :=
  match run.phase with
  | .acknowledging _ =>
      some ({ run with phase := .ended }, [.unlock run.correlationId])
  | _ => none

def silently
    (run : Option (AttemptRun κ V)) :
    Option (AttemptRun κ V × List (Effect κ Buffer)) :=
  run.map fun next => (next, [])

def step
    (surroundings : Surroundings Buffer V) (run : AttemptRun κ V) :
    AttemptEvent V → Option (AttemptRun κ V × List (Effect κ Buffer))
  | .handlerSettled settlement =>
      silently (run.settleHandler surroundings settlement)
  | .handlerTimedOut => silently (run.timeOut surroundings)
  | .handleErrorSettled settlement =>
      silently (run.settleHandleError surroundings settlement)
  | .retryCalled options =>
      if run.isExposed then
        some (run.callRetry surroundings options false, [])
      else
        none
  | .discardCalled =>
      if run.isExposed then some (run.discard .givenByUser, []) else none
  | .dataChanged data => silently (run.changeData surroundings data)
  | .retryContextChanged call retryContext =>
      silently (run.changeRetryContext surroundings call retryContext)
  | .retryQueueSettled call settlement =>
      run.settleRetryQueue surroundings call settlement
  | .sendSettled call settlement => silently (run.settleSend call settlement)
  | .defaultRetrySettled => silently run.settleDefaultRetry
  | .proceed => run.proceed surroundings
  | .acknowledgeSettled _ => run.settleAcknowledge

/-! ## What one step can do -/

/-- The steps of a run, one constructor for each thing that can happen. -/
inductive Steps
    (surroundings : Surroundings Buffer V) (run : AttemptRun κ V) :
    AttemptEvent V → AttemptRun κ V → List (Effect κ Buffer) → Prop where
  | handlerResolved (hasTimer : Bool)
      (handling : run.phase = .handling true hasTimer) :
      Steps surroundings run (.handlerSettled .fulfilled)
        { run with
          phase := .processed
          history := .handlerResolved :: run.history } []
  | handlerRejected (hasHandler hasTimer : Bool)
      (handling : run.phase = .handling hasHandler hasTimer) :
      Steps surroundings run (.handlerSettled .rejected)
        (run.catchError surroundings) []
  | handlerTimedOut (hasHandler : Bool)
      (handling : run.phase = .handling hasHandler true) :
      Steps surroundings run .handlerTimedOut
        (AttemptRun.catchError surroundings
          { run with history := .handlerTimedOut :: run.history }) []
  | handleErrorResolved
      (handlingError : run.phase = .handlingError true) :
      Steps surroundings run (.handleErrorSettled .fulfilled)
        { run with
          phase := .processed
          history := .handleErrorResolved :: run.history } []
  | handleErrorDisposed (hasHandleError : Bool)
      (handlingError : run.phase = .handlingError hasHandleError)
      (disposed : surroundings.isDisposed = true) :
      Steps surroundings run (.handleErrorSettled .rejected)
        { run with phase := .ended } []
  | handleErrorRejected (hasHandleError : Bool)
      (handlingError : run.phase = .handlingError hasHandleError)
      (live : surroundings.isDisposed = false) :
      Steps surroundings run (.handleErrorSettled .rejected)
        (AttemptRun.callRetry surroundings
          { run with
            phase := .retrying run.retries.length
            history := .jobErrorEmitted :: run.history }
          defaultRetryOptions true) []
  | retryCalled (options : RetryOptions V) (exposed : run.isExposed = true) :
      Steps surroundings run (.retryCalled options)
        (run.callRetry surroundings options false) []
  | discardCalled (exposed : run.isExposed = true) :
      Steps surroundings run .discardCalled (run.discard .givenByUser) []
  | dataChanged (data : V)
      (changeable :
        surroundings.operators.isObject run.scheduler.data = true ∧
          surroundings.operators.isObject data = true) :
      Steps surroundings run (.dataChanged data)
        { run with
          scheduler := { run.scheduler with data := data }
          history := .dataChanged data :: run.history } []
  | retryContextChanged (call : ℕ) (nextAttempt passed retryContext : V)
      (retryDelayMs : JsNumber)
      (creating :
        run.retries[call]? =
          some (.creating nextAttempt (some passed) retryDelayMs))
      (changeable :
        surroundings.operators.isObject passed = true ∧
          surroundings.operators.isObject retryContext = true) :
      Steps surroundings run (.retryContextChanged call retryContext)
        { run with
          retries :=
            run.retries.set call
              (.creating nextAttempt (some retryContext) retryDelayMs) } []
  | retryPublished (call : ℕ) (nextAttempt : V) (retryContext : Option V)
      (retryDelayMs : JsNumber) (content : Buffer)
      (creating :
        run.retries[call]? =
          some (.creating nextAttempt retryContext retryDelayMs))
      (serialized :
        surroundings.jsonBufferSerializer.serialize
            (run.scheduler.retryMessage surroundings.operators retryContext
              nextAttempt) =
          some content) :
      Steps surroundings run (.retryQueueSettled call .fulfilled)
        { run with
          retries :=
            run.retries.set call
              (.sending
                (run.scheduler.retryMessage surroundings.operators retryContext
                  nextAttempt)
                retryDelayMs)
          history :=
            .published call
                (run.scheduler.retryMessage surroundings.operators retryContext
                  nextAttempt) ::
              run.history }
        [.publish retryDelayMs ⟨run.correlationId, content⟩]
  | retryNotPublished (call : ℕ) (nextAttempt : V) (retryContext : Option V)
      (retryDelayMs : JsNumber) (settlement : Settlement)
      (creating :
        run.retries[call]? =
          some (.creating nextAttempt retryContext retryDelayMs)) :
      Steps surroundings run (.retryQueueSettled call settlement)
        { run with retries := run.retries.set call .rejected } []
  | sendConfirmed (call : ℕ) (message : SerializedContext V)
      (retryDelayMs : JsNumber)
      (sending : run.retries[call]? = some (.sending message retryDelayMs)) :
      Steps surroundings run (.sendSettled call .fulfilled)
        { run with
          retries := run.retries.set call .resolved
          history := .publishConfirmed call :: run.history } []
  | sendFailed (call : ℕ) (message : SerializedContext V)
      (retryDelayMs : JsNumber)
      (sending : run.retries[call]? = some (.sending message retryDelayMs)) :
      Steps surroundings run (.sendSettled call .rejected)
        { run with retries := run.retries.set call .rejected } []
  | defaultRetryResolved (call : ℕ)
      (retrying : run.phase = .retrying call)
      (resolved : run.retries[call]? = some .resolved) :
      Steps surroundings run .defaultRetrySettled
        { run with
          phase := .processed
          history := .defaultRetryResolved call :: run.history } []
  | defaultRetryRejected (call : ℕ)
      (retrying : run.phase = .retrying call)
      (rejected : run.retries[call]? = some .rejected) :
      Steps surroundings run .defaultRetrySettled
        { run with
          phase := .ended
          history := .defaultRetryRejected call :: run.history } []
  | proceedDisposed
      (processed : run.phase = .processed)
      (disposed : surroundings.isDisposed = true) :
      Steps surroundings run .proceed { run with phase := .ended } []
  | proceedAcknowledging (tag : DeliveryTag)
      (processed : run.phase = .processed)
      (live : surroundings.isDisposed = false)
      (actual : surroundings.actualDeliveryTag = some tag) :
      Steps surroundings run .proceed
        { run with
          phase := .acknowledging tag
          history := .acknowledged tag :: run.history }
        [.acknowledge tag]
  | proceedUnlocking
      (processed : run.phase = .processed)
      (live : surroundings.isDisposed = false)
      (actual : surroundings.actualDeliveryTag = none) :
      Steps surroundings run .proceed { run with phase := .ended }
        [.unlock run.correlationId]
  | acknowledgeSettled (tag : DeliveryTag) (settlement : Settlement)
      (acknowledging : run.phase = .acknowledging tag) :
      Steps surroundings run (.acknowledgeSettled settlement)
        { run with phase := .ended } [.unlock run.correlationId]

theorem silently_eq_some_iff
    {result : Option (AttemptRun κ V)} {next : AttemptRun κ V}
    {effects : List (Effect κ Buffer)} :
    silently result = some (next, effects) ↔
      result = some next ∧ effects = [] := by
  cases result with
  | none => simp [silently]
  | some run =>
      simp only [silently, Option.map_some, Option.some.injEq, Prod.mk.injEq]
      exact and_congr_right fun _ => eq_comm

theorem settleHandler_steps
    {surroundings : Surroundings Buffer V} {run next : AttemptRun κ V}
    {settlement : Settlement}
    (settled : run.settleHandler surroundings settlement = some next) :
    Steps surroundings run (.handlerSettled settlement) next [] := by
  unfold settleHandler at settled
  split at settled
  · rename_i hasTimer handling
    cases settled
    exact .handlerResolved hasTimer handling
  · rename_i hasHandler hasTimer handling
    cases settled
    exact .handlerRejected hasHandler hasTimer handling
  · cases settled

theorem timeOut_steps
    {surroundings : Surroundings Buffer V} {run next : AttemptRun κ V}
    (timedOut : run.timeOut surroundings = some next) :
    Steps surroundings run .handlerTimedOut next [] := by
  unfold timeOut at timedOut
  split at timedOut
  · rename_i hasHandler handling
    cases timedOut
    exact .handlerTimedOut hasHandler handling
  · cases timedOut

theorem settleHandleError_steps
    {surroundings : Surroundings Buffer V} {run next : AttemptRun κ V}
    {settlement : Settlement}
    (settled : run.settleHandleError surroundings settlement = some next) :
    Steps surroundings run (.handleErrorSettled settlement) next [] := by
  unfold settleHandleError at settled
  split at settled
  · rename_i handlingError
    cases settled
    exact .handleErrorResolved handlingError
  · rename_i hasHandleError handlingError
    split at settled
    · rename_i disposed
      cases settled
      exact .handleErrorDisposed hasHandleError handlingError disposed
    · rename_i live
      cases settled
      exact .handleErrorRejected hasHandleError handlingError
        (Bool.eq_false_of_not_eq_true live)
  · cases settled

theorem changeData_steps
    {surroundings : Surroundings Buffer V} {run next : AttemptRun κ V} {data : V}
    (changed : run.changeData surroundings data = some next) :
    Steps surroundings run (.dataChanged data) next [] := by
  unfold changeData at changed
  split at changed
  · rename_i changeable
    cases changed
    exact .dataChanged data changeable
  · cases changed

theorem changeRetryContext_steps
    {surroundings : Surroundings Buffer V} {run next : AttemptRun κ V}
    {call : ℕ} {retryContext : V}
    (changed :
      run.changeRetryContext surroundings call retryContext = some next) :
    Steps surroundings run (.retryContextChanged call retryContext) next [] := by
  unfold changeRetryContext at changed
  split at changed
  · rename_i nextAttempt passed retryDelayMs creating
    split at changed
    · rename_i changeable
      cases changed
      exact .retryContextChanged call nextAttempt passed retryContext retryDelayMs
        creating changeable
    · cases changed
  · cases changed

theorem settleRetryQueue_steps
    {surroundings : Surroundings Buffer V} {run next : AttemptRun κ V}
    {call : ℕ} {settlement : Settlement} {effects : List (Effect κ Buffer)}
    (settled :
      run.settleRetryQueue surroundings call settlement =
        some (next, effects)) :
    Steps surroundings run (.retryQueueSettled call settlement) next
      effects := by
  unfold settleRetryQueue at settled
  split at settled
  · rename_i nextAttempt retryContext retryDelayMs creating
    dsimp only at settled
    split at settled
    · rename_i content serialized
      cases settled
      exact .retryPublished call nextAttempt retryContext retryDelayMs content
        creating serialized
    · cases settled
      exact .retryNotPublished call nextAttempt retryContext retryDelayMs
        .fulfilled creating
  · rename_i nextAttempt retryContext retryDelayMs creating
    cases settled
    exact .retryNotPublished call nextAttempt retryContext retryDelayMs .rejected
      creating
  · cases settled

theorem settleSend_steps
    {surroundings : Surroundings Buffer V} {run next : AttemptRun κ V}
    {call : ℕ} {settlement : Settlement}
    (settled : run.settleSend call settlement = some next) :
    Steps surroundings run (.sendSettled call settlement) next [] := by
  unfold settleSend at settled
  split at settled
  · rename_i message retryDelayMs sending
    cases settled
    exact .sendConfirmed call message retryDelayMs sending
  · rename_i message retryDelayMs sending
    cases settled
    exact .sendFailed call message retryDelayMs sending
  · cases settled

theorem settleDefaultRetry_steps
    {surroundings : Surroundings Buffer V} {run next : AttemptRun κ V}
    (settled : run.settleDefaultRetry = some next) :
    Steps surroundings run .defaultRetrySettled next [] := by
  unfold settleDefaultRetry at settled
  split at settled
  · rename_i call retrying
    split at settled
    · rename_i resolved
      cases settled
      exact .defaultRetryResolved call retrying resolved
    · rename_i rejected
      cases settled
      exact .defaultRetryRejected call retrying rejected
    · cases settled
  · cases settled

theorem proceed_steps
    {surroundings : Surroundings Buffer V} {run next : AttemptRun κ V}
    {effects : List (Effect κ Buffer)}
    (proceeded : run.proceed surroundings = some (next, effects)) :
    Steps surroundings run .proceed next effects := by
  unfold proceed at proceeded
  split at proceeded
  · rename_i processed
    split at proceeded
    · rename_i disposed
      cases proceeded
      exact .proceedDisposed processed disposed
    · rename_i live
      have notDisposed : surroundings.isDisposed = false :=
        Bool.eq_false_of_not_eq_true live
      split at proceeded
      · rename_i tag actual
        cases proceeded
        exact .proceedAcknowledging tag processed notDisposed actual
      · rename_i actual
        cases proceeded
        exact .proceedUnlocking processed notDisposed actual
  · cases proceeded

theorem settleAcknowledge_steps
    {surroundings : Surroundings Buffer V} {run next : AttemptRun κ V}
    {settlement : Settlement} {effects : List (Effect κ Buffer)}
    (settled : run.settleAcknowledge = some (next, effects)) :
    Steps surroundings run (.acknowledgeSettled settlement) next effects := by
  unfold settleAcknowledge at settled
  split at settled
  · rename_i tag acknowledging
    cases settled
    exact .acknowledgeSettled tag settlement acknowledging
  · cases settled

/-- Every step of a run is one of `Steps`. -/
theorem steps_of_step
    {surroundings : Surroundings Buffer V} {run next : AttemptRun κ V}
    {event : AttemptEvent V} {effects : List (Effect κ Buffer)}
    (stepped : run.step surroundings event = some (next, effects)) :
    Steps surroundings run event next effects := by
  cases event with
  | handlerSettled settlement =>
      obtain ⟨settled, rfl⟩ := silently_eq_some_iff.mp stepped
      exact settleHandler_steps settled
  | handlerTimedOut =>
      obtain ⟨timedOut, rfl⟩ := silently_eq_some_iff.mp stepped
      exact timeOut_steps timedOut
  | handleErrorSettled settlement =>
      obtain ⟨settled, rfl⟩ := silently_eq_some_iff.mp stepped
      exact settleHandleError_steps settled
  | retryCalled options =>
      simp only [step] at stepped
      split at stepped
      · rename_i exposed
        cases stepped
        exact .retryCalled options exposed
      · cases stepped
  | discardCalled =>
      simp only [step] at stepped
      split at stepped
      · rename_i exposed
        cases stepped
        exact .discardCalled exposed
      · cases stepped
  | dataChanged data =>
      obtain ⟨changed, rfl⟩ := silently_eq_some_iff.mp stepped
      exact changeData_steps changed
  | retryContextChanged call retryContext =>
      obtain ⟨changed, rfl⟩ := silently_eq_some_iff.mp stepped
      exact changeRetryContext_steps changed
  | retryQueueSettled call settlement =>
      exact settleRetryQueue_steps stepped
  | sendSettled call settlement =>
      obtain ⟨settled, rfl⟩ := silently_eq_some_iff.mp stepped
      exact settleSend_steps settled
  | defaultRetrySettled =>
      obtain ⟨settled, rfl⟩ := silently_eq_some_iff.mp stepped
      exact settleDefaultRetry_steps settled
  | proceed => exact proceed_steps stepped
  | acknowledgeSettled settlement => exact settleAcknowledge_steps stepped

theorem correlationId_steps
    {surroundings : Surroundings Buffer V} {event : AttemptEvent V}
    {run following : AttemptRun κ V} {effects : List (Effect κ Buffer)}
    (stepped : run.Steps surroundings event following effects) :
    following.correlationId = run.correlationId := by
  cases stepped with
  | handlerRejected => exact catchError_correlationId _ _
  | handlerTimedOut => exact catchError_correlationId _ _
  | handleErrorRejected => exact callRetry_correlationId _ _ _ _
  | retryCalled => exact callRetry_correlationId _ _ _ _
  | discardCalled => exact discard_correlationId _ _
  | _ => rfl

theorem context_steps
    {surroundings : Surroundings Buffer V} {event : AttemptEvent V}
    {run following : AttemptRun κ V} {effects : List (Effect κ Buffer)}
    (stepped : run.Steps surroundings event following effects) :
    following.context = run.context := by
  cases stepped with
  | handlerRejected => exact catchError_context _ _
  | handlerTimedOut => exact catchError_context _ _
  | handleErrorRejected => exact callRetry_context _ _ _ _
  | retryCalled => exact callRetry_context _ _ _ _
  | discardCalled => exact discard_context _ _
  | _ => rfl

end AttemptRun

end Amq.Jobs
