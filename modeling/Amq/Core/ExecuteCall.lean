import Amq.JsNumber
import Mathlib.Data.List.Basic

/-!
# One call of `execute`

`AmqpChannelExecutor` and `AmqpConnectionExecutor` run their commands the same
way: a loop that waits for the resource, invokes the command on it, and after a
loss of the resource pauses and sleeps before it tries again; next to the loop, a
timer and a cancellation that settle the promise without stopping the loop.  The
two differ in the errors they rethrow and in the events they emit.

The history of a call lists what was observable about it, the latest entry first.
-/

namespace Amq.Core

inductive ExecutorKind where
  /-- `AmqpChannelExecutor` over the `AmqpChannelContainer`. -/
  | channel
  /-- `AmqpConnectionExecutor` over the `AmqpConnectionContainer`. -/
  | connection
  deriving DecidableEq, Repr

inductive CommandError where
  /-- An error of amqplib, by its message. -/
  | amqplib (message : String)
  | channelBecameUnavailable
  | connectionBecameUnavailable
  | connectionClosing
  | connectionClosed
  | commandTimedOut (timeoutMs : JsNumber)
  /-- A thrown value that is no error, such as `null`. -/
  | noError
  deriving DecidableEq

inductive CommandResult where
  | fulfilled
  | rejected (error : CommandError)
  deriving DecidableEq

inductive ExecutorEmission where
  | channelBecameUnavailable
  | connectionClosing
  | connectionBecameUnavailable
  deriving DecidableEq, Repr

namespace ExecutorKind

/-- The `catch` clause of `executeOnce`.  The prefixes have no letter whose
lower case differs between `toLowerCase` and the lower case of ASCII. -/
def rethrow : ExecutorKind → CommandError → CommandError
  | .channel, .amqplib message =>
      let message' := message.toLower
      if message'.startsWith "channel closed" ||
          message'.startsWith "channel closing" ||
          message'.startsWith "channel ended" then
        .channelBecameUnavailable
      else if message'.startsWith "connection closing" then
        .connectionClosing
      else
        .amqplib message
  | .connection, .connectionClosing => .connectionBecameUnavailable
  | .connection, .connectionClosed => .connectionBecameUnavailable
  | _, error => error

/-- The error after which a call with `retryOnError` tries again. -/
def unavailableError : ExecutorKind → CommandError
  | .channel => .channelBecameUnavailable
  | .connection => .connectionBecameUnavailable

/-- Emitted when a call with `retryOnError` pauses. -/
def unavailableEmission : ExecutorKind → ExecutorEmission
  | .channel => .channelBecameUnavailable
  | .connection => .connectionBecameUnavailable

end ExecutorKind

/-- Where the loop of a call waits. -/
inductive CallPhase (ρ : Type) where
  /-- In `getWhenAvailable`, among the `availableCallbacks` of the container. -/
  | waiting
  /-- The promise of `getWhenAvailable` has resolved. -/
  | received (resource : ρ)
  | running (resource : ρ)
  /-- `executeOnce` has been rejected. -/
  | failed (error : CommandError)
  /-- Before a retry; without its callback in `resumeCallbacks` for good. -/
  | paused (isRegistered : Bool)
  | resumed
  /-- For `commandRetryIntervalMs`. -/
  | sleeping
  /-- The listeners have been called, the error is thrown next. -/
  | throwing (error : CommandError)
  | ended
  deriving DecidableEq

/-- The callback of a paused call is removed from `resumeCallbacks`. -/
def CallPhase.unregister {ρ : Type} : CallPhase ρ → CallPhase ρ
  | .paused _ => .paused false
  | phase => phase

inductive CallObservation (ρ : Type) where
  | invoked (resource : ρ)
  | emitted (emission : ExecutorEmission)
  /-- The promise that `execute` has returned. -/
  | settled (result : CommandResult)
  deriving DecidableEq

structure ExecuteCall (ρ : Type) where
  retryOnError : Bool
  phase : CallPhase ρ
  hasTimedOut : Bool
  /-- The `finally` callback has run. -/
  isFinalized : Bool
  history : List (CallObservation ρ)
  deriving DecidableEq

inductive CallEvent where
  /-- `executeOnce` goes on with what `getWhenAvailable` has resolved with. -/
  | continued
  | commandSettled (result : CommandResult)
  /-- The `catch` clause of the loop. -/
  | caught
  | thrown
  | intervalStarted
  | slept
  | timerFired
  | finalized
  deriving DecidableEq

/-- What a call reads of its executor and of the container. -/
structure ExecutorView (ρ : Type) where
  kind : ExecutorKind
  commandTimeoutMs : JsNumber
  /-- `cancellationError`; the executor is cancelled once there is one. -/
  cancellation : Option CommandError
  /-- The content of the container. -/
  available : Option ρ

namespace ExecuteCall

variable {ρ : Type}

def isSettled (call : ExecuteCall ρ) : Bool :=
  call.history.any fun
    | .settled _ => true
    | _ => false

/-- Settle the promise, unless it has settled before. -/
def settle (call : ExecuteCall ρ) (result : CommandResult) : ExecuteCall ρ :=
  if call.isSettled then
    call
  else
    { call with history := .settled result :: call.history }

/-- `executeOnce`, up to its await. -/
def executeOnce (call : ExecuteCall ρ) (available : Option ρ) : ExecuteCall ρ :=
  match available with
  | none => { call with phase := .waiting }
  | some resource => { call with phase := .received resource }

/-- `execute`, up to its awaits. -/
def execute (view : ExecutorView ρ) (retryOnError : Bool) : ExecuteCall ρ :=
  match view.cancellation with
  | some error =>
      { retryOnError := retryOnError
        phase := .ended
        hasTimedOut := false
        isFinalized := true
        history := [.settled (.rejected error)] }
  | none =>
      executeOnce
        { retryOnError := retryOnError
          phase := .waiting
          hasTimedOut := false
          isFinalized := false
          history := [] }
        view.available

/-- The `catch` clause of the loop. -/
def catchError
    (view : ExecutorView ρ) (call : ExecuteCall ρ) (error : CommandError) :
    ExecuteCall ρ :=
  match view.cancellation with
  | some cancellationError => { call with phase := .throwing cancellationError }
  | none =>
      if call.retryOnError = true ∧ error = view.kind.unavailableError then
        { call with
          phase := .paused true
          history := .emitted view.kind.unavailableEmission :: call.history }
      else if view.kind = .channel ∧ error = .connectionClosing then
        { call with
          phase := .throwing error
          history := .emitted .connectionClosing :: call.history }
      else
        { call with phase := .throwing error }

def step (view : ExecutorView ρ) (call : ExecuteCall ρ) (event : CallEvent) :
    Option (ExecuteCall ρ) :=
  match event, call.phase with
  | .continued, .received resource =>
      match view.cancellation with
      | some error => some { call with phase := .failed error }
      | none =>
          -- The promise may have settled; nothing asks for it here.
          some
            { call with
              phase := .running resource
              history := .invoked resource :: call.history }
  | .commandSettled .fulfilled, .running _ =>
      some { call.settle .fulfilled with phase := .ended }
  | .commandSettled (.rejected error), .running _ =>
      some { call with phase := .failed (view.kind.rethrow error) }
  | .caught, .failed error => some (call.catchError view error)
  | .thrown, .throwing error =>
      some { call.settle (.rejected error) with phase := .ended }
  | .intervalStarted, .resumed => some { call with phase := .sleeping }
  | .slept, .sleeping =>
      if view.cancellation.isNone && !call.hasTimedOut then
        some (call.executeOnce view.available)
      else
        some { call with phase := .throwing (view.cancellation.getD .noError) }
  | .timerFired, _ =>
      if call.isFinalized || call.hasTimedOut then
        none
      else
        some
          { call.settle (.rejected (.commandTimedOut view.commandTimeoutMs)) with
            hasTimedOut := true }
  | .finalized, phase =>
      if call.isSettled && !call.isFinalized then
        some { call with isFinalized := true, phase := phase.unregister }
      else
        none
  | _, _ => none

/-- The callback in `availableCallbacks`. -/
def becameAvailable (resource : ρ) (call : ExecuteCall ρ) : ExecuteCall ρ :=
  match call.phase with
  | .waiting => { call with phase := .received resource }
  | _ => call

/-- The callback in `resumeCallbacks`. -/
def resume (call : ExecuteCall ρ) : ExecuteCall ρ :=
  match call.phase with
  | .paused true => { call with phase := .resumed }
  | _ => call

/-- The callback in `cancelCallbacks`, and the end of the one to resume. -/
def cancel (error : CommandError) (call : ExecuteCall ρ) : ExecuteCall ρ :=
  let cancelled := if call.isFinalized then call else call.settle (.rejected error)
  { cancelled with phase := call.phase.unregister }

/-! ## Invocations after the end -/

/-- Some invocation is later in the history than a settling. -/
def InvokedAfterSettled (history : List (CallObservation ρ)) : Prop :=
  ∃ resource result later earlier,
    history = later ++ .invoked resource :: earlier ∧
      .settled result ∈ earlier

theorem not_invokedAfterSettled_nil :
    ¬ InvokedAfterSettled ([] : List (CallObservation ρ)) := by
  rintro ⟨resource, result, later, earlier, split, -⟩
  cases later <;> cases split

/-- The latest entry is an invocation after a settling, or it adds nothing. -/
theorem invokedAfterSettled_cons_iff
    (entry : CallObservation ρ) (history : List (CallObservation ρ)) :
    InvokedAfterSettled (entry :: history) ↔
      ((∃ resource, entry = .invoked resource) ∧
          ∃ result, .settled result ∈ history) ∨
        InvokedAfterSettled history := by
  constructor
  · rintro ⟨resource, result, later, earlier, split, member⟩
    cases later with
    | nil =>
        cases split
        exact Or.inl ⟨⟨resource, rfl⟩, result, member⟩
    | cons first later =>
        cases split
        exact Or.inr ⟨resource, result, later, earlier, rfl, member⟩
  · rintro (⟨⟨resource, rfl⟩, result, member⟩ |
      ⟨resource, result, later, earlier, rfl, member⟩)
    · exact ⟨resource, result, [], history, rfl, member⟩
    · exact ⟨resource, result, entry :: later, earlier, rfl, member⟩

theorem isSettled_iff (call : ExecuteCall ρ) :
    call.isSettled = true ↔ ∃ result, .settled result ∈ call.history := by
  unfold isSettled
  rw [List.any_eq_true]
  constructor
  · rintro ⟨entry, member, decided⟩
    cases entry with
    | settled result => exact ⟨result, member⟩
    | invoked resource => cases decided
    | emitted emission => cases decided
  · rintro ⟨result, member⟩
    exact ⟨.settled result, member, rfl⟩

/-! ## What a step does -/

/-- The steps of a call, one constructor for each way to go on. -/
inductive Steps (view : ExecutorView ρ) (call : ExecuteCall ρ) :
    CallEvent → ExecuteCall ρ → Prop where
  | withdrawn {resource : ρ} {error : CommandError}
      (before : call.phase = .received resource)
      (cancelled : view.cancellation = some error) :
      Steps view call .continued { call with phase := .failed error }
  | invoked {resource : ρ}
      (before : call.phase = .received resource)
      (active : view.cancellation = none) :
      Steps view call .continued
        { call with
          phase := .running resource
          history := .invoked resource :: call.history }
  | completed {resource : ρ} (before : call.phase = .running resource) :
      Steps view call (.commandSettled .fulfilled)
        { call.settle .fulfilled with phase := .ended }
  | commandFailed {resource : ρ} {error : CommandError}
      (before : call.phase = .running resource) :
      Steps view call (.commandSettled (.rejected error))
        { call with phase := .failed (view.kind.rethrow error) }
  | caught {error : CommandError} (before : call.phase = .failed error) :
      Steps view call .caught (call.catchError view error)
  | thrown {error : CommandError} (before : call.phase = .throwing error) :
      Steps view call .thrown
        { call.settle (.rejected error) with phase := .ended }
  | intervalStarted (before : call.phase = .resumed) :
      Steps view call .intervalStarted { call with phase := .sleeping }
  | retried (before : call.phase = .sleeping) :
      Steps view call .slept (call.executeOnce view.available)
  | givenUp (before : call.phase = .sleeping) :
      Steps view call .slept
        { call with phase := .throwing (view.cancellation.getD .noError) }
  | timedOut (pending : call.isFinalized = false)
      (first : call.hasTimedOut = false) :
      Steps view call .timerFired
        { call.settle (.rejected (.commandTimedOut view.commandTimeoutMs)) with
          hasTimedOut := true }
  | finalized (settled : call.isSettled = true) :
      Steps view call .finalized
        { call with isFinalized := true, phase := call.phase.unregister }

/-- How a call begins. -/
inductive Begins (view : ExecutorView ρ) (retryOnError : Bool) :
    ExecuteCall ρ → Prop where
  | refused {error : CommandError} (cancelled : view.cancellation = some error) :
      Begins view retryOnError
        ⟨retryOnError, .ended, false, true, [.settled (.rejected error)]⟩
  | waits (active : view.cancellation = none)
      (unavailable : view.available = none) :
      Begins view retryOnError ⟨retryOnError, .waiting, false, false, []⟩
  | receives {resource : ρ} (active : view.cancellation = none)
      (available : view.available = some resource) :
      Begins view retryOnError ⟨retryOnError, .received resource, false, false, []⟩

theorem execute_begins (view : ExecutorView ρ) (retryOnError : Bool) :
    Begins view retryOnError (execute view retryOnError) := by
  unfold execute
  cases cancellation : view.cancellation with
  | some error => exact .refused cancellation
  | none =>
      dsimp only
      cases available : view.available with
      | none => exact .waits cancellation available
      | some resource => exact .receives cancellation available

theorem available_of_execute
    {view : ExecutorView ρ} {retryOnError : Bool} {resource : ρ}
    (received : (execute view retryOnError).phase = .received resource) :
    view.available = some resource := by
  have begins := execute_begins view retryOnError
  generalize execute view retryOnError = call at begins received
  cases begins with
  | refused cancelled => cases received
  | waits active unavailable => cases received
  | receives active available =>
      cases received
      exact available

theorem steps_of_step
    {view : ExecutorView ρ} {call call' : ExecuteCall ρ} {event : CallEvent}
    (stepped : call.step view event = some call') :
    Steps view call event call' := by
  unfold step at stepped
  split at stepped
  case h_1 resource before =>
    split at stepped
    case h_1 error cancelled =>
      cases stepped
      exact .withdrawn before cancelled
    case h_2 active =>
      cases stepped
      exact .invoked before active
  case h_2 resource before =>
    cases stepped
    exact .completed before
  case h_3 error resource before =>
    cases stepped
    exact .commandFailed before
  case h_4 error before =>
    cases stepped
    exact .caught before
  case h_5 error before =>
    cases stepped
    exact .thrown before
  case h_6 before =>
    cases stepped
    exact .intervalStarted before
  case h_7 before =>
    split at stepped
    · cases stepped
      exact .retried before
    · cases stepped
      exact .givenUp before
  case h_8 =>
    by_cases elapsed : (call.isFinalized || call.hasTimedOut) = true
    · rw [if_pos elapsed] at stepped
      cases stepped
    · rw [if_neg elapsed] at stepped
      cases stepped
      rw [Bool.or_eq_true, not_or, Bool.not_eq_true, Bool.not_eq_true] at elapsed
      exact .timedOut elapsed.1 elapsed.2
  case h_9 =>
    by_cases ready : (call.isSettled && !call.isFinalized) = true
    · rw [if_pos ready] at stepped
      cases stepped
      exact .finalized (Bool.and_eq_true_iff.mp ready).1
    · rw [if_neg ready] at stepped
      cases stepped
  case h_10 =>
    cases stepped

@[simp]
theorem settle_phase (call : ExecuteCall ρ) (result : CommandResult) :
    (call.settle result).phase = call.phase := by
  unfold settle
  split <;> rfl

@[simp]
theorem settle_hasTimedOut (call : ExecuteCall ρ) (result : CommandResult) :
    (call.settle result).hasTimedOut = call.hasTimedOut := by
  unfold settle
  split <;> rfl

/-- The promise is settled by the first who settles it. -/
theorem settle_history (call : ExecuteCall ρ) (result : CommandResult) :
    (call.settle result).history = call.history ∧ call.isSettled = true ∨
      (call.settle result).history = .settled result :: call.history := by
  unfold settle
  by_cases settled : call.isSettled = true
  · rw [if_pos settled]
    exact Or.inl ⟨rfl, settled⟩
  · rw [if_neg settled]
    exact Or.inr rfl

theorem settle_isSettled (call : ExecuteCall ρ) (result : CommandResult) :
    (call.settle result).isSettled = true := by
  rcases settle_history call result with ⟨same, settled⟩ | pushed
  · unfold isSettled at settled ⊢
    rw [same]
    exact settled
  · rw [isSettled_iff, pushed]
    exact ⟨result, List.mem_cons_self⟩

theorem executeOnce_history (call : ExecuteCall ρ) (available : Option ρ) :
    (call.executeOnce available).history = call.history := by
  cases available <;> rfl

theorem executeOnce_hasTimedOut (call : ExecuteCall ρ) (available : Option ρ) :
    (call.executeOnce available).hasTimedOut = call.hasTimedOut := by
  cases available <;> rfl

/-- `catchError` changes the phase and may record an emission. -/
theorem catchError_frame
    (view : ExecutorView ρ) (call : ExecuteCall ρ) (error : CommandError) :
    ∃ phase history,
      call.catchError view error =
          { call with phase := phase, history := history } ∧
        (history = call.history ∨
          ∃ emission, history = .emitted emission :: call.history) := by
  unfold catchError
  split
  · exact ⟨_, call.history, rfl, Or.inl rfl⟩
  · split
    · exact ⟨_, _, rfl, Or.inr ⟨_, rfl⟩⟩
    · split
      · exact ⟨_, _, rfl, Or.inr ⟨_, rfl⟩⟩
      · exact ⟨_, call.history, rfl, Or.inl rfl⟩

/-! ## Timers and settled calls -/

/-- While its loop goes on and its executor is not cancelled, only its timer has
settled a call. -/
def TimerOnly (cancellation : Option CommandError) (call : ExecuteCall ρ) :
    Prop :=
  cancellation = none → call.phase ≠ .ended →
    (call.isSettled = true ↔ call.hasTimedOut = true)

/-- An entry that is neither an invocation nor a settling. -/
theorem isSettled_emitted
    {call call' : ExecuteCall ρ}
    (grown :
      call'.history = call.history ∨
        ∃ emission, call'.history = .emitted emission :: call.history) :
    call'.isSettled = call.isSettled := by
  unfold isSettled
  rcases grown with same | ⟨emission, pushed⟩
  · rw [same]
  · rw [pushed]
    rfl

theorem TimerOnly.steps
    {view : ExecutorView ρ} {call call' : ExecuteCall ρ} {event : CallEvent}
    (timerOnly : TimerOnly view.cancellation call)
    (steps : Steps view call event call') :
    TimerOnly view.cancellation call' := by
  intro active running
  cases steps with
  | withdrawn before cancelled => cases active.symm.trans cancelled
  | invoked before _ =>
      exact timerOnly active (by rw [before]; nofun)
  | completed before => exact absurd rfl running
  | commandFailed before =>
      exact timerOnly active (by rw [before]; nofun)
  | @caught error before =>
      obtain ⟨phase, history, same, grown⟩ :=
        catchError_frame view call error
      have unchanged : (call.catchError view error).isSettled = call.isSettled := by
        rw [same]
        exact isSettled_emitted grown
      have timer :
          (call.catchError view error).hasTimedOut = call.hasTimedOut := by
        rw [same]
      rw [unchanged, timer]
      exact timerOnly active (by rw [before]; nofun)
  | thrown before => exact absurd rfl running
  | intervalStarted before =>
      exact timerOnly active (by rw [before]; nofun)
  | retried before =>
      have unchanged :
          (call.executeOnce view.available).isSettled = call.isSettled :=
        isSettled_emitted (Or.inl (executeOnce_history call view.available))
      rw [unchanged, executeOnce_hasTimedOut]
      exact timerOnly active (by rw [before]; nofun)
  | givenUp before =>
      exact timerOnly active (by rw [before]; nofun)
  | timedOut pending first =>
      exact ⟨fun _ => rfl, fun _ => settle_isSettled call _⟩
  | finalized settled =>
      refine timerOnly active ?_
      intro ended
      apply running
      change call.phase.unregister = .ended
      rw [ended]
      rfl

/-- The history grows by an invocation exactly when the call goes on with its
resource under an executor that is not cancelled. -/
theorem Steps.invokedAfterSettled_iff
    {view : ExecutorView ρ} {call call' : ExecuteCall ρ} {event : CallEvent}
    (steps : Steps view call event call') :
    InvokedAfterSettled call'.history ↔
      (event = .continued ∧ view.cancellation = none ∧ call.isSettled = true) ∨
        InvokedAfterSettled call.history := by
  have settles :
      ∀ result,
        InvokedAfterSettled (call.settle result).history ↔
          InvokedAfterSettled call.history := by
    intro result
    rcases settle_history call result with ⟨same, _⟩ | pushed
    · rw [same]
    · rw [pushed, invokedAfterSettled_cons_iff]
      exact or_iff_right (by rintro ⟨⟨_, impossible⟩, -⟩; cases impossible)
  cases steps with
  | withdrawn before cancelled =>
      refine (or_iff_right ?_).symm
      rintro ⟨-, active, -⟩
      cases active.symm.trans cancelled
  | @invoked resource before active =>
      rw [invokedAfterSettled_cons_iff, isSettled_iff]
      constructor
      · rintro (⟨-, settled⟩ | earlier)
        · exact Or.inl ⟨rfl, active, settled⟩
        · exact Or.inr earlier
      · rintro (⟨-, -, settled⟩ | earlier)
        · exact Or.inl ⟨⟨resource, rfl⟩, settled⟩
        · exact Or.inr earlier
  | completed before =>
      exact (settles _).trans (or_iff_right (fun late => nomatch late.1)).symm
  | commandFailed before =>
      exact (or_iff_right (fun late => nomatch late.1)).symm
  | @caught error before =>
      refine Iff.trans ?_ (or_iff_right (fun late => nomatch late.1)).symm
      obtain ⟨phase, history, same, grown⟩ :=
        catchError_frame view call error
      rw [same]
      rcases grown with unchanged | ⟨emission, pushed⟩
      · rw [unchanged]
      · rw [pushed, invokedAfterSettled_cons_iff]
        exact or_iff_right (by rintro ⟨⟨_, impossible⟩, -⟩; cases impossible)
  | thrown before =>
      exact (settles _).trans (or_iff_right (fun late => nomatch late.1)).symm
  | intervalStarted before =>
      exact (or_iff_right (fun late => nomatch late.1)).symm
  | retried before =>
      rw [executeOnce_history]
      exact (or_iff_right (fun late => nomatch late.1)).symm
  | givenUp before =>
      exact (or_iff_right (fun late => nomatch late.1)).symm
  | timedOut pending first =>
      exact (settles _).trans (or_iff_right (fun late => nomatch late.1)).symm
  | finalized settled =>
      exact (or_iff_right (fun late => nomatch late.1)).symm

/-! ## Calls without retries -/

/-- A call without `retryOnError`, which never gets into the phases of a retry. -/
structure Once (call : ExecuteCall ρ) : Prop where
  retryOnError : call.retryOnError = false
  not_paused : ∀ isRegistered, call.phase ≠ .paused isRegistered
  not_resumed : call.phase ≠ .resumed
  not_sleeping : call.phase ≠ .sleeping

theorem once_execute (view : ExecutorView ρ) : Once (execute view false) := by
  have begins := execute_begins view false
  generalize execute view false = call at begins ⊢
  cases begins with
  | refused cancelled => exact ⟨rfl, nofun, nofun, nofun⟩
  | waits active unavailable => exact ⟨rfl, nofun, nofun, nofun⟩
  | receives active available => exact ⟨rfl, nofun, nofun, nofun⟩

theorem unregister_of_not_paused
    {phase : CallPhase ρ}
    (running : ∀ isRegistered, phase ≠ .paused isRegistered) :
    phase.unregister = phase := by
  cases phase with
  | paused isRegistered => exact absurd rfl (running isRegistered)
  | _ => rfl

theorem settle_retryOnError (call : ExecuteCall ρ) (result : CommandResult) :
    (call.settle result).retryOnError = call.retryOnError := by
  unfold settle
  split <;> rfl

/-- After an error such a call throws. -/
theorem Once.catchError
    {call : ExecuteCall ρ} (once : Once call)
    (view : ExecutorView ρ) (error : CommandError) :
    ∃ thrown history,
      call.catchError view error =
        { call with phase := .throwing thrown, history := history } := by
  have noRetry :
      ¬ (call.retryOnError = true ∧ error = view.kind.unavailableError) := by
    rintro ⟨retry, -⟩
    cases once.retryOnError.symm.trans retry
  unfold ExecuteCall.catchError
  split
  · exact ⟨_, call.history, rfl⟩
  · rw [if_neg noRetry]
    split
    · exact ⟨_, _, rfl⟩
    · exact ⟨_, call.history, rfl⟩

theorem Once.steps
    {view : ExecutorView ρ} {call call' : ExecuteCall ρ} {event : CallEvent}
    (once : Once call) (steps : Steps view call event call') :
    Once call' := by
  cases steps with
  | withdrawn before cancelled => exact ⟨once.1, nofun, nofun, nofun⟩
  | invoked before active => exact ⟨once.1, nofun, nofun, nofun⟩
  | completed before =>
      exact ⟨(settle_retryOnError call _).trans once.1, nofun, nofun, nofun⟩
  | commandFailed before => exact ⟨once.1, nofun, nofun, nofun⟩
  | @caught error before =>
      obtain ⟨thrown, history, same⟩ := once.catchError view error
      rw [same]
      exact ⟨once.1, nofun, nofun, nofun⟩
  | thrown before =>
      exact ⟨(settle_retryOnError call _).trans once.1, nofun, nofun, nofun⟩
  | intervalStarted before => exact absurd before once.not_resumed
  | retried before => exact absurd before once.not_sleeping
  | givenUp before => exact absurd before once.not_sleeping
  | timedOut pending first =>
      have phase := settle_phase call
        (.rejected (.commandTimedOut view.commandTimeoutMs))
      exact
        ⟨(settle_retryOnError call _).trans once.1,
          phase.symm ▸ once.2, phase.symm ▸ once.3, phase.symm ▸ once.4⟩
  | finalized settled =>
      have phase := unregister_of_not_paused once.not_paused
      exact ⟨once.1, phase.symm ▸ once.2, phase.symm ▸ once.3, phase.symm ▸ once.4⟩

/-- A call without retries gets its resource only once, and never waits again. -/
theorem Once.phase_of_steps
    {view : ExecutorView ρ} {call call' : ExecuteCall ρ} {event : CallEvent}
    (once : Once call) (steps : Steps view call event call') :
    (call'.phase = .waiting → call.phase = .waiting) ∧
      (∀ resource, call'.phase = .received resource →
        call.phase = .received resource) ∧
      (∀ resource, call'.phase = .running resource →
        call.phase = .running resource ∨
          (event = .continued ∧ call.phase = .received resource ∧
            view.cancellation = none)) := by
  cases steps with
  | withdrawn before cancelled => exact ⟨nofun, nofun, nofun⟩
  | @invoked resource before active =>
      refine ⟨nofun, nofun, ?_⟩
      intro other same
      cases same
      exact Or.inr ⟨rfl, before, active⟩
  | completed before => exact ⟨nofun, nofun, nofun⟩
  | commandFailed before => exact ⟨nofun, nofun, nofun⟩
  | @caught error before =>
      obtain ⟨thrown, history, same⟩ := once.catchError view error
      rw [same]
      exact ⟨nofun, nofun, nofun⟩
  | thrown before => exact ⟨nofun, nofun, nofun⟩
  | intervalStarted before => exact absurd before once.not_resumed
  | retried before => exact absurd before once.not_sleeping
  | givenUp before => exact absurd before once.not_sleeping
  | timedOut pending first =>
      have phase := settle_phase call
        (.rejected (.commandTimedOut view.commandTimeoutMs))
      exact
        ⟨fun same => phase.symm.trans same,
          fun _ same => phase.symm.trans same,
          fun _ same => Or.inl (phase.symm.trans same)⟩
  | finalized settled =>
      have phase := unregister_of_not_paused once.not_paused
      exact
        ⟨fun same => phase.symm.trans same,
          fun _ same => phase.symm.trans same,
          fun _ same => Or.inl (phase.symm.trans same)⟩

/-- The promise is only fulfilled by its command. -/
theorem fulfilled_of_settle_rejected
    {call : ExecuteCall ρ} {error : CommandError}
    (fulfilled : .settled .fulfilled ∈ (call.settle (.rejected error)).history) :
    .settled .fulfilled ∈ call.history := by
  rcases settle_history call (.rejected error) with ⟨same, _⟩ | pushed
  · rw [same] at fulfilled
    exact fulfilled
  · rw [pushed] at fulfilled
    rcases List.mem_cons.mp fulfilled with impossible | earlier
    · cases impossible
    · exact earlier

theorem Steps.fulfilled
    {view : ExecutorView ρ} {call call' : ExecuteCall ρ} {event : CallEvent}
    (steps : Steps view call event call')
    (fulfilled : .settled .fulfilled ∈ call'.history) :
    .settled .fulfilled ∈ call.history ∨ event = .commandSettled .fulfilled := by
  cases steps with
  | invoked before active =>
      rcases List.mem_cons.mp fulfilled with impossible | earlier
      · cases impossible
      · exact Or.inl earlier
  | completed before => exact Or.inr rfl
  | @caught error before =>
      obtain ⟨phase, history, same, grown⟩ := catchError_frame view call error
      rw [same] at fulfilled
      rcases grown with unchanged | ⟨emission, pushed⟩
      · exact Or.inl (unchanged ▸ fulfilled)
      · change _ ∈ history at fulfilled
        rw [pushed] at fulfilled
        rcases List.mem_cons.mp fulfilled with impossible | earlier
        · cases impossible
        · exact Or.inl earlier
  | thrown before => exact Or.inl (fulfilled_of_settle_rejected fulfilled)
  | retried before =>
      rw [executeOnce_history] at fulfilled
      exact Or.inl fulfilled
  | timedOut pending first => exact Or.inl (fulfilled_of_settle_rejected fulfilled)
  | withdrawn before cancelled => exact Or.inl fulfilled
  | commandFailed before => exact Or.inl fulfilled
  | intervalStarted before => exact Or.inl fulfilled
  | givenUp before => exact Or.inl fulfilled
  | finalized settled => exact Or.inl fulfilled

/-- A cancellation neither moves such a call nor fulfils its promise. -/
theorem Once.cancel
    {call : ExecuteCall ρ} (once : Once call) (error : CommandError) :
    (call.cancel error).phase = call.phase ∧ (call.cancel error).Once ∧
      (.settled .fulfilled ∈ (call.cancel error).history →
        .settled .fulfilled ∈ call.history) := by
  have phase : (call.cancel error).phase = call.phase :=
    unregister_of_not_paused once.not_paused
  have retry : (call.cancel error).retryOnError = call.retryOnError := by
    unfold ExecuteCall.cancel
    dsimp only
    split
    · rfl
    · exact settle_retryOnError call _
  refine
    ⟨phase,
      ⟨retry.trans once.1, phase.symm ▸ once.2, phase.symm ▸ once.3,
        phase.symm ▸ once.4⟩, ?_⟩
  intro fulfilled
  unfold ExecuteCall.cancel at fulfilled
  dsimp only at fulfilled
  split at fulfilled
  · exact fulfilled
  · exact fulfilled_of_settle_rejected fulfilled

/-- A new resource reaches the waiting calls only. -/
theorem becameAvailable_of_not_waiting
    {call : ExecuteCall ρ} (resource : ρ) (running : call.phase ≠ .waiting) :
    call.becameAvailable resource = call := by
  unfold becameAvailable
  split
  case h_1 waiting => exact absurd waiting running
  case h_2 => rfl

theorem Once.becameAvailable
    {call : ExecuteCall ρ} (once : Once call) (resource : ρ) :
    (call.becameAvailable resource).Once ∧
      (call.becameAvailable resource).history = call.history := by
  unfold ExecuteCall.becameAvailable
  split
  · exact ⟨⟨once.1, nofun, nofun, nofun⟩, rfl⟩
  · exact ⟨once, rfl⟩

end ExecuteCall

end Amq.Core
