import Amq.JsNumber
import Mathlib.Logic.Function.Basic

/-!
# Job handlers

Messages are produced by any client, so the `job`, `data`, `retryContext` and
`attempt` of a message can be any JavaScript values.  The few operators that the
job code applies to them are collected in `JsOperators`; an operator that can
throw returns an option.
-/

namespace Amq.Jobs

open Function

/-- The JavaScript operators which the job code applies to message values. -/
structure JsOperators (V : Type) where
  /-- `value > number`. -/
  greaterThan : V → JsNumber → Option Bool
  /-- `value + 1`. -/
  addOne : V → Option V
  /-- The literal `1`. -/
  one : V
  /-- `value || {}`, where `value` can be missing. -/
  orEmptyObject : Option V → V
  /-- The value is an object or an array, which can be changed in place. -/
  isObject : V → Bool
  /-- `${value}`. -/
  toText : V → String
  /-- `${number}`. -/
  numberText : JsNumber → String

/-- What a message carries once `deserialize` and the destructuring of its
result have succeeded. -/
structure SerializedContext (V : Type) where
  job : V
  data : V
  retryContext : V
  attempt : V
  deriving DecidableEq

/-- What a synchronous part of the job code throws. -/
inductive Thrown where
  | byUser
  | error (message : String)
  deriving DecidableEq, Repr

/-- A `RetryDelayCalculator`; the user's `calculate` may throw. -/
abbrev RetryDelayCalculator (V : Type) : Type :=
  V → Option JsNumber

/-- The fields of a handler object which the library reads. -/
structure JobHandlerObject (V : Type) where
  hasHandleError : Bool
  maxAttemptCount : Option JsNumber
  retryDelayCalculator : Option (RetryDelayCalculator V)
  timeoutMs : Option JsNumber

inductive JobHandler (V : Type) where
  | function
  | object (handler : JobHandlerObject V)

structure JobHandlerManager (V : Type) where
  defaultRetryDelayCalculator : RetryDelayCalculator V
  defaultMaxAttemptCount : JsNumber
  jobHandlers : V → Option (JobHandler V)

/-- `PositiveNumberValidator.validate` on a value whose type is `number`. -/
def PositiveNumberValidator.validate
    (value : JsNumber) (context : String) : Except String Unit :=
  if value.lessThan (.ofNat 1) then
    .error ("\"" ++ context ++ "\" must be a positive number")
  else
    .ok ()

/-- `JobHandlerValidator.validate` on a handler of the declared type. -/
def JobHandlerValidator.validate {V : Type}
    (handler : JobHandler V) (context : String) : Except String Unit :=
  match handler with
  | .function => .ok ()
  | .object fields => do
      match fields.maxAttemptCount with
      | some count =>
          PositiveNumberValidator.validate count (context ++ ".maxAttemptCount")
      | none => pure ()
      match fields.timeoutMs with
      | some timeout =>
          PositiveNumberValidator.validate timeout (context ++ ".timeoutMs")
      | none => pure ()

namespace JobHandlerManager

variable {V : Type}

def set [DecidableEq V]
    (manager : JobHandlerManager V) (operators : JsOperators V)
    (job : V) (handler : JobHandler V) :
    Except String (JobHandlerManager V) :=
  match manager.jobHandlers job with
  | some _ =>
      .error ("Job handler already exists for \"" ++ operators.toText job ++ "\"")
  | none => do
      JobHandlerValidator.validate handler (operators.toText job)
      pure
        { manager with jobHandlers := update manager.jobHandlers job (some handler) }

/-- The user code that `handle` calls, or the error it throws without one. -/
def handle
    (manager : JobHandlerManager V) (operators : JsOperators V) (job : V) :
    Except Thrown (JobHandler V) :=
  match manager.jobHandlers job with
  | none =>
      .error <| .error <|
        "Job handler not found for \"" ++ operators.toText job ++ "\""
  | some handler => .ok handler

/-- Whether `handleError` calls user code; otherwise it throws its error again. -/
def hasHandleError (manager : JobHandlerManager V) (job : V) : Bool :=
  match manager.jobHandlers job with
  | some (.object handler) => handler.hasHandleError
  | _ => false

def calculateRetryDelayMs
    (manager : JobHandlerManager V) (operators : JsOperators V)
    (job attempt : V) : Except Thrown JsNumber :=
  let customRetryDelayCalculator :=
    match manager.jobHandlers job with
    | some (.object handler) => handler.retryDelayCalculator
    | _ => none
  let retryDelayCalculator :=
    customRetryDelayCalculator.getD manager.defaultRetryDelayCalculator
  match retryDelayCalculator attempt with
  | none => .error .byUser
  | some retryDelayMs =>
      if !retryDelayMs.isInteger || retryDelayMs.lessThan (.ofNat 1) then
        .error <| .error <|
          "Invalid calculated attempt retry delay: " ++
            operators.numberText retryDelayMs ++
            " (must be a positive integer)"
      else
        .ok retryDelayMs

def getMaxAttemptCount (manager : JobHandlerManager V) (job : V) : JsNumber :=
  match manager.jobHandlers job with
  | some (.object { maxAttemptCount := some count, .. }) =>
      if count.truthy then count else manager.defaultMaxAttemptCount
  | _ => manager.defaultMaxAttemptCount

def isExceedingMaxAttemptCount
    (manager : JobHandlerManager V) (operators : JsOperators V)
    (job attempt : V) : Option Bool :=
  operators.greaterThan attempt (manager.getMaxAttemptCount job)

def getTimeoutMs (manager : JobHandlerManager V) (job : V) : Option JsNumber :=
  match manager.jobHandlers job with
  | some (.object { timeoutMs := some timeout, .. }) =>
      if timeout.truthy then some timeout else none
  | _ => none

/-- `handleJob` sets a timer for a truthy and finite `timeoutMs` only. -/
def hasTimer (manager : JobHandlerManager V) (job : V) : Bool :=
  match manager.getTimeoutMs job with
  | some timeout => timeout.isFinite
  | none => false

def deleteAll (manager : JobHandlerManager V) : JobHandlerManager V :=
  { manager with jobHandlers := fun _ => none }

end JobHandlerManager

end Amq.Jobs
