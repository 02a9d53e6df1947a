import Amq.MessageRelevancyChecker
import Amq.Rpc.CommandHandlerManager

/-!
# One run of `handleCommandMessage`

As for jobs, a run is cut at its await points.  It waits for the race between
the handler and the timeout, for the reply to be sent and for the
acknowledgement.  Anything thrown outside of the race ends the run and leaves
its correlation id locked.
-/

namespace Amq.Rpc

inductive ReplyState where
  | success
  | error
  deriving DecidableEq, Repr

/-- The content of a reply message. -/
structure Reply (V : Type) where
  state : ReplyState
  data : ReplyData V
  deriving DecidableEq

/-- How the handler settles. -/
inductive HandlerOutcome (V : Type) where
  | resolved (result : Option V)
  | rejected (rejection : Rejection V)
  deriving DecidableEq

/-- The `then` and `catch` clauses of the race. -/
def HandlerOutcome.reply {V : Type} : HandlerOutcome V → Reply V
  | .resolved result => ⟨.success, .value result⟩
  | .rejected rejection => ⟨.error, ErrorSerializer.serialize rejection⟩

structure CommandMessage (κ Buffer : Type) where
  correlationId : κ
  replyQueue : String
  content : Buffer
  deriving DecidableEq

structure CommandMessageContent (V : Type) where
  command : V
  args : V
  deriving DecidableEq

/-- Where `handleCommandMessage` waits. -/
inductive CommandPhase (V : Type) where
  /-- In the race; a missing handler has already rejected. -/
  | handling (missing : Option JsError)
  /-- Past the race, with the reply unless the timeout won. -/
  | handled (reply : Option (Reply V))
  | replying
  /-- The reply has been sent, before the second check for disposal. -/
  | replied
  | acknowledging (tag : DeliveryTag)
  | ended
  deriving DecidableEq

inductive CommandObservation (V : Type) where
  | handlerSettled (outcome : HandlerOutcome V)
  | timedOut
  | replySent (replyQueue : String) (reply : Reply V)
  | replyAccepted
  | acknowledged (tag : DeliveryTag)
  deriving DecidableEq

structure CommandRun (κ V : Type) where
  correlationId : κ
  replyQueue : String
  phase : CommandPhase V
  /-- What was observable about the run, the latest entry first. -/
  history : List (CommandObservation V)

/-- What a run reads of its surroundings. -/
structure CommandSurroundings (Buffer V : Type) where
  serialize : Reply V → Option Buffer
  isDisposed : Bool
  /-- `getDeliveryTag` for the correlation id of the run. -/
  actualDeliveryTag : Option DeliveryTag

inductive CommandEffect (κ Buffer : Type) where
  | reply (replyQueue : String) (content : Buffer) (correlationId : κ)
  | acknowledge (tag : DeliveryTag)
  | unlock (correlationId : κ)

inductive CommandEvent (V : Type) where
  | handlerSettled (outcome : HandlerOutcome V)
  | commandTimedOut
  | proceed
  | replySettled (settlement : Settlement)
  | acknowledgeSettled (settlement : Settlement)

namespace CommandRun

variable {κ Buffer V : Type}

def settleHandler
    (run : CommandRun κ V) (outcome : HandlerOutcome V) :
    Option (CommandRun κ V) :=
  match run.phase with
  | .handling none =>
      some
        { run with
          phase := .handled (some outcome.reply)
          history := .handlerSettled outcome :: run.history }
  | .handling (some missing) =>
      if outcome matches .rejected _ then
        let thrown := HandlerOutcome.rejected (.error missing)
        some
          { run with
            phase := .handled (some thrown.reply)
            history := .handlerSettled thrown :: run.history }
      else
        none
  | _ => none

/-- The timer of `commandTimeoutMs` rejects the race first. -/
def timeOut (run : CommandRun κ V) : Option (CommandRun κ V) :=
  match run.phase with
  | .handling _ =>
      some
        { run with
          phase := .handled none
          history := .timedOut :: run.history }
  | _ => none

/-- From the last check for disposal to the call of `acknowledge`. -/
def acknowledge
    (surroundings : CommandSurroundings Buffer V) (run : CommandRun κ V) :
    CommandRun κ V × List (CommandEffect κ Buffer) :=
  if surroundings.isDisposed then
    ({ run with phase := .ended }, [])
  else
    match surroundings.actualDeliveryTag with
    | some tag =>
        ({ run with
            phase := .acknowledging tag
            history := .acknowledged tag :: run.history },
          [.acknowledge tag])
    | none => ({ run with phase := .ended }, [.unlock run.correlationId])

/-- The synchronous code after the race or after the reply. -/
def proceed
    (surroundings : CommandSurroundings Buffer V) (run : CommandRun κ V) :
    Option (CommandRun κ V × List (CommandEffect κ Buffer)) :=
  match run.phase with
  | .handled (some reply) =>
      if surroundings.isDisposed then
        some ({ run with phase := .ended }, [])
      else
        match surroundings.serialize reply with
        | some content =>
            some
              ({ run with
                  phase := .replying
                  history := .replySent run.replyQueue reply :: run.history },
                [.reply run.replyQueue content run.correlationId])
        | none => some ({ run with phase := .ended }, [])
  | .handled none => some (run.acknowledge surroundings)
  | .replied => some (run.acknowledge surroundings)
  | _ => none

def settleReply
    (run : CommandRun κ V) (settlement : Settlement) :
    Option (CommandRun κ V) :=
  match run.phase, settlement with
  | .replying, .fulfilled =>
      some
        { run with
          phase := .replied
          history := .replyAccepted :: run.history }
  | .replying, .rejected => some { run with phase := .ended }
  | _, _ => none

/-- A rejected acknowledgement is reported and then treated like any other. -/
def settleAcknowledge
    (run : CommandRun κ V) :
    Option (CommandRun κ V × List (CommandEffect κ Buffer)) :=
  match run.phase with
  | .acknowledging _ =>
      some ({ run with phase := .ended }, [.unlock run.correlationId])
  | _ => none

def step
    (surroundings : CommandSurroundings Buffer V) (run : CommandRun κ V) :
    CommandEvent V → Option (CommandRun κ V × List (CommandEffect κ Buffer))
  | .handlerSettled outcome => (run.settleHandler outcome).map (·, [])
  | .commandTimedOut => run.timeOut.map (·, [])
  | .proceed => run.proceed surroundings
  | .replySettled settlement => (run.settleReply settlement).map (·, [])
  | .acknowledgeSettled _ => run.settleAcknowledge

/-! ## What one step can do -/

inductive Steps
    (surroundings : CommandSurroundings Buffer V) (run : CommandRun κ V) :
    CommandEvent V → CommandRun κ V → List (CommandEffect κ Buffer) → Prop where
  | handlerSettled (settled outcome : HandlerOutcome V)
      (missing : Option JsError) (handling : run.phase = .handling missing)
      (itsOutcome :
        (missing = none ∧ outcome = settled) ∨
          ∃ error, missing = some error ∧ outcome = .rejected (.error error)) :
      Steps surroundings run (.handlerSettled settled)
        { run with
          phase := .handled (some outcome.reply)
          history := .handlerSettled outcome :: run.history } []
  | timedOut (missing : Option JsError)
      (handling : run.phase = .handling missing) :
      Steps surroundings run .commandTimedOut
        { run with
          phase := .handled none
          history := .timedOut :: run.history } []
  | notReplied (reply : Reply V)
      (handled : run.phase = .handled (some reply))
      (hindered :
        surroundings.isDisposed = true ∨
          surroundings.serialize reply = none) :
      Steps surroundings run .proceed { run with phase := .ended } []
  | replying (reply : Reply V) (content : Buffer)
      (handled : run.phase = .handled (some reply))
      (live : surroundings.isDisposed = false)
      (serialized : surroundings.serialize reply = some content) :
      Steps surroundings run .proceed
        { run with
          phase := .replying
          history := .replySent run.replyQueue reply :: run.history }
        [.reply run.replyQueue content run.correlationId]
  | replyAccepted (replying : run.phase = .replying) :
      Steps surroundings run (.replySettled .fulfilled)
        { run with
          phase := .replied
          history := .replyAccepted :: run.history } []
  | replyFailed (replying : run.phase = .replying) :
      Steps surroundings run (.replySettled .rejected)
        { run with phase := .ended } []
  | proceedDisposed
      (answered : run.phase = .handled none ∨ run.phase = .replied)
      (disposed : surroundings.isDisposed = true) :
      Steps surroundings run .proceed { run with phase := .ended } []
  | proceedAcknowledging (tag : DeliveryTag)
      (answered : run.phase = .handled none ∨ run.phase = .replied)
      (live : surroundings.isDisposed = false)
      (actual : surroundings.actualDeliveryTag = some tag) :
      Steps surroundings run .proceed
        { run with
          phase := .acknowledging tag
          history := .acknowledged tag :: run.history }
        [.acknowledge tag]
  | proceedUnlocking
      (answered : run.phase = .handled none ∨ run.phase = .replied)
      (live : surroundings.isDisposed = false)
      (actual : surroundings.actualDeliveryTag = none) :
      Steps surroundings run .proceed { run with phase := .ended }
        [.unlock run.correlationId]
  | acknowledgeSettled (tag : DeliveryTag) (settlement : Settlement)
      (acknowledging : run.phase = .acknowledging tag) :
      Steps surroundings run (.acknowledgeSettled settlement)
        { run with phase := .ended } [.unlock run.correlationId]

theorem acknowledge_steps
    {surroundings : CommandSurroundings Buffer V} {run next : CommandRun κ V}
    {effects : List (CommandEffect κ Buffer)}
    (answered : run.phase = .handled none ∨ run.phase = .replied)
    (acknowledged : run.acknowledge surroundings = (next, effects)) :
    Steps surroundings run .proceed next effects := by
  unfold acknowledge at acknowledged
  split at acknowledged
  · rename_i disposed
    cases acknowledged
    exact .proceedDisposed answered disposed
  · rename_i live
    have notDisposed : surroundings.isDisposed = false :=
      Bool.eq_false_of_not_eq_true live
    split at acknowledged
    · rename_i tag actual
      cases acknowledged
      exact .proceedAcknowledging tag answered notDisposed actual
    · rename_i actual
      cases acknowledged
      exact .proceedUnlocking answered notDisposed actual

theorem proceed_steps
    {surroundings : CommandSurroundings Buffer V} {run next : CommandRun κ V}
    {effects : List (CommandEffect κ Buffer)}
    (proceeded : run.proceed surroundings = some (next, effects)) :
    Steps surroundings run .proceed next effects := by
  unfold proceed at proceeded
  split at proceeded
  · rename_i reply handled
    split at proceeded
    · rename_i disposed
      cases proceeded
      exact .notReplied reply handled (Or.inl disposed)
    · rename_i live
      split at proceeded
      · rename_i content serialized
        cases proceeded
        exact .replying reply content handled
          (Bool.eq_false_of_not_eq_true live) serialized
      · rename_i serialized
        cases proceeded
        exact .notReplied reply handled (Or.inr serialized)
  · rename_i handled
    exact acknowledge_steps (Or.inl handled) (Option.some.inj proceeded)
  · rename_i replied
    exact acknowledge_steps (Or.inr replied) (Option.some.inj proceeded)
  · cases proceeded

theorem settleHandler_steps
    {surroundings : CommandSurroundings Buffer V} {run next : CommandRun κ V}
    {settled : HandlerOutcome V}
    (taken : run.settleHandler settled = some next) :
    Steps surroundings run (.handlerSettled settled) next [] := by
  unfold settleHandler at taken
  split at taken
  · rename_i handling
    cases taken
    exact .handlerSettled settled settled none handling (Or.inl ⟨rfl, rfl⟩)
  · rename_i missing handling
    split at taken
    · cases taken
      exact .handlerSettled _ (.rejected (.error missing)) (some missing) handling
        (Or.inr ⟨missing, rfl, rfl⟩)
    · cases taken
  · cases taken

/-- Every step of a run is one of `Steps`. -/
theorem steps_of_step
    {surroundings : CommandSurroundings Buffer V} {run next : CommandRun κ V}
    {event : CommandEvent V} {effects : List (CommandEffect κ Buffer)}
    (stepped : run.step surroundings event = some (next, effects)) :
    Steps surroundings run event next effects := by
  cases event with
  | handlerSettled settled =>
      simp only [step, Option.map_eq_some_iff, Prod.mk.injEq] at stepped
      obtain ⟨following, taken, rfl, rfl⟩ := stepped
      exact settleHandler_steps taken
  | commandTimedOut =>
      simp only [step, timeOut] at stepped
      split at stepped
      · rename_i missing handling
        cases stepped
        exact .timedOut missing handling
      · cases stepped
  | proceed => exact proceed_steps stepped
  | replySettled settlement =>
      simp only [step, settleReply] at stepped
      split at stepped
      · rename_i replying
        cases stepped
        exact .replyAccepted replying
      · rename_i replying
        cases stepped
        exact .replyFailed replying
      · cases stepped
  | acknowledgeSettled settlement =>
      simp only [step, settleAcknowledge] at stepped
      split at stepped
      · rename_i tag acknowledging
        cases stepped
        exact .acknowledgeSettled tag settlement acknowledging
      · cases stepped

end CommandRun

end Amq.Rpc
