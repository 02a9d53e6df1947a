import Amq.Core.SystemCalls

/-!
# Recovery as a command sees it

An error of a command is classified twice on its way out: by the channel executor,
from the message of amqplib, and by the wrapper's executor, from the class that the
first one has given it.  A retried command gets to see neither of these classes.
-/

namespace Amq.Core

open Amq.Transition

/-! ## The errors of one call -/

namespace ExecuteCall

variable {ρ : Type}

/-- The errors of a retried call: those of its attempts, and those that it throws.
A call whose timer has fired may throw what is no error. -/
structure Raises (attempt thrown : CommandError → Prop) (call : ExecuteCall ρ) :
    Prop where
  retryOnError : call.retryOnError = true
  failed : ∀ error, call.phase = .failed error → attempt error
  throwing :
    ∀ error, call.phase = .throwing error →
      thrown error ∨ call.hasTimedOut = true
  settled : ∀ error, .settled (.rejected error) ∈ call.history → thrown error

/-- What an executor lets a retried call throw. -/
structure Classifies (view : ExecutorView ρ) (attempt thrown : CommandError → Prop) :
    Prop where
  timedOut : thrown (.commandTimedOut view.commandTimeoutMs)
  cancelled :
    ∀ error, view.cancellation = some error → attempt error ∧ thrown error
  final :
    ∀ error, attempt error → error ≠ view.kind.unavailableError → thrown error

variable {attempt thrown : CommandError → Prop}

theorem raises_execute
    {view : ExecutorView ρ} (classifies : Classifies view attempt thrown) :
    (execute view true).Raises attempt thrown := by
  have begins := execute_begins view true
  generalize execute view true = call at begins ⊢
  cases begins with
  | refused cancelled =>
      refine ⟨rfl, nofun, nofun, ?_⟩
      intro other member
      cases List.mem_singleton.mp member
      exact (classifies.cancelled _ cancelled).2
  | waits active unavailable => exact ⟨rfl, nofun, nofun, nofun⟩
  | receives active available => exact ⟨rfl, nofun, nofun, nofun⟩

/-- After the sleep a call gives up because it has been cancelled or has timed
out. -/
theorem throwing_of_slept
    {view : ExecutorView ρ} {call call' : ExecuteCall ρ} {error : CommandError}
    (before : call.phase = .sleeping)
    (stepped : call.step view .slept = some call')
    (throwing : call'.phase = .throwing error) :
    view.cancellation = some error ∨ call'.hasTimedOut = true := by
  unfold step at stepped
  rw [before] at stepped
  dsimp only at stepped
  by_cases further : (view.cancellation.isNone && !call.hasTimedOut) = true
  · rw [if_pos further] at stepped
    cases stepped
    unfold executeOnce at throwing
    split at throwing
    · cases throwing
    · cases throwing
  · rw [if_neg further] at stepped
    cases stepped
    cases throwing
    cases cancellation : view.cancellation with
    | some error => exact Or.inl rfl
    | none =>
        right
        rw [cancellation, Option.isNone_none, Bool.true_and,
          Bool.not_eq_true, Bool.not_eq_false'] at further
        exact further

theorem Raises.step
    {view : ExecutorView ρ} {call call' : ExecuteCall ρ} {event : CallEvent}
    (raises : call.Raises attempt thrown) (proper : call.Proper)
    (classifies : Classifies view attempt thrown)
    (stepped : call.step view event = some call')
    (commands :
      ∀ error, event = .commandSettled (.rejected error) →
        attempt (view.kind.rethrow error)) :
    call'.Raises attempt thrown := by
  have steps := steps_of_step stepped
  refine ⟨steps.flags.1.trans raises.retryOnError, ?_, ?_, ?_⟩
  · intro error failed
    rcases steps.failed failed with
      before | cancelled | ⟨resource, thrown, rejected, _, rethrown⟩
    · exact raises.failed error before
    · exact (classifies.cancelled error cancelled).1
    · rw [rethrown]
      exact commands thrown rejected
  · intro error throwing
    rcases steps.throwing throwing with
      before | cancelled | ⟨before, final⟩ | ⟨slept, before⟩
    · rcases raises.throwing error before with throws | late
      · exact Or.inl throws
      · exact Or.inr (steps.still_timedOut late)
    · exact Or.inl (classifies.cancelled error cancelled).2
    · have different : error ≠ view.kind.unavailableError :=
        fun same => final ⟨raises.retryOnError, same⟩
      have attempted := raises.failed error before
      exact Or.inl (classifies.final error attempted different)
    · subst slept
      rcases throwing_of_slept before stepped throwing with cancelled | late
      · exact Or.inl (classifies.cancelled error cancelled).2
      · exact Or.inr late
  · intro error member
    rcases steps.entries member with before | observed
    · exact raises.settled error before
    · cases observed with
      | rejected throwing pending =>
          rcases raises.throwing error throwing with throws | late
          · exact throws
          · cases pending.symm.trans (proper.timedOut late)
      | timedOut => exact classifies.timedOut

/-- The classes of errors may grow with the state of the executor. -/
theorem Raises.react
    {attempt' thrown' : CommandError → Prop} {effects : List (CallEffect ρ)}
    {call call' : ExecuteCall ρ} (raises : call.Raises attempt thrown)
    (reaction : Reaction effects call call')
    (attempts : ∀ error, attempt error → attempt' error)
    (throws : ∀ error, thrown error → thrown' error)
    (cancelled : .cancelled ∈ effects → thrown' .connectionClosed) :
    call'.Raises attempt' thrown' := by
  refine ⟨reaction.retryOnError.trans raises.retryOnError, ?_, ?_, ?_⟩
  · intro error failed
    have before := (reaction.raised (Or.inl failed)).trans failed
    exact attempts error (raises.failed error before)
  · intro error throwing
    have before := (reaction.raised (Or.inr throwing)).trans throwing
    rcases raises.throwing error before with thrown | late
    · exact Or.inl (throws error thrown)
    · exact Or.inr (reaction.hasTimedOut.trans late)
  · intro error member
    rcases reaction.entries _ member with before | ⟨cancelling, same, _⟩
    · exact throws error (raises.settled error before)
    · cases same
      exact cancelled cancelling

end ExecuteCall

/-! ## The errors of the two executors -/

/-- The messages by which amqplib reports the loss of a channel or a connection. -/
def lossMessages : List String :=
  ["channel closed", "channel closing", "channel ended", "connection closing"]

/-- An error of the command itself. -/
def CommandError.IsOwn (error : CommandError) : Prop :=
  ∃ message, error = .amqplib message ∧
    ∀ start ∈ lossMessages, message.toLower.startsWith start = false

/-- What a retried call of a channel executor throws. -/
def ThrownByChannel (config : AmqpSystemConfig) (error : CommandError) : Prop :=
  error = .connectionClosing ∨ error = .connectionClosed ∨
    error = .commandTimedOut config.commandTimeoutMs ∨ error.IsOwn

/-- What a retried call of the wrapper's executor throws. -/
def ThrownByConnection
    (config : AmqpSystemConfig) (isCancelled : Bool) (error : CommandError) :
    Prop :=
  (error = .connectionClosed ∧ isCancelled = true) ∨
    error = .commandTimedOut config.commandTimeoutMs ∨ error.IsOwn

namespace AmqpSystem

variable {config : AmqpSystemConfig} {system next : AmqpSystem}

/-- An error of amqplib makes an attempt fail with one of three errors. -/
theorem rethrow_amqplib (message : String) :
    ExecutorKind.channel.rethrow (.amqplib message) = .channelBecameUnavailable ∨
      ExecutorKind.channel.rethrow (.amqplib message) = .connectionClosing ∨
        (ExecutorKind.channel.rethrow (.amqplib message)).IsOwn := by
  unfold ExecutorKind.rethrow
  dsimp only
  split
  case isTrue => exact Or.inl rfl
  case isFalse channel =>
    split
    case isTrue => exact Or.inr (Or.inl rfl)
    case isFalse connection =>
      simp only [Bool.or_eq_true, not_or, Bool.not_eq_true] at channel connection
      refine Or.inr (Or.inr ⟨message, rfl, ?_⟩)
      intro start member
      simp only [lossMessages, List.mem_cons, List.not_mem_nil, or_false] at member
      rcases member with rfl | rfl | rfl | rfl
      · exact channel.1.1
      · exact channel.1.2
      · exact channel.2
      · exact connection

theorem channel_classifies (system : AmqpSystem) (connection : ℕ) :
    ExecuteCall.Classifies (system.channelView config connection)
      (fun error =>
        error = .channelBecameUnavailable ∨ ThrownByChannel config error)
      (ThrownByChannel config) where
  timedOut := Or.inr (Or.inr (Or.inl rfl))
  cancelled := by
    intro error cancellation
    have closed : error = .connectionClosed := by
      unfold channelView at cancellation
      dsimp only at cancellation
      split at cancellation
      · exact (Option.some.inj cancellation).symm
      · cases cancellation
    have thrown : ThrownByChannel config error := Or.inr (Or.inl closed)
    exact ⟨Or.inr thrown, thrown⟩
  final := fun _ attempt different => attempt.resolve_left different

theorem connection_classifies (system : AmqpSystem) :
    ExecuteCall.Classifies (system.view config)
      (fun error =>
        error = .connectionBecameUnavailable ∨
          ThrownByConnection config system.wrapper.isCancelled error)
      (ThrownByConnection config system.wrapper.isCancelled) where
  timedOut := Or.inr (Or.inl rfl)
  cancelled := by
    intro error cancellation
    have thrown :
        ThrownByConnection config system.wrapper.isCancelled error := by
      unfold view at cancellation
      dsimp only at cancellation
      split at cancellation
      case isTrue cancelled =>
        exact Or.inl ⟨(Option.some.inj cancellation).symm, cancelled⟩
      case isFalse => cases cancellation
    exact ⟨Or.inr thrown, thrown⟩
  final := fun _ attempt different => attempt.resolve_left different

/-- What the inner call throws is the failure of an attempt of the outer one. -/
theorem rethrow_connection
    {error : CommandError} (isCancelled : Bool)
    (thrown : ThrownByChannel config error) :
    ExecutorKind.connection.rethrow error = .connectionBecameUnavailable ∨
      ThrownByConnection config isCancelled
        (ExecutorKind.connection.rethrow error) := by
  rcases thrown with rfl | rfl | rfl | ⟨message, rfl, own⟩
  · exact Or.inl rfl
  · exact Or.inl rfl
  · exact Or.inr (Or.inr (Or.inl rfl))
  · exact Or.inr (Or.inr (Or.inr ⟨message, rfl, own⟩))

/-- The retried calls of both executors throw what these allow. -/
structure Transparent (config : AmqpSystemConfig) (system : AmqpSystem) : Prop where
  commands :
    ∀ command ∈ system.commands, command.call.retryOnError = true →
      command.call.Raises
        (fun error =>
          error = .connectionBecameUnavailable ∨
            ThrownByConnection config system.wrapper.isCancelled error)
        (ThrownByConnection config system.wrapper.isCancelled)
  channelCommands :
    ∀ command ∈ system.channelCommands, command.call.retryOnError = true →
      command.call.Raises
        (fun error =>
          error = .channelBecameUnavailable ∨ ThrownByChannel config error)
        (ThrownByChannel config)

theorem transparent_create (config : AmqpSystemConfig) :
    create.Transparent config := by
  constructor
  · intro command member
    cases member
  · intro command member
    cases member

theorem Transparent.after
    {event : WrapperEvent} {effects : List WrapperEffect}
    {wrapper : AmqpConnectionWrapper} (transparent : system.Transparent config)
    (control : system.wrapper.ControlStep event effects wrapper) :
    (system.after effects wrapper).Transparent config := by
  have throws (error : CommandError)
      (thrown : ThrownByConnection config system.wrapper.isCancelled error) :
      ThrownByConnection config wrapper.isCancelled error := by
    rcases thrown with ⟨closed, cancelled⟩ | own
    · exact Or.inl ⟨closed, control.cancelled.mpr (Or.inl cancelled)⟩
    · exact Or.inr own
  constructor
  · intro command member retry
    obtain ⟨earlier, before, call, reaction, rfl⟩ := mem_after_commands member
    refine
      (transparent.commands earlier before
        (reaction.retryOnError.symm.trans retry)).react reaction ?_ throws ?_
    · intro error attempt
      exact attempt.imp_right (throws error)
    · intro cancelling
      exact Or.inl
        ⟨rfl,
          control.cancelled.mpr
            (Or.inr (WrapperEffect.cancelled_mem_onCommands.mp cancelling))⟩
  · intro command member retry
    obtain ⟨earlier, before, call, reaction, rfl⟩ :=
      mem_after_channelCommands member
    exact
      (transparent.channelCommands earlier before
        (reaction.retryOnError.symm.trans retry)).react reaction
        (fun _ attempt => attempt) (fun _ thrown => thrown)
        (fun _ => Or.inr (Or.inl rfl))

theorem Transparent.setCommand
    {index : ℕ} {command : Command} (transparent : system.Transparent config)
    (new :
      command.call.retryOnError = true →
        command.call.Raises
          (fun error =>
            error = .connectionBecameUnavailable ∨
              ThrownByConnection config system.wrapper.isCancelled error)
          (ThrownByConnection config system.wrapper.isCancelled)) :
    (system.setCommand index command).Transparent config := by
  refine ⟨?_, transparent.channelCommands⟩
  intro other member retry
  rcases List.mem_or_eq_of_mem_set member with before | rfl
  · exact transparent.commands other before retry
  · exact new retry

theorem Transparent.setChannelCommand
    {index : ℕ} {command : ChannelCommand}
    (transparent : system.Transparent config)
    (new :
      command.call.retryOnError = true →
        command.call.Raises
          (fun error =>
            error = .channelBecameUnavailable ∨ ThrownByChannel config error)
          (ThrownByChannel config)) :
    (system.setChannelCommand index command).Transparent config := by
  refine ⟨transparent.commands, ?_⟩
  intro other member retry
  rcases List.mem_or_eq_of_mem_set member with before | rfl
  · exact transparent.channelCommands other before retry
  · exact new retry

theorem Transparent.stepCommand
    {index : ℕ} {command : Command} {event : CallEvent} {call : ExecuteCall ℕ}
    (transparent : system.Transparent config) (tidy : system.Tidy)
    (linked : system.Linked) (found : system.commands[index]? = some command)
    (stepped : command.call.step (system.view config) event = some call)
    (settled :
      ∀ result, event = .commandSettled result →
        system.settledWith command.channelCommand result = true)
    (retry : call.retryOnError = true) :
    call.Raises
      (fun error =>
        error = .connectionBecameUnavailable ∨
          ThrownByConnection config system.wrapper.isCancelled error)
      (ThrownByConnection config system.wrapper.isCancelled) := by
  have member := List.mem_of_getElem? found
  have steps := ExecuteCall.steps_of_step stepped
  have retried := steps.flags.1.symm.trans retry
  refine
    (transparent.commands command member retried).step
      (tidy.commands command member).proper (connection_classifies system)
      stepped ?_
  intro error failed
  subst failed
  cases steps with
  | @commandFailed connection _ before =>
      obtain ⟨made, there, _, same⟩ := linked command member connection before
      have rejected := settled (.rejected error) rfl
      unfold settledWith at rejected
      rw [there] at rejected
      have thrown :=
        (transparent.channelCommands made (List.mem_of_getElem? there)
          (same.trans retried)).settled error (of_decide_eq_true rejected)
      exact rethrow_connection system.wrapper.isCancelled thrown

theorem Transparent.stepChannelCommand
    {index : ℕ} {command : ChannelCommand} {event : CallEvent}
    {call : ExecuteCall ConfirmChannel}
    (transparent : system.Transparent config) (tidy : system.Tidy)
    (found : system.channelCommands[index]? = some command)
    (stepped :
      command.call.step (system.channelView config command.connection) event =
        some call)
    (settled :
      ∀ result, event = .commandSettled result →
        CommandResult.isOfAmqplib result = true)
    (retry : call.retryOnError = true) :
    call.Raises
      (fun error =>
        error = .channelBecameUnavailable ∨ ThrownByChannel config error)
      (ThrownByChannel config) := by
  have member := List.mem_of_getElem? found
  have retried :=
    (ExecuteCall.steps_of_step stepped).flags.1.symm.trans retry
  refine
    (transparent.channelCommands command member retried).step
      (tidy.channelCommands command member).proper
      (channel_classifies system command.connection) stepped ?_
  intro error failed
  have ofAmqplib := settled _ failed
  cases error with
  | amqplib message =>
      rcases rethrow_amqplib message with lost | closing | own
      · exact Or.inl lost
      · exact Or.inr (Or.inl closing)
      · exact Or.inr (Or.inr (Or.inr (Or.inr own)))
  | _ => cases ofAmqplib

theorem Transparent.steps
    {event : SystemEvent} (transparent : system.Transparent config)
    (orderly : system.wrapper.Orderly) (tidy : system.Tidy)
    (linked : system.Linked) (steps : Steps config system event next) :
    next.Transparent config := by
  cases steps with
  | followed permitted stepped =>
      exact transparent.after (orderly.moves_of_step _ stepped).controlStep
  | executed retryOnError =>
      refine ⟨?_, transparent.channelCommands⟩
      intro command member retry
      rcases List.mem_append.mp member with before | new
      · exact transparent.commands command before retry
      · cases List.mem_singleton.mp new
        have retried : retryOnError = true := by
          change
            (ExecuteCall.execute (system.view config) retryOnError).retryOnError =
              true at retry
          rw [ExecuteCall.execute_retryOnError] at retry
          exact retry
        subst retried
        exact ExecuteCall.raises_execute (connection_classifies system)
  | @invoked index connection command found received active =>
      have member := List.mem_of_getElem? found
      constructor
      · intro other among retry
        rcases List.mem_or_eq_of_mem_set among with before | rfl
        · exact transparent.commands other before retry
        · have raises := transparent.commands command member retry
          refine ⟨retry, nofun, nofun, ?_⟩
          intro error rejected
          rcases List.mem_cons.mp rejected with impossible | earlier
          · cases impossible
          · exact raises.settled error earlier
      · intro other among retry
        rcases List.mem_append.mp among with before | new
        · exact transparent.channelCommands other before retry
        · cases List.mem_singleton.mp new
          have retried : command.call.retryOnError = true := by
            rw [ExecuteCall.execute_retryOnError] at retry
            exact retry
          dsimp only
          rw [retried]
          exact ExecuteCall.raises_execute (channel_classifies system connection)
  | commandMoved found stepped settled uninvoked unheard =>
      exact
        transparent.setCommand
          (transparent.stepCommand tidy linked found stepped settled)
  | commandHeard found caught emission stepped =>
      have moved := transparent.stepCommand tidy linked found caught nofun
      exact
        (transparent.setCommand moved).after
          (orderly.moves_of_step _ stepped).controlStep
  | channelCommandMoved found stepped settled unheard =>
      have moved := transparent.stepChannelCommand tidy found stepped settled
      exact transparent.setChannelCommand moved
  | channelCommandHeard found caught listens cause stepped =>
      have moved := transparent.stepChannelCommand tidy found caught nofun
      exact
        (transparent.setChannelCommand moved).after
          (orderly.moves_of_step _ stepped).controlStep

theorem transparent_preserved (config : AmqpSystemConfig) :
    (machine config).Preserved
      (fun system =>
        (system.wrapper.Orderly ∧ system.Tidy) ∧ system.Linked ∧
          system.Transparent config) := by
  rintro system event next ⟨⟨orderly, tidy⟩, linked, transparent⟩ stepped
  have steps := steps_of_step stepped
  exact
    ⟨tidy_preserved config system event next ⟨orderly, tidy⟩ stepped,
      linked.steps steps, transparent.steps orderly tidy linked steps⟩

/-- Through all losses and recoveries a command with `retryOnError` is rejected only
by its timer, by the cancellation of the wrapper's executor, or with an error of its
own. -/
theorem recovery_transparent
    (config : AmqpSystemConfig) (schedule : List SystemEvent)
    (system : AmqpSystem) (command : Command) (error : CommandError)
    (execution : (machine config).run create schedule = some system)
    (issued : command ∈ system.commands)
    (retry : command.call.retryOnError = true)
    (rejected : .settled (.rejected error) ∈ command.call.history) :
    error = .commandTimedOut config.commandTimeoutMs ∨
      (error = .connectionClosed ∧ system.wrapper.isCancelled = true) ∨
      ∃ message, error = .amqplib message ∧
        ∀ start ∈ lossMessages, message.toLower.startsWith start = false := by
  have initially :
      (create.wrapper.Orderly ∧ create.Tidy) ∧ create.Linked ∧
        create.Transparent config :=
    ⟨⟨orderly_create, tidy_create⟩, linked_create, transparent_create config⟩
  obtain ⟨_, _, transparent⟩ :=
    Machine.run_invariant (transparent_preserved config) initially execution
  rcases (transparent.commands command issued retry).settled error rejected with
    cancelled | timedOut | own
  · exact Or.inr (Or.inl cancelled)
  · exact Or.inl timedOut
  · exact Or.inr (Or.inr own)

/-- A command runs when the connection is lost, is retried on the next one and then
times out. -/
def timedOutAfterRecovery : List SystemEvent :=
  connected ++
    [.execute true, .command 0 .continued, .channelCommand 0 .continued,
      .wrapper (.connectionLost 0),
      .command 0 (.commandSettled (.rejected .connectionClosed)),
      .command 0 .caught, .wrapper .oldConnectionDisposed,
      .wrapper (.initializer 1 .started),
      .wrapper (.initializer 1 (.connectionSettled .fulfilled)),
      .wrapper (.initializer 1 (.channelSettled .fulfilled)),
      .wrapper (.initializer 1 .resumed), .wrapper (.initializer 1 .finished),
      .wrapper .reconnectResumed, .command 0 .intervalStarted, .command 0 .slept,
      .command 0 .continued, .channelCommand 1 .continued, .command 0 .timerFired]

theorem recovery_transparent_timedOut :
    ∃ system command error,
      (machine defaultConfig).run create timedOutAfterRecovery = some system ∧
        command ∈ system.commands ∧
        .settled (.rejected error) ∈ command.call.history ∧
        (error = .commandTimedOut defaultConfig.commandTimeoutMs ∨
          (error = .connectionClosed ∧ system.wrapper.isCancelled = true) ∨
          ∃ message, error = .amqplib message ∧
            ∀ start ∈ lossMessages, message.toLower.startsWith start = false) :=
  ⟨_, _, _, rfl, List.mem_cons_self, List.mem_cons_self,
    recovery_transparent defaultConfig timedOutAfterRecovery _ _ _ rfl
      List.mem_cons_self rfl List.mem_cons_self⟩

end AmqpSystem

end Amq.Core
