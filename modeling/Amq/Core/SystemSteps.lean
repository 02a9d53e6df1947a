import Amq.Core.WrapperOrder

/-!
# The steps of the wrapper with its commands

A step moves the wrapper, or one call, or one call and then the wrapper that listens
to what the call has emitted.
-/

namespace Amq.Core

open Amq.Transition

/-! ## The `catch` clause of a call -/

namespace ExecuteCall

variable {ρ : Type}

/-- What the `catch` clause makes of an error. -/
inductive Catches (view : ExecutorView ρ) (call : ExecuteCall ρ)
    (error : CommandError) : Option ExecutorEmission → ExecuteCall ρ → Prop where
  | cancelled (cancellationError : CommandError)
      (cancellation : view.cancellation = some cancellationError) :
      Catches view call error none
        { call with phase := .throwing cancellationError }
  | paused (active : view.cancellation = none)
      (retry : call.retryOnError = true)
      (unavailable : error = view.kind.unavailableError) :
      Catches view call error (some view.kind.unavailableEmission)
        { call with
          phase := .paused true
          history := .emitted view.kind.unavailableEmission :: call.history }
  | closing (active : view.cancellation = none) (kind : view.kind = .channel)
      (isClosing : error = .connectionClosing) :
      Catches view call error (some .connectionClosing)
        { call with
          phase := .throwing error
          history := .emitted .connectionClosing :: call.history }
  | thrown (active : view.cancellation = none)
      (final :
        ¬ (call.retryOnError = true ∧ error = view.kind.unavailableError)) :
      Catches view call error none { call with phase := .throwing error }

theorem catches_of_caught
    {view : ExecutorView ρ} {call call' : ExecuteCall ρ}
    (stepped : call.step view .caught = some call') :
    ∃ error, call.phase = .failed error ∧
      Catches view call error (call.emission call') call' := by
  have silent (phase : CallPhase ρ) :
      call.emission { call with phase := phase } = none := by
    unfold emission
    exact if_neg (Nat.lt_irrefl _)
  have noisy (phase : CallPhase ρ) (emitted : ExecutorEmission) :
      call.emission
          { call with
            phase := phase
            history := .emitted emitted :: call.history } =
        some emitted := by
    unfold emission
    exact if_pos (Nat.lt_succ_self _)
  cases steps_of_step stepped with
  | @caught error before =>
      refine ⟨error, before, ?_⟩
      unfold catchError
      cases cancellation : view.cancellation with
      | some cancellationError =>
          dsimp only
          rw [silent]
          exact .cancelled cancellationError cancellation
      | none =>
          dsimp only
          by_cases retried :
            call.retryOnError = true ∧ error = view.kind.unavailableError
          · rw [if_pos retried, noisy]
            exact .paused cancellation retried.1 retried.2
          · rw [if_neg retried]
            by_cases closing :
              view.kind = .channel ∧ error = .connectionClosing
            · rw [if_pos closing, noisy]
              exact .closing cancellation closing.1 closing.2
            · rw [if_neg closing, silent]
              exact .thrown cancellation retried

end ExecuteCall

/-! ## Effects on the calls -/

namespace WrapperEffect

variable {effects : List WrapperEffect}

theorem cancelled_mem_onCommands :
    .cancelled ∈ effects.filterMap onCommands ↔ .cancelCommands ∈ effects := by
  rw [List.mem_filterMap]
  constructor
  · rintro ⟨effect, member, same⟩
    cases effect with
    | cancelCommands => exact member
    | _ => cases same
  · intro member
    exact ⟨_, member, rfl⟩

theorem resumed_mem_onCommands :
    .resumed ∈ effects.filterMap onCommands ↔ .resumeCommands ∈ effects := by
  rw [List.mem_filterMap]
  constructor
  · rintro ⟨effect, member, same⟩
    cases effect with
    | resumeCommands => exact member
    | _ => cases same
  · intro member
    exact ⟨_, member, rfl⟩

theorem becameAvailable_mem_onCommands (connection : ℕ) :
    .becameAvailable connection ∈ effects.filterMap onCommands ↔
      .connectionAvailable connection ∈ effects := by
  rw [List.mem_filterMap]
  constructor
  · rintro ⟨effect, member, same⟩
    cases effect with
    | connectionAvailable other =>
        cases same
        exact member
    | _ => cases same
  · intro member
    exact ⟨_, member, rfl⟩

/-- An effect concerns the calls of one connection, or all that wait for a channel. -/
theorem onChannelCommands_cases
    {connection : ℕ} {effect : WrapperEffect} {reaction : CallEffect ConfirmChannel}
    (concerned : effect.onChannelCommands connection = some reaction) :
    (effect = .cancelChannelCommands connection ∧ reaction = .cancelled) ∨
      (∃ channel, effect = .channelAvailable channel ∧
          reaction = .becameAvailable channel) ∨
        (effect = .resumeChannelCommands connection ∧ reaction = .resumed) := by
  unfold onChannelCommands at concerned
  split at concerned
  case h_1 other =>
    by_cases here : other = connection
    · rw [if_pos here] at concerned
      cases concerned
      exact Or.inl ⟨congrArg _ here, rfl⟩
    · rw [if_neg here] at concerned
      cases concerned
  case h_2 channel =>
    cases concerned
    exact Or.inr (Or.inl ⟨channel, rfl, rfl⟩)
  case h_3 other =>
    by_cases here : other = connection
    · rw [if_pos here] at concerned
      cases concerned
      exact Or.inr (Or.inr ⟨congrArg _ here, rfl⟩)
    · rw [if_neg here] at concerned
      cases concerned
  case h_4 => cases concerned

theorem cancelled_mem_onChannelCommands (connection : ℕ) :
    .cancelled ∈ effects.filterMap (onChannelCommands connection) ↔
      .cancelChannelCommands connection ∈ effects := by
  rw [List.mem_filterMap]
  constructor
  · rintro ⟨effect, member, concerned⟩
    rcases onChannelCommands_cases concerned with
      ⟨rfl, _⟩ | ⟨channel, _, impossible⟩ | ⟨_, impossible⟩
    · exact member
    · cases impossible
    · cases impossible
  · intro member
    exact ⟨_, member, if_pos rfl⟩

theorem resumed_mem_onChannelCommands (connection : ℕ) :
    .resumed ∈ effects.filterMap (onChannelCommands connection) ↔
      .resumeChannelCommands connection ∈ effects := by
  rw [List.mem_filterMap]
  constructor
  · rintro ⟨effect, member, concerned⟩
    rcases onChannelCommands_cases concerned with
      ⟨_, impossible⟩ | ⟨channel, _, impossible⟩ | ⟨rfl, _⟩
    · cases impossible
    · cases impossible
    · exact member
  · intro member
    exact ⟨_, member, if_pos rfl⟩

theorem becameAvailable_mem_onChannelCommands
    (connection : ℕ) (channel : ConfirmChannel) :
    .becameAvailable channel ∈ effects.filterMap (onChannelCommands connection) ↔
      .channelAvailable channel ∈ effects := by
  rw [List.mem_filterMap]
  constructor
  · rintro ⟨effect, member, concerned⟩
    rcases onChannelCommands_cases concerned with
      ⟨_, impossible⟩ | ⟨other, rfl, same⟩ | ⟨_, impossible⟩
    · cases impossible
    · cases same
      exact member
    · cases impossible
  · intro member
    exact ⟨_, member, rfl⟩

theorem mem_cancelledConnections (connection : ℕ) :
    connection ∈ effects.filterMap cancelledConnection ↔
      .cancelChannelCommands connection ∈ effects := by
  rw [List.mem_filterMap]
  constructor
  · rintro ⟨effect, member, same⟩
    cases effect with
    | cancelChannelCommands other =>
        cases same
        exact member
    | _ => cases same
  · intro member
    exact ⟨_, member, rfl⟩

end WrapperEffect

namespace AmqpSystem

variable {config : AmqpSystemConfig} {system next : AmqpSystem}

/-- The wrapper has taken a step with these effects. -/
def after
    (system : AmqpSystem) (effects : List WrapperEffect)
    (wrapper : AmqpConnectionWrapper) : AmqpSystem where
  wrapper := wrapper
  commands :=
    system.commands.map fun command =>
      { command with
        call :=
          command.call.reactAll (effects.filterMap WrapperEffect.onCommands) }
  channelCommands :=
    system.channelCommands.map fun command =>
      { command with
        call :=
          command.call.reactAll
            (effects.filterMap
              (WrapperEffect.onChannelCommands command.connection)) }
  cancelled :=
    effects.filterMap WrapperEffect.cancelledConnection ++ system.cancelled
  emitted :=
    (effects.filterMap WrapperEffect.emission).map (system.wrapper.state, ·) ++
      system.emitted

theorem follow_eq_some_iff
    {event : WrapperEvent} :
    system.follow config event = some next ↔
      ∃ wrapper,
        system.wrapper.step config.maxConnectionAttempts event = some wrapper ∧
          next = system.after (system.wrapper.effects event) wrapper := by
  unfold follow
  rw [Option.map_eq_some_iff]
  constructor
  · rintro ⟨wrapper, stepped, rfl⟩
    exact ⟨wrapper, stepped, rfl⟩
  · rintro ⟨wrapper, stepped, rfl⟩
    exact ⟨wrapper, stepped, rfl⟩

/-- The steps of the system. -/
inductive Steps (config : AmqpSystemConfig) (system : AmqpSystem) :
    SystemEvent → AmqpSystem → Prop where
  | followed {event : WrapperEvent} {wrapper : AmqpConnectionWrapper}
      (permitted : system.permits event = true)
      (stepped :
        system.wrapper.step config.maxConnectionAttempts event = some wrapper) :
      Steps config system (.wrapper event)
        (system.after (system.wrapper.effects event) wrapper)
  | executed (retryOnError : Bool) :
      Steps config system (.execute retryOnError)
        (system.execute config retryOnError)
  | invoked {index connection : ℕ} {command : Command}
      (found : system.commands[index]? = some command)
      (received : command.call.phase = .received connection)
      (active : system.wrapper.isCancelled = false) :
      Steps config system (.command index .continued)
        (system.invoke config index connection
          { command.call with
            phase := .running connection
            history := .invoked connection :: command.call.history })
  | commandMoved {index : ℕ} {command : Command} {event : CallEvent}
      {call : ExecuteCall ℕ}
      (found : system.commands[index]? = some command)
      (stepped : command.call.step (system.view config) event = some call)
      (settled :
        ∀ result, event = .commandSettled result →
          system.settledWith command.channelCommand result = true)
      (uninvoked : ∀ connection, event = .continued → call.phase ≠ .running connection)
      (unheard :
        event = .caught →
          command.call.emission call = some .connectionBecameUnavailable →
            ¬ (system.wrapper.listens = true ∧
                system.wrapper.isCancelled = false)) :
      Steps config system (.command index event)
        (system.setCommand index { command with call := call })
  | commandHeard {index : ℕ} {command : Command} {call : ExecuteCall ℕ}
      {wrapper : AmqpConnectionWrapper}
      (found : system.commands[index]? = some command)
      (caught : command.call.step (system.view config) .caught = some call)
      (emission :
        command.call.emission call = some .connectionBecameUnavailable)
      (stepped :
        system.wrapper.step config.maxConnectionAttempts
          .connectionBecameUnavailable = some wrapper) :
      Steps config system (.command index .caught)
        ((system.setCommand index { command with call := call }).after
          (system.wrapper.effects .connectionBecameUnavailable) wrapper)
  | channelCommandMoved {index : ℕ} {command : ChannelCommand}
      {event : CallEvent} {call : ExecuteCall ConfirmChannel}
      (found : system.channelCommands[index]? = some command)
      (stepped :
        command.call.step (system.channelView config command.connection) event =
          some call)
      (settled :
        ∀ result, event = .commandSettled result →
          CommandResult.isOfAmqplib result = true)
      (unheard :
        event = .caught →
          command.call.emission call = some .channelBecameUnavailable →
            system.listensTo command.connection = false) :
      Steps config system (.channelCommand index event)
        (system.setChannelCommand index { command with call := call })
  | channelCommandHeard {index : ℕ} {command : ChannelCommand}
      {call : ExecuteCall ConfirmChannel} {event : WrapperEvent}
      {wrapper : AmqpConnectionWrapper}
      (found : system.channelCommands[index]? = some command)
      (caught :
        command.call.step (system.channelView config command.connection) .caught =
          some call)
      (listens : system.listensTo command.connection = true)
      (cause :
        (command.call.emission call = some .channelBecameUnavailable ∧
            event = .channelLost command.connection) ∨
          (command.call.emission call = some .connectionClosing ∧
            event = .connectionLost command.connection))
      (stepped :
        system.wrapper.step config.maxConnectionAttempts event = some wrapper) :
      Steps config system (.channelCommand index .caught)
        ((system.setChannelCommand index { command with call := call }).after
          (system.wrapper.effects event) wrapper)

/-- An event that the listener takes, or ignores. -/
theorem handle_cases
    (config : AmqpSystemConfig) (system : AmqpSystem) (event : WrapperEvent) :
    (∃ wrapper,
        system.wrapper.step config.maxConnectionAttempts event = some wrapper ∧
          system.handle config event =
            system.after (system.wrapper.effects event) wrapper) ∨
      (system.wrapper.step config.maxConnectionAttempts event = none ∧
        system.handle config event = system) := by
  unfold handle follow
  cases stepped : system.wrapper.step config.maxConnectionAttempts event with
  | none => exact Or.inr ⟨rfl, rfl⟩
  | some wrapper => exact Or.inl ⟨wrapper, rfl, rfl⟩

/-- A connection that listens to its executor takes "channelBecameUnavailable". -/
theorem channelLost_accepted
    {connection : ℕ} (config : AmqpSystemConfig)
    (listens : system.listensTo connection = true) :
    ∃ wrapper,
      system.wrapper.step config.maxConnectionAttempts (.channelLost connection) =
        some wrapper := by
  unfold listensTo at listens
  cases found : system.wrapper.runs[connection]? with
  | none =>
      rw [found] at listens
      cases listens
  | some current =>
      rw [found] at listens
      have handles : current.connection.handlesChannels = true := listens
      refine
        ⟨system.wrapper.withConnection connection AmqpConnection.recreateChannel,
          ?_⟩
      simp only [AmqpConnectionWrapper.step]
      rw [found]
      exact if_pos handles

theorem steps_of_stepCommand
    {index : ℕ} {event : CallEvent}
    (stepped : system.stepCommand config index event = some next) :
    Steps config system (.command index event) next := by
  unfold stepCommand at stepped
  cases found : system.commands[index]? with
  | none =>
      rw [found] at stepped
      cases stepped
  | some command =>
      rw [found] at stepped
      dsimp only at stepped
      cases moved : command.call.step (system.view config) event with
      | none =>
          rw [moved] at stepped
          cases stepped
      | some call =>
          rw [moved] at stepped
          dsimp only at stepped
          cases event with
          | continued =>
              dsimp only at stepped
              cases ExecuteCall.steps_of_step moved with
              | @withdrawn resource error before cancelled =>
                  cases stepped
                  refine .commandMoved found moved ?_ ?_ ?_
                  · intro result same
                    cases same
                  · intro connection _ running
                    cases running
                  · intro same
                    cases same
              | @invoked resource before active =>
                  cases stepped
                  apply Steps.invoked found before
                  by_contra cancelled
                  rw [Bool.not_eq_false] at cancelled
                  unfold view at active
                  dsimp only at active
                  rw [if_pos cancelled] at active
                  cases active
          | commandSettled result =>
              dsimp only at stepped
              by_cases settled :
                system.settledWith command.channelCommand result = true
              · rw [if_pos settled] at stepped
                cases stepped
                refine .commandMoved found moved ?_ ?_ ?_
                · intro other same
                  cases same
                  exact settled
                · intro connection same
                  cases same
                · intro same
                  cases same
              · rw [if_neg settled] at stepped
                cases stepped
          | caught =>
              dsimp only at stepped
              have unsettled (result : CommandResult)
                  (same : CallEvent.caught = .commandSettled result) :
                  system.settledWith command.channelCommand result = true := by
                cases same
              have uncontinued (connection : ℕ)
                  (same : CallEvent.caught = .continued) :
                  call.phase ≠ .running connection := by
                cases same
              split at stepped
              case h_1 emission =>
                cases stepped
                rcases handle_cases config
                  (system.setCommand index { command with call := call })
                  .connectionBecameUnavailable with
                  ⟨wrapper, taken, same⟩ | ⟨refused, same⟩
                · rw [same]
                  exact .commandHeard found moved emission taken
                · rw [same]
                  refine .commandMoved found moved unsettled uncontinued ?_
                  intro _ _ available
                  change
                    system.wrapper.step config.maxConnectionAttempts
                      .connectionBecameUnavailable = none at refused
                  simp only [AmqpConnectionWrapper.step] at refused
                  rw [if_pos available] at refused
                  cases refused
              case h_2 silent =>
                cases stepped
                refine .commandMoved found moved unsettled uncontinued ?_
                intro _ emission
                exact absurd emission silent
          | _ =>
              cases stepped
              refine .commandMoved found moved ?_ ?_ ?_
              · intro result same
                cases same
              · intro connection same
                cases same
              · intro same
                cases same

theorem steps_of_stepChannelCommand
    {index : ℕ} {event : CallEvent}
    (stepped : system.stepChannelCommand config index event = some next) :
    Steps config system (.channelCommand index event) next := by
  unfold stepChannelCommand at stepped
  cases found : system.channelCommands[index]? with
  | none =>
      rw [found] at stepped
      cases stepped
  | some command =>
      rw [found] at stepped
      dsimp only at stepped
      cases moved :
        command.call.step (system.channelView config command.connection) event with
      | none =>
          rw [moved] at stepped
          cases stepped
      | some call =>
          rw [moved] at stepped
          dsimp only at stepped
          cases event with
          | commandSettled result =>
              dsimp only at stepped
              by_cases amqplib : CommandResult.isOfAmqplib result = true
              · rw [if_pos amqplib] at stepped
                cases stepped
                refine .channelCommandMoved found moved ?_ nofun
                intro other same
                cases same
                exact amqplib
              · rw [if_neg amqplib] at stepped
                cases stepped
          | caught =>
              dsimp only at stepped
              by_cases listens : system.listensTo command.connection = true
              · rw [if_pos listens] at stepped
                have heard (event : WrapperEvent) :=
                  handle_cases config
                    (system.setChannelCommand index { command with call := call })
                    event
                split at stepped
                case h_1 emission =>
                  cases stepped
                  rcases heard (.channelLost command.connection) with
                    ⟨wrapper, taken, same⟩ | ⟨refused, same⟩
                  · rw [same]
                    exact .channelCommandHeard found moved listens
                      (Or.inl ⟨emission, rfl⟩) taken
                  · obtain ⟨wrapper, taken⟩ := channelLost_accepted config listens
                    cases refused.symm.trans taken
                case h_2 emission =>
                  cases stepped
                  rcases heard (.connectionLost command.connection) with
                    ⟨wrapper, taken, same⟩ | ⟨refused, same⟩
                  · rw [same]
                    exact .channelCommandHeard found moved listens
                      (Or.inr ⟨emission, rfl⟩) taken
                  · rw [same]
                    refine .channelCommandMoved found moved nofun ?_
                    intro _ other
                    cases emission.symm.trans other
                case h_3 silent _ =>
                  cases stepped
                  refine .channelCommandMoved found moved nofun ?_
                  intro _ emission
                  exact absurd emission silent
              · rw [if_neg listens] at stepped
                cases stepped
                refine .channelCommandMoved found moved nofun ?_
                intro _ _
                exact Bool.eq_false_iff.mpr listens
          | _ =>
              cases stepped
              exact .channelCommandMoved found moved nofun nofun

theorem steps_of_step
    {event : SystemEvent} (stepped : system.step config event = some next) :
    Steps config system event next := by
  cases event with
  | wrapper event =>
      simp only [step] at stepped
      by_cases permitted : system.permits event = true
      · rw [if_pos permitted] at stepped
        obtain ⟨wrapper, taken, rfl⟩ := follow_eq_some_iff.mp stepped
        exact .followed permitted taken
      · rw [if_neg permitted] at stepped
        cases stepped
  | execute retryOnError =>
      cases stepped
      exact .executed retryOnError
  | command index event => exact steps_of_stepCommand stepped
  | channelCommand index event => exact steps_of_stepChannelCommand stepped

/-! ## The wrapper of the system -/

/-- A step of the system, as far as its wrapper is concerned. -/
inductive WrapperSteps
    (config : AmqpSystemConfig) (system : AmqpSystem) (event : SystemEvent)
    (next : AmqpSystem) : Prop where
  | rests (call : ∀ reaction, event ≠ .wrapper reaction)
      (wrapper : next.wrapper = system.wrapper)
      (cancelled : next.cancelled = system.cancelled)
      (emitted : next.emitted = system.emitted)
  | reacts (reaction : WrapperEvent)
      (cause :
        event = .wrapper reaction ∨
          (∀ other, event ≠ .wrapper other) ∧
            (reaction = .connectionBecameUnavailable ∨
              ∃ connection, reaction = .channelLost connection ∨
                reaction = .connectionLost connection))
      (stepped :
        system.wrapper.step config.maxConnectionAttempts reaction =
          some next.wrapper)
      (cancelled :
        next.cancelled =
          (system.wrapper.effects reaction).filterMap
              WrapperEffect.cancelledConnection ++
            system.cancelled)
      (emitted :
        next.emitted =
          ((system.wrapper.effects reaction).filterMap
              WrapperEffect.emission).map (system.wrapper.state, ·) ++
            system.emitted)

theorem Steps.wrapper
    {event : SystemEvent} (steps : Steps config system event next) :
    WrapperSteps config system event next := by
  cases steps with
  | followed permitted stepped =>
      exact .reacts _ (Or.inl rfl) stepped rfl rfl
  | executed retryOnError => exact .rests nofun rfl rfl rfl
  | invoked found received active => exact .rests nofun rfl rfl rfl
  | commandMoved found stepped settled uninvoked unheard =>
      exact .rests nofun rfl rfl rfl
  | commandHeard found caught emission stepped =>
      exact .reacts .connectionBecameUnavailable (Or.inr ⟨nofun, Or.inl rfl⟩)
        stepped rfl rfl
  | channelCommandMoved found stepped settled unheard =>
      exact .rests nofun rfl rfl rfl
  | @channelCommandHeard _ command _ reaction _ found caught listens cause stepped =>
      refine .reacts reaction (Or.inr ⟨nofun, Or.inr ⟨command.connection, ?_⟩⟩)
        stepped rfl rfl
      rcases cause with ⟨_, lost⟩ | ⟨_, lost⟩
      · exact Or.inl lost
      · exact Or.inr lost

theorem orderly_preserved (config : AmqpSystemConfig) :
    (machine config).Preserved (fun system => system.wrapper.Orderly) := by
  intro system event next orderly stepped
  cases (steps_of_step stepped).wrapper with
  | rests call wrapper cancelled emitted =>
      rw [wrapper]
      exact orderly
  | reacts reaction cause taken cancelled emitted => exact orderly.step taken

theorem orderly_create : create.wrapper.Orderly :=
  AmqpConnectionWrapper.orderly_create

/-! ## Cancelled executors -/

/-- The calls of a cancelled executor have settled, and none waits for
`resumeAll`. -/
structure Tidy (system : AmqpSystem) : Prop where
  commands :
    ∀ command ∈ system.commands,
      command.call.Tidy (system.wrapper.isCancelled = true)
  channelCommands :
    ∀ command ∈ system.channelCommands,
      command.call.Tidy (command.connection ∈ system.cancelled)

theorem tidy_create : create.Tidy :=
  ⟨nofun, nofun⟩

theorem view_cancellation
    (config : AmqpSystemConfig) (cancelled : system.wrapper.isCancelled = true) :
    (system.view config).cancellation = some .connectionClosed :=
  if_pos cancelled

theorem channelView_cancellation
    {connection : ℕ} (config : AmqpSystemConfig)
    (cancelled : connection ∈ system.cancelled) :
    (system.channelView config connection).cancellation =
      some .connectionClosed :=
  if_pos cancelled

theorem view_active
    (config : AmqpSystemConfig) (active : system.wrapper.isCancelled = false) :
    (system.view config).cancellation = none :=
  if_neg (Bool.eq_false_iff.mp active)

/-- The invocation of a command is a step of its call. -/
theorem invocation
    {connection : ℕ} {command : Command} (config : AmqpSystemConfig)
    (received : command.call.phase = .received connection)
    (active : system.wrapper.isCancelled = false) :
    ExecuteCall.Steps (system.view config) command.call .continued
      { command.call with
        phase := .running connection
        history := .invoked connection :: command.call.history } :=
  .invoked received (view_active config active)

theorem mem_after_cancelled
    {effects : List WrapperEffect} {wrapper : AmqpConnectionWrapper}
    {connection : ℕ} :
    connection ∈ (system.after effects wrapper).cancelled ↔
      .cancelChannelCommands connection ∈ effects ∨
        connection ∈ system.cancelled := by
  change
    connection ∈
        effects.filterMap WrapperEffect.cancelledConnection ++ system.cancelled ↔ _
  rw [List.mem_append, WrapperEffect.mem_cancelledConnections]

/-- A command after a step is one from before it, which has seen the effects. -/
theorem mem_after_commands
    {effects : List WrapperEffect} {wrapper : AmqpConnectionWrapper}
    {command : Command} (member : command ∈ (system.after effects wrapper).commands) :
    ∃ earlier ∈ system.commands, ∃ call : ExecuteCall ℕ,
      ExecuteCall.Reaction (effects.filterMap WrapperEffect.onCommands)
          earlier.call call ∧
        command = { earlier with call := call } := by
  obtain ⟨earlier, before, rfl⟩ := List.mem_map.mp member
  exact ⟨earlier, before, _, ExecuteCall.reaction_reactAll _ _, rfl⟩

theorem mem_after_channelCommands
    {effects : List WrapperEffect} {wrapper : AmqpConnectionWrapper}
    {command : ChannelCommand}
    (member : command ∈ (system.after effects wrapper).channelCommands) :
    ∃ earlier ∈ system.channelCommands, ∃ call : ExecuteCall ConfirmChannel,
      ExecuteCall.Reaction
          (effects.filterMap
            (WrapperEffect.onChannelCommands earlier.connection))
          earlier.call call ∧
        command = { earlier with call := call } := by
  obtain ⟨earlier, before, rfl⟩ := List.mem_map.mp member
  exact ⟨earlier, before, _, ExecuteCall.reaction_reactAll _ _, rfl⟩

theorem after_commands
    {effects : List WrapperEffect} {index : ℕ} {command : Command}
    (wrapper : AmqpConnectionWrapper)
    (found : system.commands[index]? = some command) :
    (system.after effects wrapper).commands[index]? =
      some
        { command with
          call :=
            command.call.reactAll
              (effects.filterMap WrapperEffect.onCommands) } := by
  change (system.commands.map _)[index]? = _
  rw [List.getElem?_map, found]
  rfl

theorem Tidy.after
    {event : WrapperEvent} {effects : List WrapperEffect}
    {wrapper : AmqpConnectionWrapper} (tidy : system.Tidy)
    (control : system.wrapper.ControlStep event effects wrapper) :
    (system.after effects wrapper).Tidy := by
  constructor
  · intro command member
    obtain ⟨earlier, before, call, reaction, rfl⟩ := mem_after_commands member
    refine (tidy.commands earlier before).react reaction ?_
    intro cancelled
    rw [WrapperEffect.cancelled_mem_onCommands]
    exact control.cancelled.mp cancelled
  · intro command member
    obtain ⟨earlier, before, call, reaction, rfl⟩ :=
      mem_after_channelCommands member
    refine (tidy.channelCommands earlier before).react reaction ?_
    intro cancelled
    rw [WrapperEffect.cancelled_mem_onChannelCommands]
    exact (mem_after_cancelled.mp cancelled).symm

theorem Tidy.setCommand
    {index : ℕ} {command : Command} (tidy : system.Tidy)
    (new : command.call.Tidy (system.wrapper.isCancelled = true)) :
    (system.setCommand index command).Tidy := by
  refine ⟨?_, tidy.channelCommands⟩
  intro other member
  rcases List.mem_or_eq_of_mem_set member with before | rfl
  · exact tidy.commands other before
  · exact new

theorem Tidy.setChannelCommand
    {index : ℕ} {command : ChannelCommand} (tidy : system.Tidy)
    (new : command.call.Tidy (command.connection ∈ system.cancelled)) :
    (system.setChannelCommand index command).Tidy := by
  refine ⟨tidy.commands, ?_⟩
  intro other member
  rcases List.mem_or_eq_of_mem_set member with before | rfl
  · exact tidy.channelCommands other before
  · exact new

theorem Tidy.stepCommand
    {index : ℕ} {command : Command} {event : CallEvent} {call : ExecuteCall ℕ}
    (tidy : system.Tidy) (found : system.commands[index]? = some command)
    (stepped : command.call.step (system.view config) event = some call) :
    call.Tidy (system.wrapper.isCancelled = true) := by
  refine
    (tidy.commands command (List.mem_of_getElem? found)).steps
      (ExecuteCall.steps_of_step stepped) ?_
  intro cancelled
  rw [view_cancellation config cancelled]
  exact nofun

theorem Tidy.stepChannelCommand
    {index : ℕ} {command : ChannelCommand} {event : CallEvent}
    {call : ExecuteCall ConfirmChannel}
    (tidy : system.Tidy) (found : system.channelCommands[index]? = some command)
    (stepped :
      command.call.step (system.channelView config command.connection) event =
        some call) :
    call.Tidy (command.connection ∈ system.cancelled) := by
  refine
    (tidy.channelCommands command (List.mem_of_getElem? found)).steps
      (ExecuteCall.steps_of_step stepped) ?_
  intro cancelled
  rw [channelView_cancellation config cancelled]
  exact nofun

theorem Tidy.steps
    {event : SystemEvent} (tidy : system.Tidy) (orderly : system.wrapper.Orderly)
    (steps : Steps config system event next) : next.Tidy := by
  cases steps with
  | followed permitted stepped =>
      exact tidy.after (orderly.moves_of_step _ stepped).controlStep
  | executed retryOnError =>
      refine ⟨?_, tidy.channelCommands⟩
      intro command member
      rcases List.mem_append.mp member with before | new
      · exact tidy.commands command before
      · cases List.mem_singleton.mp new
        apply ExecuteCall.tidy_execute
        intro (cancelled : system.wrapper.isCancelled = true)
        rw [view_cancellation config cancelled]
        exact nofun
  | @invoked index connection command found received active =>
      constructor
      · intro other member
        rcases List.mem_or_eq_of_mem_set member with before | rfl
        · exact tidy.commands other before
        · refine
            (tidy.commands command (List.mem_of_getElem? found)).steps
              (invocation config received active) ?_
          intro cancelled
          cases active.symm.trans cancelled
      · intro other member
        rcases List.mem_append.mp member with before | new
        · exact tidy.channelCommands other before
        · cases List.mem_singleton.mp new
          apply ExecuteCall.tidy_execute
          intro (cancelled : connection ∈ system.cancelled)
          rw [channelView_cancellation config cancelled]
          exact nofun
  | commandMoved found stepped settled uninvoked unheard =>
      exact tidy.setCommand (tidy.stepCommand found stepped)
  | commandHeard found caught emission stepped =>
      exact
        (tidy.setCommand (tidy.stepCommand found caught)).after
          (orderly.moves_of_step _ stepped).controlStep
  | channelCommandMoved found stepped settled unheard =>
      have moved := tidy.stepChannelCommand found stepped
      exact tidy.setChannelCommand moved
  | channelCommandHeard found caught listens cause stepped =>
      have moved := tidy.stepChannelCommand found caught
      exact
        (tidy.setChannelCommand moved).after
          (orderly.moves_of_step _ stepped).controlStep

theorem tidy_preserved (config : AmqpSystemConfig) :
    (machine config).Preserved
      (fun system => system.wrapper.Orderly ∧ system.Tidy) := by
  rintro system event next ⟨orderly, tidy⟩ stepped
  exact
    ⟨orderly_preserved config system event next orderly stepped,
      tidy.steps orderly (steps_of_step stepped)⟩

/-! ## A first connection -/

def defaultConfig : AmqpSystemConfig where
  maxConnectionAttempts := .ofNat 10
  commandTimeoutMs := .ofNat 30000

/-- `connect` succeeds at its first attempt. -/
def connected : List SystemEvent :=
  [.wrapper .connectCalled, .wrapper (.initializer 0 .started),
    .wrapper (.initializer 0 (.connectionSettled .fulfilled)),
    .wrapper (.initializer 0 (.channelSettled .fulfilled)),
    .wrapper (.initializer 0 .resumed), .wrapper (.initializer 0 .finished),
    .wrapper .connectResumed]

end AmqpSystem

end Amq.Core
