import Amq.Core.SystemCalls

/-!
# No command waits in vain

A command that pauses asks for a recovery, which is ignored while one is under way.
So whoever is paused must have a recovery before it that resumes or cancels it: a
`reconnect` for the commands of the wrapper, a `recreateChannel` for the calls of a
channel executor.
-/

namespace Amq.Core

open Amq.Transition

namespace AmqpConnectionWrapper

/-- `recreateChannel` of a connection that listens is under way after its loss of a
channel. -/
theorem recreating_of_channelLost
    {wrapper next : AmqpConnectionWrapper} {maxAttempts : JsNumber} {run : ℕ}
    {current : InitializerRun} (orderly : wrapper.Orderly)
    (stepped : wrapper.step maxAttempts (.channelLost run) = some next)
    (found : next.runs[run]? = some current) :
    current.connection.recreatingChannel ≠ none := by
  simp only [step] at stepped
  split at stepped
  case h_1 => cases stepped
  case h_2 before there =>
    split at stepped
    case isFalse => cases stepped
    case isTrue listens =>
      cases stepped
      have inRange := (List.getElem?_eq_some_iff.mp there).1
      rw [withConnection_of_found _ there] at found
      change (wrapper.runs.set run _)[run]? = some current at found
      rw [List.getElem?_set_self inRange] at found
      cases found
      obtain ⟨_, _, connection, _, provided⟩ :=
        (orderly.custody.records run before there).listens listens
      cases recreating : before.connection.recreatingChannel with
      | some pending =>
          rw [AmqpConnection.recreateChannel_of_pending _ recreating, recreating]
          exact Option.some_ne_none pending
      | none =>
          obtain ⟨emptied, same, _⟩ :=
            AmqpConnection.recreateChannel_of_idle wrapper.resources recreating
          rw [same]
          change before.connection.amqpChannelProvider ≠ none
          rw [provided]
          exact Option.some_ne_none connection

end AmqpConnectionWrapper

/-- A new call waits for nobody to resume it. -/
theorem ExecuteCall.execute_unregistered
    {ρ : Type} (view : ExecutorView ρ) (retryOnError : Bool) :
    (execute view retryOnError).phase ≠ .paused true := by
  have begins := execute_begins view retryOnError
  generalize execute view retryOnError = call at begins ⊢
  cases begins with
  | refused cancelled => exact nofun
  | waits active unavailable => exact nofun
  | receives active available => exact nofun

namespace AmqpSystem

variable {config : AmqpSystemConfig} {system next : AmqpSystem}

/-- Whoever is paused has a recovery before it. -/
structure Awake (system : AmqpSystem) : Prop where
  registered :
    ∀ command ∈ system.commands, command.call.phase = .paused true →
      system.wrapper.reconnecting ≠ none ∨ system.wrapper.isCancelled = true
  /-- Commands are not invoked before `connect` has registered its listeners. -/
  listening :
    ∀ command ∈ system.commands,
      (command.call.phase = .waiting ∨ command.call.phase = .ended) ∨
        system.wrapper.listens = true ∨ system.wrapper.isCancelled = true
  channel :
    ∀ command ∈ system.channelCommands, command.call.phase = .paused true →
      ∀ (current : InitializerRun),
        system.wrapper.runs[command.connection]? = some current →
          current.connection.handlesChannels = true →
            current.connection.recreatingChannel ≠ none

theorem awake_create : create.Awake := by
  refine ⟨?_, ?_, ?_⟩
  · intro command member
    cases member
  · intro command member
    cases member
  · intro command member
    cases member

theorem listens_of_container
    {wrapper : AmqpConnectionWrapper} {connection : ℕ}
    (orderly : wrapper.Orderly) (holds : wrapper.container = some connection) :
    wrapper.listens = true :=
  (orderly.online_of_container holds).listens

/-! ## Commands of the wrapper -/

/-- A step of the wrapper that ends a recovery resumes the commands, and one that
a command has asked for begins one. -/
theorem registered_after
    {event : WrapperEvent} {effects : List WrapperEffect}
    {wrapper : AmqpConnectionWrapper}
    (control : system.wrapper.ControlStep event effects wrapper)
    (before :
      event ≠ .connectionBecameUnavailable →
        ∀ command ∈ system.commands, command.call.phase = .paused true →
          system.wrapper.reconnecting ≠ none ∨ system.wrapper.isCancelled = true) :
    ∀ command ∈ (system.after effects wrapper).commands,
      command.call.phase = .paused true →
        wrapper.reconnecting ≠ none ∨ wrapper.isCancelled = true := by
  intro command member registered
  by_cases requested : event = .connectionBecameUnavailable
  · exact Or.inl (control.requested requested)
  · obtain ⟨earlier, among, call, reaction, rfl⟩ := mem_after_commands member
    obtain ⟨still, unresumed, _⟩ := reaction.registered registered
    rw [WrapperEffect.resumed_mem_onCommands] at unresumed
    rcases before requested earlier among still with recovering | cancelled
    · rcases control.recovering recovering with further | ended | resuming
      · exact Or.inl further
      · exact Or.inr ended
      · exact absurd resuming unresumed
    · exact Or.inr (control.cancelled.mpr (Or.inl cancelled))

theorem listening_after
    {event : WrapperEvent} {effects : List WrapperEffect}
    {wrapper : AmqpConnectionWrapper}
    (orderly : wrapper.Orderly)
    (control : system.wrapper.ControlStep event effects wrapper)
    (before :
      ∀ command ∈ system.commands,
        (command.call.phase = .waiting ∨ command.call.phase = .ended) ∨
          system.wrapper.listens = true ∨ system.wrapper.isCancelled = true) :
    ∀ command ∈ (system.after effects wrapper).commands,
      (command.call.phase = .waiting ∨ command.call.phase = .ended) ∨
        wrapper.listens = true ∨ wrapper.isCancelled = true := by
  intro command member
  obtain ⟨earlier, among, call, reaction, rfl⟩ := mem_after_commands member
  rcases before earlier among with parked | listens
  · rcases reaction.parked parked with same | ⟨resource, available⟩
    · rw [← same] at parked
      exact Or.inl parked
    · rw [WrapperEffect.becameAvailable_mem_onCommands] at available
      exact Or.inr
        (Or.inl
          (listens_of_container orderly
            (control.available resource available)))
  · exact Or.inr (control.listening listens)

/-! ## Calls of a channel executor -/

/-- A step of the wrapper that ends a `recreateChannel` resumes the calls of its
connection, or cancels them. -/
theorem channel_after
    {event : WrapperEvent} {effects : List WrapperEffect}
    {wrapper : AmqpConnectionWrapper} {maxAttempts : JsNumber}
    (attached : system.Attached) (orderly : system.wrapper.Orderly)
    (moves :
      AmqpConnectionWrapper.Moves maxAttempts system.wrapper event effects wrapper)
    (lost :
      ∀ (run : ℕ) (current : InitializerRun), event = .channelLost run →
        wrapper.runs[run]? = some current →
          current.connection.recreatingChannel ≠ none)
    (before :
      ∀ command ∈ system.channelCommands,
        event ≠ .channelLost command.connection →
          command.call.phase = .paused true →
            ∀ (current : InitializerRun),
              system.wrapper.runs[command.connection]? = some current →
                current.connection.handlesChannels = true →
                  current.connection.recreatingChannel ≠ none) :
    ∀ command ∈ (system.after effects wrapper).channelCommands,
      command.call.phase = .paused true →
        ∀ (current : InitializerRun),
          wrapper.runs[command.connection]? = some current →
            current.connection.handlesChannels = true →
              current.connection.recreatingChannel ≠ none := by
  intro command member registered current found listens
  obtain ⟨earlier, among, call, reaction, rfl⟩ :=
    mem_after_channelCommands member
  change wrapper.runs[earlier.connection]? = some current at found
  by_cases requested : event = .channelLost earlier.connection
  · exact lost earlier.connection current requested found
  · obtain ⟨still, unresumed, uncancelled⟩ := reaction.registered registered
    rw [WrapperEffect.resumed_mem_onChannelCommands] at unresumed
    rw [WrapperEffect.cancelled_mem_onChannelCommands] at uncancelled
    obtain ⟨previous, there, settled⟩ := attached.channelCommands earlier among
    obtain ⟨later, atLater, step⟩ := (moves.runsStep orderly).now there
    cases found.symm.trans atLater
    have listened : previous.connection.handlesChannels = true := by
      rcases step.listening listens with earlier | unsettled
      · exact earlier
      · exact absurd settled (unsettled .connection)
    have recreating :=
      before earlier among requested still previous there listened
    rcases step.recovered listened recreating with
      further | cancelling | resuming
    · exact further
    · exact absurd cancelling uncancelled
    · exact absurd resuming unresumed

/-! ## Whole runs -/

theorem Awake.after
    {event : WrapperEvent} {wrapper : AmqpConnectionWrapper}
    (awake : system.Awake) (attached : system.Attached)
    (orderly : system.wrapper.Orderly)
    (stepped :
      system.wrapper.step config.maxConnectionAttempts event = some wrapper) :
    (system.after (system.wrapper.effects event) wrapper).Awake := by
  have moves := orderly.moves_of_step _ stepped
  refine
    ⟨registered_after moves.controlStep fun _ => awake.registered,
      listening_after (orderly.moves moves) moves.controlStep awake.listening,
      channel_after attached orderly moves ?_ fun command member _ =>
        awake.channel command member⟩
  intro run current same found
  subst same
  exact AmqpConnectionWrapper.recreating_of_channelLost orderly stepped found

/-- The calls of the channel executors are untouched by a command. -/
theorem Awake.setCommand
    {index : ℕ} {command : Command} (awake : system.Awake)
    (registered :
      command.call.phase = .paused true →
        system.wrapper.reconnecting ≠ none ∨ system.wrapper.isCancelled = true)
    (listening :
      (command.call.phase = .waiting ∨ command.call.phase = .ended) ∨
        system.wrapper.listens = true ∨ system.wrapper.isCancelled = true) :
    (system.setCommand index command).Awake := by
  refine ⟨?_, ?_, awake.channel⟩
  · intro other member
    rcases List.mem_or_eq_of_mem_set member with before | rfl
    · exact awake.registered other before
    · exact registered
  · intro other member
    rcases List.mem_or_eq_of_mem_set member with before | rfl
    · exact awake.listening other before
    · exact listening

theorem Awake.listening_of_step
    {index : ℕ} {command : Command} {event : CallEvent} {call : ExecuteCall ℕ}
    (awake : system.Awake) (found : system.commands[index]? = some command)
    (stepped : command.call.step (system.view config) event = some call) :
    (call.phase = .waiting ∨ call.phase = .ended) ∨
      system.wrapper.listens = true ∨ system.wrapper.isCancelled = true := by
  rcases awake.listening command (List.mem_of_getElem? found) with parked | listens
  · rw [(ExecuteCall.steps_of_step stepped).parked parked]
    exact Or.inl parked
  · exact Or.inr listens

/-- A call of the wrapper's executor registers its callback when it emits
"connectionBecameUnavailable". -/
theorem emission_of_registered
    {command : Command} {call : ExecuteCall ℕ}
    (caught : command.call.step (system.view config) .caught = some call)
    (registered : call.phase = .paused true) :
    command.call.emission call = some .connectionBecameUnavailable ∧
      system.wrapper.isCancelled = false := by
  obtain ⟨error, before, catches⟩ := ExecuteCall.catches_of_caught caught
  generalize command.call.emission call = emission at catches ⊢
  cases catches with
  | cancelled cancellationError cancellation => cases registered
  | paused active retry unavailable =>
      refine ⟨rfl, ?_⟩
      by_contra cancelled
      rw [Bool.not_eq_false] at cancelled
      cases active.symm.trans (view_cancellation config cancelled)
  | closing active kind isClosing => cases registered
  | thrown active final => cases registered

theorem emission_of_registeredChannel
    {command : ChannelCommand} {call : ExecuteCall ConfirmChannel}
    (caught :
      command.call.step (system.channelView config command.connection) .caught =
        some call)
    (registered : call.phase = .paused true) :
    command.call.emission call = some .channelBecameUnavailable := by
  obtain ⟨error, before, catches⟩ := ExecuteCall.catches_of_caught caught
  generalize command.call.emission call = emission at catches ⊢
  cases catches with
  | cancelled cancellationError cancellation => cases registered
  | paused active retry unavailable => rfl
  | closing active kind isClosing => cases registered
  | thrown active final => cases registered

theorem Awake.steps
    {event : SystemEvent} (awake : system.Awake) (attached : system.Attached)
    (orderly : system.wrapper.Orderly)
    (steps : Steps config system event next) : next.Awake := by
  cases steps with
  | followed permitted stepped => exact awake.after attached orderly stepped
  | executed retryOnError =>
      refine ⟨?_, ?_, awake.channel⟩
      · intro command member registered
        rcases List.mem_append.mp member with before | new
        · exact awake.registered command before registered
        · cases List.mem_singleton.mp new
          exact absurd registered (ExecuteCall.execute_unregistered _ _)
      · intro command member
        rcases List.mem_append.mp member with before | new
        · exact awake.listening command before
        · cases List.mem_singleton.mp new
          have begins :=
            ExecuteCall.execute_begins (system.view config) retryOnError
          dsimp only
          generalize
            ExecuteCall.execute (system.view config) retryOnError = call
            at begins ⊢
          cases begins with
          | refused cancelled => exact Or.inl (Or.inr rfl)
          | waits active unavailable => exact Or.inl (Or.inl rfl)
          | receives active available =>
              exact Or.inr (Or.inl (listens_of_container orderly available))
  | @invoked index connection command found received active =>
      refine ⟨?_, ?_, ?_⟩
      · intro other member registered
        rcases List.mem_or_eq_of_mem_set member with before | rfl
        · exact awake.registered other before registered
        · cases registered
      · intro other member
        rcases List.mem_or_eq_of_mem_set member with before | rfl
        · exact awake.listening other before
        · rcases awake.listening command (List.mem_of_getElem? found) with
            (waiting | ended) | listens
          · cases received.symm.trans waiting
          · cases received.symm.trans ended
          · exact Or.inr listens
      · intro other member registered
        rcases List.mem_append.mp member with before | new
        · exact awake.channel other before registered
        · cases List.mem_singleton.mp new
          exact absurd registered (ExecuteCall.execute_unregistered _ _)
  | @commandMoved index command event call found stepped settled uninvoked unheard =>
      have listening := awake.listening_of_step found stepped
      refine awake.setCommand ?_ listening
      intro registered
      rcases (ExecuteCall.steps_of_step stepped).registered registered with
        before | ⟨rfl, _⟩
      · exact awake.registered command (List.mem_of_getElem? found) before
      · -- Nobody has heard the call, so the wrapper does not listen any more.
        obtain ⟨emission, active⟩ := emission_of_registered stepped registered
        rcases listening with (waiting | ended) | listens | cancelled
        · cases registered.symm.trans waiting
        · cases registered.symm.trans ended
        · exact absurd ⟨listens, active⟩ (unheard rfl emission)
        · exact Or.inr cancelled
  | @commandHeard index command call wrapper found caught emission stepped =>
      have moves := orderly.moves_of_step _ stepped
      have listening := awake.listening_of_step found caught
      refine
        ⟨registered_after moves.controlStep fun other => absurd rfl other,
          listening_after (orderly.moves moves) moves.controlStep ?_,
          channel_after (attached.setCommand orderly found caught) orderly moves
            ?_ fun other member _ => awake.channel other member⟩
      · intro other member
        rcases List.mem_or_eq_of_mem_set member with before | rfl
        · exact awake.listening other before
        · exact listening
      · intro run current impossible
        cases impossible
  | @channelCommandMoved index command event call found stepped settled unheard =>
      refine ⟨awake.registered, awake.listening, ?_⟩
      intro other member registered
      rcases List.mem_or_eq_of_mem_set member with before | rfl
      · exact awake.channel other before registered
      · rcases (ExecuteCall.steps_of_step stepped).registered registered with
          before | ⟨rfl, _⟩
        · exact awake.channel command (List.mem_of_getElem? found) before
        · intro current there listens
          have deaf := unheard rfl (emission_of_registeredChannel stepped registered)
          unfold listensTo at deaf
          change
            system.wrapper.runs[command.connection]? = some current at there
          rw [there] at deaf
          cases deaf.symm.trans listens
  | @channelCommandHeard index command call event wrapper found caught listens cause
      stepped =>
      have moves := orderly.moves_of_step _ stepped
      refine
        ⟨registered_after moves.controlStep fun _ => awake.registered,
          listening_after (orderly.moves moves) moves.controlStep
            awake.listening,
          channel_after (attached.setChannelCommand found call) orderly moves ?_
            ?_⟩
      · intro run current same there
        subst same
        exact
          AmqpConnectionWrapper.recreating_of_channelLost orderly stepped there
      · intro other member unasked registered
        rcases List.mem_or_eq_of_mem_set member with before | rfl
        · exact awake.channel other before registered
        · -- The call that registers has asked for this recovery.
          rcases (ExecuteCall.steps_of_step caught).registered registered with
            before | _
          · exact awake.channel command (List.mem_of_getElem? found) before
          · have emission := emission_of_registeredChannel caught registered
            rcases cause with ⟨_, same⟩ | ⟨other, _⟩
            · exact absurd same unasked
            · cases emission.symm.trans other

theorem awake_preserved (config : AmqpSystemConfig) :
    (machine config).Preserved
      (fun system =>
        system.wrapper.Orderly ∧ system.Attached ∧ system.Awake) := by
  rintro system event next ⟨orderly, attached, awake⟩ stepped
  have steps := steps_of_step stepped
  exact
    ⟨orderly_preserved config system event next orderly stepped,
      attached.steps orderly steps, awake.steps attached orderly steps⟩

/-- A wrapper whose `connect` has succeeded has a connection, or looks for one. -/
theorem container_of_connected
    {wrapper : AmqpConnectionWrapper} (orderly : wrapper.Orderly)
    (connected : wrapper.state = .connected)
    (ended : wrapper.connecting = none) (idle : wrapper.reconnecting = none) :
    wrapper.container ≠ none := by
  cases orderly.mode with
  | unused unused => cases unused.state.symm.trans connected
  | connecting run connecting => cases connecting.connecting.symm.trans ended
  | refused refused => cases refused.state.symm.trans connected
  | online run online =>
      rw [online.container]
      exact nofun
  | replacing replacing => cases replacing.reconnecting.symm.trans idle
  | reconnecting run reconnecting =>
      cases reconnecting.reconnecting.symm.trans idle
  | disposed disposed => cases disposed.state.symm.trans connected

/-- A connection that `connect` has established and that is not disposed of. -/
structure Established (current : InitializerRun) : Prop where
  opened : current.connection.amqplibConnection ≠ none
  connected :
    ∀ attempt connection, current.phase ≠ .creatingChannel attempt connection
  active : current.connection.isDisposed = false

/-- No paused command is left without a recovery, and where no recovery is under way
there is a connection, or a channel. -/
theorem paused_has_recovery
    (config : AmqpSystemConfig) (system : AmqpSystem)
    (reachable : (machine config).Reachable system) :
    ((∀ command ∈ system.commands, command.call.phase = .paused true →
        system.wrapper.reconnecting ≠ none ∨
          system.wrapper.isCancelled = true) ∧
      (system.wrapper.state = .connected → system.wrapper.connecting = none →
        system.wrapper.reconnecting = none →
          system.wrapper.container ≠ none)) ∧
      ∀ (run : ℕ) (current : InitializerRun),
        system.wrapper.runs[run]? = some current → Established current →
          (∀ command ∈ system.channelCommands, command.connection = run →
              command.call.phase = .paused true →
                current.connection.recreatingChannel ≠ none ∨
                  run ∈ system.cancelled) ∧
            (current.connection.recreatingChannel = none →
              system.wrapper.resources.channel ≠ none) := by
  obtain ⟨orderly, attached, awake⟩ :=
    Machine.reachable_invariant ⟨orderly_create, attached_create, awake_create⟩
      (awake_preserved config) reachable
  refine
    ⟨⟨awake.registered, container_of_connected orderly⟩, ?_⟩
  intro run current found established
  have listens : current.connection.handlesChannels = true := by
    obtain ⟨connection, owned⟩ :=
      Option.ne_none_iff_exists'.mp established.opened
    rcases
      (orderly.custody.records run current found).attached established.active
        connection owned with
      listens | ⟨attempt, creating⟩
    · exact listens
    · exact absurd creating (established.connected attempt connection)
  constructor
  · intro command member same registered
    subst same
    exact Or.inl (awake.channel command member registered current found listens)
  · intro idle
    obtain ⟨channel, holds, _⟩ :=
      orderly.custody.present run current found listens idle
    rw [holds]
    exact nofun

/-- A command fails with the connection and is paused during the reconnection. -/
def pausedByLoss : List SystemEvent :=
  connected ++
    [.execute true, .command 0 .continued, .channelCommand 0 .continued,
      .wrapper (.connectionLost 0),
      .command 0 (.commandSettled (.rejected .connectionClosed)),
      .command 0 .caught]

theorem paused_has_recovery_pausedByLoss :
    ∃ system command,
      (machine defaultConfig).run create pausedByLoss = some system ∧
        command ∈ system.commands ∧ command.call.phase = .paused true ∧
        (system.wrapper.reconnecting ≠ none ∨
          system.wrapper.isCancelled = true) :=
  ⟨_, _, rfl, List.mem_cons_self, rfl,
    (paused_has_recovery defaultConfig _ ⟨pausedByLoss, rfl⟩).1.1 _
      List.mem_cons_self rfl⟩

end AmqpSystem

end Amq.Core
