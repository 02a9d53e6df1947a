import Amq.Core.SystemSteps

/-!
# The calls of the two executors

A command of the wrapper is invoked on a connection that its run has handed out,
and makes a call of the channel executor of that connection.
-/

namespace Amq.Core

open Amq.Transition

namespace AmqpSystem

variable {config : AmqpSystemConfig} {system next : AmqpSystem}

/-! ## Which call an invocation has made -/

/-- The command that runs on a connection has made a call of the channel executor of
that connection, with its own `retryOnError`. -/
def Linked (system : AmqpSystem) : Prop :=
  ∀ command ∈ system.commands, ∀ connection : ℕ,
    command.call.phase = .running connection →
      ∃ made, system.channelCommands[command.channelCommand]? = some made ∧
        made.connection = connection ∧
          made.call.retryOnError = command.call.retryOnError

theorem linked_create : create.Linked :=
  nofun

theorem after_channelCommands
    {effects : List WrapperEffect} {index : ℕ} {command : ChannelCommand}
    (wrapper : AmqpConnectionWrapper)
    (found : system.channelCommands[index]? = some command) :
    (system.after effects wrapper).channelCommands[index]? =
      some
        { command with
          call :=
            command.call.reactAll
              (effects.filterMap
                (WrapperEffect.onChannelCommands command.connection)) } := by
  change (system.channelCommands.map _)[index]? = _
  rw [List.getElem?_map, found]
  rfl

theorem Linked.after
    (linked : system.Linked) (effects : List WrapperEffect)
    (wrapper : AmqpConnectionWrapper) : (system.after effects wrapper).Linked := by
  intro command member connection running
  obtain ⟨earlier, before, call, reaction, rfl⟩ := mem_after_commands member
  obtain ⟨made, found, same, retry⟩ :=
    linked earlier before connection (reaction.running running)
  have further :=
    ExecuteCall.reaction_reactAll made.call
      (effects.filterMap (WrapperEffect.onChannelCommands made.connection))
  exact
    ⟨_, after_channelCommands wrapper found, same,
      further.retryOnError.trans (retry.trans reaction.retryOnError.symm)⟩

theorem Linked.setCommand
    {index : ℕ} {command : Command} {event : CallEvent} {call : ExecuteCall ℕ}
    (linked : system.Linked) (found : system.commands[index]? = some command)
    (stepped : command.call.step (system.view config) event = some call)
    (uninvoked :
      ∀ connection, event = .continued → call.phase ≠ .running connection) :
    (system.setCommand index { command with call := call }).Linked := by
  have steps := ExecuteCall.steps_of_step stepped
  intro other member connection running
  rcases List.mem_or_eq_of_mem_set member with before | rfl
  · exact linked other before connection running
  · rcases steps.running running with still | ⟨continued, _⟩
    · obtain ⟨made, there, same, retry⟩ :=
        linked command (List.mem_of_getElem? found) connection still
      exact ⟨made, there, same, retry.trans steps.flags.1.symm⟩
    · exact absurd running (uninvoked connection continued)

theorem Linked.setChannelCommand
    {index : ℕ} {command : ChannelCommand} {event : CallEvent}
    {call : ExecuteCall ConfirmChannel}
    (linked : system.Linked)
    (found : system.channelCommands[index]? = some command)
    (stepped :
      command.call.step (system.channelView config command.connection) event =
        some call) :
    (system.setChannelCommand index { command with call := call }).Linked := by
  have retried := (ExecuteCall.steps_of_step stepped).flags.1
  have inRange := (List.getElem?_eq_some_iff.mp found).1
  intro other member connection running
  obtain ⟨made, there, same, retry⟩ := linked other member connection running
  by_cases here : index = other.channelCommand
  · subst here
    cases found.symm.trans there
    exact
      ⟨_, List.getElem?_set_self inRange, same, retried.trans retry⟩
  · exact ⟨made, (List.getElem?_set_ne here).trans there, same, retry⟩

theorem Linked.steps
    {event : SystemEvent} (linked : system.Linked)
    (steps : Steps config system event next) : next.Linked := by
  cases steps with
  | followed permitted stepped => exact linked.after _ _
  | executed retryOnError =>
      intro command member connection running
      rcases List.mem_append.mp member with before | new
      · exact linked command before connection running
      · cases List.mem_singleton.mp new
        have begins := ExecuteCall.execute_begins (system.view config) retryOnError
        dsimp only at running
        generalize
          ExecuteCall.execute (system.view config) retryOnError = call
          at begins running
        cases begins with
        | refused cancelled => cases running
        | waits active unavailable => cases running
        | receives active available => cases running
  | @invoked index connection command found received active =>
      intro other member running phase
      rcases List.mem_or_eq_of_mem_set member with before | rfl
      · obtain ⟨made, there, same⟩ := linked other before running phase
        refine ⟨made, ?_, same⟩
        change (system.channelCommands ++ [_])[other.channelCommand]? = some made
        rw [List.getElem?_append_left (List.getElem?_eq_some_iff.mp there).1]
        exact there
      · cases phase
        exact
          ⟨_, List.getElem?_concat_length, rfl,
            ExecuteCall.execute_retryOnError _ _⟩
  | commandMoved found stepped settled uninvoked unheard =>
      exact linked.setCommand found stepped uninvoked
  | commandHeard found caught emission stepped =>
      exact (linked.setCommand found caught nofun).after _ _
  | channelCommandMoved found stepped settled unheard =>
      exact linked.setChannelCommand found stepped
  | channelCommandHeard found caught listens cause stepped =>
      exact (linked.setChannelCommand found caught).after _ _

/-! ## Connections of calls -/

/-- Calls only get to see connections that have been handed out. -/
structure Attached (system : AmqpSystem) : Prop where
  commands :
    ∀ command ∈ system.commands, ∀ connection : ℕ,
      command.call.phase = .received connection →
        system.wrapper.HandedOut connection
  channelCommands :
    ∀ command ∈ system.channelCommands,
      system.wrapper.HandedOut command.connection

theorem attached_create : create.Attached :=
  ⟨nofun, nofun⟩

theorem handedOut_of_container
    {wrapper : AmqpConnectionWrapper} {connection : ℕ}
    (orderly : wrapper.Orderly) (holds : wrapper.container = some connection) :
    wrapper.HandedOut connection :=
  (orderly.online_of_container holds).handedOut

theorem Attached.after
    {event : WrapperEvent} {effects : List WrapperEffect}
    {wrapper : AmqpConnectionWrapper} {maxAttempts : JsNumber}
    (attached : system.Attached) (orderly : system.wrapper.Orderly)
    (moves :
      AmqpConnectionWrapper.Moves maxAttempts system.wrapper event effects
        wrapper) :
    (system.after effects wrapper).Attached := by
  have kept {connection : ℕ} (before : system.wrapper.HandedOut connection) :
      wrapper.HandedOut connection := by
    obtain ⟨current, found, settled⟩ := before
    obtain ⟨later, there, step⟩ := (moves.runsStep orderly).now found
    exact ⟨later, there, (step.settled .connection settled).1⟩
  constructor
  · intro command member connection received
    obtain ⟨earlier, before, call, reaction, rfl⟩ := mem_after_commands member
    rcases reaction.received received with still | ⟨_, available⟩
    · exact kept (attached.commands earlier before connection still)
    · rw [WrapperEffect.becameAvailable_mem_onCommands] at available
      exact handedOut_of_container (orderly.moves moves)
        (moves.controlStep.available connection available)
  · intro command member
    obtain ⟨earlier, before, call, reaction, rfl⟩ :=
      mem_after_channelCommands member
    exact kept (attached.channelCommands earlier before)

theorem Attached.setCommand
    {index : ℕ} {command : Command} {event : CallEvent} {call : ExecuteCall ℕ}
    (attached : system.Attached) (orderly : system.wrapper.Orderly)
    (found : system.commands[index]? = some command)
    (stepped : command.call.step (system.view config) event = some call) :
    (system.setCommand index { command with call := call }).Attached := by
  refine ⟨?_, attached.channelCommands⟩
  intro other member connection received
  rcases List.mem_or_eq_of_mem_set member with before | rfl
  · exact attached.commands other before connection received
  · rcases (ExecuteCall.steps_of_step stepped).received received with
      still | ⟨_, available⟩
    · exact
        attached.commands command (List.mem_of_getElem? found) connection still
    · exact handedOut_of_container orderly available

theorem Attached.setChannelCommand
    {index : ℕ} {command : ChannelCommand} (attached : system.Attached)
    (found : system.channelCommands[index]? = some command)
    (call : ExecuteCall ConfirmChannel) :
    (system.setChannelCommand index { command with call := call }).Attached := by
  refine ⟨attached.commands, ?_⟩
  intro other member
  rcases List.mem_or_eq_of_mem_set member with before | rfl
  · exact attached.channelCommands other before
  · exact attached.channelCommands command (List.mem_of_getElem? found)

theorem Attached.steps
    {event : SystemEvent} (attached : system.Attached)
    (orderly : system.wrapper.Orderly)
    (steps : Steps config system event next) : next.Attached := by
  cases steps with
  | followed permitted stepped =>
      exact attached.after orderly (orderly.moves_of_step _ stepped)
  | executed retryOnError =>
      refine ⟨?_, attached.channelCommands⟩
      intro command member connection received
      rcases List.mem_append.mp member with before | new
      · exact attached.commands command before connection received
      · cases List.mem_singleton.mp new
        exact handedOut_of_container orderly
          (ExecuteCall.available_of_execute received)
  | @invoked index connection command found received active =>
      have handedOut :=
        attached.commands command (List.mem_of_getElem? found) connection received
      constructor
      · intro other member resource phase
        rcases List.mem_or_eq_of_mem_set member with before | rfl
        · exact attached.commands other before resource phase
        · cases phase
      · intro other member
        rcases List.mem_append.mp member with before | new
        · exact attached.channelCommands other before
        · cases List.mem_singleton.mp new
          exact handedOut
  | commandMoved found stepped settled uninvoked unheard =>
      exact attached.setCommand orderly found stepped
  | commandHeard found caught emission stepped =>
      exact
        (attached.setCommand orderly found caught).after orderly
          (orderly.moves_of_step _ stepped)
  | channelCommandMoved found stepped settled unheard =>
      exact attached.setChannelCommand found _
  | channelCommandHeard found caught listens cause stepped =>
      exact
        (attached.setChannelCommand found _).after orderly
          (orderly.moves_of_step _ stepped)

end AmqpSystem

end Amq.Core
