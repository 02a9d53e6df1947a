import Amq.Core.AmqpConnectionWrapper
import Amq.Core.CallEffects
import Amq.Transition.Refinement

/-!
# The wrapper with its commands

A command of the wrapper is a call of its executor.  When it is invoked on a
connection, it makes a call of the channel executor of that connection, and all
channel executors share one container.  Calls fail with the connections, and what
a failing call emits makes the wrapper replace a channel or a connection.

The wrapper takes the steps of its own machine.  What a step does to the calls is
listed in the order of the source: `WrapperEffect` names the calls of the two
executors, of their containers and of the emitter.
-/

namespace Amq.Core

open Amq.Transition

/-- The events that the wrapper emits to its user; "error" and "return" are left
out. -/
inductive WrapperEmission where
  | reconnected
  | channelRecreated
  | closed
  deriving DecidableEq, Repr

inductive WrapperEffect where
  /-- `amqpConnectionExecutor.cancelAll(new ConnectionClosedError())`. -/
  | cancelCommands
  /-- `amqpConnectionContainer.set(connection)`. -/
  | connectionAvailable (connection : ℕ)
  /-- `amqpConnectionExecutor.resumeAll()`. -/
  | resumeCommands
  /-- `amqpChannelExecutor.cancelAll(new ConnectionClosedError())`. -/
  | cancelChannelCommands (connection : ℕ)
  /-- `amqpChannelContainer.set(channel)`. -/
  | channelAvailable (channel : ConfirmChannel)
  /-- `amqpChannelExecutor.resumeAll()`. -/
  | resumeChannelCommands (connection : ℕ)
  | emitted (emission : WrapperEmission)
  deriving DecidableEq, Repr

/-- A call of the wrapper's executor. -/
structure Command where
  call : ExecuteCall ℕ
  /-- The call that its latest invocation has made. -/
  channelCommand : ℕ
  deriving DecidableEq

/-- A call of the channel executor of a connection. -/
structure ChannelCommand where
  connection : ℕ
  call : ExecuteCall ConfirmChannel
  deriving DecidableEq

/-- The options of the wrapper. -/
structure AmqpSystemConfig where
  maxConnectionAttempts : JsNumber
  commandTimeoutMs : JsNumber

structure AmqpSystem where
  wrapper : AmqpConnectionWrapper
  commands : List Command
  channelCommands : List ChannelCommand
  /-- The connections whose channel executor has been cancelled. -/
  cancelled : List ℕ
  /-- The events that the wrapper has emitted and its state at that time, the
  latest first. -/
  emitted : List (AmqpConnectionState × WrapperEmission)
  deriving DecidableEq

inductive SystemEvent where
  | wrapper (event : WrapperEvent)
  | execute (retryOnError : Bool)
  | command (index : ℕ) (event : CallEvent)
  | channelCommand (index : ℕ) (event : CallEvent)
  deriving DecidableEq

/-! ## What a step of the wrapper does to the calls -/

namespace AmqpConnectionWrapper

/-- `dispose` of a connection; it does nothing to one that is disposed of. -/
def disposalEffects (wrapper : AmqpConnectionWrapper) (run : ℕ) :
    List WrapperEffect :=
  match wrapper.runs[run]? with
  | none => []
  | some current =>
      if current.connection.isDisposed then [] else [.cancelChannelCommands run]

/-- `dispose`. -/
def disposeEffects (wrapper : AmqpConnectionWrapper) : List WrapperEffect :=
  match wrapper.state with
  | .ready => []
  | .disposed => []
  | .connected =>
      match wrapper.container with
      | none => [.cancelCommands]
      | some run => .cancelCommands :: wrapper.disposalEffects run

/-- `reconnect`, up to its first await. -/
def reconnectEffects (wrapper : AmqpConnectionWrapper) : List WrapperEffect :=
  match wrapper.reconnecting with
  | some _ => []
  | none =>
      match wrapper.container with
      | none => []
      | some old => wrapper.disposalEffects old

/-- A connection emits "closed". -/
def closedEffects (wrapper : AmqpConnectionWrapper) (run : ℕ) :
    List WrapperEffect :=
  if wrapper.container = some run ∧ wrapper.listens = true then
    wrapper.reconnectEffects
  else
    []

/-- `handleConnectionClose` and `handleConnectionClosing` of a connection, and
the end of a `recreateChannel` that has failed. -/
def connectionLostEffects (wrapper : AmqpConnectionWrapper) (run : ℕ) :
    List WrapperEffect :=
  wrapper.closedEffects run ++ (wrapper.emitClosed run).disposalEffects run

/-- `connect` after the initializer's promise has settled. -/
def connectResumedEffects
    (wrapper : AmqpConnectionWrapper) (run : ℕ) :
    InitializerResult → List WrapperEffect
  | .rejected _ => []
  | .cancelled => []
  | .connection =>
      if wrapper.state = .disposed then wrapper.disposalEffects run
      else [.connectionAvailable run]

/-- `reconnect` after the initializer's promise has settled. -/
def reconnectResumedEffects
    (wrapper : AmqpConnectionWrapper) (run : ℕ) :
    InitializerResult → List WrapperEffect
  | .rejected _ =>
      if wrapper.state = .disposed then []
      else .emitted .closed :: wrapper.disposeEffects
  | .cancelled => [.resumeCommands, .emitted .reconnected]
  | .connection =>
      if wrapper.state = .disposed then wrapper.disposalEffects run
      else
        [.connectionAvailable run, .resumeCommands, .emitted .reconnected]

/-- `connect` of a connection stores its first channel unless the connection has
been disposed of. -/
def initializerEffects
    (wrapper : AmqpConnectionWrapper) (run : ℕ) (event : InitializerEvent) :
    List WrapperEffect :=
  match wrapper.runs[run]? with
  | none => []
  | some current =>
      match current.phase, event with
      | .creatingChannel _ amqplibConnection, .channelSettled .fulfilled =>
          if current.connection.isDisposed then []
          else
            [.channelAvailable ⟨amqplibConnection, wrapper.resources.created⟩]
      | _, _ => []

/-- `recreateChannel` of a connection after the creation has settled. -/
def channelRecreationEffects
    (wrapper : AmqpConnectionWrapper) (run : ℕ) (settlement : Settlement) :
    List WrapperEffect :=
  match wrapper.runs[run]? with
  | none => []
  | some current =>
      if current.connection.isDisposed then
        []
      else
        match settlement with
        | .fulfilled =>
            match current.connection.recreatingChannel with
            | none => []
            | some amqplibConnection =>
                [.channelAvailable
                    ⟨amqplibConnection, wrapper.resources.created⟩,
                  .resumeChannelCommands run] ++
                  if wrapper.container = some run ∧ wrapper.listens = true then
                    [.emitted .channelRecreated]
                  else
                    []
        | .rejected =>
            let ended :=
              wrapper.withConnection run fun connection resources =>
                ({ connection with recreatingChannel := none }, resources)
            ended.connectionLostEffects run

def effects (wrapper : AmqpConnectionWrapper) : WrapperEvent → List WrapperEffect
  | .connectCalled => []
  | .disposeCalled => wrapper.disposeEffects
  | .initializer run event => wrapper.initializerEffects run event
  | .connectResumed =>
      match wrapper.connecting with
      | none => []
      | some run =>
          (wrapper.settledResult run).elim [] fun result =>
            wrapper.connectResumedEffects run result
  | .oldConnectionDisposed => []
  | .reconnectResumed =>
      match wrapper.reconnecting with
      | some (.awaiting run) =>
          (wrapper.settledResult run).elim [] fun result =>
            wrapper.reconnectResumedEffects run result
      | _ => []
  | .reconnectFinished => []
  | .connectionLost run => wrapper.connectionLostEffects run
  | .channelLost _ => []
  | .channelRecreationSettled run settlement =>
      wrapper.channelRecreationEffects run settlement
  | .connectionBecameUnavailable => wrapper.reconnectEffects

end AmqpConnectionWrapper

namespace WrapperEffect

/-- What an effect does to the calls of the wrapper's executor. -/
def onCommands : WrapperEffect → Option (CallEffect ℕ)
  | .cancelCommands => some .cancelled
  | .connectionAvailable connection => some (.becameAvailable connection)
  | .resumeCommands => some .resumed
  | _ => none

/-- What an effect does to the calls of the channel executor of `connection`. -/
def onChannelCommands (connection : ℕ) :
    WrapperEffect → Option (CallEffect ConfirmChannel)
  | .cancelChannelCommands other =>
      if other = connection then some .cancelled else none
  | .channelAvailable channel => some (.becameAvailable channel)
  | .resumeChannelCommands other =>
      if other = connection then some .resumed else none
  | _ => none

/-- The connection whose channel executor the effect cancels. -/
def cancelledConnection : WrapperEffect → Option ℕ
  | .cancelChannelCommands connection => some connection
  | _ => none

def emission : WrapperEffect → Option WrapperEmission
  | .emitted emission => some emission
  | _ => none

end WrapperEffect

/-- The event which the `catch` clause of a call has emitted last, if it has
emitted one on the way from `before` to `after`. -/
def ExecuteCall.emission {ρ : Type} (before after : ExecuteCall ρ) :
    Option ExecutorEmission :=
  if before.history.length < after.history.length then
    match after.history with
    | .emitted emission :: _ => some emission
    | _ => none
  else
    none

namespace AmqpSystem

def create : AmqpSystem where
  wrapper := .create
  commands := []
  channelCommands := []
  cancelled := []
  emitted := []

/-- What a call reads of the wrapper's executor. -/
def view (config : AmqpSystemConfig) (system : AmqpSystem) : ExecutorView ℕ where
  kind := .connection
  commandTimeoutMs := config.commandTimeoutMs
  cancellation :=
    if system.wrapper.isCancelled then some .connectionClosed else none
  available := system.wrapper.container

/-- What a call reads of the channel executor of a connection. -/
def channelView
    (config : AmqpSystemConfig) (system : AmqpSystem) (connection : ℕ) :
    ExecutorView ConfirmChannel where
  kind := .channel
  commandTimeoutMs := config.commandTimeoutMs
  cancellation :=
    if connection ∈ system.cancelled then some .connectionClosed else none
  available := system.wrapper.resources.channel

/-- The wrapper takes a step, and the calls see its effects. -/
def follow
    (config : AmqpSystemConfig) (system : AmqpSystem) (event : WrapperEvent) :
    Option AmqpSystem :=
  (system.wrapper.step config.maxConnectionAttempts event).map fun wrapper =>
    let effects := system.wrapper.effects event
    { wrapper := wrapper
      commands :=
        system.commands.map fun command =>
          { command with
            call :=
              command.call.reactAll
                (effects.filterMap WrapperEffect.onCommands) }
      channelCommands :=
        system.channelCommands.map fun command =>
          { command with
            call :=
              command.call.reactAll
                (effects.filterMap
                  (WrapperEffect.onChannelCommands command.connection)) }
      cancelled :=
        effects.filterMap WrapperEffect.cancelledConnection ++ system.cancelled
      emitted :=
        (effects.filterMap WrapperEffect.emission).map
            (system.wrapper.state, ·) ++
          system.emitted }

/-- An executor emits an event; without a listener nothing happens. -/
def handle
    (config : AmqpSystemConfig) (system : AmqpSystem) (event : WrapperEvent) :
    AmqpSystem :=
  (system.follow config event).getD system

/-- The listeners of `connect` of a connection are registered on its channel
executor. -/
def listensTo (system : AmqpSystem) (connection : ℕ) : Bool :=
  (system.wrapper.runs[connection]?).any (·.connection.handlesChannels)

/-- The promise of a call of a channel executor has settled with `result`. -/
def settledWith (system : AmqpSystem) (index : ℕ) (result : CommandResult) :
    Bool :=
  (system.channelCommands[index]?).any (.settled result ∈ ·.call.history)

/-- A reaction of the command to a promise that has settled is pending. -/
def isReacting (system : AmqpSystem) (command : Command) : Bool :=
  match command.call.phase with
  | .received _ => true
  | .running _ =>
      (system.channelCommands[command.channelCommand]?).any (·.call.isSettled)
  | .failed _ => true
  | .resumed => true
  | .throwing _ => true
  | _ => false

def setCommand (system : AmqpSystem) (index : ℕ) (command : Command) :
    AmqpSystem :=
  { system with commands := system.commands.set index command }

def setChannelCommand
    (system : AmqpSystem) (index : ℕ) (command : ChannelCommand) : AmqpSystem :=
  { system with channelCommands := system.channelCommands.set index command }

/-- `execute` of the wrapper's executor. -/
def execute
    (config : AmqpSystemConfig) (system : AmqpSystem) (retryOnError : Bool) :
    AmqpSystem :=
  { system with
    commands :=
      system.commands ++
        [⟨ExecuteCall.execute (system.view config) retryOnError, 0⟩] }

/-- The command is invoked: the method of the connection calls `execute` of its
channel executor, with the same `retryOnError`. -/
def invoke
    (config : AmqpSystemConfig) (system : AmqpSystem) (index connection : ℕ)
    (call : ExecuteCall ℕ) : AmqpSystem :=
  { system with
    commands :=
      system.commands.set index ⟨call, system.channelCommands.length⟩
    channelCommands :=
      system.channelCommands ++
        [⟨connection,
          ExecuteCall.execute (system.channelView config connection)
            call.retryOnError⟩] }

/-- One call of the wrapper's executor goes on. -/
def stepCommand
    (config : AmqpSystemConfig) (system : AmqpSystem)
    (index : ℕ) (event : CallEvent) : Option AmqpSystem :=
  match system.commands[index]? with
  | none => none
  | some command =>
      match command.call.step (system.view config) event with
      | none => none
      | some call =>
          let next := system.setCommand index { command with call := call }
          match event with
          | .continued =>
              match call.phase with
              | .running connection =>
                  some (system.invoke config index connection call)
              | _ => some next
          | .commandSettled result =>
              -- It settles like the call that the invocation has made.
              if system.settledWith command.channelCommand result then some next
              else none
          | .caught =>
              match command.call.emission call with
              | some .connectionBecameUnavailable =>
                  some (next.handle config .connectionBecameUnavailable)
              | _ => some next
          | _ => some next

/-- amqplib resolves a command, or rejects it with an error. -/
def CommandResult.isOfAmqplib : CommandResult → Bool
  | .fulfilled => true
  | .rejected (.amqplib _) => true
  | _ => false

/-- One call of a channel executor goes on. -/
def stepChannelCommand
    (config : AmqpSystemConfig) (system : AmqpSystem)
    (index : ℕ) (event : CallEvent) : Option AmqpSystem :=
  match system.channelCommands[index]? with
  | none => none
  | some command =>
      match
        command.call.step (system.channelView config command.connection) event
      with
      | none => none
      | some call =>
          let next := system.setChannelCommand index { command with call := call }
          match event with
          | .commandSettled result =>
              if CommandResult.isOfAmqplib result then some next else none
          | .caught =>
              if system.listensTo command.connection then
                match command.call.emission call with
                | some .channelBecameUnavailable =>
                    some (next.handle config (.channelLost command.connection))
                | some .connectionClosing =>
                    some
                      (next.handle config (.connectionLost command.connection))
                | _ => some next
              else
                some next
          | _ => some next

/-- Executors emit their events in their own steps, and "close" of an amqplib
connection needs its listener. -/
def permits (system : AmqpSystem) : WrapperEvent → Bool
  | .connectionLost run =>
      (system.wrapper.runs[run]?).any (·.connection.handledConnection.isSome)
  | .connectionBecameUnavailable => false
  | _ => true

def step (config : AmqpSystemConfig) (system : AmqpSystem) :
    SystemEvent → Option AmqpSystem
  | .wrapper event =>
      if system.permits event then system.follow config event else none
  | .execute retryOnError => some (system.execute config retryOnError)
  | .command index event => system.stepCommand config index event
  | .channelCommand index event => system.stepChannelCommand config index event

def machine (config : AmqpSystemConfig) : Machine AmqpSystem SystemEvent where
  initial := create
  step := step config

/-- The reactions to promises run before the event loop turns to the network, so no
reaction of a command to a settled promise is pending when the network opens a
connection.  All other events come in any order. -/
def inTurn (system : AmqpSystem) : SystemEvent → Bool
  | .wrapper (.initializer _ (.connectionSettled .fulfilled)) =>
      system.commands.all fun command => !system.isReacting command
  | _ => true

/-- The system on an event loop. -/
def eventLoop (config : AmqpSystemConfig) : Machine AmqpSystem SystemEvent where
  initial := create
  step := fun system event =>
    if system.inTurn event then system.step config event else none

end AmqpSystem

end Amq.Core
