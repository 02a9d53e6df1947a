import Amq.Core.AmqpConnection
import Amq.Core.ExecuteCall
import Amq.Transition.Machine

/-!
# Commands that belong to one channel

Delivery tags and consumer tags are only valid on the channel they came from.
`acknowledge`, `negativeAcknowledge` and `cancelConsumption` are therefore run
without retries, through the executor of the wrapper and, on the connection it
hands out, through the executor of that connection.  Each of the two first waits
for its resource.

The schedule moves the connection and the channel in and out of their containers
in any order.  Whoever takes a channel out of the container closes it, and the
methods of a closed channel throw.
-/

namespace Amq.Core

open Amq.Transition

inductive ChannelScopedCommand where
  | acknowledge (deliveryTag : ℕ)
  | negativeAcknowledge (deliveryTag : ℕ)
  | cancelConsumption (consumerTag : String)
  deriving DecidableEq, Repr

/-- What all calls share. -/
structure ChannelScope where
  commandTimeoutMs : JsNumber
  /-- The content of the wrapper's `AmqpConnectionContainer`. -/
  connection : Option ℕ
  /-- The content of the `AmqpChannelContainer`. -/
  channel : Option ConfirmChannel
  /-- The wrapper has been disposed of. -/
  isDisposed : Bool
  disposedConnections : List ℕ
  closedChannels : List ConfirmChannel
  deriving DecidableEq

/-- An operation that a channel has carried out. -/
structure IssuedOperation where
  channel : ConfirmChannel
  /-- The content of the container at that time. -/
  current : Option ConfirmChannel
  deriving DecidableEq, Repr

structure ChannelScopedCall where
  command : ChannelScopedCommand
  /-- The channel that was current when the method was called. -/
  currentChannel : Option ConfirmChannel
  /-- In the executor of the wrapper. -/
  outer : ExecuteCall ℕ
  /-- In the executor of a connection, with that connection. -/
  inner : Option (ℕ × ExecuteCall ConfirmChannel)
  issued : List IssuedOperation
  deriving DecidableEq

structure ChannelScopedCalls where
  scope : ChannelScope
  calls : List ChannelScopedCall
  deriving DecidableEq

inductive ScopeEvent where
  | connectionSet (connection : Option ℕ)
  | channelCreated (channel : ConfirmChannel)
  /-- `recreateChannel`, up to its await. -/
  | channelLost
  /-- `dispose` of a connection. -/
  | connectionDisposed (connection : ℕ)
  /-- `dispose` of the wrapper. -/
  | disposed
  deriving DecidableEq, Repr

inductive ChannelScopedEvent where
  | called (command : ChannelScopedCommand)
  | outer (call : ℕ) (event : CallEvent)
  | inner (call : ℕ) (event : CallEvent)
  /-- The method of the connection has settled with its inner call. -/
  | innerSettled (call : ℕ)
  | scope (event : ScopeEvent)
  deriving DecidableEq

/-- What the promise of a call has settled with. -/
def ExecuteCall.result {ρ : Type} (call : ExecuteCall ρ) :
    Option CommandResult :=
  call.history.findSome? fun
    | .settled result => some result
    | _ => none

namespace ChannelScope

def outerView (scope : ChannelScope) : ExecutorView ℕ where
  kind := .connection
  commandTimeoutMs := scope.commandTimeoutMs
  cancellation := if scope.isDisposed then some .connectionClosed else none
  available := scope.connection

def innerView (scope : ChannelScope) (connection : ℕ) :
    ExecutorView ConfirmChannel where
  kind := .channel
  commandTimeoutMs := scope.commandTimeoutMs
  cancellation :=
    if connection ∈ scope.disposedConnections then some .connectionClosed
    else none
  available := scope.channel

/-- The channel of the connection that the wrapper uses. -/
def currentChannel (scope : ChannelScope) : Option ConfirmChannel :=
  match scope.connection with
  | none => none
  | some _ => scope.channel

/-- The channel is taken out of the container and closed. -/
def dropChannel (scope : ChannelScope) : ChannelScope :=
  match scope.channel with
  | none => scope
  | some channel =>
      { scope with
        channel := none
        closedChannels := channel :: scope.closedChannels }

def after (scope : ChannelScope) : ScopeEvent → ChannelScope
  | .connectionSet connection => { scope with connection := connection }
  | .channelCreated channel => { scope with channel := some channel }
  | .channelLost => scope.dropChannel
  | .connectionDisposed connection =>
      if connection ∈ scope.disposedConnections then
        scope
      else
        { scope.dropChannel with
          disposedConnections := connection :: scope.disposedConnections }
  | .disposed => { scope with isDisposed := true }

end ChannelScope

namespace ChannelScopedCall

/-- A method of the wrapper, up to its await. -/
def start (scope : ChannelScope) (command : ChannelScopedCommand) :
    ChannelScopedCall where
  command := command
  currentChannel := scope.currentChannel
  outer := .execute scope.outerView false
  inner := none
  issued := []

/-- An event of the outer call; once it has got its connection, it makes the
inner call there. -/
def outerStep
    (scope : ChannelScope) (call : ChannelScopedCall) (event : CallEvent) :
    Option ChannelScopedCall :=
  match event with
  | .commandSettled _ => none
  | .continued =>
      (call.outer.step scope.outerView .continued).map fun outer =>
        match outer.phase with
        | .running connection =>
            { call with
              outer := outer
              inner :=
                some (connection, .execute (scope.innerView connection) false) }
        | _ => { call with outer := outer }
  | event =>
      (call.outer.step scope.outerView event).map fun outer =>
        { call with outer := outer }

/-- An event of the inner call; once it has got its channel, it issues the
operation there. -/
def innerStep
    (scope : ChannelScope) (call : ChannelScopedCall) (event : CallEvent) :
    Option ChannelScopedCall :=
  match call.inner with
  | none => none
  | some (connection, inner) =>
      match event with
      | .continued =>
          (inner.step (scope.innerView connection) .continued).map fun inner =>
            { call with
              inner := some (connection, inner)
              issued :=
                match inner.phase with
                | .running channel =>
                    if channel ∈ scope.closedChannels then
                      call.issued
                    else
                      ⟨channel, scope.channel⟩ :: call.issued
                | _ => call.issued }
      | .commandSettled .fulfilled =>
          if call.issued = [] then
            none
          else
            (inner.step (scope.innerView connection)
              (.commandSettled .fulfilled)).map fun inner =>
                { call with inner := some (connection, inner) }
      | event =>
          (inner.step (scope.innerView connection) event).map fun inner =>
            { call with inner := some (connection, inner) }

/-- The outer call sees that the inner one has settled. -/
def innerSettled (scope : ChannelScope) (call : ChannelScopedCall) :
    Option ChannelScopedCall :=
  match call.inner with
  | none => none
  | some (_, inner) =>
      inner.result.bind fun result =>
        (call.outer.step scope.outerView (.commandSettled result)).map
          fun outer => { call with outer := outer }

/-- The callbacks that a change of the scope calls. -/
def after (call : ChannelScopedCall) : ScopeEvent → ChannelScopedCall
  | .connectionSet none => call
  | .connectionSet (some connection) =>
      { call with outer := call.outer.becameAvailable connection }
  | .channelCreated channel =>
      { call with
        inner :=
          call.inner.map fun (connection, inner) =>
            (connection, inner.becameAvailable channel) }
  | .channelLost => call
  | .connectionDisposed disposed =>
      { call with
        inner :=
          call.inner.map fun (connection, inner) =>
            (connection,
              if connection = disposed then inner.cancel .connectionClosed
              else inner) }
  | .disposed => { call with outer := call.outer.cancel .connectionClosed }

end ChannelScopedCall

namespace ChannelScopedCalls

def create (commandTimeoutMs : JsNumber) : ChannelScopedCalls where
  scope :=
    { commandTimeoutMs := commandTimeoutMs
      connection := none
      channel := none
      isDisposed := false
      disposedConnections := []
      closedChannels := [] }
  calls := []

/-- One call goes on. -/
def updateCall
    (state : ChannelScopedCalls) (index : ℕ)
    (operation : ChannelScopedCall → Option ChannelScopedCall) :
    Option ChannelScopedCalls :=
  match state.calls[index]? with
  | none => none
  | some call =>
      (operation call).map fun call =>
        { state with calls := state.calls.set index call }

def step (state : ChannelScopedCalls) :
    ChannelScopedEvent → Option ChannelScopedCalls
  | .called command =>
      some
        { state with
          calls := state.calls ++ [ChannelScopedCall.start state.scope command] }
  | .outer index event =>
      state.updateCall index fun call => call.outerStep state.scope event
  | .inner index event =>
      state.updateCall index fun call => call.innerStep state.scope event
  | .innerSettled index =>
      state.updateCall index fun call => call.innerSettled state.scope
  | .scope event =>
      some
        { scope := state.scope.after event
          calls := state.calls.map fun call => call.after event }

def machine (commandTimeoutMs : JsNumber) :
    Machine ChannelScopedCalls ChannelScopedEvent where
  initial := create commandTimeoutMs
  step := step

end ChannelScopedCalls

end Amq.Core
