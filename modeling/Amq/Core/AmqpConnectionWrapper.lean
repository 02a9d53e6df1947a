import Amq.Core.AmqpConnectionInitializer

/-!
# The connection wrapper

The wrapper connects, reconnects after a loss and is disposed of, each by an
asynchronous call whose segments interleave with the runs of its initializer and
with the events of the connections.  A connection is known by the number of the
run that created it.

Commands, and the events that the wrapper passes on to its user, have their own
modules or do not influence who owns a connection.
-/

namespace Amq.Core

open Amq.Transition

inductive AmqpConnectionState where
  | ready
  | connected
  | disposed
  deriving DecidableEq, Repr

/-- Where `reconnect` waits; `isReconnecting` holds as long as it does. -/
inductive ReconnectPhase where
  /-- For `oldConnection.dispose()`. -/
  | disposingOld
  /-- For the promise of a run of the initializer. -/
  | awaiting (run : ℕ)
  /-- For the last `dispose()`. -/
  | finishing
  deriving DecidableEq, Repr

structure AmqpConnectionWrapper where
  state : AmqpConnectionState
  /-- The content of the `AmqpConnectionContainer`. -/
  container : Option ℕ
  /-- The handlers of `connect` are registered on the container and on the
  executor. -/
  listens : Bool
  /-- `isCancelled` of the `AmqpConnectionExecutor`. -/
  isCancelled : Bool
  /-- `connectionPromise` of the initializer, by its run. -/
  connectionPromise : Option ℕ
  runs : List InitializerRun
  /-- The run whose promise `connect` awaits. -/
  connecting : Option ℕ
  reconnecting : Option ReconnectPhase
  resources : AmqpResources
  deriving DecidableEq, Repr

inductive WrapperEvent where
  | connectCalled
  | disposeCalled
  | initializer (run : ℕ) (event : InitializerEvent)
  /-- `connect` sees that the promise of its run has settled. -/
  | connectResumed
  | oldConnectionDisposed
  /-- `reconnect` sees that the promise of its run has settled. -/
  | reconnectResumed
  | reconnectFinished
  /-- `handleConnectionClose` or `handleConnectionClosing` of a connection. -/
  | connectionLost (run : ℕ)
  /-- `handleChannelClose` or `handleChannelBecameUnavailable`. -/
  | channelLost (run : ℕ)
  | channelRecreationSettled (run : ℕ) (settlement : Settlement)
  | connectionBecameUnavailable
  deriving DecidableEq, Repr

namespace AmqpConnectionWrapper

def create : AmqpConnectionWrapper where
  state := .ready
  container := none
  listens := false
  isCancelled := false
  connectionPromise := none
  runs := []
  connecting := none
  reconnecting := none
  resources := InitializerRun.unusedResources

/-- Apply an operation to the connection of a run. -/
def withConnection
    (wrapper : AmqpConnectionWrapper) (run : ℕ)
    (operation :
      AmqpConnection → AmqpResources → AmqpConnection × AmqpResources) :
    AmqpConnectionWrapper :=
  match wrapper.runs[run]? with
  | none => wrapper
  | some current =>
      let (connection, resources) :=
        operation current.connection wrapper.resources
      { wrapper with
        runs := wrapper.runs.set run { current with connection := connection }
        resources := resources }

def disposeConnection (wrapper : AmqpConnectionWrapper) (run : ℕ) :
    AmqpConnectionWrapper :=
  wrapper.withConnection run AmqpConnection.dispose

/-- `amqpConnectionInitializer.initializeConnection()`: the wrapper, and the run
whose promise the caller gets. -/
def initializeConnection (wrapper : AmqpConnectionWrapper) :
    AmqpConnectionWrapper × ℕ :=
  match wrapper.connectionPromise with
  | some promise => (wrapper, promise)
  | none =>
      ({ wrapper with
          connectionPromise := some wrapper.runs.length
          runs := wrapper.runs ++ [.create] },
        wrapper.runs.length)

/-- `connect`, up to its await; in another state it throws. -/
def connect (wrapper : AmqpConnectionWrapper) : AmqpConnectionWrapper :=
  match wrapper.state with
  | .connected => wrapper
  | .disposed => wrapper
  | .ready =>
      let (wrapper, run) :=
        { wrapper with state := .connected }.initializeConnection
      { wrapper with connecting := some run }

/-- `dispose`, up to its await. -/
def dispose (wrapper : AmqpConnectionWrapper) : AmqpConnectionWrapper :=
  match wrapper.state with
  | .ready => wrapper
  | .disposed => wrapper
  | .connected =>
      let disposed :=
        { wrapper with
          state := .disposed
          isCancelled := true
          listens := false
          container := none
          connectionPromise := none }
      match wrapper.container with
      | none => disposed
      | some run => disposed.disposeConnection run

/-- `reconnect` from the call of `initializeConnection` up to its await. -/
def awaitConnection (wrapper : AmqpConnectionWrapper) : AmqpConnectionWrapper :=
  let (wrapper, run) := wrapper.initializeConnection
  { wrapper with reconnecting := some (.awaiting run) }

/-- `reconnect`, up to its first await. -/
def reconnect (wrapper : AmqpConnectionWrapper) : AmqpConnectionWrapper :=
  match wrapper.reconnecting with
  | some _ => wrapper
  | none =>
      match wrapper.container with
      | none => wrapper.awaitConnection
      | some old =>
          { wrapper with
            container := none
            reconnecting := some .disposingOld }.disposeConnection old

/-- A connection emits "closed", which the container passes on while it holds
the connection. -/
def emitClosed (wrapper : AmqpConnectionWrapper) (run : ℕ) :
    AmqpConnectionWrapper :=
  if wrapper.container = some run ∧ wrapper.listens = true then
    wrapper.reconnect
  else
    wrapper

/-- `connect` after the initializer's promise has settled. -/
def connectResumed
    (wrapper : AmqpConnectionWrapper) (run : ℕ) (result : InitializerResult) :
    AmqpConnectionWrapper :=
  let wrapper := { wrapper with connecting := none }
  match result with
  | .rejected _ => { wrapper with state := .disposed }
  | .cancelled => { wrapper with container := none, listens := true }
  | .connection =>
      if wrapper.state = .disposed then
        wrapper.disposeConnection run
      else
        { wrapper with container := some run, listens := true }

/-- `reconnect` after the initializer's promise has settled. -/
def reconnectResumed
    (wrapper : AmqpConnectionWrapper) (run : ℕ) (result : InitializerResult) :
    AmqpConnectionWrapper :=
  match result with
  | .rejected _ =>
      if wrapper.state = .disposed then
        { wrapper with reconnecting := none }
      else
        { wrapper with reconnecting := some .finishing }.dispose
  | .cancelled => { wrapper with container := none, reconnecting := none }
  | .connection =>
      if wrapper.state = .disposed then
        { wrapper with reconnecting := some .finishing }.disposeConnection run
      else
        { wrapper with container := some run, reconnecting := none }

/-- How the promise of a run has settled. -/
def settledResult (wrapper : AmqpConnectionWrapper) (run : ℕ) :
    Option InitializerResult :=
  match wrapper.runs[run]? with
  | some ⟨.settled result, _⟩ => some result
  | _ => none

/-- One event of a run of the initializer; its `finally` callback clears the
promise, whichever run that belongs to. -/
def initializerStep
    (maxAttempts : JsNumber) (wrapper : AmqpConnectionWrapper)
    (run : ℕ) (event : InitializerEvent) : Option AmqpConnectionWrapper :=
  match wrapper.runs[run]? with
  | none => none
  | some current =>
      match current.step maxAttempts (wrapper.connectionPromise == some run)
          wrapper.resources event with
      | none => none
      | some (next, resources) =>
          some
            { wrapper with
              runs := wrapper.runs.set run next
              resources := resources
              connectionPromise :=
                if event = .finished then none else wrapper.connectionPromise }

/-- `recreateChannel` of a connection after the creation has failed. -/
def channelRecreationFailed
    (wrapper : AmqpConnectionWrapper) (run : ℕ) (isDisposed : Bool) :
    AmqpConnectionWrapper :=
  let ended :=
    wrapper.withConnection run fun connection resources =>
      ({ connection with recreatingChannel := none }, resources)
  if isDisposed then ended else (ended.emitClosed run).disposeConnection run

def step
    (maxAttempts : JsNumber) (wrapper : AmqpConnectionWrapper) :
    WrapperEvent → Option AmqpConnectionWrapper
  | .connectCalled => some wrapper.connect
  | .disposeCalled => some wrapper.dispose
  | .initializer run event => wrapper.initializerStep maxAttempts run event
  | .connectResumed =>
      match wrapper.connecting with
      | none => none
      | some run =>
          (wrapper.settledResult run).map fun result =>
            wrapper.connectResumed run result
  | .oldConnectionDisposed =>
      match wrapper.reconnecting with
      | some .disposingOld => some wrapper.awaitConnection
      | _ => none
  | .reconnectResumed =>
      match wrapper.reconnecting with
      | some (.awaiting run) =>
          (wrapper.settledResult run).map fun result =>
            wrapper.reconnectResumed run result
      | _ => none
  | .reconnectFinished =>
      match wrapper.reconnecting with
      | some .finishing => some { wrapper with reconnecting := none }
      | _ => none
  | .connectionLost run =>
      match wrapper.runs[run]? with
      | none => none
      | some current =>
          if current.connection.handledConnection.isSome ∨
              current.connection.handlesChannels = true then
            some ((wrapper.emitClosed run).disposeConnection run)
          else
            none
  | .channelLost run =>
      match wrapper.runs[run]? with
      | none => none
      | some current =>
          if current.connection.handlesChannels = true then
            some (wrapper.withConnection run AmqpConnection.recreateChannel)
          else
            none
  | .channelRecreationSettled run settlement =>
      match wrapper.runs[run]? with
      | none => none
      | some current =>
          match current.connection.recreatingChannel, settlement with
          | none, _ => none
          | some amqplibConnection, .fulfilled =>
              some
                (wrapper.withConnection run fun connection resources =>
                  connection.channelRecreated resources amqplibConnection)
          | some _, .rejected =>
              some
                (wrapper.channelRecreationFailed run
                  current.connection.isDisposed)
  | .connectionBecameUnavailable =>
      if wrapper.listens = true ∧ wrapper.isCancelled = false then
        some wrapper.reconnect
      else
        none

def machine (maxAttempts : JsNumber) :
    Machine AmqpConnectionWrapper WrapperEvent where
  initial := create
  step := step maxAttempts

/-- Nothing is pending: neither a call of `connect` or `reconnect` nor a run of
the initializer. -/
def Quiescent (wrapper : AmqpConnectionWrapper) : Prop :=
  wrapper.connecting = none ∧ wrapper.reconnecting = none ∧
    ∀ run ∈ wrapper.runs, ∃ result, run.phase = .settled result

end AmqpConnectionWrapper

end Amq.Core
