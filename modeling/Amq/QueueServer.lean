import Amq.Rpc.CommandQueueInitializer
import Amq.Transition.Machine

/-!
# How a server consumes its queue

`JobServer` and `CommandReceiver` set their queue up and consume it when they
start to listen, and again after a recovery of the connection or of its channel.
Each trigger starts a sequence of its own: `initialize`, the check for disposal,
`consume`.  Sequences that overlap know nothing of each other, and the one tag
that the consumer remembers is that of the sequence which has ended last.

The machine sees the broker as far as consumers are concerned: a `consumeQueue`
waits for a channel, is issued on it, is carried out, and is then confirmed.  A
channel that is lost takes its consumers with it, and the executors issue the
commands that were under way on the next one.
-/

namespace Amq

open Amq.Transition
open Amq.Jobs
open Amq.Rpc

/-- The initializer of a server, which also tells the server: `JobServer` uses
the one, `CommandReceiver` the other. -/
inductive ServerInitializer where
  | job (initializer : JobQueueInitializer)
  | command (initializer : CommandQueueInitializer)
  deriving DecidableEq, Repr

namespace ServerInitializer

def runs : ServerInitializer → List InitializePhase
  | .job initializer => initializer.runs
  | .command initializer => initializer.runs

def initializePromise : ServerInitializer → Option ℕ
  | .job initializer => initializer.initializePromise
  | .command initializer => initializer.initializePromise

/-- `initialize` of either initializer. -/
def initializeQueue : ServerInitializer → ServerInitializer × ℕ
  | .job initializer =>
      (.job initializer.initializeQueue.1, initializer.initializeQueue.2)
  | .command initializer =>
      (.command initializer.initializeQueue.1, initializer.initializeQueue.2)

def dispose : ServerInitializer → ServerInitializer
  | .job initializer => .job initializer.dispose
  | .command initializer => .command initializer.dispose

def step (initializer : ServerInitializer) (run : ℕ) (event : InitializeEvent) :
    Option ServerInitializer :=
  match initializer with
  | .job initializer => (initializer.step run event).map .job
  | .command initializer => (initializer.step run event).map .command

/-- `setIsExclusive`, which only a `CommandReceiver` has; a call that throws
changes nothing. -/
def setIsExclusive (initializer : ServerInitializer) (value : Bool) :
    ServerInitializer :=
  match initializer with
  | .job initializer => .job initializer
  | .command initializer =>
      match initializer.setIsExclusive value with
      | .ok next => .command next
      | .error _ => .command initializer

end ServerInitializer

/-- Where a `consumeQueue` stands. -/
inductive ConsumeCommand where
  /-- It waits for a channel, or for a retry. -/
  | waiting
  | issued
  /-- The broker has registered the consumer. -/
  | carriedOut (consumerTag : ℕ)
  deriving DecidableEq, Repr

/-- Where a sequence of `initialize` and `consume` stands. -/
inductive SequencePhase where
  /-- It waits for a run of the initializer. -/
  | initializing (run : ℕ)
  | consuming (command : ConsumeCommand)
  /-- The promise of `consumeQueue` has rejected; its command may go on. -/
  | rejected (command : Option ConsumeCommand)
  | ended
  /-- The run of the initializer has failed. -/
  | failed
  deriving DecidableEq, Repr

/-- The states of `JobServer`, and of the `RpcServer` around a
`CommandReceiver`. -/
inductive QueueServerState where
  | ready
  | listening
  | disposed
  deriving DecidableEq, Repr

inductive ServerObservation where
  | exchangeAsserted
  | queueAsserted
  | queueBound
  /-- The consumer calls `amqpConnection.consumeQueue`. -/
  | consumeQueue
  deriving DecidableEq, Repr

/-- A server with its initializer and its consumer. -/
structure QueueServer where
  state : QueueServerState
  initializer : ServerInitializer
  sequences : List SequencePhase
  consumerTag : Option ℕ
  /-- The calls of `cancelConsumption` that have not settled, by their tags. -/
  cancellations : List ℕ
  hasChannel : Bool
  /-- The consumers of this server that are active on the current channel. -/
  consumers : List ℕ
  /-- How many consumers have been registered; they are numbered by it. -/
  registered : ℕ
  /-- What was observable of the server, the latest entry first. -/
  history : List ServerObservation
  deriving DecidableEq, Repr

inductive QueueServerEvent where
  | listen
  | dispose
  | setIsExclusive (value : Bool)
  | amqpReconnected
  | amqpChannelRecreated
  | initializerRun (run : ℕ) (event : InitializeEvent)
  /-- The await of the sequence on `initialize` is over. -/
  | resumed (sequence : ℕ)
  | consumeIssued (sequence : ℕ)
  | consumeCarriedOut (sequence : ℕ)
  | consumeSettled (sequence : ℕ) (settlement : Settlement)
  | cancelSettled (consumerTag : ℕ) (settlement : Settlement)
  | channelLost
  | channelCreated
  /-- The broker cancels a consumer. -/
  | consumerCancelled (consumerTag : ℕ)
  deriving DecidableEq, Repr

namespace QueueServer

/-- A server that has not been used. -/
def create (initializer : ServerInitializer) : QueueServer where
  state := .ready
  initializer := initializer
  sequences := []
  consumerTag := none
  cancellations := []
  hasChannel := false
  consumers := []
  registered := 0
  history := []

def jobServer (exchange queue : String) : QueueServer :=
  create (.job (.create exchange queue))

def commandReceiver (exchange queue : String) : QueueServer :=
  create (.command (.create exchange queue))

/-- A sequence starts with `initialize`. -/
def initializeAndConsume (server : QueueServer) : QueueServer :=
  let initialized := server.initializer.initializeQueue
  { server with
    initializer := initialized.1
    sequences := server.sequences ++ [.initializing initialized.2] }

/-- `consume` of the consumer, up to its await, in a sequence of its own. -/
def consume (server : QueueServer) : QueueServer :=
  { server with
    sequences := server.sequences ++ [.consuming .waiting]
    history := .consumeQueue :: server.history }

/-- `listen`; a server that has been used before throws. -/
def listen (server : QueueServer) : QueueServer :=
  match server.state with
  | .ready => { server with state := .listening }.initializeAndConsume
  | _ => server

/-- `cancelConsumption` of the consumer, up to its await. -/
def cancelConsumption (server : QueueServer) : QueueServer :=
  match server.consumerTag with
  | none => server
  | some consumerTag =>
      { server with
        consumerTag := none
        cancellations := consumerTag :: server.cancellations }

/-- `dispose` of the server, of its initializer and of its consumer. -/
def dispose (server : QueueServer) : QueueServer :=
  match server.state with
  | .listening =>
      { server with
        state := .disposed
        initializer := server.initializer.dispose }.cancelConsumption
  | _ => server

/-- `handleAmqpReconnected`: a `JobServer` resets its initializer first. -/
def handleAmqpReconnected (server : QueueServer) : QueueServer :=
  match server.initializer with
  | .job initializer =>
      { server with initializer := .job initializer.reset }.initializeAndConsume
  | .command _ => server.initializeAndConsume

/-- `handleAmqpChannelRecreated`: a `JobServer` consumes at once. -/
def handleAmqpChannelRecreated (server : QueueServer) : QueueServer :=
  match server.initializer with
  | .job _ => server.consume
  | .command _ => server.initializeAndConsume

/-- The handlers are registered by `listen` and removed by `dispose`. -/
def handle (server : QueueServer) (handler : QueueServer → QueueServer) :
    QueueServer :=
  match server.state with
  | .listening => handler server
  | _ => server

/-- What the completion of a command of an initialization shows. -/
def completion : InitializePhase → InitializeEvent → List ServerObservation
  | .assertingExchange, .commandSettled .fulfilled => [.exchangeAsserted]
  | .assertingQueue, .commandSettled .fulfilled => [.queueAsserted]
  | .bindingQueue, .commandSettled .fulfilled => [.queueBound]
  | _, _ => []

/-- A run of the initializer moves on. -/
def stepInitializer
    (server : QueueServer) (run : ℕ) (event : InitializeEvent) :
    Option QueueServer :=
  match server.initializer.runs[run]?, server.initializer.step run event with
  | some phase, some initializer =>
      some
        { server with
          initializer := initializer
          history := completion phase event ++ server.history }
  | _, _ => none

def setSequence (server : QueueServer) (index : ℕ) (phase : SequencePhase) :
    QueueServer :=
  { server with sequences := server.sequences.set index phase }

/-- A sequence goes on after `initialize`. -/
def resume (server : QueueServer) (index : ℕ) : Option QueueServer :=
  match server.sequences[index]? with
  | some (.initializing run) =>
      match server.initializer.runs[run]? with
      | none => none
      | some phase =>
          if phase.isResolved then
            if server.state = .disposed then
              some (server.setSequence index .ended)
            else
              some
                { server.setSequence index (.consuming .waiting) with
                  history := .consumeQueue :: server.history }
          else if phase = .failed then
            some (server.setSequence index .failed)
          else
            none
  | _ => none

/-- The command finds a channel. -/
def issue (server : QueueServer) (index : ℕ) : Option QueueServer :=
  if server.hasChannel then
    match server.sequences[index]? with
    | some (.consuming .waiting) =>
        some (server.setSequence index (.consuming .issued))
    | some (.rejected (some .waiting)) =>
        some (server.setSequence index (.rejected (some .issued)))
    | _ => none
  else
    none

/-- The broker registers a consumer on the current channel. -/
def register (server : QueueServer) : QueueServer :=
  { server with
    consumers := server.registered :: server.consumers
    registered := server.registered + 1 }

def carryOut (server : QueueServer) (index : ℕ) : Option QueueServer :=
  match server.sequences[index]? with
  | some (.consuming .issued) =>
      some
        (server.register.setSequence index
          (.consuming (.carriedOut server.registered)))
  | some (.rejected (some .issued)) =>
      some
        (server.register.setSequence index
          (.rejected (some (.carriedOut server.registered))))
  | _ => none

/-- The await on `consumeQueue` is over. -/
def settleConsume
    (server : QueueServer) (index : ℕ) (settlement : Settlement) :
    Option QueueServer :=
  match server.sequences[index]?, settlement with
  | some (.consuming (.carriedOut consumerTag)), .fulfilled =>
      let server :=
        { server.setSequence index .ended with consumerTag := some consumerTag }
      -- The rollback of a consumer that was registered after `dispose`.
      if server.state = .disposed then some server.cancelConsumption
      else some server
  | some (.consuming command), .rejected =>
      some (server.setSequence index (.rejected (some command)))
  | _, _ => none

/-- A call of `cancelConsumption` settles; a rejection is ignored. -/
def settleCancel
    (server : QueueServer) (consumerTag : ℕ) (settlement : Settlement) :
    Option QueueServer :=
  if consumerTag ∈ server.cancellations then
    some
      { server with
        cancellations := server.cancellations.erase consumerTag
        consumers :=
          match settlement with
          | .fulfilled => server.consumers.filter (· ≠ consumerTag)
          | .rejected => server.consumers }
  else
    none

/-- The channel of a command is gone: the executors retry the command unless its
promise has rejected. -/
def interrupt : SequencePhase → SequencePhase
  | .consuming _ => .consuming .waiting
  | .rejected (some .waiting) => .rejected (some .waiting)
  | .rejected _ => .rejected none
  | phase => phase

def loseChannel (server : QueueServer) : QueueServer :=
  { server with
    hasChannel := false
    consumers := []
    sequences := server.sequences.map interrupt }

def step (server : QueueServer) : QueueServerEvent → Option QueueServer
  | .listen => some server.listen
  | .dispose => some server.dispose
  | .setIsExclusive value =>
      some { server with initializer := server.initializer.setIsExclusive value }
  | .amqpReconnected => some (server.handle handleAmqpReconnected)
  | .amqpChannelRecreated => some (server.handle handleAmqpChannelRecreated)
  | .initializerRun run event => server.stepInitializer run event
  | .resumed index => server.resume index
  | .consumeIssued index => server.issue index
  | .consumeCarriedOut index => server.carryOut index
  | .consumeSettled index settlement => server.settleConsume index settlement
  | .cancelSettled consumerTag settlement =>
      server.settleCancel consumerTag settlement
  | .channelLost => some server.loseChannel
  | .channelCreated => some { server with hasChannel := true }
  | .consumerCancelled consumerTag =>
      some
        { server with
          consumers := server.consumers.filter (· ≠ consumerTag) }

/-- A server as a machine. -/
def machine (initial : QueueServer) : Machine QueueServer QueueServerEvent where
  initial := initial
  step := step

/-- The event makes the consumer call `consumeQueue`. -/
def startsConsume (server : QueueServer) : QueueServerEvent → Bool
  | .amqpChannelRecreated =>
      server.state = .listening && (server.initializer matches .job _)
  | .resumed index =>
      match server.sequences[index]? with
      | some (.initializing run) =>
          (server.initializer.runs[run]?).any InitializePhase.isResolved &&
            server.state ≠ .disposed
      | _ => false
  | _ => false

end QueueServer

end Amq
