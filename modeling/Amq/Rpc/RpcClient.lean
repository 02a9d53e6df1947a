import Amq.Rpc.SentCommands

/-!
# The RPC client

`executeRemoteCommand` checks its arguments and passes the request on to the
sender of its queue, which is created with the first request for the queue.
`dispose` empties the map of senders and disposes of each of them.
-/


namespace Amq.Rpc

open Amq.Transition Function

/-- An argument that ought to be a string. -/
inductive StringArgument where
  | string (value : String)
  /-- Of another type, with its `String(value)`. -/
  | other (asString : String)
  deriving DecidableEq

namespace StringArgument

/-- `String(value)`. -/
def toString : StringArgument → String
  | .string value => value
  | .other asString => asString

/-- The string, if it is one and not empty. -/
def nonEmpty? : StringArgument → Option String
  | .string value => if value = "" then none else some value
  | .other _ => none

end StringArgument

/-- An option that ought to be a number. -/
inductive NumberOption where
  | number (value : JsNumber)
  | other
  deriving DecidableEq

/-- The number, unless it is below one. -/
def NumberOption.positive? : NumberOption → Option JsNumber
  | .number value => if value.lessThan (.ofNat 1) then none else some value
  | .other => none

structure RpcClientOptions where
  commandTimeoutMs : NumberOption
  replyQueueDisuseExpireMs : NumberOption
  staleCommandDurationMs : NumberOption
  deriving DecidableEq

structure RpcClientDependencies (κ Buffer V : Type) where
  /-- `amqpConnection` is given. -/
  hasAmqpConnection : Bool
  /-- The ids of the reply queues, by the place of their sender. -/
  replyQueueId : ℕ → String
  /-- The ids of the commands of each sender, one after another. -/
  generateId : ℕ → ℕ → κ
  text : String → V
  serialize : CommandMessageContent V → Option Buffer
  readReply : Buffer → Except (Rejection V) (Option V)

/-- What the constructor keeps. -/
structure RpcClientConfig (κ Buffer V : Type) where
  commandTimeoutMs : JsNumber
  replyQueueDisuseExpireMs : JsNumber
  staleCommandDurationMs : JsNumber
  dependencies : RpcClientDependencies κ Buffer V

namespace RpcClientConfig

variable {κ Buffer V : Type}

/-- The constructor: its checks, one after another. -/
def construct
    (options : RpcClientOptions)
    (dependencies : RpcClientDependencies κ Buffer V) :
    Except String (RpcClientConfig κ Buffer V) :=
  match options.commandTimeoutMs.positive? with
  | none => .error "\"options.commandTimeoutMs\" must be a positive number"
  | some commandTimeoutMs =>
      match options.replyQueueDisuseExpireMs.positive? with
      | none =>
          .error
            "\"options.replyQueueDisuseExpireMs\" must be a positive number"
      | some replyQueueDisuseExpireMs =>
          match options.staleCommandDurationMs.positive? with
          | none =>
              .error
                "\"options.staleCommandDurationMs\" must be a positive number"
          | some staleCommandDurationMs =>
              if dependencies.hasAmqpConnection then
                .ok
                  { commandTimeoutMs := commandTimeoutMs
                    replyQueueDisuseExpireMs := replyQueueDisuseExpireMs
                    staleCommandDurationMs := staleCommandDurationMs
                    dependencies := dependencies }
              else
                .error "\"dependencies.amqpConnection\" is required"

/-- The sender at `place`, as `commandSenderFactory` gets it. -/
def commandSender
    (config : RpcClientConfig κ Buffer V) (place : ℕ) (queue : String) :
    CommandSenderConfig κ Buffer V where
  queue := queue
  timeoutMs := config.commandTimeoutMs
  replyQueueDisuseExpireMs := config.replyQueueDisuseExpireMs
  replyQueueId := config.dependencies.replyQueueId place
  generateId := config.dependencies.generateId place
  text := config.dependencies.text
  serialize := config.dependencies.serialize
  readReply := config.dependencies.readReply

end RpcClientConfig

/-- The map from queues to the places of their senders, in the order of
insertion. -/
structure CommandSenderManager where
  commandSenders : List (String × ℕ)
  deriving DecidableEq

namespace CommandSenderManager

def empty : CommandSenderManager := ⟨[]⟩

def set (manager : CommandSenderManager) (queue : String) (commandSender : ℕ) :
    CommandSenderManager :=
  if manager.commandSenders.any (·.1 = queue) then
    ⟨manager.commandSenders.map fun entry =>
      if entry.1 = queue then (queue, commandSender) else entry⟩
  else
    ⟨manager.commandSenders ++ [(queue, commandSender)]⟩

def get (manager : CommandSenderManager) (queue : String) : Option ℕ :=
  (manager.commandSenders.find? (·.1 = queue)).map Prod.snd

theorem mem_of_get
    {manager : CommandSenderManager} {queue : String} {place : ℕ}
    (found : manager.get queue = some place) :
    (queue, place) ∈ manager.commandSenders := by
  obtain ⟨entry, itsEntry, rfl⟩ := Option.map_eq_some_iff.mp found
  have same : entry.1 = queue := by
    simpa using List.find?_some itsEntry
  subst same
  exact List.mem_of_find?_eq_some itsEntry

theorem not_mem_of_get
    {manager : CommandSenderManager} {queue : String}
    (absent : manager.get queue = none) (place : ℕ) :
    (queue, place) ∉ manager.commandSenders := by
  intro member
  have missing := Option.map_eq_none_iff.mp absent
  have refuted := List.find?_eq_none.mp missing _ member
  simp at refuted

theorem set_of_get
    {manager : CommandSenderManager} {queue : String} (place : ℕ)
    (absent : manager.get queue = none) :
    (manager.set queue place).commandSenders =
      manager.commandSenders ++ [(queue, place)] := by
  have unknown : manager.commandSenders.any (·.1 = queue) = false := by
    apply List.any_eq_false.mpr
    intro entry member same
    have itsQueue : entry.1 = queue := by simpa using same
    subst itsQueue
    exact not_mem_of_get absent entry.2 member
  unfold set
  rw [unknown]
  rfl

end CommandSenderManager

structure RpcRequest (V : Type) where
  queue : String
  commandName : String
  args : V
  deriving DecidableEq

structure RpcClient (κ Buffer V : Type) where
  isDisposed : Bool
  commandSenderManager : CommandSenderManager
  /-- Every sender that has been created, with its queue. -/
  commandSenders : List (String × CommandSender κ Buffer V)
  /-- The requests that have been passed on to a sender. -/
  requests : List (RpcRequest V)
  /-- The errors that `executeRemoteCommand` itself has thrown. -/
  refusals : List String

inductive RpcClientEvent (κ Buffer V : Type) where
  | executeRemoteCommand (queue commandName : StringArgument) (args : V)
  | dispose
  /-- A call, a timer, a reply or a command to the broker of one sender. -/
  | commandSender (place : ℕ) (event : CommandSenderEvent κ Buffer V)
  | amqpReconnected
  | amqpChannelRecreated
  | commandMessageReturn (correlationId : κ)

/-- The event reaches one sender alone, and not through the client. -/
def CommandSenderEvent.isOwn {κ Buffer V : Type} :
    CommandSenderEvent κ Buffer V → Bool
  | .initialized _ => true
  | .sendSettled _ _ => true
  | .answered _ => true
  | .timedOut _ => true
  | .consumeRun _ _ => true
  | .replyQueueMessage _ _ _ => true
  | .sendCommand _ _ => false
  | .amqpReconnected => false
  | .amqpChannelRecreated => false
  | .commandMessageReturn _ => false
  | .dispose => false

namespace RpcClient

variable {κ Buffer V : Type} [DecidableEq κ]

def create : RpcClient κ Buffer V where
  isDisposed := false
  commandSenderManager := .empty
  commandSenders := []
  requests := []
  refusals := []

/-- The sender of a queue, which is created when there is none. -/
def commandSenderFor
    (config : RpcClientConfig κ Buffer V) (client : RpcClient κ Buffer V)
    (queue : String) : RpcClient κ Buffer V × ℕ :=
  match client.commandSenderManager.get queue with
  | some place => (client, place)
  | none =>
      let place := client.commandSenders.length
      ({ client with
          commandSenderManager := client.commandSenderManager.set queue place
          commandSenders :=
            client.commandSenders ++
              [(queue, .create (config.commandSender place queue))] },
        place)

/-- `commandSender.sendCommand`. -/
def sendCommand
    (client : RpcClient κ Buffer V) (place : ℕ) (commandName : String)
    (args : V) : RpcClient κ Buffer V :=
  match client.commandSenders[place]? with
  | none => client
  | some (queue, sender) =>
      { client with
        commandSenders :=
          client.commandSenders.set place
            (queue, sender.sendCommand commandName args)
        requests := client.requests ++ [⟨queue, commandName, args⟩] }

/-- The message of the error of a disposed client. -/
def disposedMessage (commandName : StringArgument) : String :=
  "Cannot send \"" ++ commandName.toString ++
    "\" command, because RPC client is disposed"

def executeRemoteCommand
    (config : RpcClientConfig κ Buffer V) (client : RpcClient κ Buffer V)
    (queue commandName : StringArgument) (args : V) :
    Except String (RpcClient κ Buffer V) :=
  if client.isDisposed then
    .error (disposedMessage commandName)
  else
    match queue.nonEmpty? with
    | none =>
        .error
          ("\"queue\" must be a non-empty string (provided: \"" ++
            queue.toString ++ "\")")
    | some queue =>
        match commandName.nonEmpty? with
        | none =>
            .error
              ("\"commandName\" must be a non-empty string (provided: \"" ++
                commandName.toString ++ "\")")
        | some commandName =>
            let found := client.commandSenderFor config queue
            .ok (found.1.sendCommand found.2 commandName args)

/-- `commandSenderManager.disposeAll`. -/
def disposeAll (client : RpcClient κ Buffer V) : RpcClient κ Buffer V :=
  { client with
    commandSenderManager := .empty
    commandSenders :=
      client.commandSenders.mapIdx fun place entry =>
        if (entry.1, place) ∈ client.commandSenderManager.commandSenders then
          (entry.1, entry.2.dispose)
        else
          entry }

def dispose (client : RpcClient κ Buffer V) : RpcClient κ Buffer V :=
  if client.isDisposed then
    client
  else
    { client with isDisposed := true }.disposeAll

/-- An event of the connection reaches the listeners of all senders. -/
def emitted
    (client : RpcClient κ Buffer V)
    (listener : CommandSender κ Buffer V → CommandSender κ Buffer V) :
    RpcClient κ Buffer V :=
  { client with
    commandSenders :=
      client.commandSenders.map fun entry => (entry.1, listener entry.2) }

def stepSender
    (config : RpcClientConfig κ Buffer V) (client : RpcClient κ Buffer V)
    (place : ℕ) (event : CommandSenderEvent κ Buffer V) :
    Option (RpcClient κ Buffer V) :=
  match client.commandSenders[place]? with
  | none => none
  | some (queue, sender) =>
      if event.isOwn then
        (sender.step (config.commandSender place queue) event).map fun next =>
          { client with
            commandSenders := client.commandSenders.set place (queue, next) }
      else
        none

def step
    (config : RpcClientConfig κ Buffer V) (client : RpcClient κ Buffer V) :
    RpcClientEvent κ Buffer V → Option (RpcClient κ Buffer V)
  | .executeRemoteCommand queue commandName args =>
      match client.executeRemoteCommand config queue commandName args with
      | .error message =>
          some { client with refusals := client.refusals ++ [message] }
      | .ok next => some next
  | .dispose => some client.dispose
  | .commandSender place event => client.stepSender config place event
  | .amqpReconnected => some (client.emitted CommandSender.consumeAgain)
  | .amqpChannelRecreated => some (client.emitted CommandSender.consumeAgain)
  | .commandMessageReturn correlationId =>
      some (client.emitted (·.handleCommandMessageReturn correlationId))

/-- The client with all its senders as a machine. -/
def machine (config : RpcClientConfig κ Buffer V) :
    Machine (RpcClient κ Buffer V) (RpcClientEvent κ Buffer V) where
  initial := create
  step := step config

end RpcClient

end Amq.Rpc
