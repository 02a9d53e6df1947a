import Amq.Rpc.CommandRun
import Amq.Transition.KeyedLock
import Amq.Transition.Refinement

/-!
# The RPC server and its runs

The server is a machine over arbitrary interleavings, like the job server: the
broker delivers and redelivers commands under fresh tags, runs move on one await
at a time, and the events of the connection unlock every message.  Read as a
keyed lock, a run works until its command is answered or has timed out.
-/


namespace Amq.Rpc

open Amq.Transition

inductive RpcServerState where
  | ready
  | listening
  | disposed
  deriving DecidableEq, Repr

/-- The fixed parts of a server: the language and its serializer. -/
structure RpcServerConfig (Buffer V : Type) where
  serialize : Reply V → Option Buffer
  deserialize : Buffer → Option (CommandMessageContent V)
  /-- `...args`, which throws on values that cannot be iterated. -/
  spread : V → Option (List V)
  toText : V → String

structure CommandDelivery (κ Buffer : Type) where
  tag : DeliveryTag
  message : CommandMessage κ Buffer

structure RpcServer (κ Buffer V : Type) where
  state : RpcServerState
  commandHandlerManager : CommandHandlerManager V
  messageRelevancyChecker : MessageRelevancyChecker κ
  runs : List (CommandRun κ V)
  /-- Deliveries passed to `handleCommandMessage`, the latest first. -/
  deliveries : List (CommandDelivery κ Buffer)
  /-- Replies passed to `sendToQueue`, the latest first. -/
  replies : List (String × Buffer × κ)
  /-- Arguments of the calls of `acknowledge`, the latest first. -/
  acknowledged : List DeliveryTag

inductive RpcServerEvent (κ Buffer V : Type) where
  | listen
  | dispose
  | setCommandHandler (commandName : V) (handler : CommandHandler)
  | amqpReconnected
  | amqpChannelRecreated
  | commandMessage (message : CommandMessage κ Buffer) (tag : DeliveryTag)
  | command (index : ℕ) (event : CommandEvent V)

namespace RpcServer

variable {κ Buffer V : Type} [DecidableEq κ] [DecidableEq V]

def create : RpcServer κ Buffer V where
  state := .ready
  commandHandlerManager := ⟨fun _ => none⟩
  messageRelevancyChecker := MessageRelevancyChecker.empty
  runs := []
  deliveries := []
  replies := []
  acknowledged := []

/-- What the run for `correlationId` reads of the server. -/
def surroundings
    (config : RpcServerConfig Buffer V) (server : RpcServer κ Buffer V)
    (correlationId : κ) : CommandSurroundings Buffer V where
  serialize := config.serialize
  isDisposed := decide (server.state = .disposed)
  actualDeliveryTag :=
    server.messageRelevancyChecker.getDeliveryTag correlationId

def apply
    (server : RpcServer κ Buffer V) :
    CommandEffect κ Buffer → RpcServer κ Buffer V
  | .reply replyQueue content correlationId =>
      { server with
        replies := (replyQueue, content, correlationId) :: server.replies }
  | .acknowledge tag => { server with acknowledged := tag :: server.acknowledged }
  | .unlock correlationId =>
      { server with
        messageRelevancyChecker :=
          server.messageRelevancyChecker.unlock correlationId }

/-- `listen` throws unless the server is ready. -/
def listen (server : RpcServer κ Buffer V) : RpcServer κ Buffer V :=
  if server.state = .ready then
    { server with state := .listening }
  else
    server

def dispose (server : RpcServer κ Buffer V) : RpcServer κ Buffer V :=
  if server.state = .listening then
    { server with
      state := .disposed
      commandHandlerManager := server.commandHandlerManager.deleteAll }
  else
    server

def setCommandHandler
    (config : RpcServerConfig Buffer V) (server : RpcServer κ Buffer V)
    (commandName : V) (handler : CommandHandler) : RpcServer κ Buffer V :=
  match server.commandHandlerManager.set config.toText commandName handler with
  | .ok manager => { server with commandHandlerManager := manager }
  | .error _ => server

/-- The handlers of `reconnected` and `channelRecreated`, which are registered
while the server is listening. -/
def unlockAll (server : RpcServer κ Buffer V) : RpcServer κ Buffer V :=
  if server.state = .listening then
    { server with
      messageRelevancyChecker := server.messageRelevancyChecker.unlockAll }
  else
    server

/-- The run that a delivery starts once it has the lock. -/
def startRun
    (config : RpcServerConfig Buffer V) (server : RpcServer κ Buffer V)
    (message : CommandMessage κ Buffer) : CommandRun κ V where
  correlationId := message.correlationId
  replyQueue := message.replyQueue
  phase :=
    match config.deserialize message.content with
    | none => .ended
    | some content =>
        match config.spread content.args with
        | none => .ended
        | some _ =>
            match
              server.commandHandlerManager.handle config.toText content.command
            with
            | .ok _ => .handling none
            | .error missing => .handling (some missing)
  history := []

/-- `handleCommandMessage` up to its first await. -/
def handleCommandMessage
    (config : RpcServerConfig Buffer V) (server : RpcServer κ Buffer V)
    (message : CommandMessage κ Buffer) (tag : DeliveryTag) :
    RpcServer κ Buffer V :=
  let locked := server.messageRelevancyChecker.lock message.correlationId tag
  { server with
    messageRelevancyChecker := locked.1
    deliveries := ⟨tag, message⟩ :: server.deliveries
    runs :=
      if locked.2 then
        server.runs ++ [server.startRun config message]
      else
        server.runs }

def stepCommand
    (config : RpcServerConfig Buffer V) (server : RpcServer κ Buffer V)
    (index : ℕ) (event : CommandEvent V) : Option (RpcServer κ Buffer V) :=
  match server.runs[index]? with
  | some run =>
      match run.step (server.surroundings config run.correlationId) event with
      | some (next, effects) =>
          some <|
            effects.foldl apply { server with runs := server.runs.set index next }
      | none => none
  | none => none

def step
    (config : RpcServerConfig Buffer V) (server : RpcServer κ Buffer V) :
    RpcServerEvent κ Buffer V → Option (RpcServer κ Buffer V)
  | .listen => some server.listen
  | .dispose => some server.dispose
  | .setCommandHandler commandName handler =>
      some (server.setCommandHandler config commandName handler)
  | .amqpReconnected => some server.unlockAll
  | .amqpChannelRecreated => some server.unlockAll
  | .commandMessage message tag =>
      if server.state = .listening ∧
          tag ∉ server.deliveries.map CommandDelivery.tag then
        some (server.handleCommandMessage config message tag)
      else
        none
  | .command index event => server.stepCommand config index event

/-- The server as a machine. -/
def machine (config : RpcServerConfig Buffer V) :
    Machine (RpcServer κ Buffer V) (RpcServerEvent κ Buffer V) where
  initial := create
  step := step config

end RpcServer

/-! ## The server as a keyed lock -/

namespace CommandPhase

variable {V : Type}

def lockPhase : CommandPhase V → KeyedLock.Phase DeliveryTag
  | .handling _ => .working
  | .handled (some _) => .working
  | .replying => .working
  | .handled none => .completed
  | .replied => .completed
  | .acknowledging tag => .acknowledging tag
  | .ended => .finished

theorem lockPhase_acknowledging_iff
    (phase : CommandPhase V) (tag : DeliveryTag) :
    phase.lockPhase = .acknowledging tag ↔ phase = .acknowledging tag := by
  unfold lockPhase
  split <;> simp

theorem lockPhase_completed_iff (phase : CommandPhase V) :
    phase.lockPhase = .completed ↔ phase = .handled none ∨ phase = .replied := by
  unfold lockPhase
  split <;> simp

end CommandPhase

/-- The command has been answered, or its answer is no longer wanted. -/
def CommandObservation.isAnswer {V : Type} : CommandObservation V → Bool
  | .timedOut => true
  | .replyAccepted => true
  | _ => false

namespace CommandRun

variable {κ Buffer V : Type}

/-- The labels of the lock are not used, so a holder has none. -/
def holder (run : CommandRun κ V) : KeyedLock.Holder κ Unit DeliveryTag where
  key := run.correlationId
  label := none
  phase := run.phase.lockPhase
  hasCompleted := run.history.any CommandObservation.isAnswer

/-- The move of a step, read off its effects and the two phases. -/
def lockMove (run next : CommandRun κ V) :
    List (CommandEffect κ Buffer) → KeyedLock.Move DeliveryTag
  | [.acknowledge tag] => .acknowledge tag
  | [.unlock _] => .release
  | _ => .between run.phase.lockPhase next.phase.lockPhase

/-- Every step of a run is a move of its holder. -/
theorem steps_holderStep
    {surroundings : CommandSurroundings Buffer V} {run next : CommandRun κ V}
    {event : CommandEvent V} {effects : List (CommandEffect κ Buffer)}
    {stored : Option DeliveryTag}
    (actual :
      ∀ tag, surroundings.actualDeliveryTag = some tag → stored = some tag)
    (stepped : Steps surroundings run event next effects) :
    KeyedLock.HolderStep stored run.holder (run.lockMove next effects)
      next.holder := by
  obtain ⟨correlationId, replyQueue, phase, history⟩ := run
  cases stepped with
  | handlerSettled settled outcome missing handling itsOutcome =>
      cases handling
      exact .keep
  | timedOut missing handling =>
      cases handling
      exact .complete rfl
  | notReplied reply handled hindered =>
      cases handled
      exact .leave (Or.inl rfl)
  | replying reply content handled live serialized =>
      cases handled
      exact .keep
  | replyAccepted replying =>
      cases replying
      exact .complete rfl
  | replyFailed replying =>
      cases replying
      exact .leave (Or.inl rfl)
  | proceedDisposed answered disposed =>
      rcases answered with timedOut | replied
      · cases timedOut
        exact .leave (Or.inr rfl)
      · cases replied
        exact .leave (Or.inr rfl)
  | proceedAcknowledging tag answered live stores =>
      have completed := (CommandPhase.lockPhase_completed_iff _).mpr answered
      exact .acknowledge tag completed (actual tag stores)
  | proceedUnlocking answered live stores =>
      have completed := (CommandPhase.lockPhase_completed_iff _).mpr answered
      exact .release (Or.inl completed)
  | acknowledgeSettled tag settlement acknowledging =>
      cases acknowledging
      exact .release (Or.inr ⟨tag, rfl⟩)

/-- A step has at most one effect, and unlocks no correlation id but its own. -/
theorem steps_effects
    {surroundings : CommandSurroundings Buffer V} {run next : CommandRun κ V}
    {event : CommandEvent V} {effects : List (CommandEffect κ Buffer)}
    (stepped : Steps surroundings run event next effects) :
    effects = [] ∨
      (∃ replyQueue content correlationId,
        effects = [.reply replyQueue content correlationId]) ∨
      (∃ tag, effects = [.acknowledge tag]) ∨
      effects = [.unlock run.correlationId] := by
  cases stepped <;> simp

end CommandRun

namespace RpcServer

variable {κ Buffer V : Type} [DecidableEq κ] [DecidableEq V]

def lockDelivery
    (delivery : CommandDelivery κ Buffer) :
    KeyedLock.Delivery κ Unit DeliveryTag where
  tag := delivery.tag
  key := delivery.message.correlationId
  label := none

/-- The server read as a keyed lock. -/
def lockState
    (server : RpcServer κ Buffer V) : KeyedLock.State κ Unit DeliveryTag where
  stored := server.messageRelevancyChecker.correlationIds
  holders := server.runs.map CommandRun.holder
  deliveries := server.deliveries.map lockDelivery
  acknowledged := server.acknowledged

/-- The events of the lock during one step of the server. -/
def lockEvents
    (config : RpcServerConfig Buffer V) (server : RpcServer κ Buffer V) :
    RpcServerEvent κ Buffer V → List (KeyedLock.Event κ Unit DeliveryTag)
  | .amqpReconnected | .amqpChannelRecreated =>
      if server.state = .listening then [.releaseAll] else []
  | .commandMessage message tag =>
      .deliver message.correlationId none tag ::
        if server.messageRelevancyChecker.correlationIds message.correlationId
            = none then
          (KeyedLock.Move.between .working
            (server.startRun config message).holder.phase).events
              server.runs.length
        else
          []
  | .command index event =>
      match server.runs[index]? with
      | some run =>
          match run.step (server.surroundings config run.correlationId) event with
          | some (next, effects) => (run.lockMove next effects).events index
          | none => []
      | none => []
  | _ => []

omit [DecidableEq κ] [DecidableEq V] in
theorem lockState_listen (server : RpcServer κ Buffer V) :
    lockState server.listen = lockState server := by
  unfold listen
  split <;> rfl

omit [DecidableEq κ] [DecidableEq V] in
theorem lockState_dispose (server : RpcServer κ Buffer V) :
    lockState server.dispose = lockState server := by
  unfold dispose
  split <;> rfl

omit [DecidableEq κ] in
theorem lockState_setCommandHandler
    (config : RpcServerConfig Buffer V) (server : RpcServer κ Buffer V)
    (commandName : V) (handler : CommandHandler) :
    lockState (server.setCommandHandler config commandName handler) =
      lockState server := by
  unfold setCommandHandler
  split <;> rfl

section

omit [DecidableEq V]

theorem run_unlockAll (server : RpcServer κ Buffer V) :
    KeyedLock.machine.run (lockState server)
        (if server.state = .listening then [.releaseAll] else []) =
      some (lockState server.unlockAll) := by
  unfold unlockAll
  by_cases listening : server.state = .listening
  · rw [if_pos listening, if_pos listening]
    rfl
  · rw [if_neg listening, if_neg listening]
    rfl

/-- What the effects of a step do to the lock. -/
theorem lockState_effects
    (config : RpcServerConfig Buffer V) (server : RpcServer κ Buffer V)
    (index : ℕ) {run next : CommandRun κ V} {event : CommandEvent V}
    {effects : List (CommandEffect κ Buffer)}
    (stepped :
      run.Steps (server.surroundings config run.correlationId) event next
        effects) :
    lockState
        (effects.foldl apply
          { server with runs := server.runs.set index next }) =
      { lockState server with
        holders := (lockState server).holders.set index next.holder
        stored :=
          (run.lockMove next effects).stored run.correlationId
            (lockState server).stored
        acknowledged :=
          (run.lockMove next effects).tags ++ (lockState server).acknowledged } := by
  have moved :
      (server.runs.set index next).map CommandRun.holder =
        (server.runs.map CommandRun.holder).set index next.holder :=
    List.map_set
  rcases CommandRun.steps_effects stepped with
    rfl | ⟨replyQueue, content, correlationId, rfl⟩ | ⟨tag, rfl⟩ | rfl
  · simp [lockState, CommandRun.lockMove, moved]
  · simp [lockState, CommandRun.lockMove, moved, apply]
  · simp [lockState, CommandRun.lockMove, moved, apply,
      KeyedLock.Move.stored, KeyedLock.Move.tags]
  · simp [lockState, CommandRun.lockMove, moved, apply,
      KeyedLock.Move.stored, KeyedLock.Move.tags,
      MessageRelevancyChecker.unlock]

theorem run_stepCommand
    {config : RpcServerConfig Buffer V} {server next : RpcServer κ Buffer V}
    {index : ℕ} {event : CommandEvent V}
    (stepped : server.stepCommand config index event = some next) :
    KeyedLock.machine.run (lockState server)
        (lockEvents config server (.command index event)) =
      some (lockState next) := by
  unfold stepCommand at stepped
  split at stepped
  · rename_i run present
    split at stepped
    · rename_i following effects taken
      cases stepped
      have steps := CommandRun.steps_of_step taken
      have held : (lockState server).holders[index]? = some run.holder := by
        simp [lockState, present]
      have moved :
          KeyedLock.HolderStep ((lockState server).stored run.holder.key)
            run.holder (run.lockMove following effects) following.holder :=
        CommandRun.steps_holderStep
          (fun _ read => MessageRelevancyChecker.stored_of_getDeliveryTag read)
          steps
      simp only [lockEvents, present, taken]
      rw [KeyedLock.run_move held moved, lockState_effects config server index steps]
      rfl
    · cases stepped
  · cases stepped

end

omit [DecidableEq κ] [DecidableEq V] in
theorem startRun_holderStep
    (config : RpcServerConfig Buffer V) (server : RpcServer κ Buffer V)
    (message : CommandMessage κ Buffer) (stored : Option DeliveryTag) :
    KeyedLock.HolderStep stored
      ⟨message.correlationId, none, .working, false⟩
      (.between .working (server.startRun config message).holder.phase)
      (server.startRun config message).holder := by
  unfold startRun
  cases config.deserialize message.content with
  | none => exact .leave (Or.inl rfl)
  | some content =>
      cases spreading : config.spread content.args with
      | none =>
          simp only [spreading]
          exact .leave (Or.inl rfl)
      | some args =>
          simp only [spreading]
          cases server.commandHandlerManager.handle config.toText content.command with
          | ok handler => exact .keep
          | error missing => exact .keep

omit [DecidableEq V] in
theorem run_handleCommandMessage
    (config : RpcServerConfig Buffer V) (server : RpcServer κ Buffer V)
    (message : CommandMessage κ Buffer) (tag : DeliveryTag)
    (fresh : tag ∉ server.deliveries.map CommandDelivery.tag) :
    KeyedLock.machine.run (lockState server)
        (lockEvents config server (.commandMessage message tag)) =
      some (lockState (server.handleCommandMessage config message tag)) := by
  have freshInLock :
      tag ∉ (lockState server).deliveries.map KeyedLock.Delivery.tag := by
    simpa [lockState, lockDelivery, Function.comp_def] using fresh
  by_cases free :
      server.messageRelevancyChecker.correlationIds message.correlationId = none
  · have started :=
      KeyedLock.run_deliver_move (lockState server) freshInLock free
        (startRun_holderStep config server message (some tag))
    simp only [lockEvents, free, if_true]
    refine Eq.trans ?_ (started.trans ?_)
    · simp [lockState]
    · simp [lockState, lockDelivery, handleCommandMessage, free,
        MessageRelevancyChecker.lock]
  · have swallowed :=
      KeyedLock.run_deliver_taken (lockState server) none freshInLock free
    simp only [lockEvents, free, if_false]
    refine swallowed.trans ?_
    simp [lockState, lockDelivery, handleCommandMessage, free,
      MessageRelevancyChecker.lock]

/-- The RPC server refines the keyed lock. -/
def lockRefinement (config : RpcServerConfig Buffer V) :
    Refinement
      (machine config : Machine (RpcServer κ Buffer V) _)
      (KeyedLock.machine : Machine (KeyedLock.State κ Unit DeliveryTag) _) where
  abstraction := lockState
  translate := lockEvents config
  initial := rfl
  step := by
    intro server event next stepped
    cases event with
    | listen =>
        cases stepped
        rw [lockState_listen]
        rfl
    | dispose =>
        cases stepped
        rw [lockState_dispose]
        rfl
    | setCommandHandler commandName handler =>
        cases stepped
        rw [lockState_setCommandHandler]
        rfl
    | amqpReconnected =>
        cases stepped
        exact run_unlockAll server
    | amqpChannelRecreated =>
        cases stepped
        exact run_unlockAll server
    | commandMessage message tag =>
        simp only [machine, step] at stepped
        split at stepped
        · rename_i accepted
          cases stepped
          exact run_handleCommandMessage config server message tag accepted.2
        · cases stepped
    | command index event => exact run_stepCommand stepped

/-! ## A concrete server

Integers as values and contents, under an identity serializer. -/

def integerConfig : RpcServerConfig ℤ ℤ where
  serialize reply :=
    match reply.data with
    | .value value => some (value.getD 0)
    | .error _ => some (-1)
  deserialize content := some ⟨content, 0⟩
  spread _ := some []
  toText := toString

/-- The command named 7. -/
def integerMessage : CommandMessage ℕ ℤ :=
  ⟨1, "replies", 7⟩

/-- A command is delivered to a listening server with a handler. -/
def firstDelivery : List (RpcServerEvent ℕ ℤ ℤ) :=
  [.listen, .setCommandHandler 7 .function,
    .commandMessage integerMessage ⟨0, 1⟩]

end RpcServer

end Amq.Rpc
