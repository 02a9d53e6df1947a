import Amq.Rpc.CommandRun
import Amq.Rpc.CommandManager
import Amq.Rpc.ReplyQueueConsumer
import Amq.Transition.Machine

/-!
# The command sender and its runs

`sendCommand` waits for `initialize`, sends the command and waits for its reply.
`initialize` sets its flag before it awaits the consumption of the reply queue:
only the call that finds the flag unset waits, and all others go on at once.
-/

namespace Amq.Rpc

open Amq.Transition

/-- The fixed parts of a sender: its options, its serializer and its ids. -/
structure CommandSenderConfig (κ Buffer V : Type) where
  queue : String
  timeoutMs : JsNumber
  replyQueueDisuseExpireMs : JsNumber
  /-- The id that `ReplyQueueConsumer` generates. -/
  replyQueueId : String
  /-- The ids which `idGenerator` generates one after another. -/
  generateId : ℕ → κ
  /-- A string as a message value. -/
  text : String → V
  serialize : CommandMessageContent V → Option Buffer
  /-- The status to which a reply of this content leads: its data when its state
  is `'success'`, and otherwise the deserialized error, or what has been thrown
  meanwhile. -/
  readReply : Buffer → Except (Rejection V) (Option V)

/-- The arguments of `AmqpConnection.sendToQueue`. -/
structure SentCommand (κ Buffer : Type) where
  queue : String
  content : Buffer
  correlationId : κ
  replyQueue : String
  mandatory : Bool
  expireMs : JsNumber
  deriving DecidableEq

/-- How a call of `sendCommand` settles. -/
inductive SendResult (V : Type) where
  | resolved (response : Option V)
  | rejected (error : CommandFailure V)
  /-- With what `consume` has thrown. -/
  | initializationFailed
  /-- With what `serialize` or `sendToQueue` has thrown. -/
  | sendingFailed
  /-- With `CorrelationIdNotFoundError`. -/
  | correlationIdNotFound
  deriving DecidableEq

/-- Where a call of `sendCommand` stands. -/
inductive SendPhase (κ V : Type) where
  /-- It waits for the run of `consume` that it has started, if any. -/
  | initializing (run : Option ℕ)
  | sending (correlationId : κ)
  /-- It waits for a command, which may have been settled when `wait` was
  called. -/
  | waiting (correlationId : κ) (command : ℕ) (isSettled : Bool)
  | settled (result : SendResult V)
  deriving DecidableEq

structure SendCall (κ V : Type) where
  commandName : String
  args : V
  phase : SendPhase κ V
  /-- The correlation id for which the timer of the call is running. -/
  timer : Option κ
  deriving DecidableEq

inductive SenderObservation (κ Buffer : Type) where
  /-- A run of `consume` has registered its consumer. -/
  | consumed (run : ℕ)
  /-- Passed to `amqpConnection.sendToQueue`. -/
  | sent (command : SentCommand κ Buffer)
  deriving DecidableEq

structure CommandSender (κ Buffer V : Type) where
  isInitialized : Bool
  isDisposed : Bool
  /-- The listeners of `initialize` are registered. -/
  isListening : Bool
  commandManager : CommandManager κ V
  replyQueueConsumer : ReplyQueueConsumer
  calls : List (SendCall κ V)
  /-- The tags passed to `amqpConnection.acknowledge`, the latest first. -/
  acknowledged : List ℕ
  /-- What was observable of the sender, the latest entry first. -/
  history : List (SenderObservation κ Buffer)

inductive CommandSenderEvent (κ Buffer V : Type) where
  | sendCommand (commandName : String) (args : V)
  /-- The call goes on after `initialize`. -/
  | initialized (call : ℕ)
  | sendSettled (call : ℕ) (settlement : Settlement)
  /-- The promise of the command that the call waits for has settled. -/
  | answered (call : ℕ)
  | timedOut (call : ℕ)
  | consumeRun (run : ℕ) (event : ConsumeEvent)
  | amqpReconnected
  | amqpChannelRecreated
  | commandMessageReturn (correlationId : κ)
  | replyQueueMessage (content : Buffer) (correlationId : κ) (deliveryTag : ℕ)
  | dispose

namespace CommandSender

variable {κ Buffer V : Type} [DecidableEq κ]

/-- The constructor. -/
def create (config : CommandSenderConfig κ Buffer V) :
    CommandSender κ Buffer V where
  isInitialized := false
  isDisposed := false
  isListening := false
  commandManager := .empty
  replyQueueConsumer :=
    .create (config.queue ++ ":replies:" ++ config.replyQueueId)
      config.replyQueueDisuseExpireMs
  calls := []
  acknowledged := []
  history := []

/-- `initialize`: the sender, and the run of `consume` that it awaits. -/
def initializeSender (sender : CommandSender κ Buffer V) :
    CommandSender κ Buffer V × Option ℕ :=
  if sender.isInitialized then
    (sender, none)
  else
    ({ sender with
        isInitialized := true
        isListening := true
        replyQueueConsumer := sender.replyQueueConsumer.consume },
      some sender.replyQueueConsumer.runs.length)

/-- `sendCommand` up to its first await. -/
def sendCommand
    (sender : CommandSender κ Buffer V) (commandName : String) (args : V) :
    CommandSender κ Buffer V :=
  let initialized := sender.initializeSender
  { initialized.1 with
    calls :=
      sender.calls ++
        [{ commandName := commandName
           args := args
           phase := .initializing initialized.2
           timer := none }] }

def setCall
    (sender : CommandSender κ Buffer V) (index : ℕ) (call : SendCall κ V) :
    CommandSender κ Buffer V :=
  { sender with calls := sender.calls.set index call }

/-- The call settles; the `finally` clause clears its timer. -/
def settle
    (sender : CommandSender κ Buffer V) (index : ℕ) (call : SendCall κ V)
    (result : SendResult V) : CommandSender κ Buffer V :=
  sender.setCall index { call with phase := .settled result, timer := none }

/-- `commandInterruptedError`. -/
def interrupted
    (config : CommandSenderConfig κ Buffer V) (call : SendCall κ V) :
    SendResult V :=
  .rejected
    (.commandError .commandInterrupted config.queue call.commandName call.args)

/-- `sendCommand` from `initialize` to its next await. -/
def send
    (config : CommandSenderConfig κ Buffer V)
    (sender : CommandSender κ Buffer V) (index : ℕ) (call : SendCall κ V) :
    CommandSender κ Buffer V :=
  if sender.isDisposed then
    sender.settle index call (interrupted config call)
  else
    let created :=
      sender.commandManager.create config.generateId config.queue
        call.commandName call.args
    let sender := { sender with commandManager := created.1 }
    match config.serialize ⟨config.text call.commandName, call.args⟩ with
    | none => sender.settle index call .sendingFailed
    | some content =>
        { sender.setCall index
            { call with
              phase := .sending created.2
              timer := some created.2 } with
          history :=
            .sent
                { queue := config.queue
                  content := content
                  correlationId := created.2
                  replyQueue := sender.replyQueueConsumer.replyQueue
                  mandatory := true
                  expireMs := config.timeoutMs } ::
              sender.history }

/-- The await on `initialize` is over. -/
def settleInitialize
    (config : CommandSenderConfig κ Buffer V)
    (sender : CommandSender κ Buffer V) (index : ℕ) :
    Option (CommandSender κ Buffer V) :=
  match sender.calls[index]? with
  | none => none
  | some call =>
      match call.phase with
      | .initializing none => some (sender.send config index call)
      | .initializing (some run) =>
          match sender.replyQueueConsumer.runs[run]? with
          | none => none
          | some phase =>
              if phase.isResolved then
                some (sender.send config index call)
              else if phase = .failed then
                some (sender.settle index call .initializationFailed)
              else
                none
      | _ => none

/-- `commandManager.wait` as `sendCommand` calls it. -/
def waitForReply
    (sender : CommandSender κ Buffer V) (index : ℕ) (call : SendCall κ V)
    (correlationId : κ) : CommandSender κ Buffer V :=
  match sender.commandManager.get correlationId with
  | none => sender.settle index call .correlationIdNotFound
  | some command =>
      let isSettled :=
        (sender.commandManager.commands[command]?).any
          fun object => !object.status matches .ready
      { sender.setCall index
          { call with phase := .waiting correlationId command isSettled } with
        commandManager := sender.commandManager.update command (·.wait index) }

/-- The await on `sendToQueue` is over. -/
def settleSend
    (config : CommandSenderConfig κ Buffer V)
    (sender : CommandSender κ Buffer V) (index : ℕ) (settlement : Settlement) :
    Option (CommandSender κ Buffer V) :=
  match sender.calls[index]? with
  | none => none
  | some call =>
      match call.phase, settlement with
      | .sending correlationId, .fulfilled =>
          if sender.isDisposed then
            some (sender.settle index call (interrupted config call))
          else
            some (sender.waitForReply index call correlationId)
      | .sending _, .rejected => some (sender.settle index call .sendingFailed)
      | _, _ => none

/-- What a call that waits for a command gets once the command is settled. -/
def statusResult : CommandStatus V → Option (SendResult V)
  | .ready => none
  | .succeeded response => some (.resolved response)
  | .failed error => some (.rejected error)

/-- The await on `wait` is over: its `finally` callback has deleted the command,
and the call settles.  A promise whose callbacks have been replaced by those of a
later `wait` never settles. -/
def settleWait (sender : CommandSender κ Buffer V) (index : ℕ) :
    Option (CommandSender κ Buffer V) :=
  match sender.calls[index]? with
  | none => none
  | some call =>
      match call.phase with
      | .waiting correlationId command isSettled =>
          match sender.commandManager.commands[command]? with
          | none => none
          | some object =>
              match statusResult object.status with
              | none => none
              | some result =>
                  if isSettled = true ∨ object.waiter = some index then
                    some
                      ({ sender with
                          commandManager :=
                            sender.commandManager.delete correlationId }.settle
                        index call result)
                  else
                    none
      | _ => none

/-- The timer of a call fires. -/
def timeOut (sender : CommandSender κ Buffer V) (index : ℕ) :
    Option (CommandSender κ Buffer V) :=
  match sender.calls[index]? with
  | none => none
  | some call =>
      match call.timer with
      | none => none
      | some correlationId =>
          some
            { sender.setCall index { call with timer := none } with
              commandManager :=
                sender.commandManager.failOneWithCode correlationId
                  .commandTimedOut }

/-- A run of `consume` moves on. -/
def stepConsumer
    (sender : CommandSender κ Buffer V) (run : ℕ) (event : ConsumeEvent) :
    Option (CommandSender κ Buffer V) :=
  (sender.replyQueueConsumer.step run event).map fun consumer =>
    { sender with
      replyQueueConsumer := consumer
      history :=
        if consumer.runs[run]? = some .completed then
          .consumed run :: sender.history
        else
          sender.history }

/-- `handleAmqpReconnected` and `handleAmqpChannelRecreated`. -/
def consumeAgain (sender : CommandSender κ Buffer V) : CommandSender κ Buffer V :=
  if sender.isListening then
    { sender with replyQueueConsumer := sender.replyQueueConsumer.consume }
  else
    sender

def handleCommandMessageReturn
    (sender : CommandSender κ Buffer V) (correlationId : κ) :
    CommandSender κ Buffer V :=
  if sender.isListening then
    { sender with
      commandManager :=
        sender.commandManager.failOneWithCode correlationId .commandDismissed }
  else
    sender

/-- `handleReplyQueueMessage`, which the consumer calls unless it is disposed. -/
def handleReplyQueueMessage
    (config : CommandSenderConfig κ Buffer V)
    (sender : CommandSender κ Buffer V)
    (content : Buffer) (correlationId : κ) (deliveryTag : ℕ) :
    CommandSender κ Buffer V :=
  if sender.isListening && !sender.replyQueueConsumer.isDisposed then
    { sender with
      commandManager :=
        match config.readReply content with
        | .ok data => sender.commandManager.succeed correlationId data
        | .error error =>
            sender.commandManager.failOneWithError correlationId error
      acknowledged := deliveryTag :: sender.acknowledged }
  else
    sender

def dispose (sender : CommandSender κ Buffer V) : CommandSender κ Buffer V :=
  if sender.isDisposed then
    sender
  else
    { sender with
      isDisposed := true
      isListening := false
      commandManager := sender.commandManager.failAllWithCode .commandCancelled
      replyQueueConsumer := sender.replyQueueConsumer.dispose }

def step
    (config : CommandSenderConfig κ Buffer V)
    (sender : CommandSender κ Buffer V) :
    CommandSenderEvent κ Buffer V → Option (CommandSender κ Buffer V)
  | .sendCommand commandName args => some (sender.sendCommand commandName args)
  | .initialized call => sender.settleInitialize config call
  | .sendSettled call settlement => sender.settleSend config call settlement
  | .answered call => sender.settleWait call
  | .timedOut call => sender.timeOut call
  | .consumeRun run event => sender.stepConsumer run event
  | .amqpReconnected => some sender.consumeAgain
  | .amqpChannelRecreated => some sender.consumeAgain
  | .commandMessageReturn correlationId =>
      some (sender.handleCommandMessageReturn correlationId)
  | .replyQueueMessage content correlationId deliveryTag =>
      some
        (sender.handleReplyQueueMessage config content correlationId deliveryTag)
  | .dispose => some sender.dispose

/-- The sender as a machine. -/
def machine (config : CommandSenderConfig κ Buffer V) :
    Machine (CommandSender κ Buffer V) (CommandSenderEvent κ Buffer V) where
  initial := create config
  step := step config

/-- A run of `consume` has registered a consumer before. -/
def HasConsumed (history : List (SenderObservation κ Buffer)) : Prop :=
  ∃ run, .consumed run ∈ history

/-- Each command was sent after a run of `consume` had registered a consumer. -/
def SentAfterConsume : List (SenderObservation κ Buffer) → Prop
  | [] => True
  | .consumed _ :: earlier => SentAfterConsume earlier
  | .sent _ :: earlier => HasConsumed earlier ∧ SentAfterConsume earlier

/-- A call that has found the sender initialized does not go on, to send a
command, before a run of `consume` has registered a consumer. -/
def WaitsForConsumer
    (config : CommandSenderConfig κ Buffer V)
    (sender : CommandSender κ Buffer V) :
    CommandSenderEvent κ Buffer V → Prop
  | .initialized index =>
      ∀ call, sender.calls[index]? = some call →
        call.phase = .initializing none →
          sender.isDisposed = true ∨
            config.serialize ⟨config.text call.commandName, call.args⟩ = none ∨
            HasConsumed sender.history
  | _ => True

/-! ## What a step does to the consumer and to the history -/

/-- A call that goes on to send its command, and why `initialize` let it. -/
inductive Ready (sender : CommandSender κ Buffer V) (call : SendCall κ V) : Prop
  | waited (run : ℕ) (phase : ConsumePhase)
      (awaits : call.phase = .initializing (some run))
      (present : sender.replyQueueConsumer.runs[run]? = some phase)
      (resolved : phase.isResolved = true)
  | skipped (awaits : call.phase = .initializing none)

/-- What comes of a call whose await on `initialize` is over. -/
inductive InitializeSettled
    (config : CommandSenderConfig κ Buffer V)
    (sender : CommandSender κ Buffer V) (index : ℕ) (call : SendCall κ V) :
    CommandSender κ Buffer V → Prop
  | sends (ready : Ready sender call) :
      InitializeSettled config sender index call (sender.send config index call)
  | fails {run : ℕ} (awaits : call.phase = .initializing (some run))
      (failed : sender.replyQueueConsumer.runs[run]? = some .failed) :
      InitializeSettled config sender index call
        (sender.settle index call .initializationFailed)

/-- What comes of a call whose await on `sendToQueue` is over. -/
inductive SendSettled
    (config : CommandSenderConfig κ Buffer V)
    (sender : CommandSender κ Buffer V) (index : ℕ) (call : SendCall κ V)
    (correlationId : κ) : Settlement → CommandSender κ Buffer V → Prop
  | interrupted (disposed : sender.isDisposed = true) :
      SendSettled config sender index call correlationId .fulfilled
        (sender.settle index call (interrupted config call))
  | waits (active : sender.isDisposed = false) :
      SendSettled config sender index call correlationId .fulfilled
        (sender.waitForReply index call correlationId)
  | fails :
      SendSettled config sender index call correlationId .rejected
        (sender.settle index call .sendingFailed)

inductive Effect
    (config : CommandSenderConfig κ Buffer V)
    (sender : CommandSender κ Buffer V) :
    CommandSenderEvent κ Buffer V → CommandSender κ Buffer V → Prop
  /-- Neither the consumer nor the history changes, and a call that passes
  `initialize` sends nothing. -/
  | quiet {event : CommandSenderEvent κ Buffer V}
      {next : CommandSender κ Buffer V}
      (isDisposed : next.isDisposed = sender.isDisposed)
      (consumer : next.replyQueueConsumer = sender.replyQueueConsumer)
      (history : next.history = sender.history)
      (waits : WaitsForConsumer config sender event) :
      Effect config sender event next
  | consumes {event : CommandSenderEvent κ Buffer V}
      {next : CommandSender κ Buffer V}
      (isDisposed : next.isDisposed = sender.isDisposed)
      (consumer :
        next.replyQueueConsumer = sender.replyQueueConsumer.consume)
      (history : next.history = sender.history)
      (waits : WaitsForConsumer config sender event) :
      Effect config sender event next
  | consumerStep {run : ℕ} {event : ConsumeEvent}
      {consumer : ReplyQueueConsumer}
      (stepped : sender.replyQueueConsumer.step run event = some consumer) :
      Effect config sender (.consumeRun run event)
        { sender with
          replyQueueConsumer := consumer
          history :=
            if consumer.runs[run]? = some .completed then
              .consumed run :: sender.history
            else
              sender.history }
  | sends {index : ℕ} {call : SendCall κ V} {command : SentCommand κ Buffer}
      {next : CommandSender κ Buffer V}
      (present : sender.calls[index]? = some call)
      (ready : Ready sender call)
      (active : sender.isDisposed = false)
      (serialized :
        config.serialize ⟨config.text call.commandName, call.args⟩ ≠ none)
      (isDisposed : next.isDisposed = sender.isDisposed)
      (consumer : next.replyQueueConsumer = sender.replyQueueConsumer)
      (history : next.history = .sent command :: sender.history) :
      Effect config sender (.initialized index) next
  | disposes {next : CommandSender κ Buffer V}
      (isDisposed : next.isDisposed = true)
      (consumer :
        next.replyQueueConsumer = sender.replyQueueConsumer.dispose)
      (history : next.history = sender.history) :
      Effect config sender .dispose next

variable {config : CommandSenderConfig κ Buffer V}
variable {sender next : CommandSender κ Buffer V}

omit [DecidableEq κ] in
theorem Ready.initializing {call : SendCall κ V} (ready : Ready sender call) :
    ∃ run, call.phase = .initializing run := by
  cases ready with
  | waited run _ awaits _ _ => exact ⟨some run, awaits⟩
  | skipped awaits => exact ⟨none, awaits⟩

theorem settleInitialize_cases
    {index : ℕ}
    (stepped : sender.settleInitialize config index = some next) :
    ∃ call, sender.calls[index]? = some call ∧
      InitializeSettled config sender index call next := by
  unfold settleInitialize at stepped
  split at stepped
  · cases stepped
  · rename_i call present
    refine ⟨call, present, ?_⟩
    split at stepped
    · rename_i awaits
      cases stepped
      exact .sends (.skipped awaits)
    · rename_i run awaits
      split at stepped
      · cases stepped
      · rename_i phase found
        split at stepped
        · rename_i resolved
          cases stepped
          exact .sends (.waited run phase awaits found resolved)
        · split at stepped
          · rename_i failed
            cases stepped
            exact .fails awaits (failed ▸ found)
          · cases stepped
    · cases stepped

theorem settleSend_cases
    {index : ℕ} {settlement : Settlement}
    (stepped : sender.settleSend config index settlement = some next) :
    ∃ call correlationId, sender.calls[index]? = some call ∧
      call.phase = .sending correlationId ∧
        SendSettled config sender index call correlationId settlement next := by
  unfold settleSend at stepped
  split at stepped
  · cases stepped
  · rename_i call present
    split at stepped
    · rename_i correlationId sending
      refine ⟨call, correlationId, present, sending, ?_⟩
      split at stepped
      · rename_i disposed
        cases stepped
        exact .interrupted disposed
      · rename_i active
        cases stepped
        exact .waits (Bool.eq_false_of_not_eq_true active)
    · rename_i correlationId sending
      cases stepped
      exact ⟨call, correlationId, present, sending, .fails⟩
    · cases stepped

/-- An await on `wait` ends only with the outcome of its command. -/
theorem settleWait_cases
    {index : ℕ} (stepped : sender.settleWait index = some next) :
    ∃ (call : SendCall κ V) (correlationId : κ) (command : ℕ) (isSettled : Bool)
      (object : Command V) (result : SendResult V),
      sender.calls[index]? = some call ∧
        call.phase = .waiting correlationId command isSettled ∧
          sender.commandManager.commands[command]? = some object ∧
            statusResult object.status = some result ∧
              next =
                { sender with
                    commandManager :=
                      sender.commandManager.delete correlationId }.settle
                  index call result := by
  unfold settleWait at stepped
  split at stepped
  · cases stepped
  · rename_i call present
    split at stepped
    · rename_i correlationId command isSettled waiting
      split at stepped
      · cases stepped
      · rename_i object itsCommand
        split at stepped
        · cases stepped
        · rename_i result answer
          split at stepped
          · cases stepped
            exact ⟨call, correlationId, command, isSettled, object, result, present,
              waiting, itsCommand, answer, rfl⟩
          · cases stepped
    · cases stepped

theorem timeOut_cases
    {index : ℕ} (stepped : sender.timeOut index = some next) :
    ∃ (call : SendCall κ V) (correlationId : κ),
      sender.calls[index]? = some call ∧ call.timer = some correlationId ∧
        next =
          { sender.setCall index { call with timer := none } with
            commandManager :=
              sender.commandManager.failOneWithCode correlationId
                .commandTimedOut } := by
  unfold timeOut at stepped
  split at stepped
  · cases stepped
  · rename_i call present
    split at stepped
    · cases stepped
    · rename_i correlationId running
      cases stepped
      exact ⟨call, correlationId, present, running, rfl⟩

/-- A call that goes on after `initialize` sends its command unless the sender is
disposed of or the command cannot be serialized. -/
theorem effect_of_send
    {index : ℕ} {call : SendCall κ V}
    (present : sender.calls[index]? = some call) (ready : Ready sender call) :
    Effect config sender (.initialized index) (sender.send config index call) := by
  have own :
      ∀ other, sender.calls[index]? = some other → other = call :=
    fun other found => Option.some.inj (found.symm.trans present)
  unfold send
  split
  · rename_i disposed
    exact .quiet rfl rfl rfl fun _ _ _ => Or.inl disposed
  · rename_i active
    dsimp only
    split
    · rename_i unserialized
      refine .quiet rfl rfl rfl fun other found _ => Or.inr (Or.inl ?_)
      rw [own other found]
      exact unserialized
    · rename_i content serialized
      refine .sends present ready (Bool.not_eq_true _ ▸ active) ?_ rfl rfl rfl
      rw [serialized]
      exact nofun

theorem effect_of_settleInitialize
    {index : ℕ}
    (stepped : sender.settleInitialize config index = some next) :
    Effect config sender (.initialized index) next := by
  obtain ⟨call, present, settled⟩ := settleInitialize_cases stepped
  cases settled with
  | sends ready => exact effect_of_send present ready
  | fails awaits failed =>
      refine .quiet rfl rfl rfl ?_
      intro other same skipped
      rw [Option.some.inj (same.symm.trans present), awaits] at skipped
      cases skipped

theorem waitForReply_frame
    (sender : CommandSender κ Buffer V) (index : ℕ) (call : SendCall κ V)
    (correlationId : κ) :
    (sender.waitForReply index call correlationId).isDisposed =
        sender.isDisposed ∧
      (sender.waitForReply index call correlationId).replyQueueConsumer =
        sender.replyQueueConsumer ∧
      (sender.waitForReply index call correlationId).history =
        sender.history := by
  unfold waitForReply
  split
  · exact ⟨rfl, rfl, rfl⟩
  · exact ⟨rfl, rfl, rfl⟩

theorem effect_of_settleSend
    {index : ℕ} {settlement : Settlement}
    (stepped : sender.settleSend config index settlement = some next) :
    Effect config sender (.sendSettled index settlement) next := by
  obtain ⟨call, correlationId, present, sending, settled⟩ :=
    settleSend_cases stepped
  cases settled with
  | interrupted disposed => exact .quiet rfl rfl rfl trivial
  | waits active =>
      obtain ⟨isDisposed, consumer, history⟩ :=
        waitForReply_frame sender index call correlationId
      exact .quiet isDisposed consumer history trivial
  | fails => exact .quiet rfl rfl rfl trivial

theorem effect_of_settleWait
    {index : ℕ} (stepped : sender.settleWait index = some next) :
    Effect config sender (.answered index) next := by
  obtain ⟨_, _, _, _, _, _, _, _, _, _, rfl⟩ := settleWait_cases stepped
  exact .quiet rfl rfl rfl trivial

theorem effect_of_timeOut
    {index : ℕ} (stepped : sender.timeOut index = some next) :
    Effect config sender (.timedOut index) next := by
  obtain ⟨_, _, _, _, rfl⟩ := timeOut_cases stepped
  exact .quiet rfl rfl rfl trivial

omit [DecidableEq κ] in
theorem effect_of_consumeAgain
    {event : CommandSenderEvent κ Buffer V}
    (waits : WaitsForConsumer config sender event) :
    Effect config sender event sender.consumeAgain := by
  unfold consumeAgain
  split
  · exact .consumes rfl rfl rfl waits
  · exact .quiet rfl rfl rfl waits

omit [DecidableEq κ] in
theorem effect_of_sendCommand (commandName : String) (args : V) :
    Effect config sender (.sendCommand commandName args)
      (sender.sendCommand commandName args) := by
  unfold sendCommand initializeSender
  split
  · exact .quiet rfl rfl rfl trivial
  · exact .consumes rfl rfl rfl trivial

theorem effect_of_step
    {event : CommandSenderEvent κ Buffer V}
    (stepped : sender.step config event = some next) :
    Effect config sender event next := by
  cases event with
  | sendCommand commandName args =>
      cases stepped
      exact effect_of_sendCommand commandName args
  | initialized index => exact effect_of_settleInitialize stepped
  | sendSettled index settlement => exact effect_of_settleSend stepped
  | answered index => exact effect_of_settleWait stepped
  | timedOut index => exact effect_of_timeOut stepped
  | consumeRun run event =>
      obtain ⟨consumer, moved, rfl⟩ := Option.map_eq_some_iff.mp stepped
      exact .consumerStep moved
  | amqpReconnected =>
      cases stepped
      exact effect_of_consumeAgain trivial
  | amqpChannelRecreated =>
      cases stepped
      exact effect_of_consumeAgain trivial
  | commandMessageReturn correlationId =>
      cases stepped
      unfold handleCommandMessageReturn
      split
      · exact .quiet rfl rfl rfl trivial
      · exact .quiet rfl rfl rfl trivial
  | replyQueueMessage content correlationId deliveryTag =>
      cases stepped
      unfold handleReplyQueueMessage
      split
      · exact .quiet rfl rfl rfl trivial
      · exact .quiet rfl rfl rfl trivial
  | dispose =>
      cases stepped
      unfold dispose
      split
      · exact .quiet rfl rfl rfl trivial
      · exact .disposes rfl rfl rfl

/-! ## Runs of `consume` and the history -/

/-- What the runs of `consume` tell: a run is given up only by a sender that is
disposed of, and one that has completed is in the history. -/
structure ConsumeRecord (sender : CommandSender κ Buffer V) : Prop where
  disposed :
    sender.replyQueueConsumer.isDisposed = true → sender.isDisposed = true
  abandoned :
    .abandoned ∈ sender.replyQueueConsumer.runs → sender.isDisposed = true
  cancelling :
    ∀ consumerTag,
      .cancelling consumerTag ∈ sender.replyQueueConsumer.runs →
        sender.isDisposed = true
  completed :
    .completed ∈ sender.replyQueueConsumer.runs → HasConsumed sender.history

omit [DecidableEq κ] in
theorem consumeRecord_create (config : CommandSenderConfig κ Buffer V) :
    (create config).ConsumeRecord :=
  ⟨nofun, nofun, nofun, nofun⟩

omit [DecidableEq κ] in
theorem ConsumeRecord.transfer
    (record : sender.ConsumeRecord)
    (isDisposed : next.isDisposed = sender.isDisposed)
    (consumer : next.replyQueueConsumer = sender.replyQueueConsumer)
    (history : HasConsumed sender.history → HasConsumed next.history) :
    next.ConsumeRecord := by
  refine ⟨?_, ?_, ?_, ?_⟩
  · rw [consumer, isDisposed]
    exact record.disposed
  · rw [consumer, isDisposed]
    exact record.abandoned
  · rw [consumer, isDisposed]
    exact record.cancelling
  · rw [consumer]
    exact fun member => history (record.completed member)

/-- A new run has not got anywhere yet. -/
theorem mem_consume
    {consumer : ReplyQueueConsumer} {phase : ConsumePhase}
    (member : phase ∈ consumer.consume.runs) (other : phase ≠ .assertingQueue) :
    phase ∈ consumer.runs := by
  rcases List.mem_append.mp member with earlier | new
  · exact earlier
  · exact absurd (List.mem_singleton.mp new) other

omit [DecidableEq κ] in
/-- The run that moves on keeps the record: it is given up only when the consumer
is disposed of, and its completion is recorded. -/
theorem ConsumeRecord.consumerStep
    {run : ℕ} {event : ConsumeEvent} {consumer : ReplyQueueConsumer}
    (record : sender.ConsumeRecord)
    (stepped : sender.replyQueueConsumer.step run event = some consumer) :
    ConsumeRecord
      { sender with
        replyQueueConsumer := consumer
        history :=
          if consumer.runs[run]? = some .completed then
            .consumed run :: sender.history
          else
            sender.history } := by
  obtain ⟨old, new, present, moved, isDisposed, runs⟩ :=
    ReplyQueueConsumer.step_cases stepped
  have moves := ConsumePhase.moves_of_next moved
  have inRange := (List.getElem?_eq_some_iff.mp present).1
  have placed : consumer.runs[run]? = some new := by
    rw [runs, List.getElem?_set_self inRange]
  have known : old ∈ sender.replyQueueConsumer.runs :=
    List.mem_of_getElem? present
  refine ⟨?_, ?_, ?_, ?_⟩
  · intro disposed
    exact record.disposed (isDisposed ▸ disposed)
  · intro member
    rw [runs] at member
    rcases List.mem_or_eq_of_mem_set member with earlier | same
    · exact record.abandoned earlier
    · subst same
      cases moves with
      | abandoned disposed => exact record.disposed disposed
      | cancelled consumerTag settlement =>
          exact record.cancelling consumerTag known
  · intro consumerTag member
    rw [runs] at member
    rcases List.mem_or_eq_of_mem_set member with earlier | same
    · exact record.cancelling consumerTag earlier
    · subst same
      cases moves with
      | rollback consumerTag disposed => exact record.disposed disposed
  · intro member
    rw [runs] at member
    dsimp only
    rcases List.mem_or_eq_of_mem_set member with earlier | same
    · obtain ⟨first, consumed⟩ := record.completed earlier
      split
      · exact ⟨first, List.mem_cons_of_mem _ consumed⟩
      · exact ⟨first, consumed⟩
    · subst same
      rw [if_pos placed]
      exact ⟨run, List.mem_cons_self⟩

theorem consumeRecord_preserved (config : CommandSenderConfig κ Buffer V) :
    (machine config).Preserved ConsumeRecord := by
  intro sender event next record stepped
  cases effect_of_step stepped with
  | quiet isDisposed consumer history _ =>
      exact record.transfer isDisposed consumer (by rw [history]; exact id)
  | consumes isDisposed consumer history _ =>
      refine ⟨?_, ?_, ?_, ?_⟩
      · rw [consumer, isDisposed]
        exact record.disposed
      · rw [consumer, isDisposed]
        exact fun member => record.abandoned (mem_consume member nofun)
      · rw [consumer, isDisposed]
        exact fun consumerTag member =>
          record.cancelling consumerTag (mem_consume member nofun)
      · rw [consumer, history]
        exact fun member => record.completed (mem_consume member nofun)
  | consumerStep moved => exact record.consumerStep moved
  | sends present ready active serialized isDisposed consumer history =>
      refine record.transfer isDisposed consumer ?_
      rw [history]
      rintro ⟨run, consumed⟩
      exact ⟨run, List.mem_cons_of_mem _ consumed⟩
  | disposes isDisposed consumer history =>
      refine ⟨fun _ => isDisposed, fun _ => isDisposed, fun _ _ => isDisposed, ?_⟩
      rw [consumer, history]
      unfold ReplyQueueConsumer.dispose
      rw [ReplyQueueConsumer.cancelConsumption_runs]
      exact record.completed

/-! ## When commands are sent too early -/

section

omit [DecidableEq κ]

theorem sentAfterConsume_of_grown
    {history earlier : List (SenderObservation κ Buffer)}
    (added : List (SenderObservation κ Buffer))
    (grown : history = added ++ earlier) (sound : SentAfterConsume history) :
    SentAfterConsume earlier := by
  subst grown
  induction added with
  | nil => exact sound
  | cons entry rest inductionHypothesis =>
      cases entry with
      | consumed run => exact inductionHypothesis sound
      | sent command => exact inductionHypothesis sound.2

theorem history_grows
    {event : CommandSenderEvent κ Buffer V}
    (effect : Effect config sender event next) :
    ∃ added, next.history = added ++ sender.history := by
  cases effect with
  | quiet _ _ history _ => exact ⟨[], history⟩
  | consumes _ _ history _ => exact ⟨[], history⟩
  | consumerStep moved =>
      dsimp only
      split
      · exact ⟨[_], rfl⟩
      · exact ⟨[], rfl⟩
  | sends _ _ _ _ _ _ history => exact ⟨[_], history⟩
  | disposes _ _ history => exact ⟨[], history⟩

/-- A call that has waited for its own run of `consume` finds the consumer
registered unless the sender is disposed of. -/
theorem ConsumeRecord.hasConsumed
    (record : sender.ConsumeRecord) (active : sender.isDisposed = false)
    {run : ℕ} {phase : ConsumePhase}
    (present : sender.replyQueueConsumer.runs[run]? = some phase)
    (resolved : phase.isResolved = true) :
    HasConsumed sender.history := by
  have known := List.mem_of_getElem? present
  cases phase with
  | completed => exact record.completed known
  | abandoned =>
      rw [record.abandoned known] at active
      cases active
  | _ => cases resolved

end

theorem sentAfterConsume_step
    {event : CommandSenderEvent κ Buffer V}
    (record : sender.ConsumeRecord) (sound : SentAfterConsume sender.history)
    (stepped : sender.step config event = some next) :
    SentAfterConsume next.history ↔ WaitsForConsumer config sender event := by
  cases effect_of_step stepped with
  | quiet _ _ history waits =>
      rw [history]
      exact iff_of_true sound waits
  | consumes _ _ history waits =>
      rw [history]
      exact iff_of_true sound waits
  | consumerStep moved =>
      refine iff_of_true ?_ trivial
      dsimp only
      split
      · exact sound
      · exact sound
  | disposes _ _ history =>
      rw [history]
      exact iff_of_true sound trivial
  | @sends index call command _ present ready active serialized _ _ history =>
      rw [history]
      have decided :
          SentAfterConsume (.sent command :: sender.history) ↔
            HasConsumed sender.history :=
        and_iff_left sound
      rw [decided]
      constructor
      · exact fun consumed _ _ _ => Or.inr (Or.inr consumed)
      · intro waits
        cases ready with
        | waited run phase awaits found resolved =>
            exact record.hasConsumed active found resolved
        | skipped awaits =>
            rcases waits call present awaits with disposed | unserialized | consumed
            · rw [disposed] at active
              cases active
            · exact absurd unserialized serialized
            · exact consumed

/-- In a run of the sender every command is sent after a run of `consume` has
registered its consumer exactly when no call that has found the sender
initialized goes on before that. -/
theorem sentAfterConsume_iff
    (config : CommandSenderConfig κ Buffer V)
    (schedule : List (CommandSenderEvent κ Buffer V))
    (final : CommandSender κ Buffer V)
    (execution :
      (machine config).run (create config) schedule = some final) :
    SentAfterConsume final.history ↔
      (machine config).Throughout (WaitsForConsumer config) (create config)
        schedule := by
  refine Machine.sound_iff_throughout
    (fun sender : CommandSender κ Buffer V => SentAfterConsume sender.history)
    (WaitsForConsumer config) (consumeRecord_preserved config) ?_ ?_
    (consumeRecord_create config) trivial execution
  · intro sender event next _ stepped sound
    obtain ⟨added, grown⟩ := history_grows (effect_of_step stepped)
    exact sentAfterConsume_of_grown added grown sound
  · intro sender event next record sound stepped
    exact sentAfterConsume_step record sound stepped

/-- A sender of commands without arguments. -/
def unitConfig : CommandSenderConfig ℕ String Unit where
  queue := "commands"
  timeoutMs := .ofNat 30000
  replyQueueDisuseExpireMs := .ofNat 60000
  replyQueueId := "id"
  generateId := id
  text := fun _ => ()
  serialize := fun _ => some "content"
  readReply := fun _ => .ok none

/-- The first call waits until the reply queue is consumed; a second one comes
later. -/
def consumedFirst : List (CommandSenderEvent ℕ String Unit) :=
  [.sendCommand "first" (), .consumeRun 0 (.queueAsserted .fulfilled),
    .consumeRun 0 (.queueConsumed 7), .initialized 0, .sendCommand "second" (),
    .initialized 1, .replyQueueMessage "reply" 0 1, .sendSettled 0 .fulfilled,
    .answered 0]

theorem sentAfterConsume_iff_consumedFirst :
    ∃ final : CommandSender ℕ String Unit,
      (machine unitConfig).run (create unitConfig) consumedFirst = some final ∧
        SentAfterConsume final.history := by
  refine ⟨_, rfl, (sentAfterConsume_iff unitConfig consumedFirst _ rfl).mpr ?_⟩
  refine Machine.throughout_cons trivial rfl ?_
  refine Machine.throughout_cons trivial rfl ?_
  refine Machine.throughout_cons trivial rfl ?_
  refine Machine.throughout_cons ?_ rfl ?_
  · intro call found skipped
    cases found
    cases skipped
  refine Machine.throughout_cons trivial rfl ?_
  refine Machine.throughout_cons ?_ rfl ?_
  · exact fun _ _ _ => Or.inr (Or.inr ⟨0, by decide⟩)
  refine Machine.throughout_cons trivial rfl ?_
  refine Machine.throughout_cons trivial rfl ?_
  exact Machine.throughout_cons trivial rfl trivial

/-- The second of two concurrent calls is sent although the reply queue has not
even been asserted. -/
theorem concurrentCall_sent_early :
    ¬ ∀ (config : CommandSenderConfig ℕ String Unit)
        (schedule : List (CommandSenderEvent ℕ String Unit))
        (final : CommandSender ℕ String Unit),
        (machine config).run (create config) schedule = some final →
          SentAfterConsume final.history := by
  intro always
  obtain ⟨⟨run, consumed⟩, _⟩ :=
    always unitConfig
      [.sendCommand "first" (), .sendCommand "second" (), .initialized 1] _ rfl
  cases consumed

end CommandSender

end Amq.Rpc
