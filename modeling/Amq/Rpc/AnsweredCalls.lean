import Amq.Rpc.FirstOutcome

/-!
# Calls, their commands and the replies

A sender makes a command for each call that it sends.  What a call settles with
is the status of its command, and a command gets its status from a reply that
has arrived under its id, or from an error that names the command itself.
-/


namespace Amq.Rpc

open Function Amq.Transition

variable {κ Buffer V : Type} [DecidableEq κ]

/-- Why a command has its status, when these replies have arrived. -/
def Explained
    (config : CommandSenderConfig κ Buffer V) (received : κ → Buffer → Prop)
    (index : ℕ) (command : Command V) : Prop :=
  match command.status with
  | .ready => True
  | .succeeded data =>
      ∃ content, received (config.generateId index) content ∧
        config.readReply content = .ok data
  | .failed (.rejection error) =>
      ∃ content, received (config.generateId index) content ∧
        config.readReply content = .error error
  | .failed (.commandError _ queue commandName args) =>
      queue = config.queue ∧ commandName = command.commandName ∧
        args = command.args

/-- The outcome is that of a reply, or the error of a command. -/
def Outcome.ExplainedBy
    (config : CommandSenderConfig κ Buffer V) (received : κ → Buffer → Prop)
    (correlationId : κ) : Outcome V → Prop
  | .succeeded data =>
      ∃ content, received correlationId content ∧
        config.readReply content = .ok data
  | .failed error =>
      ∃ content, received correlationId content ∧
        config.readReply content = .error error
  | .failedWithCode _ => True

section Commands

variable {config : CommandSenderConfig κ Buffer V}

section

omit [DecidableEq κ]

theorem Command.settleAll_identity
    (command : Command V) (outcomes : List (Outcome V)) :
    (command.settleAll outcomes).queue = command.queue ∧
      (command.settleAll outcomes).commandName = command.commandName ∧
      (command.settleAll outcomes).args = command.args := by
  by_cases ready : command.status = .ready
  · cases outcomes with
    | nil => exact ⟨rfl, rfl, rfl⟩
    | cons first later =>
        rw [Command.settleAll_of_ready ready]
        exact ⟨rfl, rfl, rfl⟩
  · rw [Command.settleAll_of_settled ready]
    exact ⟨rfl, rfl, rfl⟩

/-- Outcomes that are explained leave a command with an explained status. -/
theorem Explained.settleAll
    {received : κ → Buffer → Prop} {index : ℕ} {command : Command V}
    (explained : Explained config received index command)
    (itsQueue : command.queue = config.queue)
    {outcomes : List (Outcome V)}
    (byReplies :
      ∀ outcome ∈ outcomes,
        outcome.ExplainedBy config received (config.generateId index))
    (waiter : Option ℕ) :
    Explained config received index
      { command.settleAll outcomes with waiter := waiter } := by
  by_cases ready : command.status = .ready
  · cases outcomes with
    | nil => exact explained
    | cons first later =>
        rw [Command.settleAll_of_ready ready]
        have itsReply := byReplies first List.mem_cons_self
        cases first with
        | succeeded data => exact itsReply
        | failed error => exact itsReply
        | failedWithCode code => exact ⟨itsQueue, rfl, rfl⟩
  · rw [Command.settleAll_of_settled ready]
    exact explained

theorem Explained.mono
    {received more : κ → Buffer → Prop} {index : ℕ} {command : Command V}
    (explained : Explained config received index command)
    (grows : ∀ correlationId content,
      received correlationId content → more correlationId content) :
    Explained config more index command := by
  unfold Explained at explained ⊢
  split
  · trivial
  · rename_i data status
    rw [status] at explained
    obtain ⟨content, arrived, read⟩ := explained
    exact ⟨content, grows _ _ arrived, read⟩
  · rename_i error status
    rw [status] at explained
    obtain ⟨content, arrived, read⟩ := explained
    exact ⟨content, grows _ _ arrived, read⟩
  · rename_i code queue commandName args status
    rw [status] at explained
    exact explained

end

end Commands

namespace Ledger

variable {config : CommandSenderConfig κ Buffer V}

/-- Where a command of the next state comes from: it was there before, or it has
just been made for a call that is about to be sent. -/
theorem Moves.command_origin
    {ledger next : Ledger κ V} {records : List (κ × Outcome V)} {abandoned : Bool}
    (moved : Moves config ledger records abandoned next)
    (unique : Injective config.generateId)
    (correlated : Correlated config ledger)
    {index : ℕ} {command : Command V}
    (present : next.commandManager.commands[index]? = some command) :
    (∃ earlier, ledger.commandManager.commands[index]? = some earlier) ∨
      (index = ledger.commandManager.commands.length ∧
        ∃ commandName args,
          command = Command.create config.queue commandName args) := by
  have created (call : SendCall κ V)
      (found :
        (ledger.commandManager.create config.generateId config.queue
            call.commandName call.args).1.commands[index]? = some command) :
      (∃ earlier, ledger.commandManager.commands[index]? = some earlier) ∨
        (index = ledger.commandManager.commands.length ∧
          ∃ commandName args,
            command = Command.create config.queue commandName args) := by
    rw [CommandManager.create_fst config.generateId ledger.commandManager _ _ _
      (correlated.wellFormed.unused unique)] at found
    rcases concat_cases found with earlier | ⟨last, itself⟩
    · exact Or.inl ⟨command, earlier⟩
    · exact Or.inr ⟨last, _, _, itself⟩
  have settledOne (correlationId : κ) (outcome : Outcome V)
      (found :
        (ledger.commandManager.settleOne correlationId outcome).commands[index]? =
          some command) :
      ∃ earlier, ledger.commandManager.commands[index]? = some earlier := by
    rw [correlated.wellFormed.settleOne_commands unique] at found
    obtain ⟨earlier, held, _⟩ := Option.map_eq_some_iff.mp found
    exact ⟨earlier, held⟩
  cases moved with
  | unserialized => exact created _ present
  | sends => exact created _ present
  | @waits place own call correlationId found sending known =>
      rw [CommandManager.update_commands] at present
      obtain ⟨earlier, held, _⟩ := Option.map_eq_some_iff.mp present
      exact Or.inl ⟨earlier, held⟩
  | timesOut => exact Or.inl (settledOne _ _ present)
  | records correlationId outcome =>
      exact Or.inl (settledOne correlationId outcome present)
  | cancels =>
      rw [CommandManager.failAllWithCode_commands] at present
      obtain ⟨earlier, held, _⟩ := Option.map_eq_some_iff.mp present
      exact Or.inl ⟨earlier, held⟩
  | _ => exact Or.inl ⟨command, present⟩

/-- Every command is one of this queue, and its status is explained. -/
def AllExplained
    (config : CommandSenderConfig κ Buffer V) (received : κ → Buffer → Prop)
    (ledger : Ledger κ V) : Prop :=
  ∀ (index : ℕ) (command : Command V),
    ledger.commandManager.commands[index]? = some command →
      command.queue = config.queue ∧ Explained config received index command

theorem AllExplained.moves
    {ledger next : Ledger κ V} {records : List (κ × Outcome V)} {abandoned : Bool}
    {received : κ → Buffer → Prop}
    (explained : AllExplained config received ledger)
    (unique : Injective config.generateId)
    (correlated : Correlated config ledger)
    (moved : Moves config ledger records abandoned next)
    (byReplies :
      ∀ correlationId outcome, (correlationId, outcome) ∈ records →
        outcome.ExplainedBy config received correlationId) :
    AllExplained config received next := by
  intro index command present
  rcases moved.command_origin unique correlated present with
    ⟨earlier, held⟩ | ⟨_, commandName, args, rfl⟩
  · obtain ⟨itsQueue, itsStatus⟩ := explained index earlier held
    obtain ⟨waiter, placed⟩ := moved.commands unique correlated held
    cases placed.symm.trans present
    refine ⟨(Command.settleAll_identity earlier _).1.trans itsQueue, ?_⟩
    refine itsStatus.settleAll itsQueue ?_ waiter
    intro outcome member
    obtain ⟨entry, kept, rfl⟩ := List.mem_map.mp member
    obtain ⟨recorded, own⟩ := List.mem_filter.mp kept
    have same : entry.1 = config.generateId index := of_decide_eq_true own
    rw [← same]
    exact byReplies entry.1 entry.2 recorded
  · exact ⟨rfl, trivial⟩

/-! ## The command of a call -/

/-- The command was made for the call. -/
def IsCommandOf
    (manager : CommandManager κ V) (command : ℕ) (object : Command V)
    (call : SendCall κ V) : Prop :=
  manager.commands[command]? = some object ∧
    object.commandName = call.commandName ∧ object.args = call.args

section Step

variable {ledger next : Ledger κ V} {records : List (κ × Outcome V)}
variable {abandoned : Bool}

theorem IsCommandOf.moves
    {command : ℕ} {object : Command V} {call : SendCall κ V}
    (isCommand : IsCommandOf ledger.commandManager command object call)
    (unique : Injective config.generateId)
    (correlated : Correlated config ledger)
    (moved : Moves config ledger records abandoned next) :
    ∃ object', IsCommandOf next.commandManager command object' call ∧
      (object.status ≠ .ready → object'.status = object.status) := by
  obtain ⟨present, sameName, sameArgs⟩ := isCommand
  obtain ⟨waiter, placed⟩ := moved.commands unique correlated present
  obtain ⟨_, itsName, itsArgs⟩ :=
    Command.settleAll_identity object
      (outcomesFor (config.generateId command) records)
  refine ⟨_, ⟨placed, itsName.trans sameName, itsArgs.trans sameArgs⟩, ?_⟩
  intro settled
  rw [Command.settleAll_of_settled settled]

/-- The commands are never fewer. -/
theorem Moves.commands_length
    (moved : Moves config ledger records abandoned next)
    (unique : Injective config.generateId)
    (correlated : Correlated config ledger) :
    ledger.commandManager.commands.length ≤
      next.commandManager.commands.length := by
  by_contra shorter
  have inRange :
      next.commandManager.commands.length <
        ledger.commandManager.commands.length := Nat.lt_of_not_le shorter
  obtain ⟨waiter, placed⟩ :=
    moved.commands unique correlated (List.getElem?_eq_getElem inRange)
  have known := (List.getElem?_eq_some_iff.mp placed).1
  omega

end Step

end Ledger

/-! ## The commands that are sent -/

namespace CommandSender

variable {config : CommandSenderConfig κ Buffer V}
variable {sender next : CommandSender κ Buffer V}

/-- The reply queue of a sender. -/
def replyQueueOf (config : CommandSenderConfig κ Buffer V) : String :=
  config.queue ++ ":replies:" ++ config.replyQueueId

/-- What is sent for a command. -/
structure IsSentFor
    (config : CommandSenderConfig κ Buffer V) (index : ℕ) (object : Command V)
    (command : SentCommand κ Buffer) : Prop where
  queue : command.queue = config.queue
  correlationId : command.correlationId = config.generateId index
  replyQueue : command.replyQueue = replyQueueOf config
  content :
    config.serialize ⟨config.text object.commandName, object.args⟩ =
      some command.content

/-- Whatever has been sent was sent for a command of the sender, with the reply
queue of the sender. -/
structure SentRecord
    (config : CommandSenderConfig κ Buffer V)
    (sender : CommandSender κ Buffer V) : Prop where
  replyQueue : sender.replyQueueConsumer.replyQueue = replyQueueOf config
  sent :
    ∀ command, .sent command ∈ sender.history →
      ∃ (index : ℕ) (object : Command V),
        sender.commandManager.commands[index]? = some object ∧
          IsSentFor config index object command

theorem sent_of_send
    {index : ℕ} {call : SendCall κ V} {command : SentCommand κ Buffer}
    (member : .sent command ∈ (sender.send config index call).history) :
    .sent command ∈ sender.history ∨
      ∃ content,
        config.serialize ⟨config.text call.commandName, call.args⟩ =
            some content ∧
          (sender.send config index call).commandManager =
            (sender.commandManager.create config.generateId config.queue
              call.commandName call.args).1 ∧
          command =
            { queue := config.queue
              content := content
              correlationId :=
                config.generateId sender.commandManager.generated
              replyQueue := sender.replyQueueConsumer.replyQueue
              mandatory := true
              expireMs := config.timeoutMs } := by
  unfold send at member ⊢
  split at member
  · exact Or.inl member
  · rename_i active
    rw [if_neg active]
    dsimp only at member ⊢
    split at member
    · exact Or.inl member
    · rename_i content serialized
      rcases List.mem_cons.mp member with new | old
      · refine Or.inr ⟨content, serialized, ?_, ?_⟩
        · rfl
        · cases new
          rfl
      · exact Or.inl old

theorem sent_of_step
    {event : CommandSenderEvent κ Buffer V} {command : SentCommand κ Buffer}
    (stepped : sender.step config event = some next)
    (member : .sent command ∈ next.history) :
    .sent command ∈ sender.history ∨
      ∃ commandName args content,
        config.serialize ⟨config.text commandName, args⟩ = some content ∧
          next.commandManager =
            (sender.commandManager.create config.generateId config.queue
              commandName args).1 ∧
          command =
            { queue := config.queue
              content := content
              correlationId :=
                config.generateId sender.commandManager.generated
              replyQueue := sender.replyQueueConsumer.replyQueue
              mandatory := true
              expireMs := config.timeoutMs } := by
  cases effect_of_step stepped with
  | quiet _ _ history _ =>
      rw [history] at member
      exact Or.inl member
  | consumes _ _ history _ =>
      rw [history] at member
      exact Or.inl member
  | consumerStep moved =>
      dsimp only at member
      split at member
      · rcases List.mem_cons.mp member with new | old
        · cases new
        · exact Or.inl old
      · exact Or.inl member
  | disposes _ _ history =>
      rw [history] at member
      exact Or.inl member
  | sends present ready active serialized _ _ _ =>
      obtain ⟨call, _, settled⟩ := settleInitialize_cases stepped
      cases settled with
      | sends =>
          apply (sent_of_send member).imp_right
          intro sent
          exact ⟨_, _, sent⟩
      | fails => exact Or.inl member

omit [DecidableEq κ] in
theorem sentRecord_create (config : CommandSenderConfig κ Buffer V) :
    SentRecord config (create config) :=
  ⟨rfl, fun _ member => by cases member⟩

/-- The reply queue is chosen once. -/
theorem replyQueue_of_step
    {event : CommandSenderEvent κ Buffer V}
    (stepped : sender.step config event = some next) :
    next.replyQueueConsumer.replyQueue = sender.replyQueueConsumer.replyQueue := by
  cases effect_of_step stepped with
  | quiet _ consumer _ _ => rw [consumer]
  | consumes _ consumer _ _ =>
      rw [consumer]
      rfl
  | consumerStep moved => exact ReplyQueueConsumer.step_replyQueue moved
  | sends _ _ _ _ _ consumer _ => rw [consumer]
  | disposes _ consumer _ =>
      rw [consumer]
      exact ReplyQueueConsumer.cancelConsumption_replyQueue _

/-! ## What holds of a sender -/

/-- What a sender knows of its calls, when these replies have reached it. -/
structure Answered
    (config : CommandSenderConfig κ Buffer V) (received : κ → Buffer → Prop)
    (sender : CommandSender κ Buffer V) : Prop where
  correlated : Ledger.Correlated config sender.ledger
  sent : SentRecord config sender
  explained : Ledger.AllExplained config received sender.ledger

section

omit [DecidableEq κ]

theorem answered_create
    (config : CommandSenderConfig κ Buffer V) (received : κ → Buffer → Prop) :
    Answered config received (create config) := by
  refine ⟨correlated_create config, sentRecord_create config, ?_⟩
  intro index command present
  cases present

/-- More replies may have arrived. -/
theorem Answered.mono
    {received more : κ → Buffer → Prop}
    (answered : Answered config received sender)
    (grows : ∀ correlationId content,
      received correlationId content → more correlationId content) :
    Answered config more sender := by
  refine ⟨answered.correlated, answered.sent, ?_⟩
  intro index command present
  obtain ⟨itsQueue, explained⟩ := answered.explained index command present
  exact ⟨itsQueue, explained.mono grows⟩

/-- Only replies record something other than an error of the command. -/
theorem recorded_explained
    {received : κ → Buffer → Prop} {event : CommandSenderEvent κ Buffer V}
    (arrives :
      ∀ content correlationId deliveryTag,
        event = .replyQueueMessage content correlationId deliveryTag →
          received correlationId content)
    {correlationId : κ} {outcome : Outcome V}
    (member : (correlationId, outcome) ∈ sender.recorded config event) :
    outcome.ExplainedBy config received correlationId := by
  cases event with
  | replyQueueMessage content id deliveryTag =>
      simp only [recorded] at member
      split at member
      · cases List.mem_singleton.mp member
        have arrived := arrives content _ deliveryTag rfl
        cases read : config.readReply content with
        | ok data => exact ⟨content, arrived, read⟩
        | error error => exact ⟨content, arrived, read⟩
      · cases member
  | timedOut call =>
      obtain ⟨id, _, same⟩ := List.mem_map.mp member
      cases same
      trivial
  | commandMessageReturn id =>
      simp only [recorded] at member
      split at member
      · cases List.mem_singleton.mp member
        trivial
      · cases member
  | dispose =>
      simp only [recorded] at member
      split at member
      · cases member
      · obtain ⟨entry, _, same⟩ := List.mem_map.mp member
        cases same
        trivial
  | _ => cases member

end

theorem SentRecord.step
    {event : CommandSenderEvent κ Buffer V}
    (record : SentRecord config sender)
    (unique : Injective config.generateId)
    (correlated : Ledger.Correlated config sender.ledger)
    (stepped : sender.step config event = some next) :
    SentRecord config next := by
  have moved := Ledger.moves_of_step stepped
  refine ⟨(replyQueue_of_step stepped).trans record.replyQueue, ?_⟩
  intro command member
  rcases sent_of_step stepped member with
    old | ⟨commandName, args, content, serialized, created, rfl⟩
  · obtain ⟨index, object, present, itsQueue, itsId, itsReplyQueue, itsContent⟩ :=
      record.sent command old
    obtain ⟨waiter, placed⟩ := moved.commands unique correlated present
    obtain ⟨_, sameName, sameArgs⟩ :=
      Command.settleAll_identity object
        (outcomesFor (config.generateId index) (sender.recorded config event))
    refine ⟨index, _, placed, itsQueue, itsId, itsReplyQueue, ?_⟩
    rw [sameName, sameArgs]
    exact itsContent
  · have added :=
      CommandManager.create_fst config.generateId sender.commandManager
        config.queue commandName args (correlated.wellFormed.unused unique)
    have generated :
        sender.commandManager.generated = sender.commandManager.commands.length :=
      correlated.wellFormed.generated
    refine ⟨sender.commandManager.commands.length,
      Command.create config.queue commandName args, ?_, rfl, ?_,
      record.replyQueue, serialized⟩
    · rw [created, added]
      exact List.getElem?_concat_length
    · exact congrArg config.generateId generated

theorem Answered.step
    {received : κ → Buffer → Prop} {event : CommandSenderEvent κ Buffer V}
    (answered : Answered config received sender)
    (unique : Injective config.generateId)
    (arrives :
      ∀ content correlationId deliveryTag,
        event = .replyQueueMessage content correlationId deliveryTag →
          received correlationId content)
    (stepped : sender.step config event = some next) :
    Answered config received next := by
  have moved := Ledger.moves_of_step stepped
  refine
    ⟨answered.correlated.moves unique moved,
      answered.sent.step unique answered.correlated stepped, ?_⟩
  exact answered.explained.moves unique answered.correlated moved
    fun _ _ member => recorded_explained arrives member

end CommandSender

end Amq.Rpc
