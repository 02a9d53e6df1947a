import Amq.Rpc.AnsweredCalls
import Mathlib.Data.List.Perm.Subperm

/-!
# The commands that a sender sends

Each call of `sendCommand` sends one command at most, with its own name and its
own arguments, and none once the sender has been disposed of.
-/


namespace Amq.Rpc

open Amq.Transition

namespace SendPhase

variable {κ V : Type}

def isInitializing : SendPhase κ V → Bool
  | .initializing _ => true
  | _ => false

end SendPhase

namespace SendCall

variable {κ Buffer V : Type}

/-- What the call has been asked to send. -/
def request (call : SendCall κ V) : String × V :=
  (call.commandName, call.args)

/-- What the call may have sent by now. -/
def sendable
    (config : CommandSenderConfig κ Buffer V) (call : SendCall κ V) :
    Option Buffer :=
  if call.phase.isInitializing then
    none
  else
    config.serialize ⟨config.text call.commandName, call.args⟩

end SendCall

/-- The command of an observation, if it is one. -/
def SenderObservation.command? {κ Buffer : Type} :
    SenderObservation κ Buffer → Option (SentCommand κ Buffer)
  | .sent command => some command
  | .consumed _ => none

section Replacement

variable {α β : Type}

/-- A replacement that lets an entry through puts one element in. -/
theorem filterMap_set_perm
    {items : List α} {index : ℕ} {old new : α} {value : β} (select : α → Option β)
    (present : items[index]? = some old)
    (before : select old = none) (after : select new = some value) :
    ((items.set index new).filterMap select).Perm
      (value :: items.filterMap select) := by
  induction items generalizing index with
  | nil => simp at present
  | cons head rest inductionHypothesis =>
      cases index with
      | zero =>
          have same : head = old := by simpa using present
          subst same
          rw [List.set_cons_zero, List.filterMap_cons_some after,
            List.filterMap_cons_none before]
      | succ index =>
          have later : rest[index]? = some old := by simpa using present
          have moved := inductionHypothesis later
          rw [List.set_cons_succ]
          cases chosen : select head with
          | none =>
              rw [List.filterMap_cons_none chosen,
                List.filterMap_cons_none chosen]
              exact moved
          | some value' =>
              rw [List.filterMap_cons_some chosen,
                List.filterMap_cons_some chosen]
              exact (moved.cons value').trans (List.Perm.swap _ _ _)

/-- A replacement that selects what it did selects the same from the list. -/
theorem filterMap_set_same
    {items : List α} {index : ℕ} {old new : α} (select : α → Option β)
    (present : items[index]? = some old) (same : select new = select old) :
    (items.set index new).filterMap select = items.filterMap select := by
  induction items generalizing index with
  | nil => simp at present
  | cons head rest inductionHypothesis =>
      cases index with
      | zero =>
          have itself : head = old := by simpa using present
          subst itself
          rw [List.set_cons_zero, List.filterMap_cons, List.filterMap_cons, same]
      | succ index =>
          have later : rest[index]? = some old := by simpa using present
          rw [List.set_cons_succ, List.filterMap_cons, List.filterMap_cons,
            inductionHypothesis later]

end Replacement

namespace Ledger

variable {κ Buffer V : Type} [DecidableEq κ]
variable {config : CommandSenderConfig κ Buffer V}
variable {ledger next : Ledger κ V}
variable {records : List (κ × Outcome V)} {abandoned : Bool}

/-- What a step does to the calls: one begins, or one goes on with its own name
and its own arguments. -/
inductive CallsMove (calls : List (SendCall κ V)) : List (SendCall κ V) → Prop
  | stays : CallsMove calls calls
  | begins (commandName : String) (args : V) (run : Option ℕ) :
      CallsMove calls
        (calls ++
          [{ commandName := commandName
             args := args
             phase := .initializing run
             timer := none }])
  | goesOn {index : ℕ} {call call' : SendCall κ V}
      (present : calls[index]? = some call)
      (sameRequest : call'.request = call.request)
      (stillInitializing :
        call'.phase.isInitializing = true → call.phase.isInitializing = true) :
      CallsMove calls (calls.set index call')

theorem Moves.calls (moved : Moves config ledger records abandoned next) :
    CallsMove ledger.calls next.calls := by
  cases moved with
  | stays => exact .stays
  | begins commandName args run => exact .begins commandName args run
  | givesUp present initializing reason =>
      exact .goesOn present rfl (by simp [SendPhase.isInitializing])
  | unserialized present initializing active =>
      exact .goesOn present rfl (by simp [SendPhase.isInitializing])
  | sends present initializing active =>
      exact .goesOn present rfl (by simp [SendPhase.isInitializing])
  | abandons present sending reason =>
      exact .goesOn present rfl (by simp [SendPhase.isInitializing])
  | misses present sending absent =>
      exact .goesOn present rfl (by simp [SendPhase.isInitializing])
  | waits present sending found =>
      exact .goesOn present rfl (by simp [SendPhase.isInitializing])
  | answers present waiting itsCommand settled =>
      exact .goesOn present rfl (by simp [SendPhase.isInitializing])
  | timesOut present running => exact .goesOn present rfl id
  | records correlationId outcome => exact .stays
  | cancels => exact .stays

end Ledger

namespace CommandSender

variable {κ Buffer V : Type} [DecidableEq κ]
variable {config : CommandSenderConfig κ Buffer V}
variable {sender next : CommandSender κ Buffer V}

/-- The commands passed to `sendToQueue`, the latest first. -/
def sentCommands (sender : CommandSender κ Buffer V) :
    List (SentCommand κ Buffer) :=
  sender.history.filterMap SenderObservation.command?

/-- A call that sends its command. -/
structure SendsCommand
    (config : CommandSenderConfig κ Buffer V)
    (sender next : CommandSender κ Buffer V)
    (index : ℕ) (call : SendCall κ V) (command : SentCommand κ Buffer) :
    Prop where
  present : sender.calls[index]? = some call
  initializing : call.phase.isInitializing = true
  active : sender.isDisposed = false
  calls :
    next.calls =
      sender.calls.set index
        { call with
          phase := .sending command.correlationId
          timer := some command.correlationId }
  sent : next.sentCommands = command :: sender.sentCommands
  serialized :
    config.serialize ⟨config.text call.commandName, call.args⟩ =
      some command.content
  queue : command.queue = config.queue
  replyQueue : command.replyQueue = sender.replyQueueConsumer.replyQueue
  mandatory : command.mandatory = true
  expireMs : command.expireMs = config.timeoutMs

/-- After `initialize` the call settles, or it sends its command. -/
theorem settles_or_sends
    {index : ℕ} {call : SendCall κ V}
    (present : sender.calls[index]? = some call)
    (initializing : call.phase.isInitializing = true) :
    (∃ result,
        (sender.send config index call).calls =
            sender.calls.set index
              { call with phase := .settled result, timer := none } ∧
          (sender.send config index call).sentCommands = sender.sentCommands) ∨
      ∃ command,
        SendsCommand config sender (sender.send config index call) index call
          command := by
  by_cases disposed : sender.isDisposed = true
  · have kept :
        sender.send config index call =
          sender.settle index call (interrupted config call) := by
      unfold send
      rw [if_pos disposed]
    rw [kept]
    exact Or.inl ⟨_, rfl, rfl⟩
  · cases serialized :
        config.serialize ⟨config.text call.commandName, call.args⟩ with
    | none =>
        refine Or.inl ⟨.sendingFailed, ?_⟩
        simp only [send, disposed, serialized]
        exact ⟨rfl, rfl⟩
    | some content =>
        have sent :
            sender.send config index call =
              { sender with
                commandManager :=
                  (sender.commandManager.create config.generateId config.queue
                    call.commandName call.args).1
                calls :=
                  sender.calls.set index
                    { call with
                      phase :=
                        .sending
                          (config.generateId sender.commandManager.generated)
                      timer :=
                        some
                          (config.generateId sender.commandManager.generated) }
                history :=
                  .sent
                      { queue := config.queue
                        content := content
                        correlationId :=
                          config.generateId sender.commandManager.generated
                        replyQueue := sender.replyQueueConsumer.replyQueue
                        mandatory := true
                        expireMs := config.timeoutMs } ::
                    sender.history } := by
          unfold send
          rw [if_neg disposed]
          simp only [serialized]
          rfl
        rw [sent]
        exact Or.inr ⟨_, present, initializing,
          Bool.eq_false_of_not_eq_true disposed, rfl, rfl, serialized, rfl, rfl, rfl,
          rfl⟩

/-- A step sends no command, or the command of one call that goes on. -/
theorem sentCommands_of_step
    {event : CommandSenderEvent κ Buffer V}
    (stepped : sender.step config event = some next) :
    next.sentCommands = sender.sentCommands ∨
      ∃ index call command,
        SendsCommand config sender next index call command := by
  cases effect_of_step stepped with
  | quiet _ _ history _ => exact Or.inl (congrArg (List.filterMap _) history)
  | consumes _ _ history _ => exact Or.inl (congrArg (List.filterMap _) history)
  | consumerStep moved =>
      refine Or.inl ?_
      simp only [sentCommands]
      split
      · exact List.filterMap_cons_none rfl
      · rfl
  | disposes _ _ history => exact Or.inl (congrArg (List.filterMap _) history)
  | @sends index call _ _ present ready active serialized _ _ _ =>
      have initializing : call.phase.isInitializing = true := by
        obtain ⟨run, awaits⟩ := ready.initializing
        rw [awaits]
        rfl
      obtain ⟨other, found, settled⟩ := settleInitialize_cases stepped
      cases Option.some.inj (found.symm.trans present)
      cases settled with
      | sends =>
          rcases settles_or_sends present initializing with
            ⟨_, _, same⟩ | ⟨command, sends⟩
          · exact Or.inl same
          · exact Or.inr ⟨index, call, command, sends⟩
      | fails => exact Or.inl rfl

/-- A sender that is disposed of sends nothing. -/
theorem sentCommands_of_disposed
    {event : CommandSenderEvent κ Buffer V}
    (disposed : sender.isDisposed = true)
    (stepped : sender.step config event = some next) :
    next.sentCommands = sender.sentCommands := by
  rcases sentCommands_of_step stepped with same | ⟨_, _, _, sends⟩
  · exact same
  · rw [sends.active] at disposed
    cases disposed

/-- How every command of a sender is addressed. -/
structure IsAddressed
    (config : CommandSenderConfig κ Buffer V) (command : SentCommand κ Buffer) :
    Prop where
  queue : command.queue = config.queue
  replyQueue : command.replyQueue = replyQueueOf config
  mandatory : command.mandatory = true
  expireMs : command.expireMs = config.timeoutMs

/-- The commands sent so far belong to different calls. -/
structure Routes
    (config : CommandSenderConfig κ Buffer V)
    (sender : CommandSender κ Buffer V) : Prop where
  replyQueue : sender.replyQueueConsumer.replyQueue = replyQueueOf config
  addressed : ∀ command ∈ sender.sentCommands, IsAddressed config command
  contents :
    (sender.sentCommands.map SentCommand.content).Subperm
      (sender.calls.filterMap (SendCall.sendable config))

omit [DecidableEq κ] in
theorem routes_create (config : CommandSenderConfig κ Buffer V) :
    Routes config (create config) where
  replyQueue := rfl
  addressed := by
    intro command member
    cases member
  contents := List.nil_subperm

/-- The requests of a step. -/
def requestsOf : CommandSenderEvent κ Buffer V → List (String × V)
  | .sendCommand commandName args => [(commandName, args)]
  | _ => []

omit [DecidableEq κ] in
theorem sendable_of_callsMove
    {calls calls' : List (SendCall κ V)} (moved : Ledger.CallsMove calls calls') :
    (calls.filterMap (SendCall.sendable config)).Subperm
      (calls'.filterMap (SendCall.sendable config)) := by
  cases moved with
  | stays => exact List.Subperm.refl _
  | begins commandName args run =>
      rw [List.filterMap_append]
      exact (List.sublist_append_left _ _).subperm
  | @goesOn index call call' present sameRequest stillInitializing =>
      have sameContent :
          config.serialize ⟨config.text call'.commandName, call'.args⟩ =
            config.serialize ⟨config.text call.commandName, call.args⟩ := by
        obtain ⟨sameName, sameArgs⟩ := Prod.mk.inj sameRequest
        rw [sameName, sameArgs]
      by_cases initializing : call.phase.isInitializing = true
      · have before : call.sendable config = none := if_pos initializing
        cases after : call'.sendable config with
        | none =>
            rw [filterMap_set_same _ present (after.trans before.symm)]
        | some content =>
            have put := filterMap_set_perm _ present before after
            exact (List.sublist_cons_self _ _).subperm.trans put.symm.subperm
      · have still : ¬ call'.phase.isInitializing = true :=
          fun still => initializing (stillInitializing still)
        have same : call'.sendable config = call.sendable config := by
          unfold SendCall.sendable
          rw [if_neg initializing, if_neg still, sameContent]
        rw [filterMap_set_same _ present same]

omit [DecidableEq κ] in
@[simp]
theorem length_calls_settle
    (sender : CommandSender κ Buffer V) (index : ℕ) (call : SendCall κ V)
    (result : SendResult V) :
    (sender.settle index call result).calls.length = sender.calls.length :=
  List.length_set

@[simp]
theorem length_calls_send
    (sender : CommandSender κ Buffer V) (index : ℕ) (call : SendCall κ V) :
    (sender.send config index call).calls.length = sender.calls.length := by
  unfold send
  split
  · exact length_calls_settle _ _ _ _
  · dsimp only
    split
    · exact length_calls_settle _ _ _ _
    · exact List.length_set

@[simp]
theorem length_calls_waitForReply
    (sender : CommandSender κ Buffer V) (index : ℕ) (call : SendCall κ V)
    (correlationId : κ) :
    (sender.waitForReply index call correlationId).calls.length =
      sender.calls.length := by
  unfold waitForReply
  split
  · exact length_calls_settle _ _ _ _
  · exact List.length_set

/-- Only a request begins a call. -/
theorem length_calls_of_step
    {event : CommandSenderEvent κ Buffer V} (silent : requestsOf event = [])
    (stepped : sender.step config event = some next) :
    next.calls.length = sender.calls.length := by
  cases event with
  | sendCommand commandName args => cases silent
  | initialized index =>
      obtain ⟨call, _, settled⟩ := settleInitialize_cases stepped
      cases settled with
      | sends => simp
      | fails => simp
  | sendSettled index settlement =>
      obtain ⟨call, correlationId, _, _, settled⟩ := settleSend_cases stepped
      cases settled with
      | interrupted => simp
      | waits => simp
      | fails => simp
  | answered index =>
      obtain ⟨_, _, _, _, _, _, _, _, _, _, rfl⟩ := settleWait_cases stepped
      simp
  | timedOut index =>
      obtain ⟨_, _, _, _, rfl⟩ := timeOut_cases stepped
      exact List.length_set
  | consumeRun run event =>
      obtain ⟨consumer, _, rfl⟩ := Option.map_eq_some_iff.mp stepped
      rfl
  | amqpReconnected =>
      cases stepped
      unfold consumeAgain
      split <;> rfl
  | amqpChannelRecreated =>
      cases stepped
      unfold consumeAgain
      split <;> rfl
  | commandMessageReturn correlationId =>
      cases stepped
      unfold handleCommandMessageReturn
      split <;> rfl
  | replyQueueMessage content correlationId deliveryTag =>
      cases stepped
      unfold handleReplyQueueMessage
      split <;> rfl
  | dispose =>
      cases stepped
      unfold dispose
      split <;> rfl

omit [DecidableEq κ] in
theorem request_of_callsMove
    {calls calls' : List (SendCall κ V)} (moved : Ledger.CallsMove calls calls')
    (sameLength : calls'.length = calls.length) :
    calls'.map SendCall.request = calls.map SendCall.request := by
  cases moved with
  | stays => rfl
  | begins commandName args run => simp at sameLength
  | @goesOn index call call' present sameRequest _ =>
      obtain ⟨inside, found⟩ := List.getElem?_eq_some_iff.mp present
      have itself : calls.set index call = calls := by
        rw [← found]
        exact List.set_getElem_self inside
      rw [List.map_set, sameRequest, ← List.map_set, itself]

theorem requests_of_step
    {event : CommandSenderEvent κ Buffer V}
    (stepped : sender.step config event = some next) :
    next.calls.map SendCall.request =
      sender.calls.map SendCall.request ++ requestsOf event := by
  cases requested : requestsOf event with
  | nil =>
      rw [List.append_nil]
      exact request_of_callsMove (Ledger.moves_of_step stepped).calls
        (length_calls_of_step requested stepped)
  | cons request rest =>
      cases event with
      | sendCommand commandName args =>
          cases stepped
          cases requested
          simp [sendCommand, SendCall.request]
      | _ => cases requested

theorem Routes.step
    {event : CommandSenderEvent κ Buffer V} (routes : Routes config sender)
    (stepped : sender.step config event = some next) :
    Routes config next := by
  have replyQueue := (replyQueue_of_step stepped).trans routes.replyQueue
  rcases sentCommands_of_step stepped with same | ⟨index, call, latest, sends⟩
  · refine ⟨replyQueue, ?_, ?_⟩
    · rw [same]
      exact routes.addressed
    · have moved := (Ledger.moves_of_step stepped).calls
      rw [same]
      exact routes.contents.trans (sendable_of_callsMove moved)
  · have before : call.sendable config = none := if_pos sends.initializing
    have after :
        SendCall.sendable config
            { call with
              phase := .sending latest.correlationId
              timer := some latest.correlationId } = some latest.content :=
      sends.serialized
    have put := filterMap_set_perm _ sends.present before after
    refine ⟨replyQueue, ?_, ?_⟩
    · intro command member
      rw [sends.sent] at member
      rcases List.mem_cons.mp member with rfl | earlier
      · exact ⟨sends.queue, sends.replyQueue.trans routes.replyQueue,
          sends.mandatory, sends.expireMs⟩
      · exact routes.addressed command earlier
    · rw [sends.sent, sends.calls, List.map_cons]
      exact ((List.subperm_cons _).mpr routes.contents).trans put.symm.subperm

/-- The content of the command that a request leads to. -/
def contentOf
    (config : CommandSenderConfig κ Buffer V) (request : String × V) :
    Option Buffer :=
  config.serialize ⟨config.text request.1, request.2⟩

omit [DecidableEq κ] in
theorem sendable_sublist
    (config : CommandSenderConfig κ Buffer V) (calls : List (SendCall κ V)) :
    (calls.filterMap (SendCall.sendable config)).Sublist
      ((calls.map SendCall.request).filterMap (contentOf config)) := by
  induction calls with
  | nil => exact List.Sublist.refl _
  | cons call rest inductionHypothesis =>
      rw [List.map_cons]
      cases content : contentOf config call.request with
      | none =>
          have unsendable : call.sendable config = none := by
            unfold SendCall.sendable
            split
            · rfl
            · exact content
          rw [List.filterMap_cons_none unsendable,
            List.filterMap_cons_none content]
          exact inductionHypothesis
      | some buffer =>
          rw [List.filterMap_cons_some content]
          cases sendable : call.sendable config with
          | none =>
              rw [List.filterMap_cons_none sendable]
              exact inductionHypothesis.trans (List.sublist_cons_self _ _)
          | some own =>
              have same : own = buffer := by
                unfold SendCall.sendable at sendable
                split at sendable
                · cases sendable
                · exact Option.some.inj (sendable.symm.trans content)
              rw [List.filterMap_cons_some sendable, same]
              exact inductionHypothesis.cons_cons _

/-! ## After `dispose` -/

/-- What becomes of a call of a sender that is disposed of: it is interrupted,
unless what it has been waiting for is rejected first, or it takes the result of
its command. -/
inductive Ends
    (config : CommandSenderConfig κ Buffer V) (call call' : SendCall κ V) : Prop
  | stays (phase : call'.phase = call.phase)
      (request : call'.request = call.request)
  | answered {correlationId : κ} {command : ℕ} {isSettled : Bool}
      {result : SendResult V}
      (waiting : call.phase = .waiting correlationId command isSettled)
      (settled : call'.phase = .settled result)
  | interrupted
      (pending :
        (∃ run, call.phase = .initializing run) ∨
          ∃ correlationId, call.phase = .sending correlationId)
      (settled : call'.phase = .settled (interrupted config call))
  | unconsumed {run : ℕ} (initializing : call.phase = .initializing (some run))
      (settled : call'.phase = .settled .initializationFailed)
  | unsent {correlationId : κ} (sending : call.phase = .sending correlationId)
      (settled : call'.phase = .settled .sendingFailed)

section

omit [DecidableEq κ]

theorem interrupted_congr {call call' : SendCall κ V}
    (request : call'.request = call.request) :
    interrupted config call' = interrupted config call := by
  obtain ⟨sameName, sameArgs⟩ := Prod.mk.inj request
  unfold interrupted
  rw [sameName, sameArgs]

theorem Ends.of_settled {call call' : SendCall κ V} {result : SendResult V}
    (ends : Ends config call call') (settled : call.phase = .settled result) :
    call'.phase = .settled result := by
  cases ends with
  | stays phase request => exact phase.trans settled
  | answered waiting _ => cases settled.symm.trans waiting
  | interrupted pending _ =>
      rcases pending with ⟨run, initializing⟩ | ⟨correlationId, sending⟩
      · cases settled.symm.trans initializing
      · cases settled.symm.trans sending
  | unconsumed initializing _ => cases settled.symm.trans initializing
  | unsent sending _ => cases settled.symm.trans sending

theorem Ends.trans {call middle last : SendCall κ V}
    (first : Ends config call middle) (second : Ends config middle last) :
    Ends config call last := by
  cases first with
  | stays phase request =>
      cases second with
      | stays phase' request' =>
          exact .stays (phase'.trans phase) (request'.trans request)
      | answered waiting settled => exact .answered (phase ▸ waiting) settled
      | interrupted pending settled =>
          rw [interrupted_congr request] at settled
          exact .interrupted (phase ▸ pending) settled
      | unconsumed initializing settled =>
          exact .unconsumed (phase ▸ initializing) settled
      | unsent sending settled => exact .unsent (phase ▸ sending) settled
  | answered waiting settled => exact .answered waiting (second.of_settled settled)
  | interrupted pending settled =>
      exact .interrupted pending (second.of_settled settled)
  | unconsumed initializing settled =>
      exact .unconsumed initializing (second.of_settled settled)
  | unsent sending settled => exact .unsent sending (second.of_settled settled)

end

/-- Every call of the sender ends, if it moves at all. -/
def AllEnd
    (config : CommandSenderConfig κ Buffer V)
    (sender next : CommandSender κ Buffer V) : Prop :=
  ∀ (index : ℕ) (call : SendCall κ V), sender.calls[index]? = some call →
    ∃ call', next.calls[index]? = some call' ∧ Ends config call call'

section

omit [DecidableEq κ]

theorem AllEnd.of_same {sender next : CommandSender κ Buffer V}
    (same : next.calls = sender.calls) : AllEnd config sender next := by
  intro index call present
  exact ⟨call, same ▸ present, .stays rfl rfl⟩

theorem AllEnd.trans {first second third : CommandSender κ Buffer V}
    (before : AllEnd config first second) (after : AllEnd config second third) :
    AllEnd config first third := by
  intro index call present
  obtain ⟨middle, placed, ends⟩ := before index call present
  obtain ⟨last, lastPlaced, lastEnds⟩ := after index middle placed
  exact ⟨last, lastPlaced, ends.trans lastEnds⟩

/-- One call ends and the others stay. -/
theorem AllEnd.of_set
    {index : ℕ} {call call' : SendCall κ V} {next : CommandSender κ Buffer V}
    (present : sender.calls[index]? = some call) (ends : Ends config call call')
    (calls : next.calls = sender.calls.set index call') :
    AllEnd config sender next := by
  intro other found placed
  rw [calls]
  by_cases same : other = index
  · subst same
    have itself : found = call := Option.some.inj (placed.symm.trans present)
    have inside := (List.getElem?_eq_some_iff.mp present).1
    exact ⟨call', List.getElem?_set_self inside, itself ▸ ends⟩
  · refine ⟨found, ?_, .stays rfl rfl⟩
    rw [List.getElem?_set_ne (Ne.symm same)]
    exact placed

end

/-- A sender that is disposed of begins no wait: each of its calls ends, if it
moves at all. -/
theorem allEnd_of_step
    {event : CommandSenderEvent κ Buffer V}
    (disposed : sender.isDisposed = true)
    (stepped : sender.step config event = some next) :
    AllEnd config sender next := by
  cases event with
  | sendCommand commandName args =>
      cases stepped
      intro index call present
      refine ⟨call, ?_, .stays rfl rfl⟩
      exact (List.getElem?_append_left
        (List.getElem?_eq_some_iff.mp present).1).trans present
  | initialized index =>
      obtain ⟨call, present, settled⟩ := settleInitialize_cases stepped
      cases settled with
      | sends ready =>
          have interrupts : sender.send config index call =
              sender.settle index call (interrupted config call) := by
            unfold send
            rw [if_pos disposed]
          rw [interrupts]
          exact .of_set present (.interrupted (Or.inl ready.initializing) rfl) rfl
      | fails awaits =>
          exact .of_set present (.unconsumed awaits rfl) rfl
  | sendSettled index settlement =>
      obtain ⟨call, correlationId, present, sending, settled⟩ :=
        settleSend_cases stepped
      cases settled with
      | interrupted =>
          exact .of_set present (.interrupted (Or.inr ⟨_, sending⟩) rfl) rfl
      | waits active =>
          rw [disposed] at active
          cases active
      | fails => exact .of_set present (.unsent sending rfl) rfl
  | answered index =>
      obtain ⟨_, _, _, _, _, _, present, waiting, _, _, rfl⟩ :=
        settleWait_cases stepped
      exact .of_set present (.answered waiting rfl) rfl
  | timedOut index =>
      obtain ⟨call, correlationId, present, _, rfl⟩ := timeOut_cases stepped
      have ends : Ends config call { call with timer := none } := .stays rfl rfl
      exact .of_set present ends rfl
  | consumeRun run event =>
      obtain ⟨consumer, _, rfl⟩ := Option.map_eq_some_iff.mp stepped
      exact .of_same rfl
  | amqpReconnected =>
      cases stepped
      apply AllEnd.of_same
      unfold consumeAgain
      split <;> rfl
  | amqpChannelRecreated =>
      cases stepped
      apply AllEnd.of_same
      unfold consumeAgain
      split <;> rfl
  | commandMessageReturn correlationId =>
      cases stepped
      apply AllEnd.of_same
      unfold handleCommandMessageReturn
      split <;> rfl
  | replyQueueMessage content correlationId deliveryTag =>
      cases stepped
      apply AllEnd.of_same
      unfold handleReplyQueueMessage
      split <;> rfl
  | dispose =>
      cases stepped
      apply AllEnd.of_same
      unfold dispose
      split <;> rfl

/-- In a sender that is disposed of no call waits for a reply any longer: its
command has been settled, and the call can take its result. -/
theorem exists_answered
    (correlated : Ledger.Correlated config sender.ledger)
    (disposed : sender.isDisposed = true)
    {index command : ℕ} {call : SendCall κ V} {correlationId : κ}
    {isSettled : Bool} (present : sender.calls[index]? = some call)
    (waiting : call.phase = .waiting correlationId command isSettled) :
    ∃ next, sender.step config (.answered index) = some next := by
  obtain ⟨_, object, itsCommand, notified⟩ :=
    (correlated.recorded index call present).waiting _ _ _ waiting
  have notReady := correlated.disposed disposed command object itsCommand
  have hasResult : ∃ result, statusResult object.status = some result := by
    cases status : object.status with
    | ready => exact absurd status notReady
    | succeeded response => exact ⟨_, rfl⟩
    | failed error => exact ⟨_, rfl⟩
  obtain ⟨result, itsResult⟩ := hasResult
  have placed : sender.commandManager.commands[command]? = some object :=
    itsCommand
  simp only [step, settleWait, present, waiting, placed, itsResult,
    if_pos notified]
  exact ⟨_, rfl⟩

end CommandSender

end Amq.Rpc
