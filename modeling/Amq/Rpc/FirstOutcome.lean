import Amq.Rpc.Correlation

/-!
# Every command ends with its first outcome

From any state that a sender can be in, whatever happens afterwards: a command
takes the first outcome recorded for its correlation id, and the call that has
sent it settles with that outcome, no matter which of the two came first.
-/


namespace Amq.Rpc

open Function Amq.Transition

/-- The status of a command once these outcomes have been recorded for it. -/
def Command.firstStatus {V : Type}
    (command : Command V) (outcomes : List (Outcome V)) : CommandStatus V :=
  match command.status, outcomes with
  | .ready, first :: _ => first.status command
  | status, _ => status

theorem Command.settleAll_status {V : Type}
    (command : Command V) (outcomes : List (Outcome V)) :
    (command.settleAll outcomes).status = command.firstStatus outcomes := by
  unfold firstStatus
  cases status : command.status with
  | ready =>
      cases outcomes with
      | nil => exact status
      | cons first later => rw [settleAll_of_ready status]
  | succeeded response =>
      rw [settleAll_of_settled (by rw [status]; exact nofun)]
      exact status
  | failed error =>
      rw [settleAll_of_settled (by rw [status]; exact nofun)]
      exact status

/-- The call is rejected with what `consume`, `serialize` or `sendToQueue` has
thrown. -/
def SendResult.isFailure {V : Type} : SendResult V → Bool
  | .initializationFailed => true
  | .sendingFailed => true
  | _ => false

namespace CommandSender

variable {κ Buffer V : Type} [DecidableEq κ]
variable {config : CommandSenderConfig κ Buffer V}
variable {sender next final : CommandSender κ Buffer V}

/-! ## Runs keep commands and replies together -/

omit [DecidableEq κ] in
theorem correlated_create (config : CommandSenderConfig κ Buffer V) :
    Ledger.Correlated config (create config).ledger := by
  refine ⟨CommandManager.wellFormed_empty _, ?_, ?_, ?_⟩
  · intro disposed
    cases disposed
  · intro index call present
    cases present
  · intro first second call other correlationId present
    cases present

theorem correlated_preserved (unique : Injective config.generateId) :
    (machine config).Preserved fun sender =>
      Ledger.Correlated config sender.ledger := by
  intro sender event next correlated stepped
  exact correlated.moves unique (Ledger.moves_of_step stepped)

theorem correlated_run
    (unique : Injective config.generateId)
    {schedule : List (CommandSenderEvent κ Buffer V)}
    (execution : (machine config).run (create config) schedule = some sender) :
    Ledger.Correlated config sender.ledger :=
  Machine.run_invariant (correlated_preserved unique) (correlated_create config)
    execution

/-- Along a run a command is settled with the outcomes recorded for its id. -/
theorem commands_run
    (unique : Injective config.generateId)
    {schedule : List (CommandSenderEvent κ Buffer V)}
    (correlated : Ledger.Correlated config sender.ledger)
    (execution : (machine config).run sender schedule = some final)
    {index : ℕ} {object : Command V}
    (present : sender.commandManager.commands[index]? = some object) :
    ∃ waiter,
      final.commandManager.commands[index]? =
        some
          { object.settleAll
              (outcomesFor (config.generateId index)
                (sender.recordedAlong config schedule)) with
            waiter := waiter } := by
  induction schedule generalizing sender object with
  | nil =>
      cases execution
      exact ⟨object.waiter, present⟩
  | cons event rest inductionHypothesis =>
      obtain ⟨next, stepped, remaining⟩ := Machine.run_cons_iff.mp execution
      have moved := Ledger.moves_of_step stepped
      obtain ⟨waiter, placed⟩ := moved.commands unique correlated present
      obtain ⟨finalWaiter, finally_⟩ :=
        inductionHypothesis (correlated.moves unique moved) remaining placed
      have taken : sender.step config event = some next := stepped
      refine ⟨finalWaiter, ?_⟩
      rw [finally_, Command.settleAll_setWaiter]
      simp only [recordedAlong, taken, Ledger.outcomesFor_append,
        Command.settleAll_append]

/-! ## Replies and their acknowledgements -/

/-- The tag of a reply that arrives while the sender is initialized and has not
been disposed of; before, there is no consumer to deliver it. -/
def delivered (sender : CommandSender κ Buffer V) :
    CommandSenderEvent κ Buffer V → List ℕ
  | .replyQueueMessage _ _ deliveryTag =>
      if sender.isInitialized && !sender.isDisposed then [deliveryTag] else []
  | _ => []

def deliveredAlong (config : CommandSenderConfig κ Buffer V) :
    CommandSender κ Buffer V → List (CommandSenderEvent κ Buffer V) → List ℕ
  | _, [] => []
  | sender, event :: rest =>
      sender.delivered event ++
        match sender.step config event with
        | none => []
        | some next => deliveredAlong config next rest

/-- The listeners are registered from the initialization to the disposal. -/
structure Listening (sender : CommandSender κ Buffer V) : Prop where
  active :
    sender.isDisposed = false →
      sender.isListening = sender.isInitialized ∧
        sender.replyQueueConsumer.isDisposed = false
  disposed :
    sender.isDisposed = true → sender.replyQueueConsumer.isDisposed = true

/-- What a step leaves alone unless it is the initialization, the disposal or
the delivery of a reply. -/
structure Keeps (sender next : CommandSender κ Buffer V) : Prop where
  isInitialized : next.isInitialized = sender.isInitialized
  isDisposed : next.isDisposed = sender.isDisposed
  isListening : next.isListening = sender.isListening
  consumer :
    next.replyQueueConsumer.isDisposed = sender.replyQueueConsumer.isDisposed
  acknowledged : next.acknowledged = sender.acknowledged

omit [DecidableEq κ] in
theorem Keeps.refl (sender : CommandSender κ Buffer V) : Keeps sender sender :=
  ⟨rfl, rfl, rfl, rfl, rfl⟩

omit [DecidableEq κ] in
theorem Keeps.listening (keeps : Keeps sender next) (listening : Listening sender) :
    Listening next := by
  refine ⟨?_, ?_⟩
  · rw [keeps.isDisposed, keeps.isListening, keeps.isInitialized, keeps.consumer]
    exact listening.active
  · rw [keeps.isDisposed, keeps.consumer]
    exact listening.disposed

theorem keeps_send (index : ℕ) (call : SendCall κ V) :
    Keeps sender (sender.send config index call) := by
  unfold send
  split
  · exact ⟨rfl, rfl, rfl, rfl, rfl⟩
  · dsimp only
    split
    · exact ⟨rfl, rfl, rfl, rfl, rfl⟩
    · exact ⟨rfl, rfl, rfl, rfl, rfl⟩

theorem keeps_settleInitialize
    {index : ℕ}
    (stepped : sender.settleInitialize config index = some next) :
    Keeps sender next := by
  obtain ⟨call, _, settled⟩ := settleInitialize_cases stepped
  cases settled with
  | sends => exact keeps_send index call
  | fails => exact ⟨rfl, rfl, rfl, rfl, rfl⟩

theorem keeps_settleSend
    {index : ℕ} {settlement : Settlement}
    (stepped : sender.settleSend config index settlement = some next) :
    Keeps sender next := by
  obtain ⟨call, correlationId, _, _, settled⟩ := settleSend_cases stepped
  cases settled with
  | interrupted => exact ⟨rfl, rfl, rfl, rfl, rfl⟩
  | waits =>
      unfold waitForReply
      split
      · exact ⟨rfl, rfl, rfl, rfl, rfl⟩
      · exact ⟨rfl, rfl, rfl, rfl, rfl⟩
  | fails => exact ⟨rfl, rfl, rfl, rfl, rfl⟩

theorem keeps_settleWait
    {index : ℕ} (stepped : sender.settleWait index = some next) :
    Keeps sender next := by
  obtain ⟨_, _, _, _, _, _, _, _, _, _, rfl⟩ := settleWait_cases stepped
  exact ⟨rfl, rfl, rfl, rfl, rfl⟩

theorem keeps_timeOut
    {index : ℕ} (stepped : sender.timeOut index = some next) :
    Keeps sender next := by
  obtain ⟨_, _, _, _, rfl⟩ := timeOut_cases stepped
  exact ⟨rfl, rfl, rfl, rfl, rfl⟩

omit [DecidableEq κ] in
theorem keeps_consumeAgain (sender : CommandSender κ Buffer V) :
    Keeps sender sender.consumeAgain := by
  unfold consumeAgain
  split
  · exact ⟨rfl, rfl, rfl, rfl, rfl⟩
  · exact .refl sender

omit [DecidableEq κ] in
theorem keeps_stepConsumer
    {run : ℕ} {event : ConsumeEvent}
    (stepped : sender.stepConsumer run event = some next) :
    Keeps sender next := by
  obtain ⟨consumer, moved, rfl⟩ := Option.map_eq_some_iff.mp stepped
  obtain ⟨old, new, _, _, isDisposed, _⟩ := ReplyQueueConsumer.step_cases moved
  exact ⟨rfl, rfl, rfl, isDisposed, rfl⟩

/-- A step keeps the listeners in order, and acknowledges what it delivers. -/
theorem listening_step
    {event : CommandSenderEvent κ Buffer V}
    (listening : Listening sender)
    (stepped : sender.step config event = some next) :
    Listening next ∧
      next.acknowledged = (sender.delivered event).reverse ++ sender.acknowledged := by
  have quiet (keeps : Keeps sender next) (none : sender.delivered event = []) :
      Listening next ∧
        next.acknowledged =
          (sender.delivered event).reverse ++ sender.acknowledged := by
    rw [none]
    exact ⟨keeps.listening listening, keeps.acknowledged⟩
  cases event with
  | sendCommand commandName args =>
      cases stepped
      unfold sendCommand initializeSender
      split
      · exact ⟨⟨listening.active, listening.disposed⟩, rfl⟩
      · exact
          ⟨⟨fun active => ⟨rfl, (listening.active active).2⟩,
            listening.disposed⟩, rfl⟩
  | initialized index => exact quiet (keeps_settleInitialize stepped) rfl
  | sendSettled index settlement => exact quiet (keeps_settleSend stepped) rfl
  | answered index => exact quiet (keeps_settleWait stepped) rfl
  | timedOut index => exact quiet (keeps_timeOut stepped) rfl
  | consumeRun run event => exact quiet (keeps_stepConsumer stepped) rfl
  | amqpReconnected =>
      cases stepped
      exact quiet (keeps_consumeAgain sender) rfl
  | amqpChannelRecreated =>
      cases stepped
      exact quiet (keeps_consumeAgain sender) rfl
  | commandMessageReturn correlationId =>
      cases stepped
      refine quiet ?_ rfl
      unfold handleCommandMessageReturn
      split
      · exact ⟨rfl, rfl, rfl, rfl, rfl⟩
      · exact .refl sender
  | replyQueueMessage content correlationId deliveryTag =>
      cases stepped
      unfold handleReplyQueueMessage delivered
      cases disposed : sender.isDisposed with
      | true =>
          have consumer := listening.disposed disposed
          rw [consumer]
          simp only [Bool.not_true, Bool.and_false, Bool.false_eq_true, if_false]
          exact ⟨listening, rfl⟩
      | false =>
          obtain ⟨sameFlags, consumer⟩ := listening.active disposed
          rw [consumer, sameFlags]
          simp only [Bool.not_false, Bool.and_true]
          split
          · exact ⟨⟨fun _ => ⟨rfl, consumer⟩, nofun⟩, rfl⟩
          · exact ⟨listening, rfl⟩
  | dispose =>
      cases stepped
      unfold dispose
      split
      · exact ⟨listening, rfl⟩
      · refine ⟨⟨nofun, fun _ => ?_⟩, rfl⟩
        exact ReplyQueueConsumer.cancelConsumption_isDisposed _

theorem listening_run
    {schedule earlier : List (CommandSenderEvent κ Buffer V)}
    (before : (machine config).run (create config) earlier = some sender)
    (execution : (machine config).run sender schedule = some final) :
    final.acknowledged =
      (sender.deliveredAlong config schedule).reverse ++ sender.acknowledged := by
  have preserved : (machine config).Preserved Listening :=
    fun _ _ _ holds stepped => (listening_step holds stepped).1
  have listening : Listening sender :=
    Machine.run_invariant preserved
      ⟨fun _ => ⟨rfl, rfl⟩, fun impossible => by cases impossible⟩ before
  clear before
  induction schedule generalizing sender with
  | nil =>
      cases execution
      rfl
  | cons event rest inductionHypothesis =>
      obtain ⟨next, stepped, remaining⟩ := Machine.run_cons_iff.mp execution
      obtain ⟨nextListening, acknowledged⟩ := listening_step listening stepped
      have taken : sender.step config event = some next := stepped
      rw [inductionHypothesis remaining nextListening, acknowledged]
      simp only [deliveredAlong, taken, List.reverse_append, List.append_assoc]

/-! ## What a step does to a call -/

/-- The ways in which a step makes a call fail: the run of `consume` for which it
has waited has failed, its command cannot be serialized, or its `sendToQueue` is
rejected. -/
inductive Fails
    (config : CommandSenderConfig κ Buffer V) (sender : CommandSender κ Buffer V)
    (index : ℕ) (call : SendCall κ V) :
    CommandSenderEvent κ Buffer V → SendResult V → Prop
  | unconsumed {run : ℕ} (initializing : call.phase = .initializing (some run))
      (failed : sender.replyQueueConsumer.runs[run]? = some .failed) :
      Fails config sender index call (.initialized index) .initializationFailed
  | unserialized {run : Option ℕ} (initializing : call.phase = .initializing run)
      (failed :
        config.serialize ⟨config.text call.commandName, call.args⟩ = none) :
      Fails config sender index call (.initialized index) .sendingFailed
  | unsent {correlationId : κ} (sending : call.phase = .sending correlationId) :
      Fails config sender index call (.sendSettled index .rejected) .sendingFailed

/-- What a step does to one call: the call leaves `initialize` alone, it goes on
after it, or it goes on after it has sent its command. -/
inductive CallSteps
    (config : CommandSenderConfig κ Buffer V)
    (sender next : CommandSender κ Buffer V) (index : ℕ)
    (call call' : SendCall κ V) : CommandSenderEvent κ Buffer V → Prop
  | rests {event : CommandSenderEvent κ Buffer V}
      (phase : call'.phase = call.phase) :
      CallSteps config sender next index call call' event
  | initialized {run : Option ℕ} (initializing : call.phase = .initializing run)
      (itself : next = sender.send config index call) :
      CallSteps config sender next index call call' (.initialized index)
  | fails {event : CommandSenderEvent κ Buffer V} {result : SendResult V}
      (fails : Fails config sender index call event result)
      (settled : call'.phase = .settled result) :
      CallSteps config sender next index call call' event
  | goesOn {event : CommandSenderEvent κ Buffer V}
      (unsent : ∀ correlationId, call'.phase ≠ .sending correlationId)
      (unfailed :
        ∀ result, call'.phase = .settled result → result.isFailure = false) :
      CallSteps config sender next index call call' event

/-- The calls after one of them has been set. -/
theorem callSteps_of_setCall
    {event : CommandSenderEvent κ Buffer V} {index place : ℕ}
    {call call' old new : SendCall κ V}
    (present : sender.calls[index]? = some call)
    (found : sender.calls[place]? = some old)
    (present' : (sender.setCall place new).calls[index]? = some call')
    (own :
      index = place → call = old → call' = new →
        CallSteps config sender next index call call' event) :
    CallSteps config sender next index call call' event := by
  rcases set_cases present' with ⟨same, itself⟩ | ⟨_, earlier⟩
  · subst same
    exact own rfl (Option.some.inj (present.symm.trans found)) itself
  · cases Option.some.inj (present.symm.trans earlier)
    exact .rests rfl

theorem callSteps_of_send
    {index place : ℕ} {call call' old : SendCall κ V} {run : Option ℕ}
    (present : sender.calls[index]? = some call)
    (found : sender.calls[place]? = some old)
    (initializing : old.phase = .initializing run)
    (present' : (sender.send config place old).calls[index]? = some call') :
    CallSteps config sender (sender.send config place old) index call call'
      (.initialized place) := by
  have own (same : index = place) (itsCall : call = old) :
      CallSteps config sender (sender.send config place old) index call call'
        (.initialized place) := by
    subst same itsCall
    exact .initialized initializing rfl
  unfold send at present'
  split at present'
  · exact callSteps_of_setCall present found present' fun same itsCall _ =>
      own same itsCall
  · dsimp only at present'
    split at present'
    · exact callSteps_of_setCall present found present' fun same itsCall _ =>
        own same itsCall
    · exact callSteps_of_setCall present found present' fun same itsCall _ =>
        own same itsCall

theorem unfailed_of_statusResult
    {status : CommandStatus V} {result : SendResult V}
    (answer : statusResult status = some result) : result.isFailure = false := by
  cases status with
  | ready => cases answer
  | succeeded response =>
      cases answer
      rfl
  | failed error =>
      cases answer
      rfl

theorem callSteps_of_waitForReply
    {event : CommandSenderEvent κ Buffer V} {index place : ℕ}
    {call call' old : SendCall κ V} {correlationId : κ}
    (present : sender.calls[index]? = some call)
    (found : sender.calls[place]? = some old)
    (present' :
      (sender.waitForReply place old correlationId).calls[index]? = some call') :
    CallSteps config sender (sender.waitForReply place old correlationId) index
      call call' event := by
  unfold waitForReply at present' ⊢
  split at present'
  · refine callSteps_of_setCall present found present' ?_
    intro same itsCall itself
    subst itself
    exact .goesOn nofun (by rintro _ ⟨⟩; rfl)
  · refine callSteps_of_setCall present found present' ?_
    intro same itsCall itself
    subst itself
    exact .goesOn nofun nofun

theorem call_of_step
    {event : CommandSenderEvent κ Buffer V} {index : ℕ}
    {call call' : SendCall κ V}
    (stepped : sender.step config event = some next)
    (present : sender.calls[index]? = some call)
    (present' : next.calls[index]? = some call') :
    CallSteps config sender next index call call' event := by
  have unchanged (same : next.calls[index]? = some call) :
      CallSteps config sender next index call call' event := by
    cases Option.some.inj (present'.symm.trans same)
    exact .rests rfl
  cases event with
  | sendCommand commandName args =>
      cases stepped
      have inRange := (List.getElem?_eq_some_iff.mp present).1
      exact unchanged ((List.getElem?_append_left inRange).trans present)
  | initialized place =>
      obtain ⟨old, found, settled⟩ := settleInitialize_cases stepped
      cases settled with
      | sends ready =>
          obtain ⟨run, initializing⟩ := ready.initializing
          exact callSteps_of_send present found initializing present'
      | fails awaits failed =>
          refine callSteps_of_setCall present found present' ?_
          intro same itsCall itself
          subst same itsCall itself
          exact .fails (.unconsumed awaits failed) rfl
  | sendSettled place settlement =>
      obtain ⟨old, correlationId, found, sending, settled⟩ :=
        settleSend_cases stepped
      cases settled with
      | interrupted disposed =>
          refine callSteps_of_setCall present found present' ?_
          intro same itsCall itself
          subst itself
          exact .goesOn nofun (by rintro _ ⟨⟩; rfl)
      | waits active =>
          exact callSteps_of_waitForReply present found present'
      | fails =>
          refine callSteps_of_setCall present found present' ?_
          intro same itsCall itself
          subst same itsCall itself
          exact .fails (.unsent sending) rfl
  | answered place =>
      obtain ⟨old, _, _, _, _, result, found, _, _, answer, rfl⟩ :=
        settleWait_cases stepped
      refine callSteps_of_setCall present found present' ?_
      intro same itsCall itself
      subst itself
      refine .goesOn nofun ?_
      rintro _ ⟨⟩
      exact unfailed_of_statusResult answer
  | timedOut place =>
      obtain ⟨old, correlationId, found, _, rfl⟩ := timeOut_cases stepped
      refine callSteps_of_setCall present found present' ?_
      intro same itsCall itself
      subst itsCall itself
      exact .rests rfl
  | consumeRun run event =>
      obtain ⟨consumer, _, rfl⟩ := Option.map_eq_some_iff.mp stepped
      exact unchanged present
  | amqpReconnected =>
      cases stepped
      refine unchanged ?_
      unfold consumeAgain
      split <;> exact present
  | amqpChannelRecreated =>
      cases stepped
      refine unchanged ?_
      unfold consumeAgain
      split <;> exact present
  | commandMessageReturn correlationId =>
      cases stepped
      refine unchanged ?_
      unfold handleCommandMessageReturn
      split <;> exact present
  | replyQueueMessage content correlationId deliveryTag =>
      cases stepped
      refine unchanged ?_
      unfold handleReplyQueueMessage
      split <;> exact present
  | dispose =>
      cases stepped
      refine unchanged ?_
      unfold dispose
      split <;> exact present

/-- A call that settles with a failure has met it in this very step. -/
theorem fails_of_step
    {event : CommandSenderEvent κ Buffer V} {index : ℕ}
    {call call' : SendCall κ V} {result : SendResult V}
    (stepped : sender.step config event = some next)
    (present : sender.calls[index]? = some call)
    (open_ : ∀ result, call.phase ≠ .settled result)
    (present' : next.calls[index]? = some call')
    (settled : call'.phase = .settled result)
    (failure : result.isFailure = true) :
    Fails config sender index call event result := by
  cases call_of_step stepped present present' with
  | rests phase => exact absurd (phase.symm.trans settled) (open_ result)
  | initialized initializing itself =>
      have inside := (List.getElem?_eq_some_iff.mp present).1
      subst itself
      unfold send at present'
      split at present'
      · rw [settle, setCall, List.getElem?_set_self inside] at present'
        cases present'
        cases settled
        cases failure
      · dsimp only at present'
        split at present'
        · rename_i failed
          rw [settle, setCall, List.getElem?_set_self inside] at present'
          cases present'
          cases settled
          exact .unserialized initializing failed
        · rw [setCall, List.getElem?_set_self inside] at present'
          cases present'
          cases settled
  | fails fails itsResult =>
      cases settled.symm.trans itsResult
      exact fails
  | goesOn unsent unfailed => cases (unfailed result settled).symm.trans failure

end CommandSender

namespace Ledger

variable {κ Buffer V : Type} [DecidableEq κ]
variable {config : CommandSenderConfig κ Buffer V}

/-- The ways in which a call moves on. -/
inductive CallMoves
    (config : CommandSenderConfig κ Buffer V) (ledger next : Ledger κ V)
    (call : SendCall κ V) : SendCall κ V → Prop
  | stays : CallMoves config ledger next call call
  | givesUp {run : Option ℕ} {result : SendResult V}
      (initializing : call.phase = .initializing run)
      (reason :
        result = .initializationFailed ∨ result = .sendingFailed ∨
          (ledger.isDisposed = true ∧
            result = CommandSender.interrupted config call)) :
      CallMoves config ledger next call
        { call with phase := .settled result, timer := none }
  | sends {run : Option ℕ}
      (initializing : call.phase = .initializing run)
      (created :
        next.commandManager =
          (ledger.commandManager.create config.generateId config.queue
            call.commandName call.args).1) :
      CallMoves config ledger next call
        { call with
          phase := .sending (config.generateId ledger.commandManager.generated)
          timer := some (config.generateId ledger.commandManager.generated) }
  | abandons {correlationId : κ} {result : SendResult V}
      (sending : call.phase = .sending correlationId)
      (reason :
        result = .sendingFailed ∨
          (ledger.isDisposed = true ∧
            result = CommandSender.interrupted config call) ∨
          (ledger.commandManager.get correlationId = none ∧
            result = .correlationIdNotFound)) :
      CallMoves config ledger next call
        { call with phase := .settled result, timer := none }
  | waits {correlationId : κ} {command : ℕ} {isSettled : Bool}
      (sending : call.phase = .sending correlationId) :
      CallMoves config ledger next call
        { call with phase := .waiting correlationId command isSettled }
  | answers {correlationId : κ} {command : ℕ} {isSettled : Bool}
      {object : Command V} {result : SendResult V}
      (waiting : call.phase = .waiting correlationId command isSettled)
      (itsCommand : ledger.commandManager.commands[command]? = some object)
      (settled : CommandSender.statusResult object.status = some result) :
      CallMoves config ledger next call
        { call with phase := .settled result, timer := none }
  | timesOut {correlationId : κ} (running : call.timer = some correlationId) :
      CallMoves config ledger next call { call with timer := none }

theorem CallMoves.of_settled
    {ledger next : Ledger κ V} {call call' : SendCall κ V} {result : SendResult V}
    (moves : CallMoves config ledger next call call')
    (settled : call.phase = .settled result) : call'.phase = .settled result := by
  cases moves with
  | stays => exact settled
  | timesOut running => exact settled
  | givesUp initializing _ => cases settled.symm.trans initializing
  | sends initializing _ => cases settled.symm.trans initializing
  | abandons sending _ => cases settled.symm.trans sending
  | waits sending => cases settled.symm.trans sending
  | answers waiting _ _ => cases settled.symm.trans waiting

/-- A call in flight keeps its correlation id until it settles. -/
theorem CallMoves.of_inFlight
    {ledger next : Ledger κ V} {call call' : SendCall κ V} {correlationId : κ}
    (moves : CallMoves config ledger next call call')
    (inFlight : call.phase.correlationId? = some correlationId) :
    call'.phase.correlationId? = some correlationId ∨
      ∃ result, call'.phase = .settled result := by
  cases moves with
  | stays => exact Or.inl inFlight
  | timesOut running => exact Or.inl inFlight
  | givesUp initializing _ =>
      rw [initializing] at inFlight
      cases inFlight
  | sends initializing _ =>
      rw [initializing] at inFlight
      cases inFlight
  | abandons sending _ => exact Or.inr ⟨_, rfl⟩
  | waits sending =>
      rw [sending] at inFlight
      exact Or.inl inFlight
  | answers waiting _ _ => exact Or.inr ⟨_, rfl⟩

/-- Where the calls of a ledger have gone. -/
theorem call_of_set
    {ledger next : Ledger κ V} {index place : ℕ} {call other new : SendCall κ V}
    (present : ledger.calls[index]? = some call)
    (touched : ledger.calls[place]? = some other)
    (moves : CallMoves config ledger next other new) :
    ∃ call', (ledger.calls.set place new)[index]? = some call' ∧
      CallMoves config ledger next call call' := by
  by_cases same : place = index
  · subst same
    cases Option.some.inj (present.symm.trans touched)
    have inRange := (List.getElem?_eq_some_iff.mp present).1
    exact ⟨new, List.getElem?_set_self inRange, moves⟩
  · exact ⟨call, by rw [List.getElem?_set_ne same, present], .stays⟩

theorem Moves.call
    {ledger next : Ledger κ V} {records : List (κ × Outcome V)} {abandoned : Bool}
    (moved : Moves config ledger records abandoned next)
    {index : ℕ} {call : SendCall κ V}
    (present : ledger.calls[index]? = some call) :
    ∃ call', next.calls[index]? = some call' ∧
      CallMoves config ledger next call call' := by
  cases moved with
  | stays => exact ⟨call, present, .stays⟩
  | begins commandName args run =>
      have inRange := (List.getElem?_eq_some_iff.mp present).1
      refine ⟨call, ?_, .stays⟩
      rw [List.getElem?_append_left inRange]
      exact present
  | givesUp touched initializing reason =>
      obtain ⟨run, phase⟩ := initializing
      refine call_of_set present touched (.givesUp phase ?_)
      exact reason.imp_right Or.inr
  | unserialized touched initializing active =>
      obtain ⟨run, phase⟩ := initializing
      exact call_of_set present touched (.givesUp phase (Or.inr (Or.inl rfl)))
  | sends touched initializing active =>
      obtain ⟨run, phase⟩ := initializing
      exact call_of_set present touched (.sends phase rfl)
  | abandons touched sending reason =>
      refine call_of_set present touched (.abandons sending ?_)
      exact reason.imp_right Or.inl
  | misses touched sending absent =>
      exact call_of_set present touched
        (.abandons sending (Or.inr (Or.inr ⟨absent, rfl⟩)))
  | waits touched sending found =>
      exact call_of_set present touched (.waits sending)
  | answers touched waiting itsCommand settled =>
      exact call_of_set present touched (.answers waiting itsCommand settled)
  | timesOut touched running =>
      exact call_of_set present touched (.timesOut running)
  | records correlationId outcome => exact ⟨call, present, .stays⟩
  | cancels => exact ⟨call, present, .stays⟩

theorem Moves.isDisposed
    {ledger next : Ledger κ V} {records : List (κ × Outcome V)} {abandoned : Bool}
    (moved : Moves config ledger records abandoned next)
    (disposed : ledger.isDisposed = true) : next.isDisposed = true := by
  cases moved with
  | cancels => rfl
  | _ => exact disposed

/-- How a call settles that has made a command: its sending has failed, the
sender has been disposed of, or its command has the answer. -/
def SettledBy
    (config : CommandSenderConfig κ Buffer V) (ledger : Ledger κ V)
    (command : ℕ) (call : SendCall κ V) (result : SendResult V) : Prop :=
  result = .sendingFailed ∨
    (ledger.isDisposed = true ∧
      result = CommandSender.interrupted config call) ∨
    ∃ object, ledger.commandManager.commands[command]? = some object ∧
      CommandSender.statusResult object.status = some result

/-- A call that has made a command is in flight under its id, or has settled
accordingly. -/
def Follows
    (config : CommandSenderConfig κ Buffer V) (ledger : Ledger κ V)
    (index command : ℕ) (origin : SendCall κ V) : Prop :=
  ∃ call, ledger.calls[index]? = some call ∧
    call.commandName = origin.commandName ∧ call.args = origin.args ∧
    (call.phase.correlationId? = some (config.generateId command) ∨
      ∃ result, call.phase = .settled result ∧
        SettledBy config ledger command origin result)

theorem SettledBy.moves
    {ledger next : Ledger κ V} {records : List (κ × Outcome V)} {abandoned : Bool}
    {command : ℕ} {call : SendCall κ V} {result : SendResult V}
    (settledBy : SettledBy config ledger command call result)
    (unique : Injective config.generateId)
    (correlated : Correlated config ledger)
    (moved : Moves config ledger records abandoned next) :
    SettledBy config next command call result := by
  rcases settledBy with failed | ⟨disposed, interrupted⟩ | ⟨object, present, itsResult⟩
  · exact Or.inl failed
  · exact Or.inr (Or.inl ⟨moved.isDisposed disposed, interrupted⟩)
  · have settled : object.status ≠ .ready := by
      intro ready
      rw [ready] at itsResult
      cases itsResult
    obtain ⟨waiter, kept⟩ := moved.commands unique correlated present
    rw [Command.settleAll_of_settled settled] at kept
    exact Or.inr (Or.inr ⟨_, kept, itsResult⟩)

theorem Follows.moves
    {ledger next : Ledger κ V} {records : List (κ × Outcome V)} {abandoned : Bool}
    {index command : ℕ} {origin : SendCall κ V}
    (follows : Follows config ledger index command origin)
    (unique : Injective config.generateId)
    (correlated : Correlated config ledger)
    (moved : Moves config ledger records abandoned next) :
    Follows config next index command origin := by
  obtain ⟨call, present, sameName, sameArgs, phase⟩ := follows
  have record := correlated.recorded index call present
  have sameInterrupt :
      CommandSender.interrupted config call =
        CommandSender.interrupted config origin := by
    unfold CommandSender.interrupted
    rw [sameName, sameArgs]
  obtain ⟨call', present', moves⟩ := moved.call present
  cases moves with
  | stays =>
      refine ⟨call, present', sameName, sameArgs, ?_⟩
      rcases phase with inFlight | ⟨result, settled, settledBy⟩
      · exact Or.inl inFlight
      · exact Or.inr ⟨result, settled, settledBy.moves unique correlated moved⟩
  | givesUp initializing reason =>
      rw [initializing] at phase
      rcases phase with inFlight | ⟨result, settled, _⟩
      · cases inFlight
      · cases settled
  | sends initializing created =>
      rw [initializing] at phase
      rcases phase with inFlight | ⟨result, settled, _⟩
      · cases inFlight
      · cases settled
  | @abandons correlationId result sending reason =>
      refine ⟨_, present', sameName, sameArgs, Or.inr ⟨result, rfl, ?_⟩⟩
      rcases reason with failed | ⟨disposed, interrupted⟩ | ⟨absent, _⟩
      · exact Or.inl failed
      · exact Or.inr (Or.inl
          ⟨moved.isDisposed disposed, interrupted.trans sameInterrupt⟩)
      · have itsId : call.phase.correlationId? = some correlationId := by
          rw [sending]
          rfl
        obtain ⟨own, named, member⟩ := record.inFlight correlationId itsId
        subst named
        rw [(correlated.wellFormed.get_iff unique own).mpr member] at absent
        cases absent
  | waits sending =>
      refine ⟨_, present', sameName, sameArgs, Or.inl ?_⟩
      rw [sending] at phase
      rcases phase with inFlight | ⟨result, settled, _⟩
      · exact inFlight
      · cases settled
  | @answers correlationId own isSettled object result waiting itsCommand settled =>
      refine ⟨_, present', sameName, sameArgs, Or.inr ⟨result, rfl, ?_⟩⟩
      have named := (record.waiting _ _ _ waiting).1
      rw [waiting] at phase
      rcases phase with inFlight | ⟨result, impossible, _⟩
      · have same : own = command :=
          unique (named.symm.trans (Option.some.inj inFlight))
        subst same
        have settledNow : SettledBy config ledger own origin result :=
          Or.inr (Or.inr ⟨object, itsCommand, settled⟩)
        exact settledNow.moves unique correlated moved
      · cases impossible
  | timesOut running =>
      refine ⟨_, present', sameName, sameArgs, ?_⟩
      rcases phase with inFlight | ⟨result, settled, settledBy⟩
      · exact Or.inl inFlight
      · exact Or.inr ⟨result, settled, settledBy.moves unique correlated moved⟩

end Ledger

/-! ## Correlation is sound -/

namespace CommandSender

variable {κ Buffer V : Type} [DecidableEq κ]
variable {config : CommandSenderConfig κ Buffer V}
variable {sender next final : CommandSender κ Buffer V}

/-- A reply, a returned message or a timer for the correlation id. -/
def Concerns (sender : CommandSender κ Buffer V) (correlationId : κ) :
    CommandSenderEvent κ Buffer V → Prop
  | .replyQueueMessage _ other _ => other = correlationId
  | .commandMessageReturn other => other = correlationId
  | .timedOut index =>
      ∃ call, sender.calls[index]? = some call ∧
        call.timer = some correlationId
  | _ => False

/-- What a run from `sender` to `final` does to commands, calls and replies. -/
structure CorrelationSound
    (config : CommandSenderConfig κ Buffer V)
    (sender : CommandSender κ Buffer V)
    (schedule : List (CommandSenderEvent κ Buffer V))
    (final : CommandSender κ Buffer V) : Prop where
  /-- A settled command keeps its status, and one that is ready takes the first
  outcome recorded for its id. -/
  firstOutcome :
    ∀ (index : ℕ) (command : Command V),
      sender.commandManager.commands[index]? = some command →
        ∃ command', final.commandManager.commands[index]? = some command' ∧
          command'.status =
            command.firstStatus
              (outcomesFor (config.generateId index)
                (sender.recordedAlong config schedule))
  /-- What concerns one id does not touch the command of another. -/
  untouched :
    ∀ event next correlationId,
      sender.step config event = some next →
        sender.Concerns correlationId event →
          ∀ index, config.generateId index ≠ correlationId →
            next.commandManager.commands[index]? =
              sender.commandManager.commands[index]?
  acknowledged :
    final.acknowledged =
      (sender.deliveredAlong config schedule).reverse ++ sender.acknowledged
  /-- A call that leaves its initialization makes a command of its own, or
  settles without one. -/
  begins :
    ∀ event next (index : ℕ) (call : SendCall κ V) run,
      sender.step config event = some next →
        sender.calls[index]? = some call →
        call.phase = .initializing run →
          ∃ call', next.calls[index]? = some call' ∧
            (call' = call ∨
              (call'.phase =
                  .sending
                    (config.generateId sender.commandManager.commands.length) ∧
                next.commandManager.commands =
                  sender.commandManager.commands ++
                    [Command.create config.queue call.commandName call.args]) ∨
              ∃ result, call'.phase = .settled result ∧
                (Fails config sender index call event result ∨
                  (sender.isDisposed = true ∧ result = interrupted config call)))
  /-- Its sending has failed only if `sendToQueue` has been rejected. -/
  settles :
    ∀ (index command : ℕ) (call call' : SendCall κ V) result,
      sender.calls[index]? = some call →
        call.phase.correlationId? = some (config.generateId command) →
        final.calls[index]? = some call' → call'.phase = .settled result →
          Ledger.SettledBy config final.ledger command call result ∧
            (result = .sendingFailed → .sendSettled index .rejected ∈ schedule)
  /-- A call that waits for a settled command can settle, whether the command was
  settled before or after it began to wait. -/
  answers :
    ∀ (index command : ℕ) (call : SendCall κ V) correlationId isSettled
      (object : Command V) result,
      sender.calls[index]? = some call →
        call.phase = .waiting correlationId command isSettled →
        sender.commandManager.commands[command]? = some object →
        statusResult object.status = some result →
          ∃ next, sender.step config (.answered index) = some next ∧
            (next.calls[index]?).map SendCall.phase = some (.settled result)
  disposed :
    final.isDisposed = true →
      ∀ command ∈ final.commandManager.commands, command.status ≠ .ready

/-- A command that no outcome reaches stays as it is, except that its own call
may begin to wait for it. -/
theorem untouched_step
    (unique : Injective config.generateId)
    (correlated : Ledger.Correlated config sender.ledger)
    {event : CommandSenderEvent κ Buffer V} {correlationId : κ}
    (stepped : sender.step config event = some next)
    (concerns : sender.Concerns correlationId event)
    {index : ℕ} (different : config.generateId index ≠ correlationId) :
    next.commandManager.commands[index]? =
      sender.commandManager.commands[index]? := by
  have settledOne (outcome : Outcome V) :
      (sender.commandManager.settleOne correlationId outcome).commands[index]? =
        sender.commandManager.commands[index]? := by
    have decided :=
      correlated.wellFormed.settleOne_commands unique correlationId outcome index
    simp only [if_neg different.symm, Option.map_id'] at decided
    exact decided
  cases event with
  | timedOut place =>
      obtain ⟨call, present, running⟩ := concerns
      simp only [step, timeOut, present, running, Option.some.injEq] at stepped
      subst stepped
      exact settledOne (.failedWithCode .commandTimedOut)
  | commandMessageReturn id =>
      cases concerns
      cases stepped
      unfold handleCommandMessageReturn
      split
      · exact settledOne (.failedWithCode .commandDismissed)
      · rfl
  | replyQueueMessage content id deliveryTag =>
      cases concerns
      cases stepped
      unfold handleReplyQueueMessage
      split
      · cases config.readReply content with
        | ok data => exact settledOne (.succeeded data)
        | error error => exact settledOne (.failed error)
      · rfl
  | _ => cases concerns

theorem answers_step
    (correlated : Ledger.Correlated config sender.ledger)
    {index command : ℕ} {call : SendCall κ V} {correlationId : κ}
    {isSettled : Bool} {object : Command V} {result : SendResult V}
    (present : sender.calls[index]? = some call)
    (waiting : call.phase = .waiting correlationId command isSettled)
    (itsCommand : sender.commandManager.commands[command]? = some object)
    (settled : statusResult object.status = some result) :
    ∃ next, sender.step config (.answered index) = some next ∧
      (next.calls[index]?).map SendCall.phase = some (.settled result) := by
  obtain ⟨_, other, found, itsWaiter⟩ :=
    (correlated.recorded index call present).waiting _ _ _ waiting
  have same : other = object := Option.some.inj (found.symm.trans itsCommand)
  subst same
  have inRange := (List.getElem?_eq_some_iff.mp present).1
  refine
    ⟨{ sender with
        commandManager := sender.commandManager.delete correlationId }.settle
      index call result, ?_, ?_⟩
  · simp only [step, settleWait, present, waiting, itsCommand, settled,
      if_pos itsWaiter]
  · simp only [settle, setCall, List.getElem?_set_self inRange, Option.map_some]

theorem begins_step
    (unique : Injective config.generateId)
    (correlated : Ledger.Correlated config sender.ledger)
    {event : CommandSenderEvent κ Buffer V}
    (stepped : sender.step config event = some next)
    {index : ℕ} {call : SendCall κ V} {run : Option ℕ}
    (present : sender.calls[index]? = some call)
    (initializing : call.phase = .initializing run) :
    ∃ call', next.calls[index]? = some call' ∧
      (call' = call ∨
        (call'.phase =
            .sending
              (config.generateId sender.commandManager.commands.length) ∧
          next.commandManager.commands =
            sender.commandManager.commands ++
              [Command.create config.queue call.commandName call.args]) ∨
        ∃ result, call'.phase = .settled result ∧
          (Fails config sender index call event result ∨
            (sender.isDisposed = true ∧ result = interrupted config call))) := by
  obtain ⟨call', present', moves⟩ :=
    (Ledger.moves_of_step stepped).call present
  refine ⟨call', present', ?_⟩
  cases moves with
  | stays => exact Or.inl rfl
  | givesUp _ reason =>
      have open_ : ∀ result, call.phase ≠ .settled result := by
        rw [initializing]
        nofun
      refine Or.inr (Or.inr ⟨_, rfl, ?_⟩)
      rcases reason with failed | failed | interrupted
      · subst failed
        exact Or.inl (fails_of_step stepped present open_ present' rfl rfl)
      · subst failed
        exact Or.inl (fails_of_step stepped present open_ present' rfl rfl)
      · exact Or.inr interrupted
  | sends _ created =>
      have generated :
          sender.commandManager.generated =
            sender.commandManager.commands.length :=
        correlated.wellFormed.generated
      refine Or.inr (Or.inl ⟨?_, ?_⟩)
      · exact congrArg
          (fun count => SendPhase.sending (config.generateId count)) generated
      · have added :=
          CommandManager.create_fst config.generateId sender.commandManager
            config.queue call.commandName call.args
            (correlated.wellFormed.unused unique)
        exact congrArg CommandManager.commands (created.trans added)
  | abandons sending _ =>
      rw [initializing] at sending
      cases sending
  | waits sending =>
      rw [initializing] at sending
      cases sending
  | answers waiting _ _ =>
      rw [initializing] at waiting
      cases waiting
  | timesOut running =>
      have inFlight :=
        (correlated.recorded index call present).timer _ running
      rw [initializing] at inFlight
      cases inFlight

/-- Along a run a call that has made its command settles accordingly. -/
theorem settledBy_run
    (unique : Injective config.generateId)
    {schedule : List (CommandSenderEvent κ Buffer V)}
    (correlated : Ledger.Correlated config sender.ledger)
    (execution : (machine config).run sender schedule = some final)
    {index command : ℕ} {call call' : SendCall κ V} {result : SendResult V}
    (present : sender.calls[index]? = some call)
    (inFlight : call.phase.correlationId? = some (config.generateId command))
    (present' : final.calls[index]? = some call')
    (settled : call'.phase = .settled result) :
    Ledger.SettledBy config final.ledger command call result := by
  have preserved :
      (machine config).Preserved fun current =>
        Ledger.Correlated config current.ledger ∧
          Ledger.Follows config current.ledger index command call := by
    intro current event following ⟨holds, follows⟩ stepped
    have moved := Ledger.moves_of_step stepped
    exact ⟨holds.moves unique moved, follows.moves unique holds moved⟩
  have follows :=
    (Machine.run_invariant preserved
      ⟨correlated, call, present, rfl, rfl, Or.inl inFlight⟩ execution).2
  obtain ⟨other, found, _, _, phase⟩ := follows
  have same : other = call' := Option.some.inj (found.symm.trans present')
  subst same
  rcases phase with stillInFlight | ⟨itsResult, itsPhase, settledBy⟩
  · rw [settled] at stillInFlight
    cases stillInFlight
  · rw [settled] at itsPhase
    cases itsPhase
    exact settledBy

/-- A settled call keeps its result. -/
theorem settled_run
    {schedule : List (CommandSenderEvent κ Buffer V)}
    (execution : (machine config).run sender schedule = some final)
    {index : ℕ} {call call' : SendCall κ V} {result : SendResult V}
    (present : sender.calls[index]? = some call)
    (settled : call.phase = .settled result)
    (present' : final.calls[index]? = some call') :
    call'.phase = .settled result := by
  have preserved :
      (machine config).Preserved fun current =>
        ∃ call, current.calls[index]? = some call ∧
          call.phase = .settled result := by
    intro current event following ⟨before, found, already⟩ stepped
    obtain ⟨after, placed, moves⟩ := (Ledger.moves_of_step stepped).call found
    exact ⟨after, placed, moves.of_settled already⟩
  obtain ⟨after, placed, still⟩ :=
    Machine.run_invariant preserved ⟨call, present, settled⟩ execution
  cases Option.some.inj (placed.symm.trans present')
  exact still

/-- A call that has sent its command fails with its sending, if at all. -/
theorem rejected_mem_of_run
    {schedule : List (CommandSenderEvent κ Buffer V)}
    (execution : (machine config).run sender schedule = some final)
    {index : ℕ} {call call' : SendCall κ V} {correlationId : κ}
    (present : sender.calls[index]? = some call)
    (inFlight : call.phase.correlationId? = some correlationId)
    (present' : final.calls[index]? = some call')
    (failed : call'.phase = .settled .sendingFailed) :
    .sendSettled index .rejected ∈ schedule := by
  induction schedule generalizing sender call with
  | nil =>
      cases execution
      cases Option.some.inj (present.symm.trans present')
      rw [failed] at inFlight
      cases inFlight
  | cons event rest inductionHypothesis =>
      obtain ⟨next, stepped, remaining⟩ := Machine.run_cons_iff.mp execution
      obtain ⟨middle, placed, moves⟩ := (Ledger.moves_of_step stepped).call present
      rcases moves.of_inFlight inFlight with still | ⟨result, settled⟩
      · exact List.mem_cons_of_mem _ (inductionHypothesis remaining placed still)
      · have same := failed.symm.trans (settled_run remaining placed settled present')
        cases same
        have open_ : ∀ result, call.phase ≠ .settled result := by
          intro result already
          rw [already] at inFlight
          cases inFlight
        cases fails_of_step stepped present open_ placed settled rfl with
        | unserialized initializing _ =>
            rw [initializing] at inFlight
            cases inFlight
        | unsent sending => exact List.mem_cons_self

/-- As long as no correlation id is generated twice, every run of the sender
keeps commands, replies and calls together. -/
theorem correlation_sound
    (config : CommandSenderConfig κ Buffer V)
    (unique : Injective config.generateId)
    (earlier schedule : List (CommandSenderEvent κ Buffer V))
    (sender final : CommandSender κ Buffer V)
    (before : (machine config).run (create config) earlier = some sender)
    (execution : (machine config).run sender schedule = some final) :
    CorrelationSound config sender schedule final := by
  have correlated := correlated_run unique before
  have finally_ : Ledger.Correlated config final.ledger :=
    Machine.run_invariant (correlated_preserved unique) correlated execution
  refine
    { firstOutcome := ?_
      untouched := ?_
      acknowledged := listening_run before execution
      begins := ?_
      settles := ?_
      answers := ?_
      disposed := ?_ }
  · intro index command present
    obtain ⟨waiter, placed⟩ :=
      commands_run unique correlated execution present
    exact ⟨_, placed, command.settleAll_status _⟩
  · intro event next correlationId stepped concerns index different
    exact untouched_step unique correlated stepped concerns different
  · intro event next index call run stepped present initializing
    exact begins_step unique correlated stepped present initializing
  · intro index command call call' result present inFlight present' settled
    refine
      ⟨settledBy_run unique correlated execution present inFlight present' settled,
        ?_⟩
    intro failed
    rw [failed] at settled
    exact rejected_mem_of_run execution present inFlight present' settled
  · intro index command call correlationId isSettled object result present
      waiting itsCommand settled
    exact answers_step correlated present waiting itsCommand settled
  · intro disposed command member
    obtain ⟨index, inRange, rfl⟩ := List.mem_iff_getElem.mp member
    exact finally_.disposed disposed index _ (List.getElem?_eq_getElem inRange)

/-- A command is sent once the reply queue is consumed. -/
def firstSent : List (CommandSenderEvent ℕ String Unit) :=
  [.sendCommand "first" (), .consumeRun 0 (.queueAsserted .fulfilled),
    .consumeRun 0 (.queueConsumed 7), .initialized 0]

/-- The reply comes twice before the sending is confirmed; then the sender is
disposed of. -/
def repliedTwice : List (CommandSenderEvent ℕ String Unit) :=
  [.replyQueueMessage "reply" 0 1, .replyQueueMessage "reply" 0 2,
    .sendSettled 0 .fulfilled, .answered 0, .dispose]

theorem correlation_sound_repliedTwice :
    ∃ sender final : CommandSender ℕ String Unit,
      CorrelationSound unitConfig sender repliedTwice final ∧
        final.calls.map SendCall.phase = [.settled (.resolved none)] ∧
        final.acknowledged = [2, 1] :=
  ⟨_, _,
    correlation_sound unitConfig injective_id firstSent repliedTwice _ _ rfl rfl,
    rfl, rfl⟩

end CommandSender

end Amq.Rpc
