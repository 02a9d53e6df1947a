import Amq.Rpc.CommandOutcomes
import Amq.Rpc.CommandSender

/-!
# Correlation of commands and replies

A sender is read as a ledger of its commands and calls.  Replies, returned
messages, timers and the disposal record outcomes for correlation ids, whatever
a call of `sendCommand` is waiting for at that time.
-/


namespace Amq.Rpc

open Function Amq.Transition

/-- The outcome that a reply records. -/
def replyOutcome {V : Type} : Except (Rejection V) (Option V) → Outcome V
  | .ok data => .succeeded data
  | .error error => .failed error

namespace SendPhase

variable {κ V : Type}

/-- The correlation id of a call that has sent its command and has not
settled. -/
def correlationId? : SendPhase κ V → Option κ
  | .sending correlationId => some correlationId
  | .waiting correlationId _ _ => some correlationId
  | _ => none

end SendPhase

/-- The commands and calls of a sender. -/
structure Ledger (κ V : Type) where
  isDisposed : Bool
  commandManager : CommandManager κ V
  calls : List (SendCall κ V)

namespace CommandSender

variable {κ Buffer V : Type} [DecidableEq κ]

def ledger (sender : CommandSender κ Buffer V) : Ledger κ V where
  isDisposed := sender.isDisposed
  commandManager := sender.commandManager
  calls := sender.calls

/-- `initialize` lets the call go on. -/
def isReady (sender : CommandSender κ Buffer V) (call : SendCall κ V) : Bool :=
  match call.phase with
  | .initializing none => true
  | .initializing (some run) =>
      (sender.replyQueueConsumer.runs[run]?).any ConsumePhase.isResolved
  | _ => false

/-- The outcomes that a step records, with their correlation ids. -/
def recorded
    (config : CommandSenderConfig κ Buffer V)
    (sender : CommandSender κ Buffer V) :
    CommandSenderEvent κ Buffer V → List (κ × Outcome V)
  | .timedOut call =>
      ((sender.calls[call]?).bind SendCall.timer).toList.map fun correlationId =>
        (correlationId, .failedWithCode .commandTimedOut)
  | .commandMessageReturn correlationId =>
      if sender.isListening then
        [(correlationId, .failedWithCode .commandDismissed)]
      else
        []
  | .replyQueueMessage content correlationId _ =>
      if sender.isListening && !sender.replyQueueConsumer.isDisposed then
        [(correlationId, replyOutcome (config.readReply content))]
      else
        []
  | .dispose =>
      if sender.isDisposed then
        []
      else
        sender.commandManager.failures .commandCancelled
  | _ => []

/-- The step ends a call whose command has been made, but which does not wait for
it: the command cannot be serialized, or it cannot be sent, or the sender has
been disposed of meanwhile. -/
def abandons
    (config : CommandSenderConfig κ Buffer V)
    (sender : CommandSender κ Buffer V) :
    CommandSenderEvent κ Buffer V → Bool
  | .initialized index =>
      match sender.calls[index]? with
      | none => false
      | some call =>
          !sender.isDisposed && sender.isReady call &&
            (config.serialize ⟨config.text call.commandName, call.args⟩).isNone
  | .sendSettled _ settlement => settlement = .rejected || sender.isDisposed
  | _ => false

/-- The outcomes that a schedule records, in their order. -/
def recordedAlong (config : CommandSenderConfig κ Buffer V) :
    CommandSender κ Buffer V → List (CommandSenderEvent κ Buffer V) →
      List (κ × Outcome V)
  | _, [] => []
  | sender, event :: rest =>
      sender.recorded config event ++
        match sender.step config event with
        | none => []
        | some next => recordedAlong config next rest

end CommandSender

/-- The outcomes recorded for one correlation id. -/
def outcomesFor {κ V : Type} [DecidableEq κ]
    (correlationId : κ) (records : List (κ × Outcome V)) : List (Outcome V) :=
  (records.filter fun entry => entry.1 = correlationId).map Prod.snd

namespace Ledger

variable {κ Buffer V : Type} [DecidableEq κ]

/-- A call settles. -/
def settleCall
    (ledger : Ledger κ V) (index : ℕ) (call : SendCall κ V)
    (result : SendResult V) : List (SendCall κ V) :=
  ledger.calls.set index { call with phase := .settled result, timer := none }

/-- What a step does to the ledger, the outcomes that it records, and whether it
abandons a command. -/
inductive Moves
    (config : CommandSenderConfig κ Buffer V) (ledger : Ledger κ V) :
    List (κ × Outcome V) → Bool → Ledger κ V → Prop
  | stays : Moves config ledger [] false ledger
  | begins (commandName : String) (args : V) (run : Option ℕ) :
      Moves config ledger [] false
        { ledger with
          calls :=
            ledger.calls ++
              [{ commandName := commandName
                 args := args
                 phase := .initializing run
                 timer := none }] }
  /-- The call settles before it has made a command. -/
  | givesUp {index : ℕ} {call : SendCall κ V} {result : SendResult V}
      (present : ledger.calls[index]? = some call)
      (initializing : ∃ run, call.phase = .initializing run)
      (reason :
        result = .initializationFailed ∨
          (ledger.isDisposed = true ∧
            result = CommandSender.interrupted config call)) :
      Moves config ledger [] false
        { ledger with calls := ledger.settleCall index call result }
  | unserialized {index : ℕ} {call : SendCall κ V}
      (present : ledger.calls[index]? = some call)
      (initializing : ∃ run, call.phase = .initializing run)
      (active : ledger.isDisposed = false) :
      Moves config ledger [] true
        { ledger with
          commandManager :=
            (ledger.commandManager.create config.generateId config.queue
              call.commandName call.args).1
          calls := ledger.settleCall index call .sendingFailed }
  | sends {index : ℕ} {call : SendCall κ V}
      (present : ledger.calls[index]? = some call)
      (initializing : ∃ run, call.phase = .initializing run)
      (active : ledger.isDisposed = false) :
      Moves config ledger [] false
        { ledger with
          commandManager :=
            (ledger.commandManager.create config.generateId config.queue
              call.commandName call.args).1
          calls :=
            ledger.calls.set index
              { call with
                phase :=
                  .sending (config.generateId ledger.commandManager.generated)
                timer :=
                  some (config.generateId ledger.commandManager.generated) } }
  /-- The call settles after it has sent its command, without waiting. -/
  | abandons {index : ℕ} {call : SendCall κ V} {correlationId : κ}
      {result : SendResult V}
      (present : ledger.calls[index]? = some call)
      (sending : call.phase = .sending correlationId)
      (reason :
        result = .sendingFailed ∨
          (ledger.isDisposed = true ∧
            result = CommandSender.interrupted config call)) :
      Moves config ledger [] true
        { ledger with calls := ledger.settleCall index call result }
  | misses {index : ℕ} {call : SendCall κ V} {correlationId : κ}
      (present : ledger.calls[index]? = some call)
      (sending : call.phase = .sending correlationId)
      (absent : ledger.commandManager.get correlationId = none) :
      Moves config ledger [] false
        { ledger with
          calls := ledger.settleCall index call .correlationIdNotFound }
  | waits {index command : ℕ} {call : SendCall κ V} {correlationId : κ}
      (present : ledger.calls[index]? = some call)
      (sending : call.phase = .sending correlationId)
      (found : ledger.commandManager.get correlationId = some command) :
      Moves config ledger [] false
        { ledger with
          commandManager :=
            ledger.commandManager.update command (·.wait index)
          calls :=
            ledger.calls.set index
              { call with
                phase :=
                  .waiting correlationId command
                    ((ledger.commandManager.commands[command]?).any
                      fun object => !object.status matches .ready) } }
  | answers {index command : ℕ} {call : SendCall κ V} {correlationId : κ}
      {isSettled : Bool} {object : Command V} {result : SendResult V}
      (present : ledger.calls[index]? = some call)
      (waiting : call.phase = .waiting correlationId command isSettled)
      (itsCommand : ledger.commandManager.commands[command]? = some object)
      (settled : CommandSender.statusResult object.status = some result) :
      Moves config ledger [] false
        { ledger with
          commandManager := ledger.commandManager.delete correlationId
          calls := ledger.settleCall index call result }
  | timesOut {index : ℕ} {call : SendCall κ V} {correlationId : κ}
      (present : ledger.calls[index]? = some call)
      (running : call.timer = some correlationId) :
      Moves config ledger
        [(correlationId, .failedWithCode .commandTimedOut)] false
        { ledger with
          commandManager :=
            ledger.commandManager.settleOne correlationId
              (.failedWithCode .commandTimedOut)
          calls := ledger.calls.set index { call with timer := none } }
  | records (correlationId : κ) (outcome : Outcome V) :
      Moves config ledger [(correlationId, outcome)] false
        { ledger with
          commandManager :=
            ledger.commandManager.settleOne correlationId outcome }
  | cancels :
      Moves config ledger (ledger.commandManager.failures .commandCancelled) false
        { ledger with
          isDisposed := true
          commandManager :=
            ledger.commandManager.failAllWithCode .commandCancelled }

variable {config : CommandSenderConfig κ Buffer V}
variable {sender next : CommandSender κ Buffer V}

theorem moves_of_send
    {index : ℕ} {call : SendCall κ V}
    (present : sender.calls[index]? = some call)
    (initializing : ∃ run, call.phase = .initializing run)
    (ready : sender.isReady call = true) :
    Moves config sender.ledger [] (sender.abandons config (.initialized index))
      (sender.send config index call).ledger := by
  unfold CommandSender.send
  split
  · rename_i disposed
    have kept : sender.abandons config (.initialized index) = false := by
      simp [CommandSender.abandons, present, disposed]
    rw [kept]
    exact .givesUp present initializing (Or.inr ⟨disposed, rfl⟩)
  · rename_i active
    have notDisposed : sender.isDisposed = false :=
      Bool.eq_false_of_not_eq_true active
    dsimp only
    split
    · rename_i unserialized
      have abandoned : sender.abandons config (.initialized index) = true := by
        simp [CommandSender.abandons, present, ready, notDisposed, unserialized]
      rw [abandoned]
      exact .unserialized present initializing notDisposed
    · rename_i content serialized
      have kept : sender.abandons config (.initialized index) = false := by
        simp [CommandSender.abandons, present, serialized]
      rw [kept]
      exact .sends present initializing notDisposed

omit [DecidableEq κ] in
theorem isReady_of_ready {call : SendCall κ V} (ready : sender.Ready call) :
    sender.isReady call = true := by
  cases ready with
  | waited run phase awaits present resolved =>
      simp [CommandSender.isReady, awaits, present, resolved]
  | skipped awaits => simp [CommandSender.isReady, awaits]

theorem moves_of_settleInitialize
    {index : ℕ}
    (stepped : sender.settleInitialize config index = some next) :
    Moves config sender.ledger [] (sender.abandons config (.initialized index))
      next.ledger := by
  obtain ⟨call, present, settled⟩ := CommandSender.settleInitialize_cases stepped
  cases settled with
  | sends ready =>
      exact moves_of_send present ready.initializing (isReady_of_ready ready)
  | fails awaits failed =>
      have unready : sender.isReady call = false := by
        simp [CommandSender.isReady, awaits, failed, ConsumePhase.isResolved]
      simp only [CommandSender.abandons, present, unready, Bool.and_false,
        Bool.false_and]
      exact .givesUp present ⟨_, awaits⟩ (Or.inl rfl)

theorem moves_of_settleSend
    {index : ℕ} {settlement : Settlement}
    (stepped : sender.settleSend config index settlement = some next) :
    Moves config sender.ledger []
      (sender.abandons config (.sendSettled index settlement)) next.ledger := by
  obtain ⟨call, correlationId, present, sending, settled⟩ :=
    CommandSender.settleSend_cases stepped
  cases settled with
  | interrupted disposed =>
      simp only [CommandSender.abandons, disposed, Bool.or_true]
      exact .abandons present sending (Or.inr ⟨disposed, rfl⟩)
  | waits active =>
      simp only [CommandSender.abandons, active, reduceCtorEq, decide_false,
        Bool.or_false]
      unfold CommandSender.waitForReply
      split
      · rename_i absent
        exact .misses present sending absent
      · rename_i command found
        exact .waits present sending found
  | fails => exact .abandons present sending (Or.inl rfl)

theorem moves_of_settleWait
    {index : ℕ} (stepped : sender.settleWait index = some next) :
    Moves config sender.ledger [] false next.ledger := by
  obtain ⟨_, _, _, _, _, _, present, waiting, itsCommand, settled, rfl⟩ :=
    CommandSender.settleWait_cases stepped
  exact .answers present waiting itsCommand settled

theorem moves_of_timeOut
    {index : ℕ} (stepped : sender.timeOut index = some next) :
    Moves config sender.ledger
      (sender.recorded config (.timedOut index)) false next.ledger := by
  obtain ⟨call, correlationId, present, running, rfl⟩ :=
    CommandSender.timeOut_cases stepped
  simp only [CommandSender.recorded, present, Option.bind_some, running]
  exact .timesOut present running

omit [DecidableEq κ] in
theorem consumeAgain_ledger (sender : CommandSender κ Buffer V) :
    sender.consumeAgain.ledger = sender.ledger := by
  unfold CommandSender.consumeAgain
  split <;> rfl

/-- Every step of the sender is a move of its ledger. -/
theorem moves_of_step
    {event : CommandSenderEvent κ Buffer V}
    (stepped : sender.step config event = some next) :
    Moves config sender.ledger (sender.recorded config event)
      (sender.abandons config event) next.ledger := by
  cases event with
  | sendCommand commandName args =>
      cases stepped
      unfold CommandSender.sendCommand CommandSender.initializeSender
      split
      · exact .begins commandName args none
      · exact .begins commandName args _
  | initialized index => exact moves_of_settleInitialize stepped
  | sendSettled index settlement => exact moves_of_settleSend stepped
  | answered index => exact moves_of_settleWait stepped
  | timedOut index => exact moves_of_timeOut stepped
  | consumeRun run event =>
      obtain ⟨consumer, moved, rfl⟩ := Option.map_eq_some_iff.mp stepped
      exact .stays
  | amqpReconnected =>
      cases stepped
      rw [consumeAgain_ledger]
      exact .stays
  | amqpChannelRecreated =>
      cases stepped
      rw [consumeAgain_ledger]
      exact .stays
  | commandMessageReturn correlationId =>
      cases stepped
      unfold CommandSender.handleCommandMessageReturn
      dsimp only [CommandSender.recorded]
      split
      · exact .records correlationId _
      · exact .stays
  | replyQueueMessage content correlationId deliveryTag =>
      cases stepped
      unfold CommandSender.handleReplyQueueMessage
      dsimp only [CommandSender.recorded]
      split
      · cases config.readReply content with
        | ok data => exact .records correlationId (.succeeded data)
        | error error => exact .records correlationId (.failed error)
      · exact .stays
  | dispose =>
      cases stepped
      unfold CommandSender.dispose
      dsimp only [CommandSender.recorded]
      split
      · exact .stays
      · exact .cancels

/-! ## What holds of the ledger in every run -/

/-- A call in flight has a command of its own in the container.  The command
either was settled when the call began to wait for it, or it knows the call. -/
structure CallRecord
    (config : CommandSenderConfig κ Buffer V) (manager : CommandManager κ V)
    (index : ℕ) (call : SendCall κ V) : Prop where
  inFlight :
    ∀ correlationId, call.phase.correlationId? = some correlationId →
      ∃ command, correlationId = config.generateId command ∧
        (correlationId, command) ∈ manager.container
  waiting :
    ∀ correlationId command isSettled,
      call.phase = .waiting correlationId command isSettled →
        correlationId = config.generateId command ∧
          ∃ object, manager.commands[command]? = some object ∧
            (isSettled = true ∨ object.waiter = some index)
  timer :
    ∀ correlationId, call.timer = some correlationId →
      call.phase.correlationId? = some correlationId

/-- The calls in flight have different correlation ids, and a sender that is
disposed of has no command that is ready. -/
structure Correlated
    (config : CommandSenderConfig κ Buffer V) (ledger : Ledger κ V) :
    Prop where
  wellFormed : ledger.commandManager.WellFormed config.generateId
  disposed :
    ledger.isDisposed = true →
      ∀ (index : ℕ) (object : Command V),
        ledger.commandManager.commands[index]? = some object →
          object.status ≠ .ready
  recorded :
    ∀ (index : ℕ) (call : SendCall κ V), ledger.calls[index]? = some call →
      CallRecord config ledger.commandManager index call
  distinct :
    ∀ (first second : ℕ) (call other : SendCall κ V) (correlationId : κ),
      ledger.calls[first]? = some call → ledger.calls[second]? = some other →
        call.phase.correlationId? = some correlationId →
        other.phase.correlationId? = some correlationId → first = second

section

omit [DecidableEq κ]

theorem CallRecord.of_settled
    {manager : CommandManager κ V} {index : ℕ} {call : SendCall κ V}
    (settled : call.phase.correlationId? = none) (idle : call.timer = none) :
    CallRecord config manager index call := by
  refine ⟨?_, ?_, ?_⟩
  · intro correlationId same
    rw [settled] at same
    cases same
  · intro correlationId command isSettled waiting
    rw [waiting] at settled
    cases settled
  · intro correlationId running
    rw [idle] at running
    cases running

/-- A call keeps its record while its entry and the waiter of its command are
kept. -/
theorem CallRecord.transfer
    {manager other : CommandManager κ V} {index : ℕ} {call : SendCall κ V}
    (record : CallRecord config manager index call)
    (kept :
      ∀ correlationId command, call.phase.correlationId? = some correlationId →
        (correlationId, command) ∈ manager.container →
          (correlationId, command) ∈ other.container)
    (known :
      ∀ correlationId command isSettled (object : Command V),
        call.phase = .waiting correlationId command isSettled →
        manager.commands[command]? = some object →
          ∃ object', other.commands[command]? = some object' ∧
            object'.waiter = object.waiter) :
    CallRecord config other index call := by
  refine ⟨?_, ?_, record.timer⟩
  · intro correlationId itsId
    obtain ⟨command, named, member⟩ := record.inFlight correlationId itsId
    exact ⟨command, named, kept correlationId command itsId member⟩
  · intro correlationId command isSettled waiting
    obtain ⟨named, object, present, itsWaiter⟩ :=
      record.waiting correlationId command isSettled waiting
    obtain ⟨object', present', sameWaiter⟩ :=
      known correlationId command isSettled object waiting present
    exact ⟨named, object', present', sameWaiter ▸ itsWaiter⟩

/-- The call of another index with an id that is not its own does not count. -/
theorem Correlated.distinct_set
    {ledger : Ledger κ V} (correlated : Correlated config ledger)
    {index : ℕ} {call' : SendCall κ V}
    (own :
      ∀ correlationId, call'.phase.correlationId? = some correlationId →
        ∀ (other : ℕ) (object : SendCall κ V),
          ledger.calls[other]? = some object →
          object.phase.correlationId? = some correlationId → other = index) :
    ∀ (first second : ℕ) (call other : SendCall κ V) (correlationId : κ),
      (ledger.calls.set index call')[first]? = some call →
        (ledger.calls.set index call')[second]? = some other →
        call.phase.correlationId? = some correlationId →
        other.phase.correlationId? = some correlationId → first = second := by
  have atPlace :
      ∀ place element, (ledger.calls.set index call')[place]? = some element →
        (place = index ∧ element = call') ∨
          ledger.calls[place]? = some element :=
    forall_set _ (fun _ _ present => Or.inr present) (Or.inl ⟨rfl, rfl⟩)
  intro first second call other correlationId atFirst atSecond itsId otherId
  rcases atPlace first call atFirst with ⟨rfl, rfl⟩ | here
  · rcases atPlace second other atSecond with ⟨rfl, rfl⟩ | there
    · rfl
    · exact (own correlationId itsId second other there otherId).symm
  · rcases atPlace second other atSecond with ⟨rfl, rfl⟩ | there
    · exact own correlationId otherId first call here itsId
    · exact correlated.distinct first second call other correlationId here there
        itsId otherId

/-- The commands change, the calls do not. -/
theorem Correlated.manager
    {ledger : Ledger κ V} (correlated : Correlated config ledger)
    {manager : CommandManager κ V} {isDisposed : Bool}
    (wellFormed : manager.WellFormed config.generateId)
    (disposed :
      isDisposed = true →
        ∀ (index : ℕ) (object : Command V),
          manager.commands[index]? = some object → object.status ≠ .ready)
    (kept :
      ∀ entry ∈ ledger.commandManager.container, entry ∈ manager.container)
    (known :
      ∀ (command : ℕ) (object : Command V),
        ledger.commandManager.commands[command]? = some object →
        ∃ object', manager.commands[command]? = some object' ∧
          object'.waiter = object.waiter) :
    Correlated config
      { isDisposed := isDisposed
        commandManager := manager
        calls := ledger.calls } := by
  refine ⟨wellFormed, disposed, ?_, correlated.distinct⟩
  intro index call present
  exact (correlated.recorded index call present).transfer
    (fun _ _ _ member => kept _ member)
    (fun _ command _ object _ found => known command object found)

/-- A call settles or stops its timer. -/
theorem Correlated.replaceCall
    {ledger : Ledger κ V} (correlated : Correlated config ledger)
    {index : ℕ} {call call' : SendCall κ V}
    (present : ledger.calls[index]? = some call)
    (idle : call'.timer = none)
    (phase : call'.phase.correlationId? = none ∨ call'.phase = call.phase) :
    Correlated config
      { ledger with calls := ledger.calls.set index call' } := by
  refine ⟨correlated.wellFormed, correlated.disposed, ?_, ?_⟩
  · refine forall_set _ correlated.recorded ?_
    rcases phase with none | same
    · exact .of_settled none idle
    · have record := correlated.recorded index call present
      refine ⟨?_, ?_, ?_⟩
      · rw [same]
        exact record.inFlight
      · rw [same]
        exact record.waiting
      · intro correlationId running
        rw [idle] at running
        cases running
  · refine correlated.distinct_set ?_
    intro correlationId itsId other object found otherId
    rcases phase with none | same
    · rw [none] at itsId
      cases itsId
    · rw [same] at itsId
      exact correlated.distinct other index object call correlationId found
        present otherId itsId

end

/-- An outcome is recorded. -/
theorem Correlated.settleOne
    {ledger : Ledger κ V} (correlated : Correlated config ledger)
    (unique : Injective config.generateId)
    (correlationId : κ) (outcome : Outcome V) :
    Correlated config
      { ledger with
        commandManager :=
          ledger.commandManager.settleOne correlationId outcome } := by
  have decided :=
    correlated.wellFormed.settleOne_commands unique correlationId outcome
  refine correlated.manager (correlated.wellFormed.settleOne _ _) ?_ ?_ ?_
  · intro disposed index object present
    rw [decided] at present
    obtain ⟨earlier, found, rfl⟩ := Option.map_eq_some_iff.mp present
    split
    · exact Command.settle_status_ne_ready earlier outcome
    · exact correlated.disposed disposed index earlier found
  · intro entry member
    rw [CommandManager.settleOne_container]
    exact member
  · intro command object present
    rw [decided, present]
    refine ⟨_, rfl, ?_⟩
    split
    · exact Command.settle_waiter object _
    · rfl

omit [DecidableEq κ] in
/-- The sender is disposed of. -/
theorem Correlated.failAllWithCode
    {ledger : Ledger κ V} (correlated : Correlated config ledger)
    (code : ErrorCode) :
    Correlated config
      { ledger with
        isDisposed := true
        commandManager := ledger.commandManager.failAllWithCode code } := by
  refine correlated.manager (correlated.wellFormed.failAllWithCode code) ?_ ?_ ?_
  · intro _ index object present
    exact correlated.wellFormed.failAllWithCode_settled code present
  · exact fun entry member => member
  · intro command object present
    rw [CommandManager.failAllWithCode_commands, present]
    refine ⟨_, rfl, ?_⟩
    split
    · exact Command.settle_waiter object _
    · rfl

/-- A command is made under a new id. -/
theorem Correlated.create
    {ledger : Ledger κ V} (correlated : Correlated config ledger)
    (unique : Injective config.generateId)
    (active : ledger.isDisposed = false)
    (queue commandName : String) (args : V) :
    Correlated config
      { ledger with
        commandManager :=
          (ledger.commandManager.create config.generateId queue commandName
            args).1 } := by
  have created :=
    CommandManager.create_fst config.generateId ledger.commandManager queue
      commandName args (correlated.wellFormed.unused unique)
  refine correlated.manager (correlated.wellFormed.create unique _ _ _) ?_ ?_ ?_
  · intro disposed
    rw [active] at disposed
    cases disposed
  · intro entry member
    rw [created]
    exact List.mem_append_left _ member
  · intro command object present
    have inRange := (List.getElem?_eq_some_iff.mp present).1
    rw [created]
    refine ⟨object, ?_, rfl⟩
    dsimp only
    rw [List.getElem?_append_left inRange]
    exact present

omit [DecidableEq κ] in
/-- No call in flight has an id that has not been generated. -/
theorem Correlated.fresh
    {ledger : Ledger κ V} (correlated : Correlated config ledger)
    (unique : Injective config.generateId)
    {index : ℕ} {call : SendCall κ V}
    (present : ledger.calls[index]? = some call) :
    call.phase.correlationId? ≠
      some (config.generateId ledger.commandManager.generated) := by
  intro itsId
  obtain ⟨command, same, member⟩ :=
    (correlated.recorded index call present).inFlight _ itsId
  have older := correlated.wellFormed.present _ member
  have equal := unique same
  have length := correlated.wellFormed.generated
  dsimp only at older
  omega

/-- A call sends its command under the new id. -/
theorem Correlated.sends
    {ledger : Ledger κ V} (correlated : Correlated config ledger)
    (unique : Injective config.generateId)
    {index : ℕ} {call : SendCall κ V} (active : ledger.isDisposed = false) :
    Correlated config
      { ledger with
        commandManager :=
          (ledger.commandManager.create config.generateId config.queue
            call.commandName call.args).1
        calls :=
          ledger.calls.set index
            { call with
              phase :=
                .sending (config.generateId ledger.commandManager.generated)
              timer :=
                some (config.generateId ledger.commandManager.generated) } } := by
  have created :=
    CommandManager.create_fst config.generateId ledger.commandManager config.queue
      call.commandName call.args (correlated.wellFormed.unused unique)
  have extended :=
    correlated.create unique active config.queue call.commandName call.args
  refine ⟨extended.wellFormed, extended.disposed, ?_, ?_⟩
  · refine forall_set _ extended.recorded ⟨?_, nofun, fun _ running => running⟩
    intro correlationId itsId
    cases itsId
    refine ⟨ledger.commandManager.commands.length, ?_, ?_⟩
    · rw [correlated.wellFormed.generated]
    · rw [created]
      exact List.mem_append_right _ List.mem_cons_self
  · refine correlated.distinct_set ?_
    intro correlationId itsId other object found otherId
    cases itsId
    exact absurd otherId (correlated.fresh unique found)

omit [DecidableEq κ] in
/-- The call that begins to wait, with what it knows of its command. -/
theorem CallRecord.waits
    {manager : CommandManager κ V} {index command : ℕ} {call : SendCall κ V}
    {correlationId : κ} {object : Command V}
    (record : CallRecord config manager index call)
    (itsId : call.phase.correlationId? = some correlationId)
    (named : correlationId = config.generateId command)
    (member : (correlationId, command) ∈ manager.container)
    (itsCommand : manager.commands[command]? = some object) :
    CallRecord config (manager.update command (·.wait index)) index
      { call with
        phase :=
          .waiting correlationId command
            ((manager.commands[command]?).any
              fun object => !object.status matches .ready) } where
  inFlight := by
    intro other otherId
    cases otherId
    exact ⟨command, named, member⟩
  waiting := by
    intro other otherCommand isSettled waiting
    cases waiting
    refine ⟨named, object.wait index, ?_, ?_⟩
    · rw [CommandManager.update_commands, itsCommand, Option.map_some,
        if_pos rfl]
    · rw [itsCommand]
      unfold Command.wait
      cases status : object.status with
      | ready => exact Or.inr rfl
      | succeeded response => exact Or.inl (by simp [status])
      | failed error => exact Or.inl (by simp [status])
  timer := by
    intro other running
    have same := record.timer other running
    rw [itsId] at same
    exact same

omit [DecidableEq κ] in
/-- A call that waits for another command does not notice. -/
theorem CallRecord.update_other
    {manager : CommandManager κ V} {index command : ℕ} {call : SendCall κ V}
    (record : CallRecord config manager index call)
    (operation : Command V → Command V)
    (other : call.phase.correlationId? ≠ some (config.generateId command)) :
    CallRecord config (manager.update command operation) index call := by
  refine record.transfer (fun _ _ _ kept => kept) ?_
  intro itsId itsCommand isSettled object waiting known
  have different : itsCommand ≠ command := by
    intro equal
    subst equal
    refine other ?_
    rw [waiting, ← (record.waiting _ _ _ waiting).1]
    rfl
  refine ⟨object, ?_, rfl⟩
  rw [CommandManager.update_commands, known, Option.map_some, if_neg different]

/-- A call begins to wait for its command. -/
theorem Correlated.waits
    {ledger : Ledger κ V} (correlated : Correlated config ledger)
    {index command : ℕ} {call : SendCall κ V} {correlationId : κ}
    (present : ledger.calls[index]? = some call)
    (sending : call.phase = .sending correlationId)
    (found : ledger.commandManager.get correlationId = some command) :
    Correlated config
      { ledger with
        commandManager := ledger.commandManager.update command (·.wait index)
        calls :=
          ledger.calls.set index
            { call with
              phase :=
                .waiting correlationId command
                  ((ledger.commandManager.commands[command]?).any
                    fun object => !object.status matches .ready) } } := by
  have itsId : call.phase.correlationId? = some correlationId := by
    rw [sending]
    rfl
  obtain ⟨named, member⟩ := correlated.wellFormed.get_eq_some found
  obtain ⟨object, itsCommand⟩ :
      ∃ object, ledger.commandManager.commands[command]? = some object :=
    ⟨_, List.getElem?_eq_getElem (correlated.wellFormed.present _ member)⟩
  refine ⟨?_, ?_, ?_, ?_⟩
  · refine correlated.wellFormed.update command _ ?_
    intro object ready
    obtain ⟨waiter, waited⟩ := object.wait_eq index
    rw [waited] at ready
    exact ready
  · intro disposed place object placed
    rw [CommandManager.update_commands] at placed
    obtain ⟨earlier, before, rfl⟩ := Option.map_eq_some_iff.mp placed
    have settled := correlated.disposed disposed place earlier before
    split
    · obtain ⟨waiter, waited⟩ := earlier.wait_eq index
      rw [waited]
      exact settled
    · exact settled
  · intro place element placed
    rcases set_cases placed with ⟨same, itself⟩ | ⟨different, earlier⟩
    · subst same itself
      exact (correlated.recorded place call present).waits itsId named member
        itsCommand
    · refine (correlated.recorded place element earlier).update_other _ ?_
      intro elementId
      rw [← named] at elementId
      exact different
        (correlated.distinct place index element call correlationId earlier
          present elementId itsId)
  · refine correlated.distinct_set ?_
    intro other otherId place element placed elementId
    cases otherId
    exact correlated.distinct place index element call correlationId placed
      present elementId itsId

/-- A call gets its answer, and its command leaves the container. -/
theorem Correlated.answers
    {ledger : Ledger κ V} (correlated : Correlated config ledger)
    (unique : Injective config.generateId)
    {index command : ℕ} {call : SendCall κ V} {correlationId : κ}
    {isSettled : Bool} {object : Command V} {result : SendResult V}
    (present : ledger.calls[index]? = some call)
    (waiting : call.phase = .waiting correlationId command isSettled)
    (itsCommand : ledger.commandManager.commands[command]? = some object)
    (settled : CommandSender.statusResult object.status = some result) :
    Correlated config
      { ledger with
        commandManager := ledger.commandManager.delete correlationId
        calls := ledger.settleCall index call result } := by
  have record := correlated.recorded index call present
  have named := (record.waiting _ _ _ waiting).1
  have itsId : call.phase.correlationId? = some correlationId := by
    rw [waiting]
    rfl
  refine ⟨?_, correlated.disposed, ?_, ?_⟩
  · rw [named]
    refine correlated.wellFormed.delete unique ?_
    intro other found ready
    have same : other = object := Option.some.inj (found.symm.trans itsCommand)
    subst same
    rw [ready] at settled
    cases settled
  · intro place element placed
    rcases set_cases placed with ⟨_, itself⟩ | ⟨other, earlier⟩
    · rw [itself]
      exact .of_settled rfl rfl
    · refine (correlated.recorded place element earlier).transfer ?_
        (fun _ _ _ other _ known => ⟨other, known, rfl⟩)
      intro otherId otherCommand elementId member
      refine List.mem_filter.mpr ⟨member, ?_⟩
      have different : otherId ≠ correlationId := by
        intro equal
        subst equal
        exact other
          (correlated.distinct place index element call otherId earlier present
            elementId itsId)
      simpa using different
  · refine correlated.distinct_set ?_
    intro other otherId
    cases otherId

theorem Correlated.moves
    {ledger next : Ledger κ V} {records : List (κ × Outcome V)} {abandoned : Bool}
    (unique : Injective config.generateId)
    (correlated : Correlated config ledger)
    (moved : Moves config ledger records abandoned next) :
    Correlated config next := by
  cases moved with
  | stays => exact correlated
  | begins commandName args run =>
      have atPlace :
          ∀ (place : ℕ) (element : SendCall κ V),
            (ledger.calls ++ [⟨commandName, args, .initializing run, none⟩])[place]? =
                some element →
              ledger.calls[place]? = some element ∨
                element.phase.correlationId? = none ∧ element.timer = none := by
        exact forall_concat _ (fun _ _ earlier => Or.inl earlier)
          (Or.inr ⟨rfl, rfl⟩)
      refine ⟨correlated.wellFormed, correlated.disposed, ?_, ?_⟩
      · intro index call present
        rcases atPlace index call present with earlier | ⟨settled, idle⟩
        · exact correlated.recorded index call earlier
        · exact .of_settled settled idle
      · intro first second call other correlationId atFirst atSecond itsId otherId
        rcases atPlace first call atFirst with here | ⟨absent, _⟩
        · rcases atPlace second other atSecond with there | ⟨absent, _⟩
          · exact correlated.distinct first second call other correlationId here
              there itsId otherId
          · rw [absent] at otherId
            cases otherId
        · rw [absent] at itsId
          cases itsId
  | givesUp present initializing reason =>
      exact correlated.replaceCall present rfl (Or.inl rfl)
  | unserialized present initializing active =>
      exact (correlated.create unique active _ _ _).replaceCall present rfl
        (Or.inl rfl)
  | sends present initializing active => exact correlated.sends unique active
  | abandons present sending reason =>
      exact correlated.replaceCall present rfl (Or.inl rfl)
  | misses present sending absent =>
      exact correlated.replaceCall present rfl (Or.inl rfl)
  | waits present sending found => exact correlated.waits present sending found
  | answers present waiting itsCommand settled =>
      exact correlated.answers unique present waiting itsCommand settled
  | timesOut present running =>
      exact (correlated.settleOne unique _ _).replaceCall present rfl (Or.inr rfl)
  | records correlationId outcome => exact correlated.settleOne unique _ _
  | cancels => exact correlated.failAllWithCode _

/-! ## Outcomes reach their own commands -/

theorem outcomesFor_singleton
    (correlationId other : κ) (outcome : Outcome V) :
    outcomesFor correlationId [(other, outcome)] =
      if other = correlationId then [outcome] else [] := by
  unfold outcomesFor
  by_cases same : other = correlationId
  · simp [same]
  · simp [same]

theorem outcomesFor_append
    (correlationId : κ) (earlier later : List (κ × Outcome V)) :
    outcomesFor correlationId (earlier ++ later) =
      outcomesFor correlationId earlier ++ outcomesFor correlationId later := by
  unfold outcomesFor
  rw [List.filter_append, List.map_append]

theorem mem_outcomesFor_failures
    {manager : CommandManager κ V} {code : ErrorCode} {correlationId : κ}
    {outcome : Outcome V}
    (member : outcome ∈ outcomesFor correlationId (manager.failures code)) :
    outcome = .failedWithCode code := by
  unfold outcomesFor CommandManager.failures at member
  obtain ⟨entry, filtered, rfl⟩ := List.mem_map.mp member
  obtain ⟨held, _, rfl⟩ := List.mem_map.mp (List.mem_of_mem_filter filtered)
  rfl

theorem outcomesFor_failures_ne_nil
    {manager : CommandManager κ V} (code : ErrorCode) {correlationId : κ}
    {command : ℕ} (member : (correlationId, command) ∈ manager.container) :
    outcomesFor correlationId (manager.failures code) ≠ [] := by
  refine List.ne_nil_of_mem (a := .failedWithCode code) ?_
  unfold outcomesFor CommandManager.failures
  refine List.mem_map.mpr ⟨(correlationId, .failedWithCode code), ?_, rfl⟩
  refine List.mem_filter.mpr ⟨List.mem_map.mpr ⟨_, member, rfl⟩, ?_⟩
  exact decide_eq_true rfl

/-- The disposal records its outcome for every command that is ready. -/
theorem Correlated.settleAll_failures
    {ledger : Ledger κ V} (correlated : Correlated config ledger)
    {index : ℕ} {object : Command V} (code : ErrorCode)
    (present : ledger.commandManager.commands[index]? = some object) :
    object.settleAll
        (outcomesFor (config.generateId index)
          (ledger.commandManager.failures code)) =
      if ledger.commandManager.container.any fun entry => entry.2 = index then
        object.settle ((Outcome.failedWithCode code).status object)
      else
        object := by
  by_cases ready : object.status = .ready
  · have member := correlated.wellFormed.ready index object present ready
    have held :
        (ledger.commandManager.container.any fun entry => entry.2 = index) =
          true :=
      List.any_eq_true.mpr ⟨_, member, decide_eq_true rfl⟩
    rw [held, if_pos rfl]
    cases recorded :
        outcomesFor (config.generateId index)
          (ledger.commandManager.failures code) with
    | nil => exact absurd recorded (outcomesFor_failures_ne_nil code member)
    | cons first later =>
        have same : first = .failedWithCode code :=
          mem_outcomesFor_failures (recorded ▸ List.mem_cons_self)
        rw [Command.settleAll_of_ready ready, same, Command.settle_of_ready ready]
  · rw [Command.settleAll_of_settled ready, Command.settle_of_settled ready,
      ite_self]

/-- A step settles each command with the outcomes recorded for its own id. -/
theorem Moves.commands
    {ledger next : Ledger κ V} {records : List (κ × Outcome V)} {abandoned : Bool}
    (moved : Moves config ledger records abandoned next)
    (unique : Injective config.generateId)
    (correlated : Correlated config ledger)
    {index : ℕ} {object : Command V}
    (present : ledger.commandManager.commands[index]? = some object) :
    ∃ waiter,
      next.commandManager.commands[index]? =
        some
          { object.settleAll
              (outcomesFor (config.generateId index) records) with
            waiter := waiter } := by
  have unchanged :
      ∃ waiter,
        ledger.commandManager.commands[index]? =
          some { object with waiter := waiter } :=
    ⟨object.waiter, present⟩
  have created (call : SendCall κ V) :
      ∃ waiter,
        (ledger.commandManager.create config.generateId config.queue
            call.commandName call.args).1.commands[index]? =
          some { object with waiter := waiter } := by
    have inRange := (List.getElem?_eq_some_iff.mp present).1
    refine ⟨object.waiter, ?_⟩
    rw [CommandManager.create_fst config.generateId ledger.commandManager _ _ _
      (correlated.wellFormed.unused unique)]
    dsimp only
    rw [List.getElem?_append_left inRange]
    exact present
  have settledOne (correlationId : κ) (outcome : Outcome V) :
      ∃ waiter,
        (ledger.commandManager.settleOne correlationId outcome).commands[index]? =
          some
            { object.settleAll
                (outcomesFor (config.generateId index)
                  [(correlationId, outcome)]) with
              waiter := waiter } := by
    refine ⟨object.waiter, ?_⟩
    rw [correlated.wellFormed.settleOne_commands unique, present,
      outcomesFor_singleton, Option.map_some]
    by_cases own : correlationId = config.generateId index
    · rw [if_pos own, if_pos own, Command.settleAll_cons, Command.settleAll_nil,
        ← Command.settle_waiter object]
    · rw [if_neg own, if_neg own, Command.settleAll_nil]
  cases moved with
  | stays => exact unchanged
  | begins => exact unchanged
  | givesUp => exact unchanged
  | abandons => exact unchanged
  | misses => exact unchanged
  | answers => exact unchanged
  | unserialized => exact created _
  | sends => exact created _
  | @waits place command call correlationId found sending known =>
      rw [CommandManager.update_commands, present, Option.map_some]
      by_cases own : index = command
      · obtain ⟨waiter, waited⟩ := object.wait_eq place
        exact ⟨waiter, by rw [if_pos own, waited]; rfl⟩
      · exact ⟨object.waiter, by rw [if_neg own]; rfl⟩
  | timesOut => exact settledOne _ _
  | records correlationId outcome => exact settledOne correlationId outcome
  | cancels =>
      refine ⟨object.waiter, ?_⟩
      rw [CommandManager.failAllWithCode_commands, present, Option.map_some,
        correlated.settleAll_failures _ present]
      split
      · rw [← Command.settle_waiter object]
      · rfl

end Ledger

end Amq.Rpc
