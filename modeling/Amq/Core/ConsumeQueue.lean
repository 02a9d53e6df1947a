import Amq.Transition.Machine

/-!
# Consumer callbacks

amqplib calls the callback of a consumer with a message, or with null when the
broker cancels the consumer.  `AmqpConnection.consumeQueue` puts an adapter
between amqplib and its handler, and the three consumers of the library pass it
handlers that test their argument for null.
-/

namespace Amq.Core

open Amq.Transition

/-- A message as amqplib hands it to a callback. -/
structure AmqplibMessage (Buffer Headers : Type) where
  content : Buffer
  deliveryTag : ℕ
  correlationId : Option String
  replyTo : Option String
  headers : Headers
  deriving DecidableEq, Repr

/-- What the adapter passes on; each field is read with `?.`, so that it is
undefined when there is no message. -/
structure ConsumedMessage (Buffer Headers : Type) where
  content : Option Buffer
  correlationId : Option String
  deliveryTag : Option ℕ
  replyQueue : Option String
  headers : Option Headers
  deriving DecidableEq, Repr

/-- The options of a `channel.consume`. -/
structure ConsumeOptions where
  queue : String
  noAck : Bool
  deriving DecidableEq, Repr

/-- What a handler does when it is called. -/
inductive ConsumerAction (Buffer Headers : Type) where
  /-- `consume()` of the same consumer. -/
  | consume (options : ConsumeOptions)
  /-- `emit('message', message)`. -/
  | message (message : ConsumedMessage Buffer Headers)
  deriving DecidableEq, Repr

/-- The consumers that use `consumeQueue`. -/
inductive QueueConsumerKind where
  | jobQueueConsumer
  | commandQueueConsumer
  | replyQueueConsumer
  deriving DecidableEq, Repr

/-- A consumer, with what it did for each call of its callback. -/
structure QueueConsumer (Buffer Headers : Type) where
  kind : QueueConsumerKind
  queue : String
  isDisposed : Bool
  /-- The callbacks and what was done for each, the first one first; those that
  come after `dispose` are dropped. -/
  answers :
    List (Option (AmqplibMessage Buffer Headers) ×
      List (ConsumerAction Buffer Headers))
  deriving DecidableEq, Repr

inductive ConsumerEvent (Buffer Headers : Type) where
  /-- amqplib calls the callback. -/
  | callback (message : Option (AmqplibMessage Buffer Headers))
  | dispose
  deriving DecidableEq, Repr

variable {Buffer Headers : Type}

/-- `channel.consume` as `consumeQueue` calls it. -/
def consumeOptions (queue : String) (requiresAcknowledgement : Bool) :
    ConsumeOptions where
  queue := queue
  noAck := !requiresAcknowledgement

/-- The argument that the adapter builds for the handler of `consumeQueue`. -/
def consumedMessage (message : Option (AmqplibMessage Buffer Headers)) :
    ConsumedMessage Buffer Headers where
  content := message.map AmqplibMessage.content
  correlationId := message.bind AmqplibMessage.correlationId
  deliveryTag := message.map AmqplibMessage.deliveryTag
  replyQueue := message.bind AmqplibMessage.replyTo
  headers := message.map AmqplibMessage.headers

/-- The callback that `consumeQueue` gives to `channel.consume`: the handler is
called with an object in every case. -/
def consumeQueueCallback {α : Type}
    (handler : Option (ConsumedMessage Buffer Headers) → α)
    (message : Option (AmqplibMessage Buffer Headers)) : α :=
  handler (some (consumedMessage message))

namespace QueueConsumer

/-- The body that the three handlers share; `none` is an argument for which
`!message` holds. -/
def handleQueueMessage
    (consumer : QueueConsumer Buffer Headers)
    (message : Option (ConsumedMessage Buffer Headers)) :
    List (ConsumerAction Buffer Headers) :=
  if consumer.isDisposed then
    []
  else
    match message with
    | none => [.consume (consumeOptions consumer.queue true)]
    | some message => [.message message]

end QueueConsumer

/-- `JobQueueConsumer.handleJobQueueMessage`. -/
def JobQueueConsumer.handleJobQueueMessage
    (consumer : QueueConsumer Buffer Headers) :
    Option (ConsumedMessage Buffer Headers) →
      List (ConsumerAction Buffer Headers) :=
  consumer.handleQueueMessage

/-- `CommandQueueConsumer.handleCommandQueueMessage`. -/
def CommandQueueConsumer.handleCommandQueueMessage
    (consumer : QueueConsumer Buffer Headers) :
    Option (ConsumedMessage Buffer Headers) →
      List (ConsumerAction Buffer Headers) :=
  consumer.handleQueueMessage

/-- `ReplyQueueConsumer.handleReplyQueueMessage`. -/
def ReplyQueueConsumer.handleReplyQueueMessage
    (consumer : QueueConsumer Buffer Headers) :
    Option (ConsumedMessage Buffer Headers) →
      List (ConsumerAction Buffer Headers) :=
  consumer.handleQueueMessage

namespace QueueConsumer

def create (kind : QueueConsumerKind) (queue : String) :
    QueueConsumer Buffer Headers where
  kind := kind
  queue := queue
  isDisposed := false
  answers := []

/-- The handler that the consumer passes to `consumeQueue`. -/
def handler (consumer : QueueConsumer Buffer Headers) :
    Option (ConsumedMessage Buffer Headers) →
      List (ConsumerAction Buffer Headers) :=
  match consumer.kind with
  | .jobQueueConsumer => JobQueueConsumer.handleJobQueueMessage consumer
  | .commandQueueConsumer =>
      CommandQueueConsumer.handleCommandQueueMessage consumer
  | .replyQueueConsumer => ReplyQueueConsumer.handleReplyQueueMessage consumer

/-- amqplib calls the callback that was registered by `consume`. -/
def callback
    (consumer : QueueConsumer Buffer Headers)
    (message : Option (AmqplibMessage Buffer Headers)) :
    QueueConsumer Buffer Headers :=
  { consumer with
    answers :=
      if consumer.isDisposed then consumer.answers
      else
        consumer.answers ++
          [(message, consumeQueueCallback consumer.handler message)] }

def step (consumer : QueueConsumer Buffer Headers) :
    ConsumerEvent Buffer Headers → Option (QueueConsumer Buffer Headers)
  | .callback message => some (consumer.callback message)
  | .dispose => some { consumer with isDisposed := true }

def machine (kind : QueueConsumerKind) (queue : String) :
    Machine (QueueConsumer Buffer Headers) (ConsumerEvent Buffer Headers) where
  initial := create kind queue
  step := step

/-- What the comments in the three handlers say: a null leads to a new
`consume()`, a message is emitted. -/
def properAnswer (queue : String) :
    Option (AmqplibMessage Buffer Headers) →
      List (ConsumerAction Buffer Headers)
  | none => [.consume (consumeOptions queue true)]
  | some message => [.message (consumedMessage (some message))]

/-- Each callback that came before `dispose` had its proper answer. -/
def Answered (consumer : QueueConsumer Buffer Headers) : Prop :=
  ∀ answer ∈ consumer.answers, answer.2 = properAnswer consumer.queue answer.1

/-- The event is not a null for a consumer that has not been disposed of. -/
def CancelsNothing (consumer : QueueConsumer Buffer Headers)
    (event : ConsumerEvent Buffer Headers) : Prop :=
  event = .callback none → consumer.isDisposed = true

/-! ## What the handlers do with the adapter's argument -/

/-- All three consumers have the same handler. -/
theorem handler_eq (consumer : QueueConsumer Buffer Headers) :
    consumer.handler = consumer.handleQueueMessage := by
  unfold handler
  cases consumer.kind with
  | jobQueueConsumer => rfl
  | commandQueueConsumer => rfl
  | replyQueueConsumer => rfl

/-- The null check of a handler is never met: every callback is taken for a
message. -/
theorem callback_emits
    {consumer : QueueConsumer Buffer Headers}
    (active : consumer.isDisposed = false)
    (message : Option (AmqplibMessage Buffer Headers)) :
    consumeQueueCallback consumer.handler message =
      [.message (consumedMessage message)] := by
  have same := handler_eq consumer
  unfold consumeQueueCallback
  rw [same]
  unfold handleQueueMessage
  rw [active]
  rfl

theorem emits_proper_iff
    (queue : String) (message : Option (AmqplibMessage Buffer Headers)) :
    [.message (consumedMessage message)] = properAnswer queue message ↔
      message ≠ none := by
  cases message with
  | none => simp [properAnswer]
  | some message => simp [properAnswer]

/-! ## Whole sequences of callbacks -/

theorem answered_callback_iff
    {consumer : QueueConsumer Buffer Headers}
    (answered : consumer.Answered)
    (message : Option (AmqplibMessage Buffer Headers)) :
    (consumer.callback message).Answered ↔
      consumer.CancelsNothing (.callback message) := by
  by_cases disposed : consumer.isDisposed = true
  · refine iff_of_true ?_ fun _ => disposed
    intro answer member
    unfold callback at member
    rw [disposed] at member
    exact answered answer member
  · have active : consumer.isDisposed = false := Bool.not_eq_true _ ▸ disposed
    have emits := callback_emits active message
    have answers :
        (consumer.callback message).answers =
          consumer.answers ++ [(message, [.message (consumedMessage message)])] := by
      unfold callback
      rw [active, emits]
      rfl
    have decided :
        (consumer.callback message).Answered ↔
          [.message (consumedMessage message)] =
            properAnswer consumer.queue message := by
      unfold Answered
      rw [answers, List.forall_mem_append, List.forall_mem_singleton]
      exact and_iff_right answered
    rw [decided, emits_proper_iff]
    constructor
    · intro proper cancels
      exact absurd (ConsumerEvent.callback.inj cancels) proper
    · intro nothing cancels
      exact disposed (nothing (congrArg _ cancels))

/-- A run of a consumer answers all callbacks properly exactly when none of them
is a null. -/
theorem answered_iff
    (kind : QueueConsumerKind) (queue : String)
    (schedule : List (ConsumerEvent Buffer Headers))
    (final : QueueConsumer Buffer Headers)
    (execution :
      (machine kind queue).run (create kind queue) schedule = some final) :
    final.Answered ↔
      (machine kind queue).Throughout CancelsNothing (create kind queue)
        schedule := by
  have preserved :
      (machine kind queue).Preserved
        (fun _ : QueueConsumer Buffer Headers => True) :=
    fun _ _ _ _ _ => trivial
  refine Machine.sound_iff_throughout Answered CancelsNothing preserved ?_ ?_
    trivial nofun execution
  · intro consumer event next _ stepped answered
    cases event with
    | dispose =>
        cases stepped
        exact answered
    | callback message =>
        cases stepped
        intro answer member
        refine answered answer ?_
        unfold callback
        dsimp only
        split
        · exact member
        · exact List.mem_append_left _ member
  · intro consumer event next _ answered stepped
    cases event with
    | dispose =>
        cases stepped
        exact iff_of_true answered nofun
    | callback message =>
        cases stepped
        exact answered_callback_iff answered message

/-- The broker delivers a message and then cancels the consumer. -/
def cancelledByBroker : List (ConsumerEvent String String) :=
  [.callback (some ⟨"job", 1, some "correlation", none, "headers"⟩),
    .callback none]

/-- Without a null, the messages are answered properly, and nothing is after
`dispose`. -/
theorem answered_iff_messages :
    ∃ final : QueueConsumer String String,
      (machine .replyQueueConsumer "replies").run
          (create .replyQueueConsumer "replies")
          [.callback (some ⟨"reply", 1, some "correlation", none, "headers"⟩),
            .dispose, .callback none] = some final ∧
        final.Answered := by
  refine ⟨_, rfl, ?_⟩
  refine
    (answered_iff .replyQueueConsumer "replies"
      [.callback (some ⟨"reply", 1, some "correlation", none, "headers"⟩),
        .dispose, .callback none] _ rfl).mpr ?_
  exact Machine.throughout_cons nofun rfl
    (Machine.throughout_cons nofun rfl
      (Machine.throughout_cons (fun _ => rfl) rfl trivial))

/-- A null is emitted as a message without content, and the consumer is not
registered again. -/
theorem cancelledByBroker_unanswered :
    ¬ ∀ (kind : QueueConsumerKind) (queue : String)
        (schedule : List (ConsumerEvent String String))
        (final : QueueConsumer String String),
        (machine kind queue).run (create kind queue) schedule = some final →
          final.Answered := by
  intro always
  have answered :=
    always .jobQueueConsumer "queue" cancelledByBroker _ rfl
      (none, [.message ⟨none, none, none, none, none⟩]) (by decide)
  cases answered

end QueueConsumer

end Amq.Core
