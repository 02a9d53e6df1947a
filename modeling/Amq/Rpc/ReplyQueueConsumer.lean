import Amq.JsNumber
import Mathlib.Data.List.Basic

/-!
# The reply queue of a command sender

`consume` asserts the reply queue and then registers a consumer on it.  It is
called by the first command and again after each recovery, so several of its
runs can be under way at once; only the tag that arrived last is remembered.
-/

namespace Amq.Rpc

/-- The commands of the reply queue consumer, with their arguments. -/
inductive ReplyQueueCommand where
  | assertQueue
      (queue : String) (durable exclusive autoDelete : Bool)
      (disuseExpireMs : JsNumber)
  | consumeQueue (queue : String) (requiresAcknowledgement : Bool)
  | cancelConsumption (consumerTag : ℕ)
  deriving DecidableEq

/-- Where a run of `consume` stands. -/
inductive ConsumePhase where
  | assertingQueue
  | consumingQueue
  /-- The rollback of a consumer that was registered after `dispose`. -/
  | cancelling (consumerTag : ℕ)
  /-- The queue has been asserted and the consumer is registered. -/
  | completed
  /-- Returned early, or rolled back, because of `dispose`. -/
  | abandoned
  | failed
  deriving DecidableEq, Repr

inductive ConsumeEvent where
  | queueAsserted (settlement : Settlement)
  | queueConsumed (consumerTag : ℕ)
  | consumeRejected
  | cancelSettled (settlement : Settlement)
  deriving DecidableEq, Repr

structure ReplyQueueConsumer where
  replyQueue : String
  disuseExpireMs : JsNumber
  isDisposed : Bool
  consumerTag : Option ℕ
  runs : List ConsumePhase
  /-- The tags passed to `amqpConnection.cancelConsumption`, the latest first. -/
  cancelledTags : List ℕ
  deriving DecidableEq

namespace ConsumePhase

/-- The promise of the run has resolved. -/
def isResolved : ConsumePhase → Bool
  | .completed => true
  | .abandoned => true
  | _ => false

/-- The command that a run in this phase is waiting for. -/
def command (consumer : ReplyQueueConsumer) :
    ConsumePhase → Option ReplyQueueCommand
  | .assertingQueue =>
      some
        (.assertQueue consumer.replyQueue false false false
          consumer.disuseExpireMs)
  | .consumingQueue => some (.consumeQueue consumer.replyQueue true)
  | .cancelling consumerTag => some (.cancelConsumption consumerTag)
  | _ => none

/-- The next phase of a run.  A rejected cancellation is ignored. -/
def next (isDisposed : Bool) : ConsumePhase → ConsumeEvent → Option ConsumePhase
  | .assertingQueue, .queueAsserted .fulfilled =>
      some (if isDisposed then .abandoned else .consumingQueue)
  | .assertingQueue, .queueAsserted .rejected => some .failed
  | .consumingQueue, .queueConsumed consumerTag =>
      some (if isDisposed then .cancelling consumerTag else .completed)
  | .consumingQueue, .consumeRejected => some .failed
  | .cancelling _, .cancelSettled _ => some .abandoned
  | _, _ => none

end ConsumePhase

namespace ReplyQueueConsumer

def create (replyQueue : String) (disuseExpireMs : JsNumber) :
    ReplyQueueConsumer where
  replyQueue := replyQueue
  disuseExpireMs := disuseExpireMs
  isDisposed := false
  consumerTag := none
  runs := []
  cancelledTags := []

/-- `consume`, up to its first await. -/
def consume (consumer : ReplyQueueConsumer) : ReplyQueueConsumer :=
  { consumer with runs := consumer.runs ++ [.assertingQueue] }

/-- `cancelConsumption`; what it awaits settles without effect. -/
def cancelConsumption (consumer : ReplyQueueConsumer) : ReplyQueueConsumer :=
  match consumer.consumerTag with
  | none => consumer
  | some consumerTag =>
      { consumer with
        consumerTag := none
        cancelledTags := consumerTag :: consumer.cancelledTags }

/-- What `consume` does with the tag that `consumeQueue` returns. -/
def receive (consumer : ReplyQueueConsumer) : ConsumeEvent → ReplyQueueConsumer
  | .queueConsumed consumerTag =>
      let consumer := { consumer with consumerTag := some consumerTag }
      if consumer.isDisposed then consumer.cancelConsumption else consumer
  | _ => consumer

/-- One run moves on. -/
def step (consumer : ReplyQueueConsumer) (run : ℕ) (event : ConsumeEvent) :
    Option ReplyQueueConsumer :=
  match consumer.runs[run]? with
  | none => none
  | some phase =>
      (phase.next consumer.isDisposed event).map fun next =>
        { consumer.receive event with runs := consumer.runs.set run next }

def dispose (consumer : ReplyQueueConsumer) : ReplyQueueConsumer :=
  { consumer with isDisposed := true }.cancelConsumption

@[simp]
theorem cancelConsumption_isDisposed (consumer : ReplyQueueConsumer) :
    consumer.cancelConsumption.isDisposed = consumer.isDisposed := by
  unfold cancelConsumption
  split <;> rfl

@[simp]
theorem cancelConsumption_runs (consumer : ReplyQueueConsumer) :
    consumer.cancelConsumption.runs = consumer.runs := by
  unfold cancelConsumption
  split <;> rfl

@[simp]
theorem receive_isDisposed
    (consumer : ReplyQueueConsumer) (event : ConsumeEvent) :
    (consumer.receive event).isDisposed = consumer.isDisposed := by
  cases event with
  | queueConsumed consumerTag =>
      unfold receive
      dsimp only
      split
      · exact cancelConsumption_isDisposed _
      · rfl
  | _ => rfl

@[simp]
theorem cancelConsumption_replyQueue (consumer : ReplyQueueConsumer) :
    consumer.cancelConsumption.replyQueue = consumer.replyQueue := by
  unfold cancelConsumption
  split <;> rfl

theorem receive_replyQueue
    (consumer : ReplyQueueConsumer) (event : ConsumeEvent) :
    (consumer.receive event).replyQueue = consumer.replyQueue := by
  cases event with
  | queueConsumed consumerTag =>
      unfold receive
      dsimp only
      split
      · exact cancelConsumption_replyQueue _
      · rfl
  | _ => rfl

/-- The name of the queue never changes. -/
theorem step_replyQueue
    {consumer next : ReplyQueueConsumer} {run : ℕ} {event : ConsumeEvent}
    (stepped : consumer.step run event = some next) :
    next.replyQueue = consumer.replyQueue := by
  unfold step at stepped
  split at stepped
  · cases stepped
  · obtain ⟨new, _, rfl⟩ := Option.map_eq_some_iff.mp stepped
    exact receive_replyQueue consumer event

/-- One run has taken a step of `next`, and the others are where they were. -/
theorem step_cases
    {consumer next : ReplyQueueConsumer} {run : ℕ} {event : ConsumeEvent}
    (stepped : consumer.step run event = some next) :
    ∃ old new, consumer.runs[run]? = some old ∧
      old.next consumer.isDisposed event = some new ∧
      next.isDisposed = consumer.isDisposed ∧
      next.runs = consumer.runs.set run new := by
  unfold step at stepped
  split at stepped
  · cases stepped
  · rename_i old present
    obtain ⟨new, moved, rfl⟩ := Option.map_eq_some_iff.mp stepped
    exact ⟨old, new, present, moved, receive_isDisposed consumer event, rfl⟩

end ReplyQueueConsumer

/-! ## What one step of a run can do -/

inductive ConsumePhase.Moves (isDisposed : Bool) :
    ConsumePhase → ConsumeEvent → ConsumePhase → Prop where
  | asserted (active : isDisposed = false) :
      Moves isDisposed .assertingQueue (.queueAsserted .fulfilled) .consumingQueue
  | abandoned (disposed : isDisposed = true) :
      Moves isDisposed .assertingQueue (.queueAsserted .fulfilled) .abandoned
  | assertRejected :
      Moves isDisposed .assertingQueue (.queueAsserted .rejected) .failed
  | completed (consumerTag : ℕ) (active : isDisposed = false) :
      Moves isDisposed .consumingQueue (.queueConsumed consumerTag) .completed
  | rollback (consumerTag : ℕ) (disposed : isDisposed = true) :
      Moves isDisposed .consumingQueue (.queueConsumed consumerTag)
        (.cancelling consumerTag)
  | consumeRejected : Moves isDisposed .consumingQueue .consumeRejected .failed
  | cancelled (consumerTag : ℕ) (settlement : Settlement) :
      Moves isDisposed (.cancelling consumerTag) (.cancelSettled settlement)
        .abandoned

theorem ConsumePhase.moves_of_next
    {isDisposed : Bool} {phase next : ConsumePhase} {event : ConsumeEvent}
    (moved : phase.next isDisposed event = some next) :
    ConsumePhase.Moves isDisposed phase event next := by
  unfold ConsumePhase.next at moved
  split at moved
  · cases isDisposed with
    | true =>
        cases moved
        exact .abandoned rfl
    | false =>
        cases moved
        exact .asserted rfl
  · cases moved
    exact .assertRejected
  · rename_i consumerTag
    cases isDisposed with
    | true =>
        cases moved
        exact .rollback consumerTag rfl
    | false =>
        cases moved
        exact .completed consumerTag rfl
  · cases moved
    exact .consumeRejected
  · rename_i consumerTag settlement
    cases moved
    exact .cancelled consumerTag settlement
  · cases moved

end Amq.Rpc
