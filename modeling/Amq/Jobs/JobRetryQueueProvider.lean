import Amq.Broker.ExpiringQueue
import Amq.StringUtil

/-!
# Retry queues

`Scheduler.retry` declares a retry queue that is named after the delay and then
sends the message with the delay as its time to live.  The two commands take
effect at times of their own: the executors may repeat either across reconnects
until the command timeout.  Calls with equal delays share one queue, so each
call renews the lease of the messages before it.
-/

namespace Amq.Jobs

open Amq.Broker

/-- The arguments of `AmqpConnection.assertQueue` for a retry queue. -/
structure QueueDeclaration where
  queue : String
  durable : Bool
  autoDelete : Bool
  exclusive : Bool
  disuseExpireMs : ℕ
  deadLetterExchange : String
  deadLetterRoutingKey : String
  deriving DecidableEq, Repr

structure JobRetryQueueProvider where
  exchange : String
  queue : String
  disuseExpireMs : ℕ

namespace JobRetryQueueProvider

/-- The constructor, with the default of `disuseExpireMs`. -/
def new
    (exchange queue : String) (disuseExpireMs : Option ℕ) :
    JobRetryQueueProvider where
  exchange := exchange
  queue := queue
  disuseExpireMs := disuseExpireMs.getD 1000

def create (provider : JobRetryQueueProvider) (expireMs : ℕ) :
    QueueDeclaration where
  queue := provider.queue ++ ":retry:" ++ toString expireMs
  durable := true
  autoDelete := false
  exclusive := false
  disuseExpireMs := provider.disuseExpireMs + expireMs
  deadLetterExchange := provider.exchange
  deadLetterRoutingKey := provider.queue

/-- Retry queues are shared by equal delays only. -/
theorem create_queue_inj
    (provider : JobRetryQueueProvider) (first second : ℕ) :
    (provider.create first).queue = (provider.create second).queue ↔
      first = second := by
  constructor
  · intro sameName
    have sameText : toString first = toString second :=
      (String.append_right_inj _).mp sameName
    exact StringUtil.toString_nat_injective (congrArg String.toList sameText)
  · exact fun same => by rw [same]

end JobRetryQueueProvider

/-- When the two commands of one call of `Scheduler.retry` take effect. -/
structure RetryTiming (commandTimeoutMs : ℕ) where
  retryDelayMs : ℕ
  delay_pos : 0 < retryDelayMs
  assertedAt : ℕ
  sentAt : ℕ
  asserted_le_sent : assertedAt ≤ sentAt
  sent_le : sentAt ≤ assertedAt + commandTimeoutMs

namespace JobRetryQueueProvider

variable {commandTimeoutMs : ℕ}

/-- What the queue of the given name receives at each instant: the declarations
and the messages of the calls, which are told apart by their positions. -/
def queueTrace
    (provider : JobRetryQueueProvider)
    (calls : List (RetryTiming commandTimeoutMs)) (name : String) (now : ℕ) :
    Instant ℕ (String × String) where
  declarations :=
    (calls.filter fun call =>
        (provider.create call.retryDelayMs).queue = name ∧
          call.assertedAt = now).map
      fun call =>
        let declaration := provider.create call.retryDelayMs
        (declaration.disuseExpireMs,
          declaration.deadLetterExchange, declaration.deadLetterRoutingKey)
  sends :=
    (calls.zipIdx.filter fun call =>
        (provider.create call.1.retryDelayMs).queue = name ∧
          call.1.sentAt = now).map
      fun call => (call.2, call.1.retryDelayMs)

/-- The message of the call at `index` has been dead-lettered to the job queue
when its delay is over. -/
def DeadLetters
    (provider : JobRetryQueueProvider)
    (calls : List (RetryTiming commandTimeoutMs))
    (index : ℕ) (call : RetryTiming commandTimeoutMs) : Prop :=
  (index, provider.exchange, provider.queue) ∈
    (ExpiringQueue.after
      (provider.queueTrace calls (provider.create call.retryDelayMs).queue)
      (call.sentAt + call.retryDelayMs)).deadLettered

/-- A call with the same delay has declared the queue in the `disuseExpireMs`
before the message is sent, or one has declared it before and another one
renews it afterwards while the first lease lasts. -/
def KeepsLease
    (provider : JobRetryQueueProvider)
    (calls : List (RetryTiming commandTimeoutMs))
    (call : RetryTiming commandTimeoutMs) : Prop :=
  ExpiringQueue.Leased
    (fun time =>
      ∃ other ∈ calls,
        other.retryDelayMs = call.retryDelayMs ∧ other.assertedAt = time)
    provider.disuseExpireMs call.retryDelayMs call.sentAt

theorem mem_declarations_iff
    (provider : JobRetryQueueProvider)
    (calls : List (RetryTiming commandTimeoutMs)) (delay now : ℕ)
    (declaration : ℕ × String × String) :
    declaration ∈
        (provider.queueTrace calls (provider.create delay).queue now).declarations ↔
      (∃ other ∈ calls, other.retryDelayMs = delay ∧ other.assertedAt = now) ∧
        declaration =
          (provider.disuseExpireMs + delay, provider.exchange, provider.queue) := by
  simp only [queueTrace, List.mem_map, List.mem_filter, decide_eq_true_eq,
    create_queue_inj]
  constructor
  · rintro ⟨other, ⟨member, sameDelay, sameTime⟩, rfl⟩
    refine ⟨⟨other, member, sameDelay, sameTime⟩, ?_⟩
    rw [← sameDelay]
    rfl
  · rintro ⟨⟨other, member, sameDelay, sameTime⟩, rfl⟩
    refine ⟨other, ⟨member, sameDelay, sameTime⟩, ?_⟩
    rw [← sameDelay]
    rfl

theorem declaredIn_iff
    (provider : JobRetryQueueProvider)
    (calls : List (RetryTiming commandTimeoutMs)) (delay now : ℕ) :
    ExpiringQueue.DeclaredIn
        (provider.queueTrace calls (provider.create delay).queue) now ↔
      ∃ other ∈ calls, other.retryDelayMs = delay ∧ other.assertedAt = now := by
  unfold ExpiringQueue.DeclaredIn
  constructor
  · intro some
    obtain ⟨declaration, member⟩ := List.exists_mem_of_ne_nil _ some
    exact ((mem_declarations_iff provider calls delay now declaration).mp member).1
  · intro declared
    exact List.ne_nil_of_mem
      ((mem_declarations_iff provider calls delay now _).mpr ⟨declared, rfl⟩)

theorem mem_sends_iff
    (provider : JobRetryQueueProvider)
    (calls : List (RetryTiming commandTimeoutMs)) (delay now index ttl : ℕ) :
    (index, ttl) ∈
        (provider.queueTrace calls (provider.create delay).queue now).sends ↔
      ∃ call, calls[index]? = some call ∧ call.retryDelayMs = delay ∧
        call.sentAt = now ∧ ttl = delay := by
  simp only [queueTrace, List.mem_map, List.mem_filter, decide_eq_true_eq,
    create_queue_inj, Prod.mk.injEq, Prod.exists, List.mem_zipIdx_iff_getElem?]
  constructor
  · rintro ⟨call, position, ⟨present, sameDelay, sameTime⟩, rfl, rfl⟩
    exact ⟨call, present, sameDelay, sameTime, sameDelay⟩
  · rintro ⟨call, present, sameDelay, sameTime, rfl⟩
    exact ⟨call, index, ⟨present, sameDelay, sameTime⟩, rfl, sameDelay⟩

theorem deadLetters_iff
    (provider : JobRetryQueueProvider)
    (calls : List (RetryTiming commandTimeoutMs))
    (index : ℕ) (call : RetryTiming commandTimeoutMs)
    (present : calls[index]? = some call) :
    provider.DeadLetters calls index call ↔ provider.KeepsLease calls call := by
  have positive : 0 < provider.disuseExpireMs + call.retryDelayMs :=
    Nat.lt_of_lt_of_le call.delay_pos (Nat.le_add_left _ _)
  have agree :
      ∀ time, ∀ declaration ∈
        (provider.queueTrace calls (provider.create call.retryDelayMs).queue
          time).declarations,
        declaration =
          (provider.disuseExpireMs + call.retryDelayMs, provider.exchange,
            provider.queue) := by
    intro time declaration member
    exact ((mem_declarations_iff provider calls _ time declaration).mp member).2
  have ttlPositive :
      ∀ time message ttl, (message, ttl) ∈
        (provider.queueTrace calls (provider.create call.retryDelayMs).queue
          time).sends → 0 < ttl := by
    intro time message ttl member
    obtain ⟨_, _, _, _, rfl⟩ := (mem_sends_iff provider calls _ _ _ _).mp member
    exact call.delay_pos
  have sameDeclared :
      ExpiringQueue.DeclaredIn
          (provider.queueTrace calls (provider.create call.retryDelayMs).queue) =
        fun time => ∃ other ∈ calls,
          other.retryDelayMs = call.retryDelayMs ∧ other.assertedAt = time := by
    funext time
    exact propext (declaredIn_iff provider calls call.retryDelayMs time)
  unfold DeadLetters KeepsLease
  rw [ExpiringQueue.mem_deadLettered_iff positive agree ttlPositive,
    ← ExpiringQueue.leased_iff, sameDeclared]
  constructor
  · rintro ⟨sent, ttl, member, _, held⟩
    obtain ⟨other, found, _, sameTime, rfl⟩ :=
      (mem_sends_iff provider calls _ _ _ _).mp member
    have same : call = other := Option.some.inj (present.symm.trans found)
    subst same
    subst sameTime
    exact held
  · intro held
    refine ⟨call.sentAt, call.retryDelayMs, ?_, Nat.le_refl _, held⟩
    exact (mem_sends_iff provider calls _ _ _ _).mpr
      ⟨call, present, rfl, rfl, rfl⟩

/-- No retry is lost with its queue exactly when every call finds the lease of
its queue kept by the calls with the same delay. -/
theorem retries_deadLettered_iff
    (provider : JobRetryQueueProvider)
    (calls : List (RetryTiming commandTimeoutMs)) :
    (∀ index call, calls[index]? = some call →
      provider.DeadLetters calls index call) ↔
      ∀ call ∈ calls, provider.KeepsLease calls call := by
  constructor
  · intro kept call member
    obtain ⟨index, present⟩ := List.mem_iff_getElem?.mp member
    exact (deadLetters_iff provider calls index call present).mp
      (kept index call present)
  · intro leased index call present
    exact (deadLetters_iff provider calls index call present).mpr
      (leased call (List.mem_of_getElem? present))

/-- One retry in a second whose message is sent five seconds after the queue has
been declared, as after a reconnect. -/
def lateRetry : RetryTiming 60000 where
  retryDelayMs := 1000
  delay_pos := by decide
  assertedAt := 0
  sentAt := 5000
  asserted_le_sent := by decide
  sent_le := by decide

theorem lateRetry_lost :
    ¬ ∀ (calls : List (RetryTiming 60000)) (index : ℕ) (call : RetryTiming 60000),
      calls[index]? = some call →
        (new "jobs" "mail" none).DeadLetters calls index call := by
  intro kept
  have leased :=
    (deadLetters_iff (new "jobs" "mail" none) [lateRetry] 0 lateRetry rfl).mp
      (kept [lateRetry] 0 lateRetry rfl)
  rcases leased with
    ⟨time, ⟨other, member, _, declared⟩, before, recent⟩ |
    ⟨time, renewal, _, ⟨other, member, _, renewed⟩, _, later, _⟩
  · rw [List.mem_singleton.mp member] at declared
    subst declared
    exact absurd recent (by decide)
  · rw [List.mem_singleton.mp member] at renewed
    subst renewed
    exact absurd later (by decide)

end JobRetryQueueProvider

end Amq.Jobs
