import Amq.Broker.NamedQueues
import Amq.Jobs.JobRetryQueueProvider
import Amq.Jobs.JobSystem
import Amq.Transition.Monitor

/-!
# Job queues at one broker

Any number of job queues with their clients and servers share a broker.  Clients
publish to direct exchanges under the name of a job queue, and a retry is sent to
`<queue>:retry:<delay>`, whose dead letters go back to the exchange of the server
under the name of its queue.

Only the names keep the queues apart, so no job queue may be called like a retry
queue of a server.
-/

namespace Amq.Jobs

open Function Amq.Transition Amq.Broker

/-- The text of a number of milliseconds; no such text has a colon. -/
abbrev DelayText : Type :=
  { text : String // ':' ∉ text.toList }

/-- The name in `JobRetryQueueProvider.create`. -/
def retryQueueName (queue : String) (delay : DelayText) : String :=
  queue ++ ":retry:" ++ delay.val

/-- What two lists have in front of their last separator, if they are equal. -/
theorem append_separator_inj
    {α : Type} {separator : α} {front front' rest rest' : List α}
    (plain : separator ∉ rest) (plain' : separator ∉ rest')
    (same : front ++ separator :: rest = front' ++ separator :: rest') :
    front = front' ∧ rest = rest' := by
  rcases List.append_eq_append_iff.mp same with
    ⟨between, rfl, split⟩ | ⟨between, rfl, split⟩
  · cases between with
    | nil =>
        simp only [List.nil_append, List.cons.injEq, true_and] at split
        exact ⟨by simp, split⟩
    | cons first others =>
        rw [List.cons_append, List.cons.injEq] at split
        exact absurd (split.2 ▸ by simp) plain
  · cases between with
    | nil =>
        simp only [List.nil_append, List.cons.injEq, true_and] at split
        exact ⟨by simp, split.symm⟩
    | cons first others =>
        rw [List.cons_append, List.cons.injEq] at split
        exact absurd (split.2 ▸ by simp) plain'

theorem retryQueueName_toList (queue : String) (delay : DelayText) :
    (retryQueueName queue delay).toList =
      (queue.toList ++ ":retry".toList) ++ ':' :: delay.val.toList := by
  have split : (":retry:" : String).toList = ":retry".toList ++ [':'] := rfl
  simp only [retryQueueName, String.toList_append, split, List.append_assoc,
    List.cons_append, List.nil_append]

theorem retryQueueName_inj
    {queue queue' : String} {delay delay' : DelayText}
    (same : retryQueueName queue delay = retryQueueName queue' delay') :
    queue = queue' := by
  have characters := congrArg String.toList same
  rw [retryQueueName_toList, retryQueueName_toList] at characters
  obtain ⟨sameFront, _⟩ :=
    append_separator_inj delay.property delay'.property characters
  exact String.toList_inj.mp (List.append_cancel_right sameFront)

/-- A name without colons is not the name of a retry queue. -/
theorem ne_retryQueueName
    {name : String} (plain : ':' ∉ name.toList) (queue : String)
    (delay : DelayText) :
    name ≠ retryQueueName queue delay := by
  intro same
  apply plain
  rw [same, retryQueueName_toList]
  simp

structure JobNetworkConfig (ι Buffer V : Type) where
  exchange : ι → String
  queue : ι → String
  server : ι → JobServerConfig Buffer V
  /-- No server has a job queue that is called like a retry queue. -/
  apart :
    ∀ server other delay, queue server ≠ retryQueueName (queue other) delay

structure JobNetwork (ι κ Buffer V : Type) where
  servers : ι → JobServer κ Buffer V
  broker :
    NamedQueues String String String (ι × DeliveryTag) (Message κ Buffer)
  /-- The messages of clients with the queues they are for, the latest first. -/
  enqueued : List (String × Message κ Buffer)
  /-- Those of them that were published with `expireMs`. -/
  expiring : List (String × Message κ Buffer)
  /-- The messages that have expired in job queues, the latest first. -/
  expired : List (String × Message κ Buffer)
  accepted : List (AcceptedRetry ι κ Buffer)

inductive JobNetworkEvent (ι κ Buffer V : Type) where
  /-- `assertQueue` of some `JobQueueInitializer`. -/
  | queueAsserted (queue : String)
  /-- Its `bindQueue`. -/
  | queueBound (exchange queue : String)
  /-- A client whose initializer is through publishes. -/
  | enqueued (exchange queue : String) (message : Message κ Buffer)
      (expires : Bool)
  /-- The message has waited in the job queue for `expireMs`. -/
  | jobExpired (queue : String) (message : Message κ Buffer)
  | delivered (server : ι) (message : Message κ Buffer) (tag : DeliveryTag)
  /-- `assertQueue` of a `JobRetryQueueProvider`. -/
  | retryQueueAsserted (server : ι) (delay : DelayText)
  | retryAccepted (retry : AcceptedRetry ι κ Buffer) (delay : DelayText)
  | retryDeadLettered (queue : String) (message : Message κ Buffer)
  /-- The message vanishes with its retry queue. -/
  | retryLost (queue : String) (message : Message κ Buffer)
  | retryQueueExpired (queue : String)
  | acknowledgementArrived (server : ι) (arrived : DeliveryTag)
  | channelClosed (server : ι) (channel : ℕ)
  /-- Anything else that happens to a server. -/
  | served (server : ι) (event : JobServerEvent κ Buffer V)

namespace JobNetwork

variable {ι κ Buffer V : Type}
variable [DecidableEq ι] [DecidableEq κ] [DecidableEq Buffer] [DecidableEq V]

def create (config : JobNetworkConfig ι Buffer V) : JobNetwork ι κ Buffer V where
  servers server := .create (config.server server)
  broker := .empty
  enqueued := []
  expiring := []
  expired := []
  accepted := []

/-- The servers as one system, with nothing known of the queues. -/
def serverSystem (network : JobNetwork ι κ Buffer V) : JobSystem ι κ Buffer V where
  servers := network.servers
  queue := .empty
  enqueued := []
  expiring := []
  expired := []
  accepted := network.accepted

/-- The broker takes an event. -/
def stepBroker
    (network : JobNetwork ι κ Buffer V)
    (event :
      NamedQueuesEvent String String String (ι × DeliveryTag)
        (Message κ Buffer)) :
    Option (JobNetwork ι κ Buffer V) :=
  (network.broker.step event).map fun next => { network with broker := next }

/-- The server takes an event. -/
def serve
    (config : JobNetworkConfig ι Buffer V) (network : JobNetwork ι κ Buffer V)
    (server : ι) (event : JobServerEvent κ Buffer V) :
    Option (JobNetwork ι κ Buffer V) :=
  ((network.servers server).step (config.server server) event).map fun next =>
    { network with servers := update network.servers server next }

/-- The queue was declared by a `JobRetryQueueProvider`. -/
def isRetryQueue (network : JobNetwork ι κ Buffer V) (queue : String) : Bool :=
  match network.broker.declared queue with
  | some (some _) => true
  | _ => false

omit [DecidableEq ι] [DecidableEq κ] [DecidableEq Buffer] [DecidableEq V] in
theorem isRetryQueue_iff
    {network : JobNetwork ι κ Buffer V} {queue : String} :
    network.isRetryQueue queue = true ↔
      ∃ address, network.broker.declared queue = some (some address) := by
  unfold isRetryQueue
  split
  · rename_i address declared
    exact iff_of_true rfl ⟨address, declared⟩
  · rename_i other
    refine iff_of_false (by simp) ?_
    rintro ⟨address, declared⟩
    exact other address declared

def step
    (config : JobNetworkConfig ι Buffer V) (network : JobNetwork ι κ Buffer V) :
    JobNetworkEvent ι κ Buffer V → Option (JobNetwork ι κ Buffer V)
  | .queueAsserted queue => network.stepBroker (.declare queue none)
  | .queueBound exchange queue =>
      if network.broker.declared queue = some none then
        network.stepBroker (.bind ⟨queue, exchange, queue⟩)
      else
        none
  | .enqueued exchange queue message expires =>
      if ⟨queue, exchange, queue⟩ ∈ network.broker.bindings then
        { network with
          enqueued := (queue, message) :: network.enqueued
          expiring :=
            if expires then
              (queue, message) :: network.expiring
            else
              network.expiring
        }.stepBroker (.publish exchange queue message)
      else
        none
  | .jobExpired queue message =>
      -- A queue with an address for dead letters would publish the message there.
      if network.broker.declared queue = some none ∧
          network.expiring.contains (queue, message) then
        { network with
          expired := (queue, message) :: network.expired
        }.stepBroker (.lose queue message)
      else
        none
  | .delivered server message tag =>
      (network.serve config server (.messagePublished message)).bind fun known =>
        (known.serve config server (.jobMessage message tag)).bind fun handled =>
          handled.stepBroker
            (.deliver (server, tag) (config.queue server) message)
  | .retryQueueAsserted server delay =>
      network.stepBroker
        (.declare (retryQueueName (config.queue server) delay)
          (some ⟨config.exchange server, config.queue server⟩))
  | .retryAccepted retry delay =>
      if network.serverSystem.hasSent config.server retry then
        { network with accepted := retry :: network.accepted }.stepBroker
          (.send (retryQueueName (config.queue retry.server) delay)
            retry.message)
      else
        none
  | .retryDeadLettered queue message =>
      network.stepBroker (.deadLetter queue message)
  | .retryLost queue message =>
      if network.isRetryQueue queue then
        network.stepBroker (.lose queue message)
      else
        none
  | .retryQueueExpired queue =>
      if network.isRetryQueue queue then
        network.stepBroker (.delete queue)
      else
        none
  | .acknowledgementArrived server arrived =>
      if
        (network.servers server).acknowledged.any fun tag =>
          tag.deliveryTag = arrived.deliveryTag
      then
        match network.stepBroker (.settle (server, arrived)) with
        | some next => some next
        -- An unknown delivery tag is a channel exception.
        | none =>
            network.stepBroker
              (.requeue (JobSystem.deliveredOn server arrived.channel))
      else
        none
  | .channelClosed server channel =>
      network.stepBroker (.requeue (JobSystem.deliveredOn server channel))
  | .served server event =>
      if network.serverSystem.isPossible server event then
        network.serve config server event
      else
        none

def machine (config : JobNetworkConfig ι Buffer V) :
    Machine (JobNetwork ι κ Buffer V) (JobNetworkEvent ι κ Buffer V) where
  initial := create config
  step := step config

/-- No client uses a job queue that is called like a retry queue. -/
def NamedApart (config : JobNetworkConfig ι Buffer V) :
    JobNetworkEvent ι κ Buffer V → Prop
  | .queueAsserted queue =>
      ∀ server delay, queue ≠ retryQueueName (config.queue server) delay
  | _ => True

/-- No retry is lost: its retry queue exists until it is dead-lettered, and its
job queue is bound then.  An acknowledgement arrives on the channel of its
delivery. -/
def Orderly
    (config : JobNetworkConfig ι Buffer V) (network : JobNetwork ι κ Buffer V) :
    JobNetworkEvent ι κ Buffer V → Prop
  | .retryAccepted retry delay =>
      network.isRetryQueue (retryQueueName (config.queue retry.server) delay) =
        true
  | .retryDeadLettered queue _ =>
      ∀ address, network.broker.declared queue = some (some address) →
        ⟨address.key, address.exchange, address.key⟩ ∈ network.broker.bindings
  | .retryLost _ _ => False
  | .acknowledgementArrived server arrived =>
      arrived ∈ (network.servers server).acknowledged
  | _ => True

instance decidableOrderly
    (config : JobNetworkConfig ι Buffer V) (network : JobNetwork ι κ Buffer V) :
    ∀ event, Decidable (Orderly config network event)
  | .retryAccepted retry delay =>
      inferInstanceAs <| Decidable
        (network.isRetryQueue
          (retryQueueName (config.queue retry.server) delay) = true)
  | .retryDeadLettered queue message =>
      match declared : network.broker.declared queue with
      | some (some address) =>
          decidable_of_iff
            (⟨address.key, address.exchange, address.key⟩ ∈
              network.broker.bindings)
            ⟨fun bound other same => by
                cases declared.symm.trans same
                exact bound,
              fun orderly => orderly address declared⟩
      | some none => isTrue fun other same => by cases declared.symm.trans same
      | none => isTrue fun other same => by cases declared.symm.trans same
  | .retryLost _ _ => isFalse id
  | .acknowledgementArrived server arrived =>
      inferInstanceAs <| Decidable
        (arrived ∈ (network.servers server).acknowledged)
  | .queueAsserted _ => isTrue trivial
  | .queueBound _ _ => isTrue trivial
  | .enqueued _ _ _ _ => isTrue trivial
  | .jobExpired _ _ => isTrue trivial
  | .delivered _ _ _ => isTrue trivial
  | .retryQueueAsserted _ _ => isTrue trivial
  | .retryQueueExpired _ => isTrue trivial
  | .channelClosed _ _ => isTrue trivial
  | .served _ _ => isTrue trivial

end JobNetwork

end Amq.Jobs
