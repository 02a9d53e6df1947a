import Amq.JsNumber
import Amq.JsSet
import Amq.StringUtil
import Amq.Transition.Machine
import Amq.Transition.Records

/-!
# Publish and subscribe

Calls of `subscribe` and `unsubscribe` on one instance run side by side.  A call
is cut at its awaits, each of which is on a command of the connection, and the
connection lets any command succeed or fail.  The code keeps the `Set` that it
has read across an await, so sets are objects here, which calls refer to.

The consumers that `consumeQueue` has returned are listed beside the state of
the instance.  A consumer tag is never given twice.
-/

namespace Amq

open Amq.Transition
open Function

inductive ExchangeType where
  | fanout
  | direct
  | headers
  | topic
  deriving DecidableEq, Repr

namespace PubSub

/-- The options of `subscribe`, as they are given. -/
structure SubscribeOptions where
  queueName : Option String
  exchangeType : Option ExchangeType
  routingKey : Option String
  singleActiveConsumer : Option Bool
  autoDeleteQueue : Option Bool
  deriving DecidableEq, Repr

/-- A command of the connection with its arguments. -/
inductive Command where
  | assertExchange (exchange : String) (type : ExchangeType)
    (durable autoDelete : Bool)
  | assertQueue (queue : String)
    (durable exclusive autoDelete singleActiveConsumer : Bool)
  | bindQueue (queue exchange : String) (routingKey : Option String)
  | consumeQueue (queue : String)
  | cancelConsumption (consumerTag : String)
  deriving DecidableEq, Repr

/-- Where a call of `subscribe` or `unsubscribe` stands. -/
inductive Call where
  | assertingExchange (topic : String) (options : SubscribeOptions)
  | assertingQueue (topic : String) (options : SubscribeOptions)
    (queueName : String)
  | bindingQueue (topic : String) (options : SubscribeOptions)
    (queueName : String)
  | consuming (topic : String) (options : SubscribeOptions) (queueName : String)
  /-- `unsubscribe` with a consumer tag, and the set that it has read. -/
  | cancelling (topic consumerTag : String) (consumerTags : ℕ)
  /-- `unsubscribe` without a consumer tag, in its loop over the set: it waits
  for this consumer and goes on at the position. -/
  | cancellingAll (topic consumerTag : String) (consumerTags position : ℕ)
  | resolved (consumerTag : Option String)
  | rejected
  deriving DecidableEq, Repr

namespace Call

def inProgress : Call → Bool
  | .resolved _ => false
  | .rejected => false
  | _ => true

/-- The command that the call is waiting for. -/
def command : Call → Option Command
  | .assertingExchange topic options =>
      some
        (.assertExchange topic (options.exchangeType.getD .fanout) true false)
  | .assertingQueue _ options queueName =>
      some
        (.assertQueue queueName true false
          (options.autoDeleteQueue.getD false)
          (options.singleActiveConsumer.getD true))
  | .bindingQueue topic options queueName =>
      some (.bindQueue queueName topic options.routingKey)
  | .consuming _ _ queueName => some (.consumeQueue queueName)
  | .cancelling _ consumerTag _ => some (.cancelConsumption consumerTag)
  | .cancellingAll _ consumerTag _ _ => some (.cancelConsumption consumerTag)
  | .resolved _ => none
  | .rejected => none

end Call

/-- A `Set` of consumer tags, with the topic that it was made for, which no code
reads. -/
structure ConsumerTags where
  topic : String
  tags : JsSet String

/-- A consumer that `consumeQueue` has returned to a call of `subscribe`. -/
structure Consumer where
  call : ℕ
  topic : String
  queue : String
  consumerTag : String
  /-- `cancelConsumption` has succeeded for it. -/
  isCancelled : Bool
  deriving DecidableEq, Repr

end PubSub

structure PubSub where
  topicToConsumerTags : String → Option ℕ
  consumerTagSets : List PubSub.ConsumerTags
  calls : List PubSub.Call
  consumers : List PubSub.Consumer

namespace PubSub

inductive Event where
  | subscribe (topic : String) (options : SubscribeOptions)
  | unsubscribe (topic : String) (consumerTag : Option String)
  /-- The command that the call waits for has settled. -/
  | settled (call : ℕ) (settlement : Settlement)
  /-- `consumeQueue` has returned this tag to the call. -/
  | consumed (call : ℕ) (consumerTag : String)
  deriving DecidableEq

def create : PubSub where
  topicToConsumerTags := fun _ => none
  consumerTagSets := []
  calls := []
  consumers := []

/-- The content of a set. -/
def tagsOf (pubSub : PubSub) (consumerTags : ℕ) : JsSet String :=
  (pubSub.consumerTagSets[consumerTags]?).elim .empty ConsumerTags.tags

/-- The set in the map, or a new one, which is not put into the map. -/
def getConsumerTags (pubSub : PubSub) (topic : String) : PubSub × ℕ :=
  match pubSub.topicToConsumerTags topic with
  | some consumerTags => (pubSub, consumerTags)
  | none =>
      ({ pubSub with
          consumerTagSets := pubSub.consumerTagSets ++ [⟨topic, .empty⟩] },
        pubSub.consumerTagSets.length)

def generateQueueName
    (queueNamePattern : String) (pubSub : PubSub) (topic : String) : String :=
  let found := pubSub.getConsumerTags topic
  StringUtil.substitute queueNamePattern
    [("topic", topic),
      ("consumerNumber", toString ((found.1.tagsOf found.2).size + 1))]

def setCall (pubSub : PubSub) (index : ℕ) (call : Call) : PubSub :=
  { pubSub with calls := pubSub.calls.set index call }

/-- `subscribe` up to its first await. -/
def subscribe
    (pubSub : PubSub) (topic : String) (options : SubscribeOptions) : PubSub :=
  { pubSub with calls := pubSub.calls ++ [.assertingExchange topic options] }

/-- `queueName || this.generateQueueName(topic)`. -/
def chooseQueueName
    (queueNamePattern : String) (pubSub : PubSub) (topic : String)
    (options : SubscribeOptions) : String :=
  match options.queueName with
  | some queueName =>
      if queueName = "" then
        pubSub.generateQueueName queueNamePattern topic
      else
        queueName
  | none => pubSub.generateQueueName queueNamePattern topic

/-- `subscribe` after `consumeQueue`: the tag is added to the set of the topic,
which is put into the map. -/
def registerConsumer
    (pubSub : PubSub) (topic consumerTag : String) : PubSub :=
  let found := pubSub.getConsumerTags topic
  { found.1 with
    consumerTagSets :=
      found.1.consumerTagSets.modify found.2 fun consumerTags =>
        { consumerTags with tags := consumerTags.tags.add consumerTag }
    topicToConsumerTags :=
      update found.1.topicToConsumerTags topic (some found.2) }

/-- The connection has cancelled the consumer with this tag. -/
def cancelConsumer (pubSub : PubSub) (consumerTag : String) : PubSub :=
  { pubSub with
    consumers :=
      pubSub.consumers.map fun consumer =>
        if consumer.consumerTag = consumerTag then
          { consumer with isCancelled := true }
        else
          consumer }

/-- `unsubscribe` with a consumer tag after its await: the tag is deleted from
the set read before, which is put into the map. -/
def deregisterConsumer
    (pubSub : PubSub) (topic consumerTag : String) (consumerTags : ℕ) :
    PubSub :=
  { pubSub with
    consumerTagSets :=
      pubSub.consumerTagSets.modify consumerTags fun read =>
        { read with tags := read.tags.delete consumerTag }
    topicToConsumerTags :=
      update pubSub.topicToConsumerTags topic (some consumerTags) }

/-- `this.topicToConsumerTags.delete(topic)`. -/
def deleteTopic (pubSub : PubSub) (topic : String) : PubSub :=
  { pubSub with
    topicToConsumerTags := update pubSub.topicToConsumerTags topic none }

/-- The loop of `unsubscribe` from a position of the set on, up to the next
await. -/
def cancelFrom
    (pubSub : PubSub) (topic : String) (consumerTags position : ℕ) : Call :=
  match (pubSub.tagsOf consumerTags).next position with
  | some (consumerTag, following) =>
      .cancellingAll topic consumerTag consumerTags following
  | none => .resolved none

/-- `unsubscribe` up to its first await.  An empty tag is no tag. -/
def unsubscribe
    (pubSub : PubSub) (topic : String) (consumerTag : Option String) : PubSub :=
  let found := pubSub.getConsumerTags topic
  let call :=
    match consumerTag.filter fun tag => tag ≠ "" with
    | some tag => .cancelling topic tag found.2
    | none => found.1.cancelFrom topic found.2 0
  { found.1 with calls := found.1.calls ++ [call] }

/-- The command of the call has succeeded. -/
def fulfill
    (queueNamePattern : String) (pubSub : PubSub) (index : ℕ) :
    Call → Option PubSub
  | .assertingExchange topic options =>
      some
        (pubSub.setCall index
          (.assertingQueue topic options
            (pubSub.chooseQueueName queueNamePattern topic options)))
  | .assertingQueue topic options queueName =>
      some (pubSub.setCall index (.bindingQueue topic options queueName))
  | .bindingQueue topic options queueName =>
      some (pubSub.setCall index (.consuming topic options queueName))
  | .cancelling topic consumerTag consumerTags =>
      some
        (((pubSub.cancelConsumer consumerTag).deregisterConsumer topic
            consumerTag consumerTags).setCall index (.resolved none))
  | .cancellingAll topic consumerTag consumerTags position =>
      let deleted := (pubSub.cancelConsumer consumerTag).deleteTopic topic
      some
        (deleted.setCall index (deleted.cancelFrom topic consumerTags position))
  | _ => none

def settle
    (queueNamePattern : String) (pubSub : PubSub) (index : ℕ)
    (settlement : Settlement) : Option PubSub :=
  match pubSub.calls[index]?, settlement with
  | some call, .fulfilled => pubSub.fulfill queueNamePattern index call
  | some call, .rejected =>
      if call.inProgress then some (pubSub.setCall index .rejected) else none
  | none, _ => none

/-- `subscribe` after `consumeQueue` has returned. -/
def consume
    (pubSub : PubSub) (index : ℕ) (consumerTag : String) : Option PubSub :=
  match pubSub.calls[index]? with
  | some (.consuming topic _ queueName) =>
      if consumerTag ∈ pubSub.consumers.map Consumer.consumerTag then
        none
      else
        let registered := pubSub.registerConsumer topic consumerTag
        some <|
          { registered with
              consumers :=
                ⟨index, topic, queueName, consumerTag, false⟩ ::
                  registered.consumers }.setCall index
            (.resolved (some consumerTag))
  | _ => none

def step (queueNamePattern : String) (pubSub : PubSub) :
    Event → Option PubSub
  | .subscribe topic options => some (pubSub.subscribe topic options)
  | .unsubscribe topic consumerTag =>
      some (pubSub.unsubscribe topic consumerTag)
  | .settled call settlement => pubSub.settle queueNamePattern call settlement
  | .consumed call consumerTag => pubSub.consume call consumerTag

/-- The instance as a machine. -/
def machine (queueNamePattern : String) : Machine PubSub Event where
  initial := create
  step := step queueNamePattern

/-! ## What one step can do -/

inductive Steps (queueNamePattern : String) (pubSub : PubSub) :
    Event → PubSub → Prop where
  | subscribing (topic : String) (options : SubscribeOptions) :
      Steps queueNamePattern pubSub (.subscribe topic options)
        (pubSub.subscribe topic options)
  | unsubscribing (topic : String) (consumerTag : Option String) :
      Steps queueNamePattern pubSub (.unsubscribe topic consumerTag)
        (pubSub.unsubscribe topic consumerTag)
  | exchangeAsserted (index : ℕ) (topic : String) (options : SubscribeOptions)
      (waiting : pubSub.calls[index]? = some (.assertingExchange topic options)) :
      Steps queueNamePattern pubSub (.settled index .fulfilled)
        (pubSub.setCall index
          (.assertingQueue topic options
            (pubSub.chooseQueueName queueNamePattern topic options)))
  | queueAsserted (index : ℕ) (topic queueName : String)
      (options : SubscribeOptions)
      (waiting :
        pubSub.calls[index]? = some (.assertingQueue topic options queueName)) :
      Steps queueNamePattern pubSub (.settled index .fulfilled)
        (pubSub.setCall index (.bindingQueue topic options queueName))
  | queueBound (index : ℕ) (topic queueName : String)
      (options : SubscribeOptions)
      (waiting :
        pubSub.calls[index]? = some (.bindingQueue topic options queueName)) :
      Steps queueNamePattern pubSub (.settled index .fulfilled)
        (pubSub.setCall index (.consuming topic options queueName))
  | consumed (index : ℕ) (topic queueName consumerTag : String)
      (options : SubscribeOptions)
      (waiting :
        pubSub.calls[index]? = some (.consuming topic options queueName))
      (fresh : ∀ consumer ∈ pubSub.consumers, consumer.consumerTag ≠ consumerTag) :
      Steps queueNamePattern pubSub (.consumed index consumerTag)
        ({ pubSub.registerConsumer topic consumerTag with
            consumers :=
              ⟨index, topic, queueName, consumerTag, false⟩ ::
                pubSub.consumers }.setCall index
          (.resolved (some consumerTag)))
  | cancelled (index : ℕ) (topic consumerTag : String) (consumerTags : ℕ)
      (waiting :
        pubSub.calls[index]? =
          some (.cancelling topic consumerTag consumerTags)) :
      Steps queueNamePattern pubSub (.settled index .fulfilled)
        (((pubSub.cancelConsumer consumerTag).deregisterConsumer topic
            consumerTag consumerTags).setCall index (.resolved none))
  | cancelledOne (index : ℕ) (topic consumerTag : String)
      (consumerTags position : ℕ)
      (waiting :
        pubSub.calls[index]? =
          some (.cancellingAll topic consumerTag consumerTags position)) :
      Steps queueNamePattern pubSub (.settled index .fulfilled)
        (((pubSub.cancelConsumer consumerTag).deleteTopic topic).setCall index
          (((pubSub.cancelConsumer consumerTag).deleteTopic topic).cancelFrom
            topic consumerTags position))
  | failed (index : ℕ) (call : Call)
      (waiting : pubSub.calls[index]? = some call)
      (inProgress : call.inProgress = true) :
      Steps queueNamePattern pubSub (.settled index .rejected)
        (pubSub.setCall index .rejected)

theorem consumers_registerConsumer
    (pubSub : PubSub) (topic consumerTag : String) :
    (pubSub.registerConsumer topic consumerTag).consumers = pubSub.consumers := by
  unfold registerConsumer getConsumerTags
  split <;> rfl

/-- Every step is one of `Steps`. -/
theorem steps_of_step
    {queueNamePattern : String} {pubSub next : PubSub} {event : Event}
    (stepped : pubSub.step queueNamePattern event = some next) :
    Steps queueNamePattern pubSub event next := by
  cases event with
  | subscribe topic options =>
      cases stepped
      exact .subscribing topic options
  | unsubscribe topic consumerTag =>
      cases stepped
      exact .unsubscribing topic consumerTag
  | settled index settlement =>
      simp only [step, settle] at stepped
      split at stepped
      · rename_i call waiting
        cases call with
        | assertingExchange topic options =>
            cases stepped
            exact .exchangeAsserted index topic options waiting
        | assertingQueue topic options queueName =>
            cases stepped
            exact .queueAsserted index topic queueName options waiting
        | bindingQueue topic options queueName =>
            cases stepped
            exact .queueBound index topic queueName options waiting
        | cancelling topic consumerTag consumerTags =>
            cases stepped
            exact .cancelled index topic consumerTag consumerTags waiting
        | cancellingAll topic consumerTag consumerTags position =>
            cases stepped
            exact .cancelledOne index topic consumerTag consumerTags position
              waiting
        | _ => cases stepped
      · rename_i call waiting
        split at stepped
        · rename_i inProgress
          cases stepped
          exact .failed index call waiting inProgress
        · cases stepped
      · cases stepped
  | consumed index consumerTag =>
      simp only [step, consume] at stepped
      split at stepped
      · rename_i topic options queueName waiting
        split at stepped
        · cases stepped
        · rename_i fresh
          rw [consumers_registerConsumer] at stepped
          cases stepped
          refine .consumed index topic queueName consumerTag options waiting ?_
          intro consumer member same
          exact fresh (List.mem_map.mpr ⟨consumer, member, same⟩)
      · cases stepped

/-! ## Looking up a set -/

/-- The content of the map for a topic. -/
def registered (pubSub : PubSub) (topic : String) : JsSet String :=
  (pubSub.topicToConsumerTags topic).elim .empty pubSub.tagsOf

theorem tagsOf_append_empty
    (pubSub : PubSub) (topic : String) (consumerTags : ℕ) :
    tagsOf
        { pubSub with
          consumerTagSets := pubSub.consumerTagSets ++ [⟨topic, .empty⟩] }
        consumerTags =
      pubSub.tagsOf consumerTags := by
  unfold tagsOf
  rcases Nat.lt_trichotomy consumerTags pubSub.consumerTagSets.length with
    inside | last | outside
  · dsimp only
    rw [List.getElem?_append_left inside]
  · subst last
    dsimp only
    rw [List.getElem?_concat_length, List.getElem?_eq_none (Nat.le_refl _)]
    rfl
  · dsimp only
    rw [List.getElem?_eq_none (by simp; omega),
      List.getElem?_eq_none (Nat.le_of_lt outside)]

/-- A set that is looked up is the one in the map or a new, empty one. -/
theorem getConsumerTags_cases (pubSub : PubSub) (topic : String) :
    (∃ consumerTags,
        pubSub.topicToConsumerTags topic = some consumerTags ∧
          pubSub.getConsumerTags topic = (pubSub, consumerTags)) ∨
      pubSub.topicToConsumerTags topic = none ∧
        pubSub.getConsumerTags topic =
          ({ pubSub with
              consumerTagSets := pubSub.consumerTagSets ++ [⟨topic, .empty⟩] },
            pubSub.consumerTagSets.length) := by
  unfold getConsumerTags
  cases found : pubSub.topicToConsumerTags topic with
  | some consumerTags => exact Or.inl ⟨consumerTags, rfl, rfl⟩
  | none => exact Or.inr ⟨rfl, rfl⟩

/-- Looking up a set changes no set. -/
@[simp]
theorem tagsOf_getConsumerTags
    (pubSub : PubSub) (topic : String) (consumerTags : ℕ) :
    (pubSub.getConsumerTags topic).1.tagsOf consumerTags =
      pubSub.tagsOf consumerTags := by
  rcases pubSub.getConsumerTags_cases topic with ⟨_, _, found⟩ | ⟨_, found⟩
  · rw [found]
  · rw [found]
    exact tagsOf_append_empty pubSub topic consumerTags

@[simp]
theorem calls_getConsumerTags (pubSub : PubSub) (topic : String) :
    (pubSub.getConsumerTags topic).1.calls = pubSub.calls := by
  rcases pubSub.getConsumerTags_cases topic with ⟨_, _, found⟩ | ⟨_, found⟩ <;>
    rw [found]

@[simp]
theorem consumers_getConsumerTags (pubSub : PubSub) (topic : String) :
    (pubSub.getConsumerTags topic).1.consumers = pubSub.consumers := by
  rcases pubSub.getConsumerTags_cases topic with ⟨_, _, found⟩ | ⟨_, found⟩ <;>
    rw [found]

@[simp]
theorem map_getConsumerTags (pubSub : PubSub) (topic : String) :
    (pubSub.getConsumerTags topic).1.topicToConsumerTags =
      pubSub.topicToConsumerTags := by
  rcases pubSub.getConsumerTags_cases topic with ⟨_, _, found⟩ | ⟨_, found⟩ <;>
    rw [found]

theorem tagsOf_found (pubSub : PubSub) (topic : String) :
    pubSub.tagsOf (pubSub.getConsumerTags topic).2 = pubSub.registered topic := by
  unfold registered
  rcases pubSub.getConsumerTags_cases topic with
    ⟨_, itself, found⟩ | ⟨absent, found⟩
  · rw [found, itself]
    rfl
  · rw [found, absent]
    unfold tagsOf
    rw [List.getElem?_eq_none (Nat.le_refl _)]
    rfl

end PubSub

end Amq
