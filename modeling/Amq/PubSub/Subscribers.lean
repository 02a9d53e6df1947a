import Amq.PubSub.PubSubSystem

/-!
# What subscribers get

A handler is called with payloads that were published to a topic its queue is
bound to, in the order of their publication and once for each copy.  From the
moment a call of `subscribe` has returned on, nothing that is published to its
topic misses its queue as long as the queue exists that the call has bound.
-/

namespace Amq.PubSub.PubSubSystem

open Amq.Broker
open Amq.Transition

variable {Buffer V : Type} {config : PubSubConfig Buffer V}
variable {covers : ExchangeType → String → String → Bool}
variable {system next : PubSubSystem Buffer V}

/-! ## Where a delivery comes from -/

/-- A call of `subscribe` for the topic has bound the queue with these options. -/
def Subscription
    (system : PubSubSystem Buffer V) (index call : ℕ) (topic queue : String)
    (options : SubscribeOptions) : Prop :=
  ∃ node, system.nodes[index]? = some node ∧
    node.requests[call]? = some (some ⟨topic, options⟩) ∧
      node.HasBinding call topic queue options

theorem Consistent.justified
    (consistent : system.Consistent config covers)
    {index : ℕ} {caller : Caller} {command : ConnectionCommand Buffer}
    (performed : system.HasPerformed index caller command) :
    ∃ node, system.nodes[index]? = some node ∧
      node.Justified config caller command := by
  obtain ⟨node, present, itself⟩ := performed
  exact ⟨node, present, (consistent.nodes index node present).commands _ itself⟩

theorem Consistent.consumes
    (consistent : system.Consistent config covers)
    {queue : String} {consumer : BrokerConsumer}
    (consumes : system.Consumes queue consumer) :
    ∃ topic options,
      system.Subscription consumer.node consumer.call topic queue options := by
  obtain ⟨node, present, topic, options, request, bound⟩ :=
    consistent.justified consumes
  exact ⟨topic, options, node, present, request, bound⟩

theorem Consistent.isBound
    (consistent : system.Consistent config covers)
    {binding : Binding String String String} (bound : system.IsBound binding) :
    ∃ index call options,
      system.Subscription index call binding.exchange binding.queue options ∧
        options.routingKey.getD "" = binding.key := by
  obtain ⟨index, call, routingKey, performed, itsKey⟩ := bound
  obtain ⟨node, present, itself⟩ := performed
  obtain ⟨options, request, sameKey⟩ :=
    (consistent.nodes index node present).commands _ itself
  refine ⟨index, call, options, ⟨node, present, request, ?_⟩, ?_⟩
  · rw [PubSubNode.HasBinding, sameKey]
    exact itself
  · rw [sameKey]
    exact itsKey

/-- The call of `publish` that the message comes from. -/
def IsFrom
    (config : PubSubConfig Buffer V) (system : PubSubSystem Buffer V)
    (message : Message Buffer) (publication : Publication V) : Prop :=
  ∃ publisher, system.nodes[message.node]? = some publisher ∧
    publisher.publications[message.publication]? = some publication ∧
      config.serialize publication.payload = some message.content

theorem Consistent.isPublished
    (consistent : system.Consistent config covers)
    {exchange key : String} {message : Message Buffer}
    (published : system.IsPublished exchange key message) :
    ∃ publication, IsFrom config system message publication ∧
      publication.topic = exchange ∧ publication.routingKey.getD "" = key ∧
        system.broker.exchanges exchange = some publication.exchangeType := by
  obtain ⟨routingKey, performed, itsKey⟩ := published
  obtain ⟨publisher, present, publication, placed, itsTopic, serialized, sameKey,
    asserted⟩ := consistent.justified performed
  refine ⟨publication, ⟨publisher, present, placed, serialized⟩, itsTopic, ?_, ?_⟩
  · rw [sameKey]
    exact itsKey
  · rw [← itsTopic]
    exact consistent.exchanges _ _ _ _ _ _ ⟨publisher, present, asserted⟩

/-- A handler gets what has been published to a topic its queue is bound to, in the
order of the publications and no copy twice. -/
theorem handled_as_published [DecidableEq Buffer]
    (config : PubSubConfig Buffer V)
    (faithful :
      ∀ payload dataBuffer, config.serialize payload = some dataBuffer →
        config.deserialize dataBuffer = some payload)
    (covers : ExchangeType → String → String → Bool)
    (schedule : List (PubSubEvent Buffer V)) (system : PubSubSystem Buffer V)
    (execution : (machine config covers).run create schedule = some system)
    (queue : String) :
    ((system.broker.queues queue).delivered.map Prod.snd).Sublist
        system.published ∧
      ∀ (consumer : BrokerConsumer) (message : Message Buffer),
        (consumer, message) ∈ (system.broker.queues queue).delivered →
          (∃ topic options,
              system.Subscription consumer.node consumer.call topic queue
                options) ∧
            ∃ publication, IsFrom config system message publication ∧
              handleMessage config (some message.content) =
                some publication.payload ∧
              ∃ index call options,
                system.Subscription index call publication.topic queue options ∧
                  covers publication.exchangeType
                    (options.routingKey.getD "")
                    (publication.routingKey.getD "") = true := by
  have consistent := consistent_run execution
  have accounted := consistent.accounted queue
  have handedOut :
      ((system.broker.queues queue).delivered.map Prod.snd).Sublist
        (system.broker.queues queue).routed :=
    (List.sublist_append_left _ _).trans accounted.ordered
  refine ⟨handedOut.trans (consistent.sublist queue), ?_⟩
  intro consumer message delivered
  refine ⟨consistent.consumes (consistent.delivered queue _ delivered), ?_⟩
  have routed : message ∈ (system.broker.queues queue).routed :=
    handedOut.subset (List.mem_map_of_mem delivered)
  obtain ⟨exchange, key, type, bindingKey, published, declared, bound, covered⟩ :=
    consistent.routed queue message routed
  obtain ⟨publication, isFrom, rfl, rfl, itsType⟩ :=
    consistent.isPublished published
  obtain ⟨index, call, options, subscription, rfl⟩ := consistent.isBound bound
  cases declared.symm.trans itsType
  have itself := isFrom
  obtain ⟨_, _, _, serialized⟩ := itself
  exact ⟨publication, isFrom, faithful _ _ serialized, index, call, options,
    subscription, covered⟩

/-- Payloads that are their own buffers. -/
def plainConfig : PubSubConfig ℕ ℕ where
  queueNamePattern := "{topic}:{consumerNumber}"
  serialize := some
  deserialize := some

/-- Fanout exchanges cover every key, direct ones the same key; the patterns of the
other types are not needed. -/
def plainCovers : ExchangeType → String → String → Bool
  | .fanout, _, _ => true
  | _, bindingKey, routingKey => bindingKey = routingKey

/-- An instance subscribes to a topic. -/
def newsSubscribed : List (PubSubEvent ℕ ℕ) :=
  [.started, .started,
    .node 0 (.pubSub (.subscribe "news" ⟨some "queue", none, none, none, none⟩)),
    .performed 0 0 "", .node 0 (.pubSub (.settled 0 .fulfilled)),
    .performed 0 1 "", .node 0 (.pubSub (.settled 0 .fulfilled)),
    .performed 0 2 "", .node 0 (.pubSub (.settled 0 .fulfilled)),
    .performed 0 3 "tag", .node 0 (.pubSub (.consumed 0 "tag"))]

/-- Another one publishes to it. -/
def newsPublished : List (PubSubEvent ℕ ℕ) :=
  [.node 1 (.publish "news" 7 ⟨none, none⟩), .performed 1 0 "",
    .node 1 (.publicationSettled 0 .fulfilled), .performed 1 1 "",
    .delivered "queue" ⟨0, 0, "tag"⟩]

theorem handled_as_published_news :
    ∃ system : PubSubSystem ℕ ℕ,
      (system.broker.queues "queue").delivered = [(⟨0, 0, "tag"⟩, ⟨1, 0, 7⟩)] ∧
      ((system.broker.queues "queue").delivered.map Prod.snd).Sublist
        system.published := by
  have handled :=
    handled_as_published plainConfig (fun _ _ same => same.symm) plainCovers
      (newsSubscribed ++ newsPublished) _ rfl "queue"
  exact ⟨_, rfl, handled.1⟩

/-! ## Nothing is missed -/

def bindsQueue (queue : String) : ConnectionCommand Buffer → Bool
  | .setup (.bindQueue itsQueue _ _) => itsQueue = queue
  | _ => false

/-- The broker has not bound the queue for this call yet. -/
def IsUnbound
    (system : PubSubSystem Buffer V) (index call : ℕ) (queue : String) : Prop :=
  ∀ node ∈ system.nodes[index]?, ∀ issued ∈ node.commands,
    issued.caller = .subscription call → issued.isPerformed = true →
      bindsQueue queue issued.command = false

instance (system : PubSubSystem Buffer V) (index call : ℕ) (queue : String) :
    Decidable (system.IsUnbound index call queue) :=
  inferInstanceAs
    (Decidable
      (∀ node ∈ system.nodes[index]?, ∀ issued ∈ node.commands,
        issued.caller = .subscription call → issued.isPerformed = true →
          bindsQueue queue issued.command = false))

/-- What the broker has bound to the queue for this call is still bound. -/
def Undisturbed
    (system : PubSubSystem Buffer V) (index call : ℕ) (queue : String) : Prop :=
  ∀ exchange routingKey,
    system.HasPerformed index (.subscription call)
        (.setup (.bindQueue queue exchange routingKey)) →
      ⟨queue, exchange, routingKey.getD ""⟩ ∈ system.broker.bindings ∧
        (system.broker.queues queue).isDeclared = true

/-- A binding that has just been carried out is there. -/
theorem bound_of_performed [DecidableEq Buffer]
    {index call : ℕ} {consumerTag queue exchange : String}
    {routingKey : Option String} {command : BrokerCommand Buffer}
    {broker following : Broker Buffer}
    (asked :
      brokerCommand index consumerTag (.subscription call)
          (.setup (.bindQueue queue exchange routingKey)) =
        some command)
    (stepped : broker.step covers command = some following) :
    ⟨queue, exchange, routingKey.getD ""⟩ ∈ following.bindings ∧
      (following.queues queue).isDeclared = true := by
  cases asked
  simp only [ExchangeBroker.step] at stepped
  split at stepped
  · rename_i permitted
    cases stepped
    exact ⟨List.mem_cons_self, permitted.1⟩
  · cases stepped

theorem brokerCommand_ne_deleteQueue
    {index : ℕ} {consumerTag queue : String} {caller : Caller}
    {given : ConnectionCommand Buffer} {command : BrokerCommand Buffer}
    (asked : brokerCommand index consumerTag caller given = some command) :
    command ≠ .deleteQueue queue := by
  rintro rfl
  unfold brokerCommand at asked
  split at asked <;> cases asked

theorem Undisturbed.step [DecidableEq Buffer]
    {event : PubSubEvent Buffer V} {index call : ℕ} {queue : String}
    (undisturbed : system.Undisturbed index call queue)
    (undeleted : event ≠ .queueDeleted queue)
    (moves : Moves config covers system event next) :
    next.Undisturbed index call queue := by
  cases moves with
  | started =>
      rintro exchange routingKey ⟨node, present, performed⟩
      rcases concat_cases present with earlier | ⟨_, rfl⟩
      · exact undisturbed exchange routingKey ⟨node, earlier, performed⟩
      · cases performed
  | node present moved =>
      rintro exchange routingKey ⟨found, itself, performed⟩
      apply undisturbed exchange routingKey
      rcases set_cases itself with ⟨rfl, rfl⟩ | ⟨_, unchanged⟩
      · exact ⟨_, present, PubSubNode.performed_of_step moved performed⟩
      · exact ⟨found, unchanged, performed⟩
  | performed present placed asked taken =>
      have follows := ExchangeBroker.follows_of_step taken
      intro exchange routingKey performed
      rcases performed_marked present placed performed with
        earlier | ⟨itsCaller, same⟩
      · obtain ⟨bound, declared⟩ := undisturbed exchange routingKey earlier
        exact follows.bound _ bound declared (brokerCommand_ne_deleteQueue asked)
      · rw [← itsCaller, ← same] at asked
        exact bound_of_performed asked taken
  | ownAccount taken founded deletes =>
      have follows := ExchangeBroker.follows_of_step taken
      intro exchange routingKey performed
      obtain ⟨bound, declared⟩ := undisturbed exchange routingKey performed
      apply follows.bound _ bound declared
      intro same
      exact undeleted (deletes queue same)

/-- What is published to the exchange with this message comes into the queue. -/
theorem count_copies [DecidableEq Buffer]
    {binding : Binding String String String} {type : ExchangeType}
    {command : BrokerCommand Buffer} {message : Message Buffer}
    (broker : Broker Buffer) (bound : binding ∈ broker.bindings)
    (declared : (broker.queues binding.queue).isDeclared = true)
    (exchange : broker.exchanges binding.exchange = some type)
    (covered :
      ∀ itsExchange key, command = .publish itsExchange key message →
        itsExchange = binding.exchange ∧ covers type binding.key key = true) :
    (broker.copies covers binding.queue command).count message =
      (publishedBy command).count message := by
  cases command with
  | publish itsExchange key published =>
      by_cases same : published = message
      · subst same
        obtain ⟨rfl, itsKey⟩ := covered itsExchange key rfl
        rw [ExchangeBroker.copies_of_binding published bound declared exchange
          itsKey]
        rfl
      · have elsewhere : (publishedBy
            (.publish itsExchange key published : BrokerCommand Buffer)).count
              message = 0 := by
          apply List.count_eq_zero.mpr
          simpa [publishedBy] using Ne.symm same
        rw [elsewhere]
        apply Nat.eq_zero_of_le_zero
        rw [← elsewhere]
        exact (copies_sublist broker binding.queue _).count_le message
  | _ => rfl

/-- The queue gets every copy of the message. -/
structure Serves
    (system : PubSubSystem Buffer V) [DecidableEq Buffer]
    (binding : Binding String String String) (type : ExchangeType)
    (message : Message Buffer) : Prop where
  bound : binding ∈ system.broker.bindings
  declared : (system.broker.queues binding.queue).isDeclared = true
  exchange : system.broker.exchanges binding.exchange = some type
  counts :
    (system.broker.queues binding.queue).routed.count message =
      system.published.count message

theorem Serves.takes [DecidableEq Buffer]
    {binding : Binding String String String} {type : ExchangeType}
    {message : Message Buffer} {command : BrokerCommand Buffer}
    (serves : system.Serves binding type message)
    (taken : system.broker.step covers command = some next.broker)
    (published : next.published = system.published ++ publishedBy command)
    (undeleted : command ≠ .deleteQueue binding.queue)
    (covered :
      ∀ itsExchange key, command = .publish itsExchange key message →
        itsExchange = binding.exchange ∧ covers type binding.key key = true) :
    next.Serves binding type message := by
  have follows := ExchangeBroker.follows_of_step taken
  obtain ⟨bound, declared⟩ :=
    follows.bound binding serves.bound serves.declared undeleted
  refine ⟨bound, declared, follows.exchanges _ _ serves.exchange, ?_⟩
  rw [follows.routed, published, List.count_append, List.count_append,
    serves.counts,
    count_copies system.broker serves.bound serves.declared serves.exchange
      covered]

/-- A message that is published to the topic, as far as the system knows. -/
def Concerns
    (covers : ExchangeType → String → String → Bool)
    (system : PubSubSystem Buffer V) (binding : Binding String String String)
    (type : ExchangeType) (message : Message Buffer) : Prop :=
  ∀ exchange key, system.IsPublished exchange key message →
    exchange = binding.exchange ∧ covers type binding.key key = true

theorem Serves.step [DecidableEq Buffer]
    {event : PubSubEvent Buffer V} {binding : Binding String String String}
    {type : ExchangeType} {message : Message Buffer}
    (serves : system.Serves binding type message)
    (undeleted : event ≠ .queueDeleted binding.queue)
    (concerns : next.Concerns covers binding type message)
    (moves : Moves config covers system event next) :
    next.Serves binding type message := by
  cases moves with
  | started =>
      exact ⟨serves.bound, serves.declared, serves.exchange, serves.counts⟩
  | node present moved =>
      exact ⟨serves.bound, serves.declared, serves.exchange, serves.counts⟩
  | performed present placed asked taken =>
      apply serves.takes taken rfl (brokerCommand_ne_deleteQueue asked)
      intro itsExchange key same
      apply concerns itsExchange key
      have inside := (List.getElem?_eq_some_iff.mp present).1
      exact (founded_brokerCommand asked
        ⟨_, List.getElem?_set_self inside,
          PubSubNode.isPerformed_markPerformed placed⟩).publish _ _ _ same
  | ownAccount taken founded deletes =>
      apply serves.takes taken rfl
      · intro same
        exact undeleted (deletes binding.queue same)
      · intro itsExchange key same
        exact concerns itsExchange key ((founded _).publish _ _ _ same)

theorem Concerns.of_extends
    {binding : Binding String String String} {type : ExchangeType}
    {message : Message Buffer}
    (concerns : next.Concerns covers binding type message)
    (extends_ : Extends system next) :
    system.Concerns covers binding type message := by
  intro exchange key published
  exact concerns exchange key (published.extends extends_)

/-- Along a run nothing is taken back. -/
theorem extends_run [DecidableEq Buffer]
    {schedule : List (PubSubEvent Buffer V)}
    (consistent : system.Consistent config covers)
    (execution : (machine config covers).run system schedule = some next) :
    Extends system next := by
  induction schedule generalizing system with
  | nil =>
      simp only [Machine.run_nil, Option.some.injEq] at execution
      rw [execution]
      exact extends_refl next
  | cons event rest inductionHypothesis =>
      obtain ⟨following, stepped, remaining⟩ := Machine.run_cons_iff.mp execution
      obtain ⟨extends_, kept⟩ := consistent.step (moves_of_step stepped)
      exact extends_.trans (inductionHypothesis kept remaining)

theorem Serves.run [DecidableEq Buffer]
    {schedule : List (PubSubEvent Buffer V)}
    {binding : Binding String String String} {type : ExchangeType}
    {message : Message Buffer}
    (serves : system.Serves binding type message)
    (consistent : system.Consistent config covers)
    (undeleted : ∀ event ∈ schedule, event ≠ .queueDeleted binding.queue)
    (concerns : next.Concerns covers binding type message)
    (execution : (machine config covers).run system schedule = some next) :
    next.Serves binding type message := by
  induction schedule generalizing system with
  | nil =>
      simp only [Machine.run_nil, Option.some.injEq] at execution
      exact execution ▸ serves
  | cons event rest inductionHypothesis =>
      obtain ⟨following, stepped, remaining⟩ := Machine.run_cons_iff.mp execution
      have moves := moves_of_step stepped
      obtain ⟨_, kept⟩ := consistent.step moves
      have concernsNow := concerns.of_extends (extends_run kept remaining)
      exact inductionHypothesis
        (serves.step (undeleted event List.mem_cons_self) concernsNow moves)
        kept (fun other member => undeleted other (List.mem_cons_of_mem _ member))
        remaining

theorem undisturbed_run [DecidableEq Buffer]
    {schedule : List (PubSubEvent Buffer V)} {index call : ℕ} {queue : String}
    (unbound : system.IsUnbound index call queue)
    (undeleted : ∀ event ∈ schedule, event ≠ .queueDeleted queue)
    (execution : (machine config covers).run system schedule = some next) :
    next.Undisturbed index call queue := by
  have preserved :
      (machine config covers).PreservedUnder
        (fun _ event => event ≠ .queueDeleted queue)
        (Undisturbed · index call queue) := by
    intro state event following undisturbed allowed stepped
    exact undisturbed.step allowed (moves_of_step stepped)
  have initially : system.Undisturbed index call queue := by
    rintro exchange routingKey ⟨node, present, performed⟩
    have absent := unbound node present _ performed rfl rfl
    simp [bindsQueue] at absent
  exact Machine.run_invariant_under preserved initially
    ((Machine.throughout_events_iff execution).mpr undeleted) execution

/-- A message of a call of `publish` that has not begun is nowhere yet. -/
theorem Consistent.count_eq_zero [DecidableEq Buffer]
    (consistent : system.Consistent config covers) {message : Message Buffer}
    (isLater :
      ∀ publisher, system.nodes[message.node]? = some publisher →
        publisher.publications.length ≤ message.publication) :
    system.published.count message = 0 := by
  apply List.count_eq_zero.mpr
  intro member
  obtain ⟨exchange, key, published⟩ := consistent.published message member
  obtain ⟨publication, ⟨publisher, present, placed, _⟩, _⟩ :=
    consistent.isPublished published
  have inside := (List.getElem?_eq_some_iff.mp placed).1
  exact Nat.lt_irrefl _ (Nat.lt_of_lt_of_le inside (isLater publisher present))

/-- After a call of `subscribe` has returned, every message that is published to its
topic under a key that it covers comes into its queue, as long as the queue has
not been deleted since before the call bound it: each time the exchange takes
it, there is a copy that is handed out, still held, or dropped. -/
theorem subscribers_miss_nothing [DecidableEq Buffer]
    (config : PubSubConfig Buffer V)
    (covers : ExchangeType → String → String → Bool)
    (earlier since later : List (PubSubEvent Buffer V))
    (start middle final : PubSubSystem Buffer V)
    (before : (machine config covers).run create earlier = some start)
    (during : (machine config covers).run start since = some middle)
    (after : (machine config covers).run middle later = some final)
    (index : ℕ) (node : PubSubNode Buffer V) (consumer : Consumer)
    (present : middle.nodes[index]? = some node)
    (subscribed : consumer ∈ node.pubSub.consumers)
    (unbound : start.IsUnbound index consumer.call consumer.queue)
    (undeleted :
      ∀ event ∈ since ++ later, event ≠ .queueDeleted consumer.queue) :
    ∃ options,
      middle.Subscription index consumer.call consumer.topic consumer.queue
          options ∧
        ∀ (message : Message Buffer) (publication : Publication V),
          IsFrom config final message publication →
            publication.topic = consumer.topic →
            (∀ publisher, middle.nodes[message.node]? = some publisher →
              publisher.publications.length ≤ message.publication) →
            covers (options.exchangeType.getD .fanout)
                (options.routingKey.getD "")
                (publication.routingKey.getD "") = true →
              final.published.count message =
                ((final.broker.queues consumer.queue).delivered.map
                    Prod.snd).count message +
                  (final.broker.queues consumer.queue).contents.count message +
                  (final.broker.queues consumer.queue).dropped.count
                    message := by
  have subscribing :
      (machine config covers).run create (earlier ++ since) = some middle := by
    rw [Machine.run_append, before]
    exact during
  have consistent := consistent_run subscribing
  obtain ⟨options, request, exchange, bound⟩ :=
    (consistent.nodes index node present).consumers consumer subscribed
  refine ⟨options, ⟨node, present, request, bound⟩, ?_⟩
  intro message publication isFrom itsTopic isLater covered
  have undisturbed :=
    undisturbed_run unbound
      (fun event member => undeleted event (List.mem_append_left _ member)) during
  obtain ⟨bindingThere, declared⟩ :=
    undisturbed consumer.topic options.routingKey ⟨node, present, bound⟩
  have none := consistent.count_eq_zero isLater
  have serves :
      middle.Serves
        ⟨consumer.queue, consumer.topic, options.routingKey.getD ""⟩
        (options.exchangeType.getD .fanout) message := by
    refine ⟨bindingThere, declared, ?_, ?_⟩
    · exact consistent.exchanges _ _ _ _ _ _ ⟨node, present, exchange⟩
    · rw [none]
      apply Nat.eq_zero_of_le_zero
      rw [← none]
      exact (consistent.sublist consumer.queue).count_le message
  have throughout :
      (machine config covers).run create (earlier ++ since ++ later) =
        some final := by
    rw [Machine.run_append, subscribing]
    exact after
  have finally_ := consistent_run throughout
  have concerns :
      final.Concerns covers
        ⟨consumer.queue, consumer.topic, options.routingKey.getD ""⟩
        (options.exchangeType.getD .fanout) message := by
    intro exchange key published
    obtain ⟨other, ⟨publisher, there, placed, _⟩, topic, itsKey, _⟩ :=
      finally_.isPublished published
    obtain ⟨samePublisher, thereToo, placedToo, _⟩ := isFrom
    cases there.symm.trans thereToo
    cases placed.symm.trans placedToo
    exact ⟨topic.symm.trans itsTopic, itsKey ▸ covered⟩
  have served :=
    serves.run consistent
      (fun event member => undeleted event (List.mem_append_right _ member))
      concerns after
  rw [← served.counts]
  exact (finally_.accounted consumer.queue).count message

/-- The queue is deleted, and a second call of `subscribe` asserts it again. -/
def newsAssertedAgain : List (PubSubEvent ℕ ℕ) :=
  newsSubscribed ++
    [.queueDeleted "queue",
      .node 0 (.pubSub (.subscribe "news" ⟨some "queue", none, none, none, none⟩)),
      .performed 0 4 "", .node 0 (.pubSub (.settled 1 .fulfilled)),
      .performed 0 5 "", .node 0 (.pubSub (.settled 1 .fulfilled))]

/-- The second call goes on. -/
def newsConsumedAgain : List (PubSubEvent ℕ ℕ) :=
  [.performed 0 6 "", .node 0 (.pubSub (.settled 1 .fulfilled)),
    .performed 0 7 "again", .node 0 (.pubSub (.consumed 1 "again"))]

theorem subscribers_miss_nothing_news :
    ∃ final : PubSubSystem ℕ ℕ,
      final.published.count ⟨1, 0, 7⟩ = 1 ∧
        final.published.count ⟨1, 0, 7⟩ =
          ((final.broker.queues "queue").delivered.map Prod.snd).count
              ⟨1, 0, 7⟩ +
            (final.broker.queues "queue").contents.count ⟨1, 0, 7⟩ +
            (final.broker.queues "queue").dropped.count ⟨1, 0, 7⟩ := by
  obtain ⟨options, subscription, served⟩ :=
    subscribers_miss_nothing plainConfig plainCovers newsAssertedAgain
      newsConsumedAgain (newsPublished.take 4) _ _ _ rfl rfl rfl 0 _
      ⟨1, "news", "queue", "again", false⟩ rfl List.mem_cons_self
      (by decide)
      (by simp [newsConsumedAgain, newsPublished])
  obtain ⟨node, present, request, _⟩ := subscription
  cases present
  cases request
  refine ⟨_, ?_, served ⟨1, 0, 7⟩ ⟨"news", 7, ⟨none, none⟩, .publishing⟩
    ⟨_, rfl, rfl, rfl⟩ rfl ?_ rfl⟩
  · rfl
  · intro publisher there
    cases there
    exact Nat.zero_le _

end Amq.PubSub.PubSubSystem
