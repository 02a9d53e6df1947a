import Amq.PubSub.QueueNames

/-!
# Publications

An instance of `PubSub` with its calls of `publish` beside those of `subscribe`
and `unsubscribe`, and with the commands that all of them have given to the
connection.  The broker can carry out a command at any time after it was given,
several times, or never, whatever its caller has been told meanwhile; a command
succeeds only after it has been carried out.
-/

namespace Amq.PubSub

open Amq.Transition

variable {Buffer V : Type}

/-- The options of `publish`, as they are given. -/
structure PublishOptions where
  exchangeType : Option ExchangeType
  routingKey : Option String
  deriving DecidableEq, Repr

structure PubSubConfig (Buffer V : Type) where
  queueNamePattern : String
  /-- `serialize`, unless it throws. -/
  serialize : V → Option Buffer
  deserialize : Buffer → Option V

inductive PublishPhase where
  | assertingExchange
  | publishing
  | resolved
  | rejected
  deriving DecidableEq, Repr

/-- A call of `publish`. -/
structure Publication (V : Type) where
  topic : String
  payload : V
  options : PublishOptions
  phase : PublishPhase

namespace Publication

variable (publication : Publication V)

def exchangeType : ExchangeType :=
  publication.options.exchangeType.getD .fanout

/-- `options.routingKey ? { routingKey: options.routingKey } : {}`. -/
def routingKey : Option String :=
  publication.options.routingKey.filter fun routingKey => routingKey ≠ ""

end Publication

/-- A command for the connection. -/
inductive ConnectionCommand (Buffer : Type) where
  | setup (command : Command)
  | publishToExchange (exchange : String) (dataBuffer : Buffer)
    (routingKey : Option String)
  deriving DecidableEq

/-- The call that has given a command. -/
inductive Caller where
  | subscription (call : ℕ)
  | publication (index : ℕ)
  deriving DecidableEq, Repr

structure IssuedCommand (Buffer : Type) where
  caller : Caller
  command : ConnectionCommand Buffer
  /-- The broker has carried it out. -/
  isPerformed : Bool
  deriving DecidableEq

/-- The arguments of a call of `subscribe`. -/
structure SubscribeRequest where
  topic : String
  options : SubscribeOptions
  deriving DecidableEq, Repr

structure PubSubNode (Buffer V : Type) where
  pubSub : PubSub
  /-- What each of its calls was asked for, if it is one of `subscribe`. -/
  requests : List (Option SubscribeRequest)
  publications : List (Publication V)
  commands : List (IssuedCommand Buffer)

inductive NodeEvent (V : Type) where
  | pubSub (event : Event)
  | publish (topic : String) (payload : V) (options : PublishOptions)
  /-- The command that the publication waits for has settled. -/
  | publicationSettled (index : ℕ) (settlement : Settlement)

/-- The callback that `subscribe` gives to `consumeQueue`, as far as the argument of
its handler: it throws without a content, and with one that cannot be
deserialized. -/
def handleMessage
    (config : PubSubConfig Buffer V) (content : Option Buffer) : Option V :=
  content.bind config.deserialize

namespace PubSubNode

def create : PubSubNode Buffer V where
  pubSub := .create
  requests := []
  publications := []
  commands := []

/-- The command, if there is one, is given to the connection. -/
def issue
    (node : PubSubNode Buffer V) (caller : Caller)
    (command : Option (ConnectionCommand Buffer)) : PubSubNode Buffer V :=
  { node with
    commands :=
      node.commands ++ command.toList.map fun given => ⟨caller, given, false⟩ }

/-- The broker has carried out this command for the caller. -/
def IsPerformed
    (node : PubSubNode Buffer V) (caller : Caller)
    (command : ConnectionCommand Buffer) : Prop :=
  ⟨caller, command, true⟩ ∈ node.commands

instance [DecidableEq Buffer]
    (node : PubSubNode Buffer V) (caller : Caller)
    (command : ConnectionCommand Buffer) :
    Decidable (node.IsPerformed caller command) :=
  inferInstanceAs (Decidable (_ ∈ _))

/-- The command that a call of `subscribe` or `unsubscribe` waits for. -/
def awaited (pubSub : PubSub) (call : ℕ) : Option Command :=
  pubSub.calls[call]?.bind Call.command

/-- The call that takes the event. -/
def callOf (pubSub : PubSub) : Event → ℕ
  | .subscribe _ _ => pubSub.calls.length
  | .unsubscribe _ _ => pubSub.calls.length
  | .settled call _ => call
  | .consumed call _ => call

/-- What a new call is asked for. -/
def requestOf : Event → List (Option SubscribeRequest)
  | .subscribe topic options => [some ⟨topic, options⟩]
  | .unsubscribe _ _ => [none]
  | .settled _ _ => []
  | .consumed _ _ => []

/-- The event tells the call that its command has succeeded. -/
def reportsSuccess : Event → Bool
  | .subscribe _ _ => false
  | .unsubscribe _ _ => false
  | .settled _ .fulfilled => true
  | .settled _ .rejected => false
  | .consumed _ _ => true

/-- The command that the call waits for has been carried out. -/
def Awaits (node : PubSubNode Buffer V) (call : ℕ) : Prop :=
  ∃ command ∈ awaited node.pubSub call,
    node.IsPerformed (.subscription call) (.setup command)

instance [DecidableEq Buffer] (node : PubSubNode Buffer V) (call : ℕ) :
    Decidable (node.Awaits call) :=
  inferInstanceAs
    (Decidable
      (∃ command ∈ awaited node.pubSub call,
        node.IsPerformed (.subscription call) (.setup command)))

/-- A call of `subscribe` or `unsubscribe` begins or goes on. -/
def stepPubSub [DecidableEq Buffer]
    (config : PubSubConfig Buffer V) (node : PubSubNode Buffer V)
    (event : Event) : Option (PubSubNode Buffer V) :=
  if reportsSuccess event = true → node.Awaits (callOf node.pubSub event) then
    (node.pubSub.step config.queueNamePattern event).map fun next =>
      { node with
          pubSub := next
          requests := node.requests ++ requestOf event }.issue
        (.subscription (callOf node.pubSub event))
        ((awaited next (callOf node.pubSub event)).map .setup)
  else
    none

/-- The exchange that `publish` asserts. -/
def assertExchange (publication : Publication V) : ConnectionCommand Buffer :=
  .setup (.assertExchange publication.topic publication.exchangeType true false)

/-- `publish` up to its first await. -/
def publish
    (node : PubSubNode Buffer V) (topic : String) (payload : V)
    (options : PublishOptions) : PubSubNode Buffer V :=
  let publication : Publication V :=
    ⟨topic, payload, options, .assertingExchange⟩
  { node with publications := node.publications ++ [publication] }.issue
    (.publication node.publications.length) (some (assertExchange publication))

def setPhase
    (node : PubSubNode Buffer V) (index : ℕ) (publication : Publication V)
    (phase : PublishPhase) : PubSubNode Buffer V :=
  { node with
    publications :=
      node.publications.set index { publication with phase := phase } }

def publishCommand
    (publication : Publication V) (dataBuffer : Buffer) :
    ConnectionCommand Buffer :=
  .publishToExchange publication.topic dataBuffer publication.routingKey

def settlePublication [DecidableEq Buffer]
    (config : PubSubConfig Buffer V) (node : PubSubNode Buffer V) (index : ℕ)
    (settlement : Settlement) : Option (PubSubNode Buffer V) :=
  match node.publications[index]? with
  | none => none
  | some publication =>
      match publication.phase, settlement with
      | .assertingExchange, .fulfilled =>
          if node.IsPerformed (.publication index) (assertExchange publication) then
            match config.serialize publication.payload with
            | some dataBuffer =>
                some
                  ((node.setPhase index publication .publishing).issue
                    (.publication index)
                    (some (publishCommand publication dataBuffer)))
            | none => some (node.setPhase index publication .rejected)
          else
            none
      | .publishing, .fulfilled =>
          if (config.serialize publication.payload).any fun dataBuffer =>
              node.IsPerformed (.publication index)
                (publishCommand publication dataBuffer) then
            some (node.setPhase index publication .resolved)
          else
            none
      | .assertingExchange, .rejected =>
          some (node.setPhase index publication .rejected)
      | .publishing, .rejected =>
          some (node.setPhase index publication .rejected)
      | _, _ => none

def step [DecidableEq Buffer]
    (config : PubSubConfig Buffer V) (node : PubSubNode Buffer V) :
    NodeEvent V → Option (PubSubNode Buffer V)
  | .pubSub event => node.stepPubSub config event
  | .publish topic payload options => some (node.publish topic payload options)
  | .publicationSettled index settlement =>
      node.settlePublication config index settlement

/-- The broker has carried out the command at this place. -/
def markPerformed (node : PubSubNode Buffer V) (place : ℕ) :
    PubSubNode Buffer V :=
  { node with
    commands :=
      node.commands.modify place fun issued => { issued with isPerformed := true } }

/-! ## What a node keeps -/

variable {config : PubSubConfig Buffer V} {node next : PubSubNode Buffer V}

/-- Whatever a node has been asked for and has had carried out remains. -/
structure Grows (node next : PubSubNode Buffer V) : Prop where
  requests :
    ∀ (call : ℕ) (request : Option SubscribeRequest),
      node.requests[call]? = some request → next.requests[call]? = some request
  publications :
    ∀ (index : ℕ) (publication : Publication V),
      node.publications[index]? = some publication →
        ∃ later, next.publications[index]? = some later ∧
          later.topic = publication.topic ∧
            later.payload = publication.payload ∧
              later.options = publication.options
  performed :
    ∀ caller command, node.IsPerformed caller command →
      next.IsPerformed caller command

theorem Grows.refl (node : PubSubNode Buffer V) : Grows node node where
  requests _ _ present := present
  publications _ publication present := ⟨publication, present, rfl, rfl, rfl⟩
  performed _ _ performed := performed

theorem Grows.trans {third : PubSubNode Buffer V}
    (first : Grows node next) (second : Grows next third) :
    Grows node third where
  requests call request present :=
    second.requests call request (first.requests call request present)
  publications index publication present := by
    obtain ⟨later, placed, topic, payload, options⟩ :=
      first.publications index publication present
    obtain ⟨last, lastPlaced, lastTopic, lastPayload, lastOptions⟩ :=
      second.publications index later placed
    exact ⟨last, lastPlaced, lastTopic.trans topic, lastPayload.trans payload,
      lastOptions.trans options⟩
  performed caller command performed :=
    second.performed caller command (first.performed caller command performed)

/-- The exchange of the request has been asserted for the call. -/
def HasExchange (node : PubSubNode Buffer V) (call : ℕ)
    (topic : String) (options : SubscribeOptions) : Prop :=
  node.IsPerformed (.subscription call)
    (.setup
      (.assertExchange topic (options.exchangeType.getD .fanout) true false))

/-- The queue has been bound to the topic of the request for the call. -/
def HasBinding (node : PubSubNode Buffer V) (call : ℕ)
    (topic queueName : String) (options : SubscribeOptions) : Prop :=
  node.IsPerformed (.subscription call)
    (.setup (.bindQueue queueName topic options.routingKey))

/-- What a call that stands here was asked for, and what has been carried out for
it. -/
def Prepared (node : PubSubNode Buffer V) (index : ℕ) : Call → Prop
  | .assertingExchange topic options =>
      node.requests[index]? = some (some ⟨topic, options⟩)
  | .assertingQueue topic options _ =>
      node.requests[index]? = some (some ⟨topic, options⟩) ∧
        node.HasExchange index topic options
  | .bindingQueue topic options _ =>
      node.requests[index]? = some (some ⟨topic, options⟩) ∧
        node.HasExchange index topic options
  | .consuming topic options queueName =>
      node.requests[index]? = some (some ⟨topic, options⟩) ∧
        node.HasExchange index topic options ∧
          node.HasBinding index topic queueName options
  | _ => True

/-- The call of `subscribe` that has returned this consumer has prepared its
queue. -/
def Registered (node : PubSubNode Buffer V) (consumer : Consumer) : Prop :=
  ∃ options, node.requests[consumer.call]? = some (some ⟨consumer.topic, options⟩) ∧
    node.HasExchange consumer.call consumer.topic options ∧
      node.HasBinding consumer.call consumer.topic consumer.queue options

/-- Why a command was given. -/
def Justified (config : PubSubConfig Buffer V) (node : PubSubNode Buffer V) :
    Caller → ConnectionCommand Buffer → Prop
  | .subscription call, .setup (.bindQueue _ exchange routingKey) =>
      ∃ options, node.requests[call]? = some (some ⟨exchange, options⟩) ∧
        options.routingKey = routingKey
  | .subscription call, .setup (.consumeQueue queueName) =>
      ∃ topic options, node.requests[call]? = some (some ⟨topic, options⟩) ∧
        node.HasBinding call topic queueName options
  | .subscription _, .setup _ => True
  | .subscription _, .publishToExchange _ _ _ => False
  | .publication _, .setup (.assertExchange _ _ _ _) => True
  | .publication _, .setup _ => False
  | .publication index, .publishToExchange exchange dataBuffer routingKey =>
      ∃ publication, node.publications[index]? = some publication ∧
        publication.topic = exchange ∧
          config.serialize publication.payload = some dataBuffer ∧
            publication.routingKey = routingKey ∧
              node.IsPerformed (.publication index) (assertExchange publication)

structure Consistent
    (config : PubSubConfig Buffer V) (node : PubSubNode Buffer V) : Prop where
  length : node.requests.length = node.pubSub.calls.length
  calls :
    ∀ (index : ℕ) (call : Call), node.pubSub.calls[index]? = some call →
      node.Prepared index call
  consumers : ∀ consumer ∈ node.pubSub.consumers, node.Registered consumer
  commands :
    ∀ issued ∈ node.commands, node.Justified config issued.caller issued.command

theorem consistent_create :
    (create : PubSubNode Buffer V).Consistent config where
  length := rfl
  calls index call present := by cases present
  consumers := by simp [create, PubSub.create]
  commands := by simp [create]

theorem Prepared.grows
    {index : ℕ} {call : Call} (prepared : node.Prepared index call)
    (grows : Grows node next) : next.Prepared index call := by
  cases call with
  | assertingExchange topic options => exact grows.requests _ _ prepared
  | assertingQueue topic options queueName =>
      exact ⟨grows.requests _ _ prepared.1, grows.performed _ _ prepared.2⟩
  | bindingQueue topic options queueName =>
      exact ⟨grows.requests _ _ prepared.1, grows.performed _ _ prepared.2⟩
  | consuming topic options queueName =>
      exact ⟨grows.requests _ _ prepared.1, grows.performed _ _ prepared.2.1,
        grows.performed _ _ prepared.2.2⟩
  | _ => trivial

theorem Registered.grows
    {consumer : Consumer} (registered : node.Registered consumer)
    (grows : Grows node next) : next.Registered consumer := by
  obtain ⟨options, request, exchange, binding⟩ := registered
  exact ⟨options, grows.requests _ _ request, grows.performed _ _ exchange,
    grows.performed _ _ binding⟩

theorem Justified.grows
    {caller : Caller} {command : ConnectionCommand Buffer}
    (justified : node.Justified config caller command)
    (grows : Grows node next) : next.Justified config caller command := by
  cases caller with
  | subscription call =>
      cases command with
      | setup command =>
          cases command with
          | bindQueue queueName exchange routingKey =>
              obtain ⟨options, request, itsKey⟩ := justified
              exact ⟨options, grows.requests _ _ request, itsKey⟩
          | consumeQueue queueName =>
              obtain ⟨topic, options, request, binding⟩ := justified
              exact ⟨topic, options, grows.requests _ _ request,
                grows.performed _ _ binding⟩
          | _ => trivial
      | publishToExchange exchange dataBuffer routingKey => exact justified.elim
  | publication index =>
      cases command with
      | setup command =>
          cases command with
          | assertExchange exchange type durable autoDelete => trivial
          | _ => exact justified.elim
      | publishToExchange exchange dataBuffer routingKey =>
          obtain ⟨publication, present, itsTopic, serialized, itsKey, asserted⟩ :=
            justified
          obtain ⟨later, placed, topic, payload, options⟩ :=
            grows.publications index publication present
          have sameType : later.exchangeType = publication.exchangeType := by
            simp only [Publication.exchangeType, options]
          have sameKey : later.routingKey = publication.routingKey := by
            simp only [Publication.routingKey, options]
          refine ⟨later, placed, topic.trans itsTopic, ?_, sameKey.trans itsKey, ?_⟩
          · rw [payload]
            exact serialized
          · have kept := grows.performed _ _ asserted
            simp only [assertExchange] at kept ⊢
            rw [topic, sameType]
            exact kept

/-! ## What a step of a node can do -/

theorem grows_issue
    (node : PubSubNode Buffer V) (pubSub : PubSub)
    (new : List (Option SubscribeRequest)) (caller : Caller)
    (command : Option (ConnectionCommand Buffer)) :
    Grows node
      ({ node with
          pubSub := pubSub
          requests := node.requests ++ new }.issue caller command) where
  requests call request present := by
    simp only [issue]
    rw [List.getElem?_append_left (List.getElem?_eq_some_iff.mp present).1]
    exact present
  publications _ publication present := ⟨publication, present, rfl, rfl, rfl⟩
  performed _ _ performed := List.mem_append_left _ performed

theorem mem_issue
    {caller : Caller} {command : Option (ConnectionCommand Buffer)}
    {issued : IssuedCommand Buffer}
    (member : issued ∈ (node.issue caller command).commands) :
    issued ∈ node.commands ∨
      ∃ given ∈ command, issued = ⟨caller, given, false⟩ := by
  rcases List.mem_append.mp member with earlier | new
  · exact Or.inl earlier
  · obtain ⟨given, itself, rfl⟩ := List.mem_map.mp new
    exact Or.inr ⟨given, by simpa using itself, rfl⟩

/-- A consumer that was registered for the same call before, or is registered
now. -/
def StaysRegistered
    (node next : PubSubNode Buffer V) (consumer : Consumer) : Prop :=
  (∃ earlier ∈ node.pubSub.consumers,
      consumer.call = earlier.call ∧ consumer.topic = earlier.topic ∧
        consumer.queue = earlier.queue) ∨
    next.Registered consumer

/-- A node stays consistent when one of its calls moves. -/
theorem Consistent.moves
    (consistent : node.Consistent config) (grows : Grows node next)
    {call : ℕ} {after : Call}
    (calls :
      (next.pubSub.calls = node.pubSub.calls.set call after ∧
          next.requests = node.requests) ∨
        (call = node.pubSub.calls.length ∧
          next.pubSub.calls = node.pubSub.calls ++ [after] ∧
            ∃ request, next.requests = node.requests ++ [request]))
    (prepared : next.Prepared call after)
    (consumers :
      ∀ consumer ∈ next.pubSub.consumers, StaysRegistered node next consumer)
    (commands :
      ∀ issued ∈ next.commands,
        issued ∈ node.commands ∨
          next.Justified config issued.caller issued.command) :
    next.Consistent config := by
  refine ⟨?_, ?_, ?_, ?_⟩
  · rcases calls with ⟨replaced, same⟩ | ⟨_, appended, request, longer⟩
    · rw [replaced, same, List.length_set]
      exact consistent.length
    · rw [appended, longer, List.length_append, List.length_append,
        consistent.length]
      rfl
  · intro other found present
    have kept :
        ∀ index earlier, node.pubSub.calls[index]? = some earlier →
          next.Prepared index earlier := fun index earlier placed =>
      (consistent.calls index earlier placed).grows grows
    rcases calls with ⟨replaced, _⟩ | ⟨last, appended, _⟩
    · rw [replaced] at present
      exact forall_set next.Prepared kept prepared other found present
    · rw [appended] at present
      rw [last] at prepared
      exact forall_concat next.Prepared kept prepared other found present
  · intro consumer member
    rcases consumers consumer member with
      ⟨earlier, before, call, topic, queue⟩ | registered
    · have registered := (consistent.consumers earlier before).grows grows
      simp only [Registered, call, topic, queue]
      exact registered
    · exact registered
  · intro issued member
    rcases commands issued member with earlier | justified
    · exact (consistent.commands issued earlier).grows grows
    · exact justified

theorem staysRegistered_self (next : PubSubNode Buffer V) :
    ∀ consumer ∈ node.pubSub.consumers, StaysRegistered node next consumer :=
  fun consumer member => Or.inl ⟨consumer, member, rfl, rfl, rfl⟩

/-- The state of the node after a call has moved. -/
abbrev movedTo
    (node : PubSubNode Buffer V) (pubSub : PubSub) (event : Event) :
    PubSubNode Buffer V :=
  { node with
      pubSub := pubSub
      requests := node.requests ++ requestOf event }.issue
    (.subscription (callOf node.pubSub event))
    ((awaited pubSub (callOf node.pubSub event)).map .setup)

/-- One call goes on to another phase. -/
theorem Consistent.setsCall
    (consistent : node.Consistent config) {pubSub : PubSub} {event : Event}
    {after : Call} (noRequest : requestOf event = [])
    (calls : pubSub.calls = node.pubSub.calls.set (callOf node.pubSub event) after)
    (prepared :
      (node.movedTo pubSub event).Prepared (callOf node.pubSub event) after)
    (consumers :
      ∀ consumer ∈ pubSub.consumers,
        StaysRegistered node (node.movedTo pubSub event) consumer)
    (justified :
      ∀ command ∈ after.command,
        (node.movedTo pubSub event).Justified config
          (.subscription (callOf node.pubSub event)) (.setup command)) :
    (node.movedTo pubSub event).Consistent config := by
  refine consistent.moves (grows_issue node pubSub _ _ _) (Or.inl ⟨calls, ?_⟩)
    prepared consumers ?_
  · simp only [issue, noRequest, List.append_nil]
  · intro issued member
    rcases mem_issue member with earlier | ⟨given, itself, rfl⟩
    · exact Or.inl earlier
    · right
      obtain ⟨command, waiting, rfl⟩ := Option.mem_map.mp itself
      obtain ⟨found, present, its⟩ := Option.bind_eq_some_iff.mp waiting
      rw [calls] at present
      rcases set_cases present with ⟨_, rfl⟩ | ⟨different, _⟩
      · exact justified command its
      · exact absurd rfl different

/-- Cancelling marks consumers and registers none. -/
theorem staysRegistered_cancelled
    {pubSub : PubSub} {consumerTag : String}
    (consumers :
      pubSub.consumers = (node.pubSub.cancelConsumer consumerTag).consumers)
    (next : PubSubNode Buffer V) :
    ∀ consumer ∈ pubSub.consumers, StaysRegistered node next consumer := by
  intro consumer member
  rw [consumers] at member
  obtain ⟨earlier, present, either⟩ := mem_cancelConsumer member
  left
  refine ⟨earlier, present, ?_⟩
  rcases either with rfl | rfl
  · exact ⟨rfl, rfl, rfl⟩
  · exact ⟨rfl, rfl, rfl⟩

/-- What a call that goes over its set waits for. -/
theorem cancelFrom_command
    {pubSub : PubSub} {topic : String} {consumerTags position : ℕ}
    {command : Command}
    (waiting :
      command ∈ (pubSub.cancelFrom topic consumerTags position).command) :
    ∃ consumerTag, command = .cancelConsumption consumerTag := by
  unfold cancelFrom at waiting
  split at waiting
  · rename_i consumerTag following _
    exact ⟨consumerTag, (Option.mem_some.mp waiting).symm⟩
  · cases waiting

theorem prepared_cancelFrom
    (next : PubSubNode Buffer V) (pubSub : PubSub) (index : ℕ) (topic : String)
    (consumerTags position : ℕ) :
    next.Prepared index (pubSub.cancelFrom topic consumerTags position) := by
  unfold cancelFrom
  split <;> trivial

/-- The command that a call in this phase waits for has been carried out. -/
theorem Awaits.performed
    {call : ℕ} {phase : Call} {command : Command} (awaits : node.Awaits call)
    (present : node.pubSub.calls[call]? = some phase)
    (waiting : phase.command = some command) :
    node.IsPerformed (.subscription call) (.setup command) := by
  obtain ⟨other, itself, performed⟩ := awaits
  rw [awaited, present, Option.bind_some, waiting] at itself
  rw [Option.mem_some.mp itself]
  exact performed

theorem Consistent.appendsCall
    (consistent : node.Consistent config) {pubSub : PubSub} {event : Event}
    {after : Call} {request : Option SubscribeRequest}
    (asked : requestOf event = [request])
    (last : callOf node.pubSub event = node.pubSub.calls.length)
    (calls : pubSub.calls = node.pubSub.calls ++ [after])
    (prepared :
      (node.movedTo pubSub event).Prepared (callOf node.pubSub event) after)
    (consumers : pubSub.consumers = node.pubSub.consumers)
    (justified :
      ∀ command ∈ after.command,
        (node.movedTo pubSub event).Justified config
          (.subscription (callOf node.pubSub event)) (.setup command)) :
    (node.movedTo pubSub event).Consistent config := by
  refine
    consistent.moves (grows_issue node pubSub _ _ _)
      (Or.inr ⟨last, calls, request, ?_⟩) prepared ?_ ?_
  · simp only [issue, asked]
  · intro consumer member
    simp only [issue, consumers] at member
    exact staysRegistered_self _ consumer member
  · intro issued member
    rcases mem_issue member with earlier | ⟨given, itself, rfl⟩
    · exact Or.inl earlier
    · right
      obtain ⟨command, waiting, rfl⟩ := Option.mem_map.mp itself
      obtain ⟨found, present, its⟩ := Option.bind_eq_some_iff.mp waiting
      rw [calls, last, List.getElem?_concat_length] at present
      cases present
      exact justified command its

theorem calls_unsubscribe
    (pubSub : PubSub) (topic : String) (consumerTag : Option String) :
    ∃ call, (pubSub.unsubscribe topic consumerTag).calls = pubSub.calls ++ [call] ∧
      (pubSub.unsubscribe topic consumerTag).consumers = pubSub.consumers ∧
        ((∃ tag consumerTags, call = .cancelling topic tag consumerTags) ∨
          ∃ found : PubSub, ∃ consumerTags,
            call = found.cancelFrom topic consumerTags 0) := by
  unfold unsubscribe
  dsimp only
  refine ⟨_, by rw [calls_getConsumerTags], ?_, ?_⟩
  · rw [consumers_getConsumerTags]
  · split
    · exact Or.inl ⟨_, _, rfl⟩
    · exact Or.inr ⟨_, _, rfl⟩

theorem consistent_unsubscribe
    (consistent : node.Consistent config) (topic : String)
    (consumerTag : Option String) :
    (node.movedTo (node.pubSub.unsubscribe topic consumerTag)
      (.unsubscribe topic consumerTag)).Consistent config := by
  obtain ⟨call, calls, consumers, itself⟩ :=
    calls_unsubscribe node.pubSub topic consumerTag
  refine consistent.appendsCall rfl rfl calls ?_ consumers ?_
  · rcases itself with ⟨tag, consumerTags, rfl⟩ | ⟨found, consumerTags, rfl⟩
    · trivial
    · exact prepared_cancelFrom _ _ _ _ _ _
  · intro command waiting
    rcases itself with ⟨tag, consumerTags, rfl⟩ | ⟨found, consumerTags, rfl⟩
    · rw [← Option.mem_some.mp waiting]
      trivial
    · obtain ⟨tag, rfl⟩ := cancelFrom_command waiting
      trivial

/-- Calls of `subscribe` and `unsubscribe` keep the node consistent. -/
theorem Consistent.stepsPubSub
    {pubSub : PubSub} {event : Event} (consistent : node.Consistent config)
    (permitted :
      reportsSuccess event = true → node.Awaits (callOf node.pubSub event))
    (steps : Steps config.queueNamePattern node.pubSub event pubSub) :
    (node.movedTo pubSub event).Consistent config := by
  have grows : Grows node (node.movedTo pubSub event) := grows_issue _ _ _ _ _
  cases steps with
  | subscribing topic options =>
      refine consistent.appendsCall rfl rfl rfl ?_ rfl ?_
      · simp only [Prepared, issue, callOf, requestOf]
        rw [← consistent.length, List.getElem?_concat_length]
      · intro command waiting
        rw [← Option.mem_some.mp waiting]
        trivial
  | unsubscribing topic consumerTag =>
      exact consistent_unsubscribe consistent topic consumerTag
  | exchangeAsserted index topic options waiting =>
      have prepared := consistent.calls index _ waiting
      have performed := (permitted rfl).performed waiting rfl
      refine consistent.setsCall rfl rfl ?_ (staysRegistered_self _) ?_
      · exact ⟨grows.requests _ _ prepared, grows.performed _ _ performed⟩
      · intro command its
        rw [← Option.mem_some.mp its]
        trivial
  | queueAsserted index topic queueName options waiting =>
      have prepared := consistent.calls index _ waiting
      refine consistent.setsCall rfl rfl ?_ (staysRegistered_self _) ?_
      · exact ⟨grows.requests _ _ prepared.1, grows.performed _ _ prepared.2⟩
      · intro command its
        rw [← Option.mem_some.mp its]
        exact ⟨options, grows.requests _ _ prepared.1, rfl⟩
  | queueBound index topic queueName options waiting =>
      have prepared := consistent.calls index _ waiting
      have performed := (permitted rfl).performed waiting rfl
      refine consistent.setsCall rfl rfl ?_ (staysRegistered_self _) ?_
      · exact ⟨grows.requests _ _ prepared.1, grows.performed _ _ prepared.2,
          grows.performed _ _ performed⟩
      · intro command its
        rw [← Option.mem_some.mp its]
        exact ⟨topic, options, grows.requests _ _ prepared.1,
          grows.performed _ _ performed⟩
  | consumed index topic queueName consumerTag options waiting fresh =>
      have prepared := (consistent.calls index _ waiting).grows grows
      have calls :
          (node.pubSub.registerConsumer topic consumerTag).calls =
            node.pubSub.calls :=
        calls_getConsumerTags node.pubSub topic
      refine consistent.setsCall rfl (congrArg (List.set · index _) calls) ?_ ?_ ?_
      · trivial
      · intro consumer member
        rcases List.mem_cons.mp member with rfl | earlier
        · exact Or.inr ⟨options, prepared⟩
        · exact staysRegistered_self _ consumer earlier
      · intro command its
        cases its
  | cancelled index topic consumerTag consumerTags waiting =>
      exact consistent.setsCall rfl rfl trivial
        (staysRegistered_cancelled rfl _) (by simp [Call.command])
  | cancelledOne index topic consumerTag consumerTags position waiting =>
      refine consistent.setsCall rfl rfl (prepared_cancelFrom _ _ _ _ _ _)
        (staysRegistered_cancelled rfl _) ?_
      intro command its
      obtain ⟨tag, rfl⟩ := cancelFrom_command its
      trivial
  | failed index call waiting inProgress =>
      exact consistent.setsCall rfl rfl trivial (staysRegistered_self _)
        (by simp [Call.command])

/-- A node stays consistent when its calls stay where they are. -/
theorem Consistent.extends
    (consistent : node.Consistent config) (grows : Grows node next)
    (pubSub : next.pubSub = node.pubSub)
    (requests : next.requests = node.requests)
    (commands :
      ∀ issued ∈ next.commands,
        (∃ earlier ∈ node.commands,
            issued.caller = earlier.caller ∧ issued.command = earlier.command) ∨
          next.Justified config issued.caller issued.command) :
    next.Consistent config where
  length := by
    rw [requests, pubSub]
    exact consistent.length
  calls index call present := by
    rw [pubSub] at present
    exact (consistent.calls index call present).grows grows
  consumers consumer member := by
    rw [pubSub] at member
    exact (consistent.consumers consumer member).grows grows
  commands issued member := by
    rcases commands issued member with ⟨earlier, present, caller, command⟩ | justified
    · rw [caller, command]
      exact (consistent.commands earlier present).grows grows
    · exact justified

theorem grows_publish
    (node : PubSubNode Buffer V) (topic : String) (payload : V)
    (options : PublishOptions) :
    Grows node (node.publish topic payload options) where
  requests _ _ present := present
  publications index publication present := by
    refine ⟨publication, ?_, rfl, rfl, rfl⟩
    simp only [publish, issue]
    rw [List.getElem?_append_left (List.getElem?_eq_some_iff.mp present).1]
    exact present
  performed _ _ performed := List.mem_append_left _ performed

theorem Consistent.publishes
    (consistent : node.Consistent config) (topic : String) (payload : V)
    (options : PublishOptions) :
    (node.publish topic payload options).Consistent config := by
  refine consistent.extends (grows_publish node topic payload options) rfl rfl ?_
  intro issued member
  rcases mem_issue member with earlier | ⟨given, itself, rfl⟩
  · exact Or.inl ⟨issued, earlier, rfl, rfl⟩
  · right
    rw [← Option.mem_some.mp itself]
    trivial

theorem grows_setPhase
    {index : ℕ} {publication : Publication V}
    (present : node.publications[index]? = some publication)
    (phase : PublishPhase) (caller : Caller)
    (command : Option (ConnectionCommand Buffer)) :
    Grows node
      ((node.setPhase index publication phase).issue caller command) where
  requests _ _ present := present
  publications other found placed := by
    simp only [issue, setPhase]
    by_cases same : other = index
    · subst same
      cases present.symm.trans placed
      have inside := (List.getElem?_eq_some_iff.mp present).1
      exact ⟨_, List.getElem?_set_self inside, rfl, rfl, rfl⟩
    · refine ⟨found, ?_, rfl, rfl, rfl⟩
      rw [List.getElem?_set_ne (Ne.symm same)]
      exact placed
  performed _ _ performed := List.mem_append_left _ performed

theorem issue_none (node : PubSubNode Buffer V) (caller : Caller) :
    node.issue caller none = node := by
  simp [issue]

theorem Consistent.setsPhase
    (consistent : node.Consistent config) {index : ℕ}
    {publication : Publication V}
    (present : node.publications[index]? = some publication)
    (phase : PublishPhase) :
    Grows node (node.setPhase index publication phase) ∧
      (node.setPhase index publication phase).Consistent config := by
  have grows := grows_setPhase present phase (.publication index) none
  rw [issue_none] at grows
  refine ⟨grows, consistent.extends grows rfl rfl ?_⟩
  intro issued member
  exact Or.inl ⟨issued, member, rfl, rfl⟩

/-- The exchange has been asserted, so the message may be given to the
connection. -/
theorem Consistent.sends
    (consistent : node.Consistent config) {index : ℕ}
    {publication : Publication V} {dataBuffer : Buffer}
    (present : node.publications[index]? = some publication)
    (asserted :
      node.IsPerformed (.publication index) (assertExchange publication))
    (serialized : config.serialize publication.payload = some dataBuffer) :
    ((node.setPhase index publication .publishing).issue (.publication index)
      (some (publishCommand publication dataBuffer))).Consistent config := by
  have grows :=
    grows_setPhase present .publishing (.publication index)
      (some (publishCommand publication dataBuffer))
  refine consistent.extends grows rfl rfl ?_
  intro issued member
  rcases mem_issue member with earlier | ⟨given, itself, rfl⟩
  · exact Or.inl ⟨issued, earlier, rfl, rfl⟩
  · right
    rw [← Option.mem_some.mp itself]
    have inside := (List.getElem?_eq_some_iff.mp present).1
    exact ⟨{ publication with phase := .publishing },
      List.getElem?_set_self inside, rfl, serialized, rfl,
      grows.performed _ _ asserted⟩

/-- Every step keeps a node consistent, and takes nothing back. -/
theorem Consistent.step [DecidableEq Buffer]
    {event : NodeEvent V} (consistent : node.Consistent config)
    (stepped : node.step config event = some next) :
    Grows node next ∧ next.Consistent config := by
  cases event with
  | pubSub event =>
      simp only [PubSubNode.step, stepPubSub] at stepped
      split at stepped
      · rename_i permitted
        obtain ⟨pubSub, moved, rfl⟩ := Option.map_eq_some_iff.mp stepped
        exact ⟨grows_issue node _ _ _ _,
          consistent.stepsPubSub permitted (steps_of_step moved)⟩
      · cases stepped
  | publish topic payload options =>
      cases stepped
      exact ⟨grows_publish node topic payload options,
        consistent.publishes topic payload options⟩
  | publicationSettled index settlement =>
      simp only [PubSubNode.step, settlePublication] at stepped
      split at stepped
      · cases stepped
      · rename_i publication present
        split at stepped
        · split at stepped
          · rename_i asserted
            split at stepped
            · rename_i dataBuffer serialized
              cases stepped
              exact ⟨grows_setPhase present _ _ _,
                consistent.sends present asserted serialized⟩
            · cases stepped
              exact consistent.setsPhase present .rejected
          · cases stepped
        · split at stepped
          · cases stepped
            exact consistent.setsPhase present .resolved
          · cases stepped
        · cases stepped
          exact consistent.setsPhase present .rejected
        · cases stepped
          exact consistent.setsPhase present .rejected
        · cases stepped

theorem performed_issue
    {caller given : Caller} {command : Option (ConnectionCommand Buffer)}
    {other : ConnectionCommand Buffer}
    (performed : (node.issue caller command).IsPerformed given other) :
    node.IsPerformed given other := by
  rcases mem_issue performed with earlier | ⟨_, _, unperformed⟩
  · exact earlier
  · cases unperformed

/-- A step of a node carries out no command. -/
theorem performed_of_step [DecidableEq Buffer]
    {event : NodeEvent V} {caller : Caller} {command : ConnectionCommand Buffer}
    (stepped : node.step config event = some next)
    (performed : next.IsPerformed caller command) :
    node.IsPerformed caller command := by
  cases event with
  | pubSub event =>
      simp only [PubSubNode.step, stepPubSub] at stepped
      split at stepped
      · obtain ⟨pubSub, _, rfl⟩ := Option.map_eq_some_iff.mp stepped
        exact performed_issue performed
      · cases stepped
  | publish topic payload options =>
      cases stepped
      exact performed_issue performed
  | publicationSettled index settlement =>
      simp only [PubSubNode.step, settlePublication] at stepped
      split at stepped
      · cases stepped
      · split at stepped
        · split at stepped
          · split at stepped
            · cases stepped
              exact performed_issue performed
            · cases stepped
              exact performed
          · cases stepped
        · split at stepped
          · cases stepped
            exact performed
          · cases stepped
        · cases stepped
          exact performed
        · cases stepped
          exact performed
        · cases stepped

/-! ## The broker carries out a command -/

theorem mem_markPerformed
    {place : ℕ} {issued : IssuedCommand Buffer}
    (member : issued ∈ (node.markPerformed place).commands) :
    ∃ earlier ∈ node.commands,
      issued.caller = earlier.caller ∧ issued.command = earlier.command ∧
        (issued.isPerformed = true →
          earlier.isPerformed = true ∨ node.commands[place]? = some earlier) := by
  obtain ⟨index, present⟩ := List.mem_iff_getElem?.mp member
  simp only [markPerformed, List.getElem?_modify] at present
  obtain ⟨earlier, placed, rfl⟩ := Option.map_eq_some_iff.mp present
  refine ⟨earlier, List.mem_of_getElem? placed, ?_⟩
  by_cases same : place = index
  · subst same
    rw [if_pos rfl]
    exact ⟨rfl, rfl, fun _ => Or.inr placed⟩
  · rw [if_neg same]
    exact ⟨rfl, rfl, Or.inl⟩

theorem grows_markPerformed (node : PubSubNode Buffer V) (place : ℕ) :
    Grows node (node.markPerformed place) where
  requests _ _ present := present
  publications _ publication present := ⟨publication, present, rfl, rfl, rfl⟩
  performed caller command performed := by
    obtain ⟨index, present⟩ := List.mem_iff_getElem?.mp performed
    apply List.mem_of_getElem? (i := index)
    simp only [markPerformed, List.getElem?_modify, present]
    split <;> rfl

theorem isPerformed_markPerformed
    {place : ℕ} {issued : IssuedCommand Buffer}
    (present : node.commands[place]? = some issued) :
    (node.markPerformed place).IsPerformed issued.caller issued.command := by
  apply List.mem_of_getElem? (i := place)
  simp only [markPerformed, List.getElem?_modify, present, if_true]
  rfl

theorem Consistent.marks
    (consistent : node.Consistent config) (place : ℕ) :
    (node.markPerformed place).Consistent config := by
  refine consistent.extends (grows_markPerformed node place) rfl rfl ?_
  intro issued member
  obtain ⟨earlier, present, caller, command, _⟩ := mem_markPerformed member
  exact Or.inl ⟨earlier, present, caller, command⟩

end PubSubNode

end Amq.PubSub
