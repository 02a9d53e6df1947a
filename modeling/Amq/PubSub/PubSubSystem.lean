import Amq.PubSub.PubSubNode
import Amq.Broker.ExchangeBroker

/-!
# Publishers, subscribers and the broker

Any number of instances give their commands to one broker, which carries them out
when it likes, and hands the copies of a queue to the callbacks that
`subscribe` has passed to `consumeQueue`.  The consumers do not acknowledge.
Consumers can disappear at any time, queues can be deleted, and copies dropped.
-/

namespace Amq.PubSub

open Amq.Broker
open Amq.Transition

variable {Buffer V : Type}

/-- A consumer as the broker knows it: the call of `subscribe` that asked for it,
and its tag. -/
structure BrokerConsumer where
  node : ℕ
  call : ℕ
  consumerTag : String
  deriving DecidableEq, Repr

/-- A message with the call of `publish` that it comes from. -/
structure Message (Buffer : Type) where
  node : ℕ
  publication : ℕ
  content : Buffer
  deriving DecidableEq

abbrev Broker (Buffer : Type) :=
  ExchangeBroker String ExchangeType String String BrokerConsumer (Message Buffer)

abbrev BrokerCommand (Buffer : Type) :=
  BrokerEvent String ExchangeType String String BrokerConsumer (Message Buffer)

structure PubSubSystem (Buffer V : Type) where
  nodes : List (PubSubNode Buffer V)
  broker : Broker Buffer
  /-- The messages that exchanges have taken, the oldest first. -/
  published : List (Message Buffer)

inductive PubSubEvent (Buffer V : Type) where
  | started
  | node (index : ℕ) (event : NodeEvent V)
  /-- The broker carries out the command at this place; a consumer gets the tag. -/
  | performed (index place : ℕ) (consumerTag : String)
  | consumersGone (isGone : BrokerConsumer → Bool)
  | delivered (queue : String) (consumer : BrokerConsumer)
  | dropped (queue : String) (message : Message Buffer)
  | queueDeleted (queue : String)

/-- What a command asks of the broker; `AmqpConnection` gives an undefined routing
key its default. -/
def brokerCommand
    (index : ℕ) (consumerTag : String) :
    Caller → ConnectionCommand Buffer → Option (BrokerCommand Buffer)
  | _, .setup (.assertExchange exchange type _ _) =>
      some (.declareExchange exchange type)
  | .subscription _, .setup (.assertQueue queue _ _ _ _) =>
      some (.declareQueue queue)
  | .subscription _, .setup (.bindQueue queue exchange routingKey) =>
      some (.bind ⟨queue, exchange, routingKey.getD ""⟩)
  | .subscription call, .setup (.consumeQueue queue) =>
      some (.consume queue ⟨index, call, consumerTag⟩)
  | .subscription _, .setup (.cancelConsumption cancelled) =>
      some
        (.cancel fun consumer =>
          consumer.node = index ∧ consumer.consumerTag = cancelled)
  | .publication publication, .publishToExchange exchange dataBuffer routingKey =>
      some
        (.publish exchange (routingKey.getD "")
          ⟨index, publication, dataBuffer⟩)
  | _, _ => none

/-- The message that the exchange takes. -/
def publishedBy : BrokerCommand Buffer → List (Message Buffer)
  | .publish _ _ message => [message]
  | _ => []

namespace PubSubSystem

def create : PubSubSystem Buffer V where
  nodes := []
  broker := .empty
  published := []

variable [DecidableEq Buffer]

def perform
    (covers : ExchangeType → String → String → Bool)
    (system : PubSubSystem Buffer V) (command : BrokerCommand Buffer) :
    Option (PubSubSystem Buffer V) :=
  (system.broker.step covers command).map fun broker =>
    { system with
      broker := broker
      published := system.published ++ publishedBy command }

def step
    (config : PubSubConfig Buffer V)
    (covers : ExchangeType → String → String → Bool)
    (system : PubSubSystem Buffer V) :
    PubSubEvent Buffer V → Option (PubSubSystem Buffer V)
  | .started => some { system with nodes := system.nodes ++ [.create] }
  | .node index event =>
      match system.nodes[index]? with
      | some node =>
          (node.step config event).map fun next =>
            { system with nodes := system.nodes.set index next }
      | none => none
  | .performed index place consumerTag =>
      match system.nodes[index]? with
      | some node =>
          match node.commands[place]? with
          | some issued =>
              (brokerCommand index consumerTag issued.caller issued.command).bind
                (perform covers
                  { system with
                    nodes := system.nodes.set index (node.markPerformed place) })
          | none => none
      | none => none
  | .consumersGone isGone => system.perform covers (.cancel isGone)
  | .delivered queue consumer => system.perform covers (.deliver queue consumer)
  | .dropped queue message => system.perform covers (.drop queue message)
  | .queueDeleted queue => system.perform covers (.deleteQueue queue)

def machine
    (config : PubSubConfig Buffer V)
    (covers : ExchangeType → String → String → Bool) :
    Machine (PubSubSystem Buffer V) (PubSubEvent Buffer V) where
  initial := create
  step := step config covers

/-! ## What a system keeps -/

omit [DecidableEq Buffer]

variable {config : PubSubConfig Buffer V}
variable {covers : ExchangeType → String → String → Bool}
variable {system next : PubSubSystem Buffer V}

/-- Every node stays, and takes nothing back. -/
def Extends (system next : PubSubSystem Buffer V) : Prop :=
  ∀ (index : ℕ) (node : PubSubNode Buffer V), system.nodes[index]? = some node →
    ∃ later, next.nodes[index]? = some later ∧ PubSubNode.Grows node later

/-- The broker has carried out this command of a node. -/
def HasPerformed
    (system : PubSubSystem Buffer V) (index : ℕ) (caller : Caller)
    (command : ConnectionCommand Buffer) : Prop :=
  ∃ node, system.nodes[index]? = some node ∧ node.IsPerformed caller command

/-- A call of `subscribe` has bound the queue. -/
def IsBound
    (system : PubSubSystem Buffer V) (binding : Binding String String String) :
    Prop :=
  ∃ index call routingKey,
    system.HasPerformed index (.subscription call)
        (.setup (.bindQueue binding.queue binding.exchange routingKey)) ∧
      routingKey.getD "" = binding.key

/-- The call of `subscribe` has consumed the queue. -/
def Consumes
    (system : PubSubSystem Buffer V) (queue : String)
    (consumer : BrokerConsumer) : Prop :=
  system.HasPerformed consumer.node (.subscription consumer.call)
    (.setup (.consumeQueue queue))

/-- A call of `publish` has published the message. -/
def IsPublished
    (system : PubSubSystem Buffer V) (exchange key : String)
    (message : Message Buffer) : Prop :=
  ∃ routingKey,
    system.HasPerformed message.node (.publication message.publication)
        (.publishToExchange exchange message.content routingKey) ∧
      routingKey.getD "" = key

/-- The message belongs into the queue: a call of `subscribe` has bound it to the
exchange of the message. -/
def BelongsTo
    (covers : ExchangeType → String → String → Bool)
    (system : PubSubSystem Buffer V) (queue : String)
    (message : Message Buffer) : Prop :=
  ∃ exchange key type bindingKey,
    system.IsPublished exchange key message ∧
      system.broker.exchanges exchange = some type ∧
        system.IsBound ⟨queue, exchange, bindingKey⟩ ∧
          covers type bindingKey key = true

structure Consistent
    (config : PubSubConfig Buffer V)
    (covers : ExchangeType → String → String → Bool)
    (system : PubSubSystem Buffer V) : Prop where
  nodes :
    ∀ (index : ℕ) (node : PubSubNode Buffer V),
      system.nodes[index]? = some node → node.Consistent config
  exchanges :
    ∀ index caller exchange type durable autoDelete,
      system.HasPerformed index caller
          (.setup (.assertExchange exchange type durable autoDelete)) →
        system.broker.exchanges exchange = some type
  bindings : ∀ binding ∈ system.broker.bindings, system.IsBound binding
  consumers :
    ∀ entry ∈ system.broker.consumers, system.Consumes entry.1 entry.2
  published :
    ∀ message ∈ system.published, ∃ exchange key,
      system.IsPublished exchange key message
  routed :
    ∀ queue, ∀ message ∈ (system.broker.queues queue).routed,
      system.BelongsTo covers queue message
  delivered :
    ∀ queue, ∀ entry ∈ (system.broker.queues queue).delivered,
      system.Consumes queue entry.1
  accounted : ∀ queue, (system.broker.queues queue).Accounted
  sublist :
    ∀ queue, (system.broker.queues queue).routed.Sublist system.published

theorem consistent_create :
    (create : PubSubSystem Buffer V).Consistent config covers where
  nodes index node present := by cases present
  exchanges index caller exchange type durable autoDelete performed := by
    obtain ⟨node, present, _⟩ := performed
    cases present
  bindings := by simp [create, ExchangeBroker.empty]
  consumers := by simp [create, ExchangeBroker.empty]
  published := by simp [create]
  routed := by simp [create, ExchangeBroker.empty, AutoQueue.empty]
  delivered := by simp [create, ExchangeBroker.empty, AutoQueue.empty]
  accounted _ := AutoQueue.accounted_empty
  sublist _ := List.Sublist.refl _

theorem HasPerformed.extends
    {index : ℕ} {caller : Caller} {command : ConnectionCommand Buffer}
    (performed : system.HasPerformed index caller command)
    (extends_ : Extends system next) :
    next.HasPerformed index caller command := by
  obtain ⟨node, present, itself⟩ := performed
  obtain ⟨later, placed, grows⟩ := extends_ index node present
  exact ⟨later, placed, grows.performed _ _ itself⟩

theorem IsBound.extends
    {binding : Binding String String String} (bound : system.IsBound binding)
    (extends_ : Extends system next) : next.IsBound binding := by
  obtain ⟨index, call, routingKey, performed, itsKey⟩ := bound
  exact ⟨index, call, routingKey, performed.extends extends_, itsKey⟩

theorem IsPublished.extends
    {exchange key : String} {message : Message Buffer}
    (published : system.IsPublished exchange key message)
    (extends_ : Extends system next) : next.IsPublished exchange key message := by
  obtain ⟨routingKey, performed, itsKey⟩ := published
  exact ⟨routingKey, performed.extends extends_, itsKey⟩

theorem BelongsTo.extends
    {queue : String} {message : Message Buffer}
    (belongs : system.BelongsTo covers queue message)
    (extends_ : Extends system next)
    (exchanges :
      ∀ exchange type, system.broker.exchanges exchange = some type →
        next.broker.exchanges exchange = some type) :
    next.BelongsTo covers queue message := by
  obtain ⟨exchange, key, type, bindingKey, published, declared, bound, covered⟩ :=
    belongs
  exact ⟨exchange, key, type, bindingKey, published.extends extends_,
    exchanges exchange type declared, bound.extends extends_, covered⟩

theorem extends_set
    {index : ℕ} {node later : PubSubNode Buffer V}
    (present : system.nodes[index]? = some node)
    (grows : PubSubNode.Grows node later) (broker : Broker Buffer)
    (published : List (Message Buffer)) :
    Extends system ⟨system.nodes.set index later, broker, published⟩ := by
  intro other found placed
  by_cases same : other = index
  · subst same
    cases present.symm.trans placed
    have inside := (List.getElem?_eq_some_iff.mp present).1
    exact ⟨later, List.getElem?_set_self inside, grows⟩
  · refine ⟨found, ?_, .refl found⟩
    exact (List.getElem?_set_ne (Ne.symm same)).trans placed

theorem extends_refl (system : PubSubSystem Buffer V) : Extends system system :=
  fun _ node present => ⟨node, present, .refl node⟩

theorem extends_append (system : PubSubSystem Buffer V) :
    Extends system { system with nodes := system.nodes ++ [.create] } := by
  intro index node present
  refine ⟨node, ?_, .refl node⟩
  exact (List.getElem?_append_left (List.getElem?_eq_some_iff.mp present).1).trans
    present

theorem Extends.trans {third : PubSubSystem Buffer V}
    (first : Extends system next) (second : Extends next third) :
    Extends system third := by
  intro index node present
  obtain ⟨later, placed, grows⟩ := first index node present
  obtain ⟨last, lastPlaced, lastGrows⟩ := second index later placed
  exact ⟨last, lastPlaced, grows.trans lastGrows⟩

/-! ## The steps -/

/-- The nodes move, and nothing has been carried out. -/
theorem Consistent.moves
    (consistent : system.Consistent config covers)
    (extends_ : Extends system next)
    (broker : next.broker = system.broker)
    (published : next.published = system.published)
    (nodes :
      ∀ (index : ℕ) (node : PubSubNode Buffer V),
        next.nodes[index]? = some node → node.Consistent config)
    (performed :
      ∀ index caller command, next.HasPerformed index caller command →
        system.HasPerformed index caller command) :
    next.Consistent config covers where
  nodes := nodes
  exchanges index caller exchange type durable autoDelete asserted := by
    rw [broker]
    exact consistent.exchanges index caller exchange type durable autoDelete
      (performed index caller _ asserted)
  bindings binding member := by
    rw [broker] at member
    exact (consistent.bindings binding member).extends extends_
  consumers entry member := by
    rw [broker] at member
    exact (consistent.consumers entry member).extends extends_
  published message member := by
    rw [published] at member
    obtain ⟨exchange, key, itself⟩ := consistent.published message member
    exact ⟨exchange, key, itself.extends extends_⟩
  routed queue message member := by
    rw [broker] at member
    apply (consistent.routed queue message member).extends extends_
    intro exchange type declared
    rw [broker]
    exact declared
  delivered queue entry member := by
    rw [broker] at member
    exact (consistent.delivered queue entry member).extends extends_
  accounted queue := by
    rw [broker]
    exact consistent.accounted queue
  sublist queue := by
    rw [broker, published]
    exact consistent.sublist queue

theorem copies_sublist
    (broker : Broker Buffer) (queue : String) (command : BrokerCommand Buffer) :
    (broker.copies covers queue command).Sublist (publishedBy command) := by
  cases command with
  | publish exchange key message =>
      simp only [ExchangeBroker.copies]
      split
      · split
        · exact List.Sublist.refl _
        · exact List.nil_sublist _
      · exact List.nil_sublist _
  | _ => exact List.nil_sublist _

/-- The command has a reason. -/
structure Founded
    (system : PubSubSystem Buffer V) (command : BrokerCommand Buffer) : Prop where
  bind : ∀ binding, command = .bind binding → system.IsBound binding
  consume :
    ∀ queue consumer, command = .consume queue consumer →
      system.Consumes queue consumer
  publish :
    ∀ exchange key message, command = .publish exchange key message →
      system.IsPublished exchange key message

/-- The broker takes a command that has a reason. -/
theorem Consistent.takes [DecidableEq Buffer]
    (consistent : system.Consistent config covers)
    {command : BrokerCommand Buffer}
    (stepped : system.broker.step covers command = some next.broker)
    (extends_ : Extends system next)
    (published : next.published = system.published ++ publishedBy command)
    (nodes :
      ∀ (index : ℕ) (node : PubSubNode Buffer V),
        next.nodes[index]? = some node → node.Consistent config)
    (exchanges :
      ∀ index caller exchange type durable autoDelete,
        next.HasPerformed index caller
            (.setup (.assertExchange exchange type durable autoDelete)) →
          next.broker.exchanges exchange = some type)
    (founded : next.Founded command) :
    next.Consistent config covers := by
  have follows := ExchangeBroker.follows_of_step stepped
  refine ⟨nodes, exchanges, ?_, ?_, ?_, ?_, ?_, ?_, ?_⟩
  · intro binding member
    rcases follows.bindings binding member with earlier | itself
    · exact (consistent.bindings binding earlier).extends extends_
    · exact founded.bind binding itself
  · intro entry member
    rcases follows.consumers entry member with earlier | itself
    · exact (consistent.consumers entry earlier).extends extends_
    · exact founded.consume entry.1 entry.2 itself
  · intro message member
    rw [published] at member
    rcases List.mem_append.mp member with earlier | new
    · obtain ⟨exchange, key, itself⟩ := consistent.published message earlier
      exact ⟨exchange, key, itself.extends extends_⟩
    · cases command with
      | publish exchange key sent =>
          rw [List.mem_singleton.mp new]
          exact ⟨exchange, key, founded.publish exchange key sent rfl⟩
      | _ => cases new
  · intro queue message member
    rw [follows.routed queue] at member
    rcases List.mem_append.mp member with earlier | new
    · exact (consistent.routed queue message earlier).extends extends_
        follows.exchanges
    · obtain ⟨exchange, key, type, itself, declared, binding, bound, itsQueue,
        itsExchange, covered⟩ := ExchangeBroker.mem_copies new
      have isBound := (consistent.bindings binding bound).extends extends_
      subst itsQueue itsExchange
      exact ⟨binding.exchange, key, type, binding.key,
        founded.publish _ key message itself,
        follows.exchanges _ type declared, isBound, covered⟩
  · intro queue entry member
    rcases follows.delivered queue entry member with earlier | ⟨registered, _⟩
    · exact (consistent.delivered queue entry earlier).extends extends_
    · exact (consistent.consumers _ registered).extends extends_
  · exact ExchangeBroker.accounted_step consistent.accounted stepped
  · intro queue
    rw [follows.routed queue, published]
    exact (consistent.sublist queue).append (copies_sublist _ queue command)

/-- A command that has been carried out before, or is the one at this place. -/
theorem performed_marked
    {index place other : ℕ} {node : PubSubNode Buffer V}
    {issued : IssuedCommand Buffer} {caller : Caller}
    {command : ConnectionCommand Buffer} {broker : Broker Buffer}
    {published : List (Message Buffer)}
    (present : system.nodes[index]? = some node)
    (placed : node.commands[place]? = some issued)
    (performed :
      HasPerformed
        (⟨system.nodes.set index (node.markPerformed place), broker, published⟩ :
          PubSubSystem Buffer V)
        other caller command) :
    system.HasPerformed other caller command ∨
      (caller = issued.caller ∧ command = issued.command) := by
  obtain ⟨found, itself, carriedOut⟩ := performed
  rcases set_cases itself with ⟨rfl, rfl⟩ | ⟨_, kept⟩
  · obtain ⟨earlier, member, sameCaller, sameCommand, before⟩ :=
      PubSubNode.mem_markPerformed carriedOut
    rcases before rfl with already | itsPlace
    · left
      refine ⟨node, present, ?_⟩
      obtain ⟨_, _, isPerformed⟩ := earlier
      cases sameCaller
      cases sameCommand
      cases already
      exact member
    · right
      cases placed.symm.trans itsPlace
      exact ⟨sameCaller, sameCommand⟩
  · exact Or.inl ⟨found, kept, carriedOut⟩

/-- What the broker is asked for has a reason. -/
theorem founded_brokerCommand
    {index : ℕ} {consumerTag : String} {caller : Caller}
    {given : ConnectionCommand Buffer} {command : BrokerCommand Buffer}
    (asked : brokerCommand index consumerTag caller given = some command)
    (performed : system.HasPerformed index caller given) :
    system.Founded command := by
  unfold brokerCommand at asked
  split at asked
  · cases asked
    exact ⟨by simp, by simp, by simp⟩
  · cases asked
    exact ⟨by simp, by simp, by simp⟩
  · rename_i call queue exchange routingKey
    cases asked
    refine ⟨?_, by simp, by simp⟩
    intro binding same
    cases same
    exact ⟨index, call, routingKey, performed, rfl⟩
  · cases asked
    refine ⟨by simp, ?_, by simp⟩
    intro queue consumer same
    cases same
    exact performed
  · cases asked
    exact ⟨by simp, by simp, by simp⟩
  · rename_i publication exchange dataBuffer routingKey
    cases asked
    refine ⟨by simp, by simp, ?_⟩
    intro exchange key message same
    cases same
    exact ⟨routingKey, performed, rfl⟩
  · cases asked

/-- An assertion that has just been carried out has declared its exchange. -/
theorem declared_of_asserted [DecidableEq Buffer]
    {index : ℕ} {consumerTag exchange : String} {caller : Caller}
    {type : ExchangeType} {durable autoDelete : Bool}
    {command : BrokerCommand Buffer} {broker following : Broker Buffer}
    (asked :
      brokerCommand index consumerTag caller
          (.setup (.assertExchange exchange type durable autoDelete)) =
        some command)
    (stepped : broker.step covers command = some following) :
    following.exchanges exchange = some type := by
  cases asked
  simp only [ExchangeBroker.step] at stepped
  split at stepped
  · rename_i declared present
    split at stepped
    · rename_i same
      cases stepped
      rw [← same]
      exact present
    · cases stepped
  · cases stepped
    exact Function.update_self _ _ _

/-- What a step of the system is. -/
inductive Moves [DecidableEq Buffer]
    (config : PubSubConfig Buffer V)
    (covers : ExchangeType → String → String → Bool)
    (system : PubSubSystem Buffer V) :
    PubSubEvent Buffer V → PubSubSystem Buffer V → Prop where
  | started :
      Moves config covers system .started
        { system with nodes := system.nodes ++ [.create] }
  | node {index : ℕ} {event : NodeEvent V} {node later : PubSubNode Buffer V}
      (present : system.nodes[index]? = some node)
      (moved : node.step config event = some later) :
      Moves config covers system (.node index event)
        { system with nodes := system.nodes.set index later }
  | performed {index place : ℕ} {consumerTag : String}
      {node : PubSubNode Buffer V} {issued : IssuedCommand Buffer}
      {command : BrokerCommand Buffer} {broker : Broker Buffer}
      (present : system.nodes[index]? = some node)
      (placed : node.commands[place]? = some issued)
      (asked :
        brokerCommand index consumerTag issued.caller issued.command =
          some command)
      (taken : system.broker.step covers command = some broker) :
      Moves config covers system (.performed index place consumerTag)
        ⟨system.nodes.set index (node.markPerformed place), broker,
          system.published ++ publishedBy command⟩
  /-- What the broker does on its own account has no need of a reason. -/
  | ownAccount {event : PubSubEvent Buffer V} {command : BrokerCommand Buffer}
      {broker : Broker Buffer}
      (taken : system.broker.step covers command = some broker)
      (founded : ∀ later : PubSubSystem Buffer V, later.Founded command)
      (deletes :
        ∀ queue, command = .deleteQueue queue → event = .queueDeleted queue) :
      Moves config covers system event
        { system with
          broker := broker
          published := system.published ++ publishedBy command }

theorem moves_of_perform [DecidableEq Buffer]
    {event : PubSubEvent Buffer V} {command : BrokerCommand Buffer}
    (performed : system.perform covers command = some next)
    (founded : ∀ later : PubSubSystem Buffer V, later.Founded command)
    (deletes :
      ∀ queue, command = .deleteQueue queue → event = .queueDeleted queue) :
    Moves config covers system event next := by
  obtain ⟨broker, taken, rfl⟩ := Option.map_eq_some_iff.mp performed
  exact .ownAccount taken founded deletes

theorem moves_of_step [DecidableEq Buffer]
    {event : PubSubEvent Buffer V}
    (stepped : system.step config covers event = some next) :
    Moves config covers system event next := by
  cases event with
  | started =>
      cases stepped
      exact .started
  | node index event =>
      simp only [step] at stepped
      split at stepped
      · rename_i node present
        obtain ⟨later, moved, rfl⟩ := Option.map_eq_some_iff.mp stepped
        exact .node present moved
      · cases stepped
  | performed index place consumerTag =>
      simp only [step] at stepped
      split at stepped
      · rename_i node present
        split at stepped
        · rename_i issued placed
          obtain ⟨command, asked, performed⟩ := Option.bind_eq_some_iff.mp stepped
          obtain ⟨broker, taken, rfl⟩ := Option.map_eq_some_iff.mp performed
          exact .performed present placed asked taken
        · cases stepped
      · cases stepped
  | consumersGone isGone =>
      exact moves_of_perform stepped (fun _ => ⟨by simp, by simp, by simp⟩) (by simp)
  | delivered queue consumer =>
      exact moves_of_perform stepped (fun _ => ⟨by simp, by simp, by simp⟩) (by simp)
  | dropped queue message =>
      exact moves_of_perform stepped (fun _ => ⟨by simp, by simp, by simp⟩) (by simp)
  | queueDeleted queue =>
      exact moves_of_perform stepped (fun _ => ⟨by simp, by simp, by simp⟩)
        (by simp)

theorem Consistent.performs [DecidableEq Buffer]
    (consistent : system.Consistent config covers)
    {index place : ℕ} {consumerTag : String} {node : PubSubNode Buffer V}
    {issued : IssuedCommand Buffer} {command : BrokerCommand Buffer}
    {broker : Broker Buffer}
    (present : system.nodes[index]? = some node)
    (placed : node.commands[place]? = some issued)
    (asked :
      brokerCommand index consumerTag issued.caller issued.command =
        some command)
    (taken : system.broker.step covers command = some broker) :
    Consistent config covers
      (⟨system.nodes.set index (node.markPerformed place), broker,
        system.published ++ publishedBy command⟩ : PubSubSystem Buffer V) := by
  have follows := ExchangeBroker.follows_of_step taken
  have grows := PubSubNode.grows_markPerformed node place
  have inside := (List.getElem?_eq_some_iff.mp present).1
  refine
    consistent.takes taken (extends_set present grows _ _) rfl ?_ ?_ ?_
  · intro other found itself
    rcases set_cases itself with ⟨_, rfl⟩ | ⟨_, kept⟩
    · exact (consistent.nodes index node present).marks place
    · exact consistent.nodes other found kept
  · intro other caller exchange type durable autoDelete performed
    rcases performed_marked present placed performed with earlier | ⟨itsCaller, same⟩
    · exact follows.exchanges exchange type
        (consistent.exchanges other caller exchange type durable autoDelete
          earlier)
    · rw [← itsCaller, ← same] at asked
      exact declared_of_asserted asked taken
  · apply founded_brokerCommand asked
    exact ⟨node.markPerformed place, List.getElem?_set_self inside,
      PubSubNode.isPerformed_markPerformed placed⟩

/-- Every step keeps the system consistent, and takes nothing back. -/
theorem Consistent.step [DecidableEq Buffer]
    {event : PubSubEvent Buffer V}
    (consistent : system.Consistent config covers)
    (moves : Moves config covers system event next) :
    Extends system next ∧ next.Consistent config covers := by
  cases moves with
  | started =>
      refine ⟨extends_append system, ?_⟩
      apply consistent.moves (extends_append system) rfl rfl
      · intro index node present
        rcases concat_cases present with earlier | ⟨_, rfl⟩
        · exact consistent.nodes index node earlier
        · exact PubSubNode.consistent_create
      · rintro index caller command ⟨node, present, performed⟩
        rcases concat_cases present with earlier | ⟨_, rfl⟩
        · exact ⟨node, earlier, performed⟩
        · cases performed
  | @node index event node later present moved =>
      obtain ⟨grows, kept⟩ := (consistent.nodes index node present).step moved
      refine ⟨extends_set present grows _ _, ?_⟩
      apply consistent.moves (extends_set present grows _ _) rfl rfl
      · intro other found itself
        rcases set_cases itself with ⟨_, rfl⟩ | ⟨_, unchanged⟩
        · exact kept
        · exact consistent.nodes other found unchanged
      · rintro other caller command ⟨found, itself, performed⟩
        rcases set_cases itself with ⟨rfl, rfl⟩ | ⟨_, unchanged⟩
        · exact ⟨node, present, PubSubNode.performed_of_step moved performed⟩
        · exact ⟨found, unchanged, performed⟩
  | @performed index place consumerTag node issued command broker present placed
      asked taken =>
      exact ⟨extends_set present (PubSubNode.grows_markPerformed node place) _ _,
        consistent.performs present placed asked taken⟩
  | @ownAccount event command broker taken founded deletes =>
      have follows := ExchangeBroker.follows_of_step taken
      have extends_ :
          Extends system
            { system with
              broker := broker
              published := system.published ++ publishedBy command } :=
        extends_refl system
      refine ⟨extends_, consistent.takes taken extends_ rfl consistent.nodes ?_
        (founded _)⟩
      intro index caller exchange type durable autoDelete performed
      exact follows.exchanges exchange type
        (consistent.exchanges index caller exchange type durable autoDelete
          performed)

theorem consistent_run [DecidableEq Buffer]
    {schedule : List (PubSubEvent Buffer V)}
    (execution :
      (machine config covers).run create schedule = some system) :
    system.Consistent config covers := by
  have preserved :
      (machine config covers).Preserved (Consistent config covers) := by
    intro state event following consistent stepped
    exact (consistent.step (moves_of_step stepped)).2
  exact Machine.run_invariant preserved consistent_create execution

end PubSubSystem

end Amq.PubSub
