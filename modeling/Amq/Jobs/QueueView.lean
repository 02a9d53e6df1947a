import Amq.Jobs.JobTopology
import Amq.Transition.Simulation

/-!
# One job queue of a network

What a network shows of one job queue: its clients and servers, with the copies
in this queue and in the retry queues that lead to it.
-/


namespace Amq.Jobs.JobNetwork

open Function Amq.Transition Amq.Broker

variable {ι κ Buffer V : Type}
variable [DecidableEq ι] [DecidableEq κ] [DecidableEq Buffer] [DecidableEq V]

/-- The servers of a job queue. -/
abbrev ServerOf (config : JobNetworkConfig ι Buffer V) (queue : String) : Type :=
  { server : ι // config.queue server = queue }

def configOf (config : JobNetworkConfig ι Buffer V) (queue : String) :
    ServerOf config queue → JobServerConfig Buffer V :=
  fun server => config.server server.val

def isNamed (queue name : String) : Bool :=
  decide (name = queue)

/-- The dead letters of the retry queue go to the job queue. -/
def leadsTo (broker : JobBroker ι κ Buffer) (queue name : String) : Bool :=
  match broker.declared name with
  | some (some address) => decide (address.key = queue)
  | _ => false

variable {config : JobNetworkConfig ι Buffer V} {queue : String}

/-- A retry of a server of the queue, as one of the network. -/
def ofNetwork (retry : AcceptedRetry (ServerOf config queue) κ Buffer) :
    AcceptedRetry ι κ Buffer where
  server := retry.server.val
  run := retry.run
  call := retry.call
  message := retry.message

omit [DecidableEq ι] [DecidableEq Buffer] [DecidableEq V] in
theorem exists_serverOf
    {server : ι} (own : config.queue server = queue) :
    ∃ itsServer : ServerOf config queue, itsServer.val = server :=
  ⟨⟨server, own⟩, rfl⟩

omit [DecidableEq ι] [DecidableEq κ] [DecidableEq Buffer] [DecidableEq V] in
theorem exists_ofNetwork
    {retry : AcceptedRetry ι κ Buffer} (own : config.queue retry.server = queue) :
    ∃ itsRetry : AcceptedRetry (ServerOf config queue) κ Buffer,
      ofNetwork itsRetry = retry :=
  ⟨⟨⟨retry.server, own⟩, retry.run, retry.call, retry.message⟩, rfl⟩

def deliveryOfNetwork
    (entry : (ServerOf config queue × DeliveryTag) × Message κ Buffer) :
    (ι × DeliveryTag) × Message κ Buffer :=
  ((entry.1.1.val, entry.1.2), entry.2)

/-- The deliveries to the servers of the queue. -/
def pendingOf
    (config : JobNetworkConfig ι Buffer V) (queue : String)
    (pending : List ((ι × DeliveryTag) × String × Message κ Buffer)) :
    List ((ι × DeliveryTag) × Message κ Buffer) :=
  (pending.filter fun entry => config.queue entry.1.1 = queue).map fun entry =>
    (entry.1, entry.2.2)

/-- The system of the queue as it is seen in the network. -/
structure Shows
    (config : JobNetworkConfig ι Buffer V) (queue : String)
    (network : JobNetwork ι κ Buffer V)
    (system : JobSystem (ServerOf config queue) κ Buffer V) : Prop where
  topology : Topology config network.broker
  servers : ∀ server, system.servers server = network.servers server.val
  ready :
    system.queue.ready.Perm
      (NamedQueues.messagesIn (isNamed queue) network.broker.ready)
  delayed :
    system.queue.delayed.Perm
      (NamedQueues.messagesIn (leadsTo network.broker queue)
        network.broker.ready)
  pending :
    system.queue.unacknowledged.map deliveryOfNetwork =
      pendingOf config queue network.broker.unacknowledged
  tags :
    ∀ tag ∈ system.queue.tags,
      ∃ delivery ∈ (network.servers tag.1.val).deliveries, delivery.tag = tag.2
  enqueued :
    system.enqueued =
      NamedQueues.messagesIn (isNamed queue) network.enqueued
  expiring :
    system.expiring =
      NamedQueues.messagesIn (isNamed queue) network.expiring
  expired :
    system.expired = NamedQueues.messagesIn (isNamed queue) network.expired
  accepted :
    ∀ retry, retry ∈ system.accepted ↔ ofNetwork retry ∈ network.accepted

omit [DecidableEq ι] [DecidableEq κ] [DecidableEq Buffer] [DecidableEq V] in
theorem shows_create
    (config : JobNetworkConfig ι Buffer V) (queue : String) :
    Shows config queue (create config : JobNetwork ι κ Buffer V)
      (.create (configOf config queue)) where
  topology := topology_empty config
  servers server := rfl
  ready := .refl []
  delayed := .refl []
  pending := rfl
  tags tag member := by cases member
  enqueued := rfl
  expiring := rfl
  expired := rfl
  accepted retry := by simp [create, JobSystem.create]

variable {network next : JobNetwork ι κ Buffer V}
variable {system : JobSystem (ServerOf config queue) κ Buffer V}

/-- The system takes some steps and is shown by the network afterwards. -/
def Matches
    (config : JobNetworkConfig ι Buffer V) (queue : String)
    (network next : JobNetwork ι κ Buffer V) (event : JobNetworkEvent ι κ Buffer V)
    (system : JobSystem (ServerOf config queue) κ Buffer V) : Prop :=
  ∃ schedule system',
    (JobSystem.machine (configOf config queue)).run system schedule =
        some system' ∧
      Shows config queue next system' ∧
      (network.Orderly config event →
        (JobSystem.machine (configOf config queue)).Throughout JobSystem.Orderly
          system schedule)

theorem Shows.silently
    {event : JobNetworkEvent ι κ Buffer V}
    (shown : Shows config queue next system) :
    Matches config queue network next event system :=
  ⟨[], system, rfl, shown, fun _ => trivial⟩

theorem Shows.by_step
    {event : JobNetworkEvent ι κ Buffer V}
    {system' : JobSystem (ServerOf config queue) κ Buffer V}
    {own : JobSystemEvent (ServerOf config queue) κ Buffer V}
    (shown : Shows config queue next system')
    (stepped : system.step (configOf config queue) own = some system')
    (orderly : network.Orderly config event → system.Orderly own) :
    Matches config queue network next event system := by
  refine ⟨[own], system', ?_, shown, ?_⟩
  · rw [Machine.run_singleton]
    exact stepped
  · intro itsOrder
    exact Machine.throughout_cons (orderly itsOrder) stepped trivial

/-! ## Other queues -/

omit [DecidableEq ι] [DecidableEq κ] [DecidableEq Buffer] [DecidableEq V] in
/-- The broker changes, but not for the queue. -/
theorem Shows.elsewhere
    {broker : JobBroker ι κ Buffer}
    (shown : Shows config queue network system)
    (topology : Topology config broker)
    (ready :
      (NamedQueues.messagesIn (isNamed queue) broker.ready).Perm
        (NamedQueues.messagesIn (isNamed queue)
          network.broker.ready))
    (delayed :
      (NamedQueues.messagesIn (leadsTo broker queue) broker.ready).Perm
        (NamedQueues.messagesIn (leadsTo network.broker queue)
          network.broker.ready))
    (pending :
      pendingOf config queue broker.unacknowledged =
        pendingOf config queue network.broker.unacknowledged) :
    Shows config queue { network with broker := broker } system where
  topology := topology
  servers := shown.servers
  ready := shown.ready.trans ready.symm
  delayed := shown.delayed.trans delayed.symm
  pending := shown.pending.trans pending.symm
  tags := shown.tags
  enqueued := shown.enqueued
  expiring := shown.expiring
  expired := shown.expired
  accepted := shown.accepted

omit [DecidableEq ι] [DecidableEq κ] [DecidableEq Buffer] in
theorem leadsTo_of_plain
    {broker : JobBroker ι κ Buffer} {name : String}
    (plain : broker.declared name = some none) :
    leadsTo broker queue name = false := by
  simp [leadsTo, plain]

omit [DecidableEq ι] [DecidableEq κ] [DecidableEq Buffer] in
/-- Declaring or deleting an empty queue moves no message. -/
theorem delayed_update
    {broker : JobBroker ι κ Buffer} {name : String}
    (arguments : Option (Option (DeadLetterAddress String String)))
    (vacant : ∀ entry ∈ broker.ready, entry.1 ≠ name) :
    NamedQueues.messagesIn
        (leadsTo
          { broker with declared := update broker.declared name arguments }
          queue)
        broker.ready =
      NamedQueues.messagesIn (leadsTo broker queue) broker.ready := by
  apply NamedQueues.messagesIn_congr
  intro entry member
  simp only [leadsTo, update_of_ne (vacant entry member)]

omit [DecidableEq V] in
/-- A queue is declared. -/
theorem Shows.declare
    {name : String} {deadLetters : Option (DeadLetterAddress String String)}
    (shown : Shows config queue network system)
    (asked : Asks config network.broker (.declare name deadLetters))
    (stepped : network.stepBroker (.declare name deadLetters) = some next) :
    Shows config queue next system := by
  obtain ⟨broker, taken, rfl⟩ := Option.map_eq_some_iff.mp stepped
  have topology := shown.topology.step asked taken
  simp only [NamedQueues.step] at taken
  cases undeclared : network.broker.declared name with
  | some arguments =>
      simp only [undeclared, Option.ite_none_right_eq_some,
        Option.some.injEq] at taken
      obtain ⟨_, rfl⟩ := taken
      exact shown
  | none =>
      rw [undeclared] at taken
      cases taken
      refine shown.elsewhere topology (.refl _) ?_ rfl
      apply List.Perm.of_eq
      apply delayed_update
      intro entry member same
      have declared := shown.topology.ready entry member
      rw [same, undeclared] at declared
      cases declared

omit [DecidableEq V] in
/-- An empty retry queue is deleted. -/
theorem Shows.expire
    {name : String}
    (shown : Shows config queue network system)
    (isRetry : network.isRetryQueue name = true)
    (stepped : network.stepBroker (.delete name) = some next) :
    Shows config queue next system := by
  obtain ⟨broker, taken, rfl⟩ := Option.map_eq_some_iff.mp stepped
  obtain ⟨address, declared⟩ := isRetryQueue_iff.mp isRetry
  have asked : Asks config network.broker (.delete name) := ⟨address, declared⟩
  have topology := shown.topology.step asked taken
  have elsewhere := shown.topology.pending_elsewhere declared
  simp only [NamedQueues.step, Option.ite_none_right_eq_some,
    Option.some.injEq] at taken
  obtain ⟨isEmpty, rfl⟩ := taken
  refine shown.elsewhere topology (.refl _) (List.Perm.of_eq ?_) ?_
  · apply delayed_update
    intro entry member
    simpa using List.all_eq_true.mp isEmpty entry member
  · dsimp only
    rw [List.filter_eq_self.mpr (by simpa using elsewhere)]

/-! ## Servers -/

theorem serve_cases
    {server : ι} {event : JobServerEvent κ Buffer V}
    (served : network.serve config server event = some next) :
    ∃ after,
      (network.servers server).step (config.server server) event = some after ∧
        next = { network with servers := update network.servers server after } := by
  obtain ⟨after, stepped, same⟩ := Option.map_eq_some_iff.mp served
  exact ⟨after, stepped, same.symm⟩

/-- The servers keep their deliveries. -/
theorem Shows.tags_update
    (shown : Shows config queue network system)
    {server : ι} {event : JobServerEvent κ Buffer V} {after : JobServer κ Buffer V}
    (stepped :
      (network.servers server).step (config.server server) event = some after) :
    ∀ tag ∈ system.queue.tags,
      ∃ delivery ∈ (update network.servers server after tag.1.val).deliveries,
        delivery.tag = tag.2 := by
  intro tag member
  obtain ⟨delivery, known, itsTag⟩ := shown.tags tag member
  refine ⟨delivery, ?_, itsTag⟩
  by_cases same : tag.1.val = server
  · rw [same] at known ⊢
    rw [update_self]
    exact (JobSystem.continues_of_step stepped).delivered delivery known
  · rw [update_of_ne same]
    exact known

/-- A server of the queue takes a step, in the network and in the system. -/
theorem Shows.serve
    (shown : Shows config queue network system)
    {server : ServerOf config queue} {event : JobServerEvent κ Buffer V}
    (served : network.serve config server.val event = some next) :
    ∃ after,
      system.serve (configOf config queue) server event =
          some { system with servers := update system.servers server after } ∧
        next =
          { network with
            servers := update network.servers server.val after } ∧
        Shows config queue next
          { system with servers := update system.servers server after } := by
  obtain ⟨after, stepped, rfl⟩ := serve_cases served
  refine ⟨after, ?_, rfl, ?_⟩
  · unfold JobSystem.serve
    rw [shown.servers server]
    unfold configOf
    rw [stepped]
    rfl
  · refine
      { topology := shown.topology
        servers := ?_
        ready := shown.ready
        delayed := shown.delayed
        pending := shown.pending
        tags := shown.tags_update stepped
        enqueued := shown.enqueued
        expiring := shown.expiring
        expired := shown.expired
        accepted := shown.accepted }
    intro other
    by_cases same : other = server
    · subst same
      simp
    · have different : other.val ≠ server.val := fun equal => same (Subtype.ext equal)
      dsimp only
      rw [update_of_ne same, update_of_ne different]
      exact shown.servers other

/-- The servers of other queues do not belong to the system. -/
theorem Shows.serve_elsewhere
    (shown : Shows config queue network system)
    {server : ι} {event : JobServerEvent κ Buffer V}
    (other : config.queue server ≠ queue)
    (served : network.serve config server event = some next) :
    Shows config queue next system := by
  obtain ⟨after, stepped, rfl⟩ := serve_cases served
  refine
    { topology := shown.topology
      servers := ?_
      ready := shown.ready
      delayed := shown.delayed
      pending := shown.pending
      tags := shown.tags_update stepped
      enqueued := shown.enqueued
      expiring := shown.expiring
      expired := shown.expired
      accepted := shown.accepted }
  intro own
  have different : own.val ≠ server := by
    intro same
    exact other (same ▸ own.property)
  dsimp only
  rw [update_of_ne different]
  exact shown.servers own

/-! ## Messages of clients -/

omit [DecidableEq ι] [DecidableEq κ] [DecidableEq Buffer] [DecidableEq V] in
/-- A job queue is bound under its name and no other queue is. -/
theorem ready_publish
    {broker : JobBroker ι κ Buffer} {exchange name : String}
    (topology : Topology config broker)
    (bound : ⟨name, exchange, name⟩ ∈ broker.bindings)
    (message : Message κ Buffer) :
    (broker.publish exchange name message).ready =
      broker.ready ++ [(name, message)] := by
  have only :
      ∀ other, ⟨other, exchange, name⟩ ∈ broker.bindings → other = name := by
    intro other member
    exact (topology.bound _ member).1.symm
  unfold NamedQueues.publish
  rw [NamedQueues.targets_eq_singleton bound only]
  rfl

omit [DecidableEq κ] [DecidableEq Buffer] in
/-- The messages of the queue among those that were published with `expireMs`. -/
theorem messagesIn_expiring
    (name : String) (message : Message κ Buffer) (expires : Bool)
    (entries : List (String × Message κ Buffer)) :
    NamedQueues.messagesIn (isNamed queue)
        (if expires then (name, message) :: entries else entries) =
      if isNamed queue name && expires then
        message :: NamedQueues.messagesIn (isNamed queue) entries
      else
        NamedQueues.messagesIn (isNamed queue) entries := by
  cases expires <;> by_cases own : name = queue <;>
    simp [NamedQueues.messagesIn, isNamed, own]

theorem Shows.enqueue
    {exchange name : String} {message : Message κ Buffer} {expires : Bool}
    (shown : Shows config queue network system)
    (stepped :
      network.step config (.enqueued exchange name message expires) =
        some next) :
    Matches config queue network next (.enqueued exchange name message expires)
      system := by
  simp only [step, Option.ite_none_right_eq_some] at stepped
  obtain ⟨bound, stepped⟩ := stepped
  cases stepped
  have published := ready_publish shown.topology bound message
  have plain : network.broker.declared name = some none :=
    (shown.topology.bound _ bound).2
  have topology := shown.topology.publish exchange name message
  have undelayed :
      NamedQueues.messagesIn
          (leadsTo (network.broker.publish exchange name message) queue)
          (network.broker.publish exchange name message).ready =
        NamedQueues.messagesIn (leadsTo network.broker queue)
          network.broker.ready := by
    have rejected : leadsTo network.broker queue name = false :=
      leadsTo_of_plain plain
    rw [published, NamedQueues.messagesIn_append]
    change
      _ ++ NamedQueues.messagesIn (leadsTo network.broker queue) _ = _
    rw [NamedQueues.messagesIn_singleton_of_rejects rejected, List.append_nil]
    rfl
  by_cases own : name = queue
  · subst own
    have itsName : isNamed name name = true := decide_eq_true rfl
    have stepped :
        system.step (configOf config name) (.enqueued message expires) =
          some
            { system with
              queue :=
                { system.queue with
                  ready := system.queue.ready ++ [message]
                  published := message :: system.queue.published }
              enqueued := message :: system.enqueued
              expiring :=
                if expires then message :: system.expiring
                else system.expiring } :=
      rfl
    refine Shows.by_step ?_ stepped (fun _ => trivial)
    refine
      { topology := topology
        servers := shown.servers
        ready := ?_
        delayed := shown.delayed.trans (List.Perm.of_eq undelayed.symm)
        pending := shown.pending
        tags := shown.tags
        enqueued := ?_
        expiring := ?_
        expired := shown.expired
        accepted := shown.accepted }
    · dsimp only
      rw [published, NamedQueues.messagesIn_append,
        NamedQueues.messagesIn_singleton_of_accepts itsName]
      exact shown.ready.append_right [message]
    · dsimp only
      rw [shown.enqueued]
      simp [NamedQueues.messagesIn, isNamed]
    · dsimp only
      rw [messagesIn_expiring, shown.expiring, itsName, Bool.true_and]
  · have other : isNamed queue name = false := decide_eq_false own
    refine Shows.silently ?_
    refine
      { topology := topology
        servers := shown.servers
        ready := ?_
        delayed := shown.delayed.trans (List.Perm.of_eq undelayed.symm)
        pending := shown.pending
        tags := shown.tags
        enqueued := ?_
        expiring := ?_
        expired := shown.expired
        accepted := shown.accepted }
    · dsimp only
      rw [published, NamedQueues.messagesIn_append,
        NamedQueues.messagesIn_singleton_of_rejects other, List.append_nil]
      exact shown.ready
    · dsimp only
      rw [shown.enqueued]
      simp [NamedQueues.messagesIn, isNamed, own]
    · dsimp only
      rw [messagesIn_expiring, shown.expiring, other, Bool.false_and]
      rfl

/-- A message expires in its job queue. -/
theorem Shows.expireJob
    {name : String} {message : Message κ Buffer}
    (shown : Shows config queue network system)
    (stepped :
      network.step config (.jobExpired name message) = some next) :
    Matches config queue network next (.jobExpired name message) system := by
  simp only [step, Option.ite_none_right_eq_some] at stepped
  obtain ⟨⟨plain, expiring⟩, stepped⟩ := stepped
  obtain ⟨broker, taken, rfl⟩ := Option.map_eq_some_iff.mp stepped
  have asked : Asks config network.broker (.lose name message) := trivial
  have topology := shown.topology.step asked taken
  simp only [NamedQueues.step, Option.ite_none_right_eq_some,
    Option.some.injEq, List.contains_iff_mem] at taken expiring
  obtain ⟨present, rfl⟩ := taken
  have undelayed : leadsTo network.broker queue name = false :=
    leadsTo_of_plain plain
  have delayed :
      system.queue.delayed.Perm
        (NamedQueues.messagesIn (leadsTo network.broker queue)
          (network.broker.ready.erase (name, message))) :=
    shown.delayed.trans
      (NamedQueues.messagesIn_erase_of_rejects undelayed).symm
  by_cases own : name = queue
  · subst own
    have itsName : isNamed name name = true := decide_eq_true rfl
    have isExpiring : system.expiring.contains message = true := by
      rw [List.contains_iff_mem, shown.expiring]
      exact NamedQueues.mem_messagesIn_iff.mpr ⟨name, itsName, expiring⟩
    have isReady : message ∈ system.queue.ready :=
      shown.ready.mem_iff.mpr
        (NamedQueues.mem_messagesIn_iff.mpr ⟨name, itsName, present⟩)
    have expired :
        system.queue.step (.expire message) =
          some
            { system.queue with
              ready := system.queue.ready.erase message
              lost := message :: system.queue.lost } :=
      if_pos isReady
    have stepped :
        system.step (configOf config name) (.jobExpired message) =
          some
            { system with
              queue :=
                { system.queue with
                  ready := system.queue.ready.erase message
                  lost := message :: system.queue.lost }
              expired := message :: system.expired } := by
      simp only [JobSystem.step, if_pos isExpiring, JobSystem.stepQueue, expired]
      rfl
    refine Shows.by_step ?_ stepped (fun _ => trivial)
    refine
      { topology := topology
        servers := shown.servers
        ready := ?_
        delayed := delayed
        pending := shown.pending
        tags := shown.tags
        enqueued := shown.enqueued
        expiring := shown.expiring
        expired := ?_
        accepted := shown.accepted }
    · exact (shown.ready.erase message).trans
        (NamedQueues.messagesIn_erase_of_accepts itsName present).symm
    · dsimp only
      rw [shown.expired]
      simp [NamedQueues.messagesIn, isNamed]
  · have other : isNamed queue name = false := decide_eq_false own
    refine Shows.silently ?_
    refine
      { topology := topology
        servers := shown.servers
        ready := ?_
        delayed := delayed
        pending := shown.pending
        tags := shown.tags
        enqueued := shown.enqueued
        expiring := shown.expiring
        expired := ?_
        accepted := shown.accepted }
    · exact shown.ready.trans
        (NamedQueues.messagesIn_erase_of_rejects other).symm
    · dsimp only
      rw [shown.expired]
      simp [NamedQueues.messagesIn, isNamed, own]

/-! ## Deliveries -/

omit [DecidableEq ι] [DecidableEq κ] [DecidableEq Buffer] [DecidableEq V] in
theorem pendingOf_cons_of_own
    (server : ServerOf config queue) (tag : DeliveryTag) (name : String)
    (message : Message κ Buffer)
    (pending : List ((ι × DeliveryTag) × String × Message κ Buffer)) :
    pendingOf config queue (((server.val, tag), name, message) :: pending) =
      ((server.val, tag), message) :: pendingOf config queue pending := by
  simp [pendingOf, server.property]

section

omit [DecidableEq V]

theorem stepQueue_eq
    {event : WorkQueueEvent (ServerOf config queue × DeliveryTag) (Message κ Buffer)}
    {following :
      WorkQueue (ServerOf config queue × DeliveryTag) (Message κ Buffer)}
    (taken : system.queue.step event = some following) :
    system.stepQueue event = some { system with queue := following } := by
  unfold JobSystem.stepQueue
  rw [taken]
  rfl

theorem Shows.deliver
    {server : ServerOf config queue} {message : Message κ Buffer}
    {tag : DeliveryTag}
    (shown : Shows config queue network system)
    (stepped :
      network.stepBroker
        (.deliver (server.val, tag) (config.queue server.val) message) =
          some next)
    (fresh : (server, tag) ∉ system.queue.tags)
    (known :
      ∃ delivery ∈ (network.servers server.val).deliveries, delivery.tag = tag) :
    ∃ system', system.stepQueue (.deliver (server, tag) message) = some system' ∧
      Shows config queue next system' := by
  obtain ⟨broker, taken, rfl⟩ := Option.map_eq_some_iff.mp stepped
  have asked :
      Asks config network.broker
        (.deliver (server.val, tag) (config.queue server.val) message) :=
    rfl
  have topology := shown.topology.step asked taken
  simp only [NamedQueues.step, Option.ite_none_right_eq_some,
    Option.some.injEq, List.contains_iff_mem] at taken
  obtain ⟨⟨present, _⟩, rfl⟩ := taken
  have itsName : isNamed queue (config.queue server.val) = true :=
    decide_eq_true server.property
  have plain : leadsTo network.broker queue (config.queue server.val) = false :=
    leadsTo_of_plain
      (shown.topology.declared_of_queue (shown.topology.ready _ present))
  have isReady : message ∈ system.queue.ready :=
    shown.ready.mem_iff.mpr
      (NamedQueues.mem_messagesIn_iff.mpr ⟨_, itsName, present⟩)
  have delivered :
      system.queue.step (.deliver (server, tag) message) =
        some
          { system.queue with
            ready := system.queue.ready.erase message
            unacknowledged :=
              ((server, tag), message) :: system.queue.unacknowledged } :=
    if_pos ⟨isReady, fresh⟩
  refine ⟨_, stepQueue_eq delivered, ?_⟩
  refine
    { topology := topology
      servers := shown.servers
      ready := ?_
      delayed := ?_
      pending := ?_
      tags := ?_
      enqueued := shown.enqueued
      expiring := shown.expiring
      expired := shown.expired
      accepted := shown.accepted }
  · exact (shown.ready.erase message).trans
      (NamedQueues.messagesIn_erase_of_accepts itsName present).symm
  · exact shown.delayed.trans
      (NamedQueues.messagesIn_erase_of_rejects plain).symm
  · dsimp only
    rw [pendingOf_cons_of_own, List.map_cons, shown.pending]
    rfl
  · intro other member
    rcases List.mem_cons.mp member with rfl | old
    · exact known
    · exact shown.tags other old

theorem Shows.deliver_elsewhere
    {server : ι} {message : Message κ Buffer} {tag : DeliveryTag}
    (shown : Shows config queue network system)
    (other : config.queue server ≠ queue)
    (stepped :
      network.stepBroker
        (.deliver (server, tag) (config.queue server) message) = some next) :
    Shows config queue next system := by
  obtain ⟨broker, taken, rfl⟩ := Option.map_eq_some_iff.mp stepped
  have asked :
      Asks config network.broker
        (.deliver (server, tag) (config.queue server) message) :=
    rfl
  have topology := shown.topology.step asked taken
  simp only [NamedQueues.step, Option.ite_none_right_eq_some,
    Option.some.injEq, List.contains_iff_mem] at taken
  obtain ⟨⟨present, _⟩, rfl⟩ := taken
  have itsName : isNamed queue (config.queue server) = false :=
    decide_eq_false other
  have plain : leadsTo network.broker queue (config.queue server) = false :=
    leadsTo_of_plain
      (shown.topology.declared_of_queue (shown.topology.ready _ present))
  refine shown.elsewhere topology ?_ ?_ ?_
  · exact NamedQueues.messagesIn_erase_of_rejects itsName
  · exact NamedQueues.messagesIn_erase_of_rejects plain
  · unfold pendingOf
    rw [List.filter_cons_of_neg (by simpa using other)]

end

theorem fresh_jobMessage
    {serverConfig : JobServerConfig Buffer V} {before after : JobServer κ Buffer V}
    {message : Message κ Buffer} {tag : DeliveryTag}
    (stepped : before.step serverConfig (.jobMessage message tag) = some after) :
    tag ∉ before.deliveries.map Delivery.tag := by
  simp only [JobServer.step, Option.ite_none_right_eq_some] at stepped
  exact stepped.1.2.2

/-- A server of the queue handles the message that the queue delivers. -/
theorem Shows.take
    {server : ServerOf config queue} {message : Message κ Buffer}
    {tag : DeliveryTag}
    (shown : Shows config queue network system)
    (stepped :
      network.step config (.delivered server.val message tag) = some next) :
    Matches config queue network next (.delivered server.val message tag)
      system := by
  simp only [step] at stepped
  obtain ⟨known, first, rest⟩ := Option.bind_eq_some_iff.mp stepped
  obtain ⟨handled, second, last⟩ := Option.bind_eq_some_iff.mp rest
  obtain ⟨told, firstOwn, _, toldShown⟩ := shown.serve first
  obtain ⟨took, secondOwn, _, tookShown⟩ := toldShown.serve second
  obtain ⟨after, taken, rfl⟩ := serve_cases second
  have fresh : (server, tag) ∉ system.queue.tags := by
    intro member
    obtain ⟨delivery, present, itsTag⟩ := toldShown.tags (server, tag) member
    exact fresh_jobMessage taken (List.mem_map.mpr ⟨delivery, present, itsTag⟩)
  have itsDelivery :
      ∃ delivery ∈
          (update known.servers server.val after server.val).deliveries,
        delivery.tag = tag := by
    rw [update_self]
    exact ⟨_, JobSystem.mem_deliveries_jobMessage taken, rfl⟩
  obtain ⟨system', lastOwn, shown'⟩ := tookShown.deliver last fresh itsDelivery
  have own :
      system.step (configOf config queue) (.delivered server message tag) =
        some system' := by
    simp only [JobSystem.step]
    apply Option.bind_eq_some_iff.mpr
    refine ⟨_, firstOwn, ?_⟩
    apply Option.bind_eq_some_iff.mpr
    exact ⟨_, secondOwn, lastOwn⟩
  exact shown'.by_step own fun _ => trivial

theorem Shows.take_elsewhere
    {server : ι} {message : Message κ Buffer} {tag : DeliveryTag}
    (shown : Shows config queue network system)
    (other : config.queue server ≠ queue)
    (stepped : network.step config (.delivered server message tag) = some next) :
    Shows config queue next system := by
  simp only [step] at stepped
  obtain ⟨known, first, rest⟩ := Option.bind_eq_some_iff.mp stepped
  obtain ⟨handled, second, last⟩ := Option.bind_eq_some_iff.mp rest
  have told := shown.serve_elsewhere other first
  exact (told.serve_elsewhere other second).deliver_elsewhere other last

end Amq.Jobs.JobNetwork
