import Amq.Jobs.QueueView

/-!
# Retries and acknowledgements of one job queue

A retry queue leads to the job queue that it is named after, and what is settled or
taken back from a server belongs to the queue of this server.
-/


namespace Amq.Jobs.JobNetwork

open Function Amq.Transition Amq.Broker

variable {ι κ Buffer V : Type}
variable [DecidableEq ι] [DecidableEq κ] [DecidableEq Buffer] [DecidableEq V]
variable {config : JobNetworkConfig ι Buffer V} {queue : String}
variable {network next : JobNetwork ι κ Buffer V}
variable {system : JobSystem (ServerOf config queue) κ Buffer V}

/-! ## Retries -/

omit [DecidableEq ι] [DecidableEq V] in
theorem hasSent_shown
    (shown : Shows config queue network system)
    (retry : AcceptedRetry (ServerOf config queue) κ Buffer) :
    system.hasSent (configOf config queue) retry =
      network.serverSystem.hasSent config.server (ofNetwork retry) := by
  unfold JobSystem.hasSent
  rw [shown.servers retry.server]
  rfl

omit [DecidableEq κ] [DecidableEq Buffer] [DecidableEq V] in
theorem isPossible_shown
    (shown : Shows config queue network system)
    (server : ServerOf config queue) (event : JobServerEvent κ Buffer V) :
    system.isPossible server event =
      network.serverSystem.isPossible server.val event := by
  unfold JobSystem.isPossible
  split
  · rfl
  · rfl
  · rename_i run call
    rw [Bool.eq_iff_iff, List.any_eq_true, List.any_eq_true]
    constructor
    · rintro ⟨retry, member, decided⟩
      obtain ⟨itsServer, itsRun, itsCall⟩ := of_decide_eq_true decided
      refine ⟨ofNetwork retry, (shown.accepted retry).mp member, ?_⟩
      exact decide_eq_true ⟨congrArg Subtype.val itsServer, itsRun, itsCall⟩
    · rintro ⟨⟨itsServer, itsRun, itsCall, message⟩, member, decided⟩
      obtain ⟨rfl, rfl, rfl⟩ := of_decide_eq_true decided
      exact ⟨⟨server, itsRun, itsCall, message⟩,
        (shown.accepted _).mpr member, decide_eq_true ⟨rfl, rfl, rfl⟩⟩
  · rfl

omit [DecidableEq ι] [DecidableEq κ] [DecidableEq Buffer] [DecidableEq V] in
/-- Retry queues are not called like the job queue. -/
theorem isNamed_of_isRetryQueue
    {name : String}
    (shown : Shows config queue network system)
    (apart : ∀ server delay, queue ≠ retryQueueName (config.queue server) delay)
    (isRetry : network.isRetryQueue name = true) :
    isNamed queue name = false := by
  obtain ⟨address, declared⟩ := isRetryQueue_iff.mp isRetry
  obtain ⟨server, delay, rfl, _⟩ := shown.topology.retry name address declared
  exact decide_eq_false (Ne.symm (apart server delay))

omit [DecidableEq ι] [DecidableEq κ] [DecidableEq Buffer] [DecidableEq V] in
/-- A retry queue leads to the job queue that it is named after. -/
theorem leadsTo_retryQueueName
    {broker : JobBroker ι κ Buffer} {server : ι} {delay : DelayText}
    {address : DeadLetterAddress String String}
    (topology : Topology config broker)
    (declared :
      broker.declared (retryQueueName (config.queue server) delay) =
        some (some address)) :
    leadsTo broker queue (retryQueueName (config.queue server) delay) =
      decide (config.queue server = queue) := by
  obtain ⟨other, itsDelay, sameName, rfl⟩ := topology.retry _ address declared
  have sameQueue := retryQueueName_inj sameName
  unfold leadsTo
  rw [declared, sameQueue]

/-- A message leaves its retry queue. -/
theorem Shows.lose
    {name : String} {message : Message κ Buffer}
    (shown : Shows config queue network system)
    (apart : ∀ server delay, queue ≠ retryQueueName (config.queue server) delay)
    (isRetry : network.isRetryQueue name = true)
    (stepped : network.stepBroker (.lose name message) = some next) :
    Matches config queue network next (.retryLost name message) system := by
  have itsName := isNamed_of_isRetryQueue shown apart isRetry
  obtain ⟨broker, taken, rfl⟩ := Option.map_eq_some_iff.mp stepped
  have asked : Asks config network.broker (.lose name message) := trivial
  have topology := shown.topology.step asked taken
  simp only [NamedQueues.step, Option.ite_none_right_eq_some,
    Option.some.injEq, List.contains_iff_mem] at taken
  obtain ⟨present, rfl⟩ := taken
  cases leads : leadsTo network.broker queue name with
  | false =>
      refine Shows.silently (shown.elsewhere topology ?_ ?_ rfl)
      · exact NamedQueues.messagesIn_erase_of_rejects itsName
      · exact NamedQueues.messagesIn_erase_of_rejects leads
  | true =>
      have isDelayed : message ∈ system.queue.delayed :=
        shown.delayed.mem_iff.mpr
          (NamedQueues.mem_messagesIn_iff.mpr ⟨name, leads, present⟩)
      have lost :
          system.queue.step (.lose message) =
            some
              { system.queue with
                delayed := system.queue.delayed.erase message
                lost := message :: system.queue.lost } :=
        if_pos isDelayed
      have own :
          system.step (configOf config queue) (.retryLost message) = _ :=
        stepQueue_eq lost
      refine Shows.by_step ?_ own id
      refine
        { topology := topology
          servers := shown.servers
          ready := ?_
          delayed := ?_
          pending := shown.pending
          tags := shown.tags
          enqueued := shown.enqueued
          expiring := shown.expiring
          expired := shown.expired
          accepted := shown.accepted }
      · exact shown.ready.trans
          (NamedQueues.messagesIn_erase_of_rejects itsName).symm
      · exact (shown.delayed.erase message).trans
          (NamedQueues.messagesIn_erase_of_accepts leads present).symm

omit [DecidableEq ι] [DecidableEq κ] [DecidableEq Buffer] [DecidableEq V] in
/-- A retry of the queue has been accepted. -/
theorem accepted_cons_of_own
    (shown : Shows config queue network system)
    (own : AcceptedRetry (ServerOf config queue) κ Buffer) :
    ∀ retry, retry ∈ own :: system.accepted ↔
      ofNetwork retry ∈ ofNetwork own :: network.accepted := by
  intro retry
  rw [List.mem_cons, List.mem_cons, shown.accepted]
  apply or_congr_left
  constructor
  · intro same
    rw [same]
  · intro same
    obtain ⟨⟨server, itsQueue⟩, run, call, message⟩ := retry
    obtain ⟨⟨server', itsQueue'⟩, run', call', message'⟩ := own
    simp only [ofNetwork, AcceptedRetry.mk.injEq] at same
    obtain ⟨rfl, rfl, rfl, rfl⟩ := same
    rfl

omit [DecidableEq ι] [DecidableEq κ] [DecidableEq Buffer] [DecidableEq V] in
theorem accepted_cons_elsewhere
    {retry : AcceptedRetry ι κ Buffer}
    (shown : Shows config queue network system)
    (other : config.queue retry.server ≠ queue) :
    ∀ own, own ∈ system.accepted ↔ ofNetwork own ∈ retry :: network.accepted := by
  intro own
  rw [List.mem_cons, shown.accepted]
  refine (or_iff_right ?_).symm
  intro same
  apply other
  rw [← same]
  exact own.server.property

theorem run_two
    {middle last : JobSystem (ServerOf config queue) κ Buffer V}
    {own own' : JobSystemEvent (ServerOf config queue) κ Buffer V}
    (first : system.step (configOf config queue) own = some middle)
    (second : middle.step (configOf config queue) own' = some last) :
    (JobSystem.machine (configOf config queue)).run system [own, own'] =
      some last := by
  apply Machine.run_cons_iff.mpr
  refine ⟨middle, first, ?_⟩
  rw [Machine.run_singleton]
  exact second

/-- The retry queue takes a retry of a server of the queue. -/
theorem Shows.accept_own
    {own : AcceptedRetry (ServerOf config queue) κ Buffer} {delay : DelayText}
    {broker : JobBroker ι κ Buffer}
    (shown : Shows config queue network system)
    (apart : ∀ server delay, queue ≠ retryQueueName (config.queue server) delay)
    (sent : network.serverSystem.hasSent config.server (ofNetwork own) = true)
    (taken :
      network.broker.step
        (.send (retryQueueName (config.queue own.server.val) delay)
          own.message) = some broker) :
    Matches config queue network
      { network with
        broker := broker
        accepted := ofNetwork own :: network.accepted }
      (.retryAccepted (ofNetwork own) delay) system := by
  have itsName :
      isNamed queue (retryQueueName (config.queue own.server.val) delay) = false :=
    decide_eq_false (Ne.symm (apart own.server.val delay))
  have asked :
      Asks config network.broker
        (.send (retryQueueName (config.queue own.server.val) delay)
          own.message) :=
    trivial
  have topology := shown.topology.step asked taken
  have ownSent : system.hasSent (configOf config queue) own = true :=
    (hasSent_shown shown own).trans sent
  have first :
      system.step (configOf config queue) (.retryAccepted own) =
        some
          { system with
            queue :=
              { system.queue with
                delayed := system.queue.delayed ++ [own.message]
                published := own.message :: system.queue.published }
            accepted := own :: system.accepted } :=
    if_pos ownSent
  simp only [NamedQueues.step] at taken
  by_cases declared :
      (network.broker.declared
        (retryQueueName (config.queue own.server.val) delay)).isSome = true
  · obtain ⟨address, itsArguments⟩ := shown.topology.retry_of_name declared
    have leads :
        leadsTo network.broker queue
          (retryQueueName (config.queue own.server.val) delay) = true :=
      (leadsTo_retryQueueName shown.topology itsArguments).trans
        (decide_eq_true own.server.property)
    rw [if_pos declared] at taken
    cases taken
    refine Shows.by_step ?_ first (fun _ => trivial)
    refine
      { topology := topology
        servers := shown.servers
        ready := ?_
        delayed := ?_
        pending := shown.pending
        tags := shown.tags
        enqueued := shown.enqueued
        expiring := shown.expiring
        expired := shown.expired
        accepted := accepted_cons_of_own shown own }
    · dsimp only
      rw [NamedQueues.messagesIn_append,
        NamedQueues.messagesIn_singleton_of_rejects itsName, List.append_nil]
      exact shown.ready
    · dsimp only
      rw [NamedQueues.messagesIn_append]
      change
        (system.queue.delayed ++ [own.message]).Perm
          (NamedQueues.messagesIn (leadsTo network.broker queue) _ ++
            NamedQueues.messagesIn (leadsTo network.broker queue) _)
      rw [NamedQueues.messagesIn_singleton_of_accepts leads]
      exact shown.delayed.append_right _
  · rw [if_neg declared] at taken
    cases taken
    have isDelayed :
        own.message ∈ system.queue.delayed ++ [own.message] := by simp
    have lost :
        WorkQueue.step
            { system.queue with
              delayed := system.queue.delayed ++ [own.message]
              published := own.message :: system.queue.published }
            (.lose own.message) =
          some
            { system.queue with
              delayed :=
                (system.queue.delayed ++ [own.message]).erase own.message
              published := own.message :: system.queue.published
              lost := own.message :: system.queue.lost } :=
      if_pos isDelayed
    have both :
        (JobSystem.machine (configOf config queue)).run system
            [.retryAccepted own, .retryLost own.message] = _ :=
      run_two first (stepQueue_eq lost)
    refine ⟨_, _, both, ?_, ?_⟩
    · refine
        { topology := topology
          servers := shown.servers
          ready := shown.ready
          delayed := ?_
          pending := shown.pending
          tags := shown.tags
          enqueued := shown.enqueued
          expiring := shown.expiring
          expired := shown.expired
          accepted := accepted_cons_of_own shown own }
      have back :
          ((system.queue.delayed ++ [own.message]).erase own.message).Perm
            system.queue.delayed := by
        have moved := (List.perm_append_singleton own.message
          system.queue.delayed).erase own.message
        rwa [List.erase_cons_head] at moved
      exact back.trans shown.delayed
    · intro orderly
      obtain ⟨address, itsArguments⟩ := isRetryQueue_iff.mp orderly
      refine absurd ?_ declared
      change (network.broker.declared
        (retryQueueName (config.queue (ofNetwork own).server) delay)).isSome = true
      rw [itsArguments]
      rfl

omit [DecidableEq V] in
/-- A retry of another queue. -/
theorem Shows.accept_elsewhere
    {retry : AcceptedRetry ι κ Buffer} {delay : DelayText}
    {broker : JobBroker ι κ Buffer}
    (shown : Shows config queue network system)
    (apart : ∀ server delay, queue ≠ retryQueueName (config.queue server) delay)
    (other : config.queue retry.server ≠ queue)
    (taken :
      network.broker.step
        (.send (retryQueueName (config.queue retry.server) delay)
          retry.message) = some broker) :
    Shows config queue
      { network with
        broker := broker
        accepted := retry :: network.accepted } system := by
  have itsName :
      isNamed queue (retryQueueName (config.queue retry.server) delay) = false :=
    decide_eq_false (Ne.symm (apart retry.server delay))
  have asked :
      Asks config network.broker
        (.send (retryQueueName (config.queue retry.server) delay)
          retry.message) :=
    trivial
  have topology := shown.topology.step asked taken
  have accepted :
      Shows config queue
        { network with accepted := retry :: network.accepted } system :=
    { shown with accepted := accepted_cons_elsewhere shown other }
  simp only [NamedQueues.step] at taken
  by_cases declared :
      (network.broker.declared
        (retryQueueName (config.queue retry.server) delay)).isSome = true
  · obtain ⟨address, itsArguments⟩ := shown.topology.retry_of_name declared
    have leads :
        leadsTo network.broker queue
          (retryQueueName (config.queue retry.server) delay) = false :=
      (leadsTo_retryQueueName shown.topology itsArguments).trans
        (decide_eq_false other)
    rw [if_pos declared] at taken
    cases taken
    refine accepted.elsewhere topology (List.Perm.of_eq ?_) (List.Perm.of_eq ?_)
      rfl
    · dsimp only
      rw [NamedQueues.messagesIn_append,
        NamedQueues.messagesIn_singleton_of_rejects itsName, List.append_nil]
    · dsimp only
      rw [NamedQueues.messagesIn_append]
      change
        _ ++ NamedQueues.messagesIn (leadsTo network.broker queue) _ =
          NamedQueues.messagesIn (leadsTo network.broker queue) _
      rw [NamedQueues.messagesIn_singleton_of_rejects leads, List.append_nil]
      rfl
  · rw [if_neg declared] at taken
    cases taken
    exact accepted

omit [DecidableEq ι] [DecidableEq κ] [DecidableEq Buffer] [DecidableEq V] in
/-- Without a binding for the key the message is dropped. -/
theorem publish_unbound
    {broker : JobBroker ι κ Buffer} {address : DeadLetterAddress String String}
    (topology : Topology config broker)
    (unbound : ⟨address.key, address.exchange, address.key⟩ ∉ broker.bindings)
    (message : Message κ Buffer) :
    broker.publish address.exchange address.key message = broker := by
  have nowhere :
      ∀ other, ⟨other, address.exchange, address.key⟩ ∉ broker.bindings := by
    intro other member
    have same : address.key = other := (topology.bound _ member).1
    rw [← same] at member
    exact unbound member
  unfold NamedQueues.publish
  rw [NamedQueues.targets_eq_nil nowhere, List.map_nil, List.append_nil]

/-- What a retry queue gives back goes to the job queue, if that is bound. -/
theorem Shows.deadLetter
    {name : String} {message : Message κ Buffer}
    (shown : Shows config queue network system)
    (apart : ∀ server delay, queue ≠ retryQueueName (config.queue server) delay)
    (stepped : network.stepBroker (.deadLetter name message) = some next) :
    Matches config queue network next (.retryDeadLettered name message) system := by
  obtain ⟨broker, taken, rfl⟩ := Option.map_eq_some_iff.mp stepped
  have asked : Asks config network.broker (.deadLetter name message) := trivial
  have topology := shown.topology.step asked taken
  simp only [NamedQueues.step] at taken
  split at taken
  case h_2 => cases taken
  case h_1 address declared =>
    simp only [Option.ite_none_right_eq_some, Option.some.injEq,
      List.contains_iff_mem] at taken
    obtain ⟨present, rfl⟩ := taken
    have isRetry : network.isRetryQueue name = true :=
      isRetryQueue_iff.mpr ⟨address, declared⟩
    have lost :
        network.broker.step (.lose name message) =
          some
            { network.broker with
              ready := network.broker.ready.erase (name, message) } :=
      if_pos (List.contains_iff_mem.mpr present)
    have askedLoss : Asks config network.broker (.lose name message) := trivial
    have erased := shown.topology.step askedLoss lost
    by_cases bound :
      ⟨address.key, address.exchange, address.key⟩ ∈ network.broker.bindings
    · have published := ready_publish erased bound message
      have rejected : leadsTo network.broker queue address.key = false :=
        leadsTo_of_plain (shown.topology.bound _ bound).2
      have leads :
          leadsTo network.broker queue name = decide (address.key = queue) := by
        unfold leadsTo
        rw [declared]
      have itsName := isNamed_of_isRetryQueue shown apart isRetry
      have delayed :
          NamedQueues.messagesIn (leadsTo network.broker queue)
              (network.broker.ready.erase (name, message) ++
                [(address.key, message)]) =
            NamedQueues.messagesIn (leadsTo network.broker queue)
              (network.broker.ready.erase (name, message)) := by
        rw [NamedQueues.messagesIn_append,
          NamedQueues.messagesIn_singleton_of_rejects rejected, List.append_nil]
      by_cases own : address.key = queue
      · have ownLeads : leadsTo network.broker queue name = true :=
          leads.trans (decide_eq_true own)
        have ownName : isNamed queue address.key = true := decide_eq_true own
        have isDelayed : message ∈ system.queue.delayed :=
          shown.delayed.mem_iff.mpr
            (NamedQueues.mem_messagesIn_iff.mpr ⟨name, ownLeads, present⟩)
        have back :
            system.queue.step (.deadLetter message) =
              some
                { system.queue with
                  delayed := system.queue.delayed.erase message
                  ready := system.queue.ready ++ [message] } :=
          if_pos isDelayed
        have stepped' :
            system.step (configOf config queue) (.retryDeadLettered message) = _ :=
          stepQueue_eq back
        refine Shows.by_step ?_ stepped' (fun _ => trivial)
        refine
          { topology := topology
            servers := shown.servers
            ready := ?_
            delayed := ?_
            pending := shown.pending
            tags := shown.tags
            enqueued := shown.enqueued
            expiring := shown.expiring
            expired := shown.expired
            accepted := shown.accepted }
        · dsimp only
          rw [published, NamedQueues.messagesIn_append,
            NamedQueues.messagesIn_singleton_of_accepts ownName]
          have remaining :
              (NamedQueues.messagesIn (isNamed queue)
                  (network.broker.ready.erase (name, message))).Perm
                (NamedQueues.messagesIn (isNamed queue) network.broker.ready) :=
            NamedQueues.messagesIn_erase_of_rejects itsName
          exact (shown.ready.trans remaining.symm).append_right [message]
        · dsimp only
          rw [published]
          refine List.Perm.trans ?_ (List.Perm.of_eq delayed.symm)
          exact (shown.delayed.erase message).trans
            (NamedQueues.messagesIn_erase_of_accepts ownLeads present).symm
      · have otherLeads : leadsTo network.broker queue name = false :=
          leads.trans (decide_eq_false own)
        have otherName : isNamed queue address.key = false := decide_eq_false own
        refine Shows.silently (shown.elsewhere topology ?_ ?_ rfl)
        · rw [published, NamedQueues.messagesIn_append,
            NamedQueues.messagesIn_singleton_of_rejects otherName,
            List.append_nil]
          exact NamedQueues.messagesIn_erase_of_rejects itsName
        · rw [published]
          refine List.Perm.trans (List.Perm.of_eq delayed) ?_
          exact NamedQueues.messagesIn_erase_of_rejects otherLeads
    · rw [publish_unbound erased bound message]
      have asLost :
          network.stepBroker (.lose name message) =
            some
              { network with
                broker :=
                  { network.broker with
                    ready := network.broker.ready.erase (name, message) } } := by
        unfold stepBroker
        rw [lost]
        rfl
      obtain ⟨schedule, system', execution, shown', _⟩ :=
        shown.lose apart isRetry asLost
      refine ⟨schedule, system', execution, shown', ?_⟩
      intro orderly
      exact absurd (orderly address declared) bound

/-! ## Acknowledgements and closed channels -/

omit [DecidableEq κ] [DecidableEq Buffer] [DecidableEq V] in
/-- The deliveries on a channel of the server, in the system and in the network. -/
theorem deliveredOn_ofNetwork
    (server : ServerOf config queue) (channel : ℕ)
    (entry : (ServerOf config queue × DeliveryTag) × Message κ Buffer) :
    JobSystem.deliveredOn server.val channel (deliveryOfNetwork entry).1 =
      JobSystem.deliveredOn server channel entry.1 := by
  unfold JobSystem.deliveredOn deliveryOfNetwork
  simp only [Subtype.ext_iff]

theorem deliveredOn_server
    {server : ι} {channel : ℕ} {tag : ι × DeliveryTag}
    (delivered : JobSystem.deliveredOn server channel tag = true) :
    tag.1 = server :=
  (of_decide_eq_true delivered).1

omit [DecidableEq κ] [DecidableEq Buffer] [DecidableEq V] in
/-- What is taken back is put into the job queue of the server. -/
theorem requeued_named
    {broker : JobBroker ι κ Buffer} (topology : Topology config broker)
    (queue : String) (server : ι) (channel : ℕ) :
    ∀ entry ∈
        (broker.unacknowledged.filter fun entry =>
          JobSystem.deliveredOn server channel entry.1).map Prod.snd,
      entry.1 = config.queue server ∧
        leadsTo broker queue entry.1 = false := by
  intro entry member
  obtain ⟨pending, itsPlace, rfl⟩ := List.mem_map.mp member
  obtain ⟨isPending, delivered⟩ := List.mem_filter.mp itsPlace
  obtain ⟨itsQueue, declared⟩ := topology.pending pending isPending
  have itsServer : pending.1.1 = server := deliveredOn_server delivered
  rw [itsServer] at itsQueue
  refine ⟨itsQueue, leadsTo_of_plain ?_⟩
  rw [itsQueue] at declared ⊢
  exact topology.declared_of_queue declared

omit [DecidableEq ι] [DecidableEq κ] [DecidableEq Buffer] [DecidableEq V] in
theorem pendingOf_filter
    (keeps : ι × DeliveryTag → Bool)
    (pending : List ((ι × DeliveryTag) × String × Message κ Buffer)) :
    pendingOf config queue (pending.filter fun entry => keeps entry.1) =
      (pendingOf config queue pending).filter fun entry => keeps entry.1 := by
  unfold pendingOf
  rw [List.filter_map, List.filter_filter, List.filter_filter]
  congr 1
  apply List.filter_congr
  intro entry member
  exact Bool.and_comm _ _

omit [DecidableEq ι] [DecidableEq κ] [DecidableEq Buffer] [DecidableEq V] in
/-- The deliveries of the system under some tags are those of the network. -/
theorem Shows.pending_filter
    (shown : Shows config queue network system)
    (keeps : ι × DeliveryTag → Bool)
    (ownKeeps : ServerOf config queue × DeliveryTag → Bool)
    (agree : ∀ entry : (ServerOf config queue × DeliveryTag) × Message κ Buffer,
      keeps (deliveryOfNetwork entry).1 = ownKeeps entry.1) :
    (system.queue.unacknowledged.filter fun entry => ownKeeps entry.1).map
        deliveryOfNetwork =
      pendingOf config queue
        (network.broker.unacknowledged.filter fun entry => keeps entry.1) := by
  rw [pendingOf_filter, ← shown.pending, List.filter_map]
  congr 1
  apply List.filter_congr
  intro entry member
  exact (agree entry).symm

omit [DecidableEq V] in
theorem Shows.requeue
    {server : ServerOf config queue} {channel : ℕ}
    (shown : Shows config queue network system)
    (stepped :
      network.stepBroker
        (.requeue (JobSystem.deliveredOn server.val channel)) = some next) :
    ∃ system',
      system.stepQueue (.requeue (JobSystem.deliveredOn server channel)) =
          some system' ∧
        Shows config queue next system' := by
  obtain ⟨broker, taken, rfl⟩ := Option.map_eq_some_iff.mp stepped
  have asked :
      Asks config network.broker
        (.requeue (JobSystem.deliveredOn server.val channel)) :=
    trivial
  have topology := shown.topology.step asked taken
  cases taken
  have named := requeued_named shown.topology queue server.val channel
  have back :=
    shown.pending_filter (JobSystem.deliveredOn server.val channel)
      (JobSystem.deliveredOn server channel)
      (deliveredOn_ofNetwork server channel)
  have messages := congrArg (List.map Prod.snd) back
  rw [List.map_map] at messages
  have ownMessages :
      (pendingOf config queue
          (network.broker.unacknowledged.filter fun entry =>
            JobSystem.deliveredOn server.val channel entry.1)).map Prod.snd =
        NamedQueues.messagesIn (isNamed queue)
          ((network.broker.unacknowledged.filter fun entry =>
            JobSystem.deliveredOn server.val channel entry.1).map Prod.snd) := by
    rw [NamedQueues.messagesIn_of_accepts]
    · unfold pendingOf
      rw [List.filter_eq_self.mpr]
      · simp only [List.map_map]
        rfl
      · intro entry member
        have itsServer := deliveredOn_server (List.mem_filter.mp member).2
        rw [itsServer]
        exact decide_eq_true server.property
    · intro entry member
      exact decide_eq_true ((named entry member).1.trans server.property)
  refine ⟨_, rfl, ?_⟩
  refine
    { topology := topology
      servers := shown.servers
      ready := ?_
      delayed := ?_
      pending := ?_
      tags := ?_
      enqueued := shown.enqueued
      expiring := shown.expiring
      expired := shown.expired
      accepted := shown.accepted }
  · dsimp only
    rw [NamedQueues.messagesIn_append, ← ownMessages, ← messages]
    exact shown.ready.append_right _
  · dsimp only
    rw [NamedQueues.messagesIn_append]
    change
      system.queue.delayed.Perm
        (_ ++ NamedQueues.messagesIn (leadsTo network.broker queue) _)
    rw [NamedQueues.messagesIn_of_rejects fun entry member =>
      (named entry member).2, List.append_nil]
    exact shown.delayed
  · exact shown.pending_filter
      (fun tag => !JobSystem.deliveredOn server.val channel tag)
      (fun tag => !JobSystem.deliveredOn server channel tag)
      (fun entry => by rw [deliveredOn_ofNetwork])
  · intro tag member
    apply shown.tags tag
    rcases List.mem_append.mp member with pending | settled
    · obtain ⟨entry, isPending, rfl⟩ := List.mem_map.mp pending
      exact List.mem_append_left _
        (List.mem_map_of_mem (List.mem_of_mem_filter isPending))
    · exact List.mem_append_right _ settled

omit [DecidableEq V] in
theorem Shows.requeue_elsewhere
    {server : ι} {channel : ℕ}
    (shown : Shows config queue network system)
    (other : config.queue server ≠ queue)
    (stepped :
      network.stepBroker (.requeue (JobSystem.deliveredOn server channel)) =
        some next) :
    Shows config queue next system := by
  obtain ⟨broker, taken, rfl⟩ := Option.map_eq_some_iff.mp stepped
  have asked :
      Asks config network.broker
        (.requeue (JobSystem.deliveredOn server channel)) :=
    trivial
  have topology := shown.topology.step asked taken
  cases taken
  have named := requeued_named shown.topology queue server channel
  refine shown.elsewhere topology (List.Perm.of_eq ?_) (List.Perm.of_eq ?_) ?_
  · have unnamed :
        NamedQueues.messagesIn (isNamed queue)
            ((network.broker.unacknowledged.filter fun entry =>
              JobSystem.deliveredOn server channel entry.1).map Prod.snd) =
          [] := by
      apply NamedQueues.messagesIn_of_rejects
      intro entry member
      rw [(named entry member).1]
      exact decide_eq_false other
    dsimp only
    rw [NamedQueues.messagesIn_append, unnamed, List.append_nil]
  · dsimp only
    rw [NamedQueues.messagesIn_append]
    change
      _ ++ NamedQueues.messagesIn (leadsTo network.broker queue) _ =
        NamedQueues.messagesIn (leadsTo network.broker queue) _
    rw [NamedQueues.messagesIn_of_rejects fun entry member =>
      (named entry member).2, List.append_nil]
    rfl
  · unfold pendingOf
    dsimp only
    rw [List.filter_filter]
    congr 1
    apply List.filter_congr
    intro entry member
    cases own : decide (config.queue entry.1.1 = queue) with
    | false => rfl
    | true =>
        have elsewhere :
            JobSystem.deliveredOn server channel entry.1 = false := by
          rw [← Bool.not_eq_true]
          intro delivered
          apply other
          rw [← deliveredOn_server delivered]
          exact of_decide_eq_true own
        rw [elsewhere]
        rfl

omit [DecidableEq ι] [DecidableEq κ] [DecidableEq Buffer] [DecidableEq V] in
theorem tag_ofNetwork_iff
    (server : ServerOf config queue) (arrived : DeliveryTag)
    (entry : (ServerOf config queue × DeliveryTag) × Message κ Buffer) :
    (deliveryOfNetwork entry).1 = (server.val, arrived) ↔
      entry.1 = (server, arrived) := by
  simp only [deliveryOfNetwork, Prod.ext_iff, Subtype.ext_iff]

omit [DecidableEq κ] [DecidableEq Buffer] [DecidableEq V] in
/-- A delivery to a server of the queue is found in the system where it is found in
the network. -/
theorem Shows.find_pending
    (shown : Shows config queue network system)
    (server : ServerOf config queue) (arrived : DeliveryTag) :
    (system.queue.unacknowledged.find? fun entry =>
          entry.1 = (server, arrived)).map deliveryOfNetwork =
      (network.broker.unacknowledged.find? fun entry =>
          entry.1 = (server.val, arrived)).map fun entry =>
        (entry.1, entry.2.2) := by
  have inSystem :
      (system.queue.unacknowledged.map deliveryOfNetwork).find?
          (fun entry => entry.1 = (server.val, arrived)) =
        (system.queue.unacknowledged.find? fun entry =>
          entry.1 = (server, arrived)).map deliveryOfNetwork := by
    rw [List.find?_map]
    congr 2
    funext entry
    exact decide_eq_decide.mpr (tag_ofNetwork_iff server arrived entry)
  rw [← inSystem, shown.pending]
  unfold pendingOf
  rw [List.find?_map, List.find?_filter]
  congr 2
  funext entry
  apply decide_eq_decide.mpr
  simp only [Function.comp_apply, decide_eq_true_eq, and_iff_right_iff_imp]
  intro same
  rw [same]
  exact server.property

omit [DecidableEq κ] [DecidableEq Buffer] [DecidableEq V] in
theorem Shows.erase_pending
    (shown : Shows config queue network system)
    (server : ServerOf config queue) (arrived : DeliveryTag) :
    (system.queue.unacknowledged.eraseP fun entry =>
          entry.1 = (server, arrived)).map deliveryOfNetwork =
      pendingOf config queue
        (network.broker.unacknowledged.eraseP fun entry =>
          entry.1 = (server.val, arrived)) := by
  have inSystem :
      (system.queue.unacknowledged.map deliveryOfNetwork).eraseP
          (fun entry => entry.1 = (server.val, arrived)) =
        (system.queue.unacknowledged.eraseP fun entry =>
          entry.1 = (server, arrived)).map deliveryOfNetwork := by
    rw [List.eraseP_map]
    congr 2
    funext entry
    exact decide_eq_decide.mpr (tag_ofNetwork_iff server arrived entry)
  rw [← inSystem, shown.pending]
  unfold pendingOf
  rw [List.eraseP_map, List.eraseP_filter]
  congr 3
  funext entry
  rw [Bool.eq_iff_iff]
  simp only [Function.comp_apply, Bool.and_eq_true, decide_eq_true_eq,
    and_iff_left_iff_imp]
  intro same
  rw [same]
  exact server.property

section

omit [DecidableEq V]

theorem Shows.settle
    {server : ServerOf config queue} {arrived : DeliveryTag}
    (shown : Shows config queue network system)
    (stepped : network.stepBroker (.settle (server.val, arrived)) = some next) :
    ∃ system', system.stepQueue (.settle (server, arrived)) = some system' ∧
      Shows config queue next system' := by
  obtain ⟨broker, taken, rfl⟩ := Option.map_eq_some_iff.mp stepped
  have asked :
      Asks config network.broker (.settle (server.val, arrived)) :=
    trivial
  have topology := shown.topology.step asked taken
  obtain ⟨entry, found, rfl⟩ := NamedQueues.settle_cases taken
  have foundOwn := shown.find_pending server arrived
  rw [found] at foundOwn
  obtain ⟨own, foundInSystem, _⟩ := Option.map_eq_some_iff.mp foundOwn
  refine ⟨_, stepQueue_eq (WorkQueue.settle_of_find foundInSystem), ?_⟩
  refine
    { topology := topology
      servers := shown.servers
      ready := shown.ready
      delayed := shown.delayed
      pending := shown.erase_pending server arrived
      tags := ?_
      enqueued := shown.enqueued
      expiring := shown.expiring
      expired := shown.expired
      accepted := shown.accepted }
  intro tag member
  apply shown.tags tag
  rcases List.mem_append.mp member with pending | settled
  · obtain ⟨other, isPending, rfl⟩ := List.mem_map.mp pending
    exact List.mem_append_left _
      (List.mem_map_of_mem (List.mem_of_mem_eraseP isPending))
  · rcases List.mem_cons.mp settled with rfl | old
    · exact List.mem_append_left _
        (List.mem_map_of_mem (List.mem_of_find?_eq_some foundInSystem))
    · exact List.mem_append_right _ old

/-- What the network does not find, the system does not find. -/
theorem Shows.settle_none
    {server : ServerOf config queue} {arrived : DeliveryTag}
    (shown : Shows config queue network system)
    (unknown : network.stepBroker (.settle (server.val, arrived)) = none) :
    system.stepQueue (.settle (server, arrived)) = none := by
  have notFound :=
    NamedQueues.settle_eq_none_iff.mp (Option.map_eq_none_iff.mp unknown)
  have foundOwn := shown.find_pending server arrived
  rw [notFound] at foundOwn
  apply Option.map_eq_none_iff.mpr
  apply WorkQueue.settle_eq_none_iff.mpr
  exact Option.map_eq_none_iff.mp foundOwn

theorem Shows.settle_elsewhere
    {server : ι} {arrived : DeliveryTag}
    (shown : Shows config queue network system)
    (other : config.queue server ≠ queue)
    (stepped : network.stepBroker (.settle (server, arrived)) = some next) :
    Shows config queue next system := by
  obtain ⟨broker, taken, rfl⟩ := Option.map_eq_some_iff.mp stepped
  have asked : Asks config network.broker (.settle (server, arrived)) := trivial
  have topology := shown.topology.step asked taken
  obtain ⟨entry, found, rfl⟩ := NamedQueues.settle_cases taken
  refine shown.elsewhere topology (.refl _) (.refl _) ?_
  dsimp only
  rcases List.exists_or_eq_self_of_eraseP
    (fun entry => decide (entry.1 = (server, arrived)))
    network.broker.unacknowledged with
    same | ⟨settled, before, after, _, itsTag, split, erased⟩
  · rw [same]
  · have elsewhere : ¬ config.queue settled.1.1 = queue := by
      rw [of_decide_eq_true itsTag]
      exact other
    rw [erased, split]
    simp [pendingOf, elsewhere]

end

/-- The acknowledgement of a server of the queue. -/
theorem Shows.acknowledge
    {server : ServerOf config queue} {arrived : DeliveryTag}
    (shown : Shows config queue network system)
    (stepped :
      network.step config (.acknowledgementArrived server.val arrived) =
        some next) :
    Matches config queue network next
      (.acknowledgementArrived server.val arrived) system := by
  simp only [step, Option.ite_none_right_eq_some] at stepped
  obtain ⟨sent, stepped⟩ := stepped
  have ownSent :
      ((system.servers server).acknowledged.any fun tag =>
        tag.deliveryTag = arrived.deliveryTag) = true := by
    rw [shown.servers server]
    exact sent
  have ownOrderly :
      network.Orderly config (.acknowledgementArrived server.val arrived) →
        system.Orderly (.acknowledgementArrived server arrived) := by
    intro orderly
    change arrived ∈ (system.servers server).acknowledged
    rw [shown.servers server]
    exact orderly
  split at stepped
  case h_1 settled taken =>
    cases stepped
    obtain ⟨system', takenOwn, shown'⟩ := shown.settle taken
    have own :
        system.step (configOf config queue)
          (.acknowledgementArrived server arrived) = some system' := by
      simp only [JobSystem.step]
      rw [if_pos ownSent, takenOwn]
    exact shown'.by_step own ownOrderly
  case h_2 unknown =>
    obtain ⟨system', takenOwn, shown'⟩ := shown.requeue stepped
    have own :
        system.step (configOf config queue)
          (.acknowledgementArrived server arrived) = some system' := by
      simp only [JobSystem.step]
      rw [if_pos ownSent, shown.settle_none unknown]
      exact takenOwn
    exact shown'.by_step own ownOrderly

theorem Shows.acknowledge_elsewhere
    {server : ι} {arrived : DeliveryTag}
    (shown : Shows config queue network system)
    (other : config.queue server ≠ queue)
    (stepped :
      network.step config (.acknowledgementArrived server arrived) = some next) :
    Shows config queue next system := by
  simp only [step, Option.ite_none_right_eq_some] at stepped
  obtain ⟨_, stepped⟩ := stepped
  split at stepped
  case h_1 settled taken =>
    cases stepped
    exact shown.settle_elsewhere other taken
  case h_2 unknown => exact shown.requeue_elsewhere other stepped

end Amq.Jobs.JobNetwork
