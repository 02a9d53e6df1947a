import Amq.Jobs.JobOrigins
import Amq.Jobs.QueueRetries

/-!
# Each job queue by itself

The clients and servers of one job queue, with the copies in this queue and in
the retry queues that lead to it, behave as if there was no other queue: every
run of the network shows a run of one shared queue with just these servers.
-/


namespace Amq.Jobs.JobNetwork

open Function Amq.Transition Amq.Broker

variable {ι κ Buffer V : Type}
variable [DecidableEq ι] [DecidableEq κ] [DecidableEq Buffer] [DecidableEq V]
variable {config : JobNetworkConfig ι Buffer V} {queue : String}
variable {network next : JobNetwork ι κ Buffer V}
variable {system : JobSystem (ServerOf config queue) κ Buffer V}

theorem simulates
    (config : JobNetworkConfig ι Buffer V) (queue : String)
    (apart :
      ∀ server delay, queue ≠ retryQueueName (config.queue server) delay) :
    (JobSystem.machine (configOf config queue)).Simulates
      (machine config : Machine (JobNetwork ι κ Buffer V) _)
      (fun _ event => NamedApart config event) (Orderly config)
      JobSystem.Orderly (Shows config queue) := by
  intro network event next system shown namedApart stepped
  change network.step config event = some next at stepped
  change Matches config queue network next event system
  cases event with
  | queueAsserted name =>
      have asked : Asks config network.broker (.declare name none) := namedApart
      exact (shown.declare asked stepped).silently
  | queueBound exchange name =>
      simp only [step, Option.ite_none_right_eq_some] at stepped
      obtain ⟨declared, stepped⟩ := stepped
      obtain ⟨broker, taken, rfl⟩ := Option.map_eq_some_iff.mp stepped
      have asked :
          Asks config network.broker (.bind ⟨name, exchange, name⟩) :=
        ⟨rfl, declared⟩
      have topology := shown.topology.step asked taken
      simp only [NamedQueues.step, Option.ite_none_right_eq_some,
        Option.some.injEq] at taken
      obtain ⟨_, rfl⟩ := taken
      exact (shown.elsewhere topology (.refl _) (.refl _) rfl).silently
  | enqueued exchange name message expires => exact shown.enqueue stepped
  | jobExpired name message => exact shown.expireJob stepped
  | delivered server message tag =>
      by_cases own : config.queue server = queue
      · obtain ⟨itsServer, rfl⟩ := exists_serverOf own
        exact shown.take stepped
      · exact (shown.take_elsewhere own stepped).silently
  | retryQueueAsserted server delay =>
      have asked :
          Asks config network.broker
            (.declare (retryQueueName (config.queue server) delay)
              (some ⟨config.exchange server, config.queue server⟩)) :=
        ⟨server, delay, rfl, rfl⟩
      exact (shown.declare asked stepped).silently
  | retryAccepted retry delay =>
      simp only [step, Option.ite_none_right_eq_some] at stepped
      obtain ⟨sent, stepped⟩ := stepped
      obtain ⟨broker, taken, rfl⟩ := Option.map_eq_some_iff.mp stepped
      by_cases own : config.queue retry.server = queue
      · obtain ⟨itsRetry, rfl⟩ := exists_ofNetwork own
        exact shown.accept_own apart sent taken
      · exact (shown.accept_elsewhere apart own taken).silently
  | retryDeadLettered name message => exact shown.deadLetter apart stepped
  | retryLost name message =>
      simp only [step, Option.ite_none_right_eq_some] at stepped
      exact shown.lose apart stepped.1 stepped.2
  | retryQueueExpired name =>
      simp only [step, Option.ite_none_right_eq_some] at stepped
      exact (shown.expire stepped.1 stepped.2).silently
  | acknowledgementArrived server arrived =>
      by_cases own : config.queue server = queue
      · obtain ⟨itsServer, rfl⟩ := exists_serverOf own
        exact shown.acknowledge stepped
      · exact (shown.acknowledge_elsewhere own stepped).silently
  | channelClosed server channel =>
      by_cases own : config.queue server = queue
      · obtain ⟨itsServer, rfl⟩ := exists_serverOf own
        obtain ⟨system', requeued, shown'⟩ := shown.requeue stepped
        have stepped' :
            system.step (configOf config queue)
              (.channelClosed itsServer channel) = some system' :=
          requeued
        exact shown'.by_step stepped' fun _ => trivial
      · exact (shown.requeue_elsewhere own stepped).silently
  | served server event =>
      simp only [step, Option.ite_none_right_eq_some] at stepped
      obtain ⟨possible, served⟩ := stepped
      by_cases own : config.queue server = queue
      · obtain ⟨itsServer, rfl⟩ := exists_serverOf own
        obtain ⟨after, servedOwn, _, shown'⟩ := shown.serve served
        have possibleOwn : system.isPossible itsServer event = true :=
          (isPossible_shown shown itsServer event).trans possible
        have stepped' :
            system.step (configOf config queue) (.served itsServer event) = _ :=
          (if_pos possibleOwn).trans servedOwn
        exact shown'.by_step stepped' fun _ => trivial
      · exact (shown.serve_elsewhere own served).silently

/-- What a network shows of a job queue is a run of this queue with its own
clients and servers. -/
theorem exists_shown
    {schedule : List (JobNetworkEvent ι κ Buffer V)}
    (apart :
      ∀ server delay, queue ≠ retryQueueName (config.queue server) delay)
    (namedApart : ∀ event ∈ schedule, NamedApart config event)
    (execution : (machine config).run (create config) schedule = some network) :
    ∃ schedule' system,
      (JobSystem.machine (configOf config queue)).run
          (.create (configOf config queue)) schedule' = some system ∧
        Shows config queue network system ∧
        ((machine config).Throughout (Orderly config) (create config) schedule →
          (JobSystem.machine (configOf config queue)).Throughout
            JobSystem.Orderly (.create (configOf config queue)) schedule') :=
  (simulates config queue apart).run (shows_create config queue)
    ((Machine.throughout_events_iff execution).mpr namedApart) execution

/-- Every run of the network is, for each job queue, a run of one shared queue
with the servers of this queue only, and an orderly one if the run is orderly:
no client, server or retry of another queue has a part in it. -/
theorem shows_each_queue
    (config : JobNetworkConfig ι Buffer V) (queue : String)
    (schedule : List (JobNetworkEvent ι κ Buffer V))
    (network : JobNetwork ι κ Buffer V)
    (apart :
      ∀ server delay, queue ≠ retryQueueName (config.queue server) delay)
    (namedApart : ∀ event ∈ schedule, NamedApart config event)
    (execution : (machine config).run (create config) schedule = some network) :
    ∃ schedule' system,
      (JobSystem.machine (configOf config queue)).run
          (.create (configOf config queue)) schedule' = some system ∧
        Shows config queue network system ∧
        ((machine config).Throughout (Orderly config) (create config) schedule →
          (JobSystem.machine (configOf config queue)).Throughout
            JobSystem.Orderly (.create (configOf config queue)) schedule') :=
  exists_shown apart namedApart execution

/-- A server for each of two queues. -/
def mailAndNews : JobNetworkConfig Bool (SerializedContext ℤ) ℤ where
  exchange _ := "jobs"
  queue server := if server then "mail" else "news"
  server _ := JobServer.integerConfig
  apart server _ _ := by
    cases server <;> exact ne_retryQueueName (by decide) _ _

/-- A job for one of the queues fails, and its retry comes back. -/
def retriedInMail : List (JobNetworkEvent Bool ℕ (SerializedContext ℤ) ℤ) :=
  [.queueAsserted "mail", .queueBound "jobs" "mail", .queueAsserted "news",
    .queueBound "jobs" "news",
    .served true .listen, .served true (.setJobHandler 7 .function),
    .enqueued "jobs" "mail" (JobServer.integerMessage 1) true,
    .delivered true (JobServer.integerMessage 1) ⟨0, 1⟩,
    .served true (.attempt 0 (.handlerSettled .rejected)),
    .served true (.attempt 0 (.handleErrorSettled .rejected)),
    .retryQueueAsserted true ⟨"1000", by decide⟩,
    .served true (.attempt 0 (.retryQueueSettled 0 .fulfilled)),
    .retryAccepted ⟨true, 0, 0, JobServer.integerMessage 2⟩
      ⟨"1000", by decide⟩,
    .served true (.attempt 0 (.sendSettled 0 .fulfilled)),
    .served true (.attempt 0 .defaultRetrySettled),
    .served true (.attempt 0 .proceed),
    .acknowledgementArrived true ⟨0, 1⟩,
    .retryDeadLettered "mail:retry:1000" (JobServer.integerMessage 2)]

theorem namedApart_retriedInMail :
    ∀ event ∈ retriedInMail, NamedApart mailAndNews event := by
  unfold retriedInMail
  simp only [List.forall_mem_cons, NamedApart, List.not_mem_nil,
    IsEmpty.forall_iff, implies_true, and_true, true_and]
  exact ⟨fun _ => ne_retryQueueName (by decide) _,
    fun _ => ne_retryQueueName (by decide) _⟩

theorem shows_each_queue_mail :
    ∃ network schedule system,
      (machine mailAndNews).run (create mailAndNews) retriedInMail =
          some network ∧
        (JobSystem.machine (configOf mailAndNews "mail")).run
            (.create (configOf mailAndNews "mail")) schedule = some system ∧
        Shows mailAndNews "mail" network system := by
  obtain ⟨schedule, system, execution, shown, _⟩ :=
    shows_each_queue mailAndNews "mail" retriedInMail _
      (fun _ => ne_retryQueueName (by decide) _) namedApart_retriedInMail rfl
  exact ⟨_, schedule, system, rfl, execution, shown⟩

/-- The broker has a copy of the job in its queue, in a retry queue that leads
to it, or out with a server of the queue. -/
def HoldsJob
    (config : JobNetworkConfig ι Buffer V) (network : JobNetwork ι κ Buffer V)
    (queue : String) (correlationId : κ) : Prop :=
  (∃ entry ∈ network.broker.ready,
      (entry.1 = queue ∨ leadsTo network.broker queue entry.1 = true) ∧
        entry.2.correlationId = correlationId) ∨
    ∃ entry ∈ network.broker.unacknowledged,
      config.queue entry.1.1 = queue ∧ entry.2.2.correlationId = correlationId

omit [DecidableEq ι] [DecidableEq κ] [DecidableEq Buffer] [DecidableEq V] in
theorem holdsJob_of_held
    (shown : Shows config queue network system)
    {copy : Message κ Buffer} (held : copy ∈ system.queue.held) :
    HoldsJob config network queue copy.correlationId := by
  unfold WorkQueue.held at held
  rcases List.mem_append.mp held with waiting | pending
  · rcases List.mem_append.mp waiting with delayed | ready
    · obtain ⟨name, leads, member⟩ :=
        NamedQueues.mem_messagesIn_iff.mp (shown.delayed.mem_iff.mp delayed)
      exact Or.inl ⟨_, member, Or.inr leads, rfl⟩
    · obtain ⟨name, itsName, member⟩ :=
        NamedQueues.mem_messagesIn_iff.mp (shown.ready.mem_iff.mp ready)
      exact Or.inl ⟨_, member, Or.inl (of_decide_eq_true itsName), rfl⟩
  · obtain ⟨own, isPending, rfl⟩ := List.mem_map.mp pending
    have inNetwork :
        deliveryOfNetwork own ∈
          pendingOf config queue network.broker.unacknowledged := by
      rw [← shown.pending]
      exact List.mem_map_of_mem isPending
    obtain ⟨entry, member, same⟩ := List.mem_map.mp inNetwork
    obtain ⟨itself, itsQueue⟩ := List.mem_filter.mp member
    refine Or.inr ⟨entry, itself, of_decide_eq_true itsQueue, ?_⟩
    exact congrArg (fun pair => pair.2.correlationId) same

/-- A message with this correlation id which was published to the queue with
`expireMs` has waited there for too long. -/
def HasExpired
    (network : JobNetwork ι κ Buffer V) (queue : String) (correlationId : κ) :
    Prop :=
  ∃ entry ∈ network.expired, entry ∈ network.expiring ∧ entry.1 = queue ∧
    entry.2.correlationId = correlationId

omit [DecidableEq ι] [DecidableEq κ] [DecidableEq Buffer] [DecidableEq V] in
theorem hasExpired_of_shown
    (shown : Shows config queue network system) {correlationId : κ}
    (expired : system.HasExpired correlationId) :
    network.HasExpired queue correlationId := by
  obtain ⟨message, wasLost, wasExpiring, itsId⟩ := expired
  rw [shown.expired] at wasLost
  rw [shown.expiring] at wasExpiring
  obtain ⟨name, itsName, lost⟩ := NamedQueues.mem_messagesIn_iff.mp wasLost
  obtain ⟨other, otherName, expiring⟩ :=
    NamedQueues.mem_messagesIn_iff.mp wasExpiring
  have same : name = queue := of_decide_eq_true itsName
  have otherSame : other = queue := of_decide_eq_true otherName
  subst same otherSame
  exact ⟨_, lost, expiring, rfl, itsId⟩

/-- A job stays with the broker, on its way to the servers of its own queue,
until it expires there or a run of one of these servers has finished it. -/
theorem jobs_stay_in_their_queues
    (config : JobNetworkConfig ι Buffer V) (queue : String)
    (schedule : List (JobNetworkEvent ι κ Buffer V))
    (network : JobNetwork ι κ Buffer V)
    (apart :
      ∀ server delay, queue ≠ retryQueueName (config.queue server) delay)
    (namedApart : ∀ event ∈ schedule, NamedApart config event)
    (orderly :
      (machine config).Throughout (Orderly config) (create config) schedule)
    (execution : (machine config).run (create config) schedule = some network) :
    ∀ message, (queue, message) ∈ network.enqueued →
      HoldsJob config network queue message.correlationId ∨
        network.HasExpired queue message.correlationId ∨
        ∃ server run, config.queue server = queue ∧
          .attempt run ∈ (network.servers server).runs ∧
          run.correlationId = message.correlationId ∧
          JobSystem.Finished (config.server server).operators run := by
  obtain ⟨schedule', system, execution', shown, keepsOrder⟩ :=
    exists_shown apart namedApart execution
  have consistent := JobSystem.consistent_run (keepsOrder orderly) execution'
  intro message enqueued
  have itself : message ∈ system.enqueued := by
    rw [shown.enqueued]
    exact NamedQueues.mem_messagesIn_iff.mpr
      ⟨queue, decide_eq_true rfl, enqueued⟩
  rcases consistent.held_or_finished itself with
    ⟨copy, held, itsId⟩ | expired | ⟨server, run, member, itsId, finished⟩
  · left
    rw [← itsId]
    exact holdsJob_of_held shown held
  · exact Or.inr (Or.inl (hasExpired_of_shown shown expired))
  · refine Or.inr (Or.inr ?_)
    refine ⟨server.val, run, server.property, ?_, itsId, finished⟩
    rw [← shown.servers server]
    exact member

theorem jobs_stay_in_their_queues_mail :
    ∃ network,
      (machine mailAndNews).run (create mailAndNews) retriedInMail =
          some network ∧
        (HoldsJob mailAndNews network "mail" 1 ∨
          network.HasExpired "mail" 1 ∨
          ∃ server run, mailAndNews.queue server = "mail" ∧
            .attempt run ∈ (network.servers server).runs ∧
            run.correlationId = 1 ∧
            JobSystem.Finished (mailAndNews.server server).operators run) :=
  ⟨_, rfl,
    jobs_stay_in_their_queues mailAndNews "mail" retriedInMail _
      (fun _ => ne_retryQueueName (by decide) _) namedApart_retriedInMail
      (by decide) rfl (JobServer.integerMessage 1) List.mem_cons_self⟩

/-- A server handles jobs that were enqueued for its own queue, whatever was
retried, redelivered or lost, with the data they were enqueued with as long as
the data of no run have been changed in place. -/
theorem runs_handle_enqueued_jobs
    (config : JobNetworkConfig ι Buffer V)
    (serializer : JsonBufferSerializer Buffer (SerializedContext V))
    (schedule : List (JobNetworkEvent ι κ Buffer V))
    (network : JobNetwork ι κ Buffer V)
    (shared :
      ∀ server, (config.server server).jsonBufferSerializer = serializer)
    (restores :
      ∀ context content, serializer.serialize context = some content →
        serializer.deserialize content = some context)
    (namedApart : ∀ event ∈ schedule, NamedApart config event)
    (execution : (machine config).run (create config) schedule = some network) :
    ∀ server run, .attempt run ∈ (network.servers server).runs →
      ∃ message, (config.queue server, message) ∈ network.enqueued ∧
        message.correlationId = run.correlationId ∧
        ∃ context, serializer.deserialize message.content = some context ∧
          run.context.job = context.job ∧
          (JobSystem.IsUntouched network.servers →
            run.context.data = context.data) := by
  intro server run member
  obtain ⟨schedule', system, execution', shown, _⟩ :=
    exists_shown (config.apart server) namedApart execution
  have traced : system.Traced serializer :=
    JobSystem.traced_run (fun own => shared own.val) restores execution'
  have itself : .attempt run ∈ (system.servers ⟨server, rfl⟩).runs := by
    rw [shown.servers]
    exact member
  obtain ⟨_, job, enqueued, itsId, context, read, same⟩ :=
    traced.runs ⟨server, rfl⟩ run itself
  rw [shown.enqueued] at enqueued
  obtain ⟨name, itsName, present⟩ := NamedQueues.mem_messagesIn_iff.mp enqueued
  have sameName : name = config.queue server := of_decide_eq_true itsName
  rw [sameName] at present
  refine ⟨job, present, itsId, context, read, same.1, ?_⟩
  intro untouched
  apply same.2
  intro itsServer own ownMember
  rw [shown.servers] at ownMember
  exact untouched itsServer.val own ownMember

theorem runs_handle_enqueued_jobs_mail :
    ∃ network run,
      (machine mailAndNews).run (create mailAndNews) retriedInMail =
          some network ∧
        .attempt run ∈ (network.servers true).runs ∧
        ∃ message, ("mail", message) ∈ network.enqueued ∧
          message.correlationId = run.correlationId ∧
          ∃ context, some message.content = some context ∧
            run.context.job = context.job ∧ run.context.data = context.data := by
  obtain ⟨message, enqueued, itsId, context, read, itsJob, itsData⟩ :=
    runs_handle_enqueued_jobs mailAndNews ⟨some, some⟩ retriedInMail _
      (fun _ => rfl) (fun _ _ same => same.symm) namedApart_retriedInMail rfl
      true _ List.mem_cons_self
  refine ⟨_, _, rfl, List.mem_cons_self, message, enqueued, itsId, context, read,
    itsJob, itsData ?_⟩
  intro server run member data changed
  cases server with
  | false => cases member
  | true =>
      cases List.mem_singleton.mp member
      have history :
          Observation.dataChanged data ∈
            [.acknowledged ⟨0, 1⟩, .defaultRetryResolved 0, .publishConfirmed 0,
              .published 0 ⟨7, 0, 0, 2⟩, .retryCalled 0 true, .jobErrorEmitted] :=
        changed
      simp at history

end Amq.Jobs.JobNetwork
