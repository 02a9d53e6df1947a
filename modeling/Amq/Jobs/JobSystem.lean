import Amq.Broker.WorkQueue
import Amq.Jobs.AcknowledgedRuns

/-!
# Job servers that share a queue

Clients, the job servers of any number of processes and the broker make up one
system.  A message is delivered to some server; the retries that its runs send
wait in a retry queue until they are dead-lettered into the job queue; and an
acknowledgement is a frame with a bare delivery tag, which settles whatever is
pending under this tag on the channel where the frame arrives.

Delays are not counted here: a retry may be dead-lettered at any time, and a job
that was enqueued with `expireMs` may expire whenever it is ready.  A retry is
dead-lettered without the expiry of its message.
-/


namespace Amq.Jobs

open Function Amq.Transition Amq.Broker

/-- A retry message that has reached its retry queue, with the call of `retry`
that has sent it. -/
structure AcceptedRetry (ι κ Buffer : Type) where
  server : ι
  run : ℕ
  call : ℕ
  message : Message κ Buffer
  deriving DecidableEq

structure JobSystem (ι κ Buffer V : Type) where
  servers : ι → JobServer κ Buffer V
  queue : WorkQueue (ι × DeliveryTag) (Message κ Buffer)
  /-- The messages of clients that have reached the queue, the latest first. -/
  enqueued : List (Message κ Buffer)
  /-- Those of them that were published with `expireMs`. -/
  expiring : List (Message κ Buffer)
  /-- The messages that have expired in the queue, the latest first. -/
  expired : List (Message κ Buffer)
  accepted : List (AcceptedRetry ι κ Buffer)

inductive JobSystemEvent (ι κ Buffer V : Type) where
  | enqueued (message : Message κ Buffer) (expires : Bool)
  /-- The message has waited in the queue for `expireMs`. -/
  | jobExpired (message : Message κ Buffer)
  | delivered (server : ι) (message : Message κ Buffer) (tag : DeliveryTag)
  | retryAccepted (retry : AcceptedRetry ι κ Buffer)
  | retryDeadLettered (message : Message κ Buffer)
  /-- A retry queue is deleted with the message. -/
  | retryLost (message : Message κ Buffer)
  | acknowledgementArrived (server : ι) (arrived : DeliveryTag)
  | channelClosed (server : ι) (channel : ℕ)
  /-- Anything else that happens to a server. -/
  | served (server : ι) (event : JobServerEvent κ Buffer V)

namespace JobSystem

variable {ι κ Buffer V : Type}
variable [DecidableEq ι] [DecidableEq κ] [DecidableEq Buffer] [DecidableEq V]

def create (config : ι → JobServerConfig Buffer V) : JobSystem ι κ Buffer V where
  servers server := .create (config server)
  queue := .empty
  enqueued := []
  expiring := []
  expired := []
  accepted := []

/-- The call has passed the message to `sendToQueue`. -/
def hasSent
    (config : ι → JobServerConfig Buffer V) (system : JobSystem ι κ Buffer V)
    (retry : AcceptedRetry ι κ Buffer) : Bool :=
  match (system.servers retry.server).runs[retry.run]? with
  | some (.attempt run) =>
      decide (run.correlationId = retry.message.correlationId) &&
        run.history.any fun
          | .published call context =>
              decide (call = retry.call) &&
                decide
                  ((config retry.server).jsonBufferSerializer.serialize context =
                    some retry.message.content)
          | _ => false
  | _ => false

/-- A send is confirmed only after its message has reached the broker, and
messages come from the queue only. -/
def isPossible
    (system : JobSystem ι κ Buffer V) (server : ι) :
    JobServerEvent κ Buffer V → Bool
  | .messagePublished _ => false
  | .jobMessage _ _ => false
  | .attempt run (.sendSettled call .fulfilled) =>
      system.accepted.any fun retry =>
        decide (retry.server = server ∧ retry.run = run ∧ retry.call = call)
  | _ => true

/-- The server takes an event. -/
def serve
    (config : ι → JobServerConfig Buffer V) (system : JobSystem ι κ Buffer V)
    (server : ι) (event : JobServerEvent κ Buffer V) :
    Option (JobSystem ι κ Buffer V) :=
  ((system.servers server).step (config server) event).map fun next =>
    { system with servers := update system.servers server next }

/-- The queue takes an event. -/
def stepQueue
    (system : JobSystem ι κ Buffer V)
    (event : WorkQueueEvent (ι × DeliveryTag) (Message κ Buffer)) :
    Option (JobSystem ι κ Buffer V) :=
  (system.queue.step event).map fun next => { system with queue := next }

/-- The deliveries to the server on the channel. -/
def deliveredOn (server : ι) (channel : ℕ) (tag : ι × DeliveryTag) : Bool :=
  decide (tag.1 = server ∧ tag.2.channel = channel)

def step
    (config : ι → JobServerConfig Buffer V) (system : JobSystem ι κ Buffer V) :
    JobSystemEvent ι κ Buffer V → Option (JobSystem ι κ Buffer V)
  | .enqueued message expires =>
      { system with
        enqueued := message :: system.enqueued
        expiring :=
          if expires then message :: system.expiring else system.expiring
      }.stepQueue (.publish message)
  | .jobExpired message =>
      if system.expiring.contains message then
        { system with expired := message :: system.expired }.stepQueue
          (.expire message)
      else
        none
  | .delivered server message tag =>
      (system.serve config server (.messagePublished message)).bind fun known =>
        (known.serve config server (.jobMessage message tag)).bind fun handled =>
          handled.stepQueue (.deliver (server, tag) message)
  | .retryAccepted retry =>
      if system.hasSent config retry then
        { system with accepted := retry :: system.accepted }.stepQueue
          (.publishDelayed retry.message)
      else
        none
  | .retryDeadLettered message => system.stepQueue (.deadLetter message)
  | .retryLost message => system.stepQueue (.lose message)
  | .acknowledgementArrived server arrived =>
      if
        (system.servers server).acknowledged.any fun tag =>
          tag.deliveryTag = arrived.deliveryTag
      then
        match system.stepQueue (.settle (server, arrived)) with
        | some next => some next
        -- An unknown delivery tag is a channel exception.
        | none =>
            system.stepQueue (.requeue (deliveredOn server arrived.channel))
      else
        none
  | .channelClosed server channel =>
      system.stepQueue (.requeue (deliveredOn server channel))
  | .served server event =>
      if system.isPossible server event then
        system.serve config server event
      else
        none

def machine (config : ι → JobServerConfig Buffer V) :
    Machine (JobSystem ι κ Buffer V) (JobSystemEvent ι κ Buffer V) where
  initial := create config
  step := step config

/-- No retry queue is deleted with a message, and an acknowledgement arrives on
the channel of its delivery. -/
def Orderly
    (system : JobSystem ι κ Buffer V) : JobSystemEvent ι κ Buffer V → Prop
  | .retryLost _ => False
  | .acknowledgementArrived server arrived =>
      arrived ∈ (system.servers server).acknowledged
  | _ => True

instance decidableOrderly (system : JobSystem ι κ Buffer V) :
    ∀ event, Decidable (system.Orderly event)
  | .retryLost _ => isFalse id
  | .acknowledgementArrived server arrived =>
      inferInstanceAs (Decidable (arrived ∈ (system.servers server).acknowledged))
  | .enqueued _ _ => isTrue trivial
  | .jobExpired _ => isTrue trivial
  | .delivered _ _ _ => isTrue trivial
  | .retryAccepted _ => isTrue trivial
  | .retryDeadLettered _ => isTrue trivial
  | .channelClosed _ _ => isTrue trivial
  | .served _ _ => isTrue trivial

/-- The run has acknowledged a delivery and recorded the fate of its attempt, and
no retry of it is confirmed. -/
def Finished (operators : JsOperators V) (run : AttemptRun κ V) : Prop :=
  FateRecorded operators run.context run.history ∧
    (∃ tag, .acknowledged tag ∈ run.history) ∧
    ∀ call, .publishConfirmed call ∉ run.history

/-- A message with this correlation id which was published with `expireMs` has
waited too long in the queue. -/
def HasExpired (system : JobSystem ι κ Buffer V) (correlationId : κ) : Prop :=
  ∃ message ∈ system.expired, message ∈ system.expiring ∧
    message.correlationId = correlationId

/-- A run of the message has finished. -/
def HasFinished
    (config : ι → JobServerConfig Buffer V) (system : JobSystem ι κ Buffer V)
    (correlationId : κ) : Prop :=
  ∃ server run, .attempt run ∈ (system.servers server).runs ∧
    run.correlationId = correlationId ∧ Finished (config server).operators run

/-! ## What holds in every run -/

structure Consistent
    (config : ι → JobServerConfig Buffer V) (system : JobSystem ι κ Buffer V) :
    Prop where
  reachable :
    ∀ server,
      (JobServer.machine (config server)).Reachable (system.servers server)
  accounted : system.queue.Accounted
  published :
    system.queue.published.Perm
      (system.enqueued ++ system.accepted.map AcceptedRetry.message)
  kept : system.queue.lost = system.expired
  expired : ∀ message ∈ system.expired, message ∈ system.expiring
  delivered :
    ∀ entry ∈ system.queue.unacknowledged ++ system.queue.settled,
      ∃ delivery ∈ (system.servers entry.1.1).deliveries,
        delivery.tag = entry.1.2 ∧ delivery.message = entry.2
  settled :
    ∀ entry ∈ system.queue.settled,
      entry.1.2 ∈ (system.servers entry.1.1).acknowledged
  accepted :
    ∀ retry ∈ system.accepted,
      ∃ run,
        (system.servers retry.server).runs[retry.run]? = some (.attempt run) ∧
          run.correlationId = retry.message.correlationId
  confirmed :
    ∀ server (index : ℕ) (run : AttemptRun κ V) (call : ℕ),
      (system.servers server).runs[index]? = some (.attempt run) →
        .publishConfirmed call ∈ run.history →
          ∃ retry ∈ system.accepted, retry.server = server ∧ retry.run = index

variable {config : ι → JobServerConfig Buffer V}
variable {system next : JobSystem ι κ Buffer V}

omit [DecidableEq ι] in
theorem consistent_create (config : ι → JobServerConfig Buffer V) :
    (create config : JobSystem ι κ Buffer V).Consistent config where
  reachable server := ⟨[], rfl⟩
  accounted := WorkQueue.accounted_empty
  published := .refl []
  kept := rfl
  expired message member := by cases member
  delivered entry member := by cases member
  settled entry member := by cases member
  accepted retry member := by cases member
  confirmed server index run call present := by cases present

/-- Of what a server was, the system uses only this. -/
structure Continues (before after : JobServer κ Buffer V) : Prop where
  delivered : ∀ delivery ∈ before.deliveries, delivery ∈ after.deliveries
  acknowledged : ∀ tag ∈ before.acknowledged, tag ∈ after.acknowledged
  runs :
    ∀ (index : ℕ) (run : AttemptRun κ V),
      before.runs[index]? = some (.attempt run) →
        ∃ run', after.runs[index]? = some (.attempt run') ∧
          run'.correlationId = run.correlationId

omit [DecidableEq κ] [DecidableEq Buffer] [DecidableEq V] in
theorem continues_refl (server : JobServer κ Buffer V) :
    Continues server server :=
  ⟨fun _ member => member, fun _ member => member,
    fun _ run present => ⟨run, present, rfl⟩⟩

theorem continues_of_step
    {serverConfig : JobServerConfig Buffer V} {before after : JobServer κ Buffer V}
    {event : JobServerEvent κ Buffer V}
    (stepped : before.step serverConfig event = some after) :
    Continues before after := by
  have moves := JobServer.moves_of_step stepped
  refine ⟨fun delivery member => moves.delivered member, ?_, ?_⟩
  · intro tag member
    cases moves with
    | administers undisturbed =>
        rw [undisturbed.acknowledged]
        exact member
    | delivers message new => exact member
    | @steps index event run following effects present taken =>
        rcases JobServer.effects_acknowledged
            { before with
              runs := before.runs.set index (.attempt following) } taken with
          same | ⟨new, grown, _, _⟩
        · rw [same]
          exact member
        · rw [grown]
          exact List.mem_cons_of_mem _ member
  · intro index run present
    obtain ⟨run', present', sameId, _⟩ := moves.run present
    exact ⟨run', present', sameId⟩

theorem serve_cases
    {server : ι} {event : JobServerEvent κ Buffer V}
    (served : system.serve config server event = some next) :
    ∃ after, (system.servers server).step (config server) event = some after ∧
      next = { system with servers := update system.servers server after } := by
  obtain ⟨after, stepped, same⟩ := Option.map_eq_some_iff.mp served
  exact ⟨after, stepped, same.symm⟩

omit [DecidableEq κ] [DecidableEq Buffer] [DecidableEq V] in
theorem continues_update
    {server : ι} {after : JobServer κ Buffer V}
    (continues : Continues (system.servers server) after) (other : ι) :
    Continues (system.servers other) (update system.servers server after other) := by
  by_cases same : other = server
  · subst same
    rw [update_self]
    exact continues
  · rw [update_of_ne same]
    exact continues_refl _

/-- A server may take any step, if only what has reached the broker is
confirmed. -/
theorem Consistent.serve
    (consistent : system.Consistent config)
    {server : ι} {event : JobServerEvent κ Buffer V}
    (served : system.serve config server event = some next)
    (possible :
      ∀ run call, event = .attempt run (.sendSettled call .fulfilled) →
        ∃ retry ∈ system.accepted, retry.server = server ∧ retry.run = run) :
    next.Consistent config := by
  obtain ⟨after, stepped, rfl⟩ := serve_cases served
  have continues := continues_update (continues_of_step stepped)
  refine
    { reachable := ?_
      accounted := consistent.accounted
      published := consistent.published
      kept := consistent.kept
      expired := consistent.expired
      delivered := ?_
      settled := ?_
      accepted := ?_
      confirmed := ?_ }
  · intro other
    by_cases same : other = server
    · subst same
      obtain ⟨schedule, execution⟩ := consistent.reachable other
      refine ⟨schedule ++ [event], ?_⟩
      rw [Machine.run_append, execution]
      simp only [Option.bind_some, Machine.run_singleton, update_self]
      exact stepped
    · simp only [update_of_ne same]
      exact consistent.reachable other
  · intro entry member
    obtain ⟨delivery, known, itsTag, itsMessage⟩ :=
      consistent.delivered entry member
    exact ⟨delivery, (continues entry.1.1).delivered delivery known, itsTag,
      itsMessage⟩
  · intro entry member
    exact (continues entry.1.1).acknowledged _ (consistent.settled entry member)
  · intro retry member
    obtain ⟨run, present, itsId⟩ := consistent.accepted retry member
    obtain ⟨run', present', sameId⟩ :=
      (continues retry.server).runs retry.run run present
    exact ⟨run', present', sameId.trans itsId⟩
  · intro other index run' call present' confirmed
    dsimp only at present'
    by_cases same : other = server
    · subst same
      rw [update_self] at present'
      have moves := JobServer.moves_of_step stepped
      rcases moves.origin present' with ⟨run, present⟩ | unconfirmed
      · obtain ⟨found, place, _, added, history, confirms⟩ := moves.run present
        cases place.symm.trans present'
        rw [history] at confirmed
        rcases List.mem_append.mp confirmed with new | old
        · exact possible index call (confirms call new)
        · exact consistent.confirmed other index run call present old
      · exact absurd confirmed (unconfirmed call)
    · rw [update_of_ne same] at present'
      exact consistent.confirmed other index run' call present' confirmed

/-- The queue may take any step that loses only what has expired, if its
deliveries and settlements are known to the servers. -/
theorem Consistent.stepQueue
    {event : WorkQueueEvent (ι × DeliveryTag) (Message κ Buffer)}
    (consistent : system.Consistent config)
    (enqueued expiring expired : List (Message κ Buffer))
    (accepted : List (AcceptedRetry ι κ Buffer))
    (stepped :
      { system with
        enqueued := enqueued
        expiring := expiring
        expired := expired
        accepted := accepted }.stepQueue event = some next)
    (published :
      (event.publishes ++
          (system.enqueued ++ system.accepted.map AcceptedRetry.message)).Perm
        (enqueued ++ accepted.map AcceptedRetry.message))
    (keeps : event.loses ++ system.expired = expired)
    (expires : ∀ message ∈ expired, message ∈ expiring)
    (delivers :
      ∀ tag message, event = .deliver tag message →
        ∃ delivery ∈ (system.servers tag.1).deliveries,
          delivery.tag = tag.2 ∧ delivery.message = message)
    (settles :
      ∀ tag, event = .settle tag → tag.2 ∈ (system.servers tag.1).acknowledged)
    (known :
      ∀ retry ∈ accepted, retry ∈ system.accepted ∨
        ∃ run,
          (system.servers retry.server).runs[retry.run]? = some (.attempt run) ∧
            run.correlationId = retry.message.correlationId)
    (grown : ∀ retry ∈ system.accepted, retry ∈ accepted) :
    next.Consistent config := by
  obtain ⟨queue, taken, rfl⟩ := Option.map_eq_some_iff.mp stepped
  refine
    { reachable := consistent.reachable
      accounted := consistent.accounted.step taken
      published := ?_
      kept := ?_
      expired := expires
      delivered := ?_
      settled := ?_
      accepted := ?_
      confirmed := ?_ }
  · dsimp only
    rw [WorkQueue.published_step taken]
    exact (consistent.published.append_left _).trans published
  · dsimp only
    rw [WorkQueue.lost_step taken]
    exact (congrArg (event.loses ++ ·) consistent.kept).trans keeps
  · intro entry member
    rcases WorkQueue.entries_step taken member with old | new
    · exact consistent.delivered entry old
    · exact delivers entry.1 entry.2 new
  · intro entry member
    rcases WorkQueue.settled_step taken member with old | new
    · exact consistent.settled entry old
    · exact settles entry.1 new
  · intro retry member
    rcases known retry member with old | new
    · exact consistent.accepted retry old
    · exact new
  · intro server index run call present confirmed
    obtain ⟨retry, member, same⟩ :=
      consistent.confirmed server index run call present confirmed
    exact ⟨retry, grown retry member, same⟩

/-- A step of the queue that publishes nothing. -/
theorem Consistent.moveQueue
    {event : WorkQueueEvent (ι × DeliveryTag) (Message κ Buffer)}
    (consistent : system.Consistent config)
    (stepped : system.stepQueue event = some next)
    (silent : event.publishes = [])
    (keeps : event.loses = [])
    (delivers :
      ∀ tag message, event = .deliver tag message →
        ∃ delivery ∈ (system.servers tag.1).deliveries,
          delivery.tag = tag.2 ∧ delivery.message = message)
    (settles :
      ∀ tag, event = .settle tag →
        tag.2 ∈ (system.servers tag.1).acknowledged) :
    next.Consistent config := by
  refine consistent.stepQueue system.enqueued system.expiring system.expired
    system.accepted stepped ?_ ?_ consistent.expired delivers settles
    (fun retry member => Or.inl member) (fun retry member => member)
  · rw [silent, List.nil_append]
  · rw [keeps, List.nil_append]

omit [DecidableEq ι] [DecidableEq V] in
theorem hasSent_cases
    {retry : AcceptedRetry ι κ Buffer}
    (sent : system.hasSent config retry = true) :
    ∃ run,
      (system.servers retry.server).runs[retry.run]? = some (.attempt run) ∧
        run.correlationId = retry.message.correlationId := by
  unfold hasSent at sent
  split at sent
  · rename_i run present
    rw [Bool.and_eq_true] at sent
    exact ⟨run, present, of_decide_eq_true sent.1⟩
  · cases sent

theorem mem_deliveries_jobMessage
    {serverConfig : JobServerConfig Buffer V} {before after : JobServer κ Buffer V}
    {message : Message κ Buffer} {tag : DeliveryTag}
    (stepped : before.step serverConfig (.jobMessage message tag) = some after) :
    ⟨tag, message⟩ ∈ after.deliveries := by
  simp only [JobServer.step] at stepped
  split at stepped
  · cases stepped
    exact List.mem_cons_self
  · cases stepped

theorem consistent_preserved (config : ι → JobServerConfig Buffer V) :
    (machine config).PreservedUnder Orderly
      (Consistent config : JobSystem ι κ Buffer V → Prop) := by
  intro system event next consistent orderly stepped
  cases event with
  | enqueued message expires =>
      simp only [machine, step] at stepped
      refine consistent.stepQueue (message :: system.enqueued) _ system.expired
        system.accepted stepped (.refl _) rfl ?_ nofun nofun
        (fun retry member => Or.inl member) (fun retry member => member)
      intro other member
      have known := consistent.expired other member
      split
      · exact List.mem_cons_of_mem _ known
      · exact known
  | jobExpired message =>
      simp only [machine, step] at stepped
      split at stepped
      · rename_i expiring
        refine consistent.stepQueue system.enqueued system.expiring
          (message :: system.expired) system.accepted stepped (.refl _) rfl ?_
          nofun nofun (fun retry member => Or.inl member)
          (fun retry member => member)
        intro other member
        rcases List.mem_cons.mp member with rfl | old
        · exact List.contains_iff_mem.mp expiring
        · exact consistent.expired other old
      · cases stepped
  | delivered server message tag =>
      simp only [machine, step] at stepped
      obtain ⟨known, first, rest⟩ := Option.bind_eq_some_iff.mp stepped
      obtain ⟨handled, second, last⟩ := Option.bind_eq_some_iff.mp rest
      have told : known.Consistent config := consistent.serve first nofun
      have took : handled.Consistent config := told.serve second nofun
      obtain ⟨after, taken, rfl⟩ := serve_cases second
      refine took.moveQueue last rfl rfl ?_ nofun
      intro itsTag itsMessage same
      cases same
      refine ⟨⟨tag, message⟩, ?_, rfl, rfl⟩
      dsimp only
      rw [update_self]
      exact mem_deliveries_jobMessage taken
  | retryAccepted retry =>
      simp only [machine, step] at stepped
      split at stepped
      · rename_i sent
        refine consistent.stepQueue system.enqueued system.expiring
          system.expired (retry :: system.accepted) stepped ?_ rfl
          consistent.expired nofun nofun ?_
          (fun other member => List.mem_cons_of_mem _ member)
        · rw [List.map_cons]
          change
            (retry.message ::
                (system.enqueued ++
                  system.accepted.map AcceptedRetry.message)).Perm _
          exact List.perm_middle.symm
        · intro other member
          rcases List.mem_cons.mp member with rfl | old
          · exact Or.inr (hasSent_cases sent)
          · exact Or.inl old
      · cases stepped
  | retryDeadLettered message =>
      exact consistent.moveQueue stepped rfl rfl nofun nofun
  | retryLost message => exact absurd orderly id
  | acknowledgementArrived server arrived =>
      simp only [machine, step] at stepped
      split at stepped
      · split at stepped
        · rename_i settled taken
          cases stepped
          refine consistent.moveQueue taken rfl rfl nofun ?_
          intro tag same
          cases same
          exact orderly
        · exact consistent.moveQueue stepped rfl rfl nofun nofun
      · cases stepped
  | channelClosed server channel =>
      simp only [machine, step] at stepped
      exact consistent.moveQueue stepped rfl rfl nofun nofun
  | served server event =>
      simp only [machine, step] at stepped
      split at stepped
      · rename_i possible
        refine consistent.serve stepped ?_
        intro run call same
        subst same
        obtain ⟨retry, member, decided⟩ := List.any_eq_true.mp possible
        have itsOwn := of_decide_eq_true decided
        exact ⟨retry, member, itsOwn.1, itsOwn.2.1⟩
      · cases stepped

/-! ## Jobs do not vanish -/

/-- A settled delivery and the retry of the run that has acknowledged it. -/
def RetriedBy
    (system : JobSystem ι κ Buffer V)
    (entry : (ι × DeliveryTag) × Message κ Buffer)
    (retry : AcceptedRetry ι κ Buffer) : Prop :=
  entry.1.1 = retry.server ∧
    ∃ run,
      (system.servers retry.server).runs[retry.run]? = some (.attempt run) ∧
        .acknowledged entry.1.2 ∈ run.history

omit [DecidableEq ι] in
/-- While no run of a job is finished, each settled delivery of it has its own
retry at the broker. -/
theorem Consistent.settled_le_accepted
    (consistent : system.Consistent config) (correlationId : κ)
    (unfinished :
      ∀ server run, .attempt run ∈ (system.servers server).runs →
        run.correlationId = correlationId →
          ¬ Finished (config server).operators run) :
    (system.queue.settled.filter fun entry =>
        entry.2.correlationId = correlationId).length ≤
      (system.accepted.filter fun retry =>
        retry.message.correlationId = correlationId).length := by
  have distinctTags : (system.queue.settled.map Prod.fst).Nodup :=
    (List.nodup_append.mp consistent.accounted.distinct).2.1
  have sameEntry :
      ∀ one ∈ system.queue.settled, ∀ two ∈ system.queue.settled,
        one.1 = two.1 → one = two :=
    fun one firstly two secondly =>
      List.inj_on_of_nodup_map distinctTags firstly secondly
  refine WorkQueue.length_le_of_partners system.RetriedBy
    ((List.Nodup.of_map _ distinctTags).filter _) ?_ ?_
  · intro entry member
    obtain ⟨settled, itsId⟩ := List.mem_filter.mp member
    obtain ⟨schedule, execution⟩ := consistent.reachable entry.1.1
    obtain ⟨once, byRuns⟩ := JobServer.acknowledgedByRuns_run execution
    obtain ⟨index, run, present, acknowledged, delivery, known, itsTag, sameId⟩ :=
      byRuns entry.1.2 (consistent.settled entry settled)
    obtain ⟨own, ownKnown, ownTag, ownMessage⟩ :=
      consistent.delivered entry (List.mem_append_right _ settled)
    have sameDelivery :=
      once.delivered_once _ (List.mem_map_of_mem known) _
        (List.mem_map_of_mem ownKnown) (itsTag.trans ownTag.symm)
    have sameKey : delivery.message.correlationId = own.message.correlationId :=
      congrArg KeyedLock.Delivery.key sameDelivery
    have runId : run.correlationId = correlationId := by
      rw [← sameId, sameKey, ownMessage]
      exact of_decide_eq_true itsId
    have member := List.mem_of_getElem? present
    have fate :=
      ((JobServer.runs_acknowledge execution run member).recorded _
        acknowledged).1
    have retried : ∃ call, .publishConfirmed call ∈ run.history := by
      by_contra unconfirmed
      refine unfinished entry.1.1 run member runId
        ⟨fate, ⟨entry.1.2, acknowledged⟩, ?_⟩
      exact fun call confirmed => unconfirmed ⟨call, confirmed⟩
    obtain ⟨call, confirmed⟩ := retried
    obtain ⟨retry, accepted, itsServer, itsRun⟩ :=
      consistent.confirmed entry.1.1 index run call present confirmed
    obtain ⟨found, place, foundId⟩ := consistent.accepted retry accepted
    rw [itsServer, itsRun, present] at place
    cases place
    refine ⟨retry, List.mem_filter.mpr ⟨accepted, ?_⟩, itsServer.symm, run, ?_,
      acknowledged⟩
    · exact decide_eq_true (foundId.symm.trans runId)
    · rw [itsServer, itsRun]
      exact present
  · intro one firstly two secondly retry _ oneRetried twoRetried
    obtain ⟨oneServer, oneRun, onePresent, oneAcknowledged⟩ := oneRetried
    obtain ⟨twoServer, twoRun, twoPresent, twoAcknowledged⟩ := twoRetried
    cases onePresent.symm.trans twoPresent
    obtain ⟨schedule, execution⟩ := consistent.reachable retry.server
    have sameTag :=
      (JobServer.runs_acknowledge execution oneRun
        (List.mem_of_getElem? onePresent)).once _ _ oneAcknowledged
        twoAcknowledged
    exact sameEntry one (List.mem_of_mem_filter firstly) two
      (List.mem_of_mem_filter secondly)
      (Prod.ext (oneServer.trans twoServer.symm) sameTag)

omit [DecidableEq ι] in
/-- Copies of a job that are neither held nor expired were settled, each for a
retry unless a run of the job has finished. -/
theorem Consistent.held_or_finished
    (consistent : system.Consistent config)
    {message : Message κ Buffer} (enqueued : message ∈ system.enqueued) :
    (∃ copy ∈ system.queue.held,
        copy.correlationId = message.correlationId) ∨
      system.HasExpired message.correlationId ∨
        system.HasFinished config message.correlationId := by
  by_contra vanished
  obtain ⟨notHeld, neither⟩ := not_or.mp vanished
  obtain ⟨notExpired, notFinished⟩ := not_or.mp neither
  have settledBound :=
    consistent.settled_le_accepted message.correlationId
      fun server run member itsId finished =>
        notFinished ⟨server, run, member, itsId, finished⟩
  have balance :=
    consistent.accounted.countP fun other : Message κ Buffer =>
      decide (other.correlationId = message.correlationId)
  rw [consistent.published.countP_eq, consistent.kept, List.countP_append,
    List.countP_map, List.countP_map] at balance
  have heldNone :
      system.queue.held.countP (fun other =>
        decide (other.correlationId = message.correlationId)) = 0 := by
    rw [List.countP_eq_zero]
    intro copy member same
    exact notHeld ⟨copy, member, of_decide_eq_true same⟩
  have expiredNone :
      system.expired.countP (fun other =>
        decide (other.correlationId = message.correlationId)) = 0 := by
    rw [List.countP_eq_zero]
    intro copy member same
    exact notExpired
      ⟨copy, member, consistent.expired copy member, of_decide_eq_true same⟩
  have enqueuedSome :
      0 < system.enqueued.countP (fun other =>
        decide (other.correlationId = message.correlationId)) :=
    List.countP_pos_iff.mpr ⟨message, enqueued, decide_eq_true rfl⟩
  rw [← List.countP_eq_length_filter, ← List.countP_eq_length_filter]
    at settledBound
  simp only [Function.comp_def] at balance
  omega

/-- In a run in which no retry queue is deleted with its messages and
acknowledgements arrive on the channels of their deliveries. -/
theorem consistent_run
    {schedule : List (JobSystemEvent ι κ Buffer V)}
    (orderly : (machine config).Throughout Orderly (create config) schedule)
    (execution : (machine config).run (create config) schedule = some system) :
    system.Consistent config :=
  Machine.run_invariant_under (consistent_preserved config)
    (consistent_create config) orderly execution

/-- A job that has reached the queue is with the broker until it expires or one
of its runs has finished: in every run of the system in which no retry queue is
deleted with its messages and acknowledgements arrive on the channels of their
deliveries. -/
theorem jobs_held_or_finished
    (config : ι → JobServerConfig Buffer V)
    (schedule : List (JobSystemEvent ι κ Buffer V))
    (system : JobSystem ι κ Buffer V)
    (orderly : (machine config).Throughout Orderly (create config) schedule)
    (execution : (machine config).run (create config) schedule = some system) :
    ∀ message ∈ system.enqueued,
      (∃ copy ∈ system.queue.held,
          copy.correlationId = message.correlationId) ∨
        system.HasExpired message.correlationId ∨
          system.HasFinished config message.correlationId := by
  intro message enqueued
  exact (consistent_run orderly execution).held_or_finished enqueued

/-- A first attempt fails, its retry reaches the broker, and the first delivery
is settled. -/
def retriedJob : List (JobSystemEvent Unit ℕ (SerializedContext ℤ) ℤ) :=
  [.served () .listen, .served () (.setJobHandler 7 .function),
    .enqueued (JobServer.integerMessage 1) true,
    .delivered () (JobServer.integerMessage 1) ⟨0, 1⟩,
    .served () (.attempt 0 (.handlerSettled .rejected)),
    .served () (.attempt 0 (.handleErrorSettled .rejected)),
    .served () (.attempt 0 (.retryQueueSettled 0 .fulfilled)),
    .retryAccepted ⟨(), 0, 0, JobServer.integerMessage 2⟩,
    .served () (.attempt 0 (.sendSettled 0 .fulfilled)),
    .served () (.attempt 0 .defaultRetrySettled),
    .served () (.attempt 0 .proceed),
    .acknowledgementArrived () ⟨0, 1⟩]

theorem jobs_held_or_finished_retried :
    ∃ system : JobSystem Unit ℕ (SerializedContext ℤ) ℤ,
      (machine fun _ => JobServer.integerConfig).run
          (create fun _ => JobServer.integerConfig) retriedJob = some system ∧
        system.queue.held = [JobServer.integerMessage 2] ∧
        ((∃ copy ∈ system.queue.held, copy.correlationId = 1) ∨
          system.HasExpired 1 ∨
            system.HasFinished (fun _ => JobServer.integerConfig) 1) :=
  ⟨_, rfl, rfl,
    jobs_held_or_finished (fun _ => JobServer.integerConfig) retriedJob _
      (by decide) rfl (JobServer.integerMessage 1) List.mem_cons_self⟩

end JobSystem

end Amq.Jobs
