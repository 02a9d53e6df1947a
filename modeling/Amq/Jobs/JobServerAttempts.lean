import Amq.Jobs.JobServerLock

/-!
# Acknowledging processed attempts

`Scheduler.retry` publishes the next attempt under the correlation id of the
current one.  While the current run still works, the delivery of that next
attempt is swallowed and replaces the stored tag, so the run acknowledges an
attempt nobody has processed.  The condition `AttemptsAgree` excludes exactly
such deliveries, and then only processed attempts are acknowledged.
-/


namespace Amq.Jobs.JobServer

open Amq.Transition

variable {κ Buffer V : Type} [DecidableEq κ] [DecidableEq Buffer] [DecidableEq V]

/-- A run for this correlation id and attempt has finished its handler, its
error handling or its discard. -/
def Processed
    (server : JobServer κ Buffer V) (correlationId : κ) (attempt : V) : Prop :=
  ∃ run, JobRun.attempt run ∈ server.runs ∧
    run.correlationId = correlationId ∧ run.context.attempt = attempt ∧
    run.hasProcessed = true

/-- A delivered attempt is that of every run which holds its correlation id and
has not read its tag yet, or it has been processed before. -/
def AttemptsAgree
    (config : JobServerConfig Buffer V) (server : JobServer κ Buffer V) :
    JobServerEvent κ Buffer V → Prop
  | .jobMessage message _ =>
      ∀ context,
        config.jsonBufferSerializer.deserialize message.content = some context →
        ∀ run, JobRun.attempt run ∈ server.runs →
          run.correlationId = message.correlationId →
          run.phase.awaitsTag = true →
          run.context.attempt = context.attempt ∨
            server.Processed message.correlationId context.attempt
  | _ => True

omit [DecidableEq κ] [DecidableEq Buffer] [DecidableEq V] in
theorem completed_lockState_iff
    (config : JobServerConfig Buffer V) (server : JobServer κ Buffer V)
    (correlationId : κ) (attempt : V) :
    KeyedLock.Completed (lockState config server) correlationId attempt ↔
      server.Processed correlationId attempt := by
  constructor
  · rintro ⟨holder, member, itsKey, itsLabel, completed⟩
    obtain ⟨jobRun, present, rfl⟩ := List.mem_map.mp member
    cases jobRun with
    | undeserialized other => cases completed
    | attempt run =>
        exact ⟨run, present, itsKey, Option.some.inj itsLabel, completed⟩
  · rintro ⟨run, present, itsKey, itsAttempt, processed⟩
    refine ⟨run.holder, List.mem_map.mpr ⟨_, present, rfl⟩, itsKey, ?_,
      processed⟩
    exact congrArg some itsAttempt

omit [DecidableEq κ] [DecidableEq Buffer] [DecidableEq V] in
theorem labelsAgree_deliver_iff
    (config : JobServerConfig Buffer V) (server : JobServer κ Buffer V)
    (message : Message κ Buffer) (tag : DeliveryTag) :
    KeyedLock.LabelsAgree (lockState config server)
        (.deliver message.correlationId
          (lockDelivery config ⟨tag, message⟩).label tag) ↔
      AttemptsAgree config server (.jobMessage message tag) := by
  constructor
  · intro agree context deserialized run present sameId awaits
    have carried :
        context.attempt ∈ (lockDelivery config ⟨tag, message⟩).label := by
      simp [lockDelivery, deserialized]
    have decided :=
      agree context.attempt carried run.holder
        (List.mem_map.mpr ⟨_, present, rfl⟩) sameId
        ((AttemptPhase.awaitsTag_iff run.phase).mp awaits)
    rw [completed_lockState_iff] at decided
    exact decided.imp_left Option.some.inj
  · intro agree attempt carried holder member sameKey active
    rw [completed_lockState_iff]
    simp only [lockDelivery, Option.mem_def, Option.map_eq_some_iff] at carried
    obtain ⟨context, deserialized, rfl⟩ := carried
    obtain ⟨jobRun, present, rfl⟩ := List.mem_map.mp member
    cases jobRun with
    | undeserialized other =>
        rcases active with working | completed
        · cases working
        · cases completed
    | attempt run =>
        have awaits := (AttemptPhase.awaitsTag_iff run.phase).mpr active
        exact (agree context deserialized run present sameKey awaits).imp_left
          (congrArg some)

theorem throughout_labelsAgree_lockEvents
    {config : JobServerConfig Buffer V} {server next : JobServer κ Buffer V}
    {event : JobServerEvent κ Buffer V}
    (stepped : server.step config event = some next) :
    AttemptsAgree config server event ↔
      KeyedLock.machine.Throughout KeyedLock.LabelsAgree
        (lockState config server) (lockEvents config server event) := by
  cases event with
  | jobMessage message tag =>
      rw [← labelsAgree_deliver_iff config server message tag]
      simp only [lockEvents, Machine.Throughout]
      refine (and_iff_left ?_).symm
      intro following _
      split
      · exact KeyedLock.throughout_labelsAgree_events _ _ _
      · trivial
  | attempt index event =>
      simp only [AttemptsAgree, true_iff, lockEvents]
      split
      · split
        · exact KeyedLock.throughout_labelsAgree_events _ _ _
        · trivial
      · trivial
  | amqpReconnected =>
      simp only [AttemptsAgree, true_iff, lockEvents]
      split <;> simp [Machine.Throughout, KeyedLock.LabelsAgree]
  | amqpChannelRecreated =>
      simp only [AttemptsAgree, true_iff, lockEvents]
      split <;> simp [Machine.Throughout, KeyedLock.LabelsAgree]
  | _ => simp [AttemptsAgree, lockEvents, Machine.Throughout]

/-- While delivered attempts agree with the runs in progress, every acknowledged
delivery carries an attempt that has been processed. -/
theorem acknowledged_attempts_processed
    (config : JobServerConfig Buffer V)
    (schedule : List (JobServerEvent κ Buffer V))
    (server : JobServer κ Buffer V)
    (attemptsAgree :
      (machine config).Throughout (AttemptsAgree config)
        (machine config).initial schedule)
    (execution :
      (machine config).run (machine config).initial schedule = some server) :
    ∀ delivery ∈ server.deliveries, delivery.tag ∈ server.acknowledged →
      ∀ context,
        config.jsonBufferSerializer.deserialize delivery.message.content =
          some context →
        server.Processed delivery.message.correlationId context.attempt := by
  intro delivery member acknowledged context deserialized
  have labelsAgree :=
    ((lockRefinement config).throughout_translate
      (fun state event next stepped =>
        throughout_labelsAgree_lockEvents stepped) execution).mp attemptsAgree
  have lockRun := (lockRefinement config).run_translate execution
  rw [(lockRefinement config).initial] at labelsAgree lockRun
  have completed :=
    KeyedLock.acknowledged_labels_completed labelsAgree lockRun
      (lockDelivery config delivery) (List.mem_map.mpr ⟨_, member, rfl⟩)
      context.attempt (by simp [lockDelivery, deserialized]) acknowledged
  exact (completed_lockState_iff config server _ _).mp completed

/-- The message is delivered once more while its handler is running. -/
def redelivered : List (JobServerEvent ℕ (SerializedContext ℤ) ℤ) :=
  firstDelivery ++
    [.jobMessage (integerMessage 1) ⟨0, 2⟩,
      .attempt 0 (.handlerSettled .fulfilled), .attempt 0 .proceed]

theorem acknowledged_attempts_processed_redelivered :
    ∃ server : JobServer ℕ (SerializedContext ℤ) ℤ,
      (machine integerConfig).run (machine integerConfig).initial redelivered =
        some server ∧
      server.deliveries.map Delivery.tag = [⟨0, 2⟩, ⟨0, 1⟩] ∧
      server.acknowledged = [⟨0, 2⟩] ∧ server.Processed 1 1 := by
  refine ⟨_, rfl, rfl, rfl, ?_⟩
  refine acknowledged_attempts_processed integerConfig redelivered _ ?_ rfl
    ⟨⟨0, 2⟩, integerMessage 1⟩ (.head _) (.head _) ⟨7, 0, 0, 1⟩ rfl
  refine Machine.throughout_cons trivial rfl ?_
  refine Machine.throughout_cons trivial rfl ?_
  refine Machine.throughout_cons trivial rfl ?_
  refine Machine.throughout_cons ?_ rfl ?_
  · rintro context deserialized run ⟨⟩
  refine Machine.throughout_cons ?_ rfl ?_
  · intro context deserialized run present _ _
    cases deserialized
    rcases present with _ | ⟨_, ⟨⟩⟩
    exact Or.inl rfl
  refine Machine.throughout_cons trivial rfl ?_
  exact Machine.throughout_cons trivial rfl trivial

/-- The handler calls `scheduler.retry({ retryDelayMs: 1 })` and keeps running
until the second attempt has been delivered. -/
def earlyRetry : List (JobServerEvent ℕ (SerializedContext ℤ) ℤ) :=
  firstDelivery ++
    [.attempt 0 (.retryCalled ⟨some (.ofNat 1), none, false⟩),
      .attempt 0 (.retryQueueSettled 0 .fulfilled),
      .attempt 0 (.sendSettled 0 .fulfilled),
      .jobMessage (integerMessage 2) ⟨0, 2⟩,
      .attempt 0 (.handlerSettled .fulfilled), .attempt 0 .proceed]

theorem earlyRetry_acknowledges_unprocessed :
    ¬ ∀ (schedule : List (JobServerEvent ℕ (SerializedContext ℤ) ℤ))
        (server : JobServer ℕ (SerializedContext ℤ) ℤ),
      (machine integerConfig).run (machine integerConfig).initial schedule =
          some server →
        ∀ delivery ∈ server.deliveries, delivery.tag ∈ server.acknowledged →
          ∀ context,
            integerConfig.jsonBufferSerializer.deserialize
                delivery.message.content = some context →
            server.Processed delivery.message.correlationId context.attempt := by
  intro acknowledgedProcessed
  obtain ⟨run, member, _, itsAttempt, _⟩ :=
    acknowledgedProcessed earlyRetry _ rfl ⟨⟨0, 2⟩, integerMessage 2⟩ (.head _)
      (.head _) ⟨7, 0, 0, 2⟩ rfl
  rcases member with _ | ⟨_, ⟨⟩⟩
  cases itsAttempt

end Amq.Jobs.JobServer
