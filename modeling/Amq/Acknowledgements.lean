import Amq.Jobs.JobServerLock
import Amq.Rpc.RpcServer

/-!
# Acknowledging a delivery once

Both servers unlock every message when the connection or the channel has been
replaced, while their earlier runs still work.  A redelivery then starts a
second run for the same correlation id, and both runs read the tag that was
stored last.  The lock is released only when an acknowledgement has settled, so
the tag is acknowledged twice exactly when one run reads it while the other is
still waiting for its acknowledgement.
-/


namespace Amq

open Amq.Transition

namespace Jobs.JobServer

variable {κ Buffer V : Type} [DecidableEq κ] [DecidableEq Buffer] [DecidableEq V]

/-- A run that is about to read its delivery tag is the only one that
acknowledges this tag. -/
def NoOverlap
    (server : JobServer κ Buffer V) : JobServerEvent κ Buffer V → Prop
  | .attempt index .proceed =>
      server.state ≠ .disposed →
        ∀ run, server.runs[index]? = some (.attempt run) →
          ∀ tag,
            server.messageRelevancyChecker.getDeliveryTag run.correlationId =
                some tag →
              ∀ other, JobRun.attempt other ∈ server.runs →
                other.phase ≠ .acknowledging tag
  | _ => True

omit [DecidableEq κ] [DecidableEq Buffer] [DecidableEq V] in
theorem lockMove_eq_acknowledge_iff
    (run next : AttemptRun κ V) (effects : List (Effect κ Buffer))
    (tag : DeliveryTag) :
    run.lockMove next effects = .acknowledge tag ↔
      effects = [.acknowledge tag] := by
  unfold AttemptRun.lockMove
  split
  · simp
  · simp
  · rename_i notAcknowledge _
    constructor
    · exact fun same =>
        absurd same (KeyedLock.Move.between_ne_acknowledge _ _ tag)
    · exact fun same => absurd same (notAcknowledge tag)

omit [DecidableEq κ] [DecidableEq Buffer] [DecidableEq V] in
theorem noOverlap_acknowledge_iff
    (config : JobServerConfig Buffer V) (server : JobServer κ Buffer V)
    {index : ℕ} {run : AttemptRun κ V} {tag : DeliveryTag}
    (present : server.runs[index]? = some (.attempt run))
    (actual :
      server.messageRelevancyChecker.getDeliveryTag run.correlationId =
        some tag) :
    KeyedLock.NoOverlap (lockState config server) (.acknowledge index) ↔
      ∀ other, JobRun.attempt other ∈ server.runs →
        other.phase ≠ .acknowledging tag := by
  have held :
      (lockState config server).holders[index]? = some run.holder := by
    simp [lockState, present, JobRun.holder]
  have stored : (lockState config server).stored run.holder.key = some tag :=
    MessageRelevancyChecker.stored_of_getDeliveryTag actual
  simp only [KeyedLock.NoOverlap, held, Option.mem_def, Option.some.injEq,
    forall_eq', stored]
  constructor
  · intro alone other member acknowledging
    refine alone other.holder (List.mem_map.mpr ⟨_, member, rfl⟩) ?_
    exact (AttemptPhase.lockPhase_acknowledging_iff _ tag).mpr acknowledging
  · intro alone holder member acknowledging
    obtain ⟨jobRun, present, rfl⟩ := List.mem_map.mp member
    cases jobRun with
    | undeserialized correlationId => cases acknowledging
    | attempt other =>
        exact alone other present
          ((AttemptPhase.lockPhase_acknowledging_iff _ tag).mp acknowledging)

theorem throughout_noOverlap_lockEvents
    {config : JobServerConfig Buffer V} {server next : JobServer κ Buffer V}
    {event : JobServerEvent κ Buffer V}
    (stepped : server.step config event = some next) :
    server.NoOverlap event ↔
      KeyedLock.machine.Throughout KeyedLock.NoOverlap
        (lockState config server) (lockEvents config server event) := by
  cases event with
  | attempt index event =>
      simp only [step, stepAttempt] at stepped
      split at stepped
      · rename_i run present
        split at stepped
        · rename_i following effects taken
          simp only [lockEvents, present, taken,
            KeyedLock.throughout_noOverlap_events, lockMove_eq_acknowledge_iff]
          cases AttemptRun.steps_of_step taken with
          | proceedAcknowledging tag processed live actual =>
              have notDisposed : server.state ≠ .disposed := by
                simpa [surroundings] using live
              rw [noOverlap_acknowledge_iff config server present actual]
              simp only [NoOverlap, present, Option.some.injEq,
                JobRun.attempt.injEq, forall_eq']
              constructor
              · exact fun alone _ _ => alone notDisposed tag actual
              · intro alone _ other sameTag
                have same : tag = other :=
                  Option.some.inj (actual.symm.trans sameTag)
                subst same
                exact alone tag rfl
          | proceedDisposed processed disposed =>
              have isDisposed : server.state = .disposed := by
                simpa [surroundings] using disposed
              simp [NoOverlap, isDisposed]
          | proceedUnlocking processed live actual =>
              have none :
                  server.messageRelevancyChecker.getDeliveryTag
                    run.correlationId = none := actual
              simp [NoOverlap, present, none]
          | _ => simp [NoOverlap]
        · cases stepped
      · cases stepped
  | jobMessage message tag =>
      simp only [NoOverlap, true_iff, lockEvents]
      refine ⟨trivial, ?_⟩
      intro following _
      split
      · exact KeyedLock.throughout_noOverlap_between _ _ _ _
      · trivial
  | amqpReconnected =>
      simp only [NoOverlap, true_iff, lockEvents]
      split <;> simp [Machine.Throughout, KeyedLock.NoOverlap]
  | amqpChannelRecreated =>
      simp only [NoOverlap, true_iff, lockEvents]
      split <;> simp [Machine.Throughout, KeyedLock.NoOverlap]
  | _ => simp [NoOverlap, lockEvents, Machine.Throughout]

/-- A job server acknowledges no tag twice exactly when no run reads a tag which
another run is acknowledging. -/
theorem nodup_acknowledged_iff
    {config : JobServerConfig Buffer V}
    {schedule : List (JobServerEvent κ Buffer V)} {server : JobServer κ Buffer V}
    (execution :
      (machine config).run (machine config).initial schedule = some server) :
    server.acknowledged.Nodup ↔
      (machine config).Throughout NoOverlap (machine config).initial schedule := by
  have lockRun := (lockRefinement config).run_translate execution
  rw [(lockRefinement config).throughout_translate
    (fun state event next stepped => throughout_noOverlap_lockEvents stepped)
    execution]
  rw [(lockRefinement config).initial] at lockRun ⊢
  exact KeyedLock.acknowledged_nodup_iff_no_overlap lockRun

end Jobs.JobServer

namespace Rpc.RpcServer

variable {κ Buffer V : Type} [DecidableEq κ] [DecidableEq V]

/-- A run that is about to read its delivery tag is the only one that
acknowledges this tag. -/
def NoOverlap
    (server : RpcServer κ Buffer V) : RpcServerEvent κ Buffer V → Prop
  | .command index .proceed =>
      server.state ≠ .disposed →
        ∀ run, server.runs[index]? = some run →
          run.phase = .handled none ∨ run.phase = .replied →
          ∀ tag,
            server.messageRelevancyChecker.getDeliveryTag run.correlationId =
                some tag →
              ∀ other ∈ server.runs, other.phase ≠ .acknowledging tag
  | _ => True

omit [DecidableEq κ] [DecidableEq V] in
theorem lockMove_eq_acknowledge_iff
    (run next : CommandRun κ V) (effects : List (CommandEffect κ Buffer))
    (tag : DeliveryTag) :
    run.lockMove next effects = .acknowledge tag ↔
      effects = [.acknowledge tag] := by
  unfold CommandRun.lockMove
  split
  · simp
  · simp
  · rename_i notAcknowledge _
    constructor
    · exact fun same =>
        absurd same (KeyedLock.Move.between_ne_acknowledge _ _ tag)
    · exact fun same => absurd same (notAcknowledge tag)

omit [DecidableEq κ] [DecidableEq V] in
theorem noOverlap_acknowledge_iff
    (server : RpcServer κ Buffer V)
    {index : ℕ} {run : CommandRun κ V} {tag : DeliveryTag}
    (present : server.runs[index]? = some run)
    (actual :
      server.messageRelevancyChecker.getDeliveryTag run.correlationId =
        some tag) :
    KeyedLock.NoOverlap (lockState server) (.acknowledge index) ↔
      ∀ other ∈ server.runs, other.phase ≠ .acknowledging tag := by
  have held : (lockState server).holders[index]? = some run.holder := by
    simp [lockState, present]
  have stored : (lockState server).stored run.holder.key = some tag :=
    MessageRelevancyChecker.stored_of_getDeliveryTag actual
  simp only [KeyedLock.NoOverlap, held, Option.mem_def, Option.some.injEq,
    forall_eq', stored]
  constructor
  · intro alone other member acknowledging
    refine alone other.holder (List.mem_map.mpr ⟨_, member, rfl⟩) ?_
    exact (CommandPhase.lockPhase_acknowledging_iff _ tag).mpr acknowledging
  · intro alone holder member acknowledging
    obtain ⟨other, present, rfl⟩ := List.mem_map.mp member
    exact alone other present
      ((CommandPhase.lockPhase_acknowledging_iff _ tag).mp acknowledging)

theorem throughout_noOverlap_lockEvents
    {config : RpcServerConfig Buffer V} {server next : RpcServer κ Buffer V}
    {event : RpcServerEvent κ Buffer V}
    (stepped : server.step config event = some next) :
    server.NoOverlap event ↔
      KeyedLock.machine.Throughout KeyedLock.NoOverlap
        (lockState server) (lockEvents config server event) := by
  cases event with
  | command index event =>
      simp only [step, stepCommand] at stepped
      split at stepped
      · rename_i run present
        split at stepped
        · rename_i following effects taken
          simp only [lockEvents, present, taken,
            KeyedLock.throughout_noOverlap_events, lockMove_eq_acknowledge_iff]
          cases CommandRun.steps_of_step taken with
          | proceedAcknowledging tag answered live actual =>
              have notDisposed : server.state ≠ .disposed := by
                simpa [surroundings] using live
              rw [noOverlap_acknowledge_iff server present actual]
              simp only [NoOverlap, present, Option.some.injEq, forall_eq']
              constructor
              · exact fun alone _ _ => alone notDisposed answered tag actual
              · intro alone _ _ other sameTag
                have same : tag = other :=
                  Option.some.inj (actual.symm.trans sameTag)
                subst same
                exact alone tag rfl
          | proceedDisposed answered disposed =>
              have isDisposed : server.state = .disposed := by
                simpa [surroundings] using disposed
              simp [NoOverlap, isDisposed]
          | proceedUnlocking answered live actual =>
              have none :
                  server.messageRelevancyChecker.getDeliveryTag
                    run.correlationId = none := actual
              simp [NoOverlap, present, none]
          | notReplied reply handled hindered =>
              simp [NoOverlap, present, handled]
          | replying reply content handled live serialized =>
              simp [NoOverlap, present, handled]
          | _ => simp [NoOverlap]
        · cases stepped
      · cases stepped
  | commandMessage message tag =>
      simp only [NoOverlap, true_iff, lockEvents]
      refine ⟨trivial, ?_⟩
      intro following _
      split
      · exact KeyedLock.throughout_noOverlap_between _ _ _ _
      · trivial
  | amqpReconnected =>
      simp only [NoOverlap, true_iff, lockEvents]
      split <;> simp [Machine.Throughout, KeyedLock.NoOverlap]
  | amqpChannelRecreated =>
      simp only [NoOverlap, true_iff, lockEvents]
      split <;> simp [Machine.Throughout, KeyedLock.NoOverlap]
  | _ => simp [NoOverlap, lockEvents, Machine.Throughout]

/-- An RPC server acknowledges no tag twice exactly when no run reads a tag which
another run is acknowledging. -/
theorem nodup_acknowledged_iff
    {config : RpcServerConfig Buffer V}
    {schedule : List (RpcServerEvent κ Buffer V)} {server : RpcServer κ Buffer V}
    (execution :
      (machine config).run (machine config).initial schedule = some server) :
    server.acknowledged.Nodup ↔
      (machine config).Throughout NoOverlap (machine config).initial schedule := by
  have lockRun := (lockRefinement config).run_translate execution
  rw [(lockRefinement config).throughout_translate
    (fun state event next stepped => throughout_noOverlap_lockEvents stepped)
    execution]
  rw [(lockRefinement config).initial] at lockRun ⊢
  exact KeyedLock.acknowledged_nodup_iff_no_overlap lockRun

end Rpc.RpcServer

section Servers

variable {κ Buffer V : Type} [DecidableEq κ] [DecidableEq Buffer] [DecidableEq V]
variable {κ' Buffer' V' : Type} [DecidableEq κ'] [DecidableEq V']

/-- Either server acknowledges every delivery at most once exactly when none of
its runs reads a tag which another run is acknowledging. -/
theorem acknowledged_once_iff_noOverlap
    (jobConfig : Jobs.JobServerConfig Buffer V)
    (jobSchedule : List (Jobs.JobServerEvent κ Buffer V))
    (jobServer : Jobs.JobServer κ Buffer V)
    (jobExecution :
      (Jobs.JobServer.machine jobConfig).run
          (Jobs.JobServer.machine jobConfig).initial jobSchedule =
        some jobServer)
    (rpcConfig : Rpc.RpcServerConfig Buffer' V')
    (rpcSchedule : List (Rpc.RpcServerEvent κ' Buffer' V'))
    (rpcServer : Rpc.RpcServer κ' Buffer' V')
    (rpcExecution :
      (Rpc.RpcServer.machine rpcConfig).run
          (Rpc.RpcServer.machine rpcConfig).initial rpcSchedule =
        some rpcServer) :
    (jobServer.acknowledged.Nodup ↔
        (Jobs.JobServer.machine jobConfig).Throughout Jobs.JobServer.NoOverlap
          (Jobs.JobServer.machine jobConfig).initial jobSchedule) ∧
      (rpcServer.acknowledged.Nodup ↔
        (Rpc.RpcServer.machine rpcConfig).Throughout Rpc.RpcServer.NoOverlap
          (Rpc.RpcServer.machine rpcConfig).initial rpcSchedule) :=
  ⟨Jobs.JobServer.nodup_acknowledged_iff jobExecution,
    Rpc.RpcServer.nodup_acknowledged_iff rpcExecution⟩

end Servers

/-- A first attempt is handled and acknowledged. -/
def acknowledgedJob :
    List (Jobs.JobServerEvent ℕ (Jobs.SerializedContext ℤ) ℤ) :=
  Jobs.JobServer.firstDelivery ++
    [.attempt 0 (.handlerSettled .fulfilled), .attempt 0 .proceed]

/-- A command is handled, answered and acknowledged. -/
def acknowledgedCommand : List (Rpc.RpcServerEvent ℕ ℤ ℤ) :=
  Rpc.RpcServer.firstDelivery ++
    [.command 0 (.handlerSettled (.resolved (some 3))), .command 0 .proceed,
      .command 0 (.replySettled .fulfilled), .command 0 .proceed]

theorem acknowledged_once_iff_noOverlap_first :
    (Jobs.JobServer.machine Jobs.JobServer.integerConfig).Throughout
        Jobs.JobServer.NoOverlap
        (Jobs.JobServer.machine Jobs.JobServer.integerConfig).initial
        acknowledgedJob ∧
      (Rpc.RpcServer.machine Rpc.RpcServer.integerConfig).Throughout
        Rpc.RpcServer.NoOverlap
        (Rpc.RpcServer.machine Rpc.RpcServer.integerConfig).initial
        acknowledgedCommand := by
  have decided :=
    acknowledged_once_iff_noOverlap
      Jobs.JobServer.integerConfig acknowledgedJob _ rfl
      Rpc.RpcServer.integerConfig acknowledgedCommand _ rfl
  exact ⟨decided.1.mp (List.nodup_singleton _),
    decided.2.mp (List.nodup_singleton _)⟩

/-- The connection is replaced while the first run works, the message comes
again, and both runs reach `acknowledge` before the first acknowledgement has
settled. -/
def redeliveredJob :
    List (Jobs.JobServerEvent ℕ (Jobs.SerializedContext ℤ) ℤ) :=
  Jobs.JobServer.firstDelivery ++
    [.amqpReconnected,
      .jobMessage (Jobs.JobServer.integerMessage 1) ⟨1, 1⟩,
      .attempt 0 (.handlerSettled .fulfilled), .attempt 0 .proceed,
      .attempt 1 (.handlerSettled .fulfilled), .attempt 1 .proceed]

/-- The same for a command; both replies have been accepted. -/
def redeliveredCommand : List (Rpc.RpcServerEvent ℕ ℤ ℤ) :=
  Rpc.RpcServer.firstDelivery ++
    [.amqpReconnected,
      .commandMessage Rpc.RpcServer.integerMessage ⟨1, 1⟩,
      .command 0 (.handlerSettled (.resolved (some 3))), .command 0 .proceed,
      .command 0 (.replySettled .fulfilled),
      .command 1 (.handlerSettled (.resolved (some 3))), .command 1 .proceed,
      .command 1 (.replySettled .fulfilled),
      .command 0 .proceed, .command 1 .proceed]

theorem redelivered_acknowledged_twice :
    (∃ jobServer : Jobs.JobServer ℕ (Jobs.SerializedContext ℤ) ℤ,
      (Jobs.JobServer.machine Jobs.JobServer.integerConfig).run
          (Jobs.JobServer.machine Jobs.JobServer.integerConfig).initial
          redeliveredJob = some jobServer ∧
        ¬ jobServer.acknowledged.Nodup) ∧
      ∃ rpcServer : Rpc.RpcServer ℕ ℤ ℤ,
        (Rpc.RpcServer.machine Rpc.RpcServer.integerConfig).run
            (Rpc.RpcServer.machine Rpc.RpcServer.integerConfig).initial
            redeliveredCommand = some rpcServer ∧
          ¬ rpcServer.acknowledged.Nodup := by
  constructor
  · refine ⟨_, rfl, ?_⟩
    intro distinct
    exact (List.nodup_cons.mp distinct).1 (.head _)
  · refine ⟨_, rfl, ?_⟩
    intro distinct
    exact (List.nodup_cons.mp distinct).1 (.head _)

end Amq
