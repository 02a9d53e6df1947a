import Amq.LockRelease
import Amq.Transition.LockOccupancy

/-!
# How many runs work on one message

Both servers keep a message away from a second run while a first one has its
correlation id locked.  When the connection or the channel has been replaced,
all messages are unlocked, and a redelivery starts a run beside the earlier one.
A run that ends late even unlocks the message of its successor.  Nevertheless
each replacement accounts for one run in progress at most.
-/


namespace Amq

open Amq.Transition

namespace Jobs

/-- The event unlocks all messages of a server that is listening. -/
def JobServerEvent.unlocksMessages {κ Buffer V : Type} :
    JobServerEvent κ Buffer V → Bool
  | .amqpReconnected => true
  | .amqpChannelRecreated => true
  | _ => false

def AttemptPhase.isInProgress : AttemptPhase → Bool
  | .ended => false
  | _ => true

/-- A run for `correlationId` which has not ended. -/
def JobRun.worksOn {κ V : Type} [DecidableEq κ] (correlationId : κ) :
    JobRun κ V → Bool
  | .undeserialized _ => false
  | .attempt run => run.correlationId = correlationId && run.phase.isInProgress

namespace JobServer

variable {κ Buffer V : Type} [DecidableEq κ] [DecidableEq Buffer] [DecidableEq V]

/-- The number of runs of `handleJobMessage` that work on one message. -/
def runsInProgress (server : JobServer κ Buffer V) (correlationId : κ) : ℕ :=
  server.runs.countP (JobRun.worksOn correlationId)

omit [DecidableEq V] in
theorem occupies_holder (correlationId : κ) (run : JobRun κ V) :
    run.holder.occupies correlationId = run.worksOn correlationId := by
  cases run with
  | undeserialized other => exact Bool.and_false _
  | attempt run =>
      have same : run.phase.lockPhase.isInProgress = run.phase.isInProgress := by
        cases run.phase <;> rfl
      exact congrArg (decide (run.correlationId = correlationId) && ·) same

omit [DecidableEq Buffer] [DecidableEq V] in
theorem occupancy_lockState
    (config : JobServerConfig Buffer V) (server : JobServer κ Buffer V)
    (correlationId : κ) :
    (lockState config server).occupancy correlationId =
      server.runsInProgress correlationId := by
  simp only [KeyedLock.State.occupancy, lockState, runsInProgress,
    List.countP_map]
  apply List.countP_congr
  intro run _
  simp only [Function.comp_apply, occupies_holder]

omit [DecidableEq Buffer] [DecidableEq V] [DecidableEq κ] in
theorem countP_lockEvents_le
    (config : JobServerConfig Buffer V) (server : JobServer κ Buffer V)
    (event : JobServerEvent κ Buffer V) :
    (lockEvents config server event).countP KeyedLock.Event.isReleaseAll ≤
      if event.unlocksMessages then 1 else 0 := by
  cases event with
  | amqpReconnected =>
      simp only [lockEvents]
      split <;>
        simp [JobServerEvent.unlocksMessages, KeyedLock.Event.isReleaseAll]
  | amqpChannelRecreated =>
      simp only [lockEvents]
      split <;>
        simp [JobServerEvent.unlocksMessages, KeyedLock.Event.isReleaseAll]
  | jobMessage message tag =>
      simp only [lockEvents]
      split <;>
        simp [JobServerEvent.unlocksMessages, KeyedLock.Event.isReleaseAll]
  | attempt index event =>
      simp only [lockEvents]
      split
      · split <;> simp
      · simp
  | _ => simp [lockEvents]

theorem runsInProgress_le
    {config : JobServerConfig Buffer V}
    {schedule : List (JobServerEvent κ Buffer V)} {server : JobServer κ Buffer V}
    (execution :
      (machine config).run (machine config).initial schedule = some server)
    (correlationId : κ) :
    server.runsInProgress correlationId ≤
      1 + schedule.countP JobServerEvent.unlocksMessages := by
  have lockRun := (lockRefinement config).run_translate execution
  rw [(lockRefinement config).initial] at lockRun
  have bound := KeyedLock.occupancy_le lockRun correlationId
  have rare :=
    (lockRefinement config).countP_translateRun_le
      (countP_lockEvents_le config) (machine config).initial schedule
  have same := occupancy_lockState config server correlationId
  simp only [lockRefinement] at bound rare
  omega

end JobServer

end Jobs

namespace Rpc

/-- The event unlocks all messages of a server that is listening. -/
def RpcServerEvent.unlocksMessages {κ Buffer V : Type} :
    RpcServerEvent κ Buffer V → Bool
  | .amqpReconnected => true
  | .amqpChannelRecreated => true
  | _ => false

def CommandPhase.isInProgress {V : Type} : CommandPhase V → Bool
  | .ended => false
  | _ => true

/-- A run for `correlationId` which has not ended. -/
def CommandRun.worksOn {κ V : Type} [DecidableEq κ]
    (correlationId : κ) (run : CommandRun κ V) : Bool :=
  run.correlationId = correlationId && run.phase.isInProgress

namespace RpcServer

variable {κ Buffer V : Type} [DecidableEq κ] [DecidableEq V]

/-- The number of runs of `handleCommandMessage` that work on one message. -/
def runsInProgress (server : RpcServer κ Buffer V) (correlationId : κ) : ℕ :=
  server.runs.countP (CommandRun.worksOn correlationId)

omit [DecidableEq V] in
theorem occupies_holder (correlationId : κ) (run : CommandRun κ V) :
    run.holder.occupies correlationId = run.worksOn correlationId := by
  have same : run.phase.lockPhase.isInProgress = run.phase.isInProgress := by
    cases run.phase with
    | handled reply => cases reply <;> rfl
    | _ => rfl
  exact congrArg (decide (run.correlationId = correlationId) && ·) same

omit [DecidableEq V] in
theorem occupancy_lockState
    (server : RpcServer κ Buffer V) (correlationId : κ) :
    (lockState server).occupancy correlationId =
      server.runsInProgress correlationId := by
  simp only [KeyedLock.State.occupancy, lockState, runsInProgress,
    List.countP_map]
  apply List.countP_congr
  intro run _
  simp only [Function.comp_apply, occupies_holder]

omit [DecidableEq V] [DecidableEq κ] in
theorem countP_lockEvents_le
    (config : RpcServerConfig Buffer V) (server : RpcServer κ Buffer V)
    (event : RpcServerEvent κ Buffer V) :
    (lockEvents config server event).countP KeyedLock.Event.isReleaseAll ≤
      if event.unlocksMessages then 1 else 0 := by
  cases event with
  | amqpReconnected =>
      simp only [lockEvents]
      split <;>
        simp [RpcServerEvent.unlocksMessages, KeyedLock.Event.isReleaseAll]
  | amqpChannelRecreated =>
      simp only [lockEvents]
      split <;>
        simp [RpcServerEvent.unlocksMessages, KeyedLock.Event.isReleaseAll]
  | commandMessage message tag =>
      simp only [lockEvents]
      split <;>
        simp [RpcServerEvent.unlocksMessages, KeyedLock.Event.isReleaseAll]
  | command index event =>
      simp only [lockEvents]
      split
      · split <;> simp
      · simp
  | _ => simp [lockEvents]

theorem runsInProgress_le
    {config : RpcServerConfig Buffer V}
    {schedule : List (RpcServerEvent κ Buffer V)} {server : RpcServer κ Buffer V}
    (execution :
      (machine config).run (machine config).initial schedule = some server)
    (correlationId : κ) :
    server.runsInProgress correlationId ≤
      1 + schedule.countP RpcServerEvent.unlocksMessages := by
  have lockRun := (lockRefinement config).run_translate execution
  rw [(lockRefinement config).initial] at lockRun
  have bound := KeyedLock.occupancy_le lockRun correlationId
  have rare :=
    (lockRefinement config).countP_translateRun_le
      (countP_lockEvents_le config) (machine config).initial schedule
  have same := occupancy_lockState server correlationId
  simp only [lockRefinement] at bound rare
  omega

end RpcServer

end Rpc

section Servers

variable {κ Buffer V : Type} [DecidableEq κ] [DecidableEq Buffer] [DecidableEq V]
variable {κ' Buffer' V' : Type} [DecidableEq κ'] [DecidableEq V']

/-- Neither server ever has more runs in progress for one message than the
connection or the channel has been replaced, and one. -/
theorem runs_in_progress_le_replacements
    (jobConfig : Jobs.JobServerConfig Buffer V)
    (jobSchedule : List (Jobs.JobServerEvent κ Buffer V))
    (jobServer : Jobs.JobServer κ Buffer V)
    (jobExecution :
      (Jobs.JobServer.machine jobConfig).run
          (Jobs.JobServer.machine jobConfig).initial jobSchedule =
        some jobServer)
    (rpcConfig : Rpc.RpcServerConfig Buffer' V')
    (rpcSchedule : List (Rpc.RpcServerEvent κ' Buffer' V'))
    (rpcServer : Rpc.RpcServer κ' Buffer' V')
    (rpcExecution :
      (Rpc.RpcServer.machine rpcConfig).run
          (Rpc.RpcServer.machine rpcConfig).initial rpcSchedule =
        some rpcServer) :
    (∀ correlationId,
        jobServer.runsInProgress correlationId ≤
          1 + jobSchedule.countP Jobs.JobServerEvent.unlocksMessages) ∧
      ∀ correlationId,
        rpcServer.runsInProgress correlationId ≤
          1 + rpcSchedule.countP Rpc.RpcServerEvent.unlocksMessages := by
  constructor
  · intro correlationId
    exact Jobs.JobServer.runsInProgress_le jobExecution correlationId
  · intro correlationId
    exact Rpc.RpcServer.runsInProgress_le rpcExecution correlationId

end Servers

/-- A job comes again after a reconnection while its first attempt works. -/
def reconnectedJob :
    List (Jobs.JobServerEvent ℕ (Jobs.SerializedContext ℤ) ℤ) :=
  Jobs.JobServer.firstDelivery ++
    [.amqpReconnected, .jobMessage (Jobs.JobServer.integerMessage 1) ⟨1, 1⟩]

/-- The same for a command. -/
def reconnectedCommand : List (Rpc.RpcServerEvent ℕ ℤ ℤ) :=
  Rpc.RpcServer.firstDelivery ++
    [.amqpReconnected, .commandMessage Rpc.RpcServer.integerMessage ⟨1, 1⟩]

theorem runs_in_progress_le_replacements_reconnected :
    (∃ jobServer : Jobs.JobServer ℕ (Jobs.SerializedContext ℤ) ℤ,
      jobServer.runsInProgress 1 = 2 ∧
        jobServer.runsInProgress 1 ≤
          1 + reconnectedJob.countP Jobs.JobServerEvent.unlocksMessages) ∧
      ∃ rpcServer : Rpc.RpcServer ℕ ℤ ℤ,
        rpcServer.runsInProgress 1 = 2 ∧
          rpcServer.runsInProgress 1 ≤
            1 + reconnectedCommand.countP Rpc.RpcServerEvent.unlocksMessages := by
  have bounded :=
    runs_in_progress_le_replacements
      Jobs.JobServer.integerConfig reconnectedJob _ rfl
      Rpc.RpcServer.integerConfig reconnectedCommand _ rfl
  exact ⟨⟨_, rfl, bounded.1 1⟩, ⟨_, rfl, bounded.2 1⟩⟩

end Amq
