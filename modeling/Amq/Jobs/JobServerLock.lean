import Amq.Jobs.JobServer
import Amq.Transition.KeyedLock
import Amq.Transition.Refinement

/-!
# The job server as a keyed lock

The correlation ids are the keys of the lock and the attempts its labels: a run
holds its correlation id, works until it is past the `try` statement, reads the
stored tag and acknowledges it.  The reading forgets handlers, retries and
messages, which never touch the lock.
-/


namespace Amq.Jobs

open Amq.Transition

namespace Observation

variable {V : Type}

/-- The handler, its error handling or the discard of an exceeding attempt has
finished. -/
def isFate : Observation V → Bool
  | .attemptExceeded => true
  | .handlerResolved => true
  | .handleErrorResolved => true
  | .defaultRetryResolved _ => true
  | _ => false

end Observation

namespace AttemptPhase

def lockPhase : AttemptPhase → KeyedLock.Phase DeliveryTag
  | .handling _ _ => .working
  | .handlingError _ => .working
  | .retrying _ => .working
  | .processed => .completed
  | .acknowledging tag => .acknowledging tag
  | .ended => .finished

theorem awaitsTag_iff (phase : AttemptPhase) :
    phase.awaitsTag = true ↔
      phase.lockPhase = .working ∨ phase.lockPhase = .completed := by
  cases phase <;> simp [awaitsTag, lockPhase]

theorem lockPhase_acknowledging_iff (phase : AttemptPhase) (tag : DeliveryTag) :
    phase.lockPhase = .acknowledging tag ↔ phase = .acknowledging tag := by
  cases phase <;> simp [lockPhase]

end AttemptPhase

namespace AttemptRun

variable {κ Buffer V : Type}

/-- Some handler, error handling or discard of the run has finished. -/
def hasProcessed (run : AttemptRun κ V) : Bool :=
  run.history.any Observation.isFate

def holder (run : AttemptRun κ V) : KeyedLock.Holder κ V DeliveryTag where
  key := run.correlationId
  label := some run.context.attempt
  phase := run.phase.lockPhase
  hasCompleted := run.hasProcessed

/-- The move of a step, read off its effects and the two phases. -/
def lockMove (run next : AttemptRun κ V) :
    List (Effect κ Buffer) → KeyedLock.Move DeliveryTag
  | [.acknowledge tag] => .acknowledge tag
  | [.unlock _] => .release
  | _ => .between run.phase.lockPhase next.phase.lockPhase

@[simp]
theorem discard_hasProcessed (run : AttemptRun κ V) (reason : DiscardReason) :
    (run.discard reason).hasProcessed = run.hasProcessed := by
  unfold hasProcessed
  rw [discard_history]
  split <;> rfl

@[simp]
theorem catchError_hasProcessed
    (surroundings : Surroundings Buffer V) (run : AttemptRun κ V) :
    (run.catchError surroundings).hasProcessed = run.hasProcessed := by
  unfold hasProcessed
  rw [catchError_history]

@[simp]
theorem callRetry_hasProcessed
    (surroundings : Surroundings Buffer V) (run : AttemptRun κ V)
    (options : RetryOptions V) (isDefault : Bool) :
    (run.callRetry surroundings options isDefault).hasProcessed =
      run.hasProcessed := by
  unfold hasProcessed
  rcases callRetry_added surroundings run options isDefault with
    history | history
  · rw [history]
    rfl
  · rw [history]
    rfl

/-- A step that keeps the phase and the fate of a run keeps its holder. -/
theorem holder_eq
    {run next : AttemptRun κ V}
    (sameCorrelationId : next.correlationId = run.correlationId)
    (sameContext : next.context = run.context)
    (samePhase : next.phase.lockPhase = run.phase.lockPhase)
    (sameFate : next.hasProcessed = run.hasProcessed) :
    next.holder = run.holder := by
  unfold holder
  rw [sameCorrelationId, sameContext, samePhase, sameFate]

/-- An error caught while the run is working lets it work on or leave. -/
theorem catchError_holderStep
    (surroundings : Surroundings Buffer V) (run : AttemptRun κ V)
    (stored : Option DeliveryTag)
    (working : run.phase.lockPhase = .working) :
    KeyedLock.HolderStep stored run.holder
      (run.lockMove (run.catchError surroundings)
        ([] : List (Effect κ Buffer)))
      (run.catchError surroundings).holder := by
  rcases run.catchError_phase surroundings with ended | ⟨hasHandleError, caught⟩
  · have moved :
        run.lockMove (run.catchError surroundings)
          ([] : List (Effect κ Buffer)) = .leave := by
      simp only [lockMove, working, ended]
      rfl
    have left :
        (run.catchError surroundings).holder =
          { run.holder with phase := .finished } := by
      simp [holder, ended, AttemptPhase.lockPhase]
    rw [moved, left]
    exact .leave (Or.inl working)
  · have moved :
        run.lockMove (run.catchError surroundings)
          ([] : List (Effect κ Buffer)) = .keep := by
      simp only [lockMove, working, caught]
      rfl
    have kept : (run.catchError surroundings).holder = run.holder := by
      refine holder_eq (by simp) (by simp) ?_ (by simp)
      rw [caught, working]
      rfl
    rw [moved, kept]
    exact .keep

/-- A step without a move for the lock. -/
theorem keep_holderStep
    {run next : AttemptRun κ V} {effects : List (Effect κ Buffer)}
    (stored : Option DeliveryTag)
    (quiet :
      effects = [] ∨
        ∃ retryDelayMs message, effects = [.publish retryDelayMs message])
    (kept : next.holder = run.holder) :
    KeyedLock.HolderStep stored run.holder (run.lockMove next effects)
      next.holder := by
  have samePhase : next.phase.lockPhase = run.phase.lockPhase :=
    congrArg KeyedLock.Holder.phase kept
  have moved : run.lockMove next effects = .keep := by
    rcases quiet with rfl | ⟨retryDelayMs, message, rfl⟩
    · simp only [lockMove, samePhase, KeyedLock.Move.between_self]
    · simp only [lockMove, samePhase, KeyedLock.Move.between_self]
  rw [moved, kept]
  exact .keep

/-- A step past the `try` statement completes the work of the holder. -/
theorem complete_holderStep
    {run next : AttemptRun κ V} (stored : Option DeliveryTag)
    (working : run.phase.lockPhase = .working)
    (processed : next.phase = .processed)
    (completed :
      next.holder =
        { run.holder with phase := .completed, hasCompleted := true }) :
    KeyedLock.HolderStep stored run.holder
      (run.lockMove next ([] : List (Effect κ Buffer))) next.holder := by
  have moved :
      run.lockMove next ([] : List (Effect κ Buffer)) = .complete := by
    simp only [lockMove, working, processed]
    rfl
  rw [moved, completed]
  exact .complete working

/-- A step that ends the run without unlocking it leaves the lock. -/
theorem leave_holderStep
    {run next : AttemptRun κ V} (stored : Option DeliveryTag)
    (leavable :
      run.phase.lockPhase = .working ∨ run.phase.lockPhase = .completed)
    (ended : next.phase = .ended)
    (left : next.holder = { run.holder with phase := .finished }) :
    KeyedLock.HolderStep stored run.holder
      (run.lockMove next ([] : List (Effect κ Buffer))) next.holder := by
  have moved : run.lockMove next ([] : List (Effect κ Buffer)) = .leave := by
    rcases leavable with working | completed
    · simp only [lockMove, working, ended]
      rfl
    · simp only [lockMove, completed, ended]
      rfl
  rw [moved, left]
  exact .leave leavable

/-- Every step of a run is a move of its holder. -/
theorem steps_holderStep
    {surroundings : Surroundings Buffer V} {run next : AttemptRun κ V}
    {event : AttemptEvent V} {effects : List (Effect κ Buffer)}
    {stored : Option DeliveryTag}
    (actual :
      ∀ tag, surroundings.actualDeliveryTag = some tag → stored = some tag)
    (stepped : Steps surroundings run event next effects) :
    KeyedLock.HolderStep stored run.holder (run.lockMove next effects)
      next.holder := by
  cases stepped with
  | handlerResolved hasTimer handling =>
      refine complete_holderStep stored ?_ rfl rfl
      rw [handling]
      rfl
  | handlerRejected hasHandler hasTimer handling =>
      refine catchError_holderStep surroundings run stored ?_
      rw [handling]
      rfl
  | handlerTimedOut hasHandler handling =>
      refine catchError_holderStep surroundings
        { run with history := .handlerTimedOut :: run.history } stored ?_
      simp only [handling]
      rfl
  | handleErrorResolved handlingError =>
      refine complete_holderStep stored ?_ rfl rfl
      rw [handlingError]
      rfl
  | handleErrorDisposed hasHandleError handlingError disposed =>
      refine leave_holderStep stored (Or.inl ?_) rfl rfl
      rw [handlingError]
      rfl
  | handleErrorRejected hasHandleError handlingError live =>
      refine keep_holderStep stored (Or.inl rfl) ?_
      refine holder_eq (by simp) (by simp) ?_ ?_
      · rw [callRetry_phase, handlingError]
        rfl
      · rw [callRetry_hasProcessed]
        rfl
  | retryCalled options exposed =>
      refine keep_holderStep stored (Or.inl rfl) ?_
      exact holder_eq (by simp) (by simp) (by simp) (by simp)
  | discardCalled exposed =>
      refine keep_holderStep stored (Or.inl rfl) ?_
      exact holder_eq (by simp) (by simp) (by simp) (by simp)
  | dataChanged data changeable =>
      refine keep_holderStep stored (Or.inl rfl) ?_
      exact holder_eq rfl rfl rfl rfl
  | retryContextChanged call nextAttempt passed retryContext retryDelayMs creating
      changeable =>
      exact keep_holderStep stored (Or.inl rfl) rfl
  | retryPublished call nextAttempt retryContext retryDelayMs content creating
      serialized =>
      refine keep_holderStep stored (Or.inr ⟨_, _, rfl⟩) ?_
      exact holder_eq rfl rfl rfl rfl
  | retryNotPublished call nextAttempt retryContext retryDelayMs settlement
      creating =>
      exact keep_holderStep stored (Or.inl rfl) rfl
  | sendConfirmed call message retryDelayMs sending =>
      exact keep_holderStep stored (Or.inl rfl) rfl
  | sendFailed call message retryDelayMs sending =>
      exact keep_holderStep stored (Or.inl rfl) rfl
  | defaultRetryResolved call retrying resolved =>
      refine complete_holderStep stored ?_ rfl rfl
      rw [retrying]
      rfl
  | defaultRetryRejected call retrying rejected =>
      refine leave_holderStep stored (Or.inl ?_) rfl rfl
      rw [retrying]
      rfl
  | proceedDisposed processed disposed =>
      refine leave_holderStep stored (Or.inr ?_) rfl rfl
      rw [processed]
      rfl
  | proceedAcknowledging tag processed live stores =>
      refine .acknowledge tag ?_ (actual tag stores)
      simp only [holder, processed]
      rfl
  | proceedUnlocking processed live stores =>
      refine .release (Or.inl ?_)
      simp only [holder, processed]
      rfl
  | acknowledgeSettled tag settlement acknowledging =>
      refine .release (Or.inr ⟨tag, ?_⟩)
      simp only [holder, acknowledging]
      rfl

/-- A step has at most one effect, and unlocks no correlation id but its own. -/
theorem steps_effects
    {surroundings : Surroundings Buffer V} {run next : AttemptRun κ V}
    {event : AttemptEvent V} {effects : List (Effect κ Buffer)}
    (stepped : Steps surroundings run event next effects) :
    effects = [] ∨ (∃ retryDelayMs message, effects = [.publish retryDelayMs message]) ∨
      (∃ tag, effects = [.acknowledge tag]) ∨
      effects = [.unlock run.correlationId] := by
  cases stepped <;> simp

/-- The first await of a run is a move of a holder that has just got its key. -/
theorem start_holderStep
    (surroundings : Surroundings Buffer V)
    (correlationId : κ) (context : SerializedContext V)
    (stored : Option DeliveryTag) :
    KeyedLock.HolderStep stored
      ⟨correlationId, some context.attempt, .working, false⟩
      (.between .working
        (start surroundings correlationId context).phase.lockPhase)
      (start surroundings correlationId context).holder := by
  obtain ⟨itsCorrelationId, itsContext, _, itsStart⟩ :=
    start_cases surroundings correlationId context
  unfold holder hasProcessed
  rw [itsCorrelationId, itsContext]
  rcases itsStart with
    ⟨processed, _, _, history⟩ | ⟨_, history, waiting | ended | caught⟩
  · rw [processed, history]
    exact .complete rfl
  · obtain ⟨hasHandler, hasTimer, handling⟩ := waiting
    rw [handling, history]
    exact .keep
  · rw [ended, history]
    exact .leave (Or.inl rfl)
  · obtain ⟨hasHandleError, handlingError⟩ := caught
    rw [handlingError, history]
    exact .keep

end AttemptRun

namespace JobRun

variable {κ V : Type}

/-- A run without a context ends as soon as it has the lock. -/
def holder : JobRun κ V → KeyedLock.Holder κ V DeliveryTag
  | .undeserialized correlationId => ⟨correlationId, none, .finished, false⟩
  | .attempt run => run.holder

end JobRun

namespace JobServer

variable {κ Buffer V : Type} [DecidableEq κ] [DecidableEq Buffer] [DecidableEq V]

def lockDelivery
    (config : JobServerConfig Buffer V) (delivery : Delivery κ Buffer) :
    KeyedLock.Delivery κ V DeliveryTag where
  tag := delivery.tag
  key := delivery.message.correlationId
  label :=
    (config.jsonBufferSerializer.deserialize delivery.message.content).map
      SerializedContext.attempt

/-- The server read as a keyed lock. -/
def lockState
    (config : JobServerConfig Buffer V) (server : JobServer κ Buffer V) :
    KeyedLock.State κ V DeliveryTag where
  stored := server.messageRelevancyChecker.correlationIds
  holders := server.runs.map JobRun.holder
  deliveries := server.deliveries.map (lockDelivery config)
  acknowledged := server.acknowledged

/-- The events of the lock during one step of the server. -/
def lockEvents
    (config : JobServerConfig Buffer V) (server : JobServer κ Buffer V) :
    JobServerEvent κ Buffer V → List (KeyedLock.Event κ V DeliveryTag)
  | .amqpReconnected | .amqpChannelRecreated =>
      if server.state = .listening then [.releaseAll] else []
  | .jobMessage message tag =>
      let delivery := lockDelivery config ⟨tag, message⟩
      .deliver delivery.key delivery.label tag ::
        if server.messageRelevancyChecker.correlationIds message.correlationId
            = none then
          (KeyedLock.Move.between .working
            (server.startRun config message).holder.phase).events
              server.runs.length
        else
          []
  | .attempt index event =>
      match server.runs[index]? with
      | some (.attempt run) =>
          match run.step (server.surroundings config run.correlationId) event with
          | some (next, effects) => (run.lockMove next effects).events index
          | none => []
      | _ => []
  | _ => []

omit [DecidableEq κ] [DecidableEq Buffer] [DecidableEq V] in
theorem lockState_listen
    (config : JobServerConfig Buffer V) (server : JobServer κ Buffer V) :
    lockState config server.listen = lockState config server := by
  unfold listen
  split <;> rfl

omit [DecidableEq κ] [DecidableEq Buffer] [DecidableEq V] in
theorem lockState_dispose
    (config : JobServerConfig Buffer V) (server : JobServer κ Buffer V) :
    lockState config server.dispose = lockState config server := by
  unfold dispose
  split <;> rfl

omit [DecidableEq κ] [DecidableEq Buffer] in
theorem lockState_setJobHandler
    (config : JobServerConfig Buffer V) (server : JobServer κ Buffer V)
    (job : V) (handler : JobHandler V) :
    lockState config (server.setJobHandler config job handler) =
      lockState config server := by
  unfold setJobHandler
  split <;> rfl

section

omit [DecidableEq Buffer] [DecidableEq V]

theorem run_unlockAll
    (config : JobServerConfig Buffer V) (server : JobServer κ Buffer V) :
    KeyedLock.machine.run (lockState config server)
        (if server.state = .listening then [.releaseAll] else []) =
      some (lockState config server.unlockAll) := by
  unfold unlockAll
  by_cases listening : server.state = .listening
  · rw [if_pos listening, if_pos listening]
    rfl
  · rw [if_neg listening, if_neg listening]
    rfl

/-- What the effects of a step do to the lock. -/
theorem lockState_effects
    (config : JobServerConfig Buffer V) (server : JobServer κ Buffer V)
    (index : ℕ) {run next : AttemptRun κ V} {event : AttemptEvent V}
    {effects : List (Effect κ Buffer)}
    (stepped :
      run.Steps (server.surroundings config run.correlationId) event next
        effects) :
    lockState config
        (effects.foldl apply
          { server with runs := server.runs.set index (.attempt next) }) =
      { lockState config server with
        holders := (lockState config server).holders.set index next.holder
        stored :=
          (run.lockMove next effects).stored run.correlationId
            (lockState config server).stored
        acknowledged :=
          (run.lockMove next effects).tags ++
            (lockState config server).acknowledged } := by
  have moved :
      (server.runs.set index (.attempt next)).map JobRun.holder =
        (server.runs.map JobRun.holder).set index next.holder :=
    List.map_set
  rcases AttemptRun.steps_effects stepped with
    rfl | ⟨retryDelayMs, message, rfl⟩ | ⟨tag, rfl⟩ | rfl
  · simp [lockState, AttemptRun.lockMove, moved]
  · simp [lockState, AttemptRun.lockMove, moved, apply]
  · simp [lockState, AttemptRun.lockMove, moved, apply,
      KeyedLock.Move.stored, KeyedLock.Move.tags]
  · simp [lockState, AttemptRun.lockMove, moved, apply,
      KeyedLock.Move.stored, KeyedLock.Move.tags,
      MessageRelevancyChecker.unlock]

theorem run_stepAttempt
    {config : JobServerConfig Buffer V} {server next : JobServer κ Buffer V}
    {index : ℕ} {event : AttemptEvent V}
    (stepped : server.stepAttempt config index event = some next) :
    KeyedLock.machine.run (lockState config server)
        (lockEvents config server (.attempt index event)) =
      some (lockState config next) := by
  unfold stepAttempt at stepped
  split at stepped
  · rename_i run present
    split at stepped
    · rename_i following effects taken
      cases stepped
      have steps := AttemptRun.steps_of_step taken
      have held :
          (lockState config server).holders[index]? = some run.holder := by
        simp [lockState, present, JobRun.holder]
      have moved :
          KeyedLock.HolderStep
            ((lockState config server).stored run.holder.key) run.holder
            (run.lockMove following effects) following.holder :=
        AttemptRun.steps_holderStep
          (fun _ read => MessageRelevancyChecker.stored_of_getDeliveryTag read)
          steps
      simp only [lockEvents, present, taken]
      rw [KeyedLock.run_move held moved, lockState_effects config server index steps]
      rfl
    · cases stepped
  · cases stepped

end

omit [DecidableEq κ] [DecidableEq Buffer] [DecidableEq V] in
theorem startRun_holderStep
    (config : JobServerConfig Buffer V) (server : JobServer κ Buffer V)
    (message : Message κ Buffer) (tag : DeliveryTag) :
    KeyedLock.HolderStep (some tag)
      ⟨message.correlationId, (lockDelivery config ⟨tag, message⟩).label,
        .working, false⟩
      (.between .working (server.startRun config message).holder.phase)
      (server.startRun config message).holder := by
  unfold startRun lockDelivery
  cases deserialized :
      config.jsonBufferSerializer.deserialize message.content with
  | none => exact .leave (Or.inl rfl)
  | some context =>
      exact AttemptRun.start_holderStep
        (server.surroundings config message.correlationId)
        message.correlationId context (some tag)

omit [DecidableEq Buffer] [DecidableEq V] in
theorem run_handleJobMessage
    (config : JobServerConfig Buffer V) (server : JobServer κ Buffer V)
    (message : Message κ Buffer) (tag : DeliveryTag)
    (fresh : tag ∉ server.deliveries.map Delivery.tag) :
    KeyedLock.machine.run (lockState config server)
        (lockEvents config server (.jobMessage message tag)) =
      some (lockState config (server.handleJobMessage config message tag)) := by
  have freshInLock :
      tag ∉ (lockState config server).deliveries.map KeyedLock.Delivery.tag := by
    simpa [lockState, lockDelivery, Function.comp_def] using fresh
  by_cases free :
      server.messageRelevancyChecker.correlationIds message.correlationId = none
  · have started :=
      KeyedLock.run_deliver_move (lockState config server) freshInLock free
        (startRun_holderStep config server message tag)
    simp only [lockEvents, free, if_true]
    refine Eq.trans ?_ (started.trans ?_)
    · simp [lockState, lockDelivery]
    · simp [lockState, lockDelivery, handleJobMessage, free,
        MessageRelevancyChecker.lock]
  · have swallowed :=
      KeyedLock.run_deliver_taken (lockState config server)
        (lockDelivery config ⟨tag, message⟩).label freshInLock free
    simp only [lockEvents, free, if_false]
    refine swallowed.trans ?_
    simp [lockState, lockDelivery, handleJobMessage, free,
      MessageRelevancyChecker.lock]

/-- The job server refines the keyed lock. -/
def lockRefinement (config : JobServerConfig Buffer V) :
    Refinement
      (machine config : Machine (JobServer κ Buffer V) _)
      (KeyedLock.machine : Machine (KeyedLock.State κ V DeliveryTag) _) where
  abstraction := lockState config
  translate := lockEvents config
  initial := rfl
  step := by
    intro server event next stepped
    cases event with
    | listen =>
        cases stepped
        rw [lockState_listen]
        rfl
    | dispose =>
        cases stepped
        rw [lockState_dispose]
        rfl
    | setJobHandler job handler =>
        cases stepped
        rw [lockState_setJobHandler]
        rfl
    | amqpReconnected =>
        cases stepped
        exact run_unlockAll config server
    | amqpChannelRecreated =>
        cases stepped
        exact run_unlockAll config server
    | messagePublished message =>
        cases stepped
        rfl
    | jobMessage message tag =>
        simp only [machine, step] at stepped
        split at stepped
        · rename_i accepted
          cases stepped
          exact run_handleJobMessage config server message tag accepted.2.2
        · cases stepped
    | attempt index event => exact run_stepAttempt stepped

end JobServer

end Amq.Jobs
