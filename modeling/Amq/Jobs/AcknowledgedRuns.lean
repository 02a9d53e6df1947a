import Amq.Jobs.AttemptFate
import Amq.Jobs.JobServerLock

/-!
# Runs and the deliveries that they acknowledge

Every acknowledged tag belongs to a run of its own, which has recorded the fate
of its attempt, and to a delivery under the correlation id of that run.  A run
keeps its place among the runs of its server, and its history only grows.
-/


namespace Amq.Jobs

open Amq.Transition

namespace AttemptRun

variable {κ Buffer V : Type}

/-- What a step adds to the history of a run, and where that leads. -/
structure Grows
    (surroundings : Surroundings Buffer V) (run : AttemptRun κ V)
    (event : AttemptEvent V) (next : AttemptRun κ V)
    (added : List (Observation V)) : Prop where
  history : next.history = added ++ run.history
  confirmed :
    ∀ call, .publishConfirmed call ∈ added → event = .sendSettled call .fulfilled
  acknowledged :
    ∀ tag, .acknowledged tag ∈ added →
      added = [.acknowledged tag] ∧ run.phase = .processed ∧
        surroundings.actualDeliveryTag = some tag ∧
        next.phase = .acknowledging tag
  timedOut :
    .handlerTimedOut ∈ added → ∃ hasHandler, run.phase = .handling hasHandler true
  awaits : next.phase.awaitsTag = true → run.phase.awaitsTag = true

/-- A step that neither confirms nor acknowledges nor times out. -/
theorem Grows.silent
    {surroundings : Surroundings Buffer V} {run next : AttemptRun κ V}
    {event : AttemptEvent V} (added : List (Observation V))
    (history : next.history = added ++ run.history)
    (confirmed : ∀ call, .publishConfirmed call ∉ added)
    (acknowledged : ∀ tag, .acknowledged tag ∉ added)
    (timedOut : .handlerTimedOut ∉ added)
    (awaits : next.phase.awaitsTag = true → run.phase.awaitsTag = true) :
    Grows surroundings run event next added where
  history := history
  confirmed call member := absurd member (confirmed call)
  acknowledged tag member := absurd member (acknowledged tag)
  timedOut member := absurd member timedOut
  awaits := awaits

theorem exists_grows
    {surroundings : Surroundings Buffer V} {run next : AttemptRun κ V}
    {event : AttemptEvent V} {effects : List (Effect κ Buffer)}
    (stepped : Steps surroundings run event next effects) :
    ∃ added, Grows surroundings run event next added := by
  cases stepped with
  | handlerResolved hasTimer handling =>
      refine ⟨[.handlerResolved], .silent _ rfl (by simp) (by simp) (by simp) ?_⟩
      simp [handling, AttemptPhase.awaitsTag]
  | handlerRejected hasHandler hasTimer handling =>
      refine ⟨[], .silent _ (by simp) (by simp) (by simp) (by simp) ?_⟩
      simp [handling, AttemptPhase.awaitsTag]
  | handlerTimedOut hasHandler handling =>
      refine ⟨[.handlerTimedOut], by simp, by simp, by simp, ?_, ?_⟩
      · exact fun _ => ⟨hasHandler, handling⟩
      · simp [handling, AttemptPhase.awaitsTag]
  | handleErrorResolved handlingError =>
      refine
        ⟨[.handleErrorResolved], .silent _ rfl (by simp) (by simp) (by simp) ?_⟩
      simp [handlingError, AttemptPhase.awaitsTag]
  | handleErrorDisposed hasHandleError handlingError disposed =>
      exact ⟨[], .silent _ rfl (by simp) (by simp) (by simp)
        (by simp [AttemptPhase.awaitsTag])⟩
  | handleErrorRejected hasHandleError handlingError live =>
      have awaits : run.phase.awaitsTag = true := by
        simp [handlingError, AttemptPhase.awaitsTag]
      rcases callRetry_added surroundings
          { run with
            phase := .retrying run.retries.length
            history := .jobErrorEmitted :: run.history }
          defaultRetryOptions true with history | history
      · refine ⟨[.retryCalled run.retries.length true, .jobErrorEmitted], ?_⟩
        exact .silent _ history (by simp) (by simp) (by simp) fun _ => awaits
      · refine ⟨[.discardReported .maxAttemptCountReached,
          .retryCalled run.retries.length true, .jobErrorEmitted], ?_⟩
        exact .silent _ history (by simp) (by simp) (by simp) fun _ => awaits
  | retryCalled options exposed =>
      rcases callRetry_added surroundings run options false with history | history
      · exact ⟨_, .silent _ history (by simp) (by simp) (by simp) (by simp)⟩
      · exact ⟨_, .silent _ history (by simp) (by simp) (by simp) (by simp)⟩
  | discardCalled exposed =>
      have history := discard_history run .givenByUser
      split at history
      · exact ⟨[], .silent _ history (by simp) (by simp) (by simp) (by simp)⟩
      · exact ⟨[_], .silent _ history (by simp) (by simp) (by simp) (by simp)⟩
  | dataChanged data changeable =>
      exact ⟨[.dataChanged data], .silent _ rfl (by simp) (by simp) (by simp) id⟩
  | retryContextChanged call nextAttempt passed retryContext retryDelayMs creating
      changeable =>
      exact ⟨[], .silent _ rfl (by simp) (by simp) (by simp) id⟩
  | retryPublished call nextAttempt retryContext retryDelayMs content creating
      serialized =>
      exact ⟨[.published call _],
        .silent _ rfl (by simp) (by simp) (by simp) id⟩
  | retryNotPublished call nextAttempt retryContext retryDelayMs settlement
      creating =>
      exact ⟨[], .silent _ rfl (by simp) (by simp) (by simp) id⟩
  | sendConfirmed call message retryDelayMs sending =>
      exact ⟨[.publishConfirmed call], rfl, by simp, by simp, by simp, id⟩
  | sendFailed call message retryDelayMs sending =>
      exact ⟨[], .silent _ rfl (by simp) (by simp) (by simp) id⟩
  | defaultRetryResolved call retrying resolved =>
      refine ⟨[.defaultRetryResolved call],
        .silent _ rfl (by simp) (by simp) (by simp) ?_⟩
      simp [retrying, AttemptPhase.awaitsTag]
  | defaultRetryRejected call retrying rejected =>
      exact ⟨[.defaultRetryRejected call],
        .silent _ rfl (by simp) (by simp) (by simp)
        (by simp [AttemptPhase.awaitsTag])⟩
  | proceedDisposed processed disposed =>
      exact ⟨[], .silent _ rfl (by simp) (by simp) (by simp)
        (by simp [AttemptPhase.awaitsTag])⟩
  | proceedAcknowledging tag processed live actual =>
      refine ⟨[.acknowledged tag], rfl, by simp, ?_, by simp,
        by simp [AttemptPhase.awaitsTag]⟩
      intro other member
      cases List.mem_singleton.mp member
      exact ⟨rfl, processed, actual, rfl⟩
  | proceedUnlocking processed live actual =>
      exact ⟨[], .silent _ rfl (by simp) (by simp) (by simp)
        (by simp [AttemptPhase.awaitsTag])⟩
  | acknowledgeSettled tag settlement acknowledging =>
      exact ⟨[], .silent _ rfl (by simp) (by simp) (by simp)
        (by simp [AttemptPhase.awaitsTag])⟩

variable {operators : JsOperators V}

/-- A run acknowledges one tag at most, once it has recorded a fate. -/
structure AcknowledgeRecord
    (operators : JsOperators V) (run : AttemptRun κ V) : Prop where
  recorded :
    ∀ tag, .acknowledged tag ∈ run.history →
      FateRecorded operators run.context run.history ∧
        run.phase.awaitsTag = false
  once :
    ∀ first second, .acknowledged first ∈ run.history →
      .acknowledged second ∈ run.history → first = second

theorem acknowledgeRecord_start
    (surroundings : Surroundings Buffer V)
    (correlationId : κ) (context : SerializedContext V) :
    AcknowledgeRecord operators (start surroundings correlationId context) := by
  obtain ⟨_, _, _, itsStart⟩ := start_cases surroundings correlationId context
  have unacknowledged :
      ∀ tag, .acknowledged tag ∉
        (start surroundings correlationId context).history := by
    intro tag
    rcases itsStart with ⟨_, _, _, history⟩ | ⟨_, history, _⟩
    · simp [history]
    · simp [history]
  exact ⟨fun tag member => absurd member (unacknowledged tag),
    fun tag _ member => absurd member (unacknowledged tag)⟩

theorem acknowledgeRecord_steps
    {surroundings : Surroundings Buffer V} {run next : AttemptRun κ V}
    {event : AttemptEvent V} {effects : List (Effect κ Buffer)}
    (phaseRecord : PhaseRecord operators run)
    (record : AcknowledgeRecord operators run)
    (stepped : Steps surroundings run event next effects) :
    AcknowledgeRecord operators next := by
  obtain ⟨added, grows⟩ := exists_grows stepped
  by_cases acknowledges : ∃ tag, .acknowledged tag ∈ added
  · obtain ⟨tag, member⟩ := acknowledges
    obtain ⟨rfl, processed, _, acknowledging⟩ := grows.acknowledged tag member
    have awaits : run.phase.awaitsTag = true := by
      simp [processed, AttemptPhase.awaitsTag]
    have itsTag :
        ∀ other, .acknowledged other ∈ next.history → other = tag := by
      intro other observed
      rw [grows.history] at observed
      rcases List.mem_append.mp observed with new | old
      · cases List.mem_singleton.mp new
        rfl
      · exact absurd old (phaseRecord.unacknowledged awaits other)
    refine ⟨?_, ?_⟩
    · intro _ _
      rw [grows.history, context_steps stepped, acknowledging]
      exact ⟨(phaseRecord.processed processed).append (by simp), rfl⟩
    · intro first second firstly secondly
      exact (itsTag first firstly).trans (itsTag second secondly).symm
  · have earlier :
        ∀ tag, .acknowledged tag ∈ next.history →
          .acknowledged tag ∈ run.history := by
      intro tag observed
      rw [grows.history] at observed
      rcases List.mem_append.mp observed with new | old
      · exact absurd ⟨tag, new⟩ acknowledges
      · exact old
    refine ⟨?_, ?_⟩
    · intro tag observed
      obtain ⟨fate, done⟩ := record.recorded tag (earlier tag observed)
      have inTime : .handlerTimedOut ∉ added := by
        intro timedOut
        obtain ⟨hasHandler, handling⟩ := grows.timedOut timedOut
        rw [handling] at done
        cases done
      refine ⟨?_, ?_⟩
      · rw [grows.history, context_steps stepped]
        exact fate.append inTime
      · apply Bool.eq_false_of_not_eq_true
        intro awaits
        rw [grows.awaits awaits] at done
        cases done
    · intro first second firstly secondly
      exact record.once first second (earlier first firstly)
        (earlier second secondly)

end AttemptRun

namespace JobServer

variable {κ Buffer V : Type} [DecidableEq κ] [DecidableEq Buffer] [DecidableEq V]
variable {config : JobServerConfig Buffer V}
variable {server next : JobServer κ Buffer V}

theorem runs_acknowledge
    {schedule : List (JobServerEvent κ Buffer V)}
    (execution :
      (machine config).run (machine config).initial schedule = some server) :
    ∀ run, JobRun.attempt run ∈ server.runs →
      run.AcknowledgeRecord config.operators := by
  have recorded :
      ∀ run, JobRun.attempt run ∈ server.runs →
        run.RetryRecord config.operators ∧ run.PhaseRecord config.operators ∧
          run.AcknowledgeRecord config.operators := by
    refine runs_invariant ?_ ?_ execution
    · intro server correlationId context
      exact ⟨AttemptRun.retryRecord_start _ correlationId context,
        AttemptRun.phaseRecord_start _ correlationId context,
        AttemptRun.acknowledgeRecord_start _ correlationId context⟩
    · rintro server run event next effects ⟨retry, phase, record⟩ stepped
      exact ⟨AttemptRun.retryRecord_steps rfl retry stepped,
        AttemptRun.phaseRecord_steps retry phase stepped,
        AttemptRun.acknowledgeRecord_steps phase record stepped⟩
  exact fun run member => (recorded run member).2.2

/-! ## What one step of the server can do -/

/-- What neither a delivery nor a run has a hand in. -/
structure Undisturbed (server next : JobServer κ Buffer V) : Prop where
  runs : next.runs = server.runs
  deliveries : next.deliveries = server.deliveries
  acknowledged : next.acknowledged = server.acknowledged

inductive Moves
    (config : JobServerConfig Buffer V) (server : JobServer κ Buffer V) :
    JobServerEvent κ Buffer V → JobServer κ Buffer V → Prop
  | administers {event : JobServerEvent κ Buffer V} {next : JobServer κ Buffer V}
      (undisturbed : Undisturbed server next) :
      Moves config server event next
  | delivers (message : Message κ Buffer) (tag : DeliveryTag) :
      Moves config server (.jobMessage message tag)
        (server.handleJobMessage config message tag)
  | steps (index : ℕ) (event : AttemptEvent V) {run following : AttemptRun κ V}
      {effects : List (Effect κ Buffer)}
      (present : server.runs[index]? = some (.attempt run))
      (stepped :
        run.Steps (server.surroundings config run.correlationId) event following
          effects) :
      Moves config server (.attempt index event)
        (effects.foldl apply
          { server with runs := server.runs.set index (.attempt following) })

theorem moves_of_step
    {event : JobServerEvent κ Buffer V}
    (stepped : server.step config event = some next) :
    Moves config server event next := by
  cases event with
  | listen =>
      cases stepped
      unfold listen
      split
      · exact .administers ⟨rfl, rfl, rfl⟩
      · exact .administers ⟨rfl, rfl, rfl⟩
  | dispose =>
      cases stepped
      unfold dispose
      split
      · exact .administers ⟨rfl, rfl, rfl⟩
      · exact .administers ⟨rfl, rfl, rfl⟩
  | setJobHandler job handler =>
      cases stepped
      unfold setJobHandler
      split
      · exact .administers ⟨rfl, rfl, rfl⟩
      · exact .administers ⟨rfl, rfl, rfl⟩
  | amqpReconnected =>
      cases stepped
      unfold unlockAll
      split
      · exact .administers ⟨rfl, rfl, rfl⟩
      · exact .administers ⟨rfl, rfl, rfl⟩
  | amqpChannelRecreated =>
      cases stepped
      unfold unlockAll
      split
      · exact .administers ⟨rfl, rfl, rfl⟩
      · exact .administers ⟨rfl, rfl, rfl⟩
  | messagePublished message =>
      cases stepped
      exact .administers ⟨rfl, rfl, rfl⟩
  | jobMessage message tag =>
      simp only [step] at stepped
      split at stepped
      · cases stepped
        exact .delivers message tag
      · cases stepped
  | attempt index event =>
      obtain ⟨run, following, effects, present, taken, rfl⟩ :=
        stepAttempt_cases stepped
      exact .steps index event present taken

section

omit [DecidableEq Buffer] [DecidableEq V]

theorem effects_deliveries
    (server : JobServer κ Buffer V) (effects : List (Effect κ Buffer)) :
    (effects.foldl apply server).deliveries = server.deliveries := by
  induction effects generalizing server with
  | nil => rfl
  | cons effect rest inductionHypothesis =>
      rw [List.foldl_cons, inductionHypothesis]
      cases effect <;> rfl

/-- The calls of `acknowledge` among the effects of a step. -/
theorem effects_acknowledged
    (server : JobServer κ Buffer V) {run following : AttemptRun κ V}
    {surroundings : Surroundings Buffer V} {event : AttemptEvent V}
    {effects : List (Effect κ Buffer)}
    (stepped : run.Steps surroundings event following effects) :
    (effects.foldl apply server).acknowledged = server.acknowledged ∨
      ∃ tag,
        (effects.foldl apply server).acknowledged = tag :: server.acknowledged ∧
          surroundings.actualDeliveryTag = some tag ∧
          .acknowledged tag ∈ following.history := by
  cases stepped with
  | proceedAcknowledging tag processed live actual =>
      exact Or.inr ⟨tag, rfl, actual, List.mem_cons_self⟩
  | _ => exact Or.inl (acknowledged_effects _ _ (by simp))

/-- A run keeps its place, and changes by its own steps only. -/
theorem Moves.run
    {event : JobServerEvent κ Buffer V} (moves : Moves config server event next)
    {index : ℕ} {run : AttemptRun κ V}
    (present : server.runs[index]? = some (.attempt run)) :
    ∃ run', next.runs[index]? = some (.attempt run') ∧
      run'.correlationId = run.correlationId ∧
      ∃ added, run'.history = added ++ run.history ∧
        ∀ call, .publishConfirmed call ∈ added →
          event = .attempt index (.sendSettled call .fulfilled) := by
  have same :
      next.runs[index]? = some (.attempt run) →
        ∃ run', next.runs[index]? = some (.attempt run') ∧
          run'.correlationId = run.correlationId ∧
          ∃ added, run'.history = added ++ run.history ∧
            ∀ call, .publishConfirmed call ∈ added →
              event = .attempt index (.sendSettled call .fulfilled) :=
    fun still => ⟨run, still, rfl, [], rfl, by simp⟩
  cases moves with
  | administers undisturbed =>
      apply same
      rw [undisturbed.runs]
      exact present
  | delivers message tag =>
      apply same
      unfold handleJobMessage
      dsimp only
      split
      · exact List.getElem?_append_left
          (List.getElem?_eq_some_iff.mp present).1 ▸ present
      · exact present
  | @steps place event old following effects found stepped =>
      by_cases own : place = index
      · subst own
        cases found.symm.trans present
        obtain ⟨added, grows⟩ := AttemptRun.exists_grows stepped
        refine ⟨following, ?_, AttemptRun.correlationId_steps stepped, added,
          grows.history, ?_⟩
        · rw [runs_effects]
          exact List.getElem?_set_self (List.getElem?_eq_some_iff.mp present).1
        · intro call confirmed
          rw [grows.confirmed call confirmed]
      · apply same
        rw [runs_effects]
        exact (List.getElem?_set_ne own).trans present

/-- Where a run of the next state comes from. -/
theorem Moves.origin
    {event : JobServerEvent κ Buffer V} (moves : Moves config server event next)
    {index : ℕ} {run' : AttemptRun κ V}
    (present' : next.runs[index]? = some (.attempt run')) :
    (∃ run, server.runs[index]? = some (.attempt run)) ∨
      ∀ call, .publishConfirmed call ∉ run'.history := by
  cases moves with
  | administers undisturbed =>
      rw [undisturbed.runs] at present'
      exact Or.inl ⟨run', present'⟩
  | delivers message tag =>
      unfold handleJobMessage at present'
      dsimp only at present'
      split at present'
      · rcases concat_cases present' with earlier | ⟨_, started⟩
        · exact Or.inl ⟨run', earlier⟩
        · obtain ⟨context, rfl⟩ := startRun_attempt started
          obtain ⟨_, _, _, itsStart⟩ :=
            AttemptRun.start_cases (server.surroundings config message.correlationId)
              message.correlationId context
          refine Or.inr ?_
          rcases itsStart with ⟨_, _, _, history⟩ | ⟨_, history, _⟩
          · simp [history]
          · simp [history]
      · exact Or.inl ⟨run', present'⟩
  | @steps place event old following effects found stepped =>
      rw [runs_effects] at present'
      rcases set_cases present' with ⟨rfl, _⟩ | ⟨_, earlier⟩
      · exact Or.inl ⟨old, found⟩
      · exact Or.inl ⟨run', earlier⟩

/-- Deliveries are never forgotten. -/
theorem Moves.delivered
    {event : JobServerEvent κ Buffer V} (moves : Moves config server event next)
    {delivery : Delivery κ Buffer} (member : delivery ∈ server.deliveries) :
    delivery ∈ next.deliveries := by
  cases moves with
  | administers undisturbed =>
      rw [undisturbed.deliveries]
      exact member
  | delivers message tag => exact List.mem_cons_of_mem _ member
  | steps index event present stepped =>
      rw [effects_deliveries]
      exact member

end

/-! ## Which run has acknowledged a tag -/

/-- Each acknowledged tag was delivered under the correlation id of a run that
has acknowledged it. -/
def AcknowledgedByRuns (server : JobServer κ Buffer V) : Prop :=
  ∀ tag ∈ server.acknowledged,
    ∃ (index : ℕ) (run : AttemptRun κ V),
      server.runs[index]? = some (.attempt run) ∧
        .acknowledged tag ∈ run.history ∧
        ∃ delivery ∈ server.deliveries,
          delivery.tag = tag ∧
            delivery.message.correlationId = run.correlationId

omit [DecidableEq Buffer] [DecidableEq V] in
theorem AcknowledgedByRuns.moves
    {event : JobServerEvent κ Buffer V}
    (byRuns : server.AcknowledgedByRuns)
    (delivered : KeyedLock.DeliveryInvariant (lockState config server))
    (moves : Moves config server event next) :
    next.AcknowledgedByRuns := by
  have earlier :
      ∀ tag ∈ server.acknowledged,
        ∃ (index : ℕ) (run : AttemptRun κ V),
          next.runs[index]? = some (.attempt run) ∧
            .acknowledged tag ∈ run.history ∧
            ∃ delivery ∈ next.deliveries,
              delivery.tag = tag ∧
                delivery.message.correlationId = run.correlationId := by
    intro tag member
    obtain ⟨index, run, present, acknowledged, delivery, known, itsTag, itsId⟩ :=
      byRuns tag member
    obtain ⟨run', present', sameId, added, history, _⟩ := moves.run present
    refine ⟨index, run', present', ?_, delivery, moves.delivered known, itsTag,
      itsId.trans sameId.symm⟩
    rw [history]
    exact List.mem_append_right _ acknowledged
  intro tag member
  cases moves with
  | administers undisturbed =>
      rw [undisturbed.acknowledged] at member
      exact earlier tag member
  | delivers message new => exact earlier tag member
  | @steps index event run following effects present stepped =>
      rcases effects_acknowledged
          { server with runs := server.runs.set index (.attempt following) }
          stepped with same | ⟨new, grown, actual, observed⟩
      · rw [same] at member
        exact earlier tag member
      · rw [grown] at member
        rcases List.mem_cons.mp member with rfl | old
        · have stored :=
            MessageRelevancyChecker.stored_of_getDeliveryTag actual
          obtain ⟨lockDelivery, known, itsTag, itsKey⟩ :=
            delivered.stored_delivered _ _ stored
          obtain ⟨delivery, delivered, rfl⟩ := List.mem_map.mp known
          refine ⟨index, following, ?_, observed, delivery, ?_, itsTag, ?_⟩
          · rw [runs_effects]
            exact
              List.getElem?_set_self (List.getElem?_eq_some_iff.mp present).1
          · rw [effects_deliveries]
            exact delivered
          · rw [AttemptRun.correlationId_steps stepped]
            exact itsKey
        · exact earlier tag old

/-- In a reachable server every tag was delivered once, and every acknowledged
one by a run for its delivery. -/
theorem acknowledgedByRuns_run
    {schedule : List (JobServerEvent κ Buffer V)}
    (execution :
      (machine config).run (machine config).initial schedule = some server) :
    KeyedLock.DeliveryInvariant (lockState config server) ∧
      server.AcknowledgedByRuns := by
  have preserved :
      (machine config).Preserved fun current : JobServer κ Buffer V =>
        KeyedLock.DeliveryInvariant (lockState config current) ∧
          current.AcknowledgedByRuns := by
    intro current event following ⟨delivered, byRuns⟩ stepped
    have lockRun := (lockRefinement config).step current event following stepped
    exact ⟨Machine.run_invariant KeyedLock.deliveryInvariant_preserved delivered
        lockRun,
      byRuns.moves delivered (moves_of_step stepped)⟩
  refine Machine.run_invariant preserved ⟨?_, ?_⟩ execution
  · rw [show lockState config (machine config).initial = KeyedLock.machine.initial
      from (lockRefinement config).initial]
    exact KeyedLock.deliveryInvariant_initial
  · intro tag member
    cases member

end JobServer

end Amq.Jobs
