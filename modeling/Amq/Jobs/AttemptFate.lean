import Amq.Jobs.JobServer

/-!
# The fate of an acknowledged attempt

A run acknowledges only what it has accounted for.  `FateRecorded` lists the
ways a fate gets into the history of a run; `RetryRecord` says what is known of
the calls of `retry`, `PhaseRecord` what each await point says about the past.
-/


namespace Amq.Jobs

open Amq.Transition

section Histories

variable {V : Type} {operators : JsOperators V} {context : SerializedContext V}
variable {history added : List (Observation V)} {call : ℕ}

/-- What the object `data` holds after these observations. -/
def currentData (received : V) : List (Observation V) → V
  | [] => received
  | .dataChanged data :: _ => data
  | _ :: earlier => currentData received earlier

/-- The message of the attempt that follows this one. -/
def nextMessage
    (operators : JsOperators V) (context : SerializedContext V)
    (data nextAttempt : V) : SerializedContext V where
  job := context.job
  data := data
  retryContext := operators.orEmptyObject none
  attempt := nextAttempt

/-- The call has passed the next attempt to `sendToQueue`, with what the object
`data` held by then. -/
def NextPublished
    (operators : JsOperators V) (context : SerializedContext V)
    (history : List (Observation V)) (call : ℕ) : Prop :=
  ∃ later earlier nextAttempt,
    operators.addOne context.attempt = some nextAttempt ∧
      history =
        later ++
          .published call
              (nextMessage operators context (currentData context.data earlier)
                nextAttempt) ::
            earlier

/-- A default call of `retry` has resolved for a reason: the next attempt was
published and confirmed, or the job is discarded and reported. -/
def RetryAccounted
    (operators : JsOperators V) (context : SerializedContext V)
    (history : List (Observation V)) (call : ℕ) : Prop :=
  (NextPublished operators context history call ∧
      .publishConfirmed call ∈ history) ∨
    ∃ reason, .discardReported reason ∈ history

/-- The history of a run accounts for its attempt. -/
def FateRecorded
    (operators : JsOperators V) (context : SerializedContext V)
    (history : List (Observation V)) : Prop :=
  (.attemptExceeded ∈ history ∧
      .discardReported .maxAttemptCountReached ∈ history) ∨
    (.handlerResolved ∈ history ∧ .handlerTimedOut ∉ history) ∨
    .handleErrorResolved ∈ history ∨
    ∃ call, .retryCalled call true ∈ history ∧
      .defaultRetryResolved call ∈ history ∧
        RetryAccounted operators context history call

theorem currentData_append
    (received : V) (unchanged : ∀ data, .dataChanged data ∉ added) :
    currentData received (added ++ history) = currentData received history := by
  induction added with
  | nil => rfl
  | cons entry rest inductionHypothesis =>
      have rested :=
        inductionHypothesis fun data member =>
          unchanged data (List.mem_cons_of_mem _ member)
      cases entry with
      | dataChanged data => exact absurd List.mem_cons_self (unchanged data)
      | _ => exact rested

theorem NextPublished.append
    (published : NextPublished operators context history call)
    (added : List (Observation V)) :
    NextPublished operators context (added ++ history) call := by
  obtain ⟨later, earlier, nextAttempt, incremented, rfl⟩ := published
  refine ⟨added ++ later, earlier, nextAttempt, incremented, ?_⟩
  rw [List.append_assoc]

theorem RetryAccounted.append
    (accounted : RetryAccounted operators context history call)
    (added : List (Observation V)) :
    RetryAccounted operators context (added ++ history) call := by
  rcases accounted with ⟨published, confirmed⟩ | ⟨reason, reported⟩
  · exact Or.inl ⟨published.append added, List.mem_append_right _ confirmed⟩
  · exact Or.inr ⟨reason, List.mem_append_right _ reported⟩

theorem FateRecorded.append
    (recorded : FateRecorded operators context history)
    (inTime : .handlerTimedOut ∉ added) :
    FateRecorded operators context (added ++ history) := by
  rcases recorded with
    ⟨exceeded, reported⟩ | ⟨resolved, untimed⟩ | handled | ⟨call, rest⟩
  · exact Or.inl ⟨List.mem_append_right _ exceeded,
      List.mem_append_right _ reported⟩
  · refine Or.inr (Or.inl ⟨List.mem_append_right _ resolved, ?_⟩)
    intro timedOut
    rcases List.mem_append.mp timedOut with new | old
    · exact inTime new
    · exact untimed old
  · exact Or.inr (Or.inr (Or.inl (List.mem_append_right _ handled)))
  · obtain ⟨called, resolved, accounted⟩ := rest
    exact Or.inr (Or.inr (Or.inr
      ⟨call, List.mem_append_right _ called, List.mem_append_right _ resolved,
        accounted.append added⟩))

/-- What the place of a default call says about the past. -/
def CallAccounted
    (operators : JsOperators V) (context : SerializedContext V)
    (history : List (Observation V)) (call : ℕ) : RetryCall V → Prop
  | .creating nextAttempt retryContext _ =>
      retryContext = none ∧ operators.addOne context.attempt = some nextAttempt
  | .sending _ _ => NextPublished operators context history call
  | .resolved => RetryAccounted operators context history call
  | .rejected => True

theorem retryCalled_of_append
    {isDefault : Bool}
    (uncalled : ∀ call isDefault, .retryCalled call isDefault ∉ added)
    (member : .retryCalled call isDefault ∈ added ++ history) :
    .retryCalled call isDefault ∈ history := by
  rcases List.mem_append.mp member with new | old
  · exact absurd new (uncalled call isDefault)
  · exact old

end Histories

namespace AttemptRun

variable {κ Buffer V : Type}

/-! ## The calls of `retry` -/

/-- What is known of the calls that a run makes by default. -/
structure RetryRecord (operators : JsOperators V) (run : AttemptRun κ V) : Prop where
  itsJob : run.scheduler.job = run.context.job
  itsAttempt : run.scheduler.attempt = run.context.attempt
  itsData : run.scheduler.data = currentData run.context.data run.history
  called :
    ∀ call isDefault, .retryCalled call isDefault ∈ run.history →
      call < run.retries.length
  discarded :
    run.scheduler.isDiscarded = true →
      ∃ reason, .discardReported reason ∈ run.history
  creating :
    ∀ (call : ℕ) (nextAttempt : V) (retryContext : Option V)
      (retryDelayMs : JsNumber),
      .retryCalled call true ∈ run.history →
        run.retries[call]? =
            some (.creating nextAttempt retryContext retryDelayMs) →
          retryContext = none ∧
            operators.addOne run.context.attempt = some nextAttempt
  sending :
    ∀ (call : ℕ) (message : SerializedContext V) (retryDelayMs : JsNumber),
      .retryCalled call true ∈ run.history →
        run.retries[call]? = some (.sending message retryDelayMs) →
          NextPublished operators run.context run.history call
  resolved :
    ∀ call : ℕ, .retryCalled call true ∈ run.history →
      run.retries[call]? = some .resolved →
        RetryAccounted operators run.context run.history call

variable {operators : JsOperators V}

/-- The record of a grown run: of each default call in it, either the earlier
record speaks or its place is accounted for. -/
theorem RetryRecord.grow
    {run next : AttemptRun κ V} (record : RetryRecord operators run)
    (added : List (Observation V))
    (history : next.history = added ++ run.history)
    (context : next.context = run.context)
    (itsJob : next.scheduler.job = run.scheduler.job)
    (itsAttempt : next.scheduler.attempt = run.scheduler.attempt)
    (itsData : next.scheduler.data = currentData next.context.data next.history)
    (discarded :
      next.scheduler.isDiscarded = true →
        run.scheduler.isDiscarded = true ∨
          ∃ reason, .discardReported reason ∈ next.history)
    (called :
      ∀ call isDefault, .retryCalled call isDefault ∈ next.history →
        call < next.retries.length)
    (accounted :
      ∀ call place, .retryCalled call true ∈ next.history →
        next.retries[call]? = some place →
          (.retryCalled call true ∈ run.history ∧
              run.retries[call]? = some place) ∨
            CallAccounted operators next.context next.history call place) :
    RetryRecord operators next := by
  refine
    { itsJob := ?_
      itsAttempt := ?_
      itsData := itsData
      called := called
      discarded := ?_
      creating := ?_
      sending := ?_
      resolved := ?_ }
  · rw [itsJob, context]
    exact record.itsJob
  · rw [itsAttempt, context]
    exact record.itsAttempt
  · intro isDiscarded
    rcases discarded isDiscarded with already | reported
    · obtain ⟨reason, reported⟩ := record.discarded already
      rw [history]
      exact ⟨reason, List.mem_append_right _ reported⟩
    · exact reported
  · intro call nextAttempt retryContext retryDelayMs member waiting
    rcases accounted call _ member waiting with ⟨old, kept⟩ | creating
    · rw [context]
      exact record.creating call nextAttempt retryContext retryDelayMs old kept
    · exact creating
  · intro call message retryDelayMs member sending
    rcases accounted call _ member sending with ⟨old, kept⟩ | published
    · rw [context, history]
      exact (record.sending call message retryDelayMs old kept).append added
    · exact published
  · intro call member resolved
    rcases accounted call _ member resolved with ⟨old, kept⟩ | accounted
    · rw [context, history]
      exact (record.resolved call old kept).append added
    · exact accounted

/-- Observations may be added while calls stay the same. -/
theorem RetryRecord.append
    {run next : AttemptRun κ V} (record : RetryRecord operators run)
    (added : List (Observation V))
    (history : next.history = added ++ run.history)
    (uncalled : ∀ call isDefault, .retryCalled call isDefault ∉ added)
    (context : next.context = run.context)
    (itsJob : next.scheduler.job = run.scheduler.job)
    (itsAttempt : next.scheduler.attempt = run.scheduler.attempt)
    (itsData : next.scheduler.data = currentData next.context.data next.history)
    (discarded :
      next.scheduler.isDiscarded = true →
        run.scheduler.isDiscarded = true ∨
          ∃ reason, .discardReported reason ∈ next.history)
    (sameRetries : next.retries = run.retries) :
    RetryRecord operators next := by
  have before (call : ℕ) (isDefault : Bool)
      (member : .retryCalled call isDefault ∈ next.history) :
      .retryCalled call isDefault ∈ run.history :=
    retryCalled_of_append uncalled (history ▸ member)
  refine record.grow added history context itsJob itsAttempt itsData discarded
    ?_ ?_
  · intro call isDefault member
    rw [sameRetries]
    exact record.called call isDefault (before call isDefault member)
  · intro call place member placed
    rw [sameRetries] at placed
    exact Or.inl ⟨before call true member, placed⟩

/-- A step that leaves the calls and the scheduler alone. -/
theorem RetryRecord.pass
    {run next : AttemptRun κ V} (record : RetryRecord operators run)
    (added : List (Observation V))
    (history : next.history = added ++ run.history)
    (uncalled : ∀ call isDefault, .retryCalled call isDefault ∉ added)
    (unchanged : ∀ data, .dataChanged data ∉ added)
    (context : next.context = run.context)
    (sameScheduler : next.scheduler = run.scheduler)
    (sameRetries : next.retries = run.retries) :
    RetryRecord operators next := by
  refine record.append added history uncalled context (by rw [sameScheduler])
    (by rw [sameScheduler]) ?_ ?_ sameRetries
  · rw [sameScheduler, context, history, currentData_append _ unchanged]
    exact record.itsData
  · rw [sameScheduler]
    exact Or.inl

/-- A call may be moved on while its new place is accounted for. -/
theorem RetryRecord.set
    {run next : AttemptRun κ V} (record : RetryRecord operators run)
    (call : ℕ) (moved : RetryCall V) (added : List (Observation V))
    (history : next.history = added ++ run.history)
    (uncalled : ∀ call isDefault, .retryCalled call isDefault ∉ added)
    (unchanged : ∀ data, .dataChanged data ∉ added)
    (context : next.context = run.context)
    (sameScheduler : next.scheduler = run.scheduler)
    (retries : next.retries = run.retries.set call moved)
    (accounted :
      .retryCalled call true ∈ run.history →
        CallAccounted operators next.context next.history call moved) :
    RetryRecord operators next := by
  have before (other : ℕ) (isDefault : Bool)
      (member : .retryCalled other isDefault ∈ next.history) :
      .retryCalled other isDefault ∈ run.history :=
    retryCalled_of_append uncalled (history ▸ member)
  refine record.grow added history context (by rw [sameScheduler])
    (by rw [sameScheduler]) ?_ ?_ ?_ ?_
  · rw [sameScheduler, context, history, currentData_append _ unchanged]
    exact record.itsData
  · rw [sameScheduler]
    exact Or.inl
  · intro other isDefault member
    rw [retries, List.length_set]
    exact record.called other isDefault (before other isDefault member)
  · intro other place member placed
    rw [retries] at placed
    rcases set_cases placed with ⟨same, itself⟩ | ⟨_, kept⟩
    · subst same itself
      exact Or.inr (accounted (before other true member))
    · exact Or.inl ⟨before other true member, kept⟩

/-- A call may be added while its place is accounted for. -/
theorem RetryRecord.concat
    {run next : AttemptRun κ V} (record : RetryRecord operators run)
    (isDefault : Bool) (place : RetryCall V) (reports : List (Observation V))
    (history :
      next.history =
        reports ++ .retryCalled run.retries.length isDefault :: run.history)
    (uncalled : ∀ call isDefault, .retryCalled call isDefault ∉ reports)
    (unchanged : ∀ data, .dataChanged data ∉ reports)
    (context : next.context = run.context)
    (itsJob : next.scheduler.job = run.scheduler.job)
    (itsAttempt : next.scheduler.attempt = run.scheduler.attempt)
    (sameData : next.scheduler.data = run.scheduler.data)
    (discarded :
      next.scheduler.isDiscarded = true →
        run.scheduler.isDiscarded = true ∨
          ∃ reason, .discardReported reason ∈ next.history)
    (retries : next.retries = run.retries ++ [place])
    (accounted :
      isDefault = true →
        CallAccounted operators next.context next.history run.retries.length
          place) :
    RetryRecord operators next := by
  have before (other : ℕ) (itsDefault : Bool)
      (member : .retryCalled other itsDefault ∈ next.history) :
      (other = run.retries.length ∧ itsDefault = isDefault) ∨
        .retryCalled other itsDefault ∈ run.history := by
    rw [history] at member
    rcases List.mem_cons.mp (retryCalled_of_append uncalled member) with
      same | old
    · cases same
      exact Or.inl ⟨rfl, rfl⟩
    · exact Or.inr old
  refine record.grow (reports ++ [.retryCalled run.retries.length isDefault]) ?_
    context itsJob itsAttempt ?_ discarded ?_ ?_
  · rw [history, List.append_assoc]
    rfl
  · rw [sameData, context, history, currentData_append _ unchanged]
    exact record.itsData
  · intro other itsDefault member
    rw [retries, List.length_append]
    rcases before other itsDefault member with ⟨same, _⟩ | old
    · rw [same]
      exact Nat.lt_add_one _
    · exact Nat.lt_add_right _ (record.called other itsDefault old)
  · intro other placed member present
    rw [retries] at present
    rcases before other true member with ⟨last, itsOwn⟩ | old
    · subst last
      rw [List.getElem?_concat_length] at present
      cases present
      exact Or.inr (accounted itsOwn.symm)
    · -- An earlier call keeps its place.
      have inside := record.called other true old
      rw [List.getElem?_append_left inside] at present
      exact Or.inl ⟨old, present⟩

theorem RetryRecord.discard
    {run : AttemptRun κ V} (record : RetryRecord operators run)
    (reason : DiscardReason) :
    RetryRecord operators (run.discard reason) := by
  have history := discard_history run reason
  by_cases discarded : run.scheduler.isDiscarded = true
  · rw [if_pos discarded] at history
    refine record.append [] history (by simp) (by simp) (by simp) (by simp) ?_
      (fun _ => Or.inl discarded) (by simp)
    rw [history, discard_context, discard_scheduler]
    exact record.itsData
  · rw [if_neg discarded] at history
    refine record.append [.discardReported reason] history (by simp) (by simp)
      (by simp) (by simp) ?_ ?_ (by simp)
    · rw [history, discard_context, discard_scheduler]
      exact record.itsData
    · rw [history]
      exact fun _ => Or.inr ⟨reason, List.mem_cons_self⟩

theorem RetryRecord.callRetry
    {surroundings : Surroundings Buffer V} {run : AttemptRun κ V}
    (record : RetryRecord operators run)
    (itsOperators : surroundings.operators = operators)
    (options : RetryOptions V) (isDefault : Bool)
    (byDefault : isDefault = true → options = defaultRetryOptions) :
    RetryRecord operators (run.callRetry surroundings options isDefault) := by
  obtain ⟨call, retries, outcome⟩ :=
    callRetry_cases surroundings run options isDefault
  obtain ⟨itsJob, itsData, itsAttempt⟩ :=
    callRetry_scheduler surroundings run options isDefault
  have context := callRetry_context surroundings run options isDefault
  rcases outcome with
    ⟨discarded, rfl, _, history⟩ | ⟨_, rfl, _, history⟩ |
    ⟨_, creates, scheduler, history⟩
  · refine record.concat isDefault .resolved [] history nofun nofun context itsJob
      itsAttempt itsData (fun _ => Or.inl discarded) retries fun _ => Or.inr ?_
    obtain ⟨reason, reported⟩ := record.discarded discarded
    rw [history]
    exact ⟨reason, List.mem_cons_of_mem _ reported⟩
  · have reported :
        .discardReported .maxAttemptCountReached ∈
          (run.callRetry surroundings options isDefault).history := by
      rw [history]
      exact List.mem_cons_self
    exact record.concat isDefault .resolved
      [.discardReported .maxAttemptCountReached] history (by simp) (by simp)
      context itsJob itsAttempt itsData (fun _ => Or.inr ⟨_, reported⟩) retries
      fun _ => Or.inr ⟨_, reported⟩
  · refine record.concat isDefault call [] history nofun nofun context itsJob
      itsAttempt itsData (scheduler ▸ Or.inl) retries fun isOwn => ?_
    rcases creates with rfl | ⟨nextAttempt, retryDelayMs, incremented, rfl⟩
    · trivial
    · have itsOptions := byDefault isOwn
      rw [itsOptions, itsOperators] at incremented
      rw [context, itsOptions]
      refine ⟨rfl, ?_⟩
      rw [← record.itsAttempt]
      exact incremented

/-- A run without calls. -/
theorem retryRecord_of_uncalled
    {run : AttemptRun κ V}
    (itsJob : run.scheduler.job = run.context.job)
    (itsAttempt : run.scheduler.attempt = run.context.attempt)
    (itsData : run.scheduler.data = currentData run.context.data run.history)
    (uncalled : ∀ call isDefault, .retryCalled call isDefault ∉ run.history)
    (discarded :
      run.scheduler.isDiscarded = true →
        ∃ reason, .discardReported reason ∈ run.history) :
    RetryRecord operators run where
  itsJob := itsJob
  itsAttempt := itsAttempt
  itsData := itsData
  called call isDefault member := absurd member (uncalled call isDefault)
  discarded := discarded
  creating call _ _ _ member := absurd member (uncalled call true)
  sending call _ _ member := absurd member (uncalled call true)
  resolved call member := absurd member (uncalled call true)

theorem retryRecord_start
    (surroundings : Surroundings Buffer V)
    (correlationId : κ) (context : SerializedContext V) :
    RetryRecord operators (start surroundings correlationId context) := by
  unfold start
  dsimp only
  split
  · refine RetryRecord.discard ?_ _
    exact retryRecord_of_uncalled rfl rfl rfl (by simp) nofun
  · split
    · exact retryRecord_of_uncalled rfl rfl rfl (by simp) nofun
    · exact retryRecord_of_uncalled rfl rfl rfl (by simp) nofun
  · exact retryRecord_of_uncalled (by simp [Scheduler.create])
      (by simp [Scheduler.create]) (by simp [Scheduler.create, currentData])
      (by simp) (by simp [Scheduler.create])

/-- What a default call sends is the next attempt. -/
theorem RetryRecord.nextPublished
    {run : AttemptRun κ V} (record : RetryRecord operators run)
    {call : ℕ} {nextAttempt : V} {retryContext : Option V}
    {retryDelayMs : JsNumber} (called : .retryCalled call true ∈ run.history)
    (creating :
      run.retries[call]? =
        some (.creating nextAttempt retryContext retryDelayMs)) :
    NextPublished operators run.context
      (.published call
          (run.scheduler.retryMessage operators retryContext nextAttempt) ::
        run.history)
      call := by
  obtain ⟨noContext, incremented⟩ :=
    record.creating call nextAttempt retryContext retryDelayMs called creating
  refine ⟨[], run.history, nextAttempt, incremented, ?_⟩
  rw [noContext, List.nil_append]
  unfold Scheduler.retryMessage nextMessage
  rw [record.itsJob, record.itsData]

theorem retryRecord_steps
    {surroundings : Surroundings Buffer V} {run next : AttemptRun κ V}
    {event : AttemptEvent V} {effects : List (Effect κ Buffer)}
    (itsOperators : surroundings.operators = operators)
    (record : RetryRecord operators run)
    (stepped : Steps surroundings run event next effects) :
    RetryRecord operators next := by
  cases stepped with
  | handlerResolved hasTimer handling =>
      exact record.pass [.handlerResolved] rfl (by simp) (by simp) rfl rfl rfl
  | handlerRejected hasHandler hasTimer handling =>
      exact record.pass [] (by simp) (by simp) (by simp) (by simp) (by simp)
        (by simp)
  | handlerTimedOut hasHandler handling =>
      exact record.pass [.handlerTimedOut] (by simp) (by simp) (by simp)
        (by simp) (by simp) (by simp)
  | handleErrorResolved handlingError =>
      exact record.pass [.handleErrorResolved] rfl (by simp) (by simp) rfl rfl rfl
  | handleErrorDisposed hasHandleError handlingError disposed =>
      exact record.pass [] rfl (by simp) (by simp) rfl rfl rfl
  | handleErrorRejected hasHandleError handlingError live =>
      refine RetryRecord.callRetry ?_ itsOperators defaultRetryOptions true
        fun _ => rfl
      exact record.pass [.jobErrorEmitted] rfl (by simp) (by simp) rfl rfl rfl
  | retryCalled options exposed =>
      exact record.callRetry itsOperators options false nofun
  | discardCalled exposed => exact record.discard .givenByUser
  | dataChanged data changeable =>
      exact record.append [.dataChanged data] rfl (by simp) rfl rfl rfl rfl Or.inl
        rfl
  | retryContextChanged call nextAttempt passed retryContext retryDelayMs creating
      changeable =>
      refine record.set call _ [] rfl (by simp) (by simp) rfl rfl rfl ?_
      intro called
      cases (record.creating call _ _ _ called creating).1
  | retryPublished call nextAttempt retryContext retryDelayMs content creating
      serialized =>
      refine record.set call _ [.published call _] rfl (by simp) (by simp) rfl rfl
        rfl ?_
      intro called
      rw [itsOperators]
      exact record.nextPublished called creating
  | retryNotPublished call nextAttempt retryContext retryDelayMs settlement
      creating =>
      exact record.set call .rejected [] rfl (by simp) (by simp) rfl rfl rfl
        fun _ => trivial
  | sendConfirmed call message retryDelayMs sending =>
      refine record.set call .resolved [.publishConfirmed call] rfl (by simp)
        (by simp) rfl rfl rfl ?_
      intro called
      have published := record.sending call message retryDelayMs called sending
      exact Or.inl ⟨published.append [.publishConfirmed call], List.mem_cons_self⟩
  | sendFailed call message retryDelayMs sending =>
      exact record.set call .rejected [] rfl (by simp) (by simp) rfl rfl rfl
        fun _ => trivial
  | defaultRetryResolved call retrying resolved =>
      exact record.pass [.defaultRetryResolved call] rfl (by simp) (by simp) rfl
        rfl rfl
  | defaultRetryRejected call retrying rejected =>
      exact record.pass [.defaultRetryRejected call] rfl (by simp) (by simp) rfl
        rfl rfl
  | proceedDisposed processed disposed =>
      exact record.pass [] rfl (by simp) (by simp) rfl rfl rfl
  | proceedAcknowledging tag processed live actual =>
      exact record.pass [.acknowledged tag] rfl (by simp) (by simp) rfl rfl rfl
  | proceedUnlocking processed live actual =>
      exact record.pass [] rfl (by simp) (by simp) rfl rfl rfl
  | acknowledgeSettled tag settlement acknowledging =>
      exact record.pass [] rfl (by simp) (by simp) rfl rfl rfl

/-! ## What an await point says about the past -/

structure PhaseRecord (operators : JsOperators V) (run : AttemptRun κ V) : Prop where
  handling :
    ∀ hasHandler hasTimer, run.phase = .handling hasHandler hasTimer →
      .handlerTimedOut ∉ run.history
  retrying :
    ∀ call, run.phase = .retrying call → .retryCalled call true ∈ run.history
  processed :
    run.phase = .processed → FateRecorded operators run.context run.history
  unacknowledged :
    run.phase.awaitsTag = true → ∀ tag, .acknowledged tag ∉ run.history
  unrejected :
    run.phase ≠ .ended → ∀ call, .defaultRetryRejected call ∉ run.history
  rejected :
    ∀ call, .defaultRetryRejected call ∈ run.history →
      ∀ tag, .acknowledged tag ∉ run.history

/-- A step that neither acknowledges nor gives up keeps the record, if its new
await point is accounted for. -/
theorem PhaseRecord.move
    {run next : AttemptRun κ V} (record : PhaseRecord operators run)
    (added : List (Observation V))
    (history : next.history = added ++ run.history)
    (awaits : next.phase.awaitsTag = true → run.phase.awaitsTag = true)
    (live : next.phase ≠ .ended → run.phase ≠ .ended)
    (notAcknowledged : ∀ tag, .acknowledged tag ∉ added)
    (notRejected : ∀ call, .defaultRetryRejected call ∉ added)
    (handling :
      ∀ hasHandler hasTimer, next.phase = .handling hasHandler hasTimer →
        .handlerTimedOut ∉ next.history)
    (retrying :
      ∀ call, next.phase = .retrying call →
        .retryCalled call true ∈ next.history)
    (processed :
      next.phase = .processed →
        FateRecorded operators next.context next.history) :
    PhaseRecord operators next := by
  refine ⟨handling, retrying, processed, ?_, ?_, ?_⟩
  · intro nextAwaits tag member
    rw [history] at member
    rcases List.mem_append.mp member with new | old
    · exact notAcknowledged tag new
    · exact record.unacknowledged (awaits nextAwaits) tag old
  · intro nextLive call member
    rw [history] at member
    rcases List.mem_append.mp member with new | old
    · exact notRejected call new
    · exact record.unrejected (live nextLive) call old
  · intro call rejectedCall tag member
    rw [history] at rejectedCall member
    rcases List.mem_append.mp rejectedCall with new | old
    · exact notRejected call new
    · rcases List.mem_append.mp member with newTag | oldTag
      · exact notAcknowledged tag newTag
      · exact record.rejected call old tag oldTag

/-- A step at the same await point, which user code or the broker takes. -/
theorem PhaseRecord.stay
    {run next : AttemptRun κ V} (record : PhaseRecord operators run)
    (added : List (Observation V))
    (history : next.history = added ++ run.history)
    (context : next.context = run.context)
    (samePhase : next.phase = run.phase)
    (notAcknowledged : ∀ tag, .acknowledged tag ∉ added)
    (notRejected : ∀ call, .defaultRetryRejected call ∉ added)
    (inTime : .handlerTimedOut ∉ added) :
    PhaseRecord operators next := by
  refine record.move added history ?_ ?_ notAcknowledged notRejected ?_ ?_ ?_
  · rw [samePhase]
    exact id
  · rw [samePhase]
    exact id
  · intro hasHandler hasTimer handling timedOut
    rw [samePhase] at handling
    rw [history] at timedOut
    rcases List.mem_append.mp timedOut with new | old
    · exact inTime new
    · exact record.handling hasHandler hasTimer handling old
  · intro call retrying
    rw [samePhase] at retrying
    rw [history]
    exact List.mem_append_right _ (record.retrying call retrying)
  · intro processed
    rw [samePhase] at processed
    rw [history, context]
    exact (record.processed processed).append inTime

/-- No await point that a caught error leads to has to be accounted for. -/
theorem catchError_unaccounted
    (surroundings : Surroundings Buffer V) (run : AttemptRun κ V) :
    (∀ hasHandler hasTimer,
        (run.catchError surroundings).phase ≠ .handling hasHandler hasTimer) ∧
      (∀ call, (run.catchError surroundings).phase ≠ .retrying call) ∧
      (run.catchError surroundings).phase ≠ .processed := by
  rcases catchError_phase surroundings run with ended | ⟨_, caught⟩
  · rw [ended]
    exact ⟨nofun, nofun, nofun⟩
  · rw [caught]
    exact ⟨nofun, nofun, nofun⟩

theorem PhaseRecord.catchError
    {run : AttemptRun κ V} (record : PhaseRecord operators run)
    (surroundings : Surroundings Buffer V)
    (added : List (Observation V))
    (awaits : run.phase.awaitsTag = true)
    (notAcknowledged : ∀ tag, .acknowledged tag ∉ added)
    (notRejected : ∀ call, .defaultRetryRejected call ∉ added) :
    PhaseRecord operators
      (AttemptRun.catchError surroundings
        { run with history := added ++ run.history }) := by
  have notEnded : run.phase ≠ .ended := by
    intro ended
    rw [ended] at awaits
    cases awaits
  obtain ⟨notHandling, notRetrying, notProcessed⟩ :=
    catchError_unaccounted surroundings
      { run with history := added ++ run.history }
  refine record.move added (by simp) (fun _ => awaits) (fun _ => notEnded)
    notAcknowledged notRejected ?_ ?_ ?_
  · intro hasHandler hasTimer handling
    exact absurd handling (notHandling hasHandler hasTimer)
  · intro call retrying
    exact absurd retrying (notRetrying call)
  · intro processed
    exact absurd processed notProcessed

theorem phaseRecord_start
    (surroundings : Surroundings Buffer V)
    (correlationId : κ) (context : SerializedContext V) :
    PhaseRecord operators (start surroundings correlationId context) := by
  obtain ⟨_, _, _, itsStart⟩ := start_cases surroundings correlationId context
  rcases itsStart with ⟨processed, _, _, history⟩ | ⟨_, history, waiting⟩
  · constructor
    · rw [processed]
      exact nofun
    · rw [processed]
      exact nofun
    · rw [history]
      exact fun _ => Or.inl ⟨by simp, by simp⟩
    · simp [history]
    · simp [history]
    · simp [history]
  · constructor
    · simp [history]
    · intro call retrying
      rcases waiting with ⟨_, _, phase⟩ | phase | ⟨_, phase⟩
      · rw [phase] at retrying
        cases retrying
      · rw [phase] at retrying
        cases retrying
      · rw [phase] at retrying
        cases retrying
    · intro processed
      rcases waiting with ⟨_, _, phase⟩ | phase | ⟨_, phase⟩
      · rw [phase] at processed
        cases processed
      · rw [phase] at processed
        cases processed
      · rw [phase] at processed
        cases processed
    · simp [history]
    · simp [history]
    · simp [history]

/-- A run that ends without a further observation. -/
theorem PhaseRecord.ended
    {run next : AttemptRun κ V} (record : PhaseRecord operators run)
    (history : next.history = run.history) (ended : next.phase = .ended) :
    PhaseRecord operators next := by
  constructor
  · rw [ended]
    exact nofun
  · rw [ended]
    exact nofun
  · rw [ended]
    exact nofun
  · rw [ended]
    exact nofun
  · exact fun live => absurd ended live
  · rw [history]
    exact record.rejected

theorem phaseRecord_handleErrorRejected
    {surroundings : Surroundings Buffer V} {run : AttemptRun κ V}
    {hasHandleError : Bool} (record : PhaseRecord operators run)
    (handlingError : run.phase = .handlingError hasHandleError) :
    PhaseRecord operators
      (AttemptRun.callRetry surroundings
        { run with
          phase := .retrying run.retries.length
          history := .jobErrorEmitted :: run.history }
        defaultRetryOptions true) := by
  obtain ⟨added, history, called, notAcknowledged, notRejected, _⟩ :=
    callRetry_history surroundings
      { run with
        phase := .retrying run.retries.length
        history := .jobErrorEmitted :: run.history }
      defaultRetryOptions true
  refine record.move (added ++ [.jobErrorEmitted])
    (by simp [history]) (by simp [handlingError, AttemptPhase.awaitsTag])
    (by simp [handlingError]) (by simpa using notAcknowledged)
    (by simpa using notRejected) ?_ ?_ ?_
  · rw [callRetry_phase]
    exact nofun
  · rw [callRetry_phase, history]
    intro call retrying
    cases retrying
    exact List.mem_append_left _ called
  · rw [callRetry_phase]
    exact nofun

theorem phaseRecord_steps
    {surroundings : Surroundings Buffer V} {run next : AttemptRun κ V}
    {event : AttemptEvent V} {effects : List (Effect κ Buffer)}
    (retryRecord : RetryRecord operators run) (record : PhaseRecord operators run)
    (stepped : Steps surroundings run event next effects) :
    PhaseRecord operators next := by
  cases stepped with
  | handlerResolved hasTimer handling =>
      refine record.move [.handlerResolved] rfl
        (by simp [handling, AttemptPhase.awaitsTag]) (by simp [handling])
        (by simp) (by simp) nofun nofun ?_
      intro _
      refine Or.inr (Or.inl ⟨List.mem_cons_self, ?_⟩)
      simpa using record.handling true hasTimer handling
  | handlerRejected hasHandler hasTimer handling =>
      exact record.catchError surroundings []
        (by simp [handling, AttemptPhase.awaitsTag]) (by simp) (by simp)
  | handlerTimedOut hasHandler handling =>
      exact record.catchError surroundings [.handlerTimedOut]
        (by simp [handling, AttemptPhase.awaitsTag]) (by simp) (by simp)
  | handleErrorResolved handlingError =>
      refine record.move [.handleErrorResolved] rfl
        (by simp [handlingError, AttemptPhase.awaitsTag])
        (by simp [handlingError]) (by simp) (by simp) nofun nofun ?_
      exact fun _ => Or.inr (Or.inr (Or.inl List.mem_cons_self))
  | handleErrorDisposed hasHandleError handlingError disposed =>
      exact record.ended rfl rfl
  | handleErrorRejected hasHandleError handlingError live =>
      exact phaseRecord_handleErrorRejected record handlingError
  | retryCalled options exposed =>
      obtain ⟨added, history, _, notAcknowledged, notRejected, inTime⟩ :=
        callRetry_history surroundings run options false
      exact record.stay added history (by simp) (by simp) notAcknowledged notRejected
        inTime
  | discardCalled exposed =>
      by_cases discarded : run.scheduler.isDiscarded = true
      · exact record.stay [] (by simp [discard_history, discarded]) (by simp)
          (by simp) (by simp) (by simp) (by simp)
      · exact record.stay [.discardReported .givenByUser]
          (by simp [discard_history, discarded]) (by simp) (by simp)
          (by simp) (by simp) (by simp)
  | dataChanged data changeable =>
      exact record.stay [.dataChanged data] rfl rfl rfl (by simp) (by simp)
        (by simp)
  | retryContextChanged call nextAttempt passed retryContext retryDelayMs creating
      changeable =>
      exact record.stay [] rfl rfl rfl (by simp) (by simp) (by simp)
  | retryPublished call nextAttempt retryContext retryDelayMs content creating
      serialized =>
      exact record.stay [.published call _] rfl rfl rfl (by simp) (by simp)
        (by simp)
  | retryNotPublished call nextAttempt retryContext retryDelayMs settlement
      creating =>
      exact record.stay [] rfl rfl rfl (by simp) (by simp) (by simp)
  | sendConfirmed call message retryDelayMs sending =>
      exact record.stay [.publishConfirmed call] rfl rfl rfl (by simp) (by simp)
        (by simp)
  | sendFailed call message retryDelayMs sending =>
      exact record.stay [] rfl rfl rfl (by simp) (by simp) (by simp)
  | defaultRetryResolved call retrying resolved =>
      refine record.move [.defaultRetryResolved call] rfl
        (by simp [retrying, AttemptPhase.awaitsTag]) (by simp [retrying])
        (by simp) (by simp) nofun nofun ?_
      intro _
      have called := record.retrying call retrying
      have accounted := retryRecord.resolved call called resolved
      exact Or.inr (Or.inr (Or.inr
        ⟨call, List.mem_cons_of_mem _ called, List.mem_cons_self,
          accounted.append [.defaultRetryResolved call]⟩))
  | defaultRetryRejected call retrying rejected =>
      refine ⟨nofun, nofun, nofun, nofun, fun live => absurd rfl live, ?_⟩
      intro other _ tag member
      have awaits : run.phase.awaitsTag = true := by
        simp [retrying, AttemptPhase.awaitsTag]
      rcases List.mem_cons.mp member with new | old
      · cases new
      · exact record.unacknowledged awaits tag old
  | proceedDisposed processed disposed => exact record.ended rfl rfl
  | proceedAcknowledging tag processed live actual =>
      have notEnded : run.phase ≠ .ended := by simp [processed]
      have unrejected := record.unrejected notEnded
      refine ⟨nofun, nofun, nofun, nofun, ?_, ?_⟩
      · intro _ call member
        rcases List.mem_cons.mp member with new | old
        · cases new
        · exact unrejected call old
      · intro call member
        rcases List.mem_cons.mp member with new | old
        · cases new
        · exact absurd old (unrejected call)
  | proceedUnlocking processed live actual => exact record.ended rfl rfl
  | acknowledgeSettled tag settlement acknowledging => exact record.ended rfl rfl

end AttemptRun

namespace JobServer

variable {κ Buffer V : Type} [DecidableEq κ] [DecidableEq Buffer] [DecidableEq V]

/-- Every run of a reachable server satisfies both records. -/
theorem runs_recorded
    {config : JobServerConfig Buffer V}
    {schedule : List (JobServerEvent κ Buffer V)} {server : JobServer κ Buffer V}
    (execution :
      (machine config).run (machine config).initial schedule = some server) :
    ∀ run, JobRun.attempt run ∈ server.runs →
      run.RetryRecord config.operators ∧ run.PhaseRecord config.operators := by
  refine runs_invariant ?_ ?_ execution
  · intro server correlationId context
    exact ⟨AttemptRun.retryRecord_start _ correlationId context,
      AttemptRun.phaseRecord_start _ correlationId context⟩
  · rintro server run event next effects ⟨retryRecord, phaseRecord⟩ stepped
    exact ⟨AttemptRun.retryRecord_steps rfl retryRecord stepped,
      AttemptRun.phaseRecord_steps retryRecord phaseRecord stepped⟩

omit [DecidableEq Buffer] [DecidableEq V] in
theorem acknowledged_effects
    (server : JobServer κ Buffer V) (effects : List (Effect κ Buffer))
    (noAcknowledgement : ∀ tag, .acknowledge tag ∉ effects) :
    (effects.foldl apply server).acknowledged = server.acknowledged := by
  induction effects generalizing server with
  | nil => rfl
  | cons effect rest inductionHypothesis =>
      rw [List.foldl_cons, inductionHypothesis]
      · cases effect with
        | publish retryDelayMs message => rfl
        | acknowledge tag => exact absurd List.mem_cons_self (noAcknowledgement tag)
        | unlock correlationId => rfl
      · exact fun tag member =>
          noAcknowledgement tag (List.mem_cons_of_mem _ member)

/-- The only step that calls `acknowledge` is the one past the `try` statement
of a run whose server is not disposed. -/
theorem acknowledged_step
    {config : JobServerConfig Buffer V} {server next : JobServer κ Buffer V}
    {event : JobServerEvent κ Buffer V}
    (stepped : server.step config event = some next)
    (acknowledging : next.acknowledged ≠ server.acknowledged) :
    server.state ≠ .disposed ∧
      ∃ index run, event = .attempt index .proceed ∧
        server.runs[index]? = some (.attempt run) ∧
        run.phase = .processed := by
  cases event with
  | listen =>
      cases stepped
      refine absurd ?_ acknowledging
      unfold listen
      split <;> rfl
  | dispose =>
      cases stepped
      refine absurd ?_ acknowledging
      unfold dispose
      split <;> rfl
  | setJobHandler job handler =>
      cases stepped
      refine absurd ?_ acknowledging
      unfold setJobHandler
      split <;> rfl
  | amqpReconnected =>
      cases stepped
      refine absurd ?_ acknowledging
      unfold unlockAll
      split <;> rfl
  | amqpChannelRecreated =>
      cases stepped
      refine absurd ?_ acknowledging
      unfold unlockAll
      split <;> rfl
  | messagePublished message =>
      cases stepped
      exact absurd rfl acknowledging
  | jobMessage message tag =>
      simp only [step] at stepped
      split at stepped
      · cases stepped
        exact absurd rfl acknowledging
      · cases stepped
  | attempt index event =>
      obtain ⟨run, following, effects, present, steps, rfl⟩ :=
        stepAttempt_cases stepped
      cases steps with
      | proceedAcknowledging tag processed live actual =>
          refine ⟨?_, index, run, rfl, present, processed⟩
          simpa [surroundings] using live
      | _ => exact absurd (acknowledged_effects _ _ (by simp)) acknowledging

/-- What the run has published was passed to `sendToQueue`, serialized and under
the correlation id of the run. -/
def HasSent
    (config : JobServerConfig Buffer V) (server : JobServer κ Buffer V)
    (run : AttemptRun κ V) : Prop :=
  ∀ call message, .published call message ∈ run.history →
    ∃ publication ∈ server.published,
      publication.message.correlationId = run.correlationId ∧
        config.jsonBufferSerializer.serialize message =
          some publication.message.content

omit [DecidableEq Buffer] [DecidableEq V] in
theorem published_effects
    (server : JobServer κ Buffer V) (effects : List (Effect κ Buffer)) :
    (∀ publication ∈ server.published,
        publication ∈ (effects.foldl apply server).published) ∧
      ∀ retryDelayMs message, .publish retryDelayMs message ∈ effects →
        ⟨retryDelayMs, message⟩ ∈ (effects.foldl apply server).published := by
  induction effects generalizing server with
  | nil => exact ⟨fun _ => id, fun _ _ member => by cases member⟩
  | cons effect rest inductionHypothesis =>
      obtain ⟨kept, sent⟩ := inductionHypothesis (server.apply effect)
      refine ⟨?_, ?_⟩
      · intro publication member
        apply kept
        cases effect with
        | publish retryDelayMs message => exact List.mem_cons_of_mem _ member
        | acknowledge tag => exact member
        | unlock correlationId => exact member
      · intro retryDelayMs message member
        rcases List.mem_cons.mp member with same | later
        · apply kept
          rw [← same]
          exact List.mem_cons_self
        · exact sent retryDelayMs message later

omit [DecidableEq κ] [DecidableEq Buffer] [DecidableEq V] in
/-- A step of a run publishes what it has then observed. -/
theorem published_of_steps
    {surroundings : Surroundings Buffer V} {run next : AttemptRun κ V}
    {event : AttemptEvent V} {effects : List (Effect κ Buffer)}
    (stepped : run.Steps surroundings event next effects)
    {call : ℕ} {message : SerializedContext V}
    (published : .published call message ∈ next.history) :
    .published call message ∈ run.history ∨
      ∃ retryDelayMs content,
        surroundings.jsonBufferSerializer.serialize message = some content ∧
          effects = [.publish retryDelayMs ⟨run.correlationId, content⟩] := by
  have called :
      ∀ (caller : AttemptRun κ V) (options : RetryOptions V) (isDefault : Bool),
        .published call message ∈
            (caller.callRetry surroundings options isDefault).history →
          .published call message ∈ caller.history := by
    intro caller options isDefault member
    obtain ⟨_, _, outcome⟩ :=
      AttemptRun.callRetry_cases surroundings caller options isDefault
    rcases outcome with
      ⟨_, _, _, history⟩ | ⟨_, _, _, history⟩ | ⟨_, _, _, history⟩
    · rw [history] at member
      simpa using member
    · rw [history] at member
      simpa using member
    · rw [history] at member
      simpa using member
  cases stepped with
  | handlerRejected hasHandler hasTimer handling =>
      rw [AttemptRun.catchError_history] at published
      exact Or.inl published
  | handlerTimedOut hasHandler handling =>
      rw [AttemptRun.catchError_history] at published
      exact Or.inl (by simpa using published)
  | handleErrorRejected hasHandleError handlingError live =>
      exact Or.inl (by simpa using called _ _ _ published)
  | retryCalled options exposed => exact Or.inl (called _ _ _ published)
  | discardCalled exposed =>
      rw [AttemptRun.discard_history] at published
      split at published
      · exact Or.inl published
      · exact Or.inl (by simpa using published)
  | retryPublished own nextAttempt retryContext retryDelayMs content creating
      serialized =>
      rcases List.mem_cons.mp published with same | earlier
      · cases same
        exact Or.inr ⟨retryDelayMs, content, serialized, rfl⟩
      · exact Or.inl earlier
  | handleErrorDisposed => exact Or.inl published
  | retryContextChanged => exact Or.inl published
  | retryNotPublished => exact Or.inl published
  | sendFailed => exact Or.inl published
  | proceedDisposed => exact Or.inl published
  | proceedUnlocking => exact Or.inl published
  | acknowledgeSettled => exact Or.inl published
  | _ => exact Or.inl (by simpa using published)

theorem hasSent_step
    {config : JobServerConfig Buffer V} {server next : JobServer κ Buffer V}
    {event : JobServerEvent κ Buffer V}
    (sent : ∀ run, JobRun.attempt run ∈ server.runs → server.HasSent config run)
    (stepped : server.step config event = some next) :
    ∀ run, JobRun.attempt run ∈ next.runs → next.HasSent config run := by
  cases event with
  | listen =>
      cases stepped
      unfold listen
      split <;> exact sent
  | dispose =>
      cases stepped
      unfold dispose
      split <;> exact sent
  | setJobHandler job handler =>
      cases stepped
      unfold setJobHandler
      split <;> exact sent
  | amqpReconnected =>
      cases stepped
      unfold unlockAll
      split <;> exact sent
  | amqpChannelRecreated =>
      cases stepped
      unfold unlockAll
      split <;> exact sent
  | messagePublished message =>
      cases stepped
      exact sent
  | jobMessage message tag =>
      simp only [step] at stepped
      split at stepped
      · cases stepped
        intro run member
        rcases mem_runs_handleJobMessage member with earlier | started
        · exact sent run earlier
        · obtain ⟨context, rfl⟩ := startRun_attempt started
          intro call itsMessage published
          obtain ⟨_, _, _, itsStart⟩ :=
            AttemptRun.start_cases
              (server.surroundings config message.correlationId)
              message.correlationId context
          rcases itsStart with ⟨_, _, _, history⟩ | ⟨_, history, _⟩
          · rw [history] at published
            simp at published
          · rw [history] at published
            cases published
      · cases stepped
  | attempt index event =>
      obtain ⟨old, following, effects, present, taken, rfl⟩ :=
        stepAttempt_cases stepped
      obtain ⟨earlier, added⟩ :=
        published_effects
          { server with runs := server.runs.set index (.attempt following) }
          effects
      have before := List.mem_of_getElem? present
      intro run member call message published
      rw [runs_effects] at member
      rcases List.mem_or_eq_of_mem_set member with other | moved
      · obtain ⟨publication, known, itself⟩ :=
          sent run other call message published
        exact ⟨publication, earlier publication known, itself⟩
      · cases moved
        rcases published_of_steps taken published with past | now
        · obtain ⟨publication, known, itsId, serialized⟩ :=
            sent old before call message past
          exact ⟨publication, earlier publication known,
            itsId.trans (AttemptRun.correlationId_steps taken).symm, serialized⟩
        · obtain ⟨retryDelayMs, content, serialized, rfl⟩ := now
          exact ⟨_, added retryDelayMs _ List.mem_cons_self,
            (AttemptRun.correlationId_steps taken).symm, serialized⟩

theorem hasSent_run
    {config : JobServerConfig Buffer V}
    {schedule : List (JobServerEvent κ Buffer V)} {server : JobServer κ Buffer V}
    (execution :
      (machine config).run (machine config).initial schedule = some server) :
    ∀ run, JobRun.attempt run ∈ server.runs → server.HasSent config run := by
  have preserved :
      (machine config).Preserved fun current : JobServer κ Buffer V =>
        ∀ run, JobRun.attempt run ∈ current.runs → current.HasSent config run :=
    fun _ _ _ sent stepped => hasSent_step sent stepped
  refine Machine.run_invariant preserved ?_ execution
  intro run member
  cases member

/-- The event is the step past the `try` statement of a run on a server that is
not disposed, and the run has recorded the fate of its attempt and has sent what
it has published. -/
def RecordsFate
    (config : JobServerConfig Buffer V) (server : JobServer κ Buffer V)
    (event : JobServerEvent κ Buffer V) : Prop :=
  server.state ≠ .disposed ∧
    ∃ index run, event = .attempt index .proceed ∧
      server.runs[index]? = some (.attempt run) ∧
        FateRecorded config.operators run.context run.history ∧
          server.HasSent config run

/-- Every call of `acknowledge` is made by a run that has recorded the fate of
its attempt, on a server that is not disposed, and a run whose default retry
failed never makes one. -/
theorem acknowledge_records_fate
    (config : JobServerConfig Buffer V)
    (schedule : List (JobServerEvent κ Buffer V))
    (server : JobServer κ Buffer V)
    (execution :
      (machine config).run (machine config).initial schedule = some server) :
    (∀ event next, server.step config event = some next →
      next.acknowledged ≠ server.acknowledged →
        server.RecordsFate config event) ∧
      ∀ run, JobRun.attempt run ∈ server.runs →
        ∀ call, .defaultRetryRejected call ∈ run.history →
          ∀ tag, .acknowledged tag ∉ run.history := by
  constructor
  · intro event next stepped acknowledging
    obtain ⟨live, index, run, same, present, processed⟩ :=
      acknowledged_step stepped acknowledging
    have member := List.mem_of_getElem? present
    have recorded := (runs_recorded execution run member).2
    exact ⟨live, index, run, same, present, recorded.processed processed,
      hasSent_run execution run member⟩
  · intro run member
    exact (runs_recorded execution run member).2.rejected

/-- The handler rejects and the default retry is published and confirmed. -/
def retriedAttempt : List (JobServerEvent ℕ (SerializedContext ℤ) ℤ) :=
  firstDelivery ++
    [.attempt 0 (.handlerSettled .rejected),
      .attempt 0 (.handleErrorSettled .rejected),
      .attempt 0 (.retryQueueSettled 0 .fulfilled),
      .attempt 0 (.sendSettled 0 .fulfilled),
      .attempt 0 .defaultRetrySettled]

theorem acknowledge_records_fate_retried :
    ∃ server next : JobServer ℕ (SerializedContext ℤ) ℤ,
      (machine integerConfig).run (machine integerConfig).initial
          retriedAttempt = some server ∧
        server.step integerConfig (.attempt 0 .proceed) = some next ∧
        next.acknowledged = [⟨0, 1⟩] ∧
        server.RecordsFate integerConfig (.attempt 0 .proceed) :=
  ⟨_, _, rfl, rfl, rfl,
    (acknowledge_records_fate integerConfig retriedAttempt _ rfl).1
      (.attempt 0 .proceed) _ rfl (List.cons_ne_nil _ _)⟩

end JobServer

end Amq.Jobs
